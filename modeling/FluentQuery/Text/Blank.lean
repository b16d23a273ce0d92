/-
  White space and its removal from the ends of a text. A blank is a character with the Unicode
  property White_Space or one of the four separators U+001C to U+001F.
-/
import FluentQuery.Text.Basic

namespace FluentQuery.Text

/-- Whether the character is white space. -/
def isBlank (c : CodePoint) : Bool :=
  let n := c.toNat
  (0x09 ≤ n && n ≤ 0x0D) || (0x1C ≤ n && n ≤ 0x20) || n = 0x85 || n = 0xA0 || n = 0x1680 ||
    (0x2000 ≤ n && n ≤ 0x200A) || n = 0x2028 || n = 0x2029 || n = 0x202F || n = 0x205F || n = 0x3000

/-- The text without the blanks at its start. -/
def trimStart (text : Text) : Text := text.dropWhile isBlank

/-- The text without the blanks at its end. -/
def trimEnd (text : Text) : Text := (text.reverse.dropWhile isBlank).reverse

/-- The text without the blanks at its ends. -/
def trim (text : Text) : Text := trimEnd (trimStart text)

/-- Whether nothing but blanks stands in the text. -/
def isAllBlank (text : Text) : Bool := text.all isBlank

theorem trimEnd_sublist (text : Text) : (trimEnd text).Sublist text := by
  rw [← List.reverse_sublist, trimEnd, List.reverse_reverse]
  exact List.dropWhile_sublist isBlank

theorem trim_sublist (text : Text) : (trim text).Sublist text :=
  (trimEnd_sublist (trimStart text)).trans (List.dropWhile_sublist isBlank)

theorem length_trimEnd_le (text : Text) : (trimEnd text).length ≤ text.length :=
  (trimEnd_sublist text).length_le

theorem length_trim_le (text : Text) : (trim text).length ≤ text.length :=
  (trim_sublist text).length_le

/-- What the end loses is blank. -/
theorem trimEnd_append_blanks (text : Text) :
    ∃ blanks : Text, text = trimEnd text ++ blanks ∧ blanks.all isBlank = true := by
  refine ⟨(text.reverse.takeWhile isBlank).reverse, ?_, ?_⟩
  · unfold trimEnd
    rw [← List.reverse_append, List.takeWhile_append_dropWhile, List.reverse_reverse]
  · rw [List.all_reverse]
    exact List.all_takeWhile

end FluentQuery.Text
