/-
  Texts as lists of code points: the four characters that delimit or escape literals, searching, the
  last line, and joining. Every index, cursor and length of the library counts code points of such a
  list, and every scan recurses on it.
-/
import FluentQuery.Text.CodePoint

namespace FluentQuery

/-- A text is the list of its code points. -/
abbrev Text := List CodePoint

instance : LawfulBEq Text := inferInstanceAs (LawfulBEq (List CodePoint))

/-- The text of some characters. -/
def Text.ofChars (chars : List Char) : Text := chars.map .char

instance : Coe (List Char) Text := ⟨Text.ofChars⟩

instance : Coe String Text := ⟨fun s => Text.ofChars s.toList⟩

namespace Text

/-- The text as a string of characters. -/
def asString (text : Text) : String := .ofList (text.map CodePoint.toChar)

@[simp]
theorem ofChars_nil : ofChars [] = [] := rfl

@[simp]
theorem ofChars_cons (c : Char) (chars : List Char) :
    ofChars (c :: chars) = .char c :: ofChars chars := rfl

@[simp]
theorem ofChars_append (a b : List Char) : ofChars (a ++ b) = ofChars a ++ ofChars b :=
  List.map_append

@[simp]
theorem length_ofChars (chars : List Char) : (ofChars chars).length = chars.length :=
  List.length_map _

/-- The quote that opens and closes a literal such as `'users'`. -/
def singleQuote : CodePoint := '\x27'

/-- The quote that opens and closes a literal such as `"users"`. -/
def doubleQuote : CodePoint := '\x22'

/-- The quote of a template literal. -/
def backtick : CodePoint := '\x60'

/-- The character that takes the meaning away from a quote behind it. -/
def backslash : CodePoint := '\x5c'

/-- Whether `needle` stands somewhere in the text. -/
def occursIn (needle : Text) : Text → Bool
  | [] => needle.isEmpty
  | c :: rest => needle.isPrefixOf (c :: rest) || occursIn needle rest

theorem occursIn_eq_true_iff {needle text : Text} :
    occursIn needle text = true ↔ needle <:+: text := by
  induction text with
  | nil => rw [occursIn, List.isEmpty_iff, List.infix_nil]
  | cons c rest ih =>
    rw [occursIn, Bool.or_eq_true, List.isPrefixOf_iff_prefix, ih, List.infix_cons_iff]

/-- Whether the text begins with `start`. -/
def startsWith (start text : Text) : Bool := start.isPrefixOf text

/-- What is left of the text behind `start`, if the text begins with it. -/
def after? : (start text : Text) → Option Text
  | [], text => some text
  | _ :: _, [] => none
  | s :: start, c :: text => if s = c then after? start text else none

theorem after?_eq_some_iff {start text rest : Text} :
    after? start text = some rest ↔ text = start ++ rest := by
  induction start generalizing text with
  | nil => simp [after?, eq_comm]
  | cons s start ih =>
    cases text with
    | nil => simp [after?]
    | cons c text =>
      by_cases h : s = c
      · simp [after?, h, ih]
      · simp [after?, h, Ne.symm h]

/-- The part before the first `c`, the whole text if it has none. -/
def upTo (c : CodePoint) (text : Text) : Text := text.takeWhile (· ≠ c)

/-- The part from the first `c` on, nothing if there is none. -/
def since (c : CodePoint) (text : Text) : Text := text.dropWhile (· ≠ c)

/-- The part behind the last `c`, the whole text if it has none. -/
def behindLast (c : CodePoint) (text : Text) : Text := (text.reverse.takeWhile (· ≠ c)).reverse

/-- The text without the `c` that stand at its end. -/
def dropTrailing (c : CodePoint) (text : Text) : Text := (text.reverse.dropWhile (· = c)).reverse

/-- How often `c` stands in the text. -/
def countOf (c : CodePoint) (text : Text) : Nat := text.count c

/-- The part behind the last line break, the whole text if it has none. -/
def lastLine (text : Text) : Text := behindLast '\n' text

/-- The last `/`-separated segment of a path; the path itself where that segment is empty. -/
def lastSegment (path : Text) : Text :=
  match behindLast '/' path with
  | [] => path
  | segment => segment

/-- The texts in a row with `separator` between any two of them. -/
def join (separator : Text) : List Text → Text
  | [] => []
  | [last] => last
  | head :: next :: rest => head ++ separator ++ join separator (next :: rest)

/-- Every `old` character written as `new`. -/
def replaceChar (old new : CodePoint) (text : Text) : Text :=
  text.map fun c => if c = old then new else c

/-- `count` copies of a character. -/
def filled (count : Nat) (c : CodePoint) : Text := List.replicate count c

/-- The text with `fill` in front as far as it is shorter than `width`. -/
def padLeft (width : Nat) (fill : CodePoint) (text : Text) : Text :=
  filled (width - text.length) fill ++ text

/-- The text with `fill` behind it as far as it is shorter than `width`. -/
def padRight (width : Nat) (fill : CodePoint) (text : Text) : Text :=
  text ++ filled (width - text.length) fill

/-- An ASCII character that may stand in an identifier: letter, digit, `_` or `$`. -/
def isIdentChar (c : CodePoint) : Bool := c.isAlphanum || c = '_' || c = '$'

/-- The position in the text that a cursor stands for: below the start it is the start, beyond the
end it is the end. -/
def clampCursor (text : Text) (cursor : Int) : Nat := min cursor.toNat text.length

theorem clampCursor_le (text : Text) (cursor : Int) : text.clampCursor cursor ≤ text.length :=
  Nat.min_le_right _ _

end Text

end FluentQuery
