/-
  Lower case of texts: the full Unicode mapping, with the two rules that go beyond single characters
  (`İ` becomes two characters, and a sigma that ends a word takes its final form), and the
  upper case as far as it lands in ASCII. The lemmas at the end say that ASCII texts are mapped
  character by character.
-/
import FluentQuery.Text.Basic
import FluentQuery.Text.CaseTable

namespace FluentQuery.Text

/-- Whether the character lies in one of the ranges. -/
def inRanges (ranges : List (Nat × Nat)) (c : CodePoint) : Bool :=
  ranges.any fun range => range.1 ≤ c.toNat && c.toNat ≤ range.2

/-- The lower case of a character on its own, as a character. -/
def lowerChar (c : CodePoint) : CodePoint :=
  if c.toNat < 0x80 then c.toLower
  else
    match lowerRuns.find? fun run =>
      run.1 ≤ c.toNat && c.toNat ≤ run.2.1 && (c.toNat - run.1) % run.2.2.1 = 0 with
    | some run => .ofNat (c.toNat + run.2.2.2).toNat
    | none => c

/-- Whether the nearest character that the final-sigma rule does not look past has case. -/
def nextHasCase (text : Text) : Bool :=
  match text.dropWhile (inRanges caseIgnorableRanges) with
  | [] => false
  | c :: _ => inRanges casedRanges c

/-- The lower case of a character between the text before it, nearest character first, and the text
behind it. -/
def lowerAt (before : Text) (c : CodePoint) (rest : Text) : Text :=
  if c = 'Σ' then
    if nextHasCase before && !nextHasCase rest then ['ς'] else ['σ']
  else if c = 'İ' then ['i', '\u0307']
  else [lowerChar c]

/-- The lower case of a text that follows `before`, whose nearest character comes first. -/
def lowerAfter (before : Text) : Text → Text
  | [] => []
  | c :: rest => lowerAt before c rest ++ lowerAfter (c :: before) rest

/-- The text in lower case. -/
def lower (text : Text) : Text := lowerAfter [] text

/-- The characters beyond ASCII whose upper case consists of ASCII letters. -/
def asciiUpperExceptions : List (CodePoint × Text) :=
  [('ß', "SS"), ('ı', "I"), ('ſ', "S"), ('ﬀ', "FF"), ('ﬁ', "FI"), ('ﬂ', "FL"), ('ﬃ', "FFI"),
   ('ﬄ', "FFL"), ('ﬅ', "ST"), ('ﬆ', "ST")]

/-- The upper case of a text as far as it consists of ASCII characters; a character whose upper case
lies elsewhere stays as it is, which no comparison with an ASCII text can tell apart. -/
def asciiUpper (text : Text) : Text :=
  text.flatMap fun c => (asciiUpperExceptions.lookup c).getD [c.toUpper]

/-- Whether the character is one of the first 128. -/
def isAscii (c : CodePoint) : Bool := c.toNat < 0x80

theorem lowerChar_of_isAscii {c : CodePoint} (h : isAscii c = true) : lowerChar c = c.toLower := by
  have h : c.toNat < 0x80 := by simpa [isAscii] using h
  simp [lowerChar, h]

theorem lowerAt_of_isAscii {c : CodePoint} (h : isAscii c = true) (before rest : Text) :
    lowerAt before c rest = [c.toLower] := by
  have h1 : c ≠ 'Σ' := fun e => by subst e; revert h; decide
  have h2 : c ≠ 'İ' := fun e => by subst e; revert h; decide
  simp [lowerAt, h1, h2, lowerChar_of_isAscii h]

theorem lowerAfter_of_isAscii {text : Text} (h : text.all isAscii = true) (before : Text) :
    lowerAfter before text = text.map CodePoint.toLower := by
  induction text generalizing before with
  | nil => rfl
  | cons c rest ih =>
    simp only [List.all_cons, Bool.and_eq_true] at h
    simp [lowerAfter, lowerAt_of_isAscii h.1, ih h.2]

/-- An ASCII text is put in lower case character by character. -/
theorem lower_of_isAscii {text : Text} (h : text.all isAscii = true) :
    lower text = text.map CodePoint.toLower := lowerAfter_of_isAscii h []

end FluentQuery.Text
