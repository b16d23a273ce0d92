/-
  Code points: the characters, and the surrogates. A surrogate is half of a pair that stands for one
  character; on its own it is no character, but escapes can name it.
-/

namespace FluentQuery

/-- A code point. -/
inductive CodePoint where
  | char (c : Char)
  /-- The surrogate with the number `0xD800 + offset`. -/
  | surrogate (offset : Fin 0x800)
  deriving DecidableEq, Repr

instance : Coe Char CodePoint := ⟨.char⟩

namespace CodePoint

/-- The number of a code point. -/
def toNat : CodePoint → Nat
  | char c => c.toNat
  | surrogate offset => 0xD800 + offset.val

/-- The code point with a number; a number beyond the last one counts as zero. -/
def ofNat (n : Nat) : CodePoint :=
  if h : 0xD800 ≤ n ∧ n < 0xE000 then surrogate ⟨n - 0xD800, by omega⟩ else char (Char.ofNat n)

/-- Whether it is half of a pair rather than a character. -/
def isSurrogate : CodePoint → Bool
  | char _ => false
  | surrogate _ => true

/-- The character; the replacement character stands in for a surrogate. -/
def toChar : CodePoint → Char
  | char c => c
  | surrogate _ => '\ufffd'

/-- Whether it is an ASCII digit. -/
def isDigit : CodePoint → Bool
  | char c => c.isDigit
  | surrogate _ => false

/-- Whether it is an ASCII letter or digit. -/
def isAlphanum : CodePoint → Bool
  | char c => c.isAlphanum
  | surrogate _ => false

/-- The lower case of an ASCII letter; anything else stays as it is. -/
def toLower : CodePoint → CodePoint
  | char c => char c.toLower
  | surrogate offset => surrogate offset

/-- The upper case of an ASCII letter; anything else stays as it is. -/
def toUpper : CodePoint → CodePoint
  | char c => char c.toUpper
  | surrogate offset => surrogate offset

theorem toNat_char (c : Char) : toNat (char c) = c.toNat := rfl

/-- The ASCII digits lie between `0` and `9`. -/
theorem toNat_of_isDigit {p : CodePoint} (h : p.isDigit = true) :
    0x30 ≤ p.toNat ∧ p.toNat ≤ 0x39 := by
  cases p with
  | char c =>
    simp only [isDigit, Char.isDigit, ge_iff_le, Bool.and_eq_true, decide_eq_true_eq] at h
    exact h
  | surrogate offset => cases h

end CodePoint

end FluentQuery
