/-
  Decimal text of integers, with the bound of 4300 digits that holds for every conversion between
  integers and text. What is written reads back: `readDigits_toDigits`.
-/
import FluentQuery.Fault
import FluentQuery.Text.Digit

namespace FluentQuery.Decimal

/-- The greatest number of decimal digits of an integer that is read or written. -/
def maxDigits : Nat := 4300

/-- The number that a list of digit values stands for, highest digit first. -/
def readDigits (digits : List Nat) : Nat := digits.foldl (fun n d => 10 * n + d) 0

/-- The decimal digits of a natural number. -/
def ofNat (n : Nat) : Text := Text.ofChars (Nat.toDigits 10 n)

/-- The decimal text of an integer of any size. -/
def ofInt (n : Int) : Text :=
  if n < 0 then '-' :: ofNat n.natAbs else ofNat n.natAbs

/-- The decimal text of an integer, refused beyond the bound on digits. -/
def write (n : Int) : Except Fault Text :=
  if (ofNat n.natAbs).length ≤ maxDigits then .ok (ofInt n) else .error .tooManyDigits

/-- The values of the characters, if all of them are decimal digits. -/
def digitValues? : Text → Option (List Nat)
  | [] => some []
  | c :: rest => do
    let d ← Text.digitValue? c
    let ds ← digitValues? rest
    return d :: ds

/-- The number that the digit values stand for, refused beyond the bound on digits. -/
def readBounded (digits : List Nat) : Except Fault Nat :=
  if digits.length ≤ maxDigits then .ok (readDigits digits) else .error .tooManyDigits

/-- An integer from its sign and its digit values, refused beyond the bound on digits. -/
def readSigned (negative : Bool) (digits : List Nat) : Except Fault Int := do
  let n ← readBounded digits
  return if negative then -(n : Int) else (n : Int)

theorem digitValue?_digitChar {d : Nat} (h : d < 10) : Text.digitValue? d.digitChar = some d := by
  have : ∀ d < 10, Text.digitValue? (Nat.digitChar d) = some d := by decide
  exact this d h

theorem digitValues?_append (a b : Text) :
    digitValues? (a ++ b) = do
      let x ← digitValues? a
      let y ← digitValues? b
      return x ++ y := by
  induction a with
  | nil => cases h : digitValues? b <;> simp [digitValues?, h]
  | cons c a ih =>
    cases hc : Text.digitValue? c <;> cases ha : digitValues? a <;> cases hb : digitValues? b <;>
      simp_all [digitValues?]

theorem readDigits_append_singleton (digits : List Nat) (d : Nat) :
    readDigits (digits ++ [d]) = 10 * readDigits digits + d := by
  simp [readDigits]

/-- The digits of a number are digits, and they stand for that number. -/
theorem readDigits_toDigits (n : Nat) :
    ∃ digits, digitValues? (ofNat n) = some digits ∧ digits.length = (ofNat n).length ∧
      readDigits digits = n := by
  induction n using Nat.strongRecOn with
  | ind n ih =>
    unfold ofNat at ih ⊢
    by_cases h : n < 10
    · refine ⟨[n], ?_, ?_, ?_⟩
      · rw [Nat.toDigits_of_lt_base h]; simp [digitValues?, digitValue?_digitChar h]
      · rw [Nat.toDigits_of_lt_base h]; rfl
      · simp [readDigits]
    · have h : 10 ≤ n := Nat.le_of_not_lt h
      obtain ⟨digits, h1, h2, h3⟩ := ih (n / 10) (by omega)
      refine ⟨digits ++ [n % 10], ?_, ?_, ?_⟩
      · rw [Nat.toDigits_of_base_le (by decide) h, Text.ofChars_append, digitValues?_append, h1]
        simp [digitValues?, digitValue?_digitChar (Nat.mod_lt n (by decide : 0 < 10))]
      · rw [Nat.toDigits_of_base_le (by decide) h]; simp [h2]
      · rw [readDigits_append_singleton, h3]; omega

end FluentQuery.Decimal
