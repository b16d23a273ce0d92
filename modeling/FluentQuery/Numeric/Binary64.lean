/-
  Binary floating-point numbers of 64 bits, as exact numbers. A finite number is kept in its one
  canonical form, so two numbers are the same exactly when their parts are. Every operation is the
  exact one followed by one rounding to the nearest number, a tie going to the even significand.
-/
import FluentQuery.Fault

namespace FluentQuery

/-- A finite number `±significand · 2 ^ exponent` in canonical form: the significand is as large as
53 bits allow unless the exponent is the least one. -/
structure FiniteBinary64 where
  negative : Bool
  significand : Nat
  exponent : Int
  significand_lt : significand < Nat.pow 2 53
  le_exponent : -1074 ≤ exponent
  exponent_le : exponent ≤ 971
  canonical : Nat.pow 2 52 ≤ significand ∨ exponent = -1074
  deriving DecidableEq, Repr

/-- A floating-point number of 64 bits; all NaNs are one. -/
inductive Binary64 where
  | nan
  | infinite (negative : Bool)
  | finite (x : FiniteBinary64)
  deriving DecidableEq, Repr

namespace FiniteBinary64

/-- The magnitude as a fraction. -/
def ratio (x : FiniteBinary64) : Nat × Nat :=
  if 0 ≤ x.exponent then (x.significand * Nat.pow 2 x.exponent.toNat, 1)
  else (x.significand, Nat.pow 2 (-x.exponent).toNat)

/-- Whether the number is whole. -/
def isIntegral (x : FiniteBinary64) : Bool := x.ratio.1 % x.ratio.2 = 0

/-- The number without its fractional part. -/
def truncate (x : FiniteBinary64) : Int :=
  let magnitude : Int := x.ratio.1 / x.ratio.2
  if x.negative then -magnitude else magnitude

/-- The number is zero, of either sign. -/
def isZero (x : FiniteBinary64) : Bool := x.significand = 0

end FiniteBinary64

namespace Binary64

/-- The number with these parts; beyond the greatest finite number it is infinite. -/
def ofParts (negative : Bool) (significand : Nat) (exponent : Int) : Binary64 :=
  if h : significand < Nat.pow 2 53 ∧ -1074 ≤ exponent ∧ exponent ≤ 971 ∧
      (Nat.pow 2 52 ≤ significand ∨ exponent = -1074) then
    .finite ⟨negative, significand, exponent, h.1, h.2.1, h.2.2.1, h.2.2.2⟩
  else .infinite negative

/-- Zero with a sign. -/
def zero (negative : Bool) : Binary64 :=
  .finite ⟨negative, 0, -1074, by decide, by decide, by decide, .inr rfl⟩

/-- The whole number nearest to `num / den`, a half going to the even neighbour. -/
def roundHalfEven (num den : Nat) : Nat :=
  let quotient := num / den
  let twice := 2 * (num % den)
  if twice < den then quotient
  else if den < twice then quotient + 1
  else if quotient % 2 = 0 then quotient else quotient + 1

/-- The exponent at which `num / den` has a significand of 53 bits, and at least the least exponent. -/
def scaleOf (num den : Nat) : Int :=
  let estimate : Int := (Nat.log2 num : Int) - (Nat.log2 den : Int)
  let reachesOne :=
    if 0 ≤ estimate then den * Nat.pow 2 estimate.toNat ≤ num
    else den ≤ num * Nat.pow 2 (-estimate).toNat
  max (-1074) ((if reachesOne then estimate else estimate - 1) - 52)

/-- The number nearest to `±num / den`. -/
def ofRatio (negative : Bool) (num den : Nat) : Binary64 :=
  if num = 0 then zero negative
  else
    let scale := scaleOf num den
    let significand :=
      if 0 ≤ scale then roundHalfEven num (den * Nat.pow 2 scale.toNat)
      else roundHalfEven (num * Nat.pow 2 (-scale).toNat) den
    if significand = Nat.pow 2 53 then ofParts negative (Nat.pow 2 52) (scale + 1)
    else ofParts negative significand scale

/-- The number nearest to `±digits · 10 ^ exponent`. Magnitudes that are certain to overflow or to
vanish are decided from the size of the exponent alone. -/
def ofDecimal (negative : Bool) (digits : Nat) (exponent : Int) : Binary64 :=
  if digits = 0 then zero negative
  else
    let bits : Int := Nat.log2 digits
    if 0 ≤ exponent then
      if 1024 ≤ bits + 3 * exponent then .infinite negative
      else ofRatio negative (digits * Nat.pow 10 exponent.toNat) 1
    else if bits + 1 + 3 * exponent ≤ -1076 then zero negative
    else ofRatio negative digits (Nat.pow 10 (-exponent).toNat)

/-- The number nearest to an integer, refused where that is not finite. -/
def ofInt (n : Int) : Except Fault Binary64 :=
  match ofRatio (n < 0) n.natAbs 1 with
  | .finite x => .ok (.finite x)
  | _ => .error .numberOutOfRange

/-- The integer part, refused for infinities and NaN. -/
def truncate : Binary64 → Except Fault Int
  | .nan => .error .malformedNumber
  | .infinite _ => .error .numberOutOfRange
  | .finite x => .ok x.truncate

/-- Whether the number is finite and whole. -/
def isIntegral : Binary64 → Bool
  | .finite x => x.isIntegral
  | _ => false

/-- Whether the number is zero, of either sign. -/
def isZero : Binary64 → Bool
  | .finite x => x.isZero
  | _ => false

/-- Whether the sign is a minus; a NaN has none. -/
def isNegative : Binary64 → Bool
  | .nan => false
  | .infinite negative => negative
  | .finite x => x.negative

/-- Equality of numbers: NaN equals nothing, and the two zeros are equal. -/
def numEq (x y : Binary64) : Bool :=
  match x, y with
  | .nan, _ => false
  | _, .nan => false
  | x, y => x = y || (x.isZero && y.isZero)

/-- Whether the number is this integer. -/
def eqInt (x : Binary64) (n : Int) : Bool :=
  match x with
  | .finite x => x.isIntegral && x.truncate = n
  | _ => false

/-- The product, rounded once. -/
def mul (x y : Binary64) : Binary64 :=
  let negative := x.isNegative != y.isNegative
  match x, y with
  | .nan, _ => .nan
  | _, .nan => .nan
  | .infinite _, y => if y.isZero then .nan else .infinite negative
  | x, .infinite _ => if x.isZero then .nan else .infinite negative
  | .finite x, .finite y =>
    ofRatio negative (x.ratio.1 * y.ratio.1) (x.ratio.2 * y.ratio.2)

end Binary64

end FluentQuery
