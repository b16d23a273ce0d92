/-
  The decimal text of a floating-point number: the fewest significant digits that read back as the
  number, of those the ones nearest to it, laid out positionally from 0.0001 up to 10^16 and with an
  exponent of at least two digits elsewhere.
-/
import FluentQuery.Numeric.Binary64
import FluentQuery.Numeric.Decimal

namespace FluentQuery

/-- A decimal number `digits · 10 ^ exponent`. -/
structure ScaledDecimal where
  digits : Nat
  exponent : Int
  deriving DecidableEq, Repr

namespace FiniteBinary64

/-- The number of digits before the decimal point of `num / den`, negative or zero below 1/10. -/
def pointOf (num den : Nat) : Int :=
  let estimate : Int := ((Decimal.ofNat num).length : Int) - (Decimal.ofNat den).length
  let reaches :=
    if 0 ≤ estimate then den * Nat.pow 10 estimate.toNat ≤ num
    else den ≤ num * Nat.pow 10 (-estimate).toNat
  if reaches then estimate + 1 else estimate

/-- Whether the decimal is read back as the number. -/
def readsBackFrom (x : FiniteBinary64) (d : ScaledDecimal) : Bool :=
  Binary64.ofDecimal x.negative d.digits d.exponent = .finite x

/-- The decimal of the grid `10 ^ exponent` that reads back as the number and is nearest to it. -/
def nearestOnGrid (x : FiniteBinary64) (exponent : Int) : Option ScaledDecimal :=
  let num := if 0 ≤ exponent then x.ratio.1 else x.ratio.1 * Nat.pow 10 (-exponent).toNat
  let den := if 0 ≤ exponent then x.ratio.2 * Nat.pow 10 exponent.toNat else x.ratio.2
  let near := Binary64.roundHalfEven num den
  let other := if near = num / den then near + 1 else near - 1
  if x.readsBackFrom ⟨near, exponent⟩ then some ⟨near, exponent⟩
  else if x.readsBackFrom ⟨other, exponent⟩ then some ⟨other, exponent⟩
  else none

/-- The shortest decimal among those of at least `used` and at most `used + more` digits. -/
def shortestFrom (x : FiniteBinary64) (point : Int) (used : Nat) : Nat → ScaledDecimal
  | 0 => (x.nearestOnGrid (point - used)).getD ⟨0, 0⟩
  | more + 1 => (x.nearestOnGrid (point - used)).getD (shortestFrom x point (used + 1) more)

/-- The shortest decimal that reads back as the number; 17 digits always do. -/
def shortest (x : FiniteBinary64) : ScaledDecimal :=
  if x.isZero then ⟨0, 0⟩ else shortestFrom x (pointOf x.ratio.1 x.ratio.2) 1 16

end FiniteBinary64

namespace ScaledDecimal

/-- Digits and point in place, with at least one digit on either side of the point. -/
def positional (digits : Text) (point : Int) : Text :=
  if point ≤ 0 then "0." ++ Text.filled (-point).toNat '0' ++ digits
  else
    let whole := point.toNat
    if digits.length ≤ whole then
      digits ++ Text.filled (whole - digits.length) '0' ++ ".0"
    else digits.take whole ++ "." ++ digits.drop whole

/-- One digit before the point, no point without digits behind it, and a signed exponent of at least
two digits. -/
def scientific (digits : Text) (exponent : Int) : Text :=
  let fraction := digits.drop 1
  digits.take 1 ++ (if fraction = [] then [] else List.append "." fraction) ++
    (if exponent < 0 then "e-" else "e+") ++
    Text.padLeft 2 '0' (Decimal.ofNat exponent.natAbs)

/-- The text of the decimal; trailing zeros of the digits count towards the exponent. -/
def toText (d : ScaledDecimal) : Text :=
  let digits := Decimal.ofNat d.digits
  let point : Int := digits.length + d.exponent
  let significant := Text.dropTrailing '0' digits
  if d.digits = 0 then "0.0"
  else if -4 < point && point ≤ 16 then positional significant point
  else scientific significant (point - 1)

end ScaledDecimal

/-- The text of a floating-point number. -/
def Binary64.toText : Binary64 → Text
  | .nan => "nan"
  | .infinite negative => if negative then "-inf" else "inf"
  | .finite x => Text.ofChars (if x.negative then ['-'] else []) ++ x.shortest.toText

end FluentQuery
