/-
  Products with one. A finite number is the number nearest to its own fraction, in whatever powers of two that
  is written (`ofRatio_of_exact`), so a factor of one changes no number, be it infinite or NaN (`mul_one`).
-/
import FluentQuery.Proofs.Numeric.WholeNumbers

namespace FluentQuery.Binary64

/-! ## The fraction of a finite number -/

section

variable (x : FiniteBinary64) {a b : Nat} (h : (a : Int) - b = x.exponent)

include h

/-- A fraction with the significand of a finite number is scaled by its exponent. -/
theorem scaleOf_of_exact (hne : x.significand ≠ 0) :
    scaleOf (x.significand * 2 ^ a) (2 ^ b) = x.exponent := by
  have hbits : Nat.log2 x.significand < 53 := (Nat.log2_lt hne).2 x.significand_lt
  have hleast := x.le_exponent
  rw [scaleOf_mul_two_pow hne]
  rcases x.canonical with hfull | hexponent
  · have hlog : 52 ≤ Nat.log2 x.significand := (Nat.le_log2 hne).2 hfull
    omega
  · omega

/-- Scaled by the exponent the fraction is the significand, and nothing is left to round. -/
theorem roundHalfEven_of_exact :
    (if 0 ≤ x.exponent then roundHalfEven (x.significand * 2 ^ a) (2 ^ b * Nat.pow 2 x.exponent.toNat)
      else roundHalfEven (x.significand * 2 ^ a * Nat.pow 2 (-x.exponent).toNat) (2 ^ b)) =
      x.significand := by
  have hexact (k : Nat) : roundHalfEven (x.significand * 2 ^ k) (2 ^ k) = x.significand := by
    rw [roundHalfEven_of_dvd (Nat.two_pow_pos k) (Nat.dvd_mul_left _ _),
      Nat.mul_div_cancel _ (Nat.two_pow_pos k)]
  split_ifs with hsign
  · have hpower : b + x.exponent.toNat = a := by omega
    rw [Nat.pow_eq, ← Nat.pow_add, hpower, hexact]
  · have hpower : a + (-x.exponent).toNat = b := by omega
    rw [Nat.pow_eq, Nat.mul_assoc, ← Nat.pow_add, hpower, hexact]

/-- The number nearest to the fraction of a finite number is that number. -/
theorem ofRatio_of_exact :
    ofRatio x.negative (x.significand * 2 ^ a) (2 ^ b) = .finite x := by
  rcases Nat.eq_zero_or_pos x.significand with hzero | hpos
  · -- Zero has no bits that could fix its exponent: it is canonical with the least one.
    obtain ⟨negative, m, e, hm, hlow, hhigh, hcanonical⟩ := x
    obtain rfl : m = 0 := hzero
    obtain rfl : e = -1074 := hcanonical.resolve_left (by decide)
    rw [Nat.zero_mul]
    rfl
  · have hne : x.significand ≠ 0 := Nat.ne_of_gt hpos
    unfold ofRatio
    rw [if_neg (Nat.mul_ne_zero hne (Nat.ne_of_gt (Nat.two_pow_pos a))), scaleOf_of_exact x h hne]
    dsimp only
    rw [roundHalfEven_of_exact x h, if_neg (Nat.ne_of_lt x.significand_lt)]
    exact dif_pos ⟨x.significand_lt, x.le_exponent, x.exponent_le, x.canonical⟩

end

/-- Only one of the two powers of two in the fraction differs from one. -/
theorem ratio_eq (x : FiniteBinary64) :
    x.ratio = (x.significand * 2 ^ x.exponent.toNat, 2 ^ (-x.exponent).toNat) := by
  unfold FiniteBinary64.ratio
  split_ifs with hsign
  · rw [Int.toNat_of_nonpos (by omega : -x.exponent ≤ 0)]
    rfl
  · rw [Int.toNat_of_nonpos (by omega : x.exponent ≤ 0), Nat.pow_zero, Nat.mul_one]
    rfl

/-! ## The factor one -/

/-- The floating-point number one. -/
def one : Binary64 := ofDecimal false 1 0

theorem one_eq : one = .finite ⟨false, 2 ^ 52, -52, by decide, by decide, by decide, by decide⟩ := by
  decide

/-- A factor of one changes nothing. -/
theorem mul_one (x : Binary64) : x.mul one = x := by
  rw [one_eq]
  cases x with
  | nan => rfl
  | infinite negative => cases negative <;> rfl
  | finite x =>
    have hexact := ofRatio_of_exact x (a := x.exponent.toNat + 52) (b := (-x.exponent).toNat + 52)
      (by omega)
    rw [Nat.pow_add, Nat.pow_add, ← Nat.mul_assoc] at hexact
    unfold mul
    dsimp only
    rw [ratio_eq x]
    simpa [isNegative, FiniteBinary64.ratio] using hexact

end FluentQuery.Binary64
