/-
  Whole numbers as floating-point numbers of 64 bits. A whole number is rounded to a multiple of a power of
  two (`rounded`), with 53 bits left above it, and the result is that multiple, or infinite from 2 ^ 1024 on
  (`isWhole_ofRatio`). So exactly the numbers `m · 2 ^ k` with at most 53 bits in `m` are kept as they are
  (`rounded_eq_iff`), and rounding stays in range exactly below the middle between the greatest finite number
  and 2 ^ 1024 (`rounded_lt_iff`).
-/
import FluentQuery.Numeric.Binary64
import Mathlib

namespace FluentQuery.Binary64

/-! ## Rounding to a whole number -/

theorem le_roundHalfEven (num den : Nat) : num / den ≤ roundHalfEven num den := by
  unfold roundHalfEven
  dsimp only
  split_ifs <;> omega

theorem roundHalfEven_le (num den : Nat) : roundHalfEven num den ≤ num / den + 1 := by
  unfold roundHalfEven
  dsimp only
  split_ifs <;> omega

theorem roundHalfEven_one (num : Nat) : roundHalfEven num 1 = num := by
  unfold roundHalfEven
  dsimp only
  rw [Nat.mod_one, Nat.div_one, if_pos (by decide)]

theorem roundHalfEven_of_dvd {num den : Nat} (hden : 0 < den) (h : den ∣ num) :
    roundHalfEven num den = num / den := by
  unfold roundHalfEven
  dsimp only
  rw [Nat.mod_eq_zero_of_dvd h, if_pos (by omega)]

/-- Below the middle in front of an even number nothing is rounded up to it; the middle itself is. -/
theorem roundHalfEven_lt_iff {num den q : Nat} (heven : q % 2 = 0) (h : num < q * den) :
    roundHalfEven num den < q ↔ 2 * num + den < 2 * (q * den) := by
  have hden : 0 < den := Nat.pos_of_ne_zero fun hzero => by simp [hzero] at h
  have hsplit := Nat.div_add_mod num den
  have hmod := Nat.mod_lt num hden
  have hlt : num / den < q := (Nat.div_lt_iff_lt_mul hden).2 h
  obtain ⟨more, rfl⟩ := Nat.exists_eq_add_of_le hlt
  have hmul : (num / den + 1 + more) * den = den * (num / den) + den + more * den := by ring
  rw [Nat.succ_eq_add_one, hmul]
  rcases Nat.eq_zero_or_pos more with rfl | hmore
  · unfold roundHalfEven
    dsimp only
    split_ifs <;> omega
  · have hle := roundHalfEven_le num den
    have hstep : den ≤ more * den := Nat.le_mul_of_pos_left den hmore
    exact iff_of_true (by omega) (by omega)

/-! ## The multiple that a whole number is rounded to -/

/-- The power of two that a number is rounded to a multiple of: it leaves 53 bits. -/
def unit (n : Nat) : Nat := 2 ^ (Nat.log2 n - 52)

/-- The multiple of its unit that is nearest to a number. -/
def rounded (n : Nat) : Nat := roundHalfEven n (unit n) * unit n

theorem unit_pos (n : Nat) : 0 < unit n := Nat.pow_pos (by decide)

theorem unit_of_lt {n : Nat} (h : n < 2 ^ 53) : unit n = 1 := by
  have hlog : Nat.log2 n < 53 := by
    rcases Nat.eq_zero_or_pos n with rfl | hpos
    · decide
    · exact (Nat.log2_lt (Nat.ne_of_gt hpos)).2 h
  rw [unit, Nat.sub_eq_zero_of_le (Nat.le_of_lt_succ hlog), Nat.pow_zero]

theorem rounded_of_lt {n : Nat} (h : n < 2 ^ 53) : rounded n = n := by
  rw [rounded, unit_of_lt h, roundHalfEven_one, Nat.mul_one]

/-- From 2 ^ 53 on 53 bits stand above the unit. -/
theorem div_unit {n : Nat} (h : 2 ^ 53 ≤ n) :
    53 ≤ Nat.log2 n ∧ 2 ^ 52 ≤ n / unit n ∧ n / unit n < 2 ^ 53 := by
  have hne : n ≠ 0 := by
    rintro rfl
    exact absurd h (by decide)
  have hlog : 53 ≤ Nat.log2 n := (Nat.le_log2 hne).2 h
  have hlow : 2 ^ 52 * unit n = 2 ^ Nat.log2 n := by
    rw [unit, ← Nat.pow_add, Nat.add_sub_cancel' (by omega)]
  have hhigh : 2 ^ 53 * unit n = 2 ^ (Nat.log2 n + 1) := by
    rw [unit, ← Nat.pow_add]
    congr 1
    omega
  refine ⟨hlog, (Nat.le_div_iff_mul_le (unit_pos n)).2 ?_, (Nat.div_lt_iff_lt_mul (unit_pos n)).2 ?_⟩
  · rw [hlow]
    exact Nat.log2_self_le hne
  · rw [hhigh]
    exact Nat.lt_log2_self

/-- Exactly the numbers with at most 53 bits above a power of two are multiples of their unit. -/
theorem unit_dvd_iff (n : Nat) : unit n ∣ n ↔ ∃ m k, n = m * 2 ^ k ∧ m < 2 ^ 53 := by
  rcases Nat.lt_or_ge n (2 ^ 53) with hlt | hge
  · rw [unit_of_lt hlt]
    exact iff_of_true (one_dvd n) ⟨n, 0, by rw [Nat.pow_zero, Nat.mul_one], hlt⟩
  · obtain ⟨hlog, -, hlow⟩ := div_unit hge
    constructor
    · intro hdvd
      exact ⟨n / unit n, Nat.log2 n - 52, (Nat.div_mul_cancel hdvd).symm, hlow⟩
    · rintro ⟨m, k, rfl, hm⟩
      refine Dvd.dvd.mul_left (pow_dvd_pow 2 ?_) m
      -- fewer bits below would leave more than 53 above
      have hne : m * 2 ^ k ≠ 0 := fun hzero => by
        rw [hzero] at hge
        exact absurd hge (by decide)
      have hlt : m * 2 ^ k < 2 ^ (53 + k) := by
        rw [Nat.pow_add]
        exact Nat.mul_lt_mul_of_pos_right hm (Nat.pow_pos (by decide))
      have hbits := (Nat.log2_lt hne).2 hlt
      omega

/-- Rounding keeps a number exactly if it has at most 53 bits above a power of two. -/
theorem rounded_eq_iff (n : Nat) : rounded n = n ↔ ∃ m k, n = m * 2 ^ k ∧ m < 2 ^ 53 := by
  rw [← unit_dvd_iff]
  constructor
  · intro h
    exact ⟨_, by rw [Nat.mul_comm]; exact h.symm⟩
  · intro h
    rw [rounded, roundHalfEven_of_dvd (unit_pos n) h, Nat.div_mul_cancel h]

/-- A rounded number has 53 bits above its unit, or it is the next power of two. -/
theorem roundHalfEven_unit {n : Nat} (h : 2 ^ 53 ≤ n) :
    2 ^ 52 ≤ roundHalfEven n (unit n) ∧ roundHalfEven n (unit n) ≤ 2 ^ 53 := by
  obtain ⟨-, hlow, hhigh⟩ := div_unit h
  exact ⟨Nat.le_trans hlow (le_roundHalfEven n _), Nat.le_trans (roundHalfEven_le n _) hhigh⟩

/-- The distance between the greatest finite numbers. -/
def spacing : Nat := 2 ^ 971

/-- The first power of two that is beyond all finite numbers. -/
def top : Nat := 2 ^ 1024

/-- The middle between the greatest finite number and the power of two beyond it. -/
def overflow : Nat := 2 ^ 1024 - 2 ^ 970

theorem pow_lt_top_iff (k : Nat) : 2 ^ k < top ↔ k < 1024 := by
  rw [top, Nat.pow_lt_pow_iff_right (by decide)]

theorem top_le_pow_iff (k : Nat) : top ≤ 2 ^ k ↔ 1024 ≤ k := by
  rw [top, Nat.pow_le_pow_iff_right (by decide)]

theorem pow_le_spacing {k : Nat} (h : k ≤ 971) : 2 ^ k ≤ spacing := by
  rw [spacing, Nat.pow_le_pow_iff_right (by decide)]
  exact h

theorem top_eq_mul : top = 2 ^ 53 * spacing := by
  rw [top, spacing, ← Nat.pow_add]

theorem spacing_pos : 0 < spacing := by
  rw [spacing]
  positivity

theorem two_mul_overflow : 2 * overflow + spacing = 2 * top := by
  have hhalf : spacing = 2 * 2 ^ 970 := by rw [spacing, ← Nat.pow_succ']
  have hle : (2 : Nat) ^ 970 ≤ top := Nat.le_of_lt ((pow_lt_top_iff 970).2 (by decide))
  have hoverflow : overflow = top - 2 ^ 970 := by rw [overflow, top]
  rw [hoverflow, hhalf]
  generalize (2 : Nat) ^ 970 = middle at hle ⊢
  omega

theorem lt_mul_spacing {n k : Nat} (h : Nat.log2 n < k + 971) : n < 2 ^ k * spacing := by
  rw [spacing, ← Nat.pow_add]
  exact Nat.lt_of_lt_of_le Nat.lt_log2_self (Nat.pow_le_pow_right (by decide) h)

theorem mul_spacing_le {n k : Nat} (hne : n ≠ 0) (h : k + 971 ≤ Nat.log2 n) : 2 ^ k * spacing ≤ n := by
  rw [spacing, ← Nat.pow_add]
  exact (Nat.le_log2 hne).1 h

theorem rounded_lt_of_log2_lt {n : Nat} (h : Nat.log2 n < 1023) : rounded n < top := by
  rcases Nat.lt_or_ge n (2 ^ 53) with hlt | hge
  · rw [rounded_of_lt hlt]
    exact Nat.lt_trans hlt ((pow_lt_top_iff 53).2 (by decide))
  · calc rounded n
        ≤ 2 ^ 53 * unit n := Nat.mul_le_mul_right _ (roundHalfEven_unit hge).2
      _ = 2 ^ (53 + (Nat.log2 n - 52)) := (Nat.pow_add 2 53 _).symm
      _ < top := (pow_lt_top_iff _).2 (by omega)

theorem le_rounded_of_le_log2 {n : Nat} (h : 1024 ≤ Nat.log2 n) : top ≤ rounded n := by
  have hne : n ≠ 0 := by
    rintro rfl
    exact absurd h (by decide)
  have hge : 2 ^ 53 ≤ n := (Nat.le_log2 hne).1 (by omega)
  calc top
      ≤ 2 ^ (52 + (Nat.log2 n - 52)) := (top_le_pow_iff _).2 (by omega)
    _ = 2 ^ 52 * unit n := Nat.pow_add 2 52 _
    _ ≤ rounded n := Nat.mul_le_mul_right _ (roundHalfEven_unit hge).1

/-- Rounding stays below that power of two exactly for the numbers below the middle; the middle itself goes
up. -/
theorem rounded_lt_iff (n : Nat) : rounded n < top ↔ n < overflow := by
  have hmiddle := two_mul_overflow
  have htop := top_eq_mul
  have hpos := spacing_pos
  rcases Nat.lt_trichotomy (Nat.log2 n) 1023 with hlog | hlog | hlog
  · refine iff_of_true (rounded_lt_of_log2_lt hlog) ?_
    have hlt : n < 2 ^ 52 * spacing := lt_mul_spacing (by omega)
    omega
  · have hn : n < 2 ^ 53 * spacing := lt_mul_spacing (by omega)
    have hbits : 1023 - 52 = 971 := rfl
    have hunit : unit n = spacing := by rw [unit, hlog, hbits, spacing]
    rw [rounded, hunit, htop, Nat.mul_lt_mul_right hpos, roundHalfEven_lt_iff (by decide) hn, ← htop]
    omega
  · refine iff_of_false (Nat.not_lt.2 (le_rounded_of_le_log2 hlog)) ?_
    have hne : n ≠ 0 := by
      rintro rfl
      exact absurd hlog (by decide)
    have hge : 2 ^ 53 * spacing ≤ n := mul_spacing_le hne (by omega)
    omega

/-! ## The floating-point number of a whole number -/

/-- The integer with a sign and a magnitude. -/
def signed (negative : Bool) (n : Nat) : Int := if negative then -(n : Int) else n

theorem signed_inj {negative : Bool} {m n : Nat} : signed negative m = signed negative n ↔ m = n := by
  cases negative <;> simp [signed]

/-- The floating-point number is `±n`, or infinite where `n` is beyond all finite numbers. -/
structure IsWhole (x : Binary64) (negative : Bool) (n : Nat) : Prop where
  finite : n < top → ∃ y, x = .finite y ∧ y.isIntegral = true ∧ y.truncate = signed negative n
  infinite : top ≤ n → x = .infinite negative

theorem mul_pow_lt_top_iff {m : Nat} (hlow : 2 ^ 52 ≤ m) (hhigh : m < 2 ^ 53) (s : Nat) :
    m * 2 ^ s < top ↔ s ≤ 971 := by
  constructor
  · intro h
    have hlt : 2 ^ (52 + s) < top := by
      rw [Nat.pow_add]
      exact Nat.lt_of_le_of_lt (Nat.mul_le_mul_right _ hlow) h
    exact Nat.le_of_add_le_add_left (Nat.le_of_lt_succ ((pow_lt_top_iff _).1 hlt))
  · intro h
    calc m * 2 ^ s
        < 2 ^ 53 * 2 ^ s := Nat.mul_lt_mul_of_pos_right hhigh (Nat.pow_pos (by decide))
      _ ≤ 2 ^ 53 * spacing := Nat.mul_le_mul_left _ (pow_le_spacing h)
      _ = top := top_eq_mul.symm

/-- A significand of 53 bits with an exponent that is not negative. -/
theorem isWhole_ofParts (negative : Bool) {m : Nat} (hlow : 2 ^ 52 ≤ m) (hhigh : m < 2 ^ 53) (s : Nat) :
    IsWhole (ofParts negative m s) negative (m * 2 ^ s) where
  finite h := by
    have hs := (mul_pow_lt_top_iff hlow hhigh s).1 h
    have hparts : m < Nat.pow 2 53 ∧ (-1074 : Int) ≤ s ∧ (s : Int) ≤ 971 ∧
        (Nat.pow 2 52 ≤ m ∨ (s : Int) = -1074) := by
      clear h
      exact ⟨hhigh, by omega, by omega, .inl hlow⟩
    refine ⟨_, dif_pos hparts, ?_, ?_⟩
    · simp [FiniteBinary64.isIntegral, FiniteBinary64.ratio, Nat.mod_one]
    · simp [FiniteBinary64.truncate, FiniteBinary64.ratio, signed]
  infinite h := by
    have hs := mt (mul_pow_lt_top_iff hlow hhigh s).2 (Nat.not_lt.2 h)
    clear h
    exact dif_neg fun hparts => hs (by omega)

theorem lt_top_of_lt {n : Nat} (h : n < 2 ^ 53) : n < top :=
  Nat.lt_trans h ((pow_lt_top_iff 53).2 (by decide))

theorem lt_overflow_of_lt {n : Nat} (h : n < 2 ^ 53) : n < overflow := by
  rw [← rounded_lt_iff, rounded_of_lt h]
  exact lt_top_of_lt h

/-- A number with zeros appended to it up to 53 bits. -/
theorem isWhole_ofParts_shifted (negative : Bool) {n k : Nat} (hk : k ≤ 52) (hlow : 2 ^ 52 ≤ n * 2 ^ k)
    (hhigh : n * 2 ^ k < 2 ^ 53) : IsWhole (ofParts negative (n * 2 ^ k) (-k)) negative n := by
  have hpos : 0 < 2 ^ k := Nat.pow_pos (by decide)
  have hlt : n < 2 ^ 53 := Nat.lt_of_le_of_lt (Nat.le_mul_of_pos_right n hpos) hhigh
  refine ⟨fun _ => ?_, fun h => absurd (lt_top_of_lt hlt) (Nat.not_lt.2 h)⟩
  have hparts : n * 2 ^ k < Nat.pow 2 53 ∧ (-1074 : Int) ≤ -k ∧ (-k : Int) ≤ 971 ∧
      (Nat.pow 2 52 ≤ n * 2 ^ k ∨ (-k : Int) = -1074) := ⟨hhigh, by omega, by omega, .inl hlow⟩
  refine ⟨_, dif_pos hparts, ?_⟩
  rcases Nat.eq_zero_or_pos k with rfl | hkpos
  · simp [FiniteBinary64.isIntegral, FiniteBinary64.truncate, FiniteBinary64.ratio, signed, Nat.mod_one]
  · have hneg : ¬(0 : Int) ≤ -k := by omega
    have hdiv : ((n * 2 ^ k : Nat) : Int) / ((2 ^ k : Nat) : Int) = n := by
      rw [← Int.natCast_ediv, Nat.mul_div_cancel n hpos]
    simp only [FiniteBinary64.isIntegral, FiniteBinary64.truncate, FiniteBinary64.ratio, if_neg hneg,
      Int.neg_neg, Int.toNat_natCast, Nat.pow_eq, Nat.mul_mod_left, hdiv, signed]
    simp

theorem log2_mul_two_pow {m : Nat} (h : m ≠ 0) (a : Nat) : Nat.log2 (m * 2 ^ a) = Nat.log2 m + a := by
  have hpos := Nat.two_pow_pos a
  refine (Nat.log2_eq_iff (Nat.mul_ne_zero h (Nat.ne_of_gt hpos))).2 ⟨?_, ?_⟩
  · rw [Nat.pow_add]
    exact Nat.mul_le_mul_right _ (Nat.log2_self_le h)
  · rw [Nat.add_right_comm, Nat.pow_add]
    exact Nat.mul_lt_mul_of_pos_right Nat.lt_log2_self hpos

/-- The scale of `m · 2 ^ (a - b)` leaves 53 bits of it, as far as exponents reach. -/
theorem scaleOf_mul_two_pow {m : Nat} (h : m ≠ 0) (a b : Nat) :
    scaleOf (m * 2 ^ a) (2 ^ b) = max (-1074) ((Nat.log2 m : Int) + a - b - 52) := by
  have hle : 2 ^ (Nat.log2 m + a) ≤ m * 2 ^ a := by
    rw [Nat.pow_add]
    exact Nat.mul_le_mul_right _ (Nat.log2_self_le h)
  unfold scaleOf
  simp only [log2_mul_two_pow h, Nat.log2_two_pow, Nat.pow_eq, Int.natCast_add]
  by_cases hestimate : (0 : Int) ≤ (Nat.log2 m : Int) + a - b
  · have hreaches : 2 ^ b * 2 ^ ((Nat.log2 m : Int) + a - b).toNat ≤ m * 2 ^ a := by
      have hexponent : b + ((Nat.log2 m : Int) + a - b).toNat = Nat.log2 m + a := by omega
      rw [← Nat.pow_add, hexponent]
      exact hle
    simp only [hestimate, hreaches, if_true]
  · have hreaches : 2 ^ b ≤ m * 2 ^ a * 2 ^ (-((Nat.log2 m : Int) + a - b)).toNat := by
      have hexponent : b = Nat.log2 m + a + (-((Nat.log2 m : Int) + a - b)).toNat := by omega
      calc 2 ^ b
          = 2 ^ (Nat.log2 m + a) * 2 ^ (-((Nat.log2 m : Int) + a - b)).toNat := by
            rw [← Nat.pow_add, ← hexponent]
        _ ≤ m * 2 ^ a * 2 ^ (-((Nat.log2 m : Int) + a - b)).toNat := Nat.mul_le_mul_right _ hle
    simp only [hestimate, hreaches, if_false, if_true]

theorem scaleOf_one {n : Nat} (h : n ≠ 0) : scaleOf n 1 = Nat.log2 n - 52 := by
  have hscale := scaleOf_mul_two_pow h 0 0
  rw [Nat.pow_zero, Nat.mul_one] at hscale
  rw [hscale]
  omega

theorem isIntegral_and_truncate_of_zero {x : FiniteBinary64} (h : x.significand = 0) :
    x.isIntegral = true ∧ x.truncate = 0 := by
  unfold FiniteBinary64.isIntegral FiniteBinary64.truncate FiniteBinary64.ratio
  split <;> simp [h]

theorem isWhole_zero (negative : Bool) : IsWhole (zero negative) negative 0 := by
  refine ⟨fun _ => ⟨_, rfl, ?_⟩, fun h => absurd (lt_top_of_lt (by decide)) (Nat.not_lt.2 h)⟩
  have hsigned : signed negative 0 = 0 := by cases negative <;> rfl
  rw [hsigned]
  exact isIntegral_and_truncate_of_zero rfl

/-- Below 2 ^ 53 nothing is rounded. -/
theorem isWhole_ofRatio_of_lt (negative : Bool) {n : Nat} (hne : n ≠ 0) (hlt : n < 2 ^ 53) :
    IsWhole (ofRatio negative n 1) negative n := by
  have hlog : Nat.log2 n ≤ 52 := Nat.le_of_lt_succ ((Nat.log2_lt hne).2 hlt)
  obtain ⟨k, hk⟩ := Nat.exists_eq_add_of_le hlog
  have hscale : ((Nat.log2 n : Nat) : Int) - 52 = -k := by omega
  have hlow : 2 ^ 52 ≤ n * 2 ^ k := by
    rw [hk, Nat.pow_add]
    exact Nat.mul_le_mul_right _ (Nat.log2_self_le hne)
  have hhigh : n * 2 ^ k < 2 ^ 53 := by
    have hsum : 53 = Nat.log2 n + 1 + k := by omega
    rw [hsum, Nat.pow_add]
    exact Nat.mul_lt_mul_of_pos_right Nat.lt_log2_self (Nat.pow_pos (by decide))
  have hsignificand : (if (0 : Int) ≤ -k then roundHalfEven n (1 * Nat.pow 2 (-k : Int).toNat)
      else roundHalfEven (n * Nat.pow 2 (- -k : Int).toNat) 1) = n * 2 ^ k := by
    split_ifs with hzero
    · obtain rfl : k = 0 := by omega
      exact (roundHalfEven_one n).trans (Nat.mul_one n).symm
    · rw [Int.neg_neg, Int.toNat_natCast, roundHalfEven_one, Nat.pow_eq]
  unfold ofRatio
  rw [if_neg hne, scaleOf_one hne, hscale]
  dsimp only
  rw [hsignificand, Nat.pow_eq, if_neg (Nat.ne_of_lt hhigh)]
  exact isWhole_ofParts_shifted negative (by omega) hlow hhigh

/-- From 2 ^ 53 on the significand has 53 bits, and a carry makes it the next power of two. -/
theorem isWhole_ofRatio_of_le (negative : Bool) {n : Nat} (hge : 2 ^ 53 ≤ n) :
    IsWhole (ofRatio negative n 1) negative (rounded n) := by
  have hne : n ≠ 0 := by
    rintro rfl
    exact absurd hge (by decide)
  obtain ⟨hlow, hhigh⟩ := roundHalfEven_unit hge
  obtain ⟨s, hs⟩ := Nat.exists_eq_add_of_le (Nat.le_of_lt (div_unit hge).1)
  have hscale : ((Nat.log2 n : Nat) : Int) - 52 = s := by omega
  have hunit : unit n = 2 ^ s := by rw [unit, hs, Nat.add_sub_cancel_left]
  unfold ofRatio
  rw [if_neg hne, scaleOf_one hne, hscale]
  dsimp only
  rw [if_pos (Int.natCast_nonneg s), Int.toNat_natCast, Nat.one_mul, Nat.pow_eq, ← hunit, rounded]
  split_ifs with hcarry
  · have hnext : roundHalfEven n (unit n) * unit n = 2 ^ 52 * 2 ^ (s + 1) := by
      rw [hcarry, hunit, Nat.pow_eq, ← Nat.pow_add, ← Nat.pow_add]
      congr 1
      omega
    rw [hnext]
    exact isWhole_ofParts negative (Nat.le_refl _) (by decide) (s + 1)
  · rw [hunit] at hcarry hlow hhigh ⊢
    exact isWhole_ofParts negative hlow (Nat.lt_of_le_of_ne hhigh hcarry) s

/-- The floating-point number nearest to a whole number is the multiple that it is rounded to. -/
theorem isWhole_ofRatio (negative : Bool) (n : Nat) : IsWhole (ofRatio negative n 1) negative (rounded n) := by
  rcases Nat.lt_or_ge n (2 ^ 53) with hlt | hge
  · rw [rounded_of_lt hlt]
    by_cases hzero : n = 0
    · rw [hzero]
      exact isWhole_zero negative
    · exact isWhole_ofRatio_of_lt negative hzero hlt
  · exact isWhole_ofRatio_of_le negative hge

/-- Digits without a point and an exponent stand for the floating-point number nearest to their number. -/
theorem isWhole_ofDecimal (negative : Bool) (n : Nat) : IsWhole (ofDecimal negative n 0) negative (rounded n) := by
  unfold ofDecimal
  by_cases hzero : n = 0
  · rw [if_pos hzero, hzero]
    exact isWhole_zero negative
  · rw [if_neg hzero, if_pos (Int.le_refl 0)]
    split
    · have htop : top ≤ rounded n := le_rounded_of_le_log2 (by omega)
      exact ⟨fun h => absurd h (Nat.not_lt.2 htop), fun _ => rfl⟩
    · rw [Int.toNat_zero, Nat.pow_eq, Nat.pow_zero, Nat.mul_one]
      exact isWhole_ofRatio negative n

/-- An integer has a floating-point number exactly if it does not round out of their range. -/
theorem exists_ofInt_iff (n : Int) : (∃ x, ofInt n = .ok x) ↔ n.natAbs < overflow := by
  have hwhole := isWhole_ofRatio (n < 0) n.natAbs
  rw [← rounded_lt_iff]
  unfold ofInt
  constructor
  · rintro ⟨x, hx⟩
    by_contra hout
    rw [hwhole.infinite (Nat.not_lt.1 hout)] at hx
    cases hx
  · intro h
    obtain ⟨y, hy, -⟩ := hwhole.finite h
    exact ⟨.finite y, by rw [hy]⟩

/-- An integer with at most 53 bits is its own floating-point number. -/
theorem exists_ofInt_of_lt {n : Int} (h : n.natAbs < 2 ^ 53) : ∃ x, ofInt n = .ok x ∧ x.eqInt n = true := by
  have hwhole := isWhole_ofRatio (n < 0) n.natAbs
  rw [rounded_of_lt h] at hwhole
  obtain ⟨y, hy, hintegral, htruncate⟩ := hwhole.finite (lt_top_of_lt h)
  have hsigned : signed (n < 0) n.natAbs = n := by
    unfold signed
    split_ifs with hneg <;> rw [decide_eq_true_eq] at hneg <;> omega
  refine ⟨.finite y, by rw [ofInt, hy], ?_⟩
  simp only [eqInt, hintegral, htruncate, hsigned, decide_true, Bool.and_self]

/-- There is no other refusal of an integer. -/
theorem ofInt_eq_error {n : Int} {fault : Fault} (h : ofInt n = .error fault) : fault = .numberOutOfRange := by
  unfold ofInt at h
  split at h
  · cases h
  · cases h
    rfl

end FluentQuery.Binary64
