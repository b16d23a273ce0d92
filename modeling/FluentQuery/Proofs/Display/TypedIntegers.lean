/-
  Integers typed into a cell. An integer as JSON writes it, without a plus sign and without zeros in front
  of further digits, is kept exactly (`read_text`). In any other form it is no JSON, and the
  floating-point number nearest to it is taken (`ofEditText_text_of_not_isJson`). `ofEditText_text_iff`: so
  such a form is kept exactly if the integer is one of those numbers, and only then.
-/
import FluentQuery.Proofs.Json.RoundTrip
import FluentQuery.Proofs.Numeric.WholeNumbers
import FluentQuery.Value.Display

namespace FluentQuery

namespace Decimal

/-- The number that ASCII digits stand for. -/
def numberOf (digits : Text) : Nat := readDigits (Json.digitValues digits)

theorem numberOf_append_singleton (digits : Text) (c : CodePoint) :
    numberOf (digits ++ [c]) = 10 * numberOf digits + (c.toNat - 0x30) := by
  unfold numberOf Json.digitValues
  rw [List.map_append, List.map_singleton, readDigits_append_singleton]

theorem numberOf_pos {d : CodePoint} (hd : d.isDigit = true) (hzero : d ≠ CodePoint.char '0') (more : Text) :
    0 < numberOf (d :: more) := by
  have hrange := CodePoint.toNat_of_isDigit hd
  have hne : d.toNat - 0x30 ≠ 0 := fun h => hzero (by
    rw [← CodePoint.digitChar_of_isDigit hd, h]
    rfl)
  unfold numberOf Json.digitValues
  rw [List.map_cons, readDigits_cons]
  exact Nat.add_pos_left (Nat.mul_pos (Nat.pow_pos (by decide)) (Nat.pos_of_ne_zero hne)) _

/-- Digits without a zero in front of further digits are the text of their number. -/
theorem ofNat_numberOf {digits : Text} (hdigits : ∀ c ∈ digits, c.isDigit = true) (hne : digits ≠ [])
    (hzero : digits.head? = some (CodePoint.char '0') → digits.length = 1) :
    ofNat (numberOf digits) = digits := by
  induction digits using List.reverseRecOn with
  | nil => exact absurd rfl hne
  | append_singleton init c ih =>
    have hc : c.isDigit = true := hdigits c (by simp)
    have hrange := CodePoint.toNat_of_isDigit hc
    rw [numberOf_append_singleton, ofNat]
    cases init with
    | nil =>
      have hlt : 10 * numberOf [] + (c.toNat - 0x30) < 10 := by
        have hnone : numberOf [] = 0 := rfl
        omega
      rw [Nat.toDigits_of_lt_base hlt]
      have hnone : 10 * numberOf [] + (c.toNat - 0x30) = c.toNat - 0x30 := Nat.zero_add _
      rw [hnone]
      exact congrArg (· :: []) (CodePoint.digitChar_of_isDigit hc)
    | cons d more =>
      have hinit : ∀ e ∈ d :: more, e.isDigit = true := fun e he => hdigits e (List.mem_append_left _ he)
      have hd : d ≠ CodePoint.char '0' := by
        rintro rfl
        have hlength := hzero rfl
        simp at hlength
      have hpos := numberOf_pos (hinit d List.mem_cons_self) hd more
      have hmore := ih hinit (List.cons_ne_nil d more) fun hhead => absurd (Option.some.inj hhead) hd
      have hdiv : (10 * numberOf (d :: more) + (c.toNat - 0x30)) / 10 = numberOf (d :: more) := by omega
      have hmod : (10 * numberOf (d :: more) + (c.toNat - 0x30)) % 10 = c.toNat - 0x30 := by omega
      rw [Nat.toDigits_of_base_le (by decide) (by omega), hdiv, hmod, Text.ofChars_append]
      exact congrArg₂ (· ++ ·) hmore (congrArg (· :: []) (CodePoint.digitChar_of_isDigit hc))

end Decimal

namespace Json

/-- Behind a word or a number at the start of a text nothing but spaces may stand. -/
theorem readWhole_of_readAtom {c d : CodePoint} {more rest behind : Text} {v : Value}
    (hc : c ∉ openers ++ nonStarters) (hread : readAtom (c :: more) = .ok (v, rest))
    (hrest : skipSpace rest = d :: behind) : readWhole (c :: more) = fail .extraData (d :: behind) := by
  rw [List.mem_append, not_or] at hc
  unfold readWhole
  split
  · rename_i heq
    obtain ⟨rfl, -⟩ := List.cons.inj heq
    exact absurd (by decide) hc.2
  · rw [skipSpace_cons (isSpace_of_starter hc.2), readValue_atom hc.1, hread]
    dsimp only [bind, Except.bind]
    rw [hrest]

/-- A number ends behind a zero at its start, so a digit there is no part of it. -/
theorem readNumber_zero_digit {text more : Text} {d : CodePoint}
    (h : (splitMinus text).2 = CodePoint.char '0' :: d :: more) (hd : d.isDigit = true) :
    readNumber text = .ok (.int 0, d :: more) := by
  have hwhole : spanWhole (splitMinus text).2 = some ([CodePoint.char '0'], d :: more) := by
    rw [h]
    rfl
  rw [readNumber_of_spanWhole hwhole, spanFraction_cons (CodePoint.ne_of_isDigit hd rfl)]
  dsimp only
  rw [spanExponent_cons (CodePoint.ne_of_isDigit hd rfl) (CodePoint.ne_of_isDigit hd rfl)]
  cases (splitMinus text).1 <;> rfl

/-- Further digits behind a zero are no JSON. -/
theorem read_zero_digit {d : CodePoint} (hd : d.isDigit = true) (more : Text) :
    (∃ e, read (CodePoint.char '0' :: d :: more) = .error (.malformed e)) ∧
      ∃ e, read (CodePoint.char '-' :: CodePoint.char '0' :: d :: more) = .error (.malformed e) := by
  have hspace : isSpace d = false := by
    simp [isSpace, CodePoint.ne_of_isDigit hd (c := ' ') rfl, CodePoint.ne_of_isDigit hd (c := '\t') rfl,
      CodePoint.ne_of_isDigit hd (c := '\n') rfl, CodePoint.ne_of_isDigit hd (c := '\r') rfl]
  have hread : ∀ {c : CodePoint} {rest : Text}, c ∉ openers ++ nonStarters →
      startsNumber (c :: rest) = true → (splitMinus (c :: rest)).2 = CodePoint.char '0' :: d :: more →
        ∃ e, read (c :: rest) = .error (.malformed e) := by
    intro c rest hc hstarts hbody
    have hnumber := readNumber_zero_digit hbody hd
    rw [← readAtom_of_startsNumber hstarts] at hnumber
    unfold read
    rw [readWhole_of_readAtom hc hnumber (skipSpace_cons hspace more)]
    exact ⟨_, rfl⟩
  exact ⟨hread (by decide) rfl rfl, hread (by decide) rfl rfl⟩

end Json

namespace Display

/-! ## Typed integers -/

/-- What may stand in front of the digits of an integer. -/
inductive TypedSign where
  | none
  | plus
  | minus
  deriving DecidableEq

/-- The text of a sign. -/
def TypedSign.text : TypedSign → Text
  | none => []
  | plus => "+"
  | minus => "-"

/-- An integer as it is typed: a sign, and as many ASCII digits as an integer may have, with any number of
zeros in front. -/
structure TypedInteger where
  sign : TypedSign
  digits : Text
  isDigit : ∀ c ∈ digits, c.isDigit = true
  ne_nil : digits ≠ []
  length_le : digits.length ≤ Decimal.maxDigits

namespace TypedInteger

variable (t : TypedInteger)

/-- The text that is typed. -/
def text : Text := t.sign.text ++ t.digits

/-- The number without its sign. -/
def magnitude : Nat := Decimal.numberOf t.digits

/-- The integer that the text stands for. -/
def value : Int := Binary64.signed (t.sign = .minus) t.magnitude

/-- Whether JSON has this form: no plus sign, and no zero in front of further digits. -/
def IsJson : Prop :=
  t.sign ≠ .plus ∧ (t.digits.head? = some (CodePoint.char '0') → t.digits.length = 1)

/-! ## JSON -/

variable {t}

theorem magnitude_lt : t.magnitude < 10 ^ Decimal.maxDigits := by
  obtain ⟨values, hvalues, -, hlt⟩ :=
    Decimal.exists_digitValues fun c hc => Text.isDecimal_of_isDigit (t.isDigit c hc)
  rw [Json.digitValues?_eq t.isDigit] at hvalues
  cases hvalues
  exact Nat.lt_of_lt_of_le hlt (Nat.pow_le_pow_right (by decide) t.length_le)

/-- What JSON has a form for is read as the integer. -/
theorem read_text (h : t.IsJson) : Json.read t.text = .ok (.int t.value) := by
  obtain ⟨hplus, hzero⟩ := h
  have hdigits : Decimal.ofNat t.magnitude = t.digits := Decimal.ofNat_numberOf t.isDigit t.ne_nil hzero
  have hread : ∀ n : Int, n.natAbs = t.magnitude → Json.read (Decimal.ofInt n) = .ok (.int n) :=
    fun n hn => (Json.IsValueText.int (hn ▸ t.magnitude_lt)).read_eq
  unfold text value
  rw [← hdigits]
  cases hsign : t.sign with
  | none => exact hread t.magnitude rfl
  | plus => exact absurd hsign hplus
  | minus =>
    rcases Nat.eq_zero_or_pos t.magnitude with hnone | hpos
    · rw [hnone]
      rfl
    · have hneg : Decimal.ofInt (-(t.magnitude : Int)) = CodePoint.char '-' :: Decimal.ofNat t.magnitude := by
        rw [Decimal.ofInt, if_pos (by omega), Int.natAbs_neg, Int.natAbs_natCast]
      have hminus := hread (-(t.magnitude : Int)) (by rw [Int.natAbs_neg, Int.natAbs_natCast])
      rw [hneg] at hminus
      exact hminus

/-- A form that JSON does not have starts with a plus sign, or with a zero and another digit behind a minus
sign or none. -/
theorem not_isJson_iff : ¬t.IsJson ↔ t.sign = .plus ∨
    t.sign ≠ .plus ∧ ∃ d more, t.digits = CodePoint.char '0' :: d :: more := by
  unfold IsJson
  by_cases hplus : t.sign = .plus
  · simp [hplus]
  · simp only [hplus, ne_eq, not_false_eq_true, true_and, false_or]
    constructor
    · intro h
      obtain ⟨hhead, hlength⟩ := Classical.not_imp.1 h
      obtain ⟨c, rest, hdigits⟩ := List.exists_cons_of_ne_nil t.ne_nil
      rw [hdigits] at hhead hlength
      cases hhead
      cases rest with
      | nil => exact absurd rfl hlength
      | cons d more => exact ⟨d, more, hdigits⟩
    · rintro ⟨d, more, hdigits⟩ h
      have hlength := h (by rw [hdigits]; rfl)
      rw [hdigits] at hlength
      simp at hlength

/-- Such a form is not read: no value starts with a plus sign, and a number ends behind a zero at its
start. -/
theorem read_text_of_not_isJson (h : ¬t.IsJson) : ∃ e, Json.read t.text = .error (.malformed e) := by
  rcases not_isJson_iff.1 h with hplus | ⟨hplus, d, more, hdigits⟩
  · unfold text
    rw [hplus]
    exact ⟨_, rfl⟩
  · have hd : d.isDigit = true := t.isDigit d (by rw [hdigits]; simp)
    unfold text
    rw [hdigits]
    cases hsign : t.sign with
    | plus => exact absurd hsign hplus
    | none => exact (Json.read_zero_digit hd more).1
    | minus => exact (Json.read_zero_digit hd more).2

/-! ## Plain text -/

theorem splitSign_text : Numeral.splitSign t.text = (decide (t.sign = .minus), t.digits) := by
  unfold text
  cases t.sign with
  | none => exact Numeral.splitSign_of_isDigit t.isDigit
  | plus => rfl
  | minus => rfl

theorem mem_text {c : CodePoint} (h : c ∈ t.text) : c.isDigit = true ∨ c = '+' ∨ c = '-' := by
  unfold text at h
  rcases List.mem_append.1 h with hsign | hdigits
  · cases hcase : t.sign <;> rw [hcase] at hsign
    · cases hsign
    · exact .inr (.inl (List.mem_singleton.1 hsign))
    · exact .inr (.inr (List.mem_singleton.1 hsign))
  · exact .inl (t.isDigit c hdigits)

/-- There is a digit in the text. -/
theorem exists_mem_text : ∃ d ∈ t.text, d.isDigit = true := by
  obtain ⟨d, hd⟩ := List.exists_mem_of_ne_nil t.digits t.ne_nil
  exact ⟨d, List.mem_append_right _ hd, t.isDigit d hd⟩

/-- As plain text it is the floating-point number nearest to the integer. -/
theorem readBinary64?_text :
    Numeral.readBinary64? t.text = some (.ofDecimal (t.sign = .minus) t.magnitude 0) := by
  have hmargin : ∀ c ∈ t.text, Text.isBlank c = false := by
    intro c hc
    rcases mem_text hc with hdigit | rfl | rfl
    · exact CodePoint.isBlank_of_isDigit hdigit
    · rfl
    · rfl
  unfold Numeral.readBinary64?
  rw [Numeral.trimMargin_of_forall hmargin]
  dsimp only
  rw [splitSign_text]
  dsimp only
  rw [Numeral.ofWord?_of_isDigit _ t.isDigit t.ne_nil, Numeral.read?_of_splitSign .underscores splitSign_text
    t.isDigit t.ne_nil (Json.digitValues?_eq t.isDigit)]
  simp only [Option.map_some, Numeral.toBinary64, Option.getD_none, List.append_nil, List.length_nil]
  rfl

/-- A form that JSON does not have is kept as the number that the integer is rounded to; beyond the
floating-point numbers the text stays. -/
theorem ofEditText_text_of_not_isJson (h : ¬t.IsJson) : ofEditText t.text =
    .ok (if Binary64.rounded t.magnitude < Binary64.top then
      .int (Binary64.signed (t.sign = .minus) (Binary64.rounded t.magnitude)) else .text t.text) := by
  obtain ⟨e, hread⟩ := read_text_of_not_isJson h
  obtain ⟨d, hmem, hd⟩ := exists_mem_text (t := t)
  have hpoint : Text.countOf '.' t.text = 0 := List.count_eq_zero.2 fun hmem => by
    rcases mem_text hmem with hdigit | heq | heq <;> cases ‹_›
  have hwhole := Binary64.isWhole_ofDecimal (t.sign = .minus) t.magnitude
  rw [ofEditText, hread]
  dsimp only
  rw [ofPlainText, if_neg (Text.ne_of_isDigit hmem hd (List.forall_mem_nil _)),
    if_neg (Text.ne_of_isDigit hmem hd (by decide)), if_neg (Text.ne_of_isDigit hmem hd (by decide)),
    readBinary64?_text]
  split_ifs with hfinite
  · obtain ⟨y, hy, hintegral, htruncate⟩ := hwhole.finite hfinite
    rw [hy]
    dsimp only
    rw [hintegral, hpoint, htruncate]
    rfl
  · rw [hwhole.infinite (Nat.not_lt.1 hfinite)]

end TypedInteger

/-- Exactly these typed integers are kept as they are: those in a form that JSON has, and those that are
floating-point numbers, that is, below `2 ^ 1024` with at most 53 bits above a power of two. -/
theorem ofEditText_text_iff (t : TypedInteger) :
    ofEditText t.text = .ok (.int t.value) ↔ t.IsJson ∨
      t.magnitude < Binary64.top ∧ ∃ m k, t.magnitude = m * 2 ^ k ∧ m < 2 ^ 53 := by
  by_cases hjson : t.IsJson
  · refine iff_of_true ?_ (.inl hjson)
    rw [ofEditText, t.read_text hjson]
  · rw [t.ofEditText_text_of_not_isJson hjson, ← Binary64.rounded_eq_iff, TypedInteger.value]
    simp only [hjson, false_or]
    split_ifs with hfinite
    · rw [Except.ok.injEq, Value.scalar.injEq, Scalar.int.injEq, Binary64.signed_inj]
      constructor
      · intro h
        exact ⟨h ▸ hfinite, h⟩
      · exact And.right
    · refine iff_of_false (fun h => by cases h) fun h => hfinite ?_
      rw [h.2]
      exact h.1

/-- The first integer that is none of these, behind a plus sign: it is taken for its even neighbour. -/
theorem ofEditText_text_first_rounded :
    let t : TypedInteger := ⟨.plus, "9007199254740993", by decide, by decide, by decide⟩
    t.value = 9007199254740993 ∧ ofEditText t.text = .ok (.int 9007199254740992) := by
  intro t
  have hjson : ¬t.IsJson := fun h => absurd rfl h.1
  have hmagnitude : t.magnitude = 9007199254740993 := by decide
  have hrounded : Binary64.rounded t.magnitude = 9007199254740992 := by
    rw [hmagnitude]
    decide
  refine ⟨?_, ?_⟩
  · rw [TypedInteger.value, hmagnitude]
    rfl
  · have htop : 9007199254740992 < Binary64.top :=
      Nat.lt_trans (by decide) ((Binary64.pow_lt_top_iff 54).2 (by decide))
    rw [t.ofEditText_text_of_not_isJson hjson, hrounded, if_pos htop]
    rfl

end Display

end FluentQuery
