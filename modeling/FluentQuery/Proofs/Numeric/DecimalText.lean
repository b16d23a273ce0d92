/-
  Decimal text reads back. `readInt_ofInt` and `number?_ofInt`: the text of an integer with at most 4300
  digits is read as that integer, on its own and as an operand. `readDigits_padLeft`: zeros in front do
  not change what is read.
-/
import FluentQuery.Expression.Operand
import FluentQuery.Numeric.Numeral
import FluentQuery.Proofs.Results
import FluentQuery.Proofs.Text.Trim

namespace FluentQuery

theorem CodePoint.isBlank_of_isDigit {c : CodePoint} (h : c.isDigit = true) :
    Text.isBlank c = false := by
  have hb := CodePoint.toNat_of_isDigit h
  unfold Text.isBlank
  simp only [Bool.or_eq_false_iff, Bool.and_eq_false_iff, decide_eq_false_iff_not]
  omega

/-- No blank is a digit of any script: their runs of ten miss all blanks. -/
theorem Text.isDecimal_of_isBlank {c : CodePoint} (h : isBlank c = true) : isDecimal c = false := by
  have hruns : ∀ z ∈ zeros, 0xA0 < z ∧ (z + 9 < 0x1680 ∨ 0x1680 < z) ∧ (z + 9 < 0x2000 ∨ 0x3000 < z) := by
    decide
  by_contra hdecimal
  rw [Bool.not_eq_false, isDecimal, digitValue?] at hdecimal
  split at hdecimal
  · rename_i hdigit
    rw [CodePoint.isBlank_of_isDigit hdigit] at h
    cases h
  · split at hdecimal
    · cases hdecimal
    · rw [Option.isSome_map, List.find?_isSome] at hdecimal
      obtain ⟨z, hz, hrun⟩ := hdecimal
      have hz := hruns z hz
      simp only [Bool.and_eq_true, decide_eq_true_eq] at hrun
      unfold isBlank at h
      simp only [Bool.or_eq_true, Bool.and_eq_true, decide_eq_true_eq] at h
      omega

/-- No blank stands in front of digits. -/
theorem Text.trimStart_digits {digits : Text} (h : ∀ c ∈ digits, isDecimal c = true)
    (hne : digits ≠ []) (rest : Text) : trimStart (digits ++ rest) = digits ++ rest := by
  apply trimStart_of_startsInBlank_eq_false
  cases digits with
  | nil => exact absurd rfl hne
  | cons c more =>
    cases hblank : isBlank c with
    | false => exact hblank
    | true =>
      have hnot := isDecimal_of_isBlank hblank
      rw [h c List.mem_cons_self] at hnot
      cases hnot

/-- Digits end where something else follows, or nothing. -/
theorem Text.span_decimal {digits rest : Text} (hdigits : ∀ c ∈ digits, isDecimal c = true)
    (hrest : ∀ c ∈ rest.head?, isDecimal c = false) :
    (digits ++ rest).takeWhile isDecimal = digits ∧ (digits ++ rest).dropWhile isDecimal = rest := by
  rw [List.takeWhile_append_of_pos hdigits, List.dropWhile_append_of_pos hdigits]
  cases rest with
  | nil => simp
  | cons c more => simp [hrest c rfl]

/-- Digits end where blanks or a parenthesis follow. -/
theorem Text.span_digits {digits blanks : Text} (hdigits : ∀ c ∈ digits, isDecimal c = true)
    (hblank : blanks.all isBlank = true) (rest : Text) :
    (digits ++ (blanks ++ CodePoint.char ')' :: rest)).takeWhile isDecimal = digits ∧
      (digits ++ (blanks ++ CodePoint.char ')' :: rest)).dropWhile isDecimal =
        blanks ++ CodePoint.char ')' :: rest := by
  refine span_decimal hdigits fun c hc => ?_
  cases blanks with
  | nil =>
    cases hc
    rfl
  | cons d blanks =>
    cases hc
    exact isDecimal_of_isBlank (List.all_eq_true.1 hblank _ List.mem_cons_self)

theorem CodePoint.ne_of_isDigit {c d : CodePoint} (hd : d.isDigit = true) (hc : c.isDigit = false) : d ≠ c := by
  rintro rfl
  rw [hd] at hc
  cases hc

theorem CodePoint.digitChar_of_isDigit {c : CodePoint} (h : c.isDigit = true) :
    CodePoint.char (Nat.digitChar (c.toNat - 0x30)) = c := by
  have hrange := toNat_of_isDigit h
  cases c with
  | char c =>
    rw [toNat_char] at hrange ⊢
    refine congrArg CodePoint.char (Char.toNat_inj.1 ?_)
    rw [Nat.toNat_digitChar_of_lt_ten (by omega)]
    omega
  | surrogate offset => cases h

theorem CodePoint.toLower_of_isDigit {c : CodePoint} (h : c.isDigit = true) : c.toLower = c := by
  rw [← digitChar_of_isDigit h]
  have hdigits : ∀ d < 10, (CodePoint.char (Nat.digitChar d)).toLower = CodePoint.char (Nat.digitChar d) := by
    decide
  have hrange := toNat_of_isDigit h
  exact hdigits _ (by omega)

/-- A text with a digit is none without digits. -/
theorem Text.ne_of_isDigit {text word : Text} {d : CodePoint} (hmem : d ∈ text) (hd : d.isDigit = true)
    (hword : ∀ c ∈ word, c.isDigit = false) : text ≠ word := by
  rintro rfl
  rw [hword d hmem] at hd
  cases hd

namespace Decimal

theorem isDigit_of_mem_ofNat {n : Nat} {c : CodePoint} (h : c ∈ ofNat n) : c.isDigit = true := by
  obtain ⟨d, hd, rfl⟩ := List.mem_map.1 h
  exact Nat.isDigit_of_mem_toDigits (by decide) (by decide) hd

theorem isDecimal_of_mem_ofNat {n : Nat} {c : CodePoint} (h : c ∈ ofNat n) : Text.isDecimal c = true :=
  Text.isDecimal_of_isDigit (isDigit_of_mem_ofNat h)

theorem ofNat_ne_nil (n : Nat) : ofNat n ≠ [] := by
  unfold ofNat Text.ofChars
  simp

/-- The text of a number has as few digits as a bound on the number says. -/
theorem length_ofNat_le {n width : Nat} (hw : 0 < width) (h : n < 10 ^ width) :
    (ofNat n).length ≤ width := by
  rw [ofNat, Text.length_ofChars]
  exact (Nat.length_toDigits_le_iff (by decide) hw).2 h

theorem digitValues?_filled (count : Nat) :
    digitValues? (Text.filled count '0') = some (List.replicate count 0) := by
  induction count with
  | zero => rfl
  | succ count ih =>
    have h0 : Text.digitValue? '0' = some 0 := rfl
    unfold Text.filled at ih ⊢
    rw [List.replicate_succ, List.replicate_succ, digitValues?, ih, h0]
    rfl

theorem readDigits_append (a b : List Nat) :
    readDigits (a ++ b) = 10 ^ b.length * readDigits a + readDigits b := by
  induction b using List.reverseRecOn with
  | nil => simp [readDigits]
  | append_singleton b d ih =>
    rw [← List.append_assoc, readDigits_append_singleton, readDigits_append_singleton, ih,
      List.length_append, List.length_singleton, Nat.pow_succ]
    ring

theorem readDigits_cons (d : Nat) (digits : List Nat) :
    readDigits (d :: digits) = 10 ^ digits.length * d + readDigits digits := by
  have h := readDigits_append [d] digits
  simpa [readDigits] using h

/-- A text of digits has a value of that many digits. -/
theorem exists_digitValues {text : Text} (h : ∀ c ∈ text, Text.isDecimal c = true) :
    ∃ digits, digitValues? text = some digits ∧ digits.length = text.length ∧
      readDigits digits < 10 ^ text.length := by
  induction text with
  | nil => exact ⟨[], rfl, rfl, by decide⟩
  | cons c rest ih =>
    obtain ⟨digits, hvalues, hlength, hlt⟩ := ih fun d hd => h d (List.mem_cons_of_mem c hd)
    obtain ⟨d, hd⟩ := Option.isSome_iff_exists.1 (h c List.mem_cons_self)
    refine ⟨d :: digits, ?_, ?_, ?_⟩
    · rw [digitValues?, hd, hvalues]
      rfl
    · rw [List.length_cons, List.length_cons, hlength]
    · have hnine := Text.digitValue?_le_nine hd
      rw [readDigits_cons, hlength, List.length_cons, Nat.pow_succ]
      calc 10 ^ rest.length * d + readDigits digits
          < 10 ^ rest.length * d + 10 ^ rest.length := Nat.add_lt_add_left hlt _
        _ = 10 ^ rest.length * (d + 1) := by ring
        _ ≤ 10 ^ rest.length * 10 := Nat.mul_le_mul_left _ (by omega)

theorem isDecimal_of_digitValues? {text : Text} {digits : List Nat}
    (h : digitValues? text = some digits) : ∀ c ∈ text, Text.isDecimal c = true := by
  induction text generalizing digits with
  | nil => simp
  | cons c rest ih =>
    simp only [digitValues?, Option.bind_eq_bind, Option.bind_eq_some_iff] at h
    obtain ⟨d, hd, ds, hds, -⟩ := h
    intro e he
    rcases List.mem_cons.1 he with rfl | he
    · simp [Text.isDecimal, hd]
    · exact ih hds e he

/-- Digits that are read stand for a number of as many digits. -/
theorem readDigits_lt_of_digitValues? {text : Text} {digits : List Nat}
    (h : digitValues? text = some digits) : readDigits digits < 10 ^ digits.length := by
  obtain ⟨digits', h', hlength, hlt⟩ := exists_digitValues (isDecimal_of_digitValues? h)
  cases h.symm.trans h'
  rwa [hlength]

theorem readDigits_replicate_zero (count : Nat) : readDigits (List.replicate count 0) = 0 := by
  induction count with
  | zero => rfl
  | succ count ih => rw [List.replicate_succ', readDigits_append_singleton, ih]

/-- A number with zeros in front of it up to a width. -/
theorem readDigits_padLeft {n width : Nat} (h : (ofNat n).length ≤ width) :
    ∃ digits, digitValues? (Text.padLeft width '0' (ofNat n)) = some digits ∧
      digits.length = width ∧ readDigits digits = n := by
  obtain ⟨digits, hvalues, hlength, hread⟩ := readDigits_toDigits n
  refine ⟨List.replicate (width - (ofNat n).length) 0 ++ digits, ?_, ?_, ?_⟩
  · unfold Text.padLeft
    rw [digitValues?_append, digitValues?_filled, hvalues]
    rfl
  · rw [List.length_append, List.length_replicate]
    omega
  · rw [readDigits_append, readDigits_replicate_zero, hread]
    omega

theorem readSigned_of_readDigits {digits : List Nat} {n : Int} (hread : readDigits digits = n.natAbs)
    (hlength : digits.length ≤ maxDigits) : readSigned (n < 0) digits = .ok n := by
  unfold readSigned readBounded
  rw [if_pos hlength, hread]
  by_cases hn : n < 0
  · simp only [hn, decide_true, if_true]
    exact congrArg Except.ok (by omega)
  · simp only [hn, decide_false]
    exact congrArg Except.ok (by simp; omega)

/-- Digits that are read as an integer are not too many, and stand for its magnitude. -/
theorem readSigned_eq_ok {negative : Bool} {digits : List Nat} {n : Int}
    (h : readSigned negative digits = .ok n) : digits.length ≤ maxDigits ∧ n.natAbs = readDigits digits := by
  obtain ⟨m, hm, h⟩ := bind_eq_ok_iff.1 h
  unfold readBounded at hm
  split at hm
  · cases hm
    refine ⟨‹_›, ?_⟩
    cases h
    split
    · rw [Int.natAbs_neg, Int.natAbs_natCast]
    · exact Int.natAbs_natCast _
  · cases hm

theorem lt_pow_of_le_maxDigits {n : Nat} (h : n ≤ maxDigits) : n < 10 ^ maxDigits :=
  Nat.lt_of_lt_of_le (Nat.lt_pow_self (by decide)) (Nat.pow_le_pow_right (by decide) h)

/-- The bound on digits is the bound `10 ^ 4300` on the number. -/
theorem length_ofNat_le_maxDigits_iff (n : Nat) :
    (ofNat n).length ≤ maxDigits ↔ n < 10 ^ maxDigits := by
  rw [ofNat, Text.length_ofChars]
  exact Nat.length_toDigits_le_iff (by decide) (by decide)

theorem write_eq {n : Int} (h : n.natAbs < 10 ^ maxDigits) : write n = .ok (ofInt n) := by
  unfold write
  rw [if_pos ((length_ofNat_le_maxDigits_iff _).2 h)]

theorem readBounded_refusedIff (digits : List Nat) :
    RefusedIff (readBounded digits) (maxDigits < digits.length) :=
  (RefusedIff.of_bound _).of_iff Nat.not_le

theorem readSigned_refusedIff (negative : Bool) (digits : List Nat) :
    RefusedIff (readSigned negative digits) (maxDigits < digits.length) :=
  (readBounded_refusedIff digits).map _

theorem write_refusedIff (n : Int) : RefusedIff (write n) (10 ^ maxDigits ≤ n.natAbs) := by
  refine (RefusedIff.of_bound _).of_iff ?_
  rw [length_ofNat_le_maxDigits_iff, Nat.not_lt]

end Decimal

namespace Numeral

/-- Digits have no sign in front of them. -/
theorem splitSign_of_isDigit {digits : Text} (h : ∀ c ∈ digits, c.isDigit = true) :
    splitSign digits = (false, digits) := by
  unfold splitSign
  split
  · have hsign := h _ List.mem_cons_self
    cases hsign
  · have hsign := h _ List.mem_cons_self
    cases hsign
  · rfl

theorem splitSign_ofInt (n : Int) :
    splitSign (Decimal.ofInt n) = (decide (n < 0), Decimal.ofNat n.natAbs) := by
  unfold Decimal.ofInt
  by_cases hn : n < 0
  · simp [hn, splitSign]
  · simp only [hn, if_false, decide_false]
    exact splitSign_of_isDigit fun c hc => Decimal.isDigit_of_mem_ofNat hc

theorem groupedFrom_true_of_isDigit {text : Text} (h : ∀ c ∈ text, c.isDigit = true) :
    groupedFrom true text = Decimal.digitValues? text := by
  induction text with
  | nil => rfl
  | cons c rest ih =>
    have hc : c ≠ '_' := CodePoint.ne_of_isDigit (h c (by simp)) rfl
    rw [groupedFrom, if_neg hc, ih fun d hd => h d (List.mem_cons_of_mem _ hd)]
    rfl

theorem groupedFrom_of_isDigit {text : Text} (h : ∀ c ∈ text, c.isDigit = true) (hne : text ≠ []) :
    groupedFrom false text = Decimal.digitValues? text := by
  rw [← groupedFrom_true_of_isDigit h]
  cases text with
  | nil => exact absurd rfl hne
  | cons c rest =>
    have hc : c ≠ '_' := CodePoint.ne_of_isDigit (h c (by simp)) rfl
    rw [groupedFrom, groupedFrom, if_neg hc, if_neg hc]

theorem isRunChar_of_isDigit {c : CodePoint} (h : c.isDigit = true) : isRunChar c = true := by
  simp [isRunChar, Text.isDecimal_of_isDigit h]

theorem someDigits?_of_isDigit (grouping : Grouping) {digits : Text}
    (h : ∀ c ∈ digits, c.isDigit = true) (hne : digits ≠ []) :
    grouping.someDigits? digits = Decimal.digitValues? digits := by
  unfold Grouping.someDigits?
  rw [if_neg hne]
  obtain ⟨c, more, rfl⟩ := List.exists_cons_of_ne_nil hne
  cases grouping with
  | plain => rfl
  | underscores => exact groupedFrom_of_isDigit h hne

/-- A sign and digits are a numeral without a point or an exponent, however digits may be grouped. -/
theorem read?_of_splitSign (grouping : Grouping) {text digits : Text} {negative : Bool} {values : List Nat}
    (hsign : splitSign text = (negative, digits)) (hdigits : ∀ c ∈ digits, c.isDigit = true)
    (hne : digits ≠ []) (hvalues : Decimal.digitValues? digits = some values) :
    read? grouping text = some ⟨negative, values, none, none⟩ := by
  have hrun : ∀ c ∈ digits, isRunChar c = true := fun c hc => isRunChar_of_isDigit (hdigits c hc)
  have hsome : values ≠ [] := by
    rintro rfl
    obtain ⟨c, more, rfl⟩ := List.exists_cons_of_ne_nil hne
    simp [Decimal.digitValues?, Option.bind_eq_some_iff] at hvalues
  unfold read?
  rw [hsign]
  dsimp only
  rw [List.takeWhile_eq_self_iff.2 hrun, List.dropWhile_eq_nil_iff.2 hrun,
    someDigits?_of_isDigit grouping hdigits hne, hvalues]
  simp [readExponent?, hsome]

theorem ofWord?_of_isDigit (negative : Bool) {digits : Text}
    (hdigits : ∀ c ∈ digits, c.isDigit = true) (hne : digits ≠ []) : ofWord? negative digits = none := by
  have hlower : digits.map CodePoint.toLower = digits := by
    conv_rhs => rw [← List.map_id digits]
    exact List.map_congr_left fun c hc => CodePoint.toLower_of_isDigit (hdigits c hc)
  have hword : ∀ word : Text, (∀ c ∈ word, c.isDigit = false) → digits ≠ word := fun word hword => by
    obtain ⟨d, hd⟩ := List.exists_mem_of_ne_nil digits hne
    exact Text.ne_of_isDigit hd (hdigits d hd) hword
  have hinf := hword "inf" (by decide)
  have hinfinity := hword "infinity" (by decide)
  have hnan := hword "nan" (by decide)
  unfold ofWord?
  rw [hlower]
  dsimp only
  rw [decide_eq_false hinf, decide_eq_false hinfinity, if_neg (by simp), if_neg hnan]

theorem dropWhile_isMargin {text : Text} (h : ∀ c ∈ text, Text.isBlank c = false) :
    text.dropWhile isMargin = text := by
  cases text with
  | nil => rfl
  | cons c rest => exact List.dropWhile_cons_of_neg (by simp [isMargin, h c (by simp)])

theorem trimMargin_of_forall {text : Text} (h : ∀ c ∈ text, Text.isBlank c = false) :
    trimMargin text = text := by
  unfold trimMargin
  rw [dropWhile_isMargin h, dropWhile_isMargin fun c hc => h c (List.mem_reverse.1 hc),
    List.reverse_reverse]

end Numeral

namespace Decimal

theorem isBlank_of_mem_ofInt {n : Int} {c : CodePoint} (h : c ∈ ofInt n) :
    Text.isBlank c = false := by
  unfold ofInt at h
  split at h
  · rcases List.mem_cons.1 h with rfl | h
    · decide
    · exact CodePoint.isBlank_of_isDigit (isDigit_of_mem_ofNat h)
  · exact CodePoint.isBlank_of_isDigit (isDigit_of_mem_ofNat h)

/-- The text of an integer with at most 4300 digits is read as that integer. -/
theorem readInt_ofInt {n : Int} (h : n.natAbs < 10 ^ maxDigits) :
    Numeral.readInt (ofInt n) = .ok n := by
  obtain ⟨digits, hvalues, hlength, hread⟩ := readDigits_toDigits n.natAbs
  unfold Numeral.readInt
  rw [Numeral.trimMargin_of_forall fun c hc => isBlank_of_mem_ofInt hc, Numeral.splitSign_ofInt]
  dsimp only
  rw [Numeral.groupedFrom_of_isDigit (fun c hc => isDigit_of_mem_ofNat hc) (ofNat_ne_nil _), hvalues]
  exact readSigned_of_readDigits hread (hlength ▸ (length_ofNat_le_maxDigits_iff _).2 h)

/-- As an operand such a text is a numeral without a point or an exponent. -/
theorem read?_ofInt (n : Int) :
    ∃ digits, Numeral.read? .plain (ofInt n) = some ⟨n < 0, digits, none, none⟩ ∧
      digits.length = (ofNat n.natAbs).length ∧ readDigits digits = n.natAbs := by
  obtain ⟨digits, hvalues, hlength, hread⟩ := readDigits_toDigits n.natAbs
  exact ⟨digits, Numeral.read?_of_splitSign .plain (Numeral.splitSign_ofInt n)
    (fun c hc => isDigit_of_mem_ofNat hc) (ofNat_ne_nil _) hvalues, hlength, hread⟩

theorem number?_ofInt {n : Int} (h : n.natAbs < 10 ^ maxDigits) :
    Operand.number? (ofInt n) = some (.ok (.int n)) := by
  obtain ⟨digits, hnumeral, hlength, hread⟩ := read?_ofInt n
  have hread := readSigned_of_readDigits hread
    (hlength ▸ (length_ofNat_le_maxDigits_iff _).2 h)
  unfold Operand.number?
  rw [hnumeral]
  simp [Numeral.isInteger, Numeral.toInt, hread]

end Decimal

end FluentQuery
