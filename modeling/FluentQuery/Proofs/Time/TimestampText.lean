/-
  The text of a timestamp reads back: `parse?_format`. Date and time of day are fields of fixed width
  from the year 1000 on (`readCivil?_civilText`), and the fraction loses only zeros that the reader
  puts back (`readFraction?_fractionText`).
-/
import FluentQuery.Proofs.Numeric.DecimalText
import FluentQuery.Proofs.Time.DayNumbers
import FluentQuery.Time.Timestamp

namespace FluentQuery.Timestamp

theorem length_padLeft {width : Nat} {text : Text} (c : CodePoint) (h : text.length ≤ width) :
    (Text.padLeft width c text).length = width := by
  unfold Text.padLeft Text.filled
  rw [List.length_append, List.length_replicate]
  omega

theorem padded_natCast (width n : Nat) :
    padded width (n : Int) = Text.padLeft width '0' (Decimal.ofNat n) := by
  unfold padded
  rw [if_neg (by omega), Int.natAbs_natCast]

/-! ## Fields of digits -/

/-- A number written with a fixed number of decimal digits. -/
structure Field (width : Nat) where
  text : Text
  isDecimal : ∀ c ∈ text, Text.isDecimal c = true
  length_eq : text.length = width

namespace Field

variable {width : Nat}

/-- The number that the digits stand for. -/
def value (f : Field width) : Nat := (Decimal.digitValues? f.text).elim 0 Decimal.readDigits

theorem exists_digits (f : Field width) : ∃ digits, Decimal.digitValues? f.text = some digits ∧
    digits.length = width ∧ Decimal.readDigits digits = f.value := by
  obtain ⟨digits, hvalues, hlength, -⟩ := Decimal.exists_digitValues f.isDecimal
  refine ⟨digits, hvalues, hlength.trans f.length_eq, ?_⟩
  rw [value, hvalues]
  rfl

theorem value_lt (f : Field width) : f.value < 10 ^ width := by
  obtain ⟨digits, hvalues, hlength, hread⟩ := f.exists_digits
  rw [← hread, ← hlength]
  exact Decimal.readDigits_lt_of_digitValues? hvalues

theorem text_ne_nil (f : Field width) (h : 0 < width) : f.text ≠ [] := by
  rw [← List.length_pos_iff, f.length_eq]
  exact h

/-- A field is read off the start of a text. -/
theorem field?_append (f : Field width) (rest : Text) :
    field? width (f.text ++ rest) = some (f.value, rest) := by
  obtain ⟨digits, hvalues, hlength, hread⟩ := f.exists_digits
  unfold field?
  rw [List.take_left' f.length_eq, List.drop_left' f.length_eq, hvalues]
  simp [hlength, hread]

theorem isBlank_of_mem (f : Field width) {c : CodePoint} (h : c ∈ f.text) : Text.isBlank c = false := by
  by_contra hblank
  rw [Bool.not_eq_false] at hblank
  have hdecimal := Text.isDecimal_of_isBlank hblank
  rw [f.isDecimal c h] at hdecimal
  cases hdecimal

theorem endsInBlank_text (f : Field width) : Text.endsInBlank f.text = false := by
  unfold Text.endsInBlank
  cases hlast : f.text.getLast? with
  | none => rfl
  | some c => exact f.isBlank_of_mem (List.mem_of_getLast? hlast)

/-- A number that has room in a field, with zeros in front. -/
def ofNat {n : Nat} (hw : 0 < width) (h : n < 10 ^ width) : Field width where
  text := Text.padLeft width '0' (Decimal.ofNat n)
  isDecimal := by
    obtain ⟨digits, hvalues, -⟩ := Decimal.readDigits_padLeft (Decimal.length_ofNat_le hw h)
    exact Decimal.isDecimal_of_digitValues? hvalues
  length_eq := length_padLeft '0' (Decimal.length_ofNat_le hw h)

theorem value_ofNat {n : Nat} (hw : 0 < width) (h : n < 10 ^ width) : (ofNat hw h).value = n := by
  obtain ⟨digits, hvalues, -, hread⟩ := Decimal.readDigits_padLeft (Decimal.length_ofNat_le hw h)
  unfold value ofNat
  rw [hvalues]
  exact hread

end Field

/-! ## Date and time of day -/

/-- A field of fixed width is read off the start of a text. -/
theorem field?_padLeft {width n : Nat} (hw : 0 < width) (h : n < 10 ^ width) (rest : Text) :
    field? width (Text.padLeft width '0' (Decimal.ofNat n) ++ rest) = some (n, rest) := by
  have hread := (Field.ofNat hw h).field?_append rest
  rwa [Field.value_ofNat] at hread

theorem padLeft_year {year : Nat} (hlo : 1000 ≤ year) (hhi : year < 10000) :
    Decimal.ofNat year = Text.padLeft 4 '0' (Decimal.ofNat year) := by
  have h3 : ¬(Decimal.ofNat year).length ≤ 3 := by
    rw [Decimal.ofNat, Text.length_ofChars, Nat.length_toDigits_le_iff (by decide) (by decide)]
    omega
  have h4 := Decimal.length_ofNat_le (n := year) (show 0 < 4 by decide) (by omega)
  unfold Text.padLeft
  rw [show 4 - (Decimal.ofNat year).length = 0 by omega]
  rfl

theorem skipOne?_of_mem {allowed : Text} {c : CodePoint} (h : c ∈ allowed) (rest : Text) :
    skipOne? allowed (c :: rest) = some rest := if_pos h

theorem civilText_append {t : CivilTime} (hlo : 1000 ≤ t.year) (hhi : t.year < 10000) (rest : Text) :
    civilText t ++ rest =
      Text.padLeft 4 '0' (Decimal.ofNat t.year) ++ CodePoint.char '-' ::
        (Text.padLeft 2 '0' (Decimal.ofNat t.month) ++ CodePoint.char '-' ::
          (Text.padLeft 2 '0' (Decimal.ofNat t.day) ++ CodePoint.char 'T' ::
            (Text.padLeft 2 '0' (Decimal.ofNat t.hour) ++ CodePoint.char ':' ::
              (Text.padLeft 2 '0' (Decimal.ofNat t.minute) ++ CodePoint.char ':' ::
                (Text.padLeft 2 '0' (Decimal.ofNat t.second) ++ rest))))) := by
  rw [← padLeft_year hlo hhi]
  unfold civilText
  simp only [padded_natCast, List.append_assoc]
  rfl

theorem daysInMonth_le (year month : Nat) : Calendar.daysInMonth year month ≤ 31 := by
  unfold Calendar.daysInMonth
  split
  · omega
  · have h : ∀ length ∈ Calendar.monthLengths (Calendar.isLeap year), length ≤ 31 := by
      cases Calendar.isLeap year <;> decide
    rw [List.getD_eq_getElem?_getD]
    cases hget : (Calendar.monthLengths (Calendar.isLeap year))[month - 1]? with
    | none => simp
    | some length => exact h length (List.mem_of_getElem? hget)

/-- The text of a date and a time of day is read off the start of a text. -/
theorem readCivil?_civilText {t : CivilTime} (hvalid : t.isValid = true) (hyear : 1000 ≤ t.year)
    (rest : Text) : readCivil? (civilText t ++ rest) = some (t, rest) := by
  obtain ⟨⟨-, hy⟩, ⟨-, hm⟩, ⟨-, hd⟩, hh, hmin, hs⟩ := CivilTime.isValid_iff.1 hvalid
  have hd31 := Nat.le_trans hd (daysInMonth_le t.year t.month)
  rw [civilText_append hyear (by omega)]
  unfold readCivil?
  simp only [field?_padLeft (show 0 < 4 by decide) (show t.year < 10 ^ 4 by omega),
    field?_padLeft (show 0 < 2 by decide) (show t.month < 10 ^ 2 by omega),
    field?_padLeft (show 0 < 2 by decide) (show t.day < 10 ^ 2 by omega),
    field?_padLeft (show 0 < 2 by decide) (show t.hour < 10 ^ 2 by omega),
    field?_padLeft (show 0 < 2 by decide) (show t.minute < 10 ^ 2 by omega),
    field?_padLeft (show 0 < 2 by decide) (show t.second < 10 ^ 2 by omega),
    Option.bind_eq_bind, Option.bind_some, skipOne?_of_mem, List.mem_cons, true_or]
  rfl

/-! ## The fraction of a second -/

theorem dropTrailing_append_filled (c : CodePoint) (text : Text) :
    ∃ count, text = Text.dropTrailing c text ++ Text.filled count c := by
  have hall : ∀ d ∈ text.reverse.takeWhile (· = c), d = c := fun d hd => by
    simpa using List.mem_takeWhile_imp hd
  obtain ⟨count, hcount⟩ : ∃ count, text.reverse.takeWhile (· = c) = List.replicate count c :=
    ⟨_, List.eq_replicate_iff.2 ⟨rfl, hall⟩⟩
  refine ⟨count, ?_⟩
  calc text = (text.reverse.takeWhile (· = c) ++ text.reverse.dropWhile (· = c)).reverse := by
        rw [List.takeWhile_append_dropWhile, List.reverse_reverse]
    _ = Text.dropTrailing c text ++ Text.filled count c := by
        rw [List.reverse_append, hcount, List.reverse_replicate]
        rfl

/-- The zeros that are taken off the nine digits are the ones the reader puts back. -/
theorem exists_kept_digits {n : Nat} (h : n < 10 ^ 9) :
    ∃ digits, Decimal.digitValues? (Text.dropTrailing '0' (padded 9 n)) = some digits ∧
      digits.length ≤ 9 ∧
      Decimal.readDigits (digits ++ List.replicate (9 - digits.length) 0) = n := by
  obtain ⟨all, hvalues, hlength, hread⟩ :=
    Decimal.readDigits_padLeft (Decimal.length_ofNat_le (show 0 < 9 by decide) h)
  rw [padded_natCast]
  obtain ⟨count, hsplit⟩ := dropTrailing_append_filled '0'
    (Text.padLeft 9 '0' (Decimal.ofNat n))
  generalize Text.dropTrailing '0' (Text.padLeft 9 '0' (Decimal.ofNat n)) = kept at *
  rw [hsplit, Decimal.digitValues?_append, Decimal.digitValues?_filled] at hvalues
  cases hkept : Decimal.digitValues? kept with
  | none => rw [hkept] at hvalues; cases hvalues
  | some digits =>
    rw [hkept] at hvalues
    cases hvalues
    rw [List.length_append, List.length_replicate] at hlength
    refine ⟨digits, rfl, by omega, ?_⟩
    rw [show 9 - digits.length = count by omega]
    exact hread

theorem readFraction?_point (rest : Text) :
    readFraction? (CodePoint.char '.' :: rest) =
      (Decimal.digitValues? (rest.takeWhile Text.isDecimal)).bind fun digits =>
        if 1 ≤ digits.length && digits.length ≤ 9 then
          some (Decimal.readDigits (digits ++ List.replicate (9 - digits.length) 0),
            rest.dropWhile Text.isDecimal)
        else none :=
  rfl

theorem readFraction?_fractionText {n : Nat} (h : n < 10 ^ 9) :
    readFraction? (fractionText n ++ [CodePoint.char 'Z']) = some (n, [CodePoint.char 'Z']) := by
  unfold fractionText
  by_cases hn : n = 0
  · subst hn
    rfl
  · obtain ⟨digits, hvalues, hlength, hread⟩ := exists_kept_digits h
    have hne : digits ≠ [] := by
      rintro rfl
      exact hn hread.symm
    have hpos := List.length_pos_iff.2 hne
    have hz : ∀ c ∈ [CodePoint.char 'Z'].head?, Text.isDecimal c = false := by decide
    have hspan := Text.span_decimal (Decimal.isDecimal_of_digitValues? hvalues) hz
    rw [if_neg (by omega), List.cons_append, readFraction?_point, hspan.1, hspan.2]
    simp [hvalues, hread, hlength, Nat.one_le_iff_ne_zero.1 hpos]

/-! ## The whole text -/

theorem tight_text {t : CivilTime} (nanoseconds : Int) :
    Text.Tight (civilText t ++ fractionText nanoseconds ++ [CodePoint.char 'Z']) := by
  constructor
  · unfold civilText
    cases htext : Decimal.ofNat t.year with
    | nil => exact absurd htext (Decimal.ofNat_ne_nil _)
    | cons c rest =>
      have hc : c.isDigit = true := Decimal.isDigit_of_mem_ofNat (n := t.year) (by simp [htext])
      exact CodePoint.isBlank_of_isDigit hc
  · unfold Text.endsInBlank
    rw [List.getLast?_append]
    rfl

/-- A timestamp of the years 1000 to 9999 has a text, and the text is read as that timestamp. -/
theorem parse?_format {t : Timestamp} (hlo : CivilTime.firstSecond 1000 ≤ t.seconds)
    (hhi : t.seconds < CivilTime.firstSecond 10000) (hn : 0 ≤ t.nanoseconds)
    (hn' : t.nanoseconds < 10 ^ 9) : ∃ text, t.format = .ok text ∧ parse? text = some t := by
  obtain ⟨seconds, nanoseconds⟩ := t
  obtain ⟨n, rfl⟩ := Int.eq_ofNat_of_zero_le hn
  dsimp only at hlo hhi hn'
  have hn9 : n < 10 ^ 9 := by omega
  have hfirst : CivilTime.firstSecond 1 ≤ CivilTime.firstSecond 1000 := by decide
  obtain ⟨civil, hcivil, hvalid, hback⟩ :=
    CivilTime.ofSeconds?_eq_some (Int.le_trans hfirst hlo) hhi
  have hyear : 1000 ≤ civil.year :=
    (CivilTime.ofSeconds?_year_le_iff hcivil (by decide)).2 hlo
  have hdigits : (Decimal.ofNat n).length ≤ Decimal.maxDigits :=
    Nat.le_trans (Decimal.length_ofNat_le (show 0 < 9 by decide) hn9) (by decide)
  refine ⟨civilText civil ++ fractionText n ++ [CodePoint.char 'Z'], ?_, ?_⟩
  · unfold format
    simp only [hcivil]
    rw [if_pos (by simpa using hdigits)]
    rfl
  · unfold parse?
    rw [(tight_text _).trim, List.append_assoc, readCivil?_civilText hvalid hyear]
    simp only [Option.bind_eq_bind, Option.bind_some, readFraction?_fractionText hn9]
    simp [readZone?, hvalid, hback]

end FluentQuery.Timestamp
