/-
  What the text of a timestamp means. A written time is a date and a time of day in fields of decimal digits,
  of any script, with a fraction of up to nine places and a zone, if they are given (`WrittenTime`). Its text is
  read as the second of the date in the calendar less the offset of the zone, and not at all if the calendar has
  no such date (`parse?_text`). So the text of the next day is read as 86400 seconds later, that of the next
  second as one second later, and the offset of a zone is the distance to the same text in UTC: together with
  the text of the second 0 this is what a timestamp is (`parse?_writtenTime`).
-/
import FluentQuery.Proofs.Time.CalendarSteps
import FluentQuery.Proofs.Time.TimestampText

namespace FluentQuery.Timestamp

/-! ## Zones -/

/-- The zone of a written time. -/
inductive Zone where
  | unwritten
  /-- UTC, as a letter. -/
  | utc (letter : CodePoint) (h : letter ∈ [CodePoint.char 'Z', CodePoint.char 'z'])
  /-- An offset, as a sign with hours and minutes, with a colon between them or without. -/
  | offset (ahead : Bool) (hours minutes : Field 2) (colon : Bool)

namespace Zone

def text : Zone → Text
  | unwritten => []
  | utc letter _ => [letter]
  | offset ahead hours minutes colon =>
    (if ahead then '+' else '-') :: (hours.text ++ ((if colon then ":" else "") ++ minutes.text))

/-- The seconds by which the zone is ahead of UTC. -/
def seconds : Zone → Int
  | unwritten => 0
  | utc _ _ => 0
  | offset true hours minutes _ => hours.value * 3600 + minutes.value * 60
  | offset false hours minutes _ => -(hours.value * 3600 + minutes.value * 60)

/-- Whether the zone is UTC, by a letter or for want of a zone. -/
def isUtc : Zone → Bool
  | unwritten => true
  | utc _ _ => true
  | offset _ _ _ _ => false

theorem seconds_of_isUtc {zone : Zone} (h : zone.isUtc = true) : zone.seconds = 0 := by
  cases zone with
  | unwritten => rfl
  | utc letter hletter => rfl
  | offset ahead hours minutes colon => cases h

/-- Hours and minutes are read with a colon between them or without, for no digit is a colon. -/
theorem readZone?_offset (ahead : Bool) (hours minutes : Field 2) (colon : Bool) :
    readZone? (offset ahead hours minutes colon).text = some (offset ahead hours minutes colon).seconds := by
  have hminutes := minutes.field?_append []
  rw [List.append_nil] at hminutes
  cases hdigits : minutes.text with
  | nil => exact absurd hdigits (minutes.text_ne_nil (by decide))
  | cons c rest =>
    have hc : c ≠ ':' := by
      rintro rfl
      exact absurd (minutes.isDecimal _ (hdigits ▸ List.mem_cons_self)) (by decide)
    rw [hdigits] at hminutes
    cases ahead <;> cases colon <;>
      simp [text, seconds, readZone?, hours.field?_append, hdigits, hminutes, hc, Text.ofChars]

theorem readZone?_text (zone : Zone) : readZone? zone.text = some zone.seconds := by
  cases zone with
  | unwritten => rfl
  | utc letter h =>
    rcases List.mem_pair.1 h with rfl | rfl <;> rfl
  | offset ahead hours minutes colon => exact readZone?_offset ahead hours minutes colon

theorem endsInBlank_text (zone : Zone) : Text.endsInBlank zone.text = false := by
  cases zone with
  | unwritten => rfl
  | utc letter h =>
    rcases List.mem_pair.1 h with rfl | rfl <;> rfl
  | offset ahead hours minutes colon =>
    have hsuffix : minutes.text <:+ (offset ahead hours minutes colon).text :=
      (List.suffix_append _ _).trans ((List.suffix_append _ _).trans (List.suffix_cons _ _))
    rw [← Text.endsInBlank_of_suffix hsuffix (minutes.text_ne_nil (by decide))]
    exact minutes.endsInBlank_text

/-- No digit and no point stands at the start of a zone. -/
theorem head?_text (zone : Zone) : ∀ c ∈ zone.text.head?, Text.isDecimal c = false ∧ c ≠ '.' := by
  cases zone with
  | unwritten => simp [text]
  | utc letter h =>
    rcases List.mem_pair.1 h with rfl | rfl <;> simp [text] <;> decide
  | offset ahead hours minutes colon =>
    cases ahead <;> simp [text] <;> decide

end Zone

/-! ## Written times -/

/-- A date and a time of day as text, with a fraction of a second of so many places, of which none are written
as no fraction, and a zone. -/
structure WrittenTime where
  year : Field 4
  month : Field 2
  day : Field 2
  separator : CodePoint
  hour : Field 2
  minute : Field 2
  second : Field 2
  places : Nat
  fraction : Field places
  zone : Zone
  separator_mem : separator ∈ [CodePoint.char 'T', CodePoint.char 't', CodePoint.char ' ']
  places_le : places ≤ 9

namespace WrittenTime

/-- The date and the time of day that the fields name, be they in the calendar or not. -/
def civil (w : WrittenTime) : CivilTime :=
  ⟨w.year.value, w.month.value, w.day.value, w.hour.value, w.minute.value, w.second.value⟩

/-- The fraction of a second in nanoseconds. -/
def nanoseconds (w : WrittenTime) : Nat := w.fraction.value * 10 ^ (9 - w.places)

def fractionText (w : WrittenTime) : Text := if w.places = 0 then [] else '.' :: w.fraction.text

def text (w : WrittenTime) : Text :=
  w.year.text ++ "-" ++ w.month.text ++ "-" ++ w.day.text ++ [w.separator] ++ w.hour.text ++ ":" ++
    w.minute.text ++ ":" ++ w.second.text ++ w.fractionText ++ w.zone.text

theorem text_eq (w : WrittenTime) : w.text =
    w.year.text ++ CodePoint.char '-' :: (w.month.text ++ CodePoint.char '-' :: (w.day.text ++ w.separator ::
      (w.hour.text ++ CodePoint.char ':' :: (w.minute.text ++ CodePoint.char ':' ::
        (w.second.text ++ (w.fractionText ++ w.zone.text)))))) := by
  unfold text
  simp only [List.append_assoc]
  rfl

theorem readCivil?_text (w : WrittenTime) :
    readCivil? w.text = some (w.civil, w.fractionText ++ w.zone.text) := by
  rw [text_eq]
  unfold readCivil?
  simp only [Field.field?_append, Option.bind_eq_bind, Option.bind_some, skipOne?_of_mem w.separator_mem,
    skipOne?_of_mem, List.mem_cons, true_or]
  rfl

/-- Without a point there is no fraction. -/
theorem readFraction?_of_head? {text : Text} (h : ∀ c ∈ text.head?, c ≠ '.') :
    readFraction? text = some (0, text) := by
  cases text with
  | nil => rfl
  | cons c rest =>
    unfold readFraction?
    split
    · rename_i heq
      cases heq
      exact absurd rfl (h _ rfl)
    · rfl

theorem readFraction?_text (w : WrittenTime) :
    readFraction? (w.fractionText ++ w.zone.text) = some (w.nanoseconds, w.zone.text) := by
  obtain ⟨digits, hvalues, hlength, hread⟩ := w.fraction.exists_digits
  unfold fractionText nanoseconds
  split_ifs with hplaces
  · have hone : 10 ^ w.places = 1 := by rw [hplaces, Nat.pow_zero]
    have hzero : w.fraction.value = 0 := by
      have hlt := w.fraction.value_lt
      omega
    rw [hzero, Nat.zero_mul]
    exact readFraction?_of_head? fun c hc => (w.zone.head?_text c hc).2
  · have hle := w.places_le
    have hvalue : Decimal.readDigits (digits ++ List.replicate (9 - w.places) 0) =
        w.fraction.value * 10 ^ (9 - w.places) := by
      rw [Decimal.readDigits_append, Decimal.readDigits_replicate_zero, List.length_replicate, hread,
        Nat.add_zero, Nat.mul_comm]
    -- The digits of the fraction end with the zone.
    have hspan := Text.span_decimal w.fraction.isDecimal fun c hc => (w.zone.head?_text c hc).1
    rw [List.cons_append, readFraction?_point, hspan.1, hspan.2, hvalues]
    simp [hlength, hvalue, hle, Nat.one_le_iff_ne_zero.2 hplaces]

theorem endsInBlank_fractionText (w : WrittenTime) : Text.endsInBlank w.fractionText = false := by
  unfold fractionText
  split_ifs with hplaces
  · rfl
  · have hne := w.fraction.text_ne_nil (Nat.pos_of_ne_zero hplaces)
    rw [← Text.endsInBlank_of_suffix (List.suffix_cons _ _) hne]
    exact w.fraction.endsInBlank_text

theorem tight_text (w : WrittenTime) : Text.Tight w.text := by
  constructor
  · rw [text_eq]
    cases hyear : w.year.text with
    | nil => exact absurd hyear (w.year.text_ne_nil (by decide))
    | cons c rest => exact w.year.isBlank_of_mem (hyear ▸ List.mem_cons_self)
  · have hsecond : Text.endsInBlank (w.year.text ++ "-" ++ w.month.text ++ "-" ++ w.day.text ++
        [w.separator] ++ w.hour.text ++ ":" ++ w.minute.text ++ ":" ++ w.second.text) = false := by
      rw [← Text.endsInBlank_of_suffix (List.suffix_append _ _) (w.second.text_ne_nil (by decide))]
      exact w.second.endsInBlank_text
    exact Text.endsInBlank_append (Text.endsInBlank_append hsecond w.endsInBlank_fractionText)
      w.zone.endsInBlank_text

/-- A written time is read as the second of its date in the calendar less the offset of its zone. -/
theorem parse?_text (w : WrittenTime) : parse? w.text =
    if w.civil.isValid then some ⟨w.civil.toSeconds - w.zone.seconds, w.nanoseconds⟩ else none := by
  unfold parse?
  rw [w.tight_text.trim, readCivil?_text]
  simp only [Option.bind_eq_bind, Option.bind_some, readFraction?_text, Zone.readZone?_text]
  rfl

/-- Every date and time of day of the calendar can be written, with any separator, fraction and zone. -/
theorem exists_civil_eq (w : WrittenTime) {t : CivilTime} (h : t.isValid = true) :
    ∃ w' : WrittenTime, w'.civil = t ∧ w'.separator = w.separator ∧ w'.fractionText = w.fractionText ∧
      w'.zone = w.zone := by
  obtain ⟨⟨-, hy⟩, ⟨-, hm⟩, ⟨-, hd⟩, hh, hmin, hs⟩ := CivilTime.isValid_iff.1 h
  have hd31 := Nat.le_trans hd (daysInMonth_le t.year t.month)
  have hwidth : 0 < 2 := by decide
  let written : WrittenTime := { w with
    year := Field.ofNat (show 0 < 4 by decide) (show t.year < 10 ^ 4 by omega)
    month := Field.ofNat hwidth (show t.month < 10 ^ 2 by omega)
    day := Field.ofNat hwidth (show t.day < 10 ^ 2 by omega)
    hour := Field.ofNat hwidth (show t.hour < 10 ^ 2 by omega)
    minute := Field.ofNat hwidth (show t.minute < 10 ^ 2 by omega)
    second := Field.ofNat hwidth (show t.second < 10 ^ 2 by omega) }
  refine ⟨written, ?_, rfl, rfl, rfl⟩
  simp only [written, civil, Field.value_ofNat]

theorem parse?_of_isValid {w : WrittenTime} (h : w.civil.isValid = true) :
    parse? w.text = some ⟨w.civil.toSeconds - w.zone.seconds, w.nanoseconds⟩ := by
  rw [parse?_text, if_pos h]

theorem nanoseconds_mul (w : WrittenTime) :
    w.nanoseconds * 10 ^ w.places = w.fraction.value * 10 ^ 9 := by
  rw [nanoseconds, Nat.mul_assoc, ← Nat.pow_add, Nat.sub_add_cancel w.places_le]

/-- The year of four digits keeps a written time before the year 10000. -/
theorem year_le (w : WrittenTime) : w.civil.year ≤ 9999 := Nat.le_of_lt_succ w.year.value_lt

/-- What is later in the calendar is read as so many seconds later in the same zone. -/
theorem exists_parse?_of_later {w w' : WrittenTime} {seconds : Int} (hvalid : w'.civil.isValid = true)
    (hzone : w'.zone = w.zone) (hlater : w'.civil.toSeconds = w.civil.toSeconds + seconds) :
    ∃ t', parse? w'.text = some t' ∧
      t'.seconds = w.civil.toSeconds - w.zone.seconds + seconds := by
  refine ⟨_, parse?_of_isValid hvalid, ?_⟩
  rw [hzone, hlater]
  dsimp only
  omega

end WrittenTime

/-- The text of a timestamp means a time of the calendar. The text of the second 0 is read as that second. Every
date of the calendar can be written with any separator, fraction and zone, and a written time is read if its
date exists in the calendar, and only then. Its nanoseconds are its fraction, the same time on the next day is
read as 86400 seconds later, the next second as one second later, and with an offset the time is as many
seconds earlier as the zone is ahead of UTC. -/
theorem parse?_writtenTime :
    parse? "1970-01-01T00:00:00Z" = some ⟨0, 0⟩ ∧
    ∀ w : WrittenTime,
      (∀ civil : CivilTime, civil.isValid = true → ∃ w' : WrittenTime, w'.civil = civil ∧
        w'.separator = w.separator ∧ w'.fractionText = w.fractionText ∧ w'.zone = w.zone) ∧
      (w.civil.isValid = false → parse? w.text = none) ∧
      (w.civil.isValid = true → ∃ t, parse? w.text = some t ∧
        t.nanoseconds * 10 ^ w.places = w.fraction.value * 10 ^ 9 ∧
        (∀ w' : WrittenTime, w'.civil = w.civil.nextDay → w'.zone = w.zone →
          ∃ t', parse? w'.text = some t' ∧ t'.seconds = t.seconds + 86400) ∧
        (∀ w' : WrittenTime, w'.civil = w.civil.nextSecond → w'.zone = w.zone →
          ∃ t', parse? w'.text = some t' ∧ t'.seconds = t.seconds + 1) ∧
        ∀ w' : WrittenTime, w'.civil = w.civil → w'.zone.isUtc = true →
          ∃ t', parse? w'.text = some t' ∧ t.seconds = t'.seconds - w.zone.seconds) := by
  refine ⟨by decide, fun w => ⟨fun civil h => w.exists_civil_eq h, fun h => ?_, fun h => ?_⟩⟩
  · rw [w.parse?_text, h]
    rfl
  · refine ⟨_, WrittenTime.parse?_of_isValid h, ?_, fun w' hcivil hzone => ?_, fun w' hcivil hzone => ?_,
      fun w' hcivil hzone => ?_⟩
    · have hnanoseconds := w.nanoseconds_mul
      dsimp only
      exact_mod_cast hnanoseconds
    · have hvalid : w'.civil.isValid = true :=
        hcivil ▸ CivilTime.isValid_nextDay h (hcivil ▸ w'.year_le)
      exact WrittenTime.exists_parse?_of_later hvalid hzone (hcivil ▸ CivilTime.toSeconds_nextDay h)
    · have hvalid : w'.civil.isValid = true :=
        hcivil ▸ CivilTime.isValid_nextSecond h (hcivil ▸ w'.year_le)
      exact WrittenTime.exists_parse?_of_later hvalid hzone (hcivil ▸ CivilTime.toSeconds_nextSecond h)
    · refine ⟨_, WrittenTime.parse?_of_isValid (hcivil ▸ h), ?_⟩
      have hutc : w'.zone.seconds = 0 := Zone.seconds_of_isUtc hzone
      rw [hcivil, hutc]
      dsimp only
      omega

/-- The last second of a February with 28 days in a zone behind UTC, the same time on the next day, the next
second, the same time in UTC, and the day that this February does not have. -/
theorem parse?_end_of_february :
    let w : WrittenTime :=
      { year := ⟨"2100", by decide, rfl⟩
        month := ⟨"02", by decide, rfl⟩
        day := ⟨"28", by decide, rfl⟩
        separator := 'T'
        hour := ⟨"23", by decide, rfl⟩
        minute := ⟨"59", by decide, rfl⟩
        second := ⟨"59", by decide, rfl⟩
        places := 2
        fraction := ⟨"25", by decide, rfl⟩
        zone := .offset false ⟨"03", by decide, rfl⟩ ⟨"30", by decide, rfl⟩ true
        separator_mem := by decide
        places_le := by decide }
    let march : WrittenTime :=
      { w with month := ⟨"03", by decide, rfl⟩, day := ⟨"01", by decide, rfl⟩ }
    let zero : Field 2 := ⟨"00", by decide, rfl⟩
    let midnight : WrittenTime := { march with hour := zero, minute := zero, second := zero }
    let missing : WrittenTime := { w with day := ⟨"29", by decide, rfl⟩ }
    let utc : WrittenTime := { w with zone := .utc 'Z' (by decide) }
    w.text = "2100-02-28T23:59:59.25-03:30" ∧ parse? missing.text = none ∧
      ∃ t, parse? w.text = some t ∧ t.nanoseconds * 10 ^ 2 = 25 * 10 ^ 9 ∧
        (∃ t', parse? march.text = some t' ∧ t'.seconds = t.seconds + 86400) ∧
        (∃ t', parse? midnight.text = some t' ∧ t'.seconds = t.seconds + 1) ∧
        ∃ t', parse? utc.text = some t' ∧ t.seconds = t'.seconds + 12600 := by
  intro w march zero midnight missing utc
  have hcivil : w.civil = ⟨2100, 2, 28, 23, 59, 59⟩ := by decide
  have hnextDay : march.civil = w.civil.nextDay := by
    rw [hcivil]
    decide
  have hnextSecond : midnight.civil = w.civil.nextSecond := by
    rw [hcivil]
    decide
  have hmissing := (parse?_writtenTime.2 missing).2.1 (by decide)
  obtain ⟨t, hparse, hnanoseconds, hday, hsecond, hutc⟩ := (parse?_writtenTime.2 w).2.2 (by decide)
  have hfraction : w.fraction.value = 25 := by decide
  have hzone : w.zone.seconds = -12600 := by decide
  rw [hfraction] at hnanoseconds
  obtain ⟨t', hparse', hseconds⟩ := hutc utc rfl rfl
  exact ⟨by decide, hmissing, t, hparse, hnanoseconds, hday march hnextDay rfl,
    hsecond midnight hnextSecond rfl, t', hparse', by omega⟩

end FluentQuery.Timestamp
