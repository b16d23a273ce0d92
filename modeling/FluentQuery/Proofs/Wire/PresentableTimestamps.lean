/-
  Timestamps that were read off the wire, on the screen and on their way back. The reader takes every
  offset of two-digit hours and minutes, also where it leads out of the years 1 to 9999, while the writer
  knows no other years (`exists_format_iff`). `decoded_timestamp_presentable_iff`: so what was decoded can
  be shown and sent exactly if it stayed a text or its instant lies in those years; near both ends there are
  texts that are decoded and then refused.
-/
import FluentQuery.Proofs.Wire.ReadTimestamps
import FluentQuery.Value.Display

namespace FluentQuery

namespace CivilTime

open Calendar

theorem year_lt_of_ofSeconds? {seconds : Int} {civil : CivilTime}
    (h : ofSeconds? seconds = some civil) : civil.year < 10000 := by
  cases hdate : dateOf (seconds / 86400 + epochDay).toNat with
  | mk year rest =>
    obtain ⟨month, day⟩ := rest
    rw [ofSeconds?_of_dateOf (day_nonneg_of_ofSeconds? h) hdate] at h
    split at h
    · cases h
    · cases h
      dsimp only
      omega

/-- Exactly the seconds of the years 1 to 9999 have a date. -/
theorem exists_ofSeconds?_iff (seconds : Int) : (∃ civil, ofSeconds? seconds = some civil) ↔
    firstSecond 1 ≤ seconds ∧ seconds < firstSecond 10000 := by
  constructor
  · rintro ⟨civil, hcivil⟩
    have hday := day_nonneg_of_ofSeconds? hcivil
    have hyear := year_lt_of_ofSeconds? hcivil
    have hlate : 10000 ≤ civil.year ↔ firstSecond 10000 ≤ seconds :=
      ofSeconds?_year_le_iff hcivil (by decide)
    have hfirst : firstSecond 1 = (0 - (epochDay : Int)) * 86400 := firstSecond_eq 1
    omega
  · rintro ⟨hlo, hhi⟩
    obtain ⟨civil, hcivil, -⟩ := ofSeconds?_eq_some hlo hhi
    exact ⟨civil, hcivil⟩

end CivilTime

namespace Timestamp

/-- Whether the instant lies in the years 1 to 9999 of UTC. -/
def InCalendar (t : Timestamp) : Prop :=
  CivilTime.firstSecond 1 ≤ t.seconds ∧ t.seconds < CivilTime.firstSecond 10000

instance (t : Timestamp) : Decidable t.InCalendar := inferInstanceAs (Decidable (_ ∧ _))

theorem format_of_not_inCalendar {t : Timestamp} (h : ¬t.InCalendar) :
    t.format = .error .yearOutOfRange := by
  cases hcivil : CivilTime.ofSeconds? t.seconds with
  | some civil => exact absurd ((CivilTime.exists_ofSeconds?_iff _).1 ⟨civil, hcivil⟩) h
  | none =>
    unfold format
    rw [hcivil]

/-- A timestamp with its nanoseconds within a second has a text exactly if its instant lies in the
calendar. -/
theorem exists_format_iff {t : Timestamp} (hn : 0 ≤ t.nanoseconds) (hn' : t.nanoseconds < 10 ^ 9) :
    (∃ text, t.format = .ok text) ↔ t.InCalendar := by
  constructor
  · rintro ⟨text, htext⟩
    by_contra hout
    rw [format_of_not_inCalendar hout] at htext
    cases htext
  · intro h
    obtain ⟨civil, hcivil⟩ := (CivilTime.exists_ofSeconds?_iff t.seconds).2 h
    have hlt : t.nanoseconds.natAbs < 10 ^ 9 := by omega
    have hdigits : (Decimal.ofNat t.nanoseconds.natAbs).length ≤ Decimal.maxDigits :=
      Nat.le_trans (Decimal.length_ofNat_le (by decide) hlt) (by decide)
    unfold format
    rw [hcivil]
    exact ⟨_, if_pos hdigits⟩

end Timestamp

namespace Wire

/-- What the wire value of a timestamp is decoded to can be shown in a cell, and can be encoded again,
exactly if the text is no timestamp or its instant lies in the calendar. -/
theorem decoded_timestamp_presentable_iff (text : Text) :
    ∃ value, decode (tagged "timestampValue" (.text text)) = .ok value ∧
      ((∃ shown, Display.cell value = .ok shown) ↔
        ∀ t, Timestamp.parse? text = some t → t.InCalendar) ∧
      ((∃ sent, encode value = .ok sent) ↔ ∀ t, Timestamp.parse? text = some t → t.InCalendar) := by
  refine ⟨_, decode_timestampValue text, ?_⟩
  cases hparse : Timestamp.parse? text with
  | none => exact ⟨iff_of_true ⟨text, rfl⟩ nofun, iff_of_true ⟨_, rfl⟩ nofun⟩
  | some t =>
    obtain ⟨hn, hn'⟩ := Timestamp.nanoseconds_of_parse? hparse
    have hsame : (∀ u, some t = some u → u.InCalendar) ↔ t.InCalendar := by simp
    rw [hsame, ← Timestamp.exists_format_iff hn hn', encode_timestamp]
    refine ⟨Iff.rfl, ?_⟩
    cases t.format with
    | error fault => exact iff_of_false nofun nofun
    | ok written => exact iff_of_true ⟨_, rfl⟩ ⟨_, rfl⟩

/-- One minute beyond either end of the calendar: an offset makes an instant of the year 0 out of a time of
the year 1, and one of the year 10000 out of a time of the year 9999. Both are decoded, and neither can be
shown or sent. -/
theorem decoded_timestamp_beyond_calendar :
    decode (tagged "timestampValue" (.text "0001-01-01T00:00:00+00:01")) =
        .ok (.timestamp ⟨-62135596860, 0⟩) ∧
      Display.cell (.timestamp ⟨-62135596860, 0⟩) = .error .yearOutOfRange ∧
      encode (.timestamp ⟨-62135596860, 0⟩) = .error .yearOutOfRange ∧
      decode (tagged "timestampValue" (.text "9999-12-31T23:59:59-00:01")) =
        .ok (.timestamp ⟨253402300859, 0⟩) ∧
      Display.cell (.timestamp ⟨253402300859, 0⟩) = .error .yearOutOfRange ∧
      encode (.timestamp ⟨253402300859, 0⟩) = .error .yearOutOfRange := by
  have hearly : Timestamp.parse? "0001-01-01T00:00:00+00:01" = some ⟨-62135596860, 0⟩ := by decide
  have hlate : Timestamp.parse? "9999-12-31T23:59:59-00:01" = some ⟨253402300859, 0⟩ := by decide
  exact ⟨decode_timestamp_iff.2 hearly, rfl, rfl, decode_timestamp_iff.2 hlate, rfl, rfl⟩

end Wire

end FluentQuery
