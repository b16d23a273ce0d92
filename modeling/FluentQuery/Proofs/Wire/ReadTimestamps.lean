/-
  Timestamps that were read off the wire and are written again. Whatever zone and fraction a text has, its
  nanoseconds lie within a second (`nanoseconds_of_parse?`), so the text that is written reads back from
  the year 1000 on; but an earlier year is written with fewer than four digits, and no text with such a
  year is read (`readCivil?_early`). `decode_again_iff`: so a timestamp that can be written
  survives reading, writing and reading exactly from the year 1000 on.
-/
import FluentQuery.Proofs.Wire.RoundTrip

namespace FluentQuery

namespace Timestamp

/-! ## What is read -/

theorem readFraction?_lt {text rest : Text} {n : Nat} (h : readFraction? text = some (n, rest)) :
    n < 10 ^ 9 := by
  unfold readFraction? at h
  split at h
  · simp only [Option.bind_eq_bind, Option.bind_eq_some_iff] at h
    obtain ⟨digits, hvalues, h⟩ := h
    have hlt := Decimal.readDigits_lt_of_digitValues? hvalues
    split at h
    · rename_i hnine
      cases h
      simp only [Bool.and_eq_true, decide_eq_true_eq] at hnine
      rw [Decimal.readDigits_append, Decimal.readDigits_replicate_zero, List.length_replicate,
        Nat.add_zero]
      calc 10 ^ (9 - digits.length) * Decimal.readDigits digits
          < 10 ^ (9 - digits.length) * 10 ^ digits.length :=
            Nat.mul_lt_mul_of_pos_left hlt (Nat.pow_pos (by decide))
        _ = 10 ^ 9 := by rw [← Nat.pow_add, Nat.sub_add_cancel hnine.2]
    · cases h
  · cases h
    decide

/-- A timestamp that is read has its nanoseconds within a second, however its fraction is written. -/
theorem nanoseconds_of_parse? {text : Text} {t : Timestamp} (h : parse? text = some t) :
    0 ≤ t.nanoseconds ∧ t.nanoseconds < 10 ^ 9 := by
  simp only [parse?, Option.bind_eq_bind, Option.bind_eq_some_iff] at h
  obtain ⟨⟨civil, rest⟩, -, ⟨n, rest'⟩, hfraction, offset, -, h⟩ := h
  split at h
  · cases h
    have hlt := readFraction?_lt hfraction
    dsimp only
    omega
  · cases h

/-! ## Years of fewer than four digits -/

/-- A run of digits that ends too early is no field. -/
theorem field?_of_short {width : Nat} {front : Text} {c : CodePoint} (hfront : front.length < width)
    (hc : Text.isDecimal c = false) (rest : Text) : field? width (front ++ c :: rest) = none := by
  have htake : (front ++ c :: rest).take width =
      front ++ c :: rest.take (width - front.length - 1) := by
    obtain ⟨more, hmore⟩ : ∃ more, width - front.length = more + 1 :=
      ⟨width - front.length - 1, by omega⟩
    rw [List.take_append, List.take_of_length_le (by omega), hmore, List.take_succ_cons,
      Nat.add_sub_cancel]
  cases hfield : field? width (front ++ c :: rest) with
  | none => rfl
  | some found =>
    simp only [field?, Option.bind_eq_bind, Option.bind_eq_some_iff] at hfield
    obtain ⟨digits, hvalues, -⟩ := hfield
    rw [htake] at hvalues
    rw [Decimal.isDecimal_of_digitValues? hvalues c (by simp)] at hc
    cases hc

/-- A year before 1000 is written with fewer than four digits, and the reader takes none but four. -/
theorem readCivil?_early {t : CivilTime} (hyear : t.year < 1000) (rest : Text) :
    readCivil? (civilText t ++ rest) = none := by
  have hshort : (Decimal.ofNat t.year).length < 4 :=
    Nat.lt_succ_of_le (Decimal.length_ofNat_le (by decide) hyear)
  have hfield : field? 4 (civilText t ++ rest) = none := by
    unfold civilText
    simp only [List.append_assoc]
    exact field?_of_short hshort rfl _
  unfold readCivil?
  rw [hfield]
  rfl

/-- The text of a timestamp before the year 1000 is not read. -/
theorem parse?_early {t : Timestamp} {text : Text} (hearly : t.seconds < CivilTime.firstSecond 1000)
    (htext : t.format = .ok text) : parse? text = none := by
  unfold format at htext
  split at htext
  · cases htext
  · rename_i civil hcivil
    split at htext
    · cases htext
      have hyear : civil.year < 1000 := by
        have hpos : 1 ≤ 1000 := by decide
        have hle := CivilTime.ofSeconds?_year_le_iff hcivil hpos
        omega
      have htight : Text.Tight (civilText civil ++ fractionText t.nanoseconds ++ "Z") := tight_text _
      unfold parse?
      rw [htight.trim, List.append_assoc, readCivil?_early hyear]
      rfl
    · cases htext

end Timestamp

namespace Wire

theorem encode_timestamp (t : Timestamp) : encode (.timestamp t) =
    (fun text => tagged "timestampValue" (.text text)) <$> t.format := by
  rw [encode, encodeScalar]
  cases t.format <;> rfl

/-- A text under the tag of timestamps is decoded whatever it is: to the timestamp that it is read as, or
else to itself. -/
theorem decode_timestampValue (text : Text) : decode (tagged "timestampValue" (.text text)) =
    .ok (match Timestamp.parse? text with
      | some t => .timestamp t
      | none => .text text) := by
  refine decode_tagged 5 rfl ?_
  unfold decodeTimestamp Value.chars? Scalar.chars?
  dsimp only
  rw [Option.bind_some]
  cases Timestamp.parse? text with
  | some t => rfl
  | none => rfl

theorem decode_timestamp_iff {text : Text} {t : Timestamp} :
    decode (tagged "timestampValue" (.text text)) = .ok (.timestamp t) ↔
      Timestamp.parse? text = some t := by
  rw [decode_timestampValue]
  cases Timestamp.parse? text <;> simp

/-- A timestamp that is read off the wire, before the year 10000, is written as a text that is read as this
timestamp exactly from the year 1000 on, and exactly then decoding, encoding and decoding ends with the
value of the first decoding. -/
theorem decode_again_iff {text : Text} {t : Timestamp} (h : Timestamp.parse? text = some t)
    (hlate : t.seconds < CivilTime.firstSecond 10000) :
    decode (tagged "timestampValue" (.text text)) = .ok (.timestamp t) ∧
      ((∃ written, t.format = .ok written ∧ Timestamp.parse? written = some t) ↔
        CivilTime.firstSecond 1000 ≤ t.seconds) ∧
      ((∃ value, encode (.timestamp t) = .ok value ∧ decode value = .ok (.timestamp t)) ↔
        CivilTime.firstSecond 1000 ≤ t.seconds) := by
  have hreads : (∃ written, t.format = .ok written ∧ Timestamp.parse? written = some t) ↔
      CivilTime.firstSecond 1000 ≤ t.seconds := by
    constructor
    · rintro ⟨written, hwritten, hparse⟩
      by_contra hearly
      rw [Timestamp.parse?_early (Int.not_le.1 hearly) hwritten] at hparse
      cases hparse
    · intro hfirst
      obtain ⟨hn, hn'⟩ := Timestamp.nanoseconds_of_parse? h
      exact Timestamp.parse?_format hfirst hlate hn hn'
  refine ⟨decode_timestamp_iff.2 h, hreads, ?_⟩
  rw [← hreads, encode_timestamp]
  cases t.format with
  | error fault => exact iff_of_false nofun nofun
  | ok written =>
    constructor
    · rintro ⟨_, ⟨⟩, hdecode⟩
      exact ⟨written, rfl, decode_timestamp_iff.1 hdecode⟩
    · rintro ⟨_, ⟨⟩, hparse⟩
      exact ⟨_, rfl, decode_timestamp_iff.2 hparse⟩

/-- A zone takes a text of the year 999 over into the year 1000. -/
theorem decode_again_first_hour_of_1000 :
    Timestamp.parse? "0999-12-31 23:30:00.50-01:00" = some ⟨-30610222200, 500000000⟩ ∧
      -30610222200 < CivilTime.firstSecond 10000 ∧
      Timestamp.format ⟨-30610222200, 500000000⟩ = .ok "1000-01-01T00:30:00.5Z" ∧
      ∃ value, encode (.timestamp ⟨-30610222200, 500000000⟩) = .ok value ∧
        decode value = .ok (.timestamp ⟨-30610222200, 500000000⟩) := by
  have hparse : Timestamp.parse? "0999-12-31 23:30:00.50-01:00" =
      some ⟨-30610222200, 500000000⟩ := by decide
  have hlate : -30610222200 < CivilTime.firstSecond 10000 := by decide
  have hfirst : CivilTime.firstSecond 1000 ≤ -30610222200 := by decide
  exact ⟨hparse, hlate, rfl, (decode_again_iff hparse hlate).2.2.2 hfirst⟩

/-- The last second of the year 999 is written with a year of three digits, which is not read, and so
decoding ends with a text. -/
theorem decode_again_year_999 :
    decode (tagged "timestampValue" (.text "0999-12-31T23:59:59Z")) =
        .ok (.timestamp ⟨-30610224001, 0⟩) ∧
      CivilTime.firstSecond 1 ≤ -30610224001 ∧ -30610224001 < CivilTime.firstSecond 10000 ∧
      encode (.timestamp ⟨-30610224001, 0⟩) =
        .ok (tagged "timestampValue" (.text "999-12-31T23:59:59Z")) ∧
      Timestamp.parse? "999-12-31T23:59:59Z" = none ∧
      decode (tagged "timestampValue" (.text "999-12-31T23:59:59Z")) =
        .ok (.text "999-12-31T23:59:59Z") := by
  have hparse : Timestamp.parse? "0999-12-31T23:59:59Z" = some ⟨-30610224001, 0⟩ := by decide
  refine ⟨decode_timestamp_iff.2 hparse, by decide, by decide, rfl, by decide, ?_⟩
  exact decode_tagged 5 rfl rfl

end Wire

end FluentQuery
