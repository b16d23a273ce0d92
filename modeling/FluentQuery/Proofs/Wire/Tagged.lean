/-
  The form of what is written for the wire. Every wire value is a map of one entry, whose key is one of ten
  tags, and so is every wire value in the payload of a list or a map (`IsTagged`). `isTagged_encode`: this
  is what is written for any value that can be written, also for one from outside the value domain.
-/
import FluentQuery.Proofs.Results
import FluentQuery.Proofs.Value.Entries
import FluentQuery.Wire.Encode
import FluentQuery.Wire.Reading

namespace FluentQuery.Wire

/-- A wire value: one tag and a payload of the kind that the tag names, at every level of nesting. -/
inductive IsTagged : Value → Prop
  | null : IsTagged (tagged "nullValue" .null)
  | bool (b : Bool) : IsTagged (tagged "booleanValue" (.bool b))
  | integer {n : Int} {text : Text} : Decimal.write n = .ok text →
      IsTagged (tagged "integerValue" (.text text))
  | double {x : Binary64} : x.isIntegral = false → IsTagged (tagged "doubleValue" (.float x))
  | string (s : Text) : IsTagged (tagged "stringValue" (.text s))
  | reference (path : Text) : IsTagged (tagged "referenceValue" (.text path))
  | timestamp {t : Timestamp} {text : Text} : t.format = .ok text →
      IsTagged (tagged "timestampValue" (.text text))
  | geoPoint (p : GeoPoint) : IsTagged (tagged "geoPointValue"
      (.map [(.text "latitude", .scalar p.latitude.toScalar),
        (.text "longitude", .scalar p.longitude.toScalar)]))
  | array {values : List Value} : (∀ v ∈ values, IsTagged v) →
      IsTagged (tagged "arrayValue" (.map [(.text "values", .list values)]))
  | map {fields : Entries} : (∀ e ∈ fields, IsTagged e.2) →
      IsTagged (tagged "mapValue" (.map [(.text "fields", .map fields)]))

/-- Every tag that is written is one that is looked for. -/
theorem IsTagged.exists_eq_tagged {w : Value} (h : IsTagged w) :
    ∃ tag ∈ readers.map (·.1), ∃ payload, w = tagged tag payload := by
  cases h <;> exact ⟨_, by decide, _, rfl⟩

theorem isTagged_integer {n : Int} {w : Value} (h : integer n = .ok w) : IsTagged w := by
  obtain ⟨text, htext, ⟨⟩⟩ := bind_eq_ok_iff.1 h
  exact .integer htext

theorem isTagged_encodeScalar {s : Scalar} {w : Value} (h : encodeScalar s = .ok w) : IsTagged w := by
  cases s with
  | null =>
    cases h
    exact .null
  | bool b =>
    cases h
    exact .bool b
  | int n => exact isTagged_integer h
  | float x =>
    cases x with
    | finite x =>
      rw [encodeScalar] at h
      split at h
      · exact isTagged_integer h
      · rename_i hwhole
        cases h
        exact .double (eq_false_of_ne_true hwhole)
    | nan =>
      cases h
      exact .double rfl
    | infinite negative =>
      cases h
      exact .double rfl
  | text s =>
    cases h
    exact .string s
  | reference path =>
    cases h
    exact .reference path
  | timestamp t =>
    obtain ⟨text, htext, ⟨⟩⟩ := bind_eq_ok_iff.1 h
    exact .timestamp htext
  | geoPoint p =>
    cases h
    exact .geoPoint p
  | foreign kind s =>
    cases h
    exact .string s

mutual

/-- What is written for a value has exactly one tag at every level. -/
theorem isTagged_encode : ∀ {v w : Value}, encode v = .ok w → IsTagged w
  | .scalar s, w, h => isTagged_encodeScalar h
  | .list items, w, h => by
    obtain ⟨values, hvalues, ⟨⟩⟩ := bind_eq_ok_iff.1 h
    exact .array (isTagged_encodeItems hvalues)
  | .map entries, w, h => by
    obtain ⟨fields, hfields, ⟨⟩⟩ := bind_eq_ok_iff.1 h
    exact .map (Entries.forall_ofList (isTagged_encodeEntries hfields))

theorem isTagged_encodeItems : ∀ {items values : List Value}, encodeItems items = .ok values →
    ∀ v ∈ values, IsTagged v
  | [], _, h => by
    cases h
    exact fun v hv => absurd hv List.not_mem_nil
  | item :: rest, _, h => by
    obtain ⟨head, hhead, h⟩ := bind_eq_ok_iff.1 h
    obtain ⟨values, hvalues, ⟨⟩⟩ := bind_eq_ok_iff.1 h
    exact List.forall_mem_cons.2 ⟨isTagged_encode hhead, isTagged_encodeItems hvalues⟩

theorem isTagged_encodeEntries : ∀ {entries fields : List (Key × Value)},
    encodeEntries entries = .ok fields → ∀ e ∈ fields, IsTagged e.2
  | [], _, h => by
    cases h
    exact fun e he => absurd he List.not_mem_nil
  | (key, item) :: rest, _, h => by
    obtain ⟨name, -, h⟩ := bind_eq_ok_iff.1 h
    obtain ⟨head, hhead, h⟩ := bind_eq_ok_iff.1 h
    obtain ⟨fields, hfields, ⟨⟩⟩ := bind_eq_ok_iff.1 h
    exact List.forall_mem_cons.2 ⟨isTagged_encode hhead, isTagged_encodeEntries hfields⟩

end

end FluentQuery.Wire
