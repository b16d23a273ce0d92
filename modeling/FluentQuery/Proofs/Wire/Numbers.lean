/-
  Numbers on the wire. Whatever a JSON text is read as, under the tag of integers or of floating-point
  numbers it is decoded to such a number or to nothing, except where it is a number that its target has no
  place for: an infinity is no integer, and an integer may lie beyond all floating-point numbers
  (`decode_numbers_iff`). The fields of a document are decoded if each of them is.
-/
import FluentQuery.Proofs.Json.Values
import FluentQuery.Proofs.Numeric.WholeNumbers
import FluentQuery.Proofs.Wire.RoundTrip

namespace FluentQuery.Wire

/-! ## The two kinds of numbers -/

/-- The kinds of numbers that have a tag. -/
inductive NumberKind where
  | integer
  | double

namespace NumberKind

/-- The tag of a kind. -/
def tag : NumberKind → Text
  | integer => "integerValue"
  | double => "doubleValue"

/-- The decoder of the payloads of a kind. -/
def decoder : NumberKind → Value → Except Fault Value
  | integer => decodeInteger
  | double => decodeDouble

/-- What a payload may be decoded to: a number of the kind, or nothing. -/
def Yields : NumberKind → Value → Prop
  | integer, v => v = .null ∨ ∃ n, v = .int n
  | double, v => v = .null ∨ ∃ x, v = .float x

/-- The payload is no number that lies out of the range of the kind. -/
def Fits : NumberKind → Value → Prop
  | integer, payload => ∀ negative, payload ≠ .float (.infinite negative)
  | double, payload => ∀ n, payload = .int n → n.natAbs < Binary64.overflow

/-- The decoder yields a number of the kind or nothing if the payload fits, and has one refusal else. -/
structure Decodes (kind : NumberKind) (payload : Value) : Prop where
  yields : kind.Fits payload → ∃ v, kind.decoder payload = .ok v ∧ kind.Yields v
  refused : ¬kind.Fits payload → kind.decoder payload = .error .numberOutOfRange

theorem Decodes.of_ok {kind : NumberKind} {payload v : Value} (hfits : kind.Fits payload)
    (h : kind.decoder payload = .ok v) (hv : kind.Yields v) : kind.Decodes payload :=
  ⟨fun _ => ⟨v, h, hv⟩, fun hnot => absurd hfits hnot⟩

end NumberKind

open NumberKind (Decodes)

/-- A payload of JSON can be named, so the answer to one that is no number is nothing. -/
theorem noNumber_of_isJson {payload : Value} (h : Json.IsJson payload) : noNumber payload = .ok .null := by
  obtain ⟨s, hs⟩ := h.exists_toQuoted
  rw [noNumber, hs]
  rfl

theorem decodes_integer {payload : Value} (h : Json.IsJson payload) : Decodes .integer payload := by
  have hnone := noNumber_of_isJson h
  have hnothing : NumberKind.integer.Yields .null := .inl rfl
  cases h with
  | null => exact .of_ok nofun hnone hnothing
  | bool b => exact .of_ok nofun rfl (.inr ⟨_, rfl⟩)
  | int _ => exact .of_ok nofun rfl (.inr ⟨_, rfl⟩)
  | float x =>
    cases x with
    | nan => exact .of_ok nofun hnone hnothing
    | infinite negative => exact ⟨fun hfits => absurd rfl (hfits negative), fun _ => rfl⟩
    | finite x => exact .of_ok nofun rfl (.inr ⟨_, rfl⟩)
  | text s =>
    cases hread : Numeral.readInt s with
    | ok n =>
      refine .of_ok nofun ?_ (.inr ⟨n, rfl⟩)
      rw [NumberKind.decoder, decodeInteger, hread]
    | error fault =>
      refine .of_ok nofun ?_ hnothing
      rw [NumberKind.decoder, decodeInteger, hread]
      exact hnone
  | list _ => exact .of_ok nofun hnone hnothing
  | map _ _ => exact .of_ok nofun hnone hnothing

/-- An integer is decoded to a floating-point number if it does not lie beyond all of them. -/
theorem decodeDouble_of_ofInt (payload : Value) {n : Int} (h : toBinary64 payload = Binary64.ofInt n) :
    (n.natAbs < Binary64.overflow → ∃ x, decodeDouble payload = .ok (.float x)) ∧
      (¬n.natAbs < Binary64.overflow → decodeDouble payload = .error .numberOutOfRange) := by
  constructor
  · intro hlt
    obtain ⟨x, hx⟩ := (Binary64.exists_ofInt_iff n).2 hlt
    rw [decodeDouble, h, hx]
    exact ⟨x, rfl⟩
  · intro hnot
    cases hx : Binary64.ofInt n with
    | ok x => exact absurd ((Binary64.exists_ofInt_iff n).1 ⟨x, hx⟩) hnot
    | error fault => rw [decodeDouble, h, hx, Binary64.ofInt_eq_error hx]

theorem decodes_double {payload : Value} (h : Json.IsJson payload) : Decodes .double payload := by
  have hnone := noNumber_of_isJson h
  have hnothing : NumberKind.double.Yields .null := .inl rfl
  cases h with
  | null => exact .of_ok nofun hnone hnothing
  | bool b =>
    have hsmall : b.toInt.natAbs < Binary64.overflow :=
      Binary64.lt_overflow_of_lt (by cases b <;> decide)
    obtain ⟨x, hx⟩ := (decodeDouble_of_ofInt (.bool b) rfl).1 hsmall
    exact .of_ok nofun hx (.inr ⟨x, rfl⟩)
  | @int n _ =>
    obtain ⟨hyields, hrefused⟩ := decodeDouble_of_ofInt (.int n) rfl
    constructor
    · intro hfits
      obtain ⟨x, hx⟩ := hyields (hfits n rfl)
      exact ⟨.float x, hx, .inr ⟨x, rfl⟩⟩
    · refine fun hnot => hrefused fun hlt => hnot fun m hm => ?_
      cases hm
      exact hlt
  | float x => exact .of_ok nofun rfl (.inr ⟨_, rfl⟩)
  | text s =>
    cases hread : Numeral.readBinary64? s with
    | some x =>
      refine .of_ok nofun ?_ (.inr ⟨x, rfl⟩)
      rw [NumberKind.decoder, decodeDouble, toBinary64, hread]
    | none =>
      refine .of_ok nofun ?_ hnothing
      rw [NumberKind.decoder, decodeDouble, toBinary64, hread]
      exact hnone
  | list _ => exact .of_ok nofun hnone hnothing
  | map _ _ => exact .of_ok nofun hnone hnothing

/-! ## Fields -/

/-- A number on the wire: its kind, and a payload that some JSON text is read as. -/
structure WireNumber where
  kind : NumberKind
  payload : Value
  isRead : ∃ text, Json.read text = .ok payload

namespace WireNumber

/-- The wire value. -/
def value (w : WireNumber) : Value := tagged w.kind.tag w.payload

/-- The payload is no number that lies out of the range of its kind. -/
def Fits (w : WireNumber) : Prop := w.kind.Fits w.payload

theorem decode_value (w : WireNumber) : decode w.value = w.kind.decoder w.payload := by
  unfold value
  cases w.kind with
  | integer =>
    rw [NumberKind.tag, decode_eq, read_tagged (List.mem_of_getElem? (i := 1) rfl)]
    cases hdecoded : decodeInteger w.payload <;> (rw [NumberKind.decoder, hdecoded]; rfl)
  | double =>
    rw [NumberKind.tag, decode_eq, read_tagged (List.mem_of_getElem? (i := 2) rfl)]
    cases hdecoded : decodeDouble w.payload <;> (rw [NumberKind.decoder, hdecoded]; rfl)

theorem decodes (w : WireNumber) : Decodes w.kind w.payload := by
  obtain ⟨text, hread⟩ := w.isRead
  have hjson := Json.isJson_of_read hread
  cases w.kind with
  | integer => exact decodes_integer hjson
  | double => exact decodes_double hjson

/-- A number is decoded if it fits, to a number of its kind or to nothing. -/
theorem exists_decode_iff (w : WireNumber) : (∃ v, decode w.value = .ok v) ↔ w.Fits := by
  rw [decode_value]
  constructor
  · rintro ⟨v, hv⟩
    by_contra hnot
    rw [w.decodes.refused hnot] at hv
    cases hv
  · intro hfits
    obtain ⟨v, hv, -⟩ := w.decodes.yields hfits
    exact ⟨v, hv⟩

theorem yields_of_decode (w : WireNumber) {v : Value} (h : decode w.value = .ok v) : w.kind.Yields v := by
  obtain ⟨v', hv', hyields⟩ := w.decodes.yields (w.exists_decode_iff.1 ⟨v, h⟩)
  rw [decode_value, hv'] at h
  cases h
  exact hyields

end WireNumber

/-- The values of fields are decoded if each of them is. -/
theorem exists_decodeFieldMap_iff (fields : Entries) :
    (∃ es, decodeFieldMap (.map fields) = .ok es) ↔ ∀ e ∈ fields, ∃ v, decode e.2 = .ok v := by
  change (∃ es, decodeEntries fields = .ok es) ↔ _
  rw [decodeEntries, exists_mapM_eq_ok_iff]
  refine forall₂_congr fun e _ => ?_
  constructor
  · rintro ⟨e', h⟩
    obtain ⟨v, hv, -⟩ := bind_eq_ok_iff.1 h
    exact ⟨v, hv⟩
  · rintro ⟨v, hv⟩
    exact ⟨(e.1, v), bind_eq_ok_iff.2 ⟨v, hv, rfl⟩⟩

/-- Under a tag of numbers exactly those payloads of JSON that are no number out of range are decoded, to a
number of the kind or to nothing; and the fields of a document that are all of this form are decoded
exactly if each of them is. -/
theorem decode_numbers_iff (fields : List (Key × WireNumber)) :
    (∀ e ∈ fields, ((∃ v, decode e.2.value = .ok v) ↔ e.2.Fits) ∧
      ∀ v, decode e.2.value = .ok v → e.2.kind.Yields v) ∧
    ((∃ es, decodeFieldMap (.map (fields.map fun e => (e.1, e.2.value))) = .ok es) ↔
      ∀ e ∈ fields, e.2.Fits) := by
  refine ⟨fun e _ => ⟨e.2.exists_decode_iff, fun v => e.2.yields_of_decode⟩, ?_⟩
  rw [exists_decodeFieldMap_iff, List.forall_mem_map]
  exact forall₂_congr fun e _ => e.2.exists_decode_iff

/-- Both refusals: infinity as an integer, and the first power of two beyond all floating-point numbers as one
of them. -/
theorem decode_numbers_out_of_range :
    (Json.read "Infinity" = .ok (.float (.infinite false)) ∧
      decode (tagged "integerValue" (.float (.infinite false))) = .error .numberOutOfRange) ∧
    Json.read (Decimal.ofInt (Binary64.top : Int)) = .ok (.int (Binary64.top : Int)) ∧
      decode (tagged "doubleValue" (.int (Binary64.top : Int))) = .error .numberOutOfRange := by
  have hinfinity : Json.read "Infinity" = .ok (.float (.infinite false)) := rfl
  have hdigits : Binary64.top < 10 ^ Decimal.maxDigits := by
    have hbits : ∀ bits < Decimal.maxDigits, 2 ^ bits < 10 ^ Decimal.maxDigits := fun bits h =>
      Nat.lt_of_le_of_lt (Nat.pow_le_pow_left (by decide) bits) (Nat.pow_lt_pow_right (by decide) h)
    exact hbits 1024 (by decide)
  have htop : Json.read (Decimal.ofInt (Binary64.top : Int)) = .ok (.int (Binary64.top : Int)) :=
    (Json.IsValueText.int (by rwa [Int.natAbs_natCast])).read_eq
  refine ⟨⟨hinfinity, ?_⟩, htop, ?_⟩
  · let w : WireNumber := ⟨.integer, .float (.infinite false), _, hinfinity⟩
    exact w.decode_value.trans (w.decodes.refused fun hfits => hfits false rfl)
  · let w : WireNumber := ⟨.double, .int (Binary64.top : Int), _, htop⟩
    have hmiddle := Binary64.two_mul_overflow
    refine w.decode_value.trans (w.decodes.refused fun hfits => ?_)
    have hlt := hfits Binary64.top rfl
    rw [Int.natAbs_natCast] at hlt
    omega

end FluentQuery.Wire
