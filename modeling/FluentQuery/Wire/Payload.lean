/-
  The payloads of wire values that have no wire values in them: integers, floating-point numbers,
  timestamps and points. A payload that does not fit its tag is nothing; only a number that is out of
  range, a member of what has none, or a payload without a text is a fault.
-/
import FluentQuery.Numeric.Numeral
import FluentQuery.Value.Text

namespace FluentQuery.Wire

/-- The answer to a payload that is no number: nothing, unless the payload cannot even be named. -/
def noNumber (payload : Value) : Except Fault Value := do
  let _ ← payload.toQuoted
  return .null

/-- The integer in a payload; text is read, fractions are dropped, and what is no number is nothing. -/
def decodeInteger (payload : Value) : Except Fault Value :=
  match payload with
  | .bool b => .ok (.int b.toInt)
  | .int n => .ok (.int n)
  | .float x =>
    match x.truncate with
    | .ok n => .ok (.int n)
    | .error .malformedNumber => noNumber payload
    | .error fault => .error fault
  | .text s | .reference s =>
    match Numeral.readInt s with
    | .ok n => .ok (.int n)
    | .error _ => noNumber payload
  | _ => noNumber payload

/-- A value as a floating-point number. -/
def toBinary64 : Value → Except Fault Binary64
  | .bool b => Binary64.ofInt b.toInt
  | .int n => Binary64.ofInt n
  | .float x => .ok x
  | .text s | .reference s =>
    match Numeral.readBinary64? s with
    | some x => .ok x
    | none => .error .malformedNumber
  | _ => .error .wrongKind

/-- The floating-point number in a payload; what is no number is nothing. -/
def decodeDouble (payload : Value) : Except Fault Value :=
  match toBinary64 payload with
  | .ok x => .ok (.float x)
  | .error .numberOutOfRange => .error .numberOutOfRange
  | .error _ => noNumber payload

/-- The timestamp in a payload; what is no timestamp stays as it is. -/
def decodeTimestamp (payload : Value) : Except Fault Value :=
  match payload.chars?.bind Timestamp.parse? with
  | some t => .ok (.timestamp t)
  | none => do
    let _ ← payload.toQuoted
    return payload

/-- The entries of a payload that should be a map; one that counts as absent has none. -/
def entriesOf : Value → Except Fault Entries
  | .map entries => .ok entries
  | value => if value.isTruthy then .error .noMembers else .ok []

/-- A coordinate of a point; an absent one is zero. -/
def coordinate (name : Text) (point : Entries) : Except Fault Binary64 :=
  match point.get? name with
  | some value => toBinary64 value
  | none => .ok (.zero false)

/-- The point in a payload. -/
def decodeGeoPoint (payload : Value) : Except Fault Value := do
  let point ← entriesOf payload
  let latitude ← coordinate "latitude" point
  let longitude ← coordinate "longitude" point
  return .geoPoint ⟨.float latitude, .float longitude⟩

end FluentQuery.Wire
