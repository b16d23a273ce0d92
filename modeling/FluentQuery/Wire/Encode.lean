/-
  Writing values for the wire: a map of one entry whose key is a tag that says how the payload is to be
  read. Writing is defined on all dynamic values and follows their structure.
-/
import FluentQuery.Value.Text

namespace FluentQuery.Wire

/-- A map of one entry. -/
def tagged (tag : Text) (payload : Value) : Value := .map [(.text tag, payload)]

/-- The wire value of an integer; integers travel as text. -/
def integer (n : Int) : Except Fault Value := do
  return tagged "integerValue" (.text (← Decimal.write n))

/-- The wire value of a value without parts. A whole floating-point number travels as an integer, and
an object from outside the domain as its text. -/
def encodeScalar : Scalar → Except Fault Value
  | .null => .ok (tagged "nullValue" .null)
  | .bool b => .ok (tagged "booleanValue" (.bool b))
  | .int n => integer n
  | .float (.finite x) =>
    if x.isIntegral then integer x.truncate else .ok (tagged "doubleValue" (.float (.finite x)))
  | .float x => .ok (tagged "doubleValue" (.float x))
  | .text s => .ok (tagged "stringValue" (.text s))
  | .reference path => .ok (tagged "referenceValue" (.text path))
  | .timestamp t => do return tagged "timestampValue" (.text (← t.format))
  | .geoPoint p =>
    .ok (tagged "geoPointValue"
      (.map [(.text "latitude", .scalar p.latitude.toScalar),
        (.text "longitude", .scalar p.longitude.toScalar)]))
  | .foreign _ s => .ok (tagged "stringValue" (.text s))

mutual

/-- The wire value of a dynamic value. -/
def encode : Value → Except Fault Value
  | .scalar s => encodeScalar s
  | .list items => do
    return tagged "arrayValue" (.map [(.text "values", .list (← encodeItems items))])
  | .map entries => do
    return tagged "mapValue"
      (.map [(.text "fields", .map (Entries.ofList (← encodeEntries entries)))])

/-- The wire values of several values. -/
def encodeItems : List Value → Except Fault (List Value)
  | [] => .ok []
  | item :: rest => do
    let head ← encode item
    return head :: (← encodeItems rest)

/-- The wire values of entries, each under the text of its key. -/
def encodeEntries : List (Key × Value) → Except Fault (List (Key × Value))
  | [] => .ok []
  | (key, item) :: rest => do
    let name ← key.toText
    let head ← encode item
    return (.text name, head) :: (← encodeEntries rest)

end

end FluentQuery.Wire
