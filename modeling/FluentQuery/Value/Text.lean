/-
  The text forms of values: the plain form, in which a text stands for itself, and the quoted form
  that is used for the parts of lists, maps and tuples.
-/
import FluentQuery.Numeric.Shortest
import FluentQuery.Text.Quoted
import FluentQuery.Value.Basic

namespace FluentQuery

/-- The text of a number. -/
def Number.toText : Number → Except Fault Text
  | .int n => Decimal.write n
  | .float x => .ok x.toText

namespace Scalar

/-- The plain text of a value without parts. -/
def toText : Scalar → Except Fault Text
  | null => .ok "None"
  | bool b => .ok (if b then "True" else "False")
  | int n => Decimal.write n
  | float x => .ok x.toText
  | text s => .ok s
  | reference s => .ok s
  | timestamp t => do
    let seconds ← Decimal.write t.seconds
    let nanoseconds ← Decimal.write t.nanoseconds
    return "Timestamp(seconds=" ++ seconds ++ ", nanoseconds=" ++ nanoseconds ++ ")"
  | geoPoint p => do
    let latitude ← p.latitude.toText
    let longitude ← p.longitude.toText
    return "GeoPoint(latitude=" ++ latitude ++ ", longitude=" ++ longitude ++ ")"
  | foreign _ s => .ok s

/-- The quoted text: texts and paths in quotes, all else as in the plain text. -/
def toQuoted : Scalar → Except Fault Text
  | text s => .ok (Text.quoted s)
  | reference s => .ok (Text.quoted s)
  | s => s.toText

end Scalar

namespace Key

mutual

/-- The quoted text of a key. -/
def toQuoted : Key → Except Fault Text
  | scalar s => s.toQuoted
  | tuple items => do
    match ← quotedAll items with
    | [single] => return "(" ++ single ++ ",)"
    | parts => return "(" ++ Text.join ", " parts ++ ")"

/-- The quoted texts of several keys. -/
def quotedAll : List Key → Except Fault (List Text)
  | [] => .ok []
  | key :: rest => do
    let head ← toQuoted key
    return head :: (← quotedAll rest)

end

/-- The plain text of a key. -/
def toText : Key → Except Fault Text
  | scalar s => s.toText
  | key => key.toQuoted

end Key

namespace Value

mutual

/-- The quoted text of a value. -/
def toQuoted : Value → Except Fault Text
  | scalar s => s.toQuoted
  | list items => do return "[" ++ Text.join ", " (← quotedItems items) ++ "]"
  | map entries => do return "\x7b" ++ Text.join ", " (← quotedEntries entries) ++ "\x7d"

/-- The quoted texts of several values. -/
def quotedItems : List Value → Except Fault (List Text)
  | [] => .ok []
  | item :: rest => do
    let head ← toQuoted item
    return head :: (← quotedItems rest)

/-- The quoted texts of entries, each with a colon behind its key. -/
def quotedEntries : List (Key × Value) → Except Fault (List Text)
  | [] => .ok []
  | (key, item) :: rest => do
    let name ← key.toQuoted
    let value ← toQuoted item
    return (name ++ ": " ++ value) :: (← quotedEntries rest)

end

/-- The plain text of a value. -/
def toText : Value → Except Fault Text
  | scalar s => s.toText
  | value => value.toQuoted

end Value

end FluentQuery
