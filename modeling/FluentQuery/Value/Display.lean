/-
  Values on the screen: the label of a value's type, the text of a table cell, the text in an edit
  box, and the way back from an edited cell or document.
-/
import FluentQuery.Json.Printer
import FluentQuery.Json.Reader
import FluentQuery.Numeric.Numeral

namespace FluentQuery.Display

/-- The label of the type of a value without parts; a whole number is an integer however it is kept. -/
def scalarType : Scalar → Text
  | .null => "Null"
  | .bool _ => "Boolean"
  | .int _ => "Integer"
  | .float x => if x.isIntegral then "Integer" else "Number"
  | .text _ => "String"
  | .reference _ => "Reference"
  | .timestamp _ => "Timestamp"
  | .geoPoint _ => "GeoPoint"
  | .foreign kind _ => kind

/-- The label of a value's type. -/
def typeLabel : Value → Text
  | .scalar s => scalarType s
  | .list _ => "Array"
  | .map _ => "Map"

/-- The cell of a value without parts. -/
def scalarCell : Scalar → Except Fault Text
  | .null => .ok []
  | .bool b => .ok (if b then "true" else "false")
  | .timestamp t => t.format
  | .geoPoint p => do
    let latitude ← p.latitude.toText
    let longitude ← p.longitude.toText
    return "(" ++ latitude ++ ", " ++ longitude ++ ")"
  | s => s.toText

/-- The text of a table cell; nulls, lists and maps leave it empty. -/
def cell : Value → Except Fault Text
  | .scalar s => scalarCell s
  | _ => .ok []

/-- The text in an edit box: JSON for lists and maps, the cell for all else but null. -/
def editText : Value → Except Fault Text
  | .null => .ok "null"
  | .scalar s => scalarCell s
  | value => Json.print .nonAscii value

/-- The value of an edited text that is not JSON: a number in a notation of its own, or the text. -/
def ofPlainText (text : Text) : Value :=
  if text = [] then .null
  else if text = "true" then .bool true
  else if text = "false" then .bool false
  else
    match Numeral.readBinary64? text with
    | some (.finite x) =>
      if x.isIntegral && Text.countOf '.' text = 0 then .int x.truncate else .float (.finite x)
    | _ => .text text

/-- The value of an edited text: JSON first, and what is not JSON as plain text. -/
def ofEditText (text : Text) : Except Fault Value :=
  match Json.read text with
  | .ok value => .ok value
  | .error .tooManyDigits => .error .tooManyDigits
  | .error (.malformed _) => .ok (ofPlainText text)

/-- Why an edited document cannot be saved. -/
inductive DocumentFailure where
  | invalidJson (e : Json.Located)
  | notAnObject
  /-- An integer in the document has too many digits to be read. -/
  | tooManyDigits
  deriving DecidableEq, Repr

/-- The wording of a failure, for those that are reported to the user. -/
def DocumentFailure.message : DocumentFailure → Text
  | invalidJson e =>
    "Invalid JSON: " ++ e.problem.message ++ " (line " ++ Decimal.ofNat e.line ++ ", column " ++
      Decimal.ofNat e.column ++ ")"
  | notAnObject => "Document must be a JSON object"
  | tooManyDigits => "Integer has too many digits"

/-- The entries of an edited document. -/
def ofDocumentText (text : Text) : Except DocumentFailure Entries :=
  match Json.read text with
  | .ok (.map entries) => .ok entries
  | .ok _ => .error .notAnObject
  | .error .tooManyDigits => .error .tooManyDigits
  | .error (.malformed e) => .error (.invalidJson e)

end FluentQuery.Display
