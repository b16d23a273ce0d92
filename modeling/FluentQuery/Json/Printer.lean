/-
  Printing values as JSON, indented by two blanks for every level. Integers are printed in full,
  floating-point numbers as the shortest text that reads back, and a value that JSON has no form for
  is printed as its text, a point as an object of its coordinates.
-/
import FluentQuery.Value.Text

namespace FluentQuery.Json

/-- Which characters of a string are escaped beyond those that must be. -/
inductive Escaping where
  /-- Everything beyond ASCII. -/
  | nonAscii
  /-- Nothing. -/
  | required
  deriving DecidableEq

/-- A `\uXXXX` escape. -/
def unicodeEscape (n : Nat) : Text := Text.backslash :: 'u' :: Text.hex 4 n

/-- The characters with an escape of one letter, each with its letter. -/
def escapeLetters : List (CodePoint × CodePoint) :=
  [('\x22', '\x22'), ('\x5c', '\x5c'), ('\n', 'n'), ('\r', 'r'), ('\t', 't'), ('\x08', 'b'),
    ('\x0c', 'f')]

/-- A character as it stands inside a string. -/
def stringChar (escaping : Escaping) (c : CodePoint) : Text :=
  match escapeLetters.lookup c with
  | some e => [Text.backslash, e]
  | none =>
    if c.toNat < 0x20 then unicodeEscape c.toNat
    else if escaping = .required || c.toNat < 0x7F then [c]
    else if c.toNat < 0x10000 then unicodeEscape c.toNat
    else
      let n := c.toNat - 0x10000
      unicodeEscape (0xD800 + n / 0x400) ++ unicodeEscape (0xDC00 + n % 0x400)

/-- A text as a JSON string. -/
def string (escaping : Escaping) (s : Text) : Text :=
  "\x22" ++ s.flatMap (stringChar escaping) ++ "\x22"

/-- A floating-point number; the numbers beyond JSON have the words of the reader. -/
def floatText : Binary64 → Text
  | .nan => "NaN"
  | .infinite negative => if negative then "-Infinity" else "Infinity"
  | .finite x => (Binary64.finite x).toText

/-- A number. -/
def numberText : Number → Except Fault Text
  | .int n => Decimal.write n
  | .float x => .ok (floatText x)

/-- The start of a line at a depth of nesting. -/
def newLine (depth : Nat) : Text := '\n' :: Text.filled (2 * depth) ' '

/-- Opening and closing character around the parts, each part on a line of its own. -/
def block (opening closing : CodePoint) (depth : Nat) : List Text → Text
  | [] => [opening, closing]
  | parts =>
    opening :: newLine (depth + 1) ++ Text.join (',' :: newLine (depth + 1)) parts ++
      newLine depth ++ [closing]

/-- A name and the value behind it. -/
def member (escaping : Escaping) (name value : Text) : Text := string escaping name ++ ": " ++ value

/-- A value without parts at a depth of nesting. -/
def scalarText (escaping : Escaping) (depth : Nat) : Scalar → Except Fault Text
  | .null => .ok "null"
  | .bool b => .ok (if b then "true" else "false")
  | .int n => Decimal.write n
  | .float x => .ok (floatText x)
  | .text s => .ok (string escaping s)
  | .reference path => .ok (string escaping path)
  | .timestamp t => do return string escaping (← t.format)
  | .geoPoint p => do
    let latitude ← numberText p.latitude
    let longitude ← numberText p.longitude
    return block '\x7b' '\x7d' depth
      [member escaping "latitude" latitude, member escaping "longitude" longitude]
  | .foreign _ s => .ok (string escaping s)

/-- The name of an entry. Texts, null, truth values and numbers can be names. -/
def nameOf : Key → Except Fault Text
  | .scalar (.text s) => .ok s
  | .scalar (.reference path) => .ok path
  | .scalar .null => .ok "null"
  | .scalar (.bool b) => .ok (if b then "true" else "false")
  | .scalar (.int n) => Decimal.write n
  | .scalar (.float x) => .ok (floatText x)
  | _ => .error .wrongKind

mutual

/-- A value at a depth of nesting. -/
def printAt (escaping : Escaping) (depth : Nat) : Value → Except Fault Text
  | .scalar s => scalarText escaping depth s
  | .list items => do return block '[' ']' depth (← printItems escaping (depth + 1) items)
  | .map entries => do
    return block '\x7b' '\x7d' depth (← printEntries escaping (depth + 1) entries)

/-- The items of an array. -/
def printItems (escaping : Escaping) (depth : Nat) : List Value → Except Fault (List Text)
  | [] => .ok []
  | item :: rest => do
    let head ← printAt escaping depth item
    return head :: (← printItems escaping depth rest)

/-- The entries of an object. -/
def printEntries (escaping : Escaping) (depth : Nat) : List (Key × Value) → Except Fault (List Text)
  | [] => .ok []
  | (key, item) :: rest => do
    let name ← nameOf key
    let value ← printAt escaping depth item
    return member escaping name value :: (← printEntries escaping depth rest)

end

/-- A value as indented JSON. -/
def print (escaping : Escaping) (value : Value) : Except Fault Text := printAt escaping 0 value

/-- Texts as a JSON array on one line. -/
def row (cells : List Text) : Text :=
  "[" ++ Text.join ", " (cells.map (string .required)) ++ "]"

end FluentQuery.Json
