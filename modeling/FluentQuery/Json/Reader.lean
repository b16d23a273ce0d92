/-
  Reading JSON: RFC 8259 and the three words `NaN`, `Infinity` and `-Infinity`. Integers keep every
  digit, a repeated key of an object keeps its first place and takes the last value. The steps work on
  the text that is left, so a place in the text is known by how many characters are left there;
  every step yields its result and the text that is left behind it.
-/
import FluentQuery.Json.Problem
import FluentQuery.Value.Basic

namespace FluentQuery.Json

/-- Why reading stopped. -/
inductive Stop where
  /-- A problem at the place where so many characters are left. -/
  | problem (p : Problem) (left : Nat)
  | tooManyDigits
  deriving DecidableEq, Repr

/-- Stops with a problem in front of the text that is left. -/
def fail {α : Type} (p : Problem) (rest : Text) : Except Stop α := .error (.problem p rest.length)

/-- Whether the character may stand between tokens. -/
def isSpace (c : CodePoint) : Bool := c = ' ' || c = '\t' || c = '\n' || c = '\r'

/-- The text behind the spaces at its start. -/
def skipSpace (text : Text) : Text := text.dropWhile isSpace

/-- The value of a hexadecimal digit. -/
def hexValue? (c : CodePoint) : Option Nat :=
  let n := c.toNat
  if c.isDigit then some (n - 0x30)
  else if 0x61 ≤ n && n ≤ 0x66 then some (n - 0x61 + 10)
  else if 0x41 ≤ n && n ≤ 0x46 then some (n - 0x41 + 10)
  else none

/-- The number of four hexadecimal digits. -/
def hexNumber? : Text → Option Nat
  | [a, b, c, d] => do
    return ((← hexValue? a) * 16 + (← hexValue? b)) * 256 + ((← hexValue? c) * 16 + (← hexValue? d))
  | _ => none

/-- Four hexadecimal digits behind `\u`, with at least one character behind them. -/
def readHex (text : Text) : Except Stop (Nat × Text) :=
  let invalid := .error (.problem .unicodeEscape (text.length + 1))
  if text.length ≤ 4 then invalid
  else
    match hexNumber? (text.take 4) with
    | some n => .ok (n, text.drop 4)
    | none => invalid

/-- The number is the first half of a surrogate pair. -/
def isHighSurrogate (n : Nat) : Bool := 0xD800 ≤ n && n ≤ 0xDBFF

/-- The number is the second half of a surrogate pair. -/
def isLowSurrogate (n : Nat) : Bool := 0xDC00 ≤ n && n ≤ 0xDFFF

/-- A code point written as `\uXXXX`, behind the `u`. Two halves of a surrogate pair are one character;
a half on its own stays a surrogate. -/
def readUnicode (text : Text) : Except Stop (CodePoint × Text) := do
  let (n, rest) ← readHex text
  match rest with
  | '\x5c' :: 'u' :: more =>
    if isHighSurrogate n && 4 < more.length then
      let (m, rest') ← readHex more
      if isLowSurrogate m then
        return (.ofNat (0x10000 + (n - 0xD800) * 0x400 + (m - 0xDC00)), rest')
      else return (CodePoint.ofNat n, rest)
    else return (CodePoint.ofNat n, rest)
  | _ => return (CodePoint.ofNat n, rest)

/-- The letters of the one-letter escapes, each with the character that it stands for. -/
def shortEscapes : List (CodePoint × CodePoint) :=
  [('\x22', '\x22'), ('\x5c', '\x5c'), ('/', '/'), ('b', '\x08'), ('f', '\x0c'), ('n', '\n'),
    ('r', '\r'), ('t', '\t')]

/-- The character that a one-letter escape stands for. -/
def shortEscape? (c : CodePoint) : Option CodePoint :=
  shortEscapes.lookup c

/-- The rest of a string behind its opening quote; `opening` characters were left at the quote. -/
def readString (opening : Nat) : (steps : Nat) → Text → Except Stop (Text × Text)
  | 0, _ => .error (.problem .unterminatedString opening)
  | _, [] => .error (.problem .unterminatedString opening)
  | steps + 1, c :: rest =>
    if c = '\x22' then .ok ([], rest)
    else if c = '\x5c' then
      match rest with
      | [] => .error (.problem .unterminatedString opening)
      | 'u' :: more => do
        let (d, more) ← readUnicode more
        let (s, left) ← readString opening steps more
        return (d :: s, left)
      | e :: more =>
        match shortEscape? e with
        | some d => do
          let (s, left) ← readString opening steps more
          return (d :: s, left)
        | none => fail .escape (c :: rest)
    else if c.toNat < 0x20 then fail .controlCharacter (c :: rest)
    else do
      let (s, left) ← readString opening steps rest
      return (c :: s, left)

/-- The digits at the start of a text, and the rest. -/
def spanDigits (text : Text) : Text × Text :=
  (text.takeWhile CodePoint.isDigit, text.dropWhile CodePoint.isDigit)

/-- The values of ASCII digits. -/
def digitValues (digits : Text) : List Nat := digits.map fun c => c.toNat - 0x30

/-- A fraction at the start of a text: a point is one only with a digit behind it. -/
def spanFraction : Text → Option Text × Text
  | '.' :: d :: rest =>
    if d.isDigit then
      let (digits, rest) := spanDigits (d :: rest)
      (some digits, rest)
    else (none, '.' :: d :: rest)
  | text => (none, text)

/-- An exponent at the start of a text: the letter is one only with digits behind it. -/
def spanExponent (text : Text) : Option (Bool × Text) × Text :=
  match text with
  | e :: rest =>
    if e = 'e' || e = 'E' then
      let (negative, body) : Bool × Text :=
        match rest with
        | '-' :: body => (true, body)
        | '+' :: body => (false, body)
        | body => (false, body)
      match spanDigits body with
      | ([], _) => (none, text)
      | (digits, rest) => (some (negative, digits), rest)
    else (none, text)
  | [] => (none, [])

/-- The digits before the point: a single zero, or digits that start with another one. -/
def spanWhole : Text → Option (Text × Text)
  | '0' :: rest => some (['0'], rest)
  | d :: rest => if d.isDigit then some (spanDigits (d :: rest)) else none
  | [] => none

/-- The number with these parts: an integer unless there is a fraction or an exponent. -/
def numberOf (negative : Bool) (whole : Text) (fraction : Option Text)
    (exponent : Option (Bool × Text)) : Except Stop Value :=
  match fraction, exponent with
  | none, none =>
    match Decimal.readSigned negative (digitValues whole) with
    | .ok n => .ok (.int n)
    | .error _ => .error .tooManyDigits
  | _, _ =>
    let fraction := fraction.getD []
    let scale : Int :=
      match exponent with
      | none => 0
      | some (negative, digits) =>
        let n : Int := Decimal.readDigits (digitValues digits)
        if negative then -n else n
    let digits := Decimal.readDigits (digitValues (whole ++ fraction))
    .ok (.float (.ofDecimal negative digits (scale - fraction.length)))

/-- A number at the start of a text. -/
def readNumber (text : Text) : Except Stop (Value × Text) :=
  let (negative, body) : Bool × Text :=
    match text with
    | '-' :: body => (true, body)
    | body => (false, body)
  match spanWhole body with
  | none => fail .expectingValue text
  | some (whole, rest) =>
    let (fraction, rest) := spanFraction rest
    let (exponent, rest) := spanExponent rest
    (numberOf negative whole fraction exponent).map (·, rest)

/-- The words that are values. -/
def words : List (Text × Value) :=
  [("null", .null), ("true", .bool true), ("false", .bool false), ("NaN", .float .nan),
    ("Infinity", .float (.infinite false)), ("-Infinity", .float (.infinite true))]

/-- A word or a number at the start of a text. -/
def readAtom (text : Text) : Except Stop (Value × Text) :=
  match words.findSome? fun (word, value) => (Text.after? word text).map (value, ·) with
  | some found => .ok found
  | none => readNumber text

mutual

/-- A value at the start of a text. -/
def readValue : (steps : Nat) → Text → Except Stop (Value × Text)
  | 0, text => fail .expectingValue text
  | steps + 1, text =>
    match text with
    | '\x22' :: rest => do
      let (s, rest) ← readString text.length rest.length rest
      return (.text s, rest)
    | '\x7b' :: rest =>
      match skipSpace rest with
      | '\x7d' :: rest => .ok (.map [], rest)
      | rest => do
        let (entries, rest) ← readEntries steps rest
        return (.map (Entries.ofList entries), rest)
    | '[' :: rest =>
      match skipSpace rest with
      | ']' :: rest => .ok (.list [], rest)
      | rest => do
        let (items, rest) ← readItems steps rest
        return (.list items, rest)
    | text => readAtom text

/-- The items of an array, at least one, and its closing bracket. -/
def readItems : (steps : Nat) → Text → Except Stop (List Value × Text)
  | 0, text => fail .expectingValue text
  | steps + 1, text => do
    let (item, rest) ← readValue steps text
    match skipSpace rest with
    | ']' :: rest => return ([item], rest)
    | ',' :: rest =>
      let (items, rest) ← readItems steps (skipSpace rest)
      return (item :: items, rest)
    | rest => fail .expectingComma rest

/-- The entries of an object, at least one, and its closing brace. -/
def readEntries : (steps : Nat) → Text → Except Stop (List (Key × Value) × Text)
  | 0, text => fail .expectingName text
  | steps + 1, text =>
    match text with
    | '\x22' :: rest => do
      let (name, rest) ← readString text.length rest.length rest
      match skipSpace rest with
      | ':' :: rest =>
        let (value, rest) ← readValue steps (skipSpace rest)
        match skipSpace rest with
        | '\x7d' :: rest => return ([(.text name, value)], rest)
        | ',' :: rest =>
          let (entries, rest) ← readEntries steps (skipSpace rest)
          return ((.text name, value) :: entries, rest)
        | rest => fail .expectingComma rest
      | rest => fail .expectingColon rest
    | rest => fail .expectingName rest

end

/-- The value that a whole text is. -/
def readWhole (text : Text) : Except Stop Value := do
  match text with
  | '\ufeff' :: _ => fail .byteOrderMark text
  | _ =>
    let (value, rest) ← readValue (2 * text.length + 1) (skipSpace text)
    match skipSpace rest with
    | [] => return value
    | rest => fail .extraData rest

/-- Reads a JSON text. -/
def read (text : Text) : Except Failure Value :=
  match readWhole text with
  | .ok value => .ok value
  | .error .tooManyDigits => .error .tooManyDigits
  | .error (.problem p left) => .error (.malformed (.at p text (text.length - left)))

end FluentQuery.Json
