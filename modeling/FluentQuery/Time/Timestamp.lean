/-
  Points in time with nanoseconds, and their text of the form `2024-01-15T10:30:00.5Z`: the writer
  always uses UTC, the reader takes any zone offset.
-/
import FluentQuery.Numeric.Decimal
import FluentQuery.Text.Blank
import FluentQuery.Time.Calendar

namespace FluentQuery

/-- A point in time: seconds since the beginning of 1970 and nanoseconds on top. -/
structure Timestamp where
  seconds : Int
  nanoseconds : Int := 0
  deriving DecidableEq, Repr

namespace Timestamp

/-- A number with zeros in front up to a width; a minus sign counts towards the width. -/
def padded (width : Nat) (n : Int) : Text :=
  if n < 0 then '-' :: Text.padLeft (width - 1) '0' (Decimal.ofNat n.natAbs)
  else Text.padLeft width '0' (Decimal.ofNat n.natAbs)

/-- The fraction of a second: nothing for no nanoseconds. -/
def fractionText (nanoseconds : Int) : Text :=
  if nanoseconds = 0 then [] else '.' :: Text.dropTrailing '0' (padded 9 nanoseconds)

/-- The date and time of day as text; the year is written without leading zeros. -/
def civilText (t : CivilTime) : Text :=
  Decimal.ofNat t.year ++ "-" ++ padded 2 t.month ++ "-" ++ padded 2 t.day ++ "T" ++
    padded 2 t.hour ++ ":" ++ padded 2 t.minute ++ ":" ++ padded 2 t.second

/-- The timestamp as text in UTC, refused outside the years 1 to 9999. -/
def format (t : Timestamp) : Except Fault Text :=
  match CivilTime.ofSeconds? t.seconds with
  | none => .error .yearOutOfRange
  | some civil =>
    if (Decimal.ofNat t.nanoseconds.natAbs).length ≤ Decimal.maxDigits then
      .ok (civilText civil ++ fractionText t.nanoseconds ++ "Z")
    else .error .tooManyDigits

/-- The digits of a field of fixed width at the start of a text, and the rest. -/
def field? (width : Nat) (text : Text) : Option (Nat × Text) := do
  let digits ← Decimal.digitValues? (text.take width)
  if digits.length = width then return (Decimal.readDigits digits, text.drop width) else none

/-- The rest of a text behind one of the given characters. -/
def skipOne? (allowed : Text) : Text → Option Text
  | c :: rest => if c ∈ allowed then some rest else none
  | [] => none

/-- Date and time of day at the start of a text, and the rest. -/
def readCivil? (text : Text) : Option (CivilTime × Text) := do
  let (year, text) ← field? 4 text
  let text ← skipOne? ['-'] text
  let (month, text) ← field? 2 text
  let text ← skipOne? ['-'] text
  let (day, text) ← field? 2 text
  let text ← skipOne? ['T', 't', ' '] text
  let (hour, text) ← field? 2 text
  let text ← skipOne? [':'] text
  let (minute, text) ← field? 2 text
  let text ← skipOne? [':'] text
  let (second, text) ← field? 2 text
  return (⟨year, month, day, hour, minute, second⟩, text)

/-- The nanoseconds of an optional fraction of one to nine digits, and the rest. -/
def readFraction? : Text → Option (Nat × Text)
  | '.' :: rest => do
    let run := rest.takeWhile Text.isDecimal
    let digits ← Decimal.digitValues? run
    if 1 ≤ digits.length && digits.length ≤ 9 then
      return (Decimal.readDigits (digits ++ List.replicate (9 - digits.length) 0),
        rest.dropWhile Text.isDecimal)
    else none
  | text => some (0, text)

/-- The seconds by which an optional zone at the end of a text is ahead of UTC. -/
def readZone? : Text → Option Int
  | [] => some 0
  | ['Z'] => some 0
  | ['z'] => some 0
  | sign :: rest => do
    let (hours, rest) ← field? 2 rest
    let rest := match rest with
      | ':' :: rest => rest
      | rest => rest
    let (minutes, rest) ← field? 2 rest
    let offset : Int := hours * 3600 + minutes * 60
    if rest ≠ [] then none
    else if sign = '+' then return offset
    else if sign = '-' then return -offset
    else none

/-- The timestamp that a text stands for, if it is written as one and its date exists. -/
def parse? (text : Text) : Option Timestamp := do
  let (civil, rest) ← readCivil? (Text.trim text)
  let (nanoseconds, rest) ← readFraction? rest
  let offset ← readZone? rest
  if civil.isValid then return ⟨civil.toSeconds - offset, nanoseconds⟩ else none

end Timestamp

end FluentQuery
