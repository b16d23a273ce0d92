/-
  What can be wrong with a JSON text, and where: positions count characters from the start, lines and
  columns count from one.
-/
import FluentQuery.Numeric.Decimal

namespace FluentQuery.Json

/-- What is wrong at a place of a JSON text. -/
inductive Problem where
  | expectingValue
  | expectingName
  | expectingColon
  | expectingComma
  | extraData
  | controlCharacter
  | escape
  | unicodeEscape
  | unterminatedString
  | byteOrderMark
  deriving DecidableEq, Repr

/-- The wording of a problem. -/
def Problem.message : Problem → Text
  | expectingValue => "Expecting value"
  | expectingName => "Expecting property name enclosed in double quotes"
  | expectingColon => "Expecting ':' delimiter"
  | expectingComma => "Expecting ',' delimiter"
  | extraData => "Extra data"
  | controlCharacter => "Invalid control character at"
  | escape => "Invalid " ++ [Text.backslash] ++ "escape"
  | unicodeEscape => "Invalid " ++ [Text.backslash] ++ "uXXXX escape"
  | unterminatedString => "Unterminated string starting at"
  | byteOrderMark => "Unexpected UTF-8 BOM (decode using utf-8-sig)"

/-- A problem with its place in a text. -/
structure Located where
  problem : Problem
  position : Nat
  line : Nat
  column : Nat
  deriving DecidableEq, Repr

/-- The problem at a position of the text. -/
def Located.at (problem : Problem) (text : Text) (position : Nat) : Located :=
  let before := text.take position
  { problem, position
    line := Text.countOf '\n' before + 1
    column := (Text.lastLine before).length + 1 }

/-- The problem with line, column and position behind it. -/
def Located.message (e : Located) : Text :=
  e.problem.message ++ ": line " ++ Decimal.ofNat e.line ++ " column " ++ Decimal.ofNat e.column ++
    " (char " ++ Decimal.ofNat e.position ++ ")"

/-- Why a JSON text was not read. -/
inductive Failure where
  | malformed (e : Located)
  /-- The text may be well formed, but an integer in it has too many digits. -/
  | tooManyDigits
  deriving DecidableEq, Repr

end FluentQuery.Json
