/-
  Integers as they are typed: between blanks, with a sign, with leading zeros, with single underscores
  between digits, and with a fraction of zeros. The sign and what may be left out are taken off, and
  the digits that remain are read.
-/
import FluentQuery.Numeric.Numeral

namespace FluentQuery.Typed

/-- Why a typed text is no integer. -/
inductive Refusal where
  | notAnInteger
  /-- There are more digits than an integer may have. -/
  | tooLong
  deriving DecidableEq, Repr

/-- Whether the character may be the first one behind leading zeros. -/
def startsNumber (c : CodePoint) : Bool := c.isDigit || c = '-'

/-- The rest of a numeral behind the zeros and underscores at its start; the last zero stays where no
digit follows. The numeral starts with a digit or a minus sign, and a minus sign may follow its
zeros. -/
def skipZeros? (text : Text) : Option Text :=
  match text with
  | '0' :: rest =>
    match rest.dropWhile fun c : CodePoint => c = '0' || c = '_' with
    | [] => some (text.drop (text.length - 1))
    | '.' :: more => some (text.drop (text.length - (more.length + 2)))
    | c :: more => if startsNumber c then some (c :: more) else none
  | c :: _ => if startsNumber c then some text else none
  | [] => none

/-- The text without a point that zeros follow, one at least, and nothing else. -/
def dropZeroFraction (text : Text) : Text :=
  match Text.since '.' text with
  | _ :: zero :: zeros => if (zero :: zeros).all (· = '0') then Text.upTo '.' text else text
  | _ => text

/-- The text without its underscores, if each stands alone between two other characters. -/
def ungrouped? : (behindOther : Bool) → Text → Option Text
  | behindOther, [] => if behindOther then some [] else none
  | behindOther, c :: rest =>
    if c = '_' then if behindOther then ungrouped? false rest else none
    else (ungrouped? true rest).map (c :: ·)

/-- A numeral without what may be left out of it: leading zeros, a fraction of zeros and underscores. -/
def bare? (text : Text) : Option Text := do
  let text := dropZeroFraction (← skipZeros? text)
  return (ungrouped? false text).getD text

/-- Reads ASCII digits, at most as many as an integer may have; a zero in front of further digits is
refused. Too many digits in a row are told from what follows them. -/
def readDigits (negative : Bool) (digits : Text) : Except Refusal Int :=
  if digits.head? = some '0' && 1 < digits.length then .error .notAnInteger
  else if Decimal.maxDigits < (digits.takeWhile CodePoint.isDigit).length then .error .tooLong
  else if digits.all CodePoint.isDigit then
    match Decimal.digitValues? digits with
    | none | some [] => .error .notAnInteger
    | some values => (Decimal.readSigned negative values).mapError fun _ => .tooLong
  else .error .notAnInteger

/-- Reads a numeral that has no sign in front of it. The minus sign that may stand behind its zeros is
its sign then, and no further zeros may follow that sign. -/
def readUnsigned (text : Text) : Except Refusal Int :=
  match bare? text with
  | some ('-' :: digits) => readDigits true digits
  | some digits => readDigits false digits
  | none => .error .notAnInteger

/-- Reads what follows a minus sign: a numeral without another one. -/
def readNegated (text : Text) : Except Refusal Int :=
  match bare? text with
  | some digits => readDigits true digits
  | none => .error .notAnInteger

/-- Reads a typed integer: one sign at most stands in front of it. -/
def read (text : Text) : Except Refusal Int :=
  match Numeral.trimMargin text with
  | '-' :: body => readNegated body
  | '+' :: '-' :: _ => .error .notAnInteger
  | '+' :: body => readUnsigned body
  | body => readUnsigned body

end FluentQuery.Typed
