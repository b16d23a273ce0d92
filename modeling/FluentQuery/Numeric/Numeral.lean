/-
  Numerals: a sign, digits of any script, a fraction and an exponent. A numeral on its own may stand
  between blanks and group its digits with single underscores, and the words for infinity and NaN are
  numerals too.
-/
import FluentQuery.Numeric.Binary64
import FluentQuery.Numeric.Decimal
import FluentQuery.Text.Blank

namespace FluentQuery

/-- The parts of a decimal numeral. -/
structure Numeral where
  negative : Bool
  whole : List Nat
  /-- The digits behind the point, if there is a point. -/
  fraction : Option (List Nat)
  /-- Sign and digits of the exponent, if there is one. -/
  exponent : Option (Bool × List Nat)
  deriving DecidableEq, Repr

namespace Numeral

/-- A sign in front of the text, and the rest. -/
def splitSign : Text → Bool × Text
  | '-' :: rest => (true, rest)
  | '+' :: rest => (false, rest)
  | text => (false, text)

/-- The digits of a run in which single underscores may stand between two digits. -/
def groupedFrom : (behindDigit : Bool) → Text → Option (List Nat)
  | behindDigit, [] => if behindDigit then some [] else none
  | behindDigit, c :: rest =>
    if c = '_' then if behindDigit then groupedFrom false rest else none
    else do
      let d ← Text.digitValue? c
      let ds ← groupedFrom true rest
      return d :: ds

/-- How the digits of a run are read. -/
inductive Grouping where
  /-- Digits only. -/
  | plain
  /-- Single underscores may stand between digits. -/
  | underscores
  deriving DecidableEq

/-- The digits of a non-empty run. -/
def Grouping.digits? : Grouping → Text → Option (List Nat)
  | _, [] => none
  | .plain, run => Decimal.digitValues? run
  | .underscores, run => groupedFrom false run

/-- The digits of a run that may be empty. -/
def Grouping.someDigits? (grouping : Grouping) (run : Text) : Option (List Nat) :=
  if run = [] then some [] else grouping.digits? run

/-- Whether the character can stand in a run of digits. -/
def isRunChar (c : CodePoint) : Bool := Text.isDecimal c || c = '_'

/-- The exponent at the end of a numeral. -/
def readExponent? (grouping : Grouping) : Text → Option (Option (Bool × List Nat))
  | [] => some none
  | e :: rest =>
    if e = 'e' || e = 'E' then
      let (negative, run) := splitSign rest
      (grouping.digits? run).map fun digits => some (negative, digits)
    else none

/-- The numeral that the whole text is: digits before or behind the point, or on both sides. -/
def read? (grouping : Grouping) (text : Text) : Option Numeral := do
  let (negative, body) := splitSign text
  let whole ← grouping.someDigits? (body.takeWhile isRunChar)
  match body.dropWhile isRunChar with
  | '.' :: rest =>
    let fraction ← grouping.someDigits? (rest.takeWhile isRunChar)
    let exponent ← readExponent? grouping (rest.dropWhile isRunChar)
    if whole = [] && fraction = [] then none
    else return ⟨negative, whole, some fraction, exponent⟩
  | rest =>
    let exponent ← readExponent? grouping rest
    if whole = [] then none else return ⟨negative, whole, none, exponent⟩

/-- Neither a point nor an exponent stands in the numeral. -/
def isInteger (n : Numeral) : Bool := n.fraction.isNone && n.exponent.isNone

/-- The floating-point number nearest to the numeral. -/
def toBinary64 (n : Numeral) : Binary64 :=
  let fraction := n.fraction.getD []
  let exponent : Int :=
    match n.exponent with
    | none => 0
    | some (negative, digits) =>
      if negative then -(Decimal.readDigits digits : Int) else Decimal.readDigits digits
  .ofDecimal n.negative (Decimal.readDigits (n.whole ++ fraction)) (exponent - fraction.length)

/-- The integer that the digits before the point stand for. -/
def toInt (n : Numeral) : Except Fault Int := Decimal.readSigned n.negative n.whole

/-- A blank that may stand around a numeral: any but the four separators U+001C to U+001F. -/
def isMargin (c : CodePoint) : Bool := Text.isBlank c && !(0x1C ≤ c.toNat && c.toNat ≤ 0x1F)

/-- The text without the blanks that may stand around a numeral. -/
def trimMargin (text : Text) : Text :=
  ((text.dropWhile isMargin).reverse.dropWhile isMargin).reverse

/-- The number that a word stands for, in any case of its ASCII letters. -/
def ofWord? (negative : Bool) (word : Text) : Option Binary64 :=
  let word := word.map CodePoint.toLower
  if word = "inf" || word = "infinity" then some (.infinite negative)
  else if word = "nan" then some .nan
  else none

/-- Reads the whole text as a floating-point number. -/
def readBinary64? (text : Text) : Option Binary64 :=
  let text := trimMargin text
  let (negative, word) := splitSign text
  match ofWord? negative word with
  | some x => some x
  | none => (read? .underscores text).map toBinary64

/-- Reads the whole text as an integer. -/
def readInt (text : Text) : Except Fault Int :=
  let (negative, run) := splitSign (trimMargin text)
  match groupedFrom false run with
  | some digits => Decimal.readSigned negative digits
  | none => .error .malformedNumber

end Numeral

end FluentQuery
