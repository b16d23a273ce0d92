/-
  The causes for which a conversion of values, numbers or times can be refused.
-/

namespace FluentQuery

/-- Why a value could not be read, written or converted. -/
inductive Fault where
  /-- A text that should be a number is none, or a number that should be an integer is not a number. -/
  | malformedNumber
  /-- An integer has more than 4300 decimal digits, on the way in or on the way out. -/
  | tooManyDigits
  /-- A number lies outside the range of its target type. -/
  | numberOutOfRange
  /-- An instant lies outside the years 1 to 9999. -/
  | yearOutOfRange
  /-- A map or a text was needed to look into, and the value is neither. -/
  | noMembers
  /-- The value is of a kind that the operation does not take. -/
  | wrongKind
  deriving DecidableEq, Repr

end FluentQuery
