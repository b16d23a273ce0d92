/-
  The parameters of a query: a collection, a limit, selected fields, conditions and an ordering; and
  the comparison operators that the wire knows.
-/
import FluentQuery.Value.Basic

namespace FluentQuery

/-- The limit of a query that names none. -/
def defaultLimit : Int := 50

/-- A condition on a field. -/
structure Condition where
  field : Text
  operator : Text
  value : Value
  deriving Repr

/-- An ordering by a field. -/
structure OrderBy where
  field : Text
  direction : Text
  deriving DecidableEq, Repr

/-- The parameters of a query. -/
structure QueryParameters where
  collection : Text
  /-- The greatest number of documents. An expression always yields a positive integer here; whoever
  makes up parameters can send any value. -/
  limit : Value
  select : List Text
  conditions : List Condition
  ordering : Option OrderBy
  deriving Repr

/-- The comparisons of field filters. -/
inductive Comparison where
  | equal
  | notEqual
  | less
  | lessOrEqual
  | greater
  | greaterOrEqual
  | arrayContains
  | arrayContainsAny
  | isIn
  | notIn
  deriving DecidableEq, Repr

namespace Comparison

/-- The comparisons by their operators in expressions. -/
def operators : List (Text × Comparison) :=
  [("==", equal), ("!=", notEqual), ("<", less), ("<=", lessOrEqual), (">", greater),
    (">=", greaterOrEqual), ("array-contains", arrayContains),
    ("array-contains-any", arrayContainsAny), ("in", isIn), ("not-in", notIn)]

/-- The comparison of an operator; an unknown operator compares for equality. -/
def ofOperator (operator : Text) : Comparison := (operators.lookup operator).getD equal

/-- The name of a comparison on the wire. -/
def wireName : Comparison → Text
  | equal => "EQUAL"
  | notEqual => "NOT_EQUAL"
  | less => "LESS_THAN"
  | lessOrEqual => "LESS_THAN_OR_EQUAL"
  | greater => "GREATER_THAN"
  | greaterOrEqual => "GREATER_THAN_OR_EQUAL"
  | arrayContains => "ARRAY_CONTAINS"
  | arrayContainsAny => "ARRAY_CONTAINS_ANY"
  | isIn => "IN"
  | notIn => "NOT_IN"

end Comparison

end FluentQuery
