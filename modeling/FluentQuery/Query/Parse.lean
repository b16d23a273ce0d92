/-
  Query parameters out of an expression. Each clause is looked for on its own anywhere in the text;
  what is missing or not of the expected form falls back to defaults.
-/
import FluentQuery.Expression.Call
import FluentQuery.Expression.Operand
import FluentQuery.Query.Basic
import FluentQuery.Text.Case

namespace FluentQuery.Query

/-- The collection of a call `.collection("…")` at the start of a text. -/
def collectionCall? (text : Text) : Option Text := do
  let (name, rest) ← Call.literal? (← Call.open? "collection" text)
  let _ ← Call.skipTo? ')' rest
  return name

/-- The digits of a call `.limit(n)` at the start of a text. -/
def limitCall? (text : Text) : Option Text := do
  let arguments := Text.trimStart (← Call.open? "limit" text)
  let digits := arguments.takeWhile Text.isDecimal
  let _ ← Call.skipTo? ')' (arguments.dropWhile Text.isDecimal)
  if digits = [] then none else return digits

/-- Whether a character is the given lower-case ASCII letter in any case; the long s is an s. -/
def isLetter (letter c : CodePoint) : Bool := c.toLower = letter || (letter = 's' && c = 'ſ')

/-- A word at the start of a text, written in any case: the characters that it is written with and
the text behind it. -/
def word? : (word text : Text) → Option (Text × Text)
  | [], text => some ([], text)
  | _ :: _, [] => none
  | letter :: word, c :: text =>
    if isLetter letter c then (word? word text).map fun (found, rest) => (c :: found, rest) else none

/-- The text without a quote at its start. -/
def skipQuote : Text → Text
  | c :: rest => if c ∈ literalQuotes then rest else c :: rest
  | [] => []

/-- A direction at the start of a text, as it is written, and the text behind it. -/
def direction? (text : Text) : Option (Text × Text) :=
  (word? "asc" text).or (word? "desc" text)

/-- The optional second argument of an ordering and the text behind it. -/
def directionArgument (text : Text) : Option Text × Text :=
  let found := do
    let (direction, rest) ← direction? (skipQuote (Text.trimStart (← Call.skipTo? ',' text)))
    return (direction, skipQuote rest)
  match found with
  | some (direction, rest) => (some direction, rest)
  | none => (none, text)

/-- The ordering of a call `.orderBy("…", "…")` at the start of a text, with the name of the call in
any case. -/
def orderingCall? (text : Text) : Option OrderBy := do
  let (_, rest) ← word? ".orderby" text
  let (field, rest) ← Call.literal? (← Call.skipTo? '(' rest)
  let (direction, rest) := directionArgument rest
  let _ ← Call.skipTo? ')' rest
  return ⟨field, Text.lower (direction.getD "asc")⟩

/-- The limit of an expression; only a positive one counts. -/
def parseLimit (text : Text) (fallback : Int) : Except Fault Int :=
  match firstPlace? limitCall? text with
  | none => .ok fallback
  | some digits =>
    match Decimal.digitValues? digits with
    | none => .error .malformedNumber
    | some values => do
      let limit ← Decimal.readBounded values
      return if limit = 0 then fallback else limit

/-- A text with something in it. -/
def nonempty? : Text → Option Text
  | [] => none
  | text => some text

/-- The arguments of a call in a text, of which `rest` stands behind the opening parenthesis. They are
scanned where they stand. -/
def argumentsIn (text rest : Text) : CallArguments :=
  argumentsFrom literalQuotes text (text.length - rest.length)

/-- The fields of a selection: the non-empty literals among its arguments. -/
def fieldsOf (scan : CallArguments) : List Text :=
  scan.arguments.filterMap fun a => (literalContent? literalQuotes a).bind nonempty?

/-- The fields of the first selection. -/
def parseSelect (text : Text) : List Text :=
  match Call.firstSite? "select" text with
  | none => []
  | some rest => fieldsOf (argumentsIn text rest)

/-- The condition of a call with these arguments: a closed call with a field, an operator and a value. -/
def conditionFrom? (scan : CallArguments) : Option (Except Fault Condition) :=
  match scan.isClosed, scan.arguments with
  | true, field :: operator :: value :: _ => do
    let field ← (literalContent? literalQuotes field).bind nonempty?
    let operator ← (literalContent? literalQuotes operator).bind nonempty?
    let value ← nonempty? value
    return do return ⟨field, operator, ← Operand.parse value⟩
  | _, _ => none

/-- All conditions in the order of their calls. -/
def parseConditions (text : Text) : Except Fault (List Condition) :=
  ((Call.sites "where" text).filterMap fun rest => conditionFrom? (argumentsIn text rest)).mapM id

/-- The ordering of an expression. -/
def parseOrdering (text : Text) : Option OrderBy := firstPlace? orderingCall? text

/-- A limit that can be written down. -/
def writable (limit : Int) : Except Fault Int := do
  let _ ← Decimal.write limit
  return limit

/-- The limit to use where a text has none; only a positive one counts. -/
def usableLimit (limit : Int) : Except Fault Int :=
  if 1 ≤ limit then .ok limit
  else do
    let _ ← writable limit
    return defaultLimit

/-- The parameters of an expression. -/
def parse (text collection : Text) (limit : Int) : Except Fault QueryParameters := do
  let fallback ← usableLimit limit
  let limit ← parseLimit text fallback
  let conditions ← parseConditions text
  let limit ← writable limit
  return {
    collection := (firstPlace? collectionCall? text).getD collection
    limit := .int limit
    select := parseSelect text
    conditions
    ordering := parseOrdering text }

end FluentQuery.Query
