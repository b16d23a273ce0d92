/-
  Calls in a chain: a point, a name, and an opening parenthesis with blanks allowed before it. A call
  starts with the point, so no two calls overlap, and all calls of a name are found by looking at
  every place of the text.
-/
import FluentQuery.Expression.Literal
import FluentQuery.Text.Blank

namespace FluentQuery

/-- What the first place of a text where `find` succeeds yields. -/
def firstPlace? {α : Type} (find : Text → Option α) : Text → Option α
  | [] => find []
  | c :: rest =>
    match find (c :: rest) with
    | some found => some found
    | none => firstPlace? find rest

/-- What all places of a text where `find` succeeds yield, in order. -/
def allPlaces {α : Type} (find : Text → Option α) : Text → List α
  | [] => (find []).toList
  | c :: rest => (find (c :: rest)).toList ++ allPlaces find rest

namespace Call

/-- The text behind blanks and one given character. -/
def skipTo? (expected : CodePoint) (text : Text) : Option Text :=
  match Text.trimStart text with
  | c :: rest => if c = expected then some rest else none
  | [] => none

/-- The text behind the opening parenthesis of a call of `name` at the start of a text. -/
def open? (name text : Text) : Option Text := do
  skipTo? '(' (← Text.after? ('.' :: name) text)

/-- The texts behind the opening parentheses of all calls of `name`. -/
def sites (name text : Text) : List Text := allPlaces (open? name) text

/-- The text behind the opening parenthesis of the first call of `name`. -/
def firstSite? (name text : Text) : Option Text := firstPlace? (open? name) text

/-- A literal at the start of a text, behind blanks, that holds something but no quote: the content
and the text behind the closing quote. The quotes may be of different kinds. -/
def literal? (text : Text) : Option (Text × Text) :=
  match Text.trimStart text with
  | [] => none
  | quote :: rest =>
    if quote ∈ literalQuotes then
      match rest.takeWhile (· ∉ literalQuotes), rest.dropWhile (· ∉ literalQuotes) with
      | c :: content, _ :: behind => some (c :: content, behind)
      | _, _ => none
    else none

end Call

end FluentQuery
