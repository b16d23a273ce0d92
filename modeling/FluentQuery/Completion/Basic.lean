/-
  Completions and the situation at the cursor that they are offered for.
-/
import FluentQuery.Expression.Literal

namespace FluentQuery

/-- The category of a completion. -/
inductive CompletionKind where
  | method
  | collection
  | field
  | operator
  | direction
  | keyword
  | snippet
  | value
  | property
  deriving DecidableEq, Repr

namespace CompletionKind

/-- All categories. -/
def all : List CompletionKind :=
  [method, collection, field, operator, direction, keyword, snippet, value, property]

/-- The name of a category. -/
def name : CompletionKind → Text
  | method => "method"
  | collection => "collection"
  | field => "field"
  | operator => "operator"
  | direction => "direction"
  | keyword => "keyword"
  | snippet => "snippet"
  | value => "value"
  | property => "property"

/-- The category of a name. -/
def ofName? (name : Text) : Option CompletionKind := all.find? fun kind => kind.name = name

end CompletionKind

/-- Something that can be completed. -/
structure Completion where
  /-- What the user types. -/
  trigger : Text
  /-- What is appended to the trigger. -/
  suggestion : Text := []
  /-- Where the cursor goes from the end of the inserted text. -/
  cursorOffset : Int := 0
  description : Text := []
  /-- The full form, under which equal completions are one. -/
  fullForm : Option Text := none
  kind : Option CompletionKind := none
  priority : Int := 0
  keywords : List Text := []
  /-- What is inserted in place of trigger and suggestion. -/
  replacement : Option Text := none
  deriving DecidableEq, Repr

namespace Completion

/-- The text that is inserted. -/
def insertedText (c : Completion) : Text := c.replacement.getD (c.trigger ++ c.suggestion)

/-- The text under which equal completions are one: the full form, or the trigger. -/
def key (c : Completion) : Text :=
  match c.fullForm with
  | none => c.trigger
  | some [] => c.trigger
  | some full => full

/-- Whether a text starts with the quote of a plain string literal. -/
def startsQuoted (text : Text) : Bool :=
  match text with
  | [] => false
  | c :: _ => c ∈ stringQuotes

/-- Whether the trigger starts with a quote. -/
def startsWithQuote (c : Completion) : Bool := startsQuoted c.trigger

end Completion

/-- The call around the cursor and the argument that the cursor is in, counting from zero. -/
structure OpenCall where
  name : Text
  argument : Int
  deriving DecidableEq, Repr

/-- The situation at a cursor. -/
structure Situation where
  lineIsBlank : Bool
  /-- The unfinished token before the cursor. -/
  trigger : Text
  inString : Bool
  afterDot : Bool
  /-- The cursor is behind the database root and a point. -/
  atRoot : Bool
  call : Option OpenCall
  deriving DecidableEq, Repr

/-- Whoever knows the live names supplies completions for a situation. -/
abbrev Supplier := Situation → List Completion

end FluentQuery
