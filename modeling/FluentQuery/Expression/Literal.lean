/-
  String literals in expression text: which quote opens and closes them, which quotes are taken out by
  a backslash, where a literal is still open at the end of a text, and the removal of quotes.
-/
import FluentQuery.Text.Basic

namespace FluentQuery

open Text (singleQuote doubleQuote backtick backslash)

/-- The quotes of plain string literals. -/
def stringQuotes : List CodePoint := [singleQuote, doubleQuote]

/-- The quotes of all literals, template literals included. -/
def literalQuotes : List CodePoint := [singleQuote, doubleQuote, backtick]

/-- A literal that is not closed: its quote and the position where it was opened. -/
structure OpenLiteral where
  quote : CodePoint
  start : Nat
  deriving DecidableEq, Repr

/-- What a scan for literals remembers: the open literal, and whether an odd run of backslashes stands
right before the next character. -/
structure LiteralState where
  opened : Option OpenLiteral
  escaped : Bool
  deriving DecidableEq, Repr

namespace LiteralState

/-- Before any text. -/
def initial : LiteralState := ⟨none, false⟩

/-- What an unescaped quote at a position does: it opens a literal, or closes one of its kind. -/
def toggle (opened : Option OpenLiteral) (quote : CodePoint) (position : Nat) :
    Option OpenLiteral :=
  match opened with
  | none => some ⟨quote, position⟩
  | some literal => if literal.quote = quote then none else some literal

/-- The state behind a character at a position. -/
def step (quotes : List CodePoint) (position : Nat) (state : LiteralState) (c : CodePoint) :
    LiteralState where
  opened :=
    if c ∈ quotes && !state.escaped then toggle state.opened c position else state.opened
  escaped := c = backslash && !state.escaped

/-- The state behind a text that starts at a position. -/
def run (quotes : List CodePoint) (position : Nat) (state : LiteralState) : Text → LiteralState
  | [] => state
  | c :: rest => run quotes (position + 1) (state.step quotes position c) rest

theorem run_append (quotes : List CodePoint) (position : Nat) (state : LiteralState) (a b : Text) :
    run quotes position state (a ++ b) =
      run quotes (position + a.length) (run quotes position state a) b := by
  induction a generalizing position state with
  | nil => rfl
  | cons c a ih => simp [run, ih, Nat.add_assoc, Nat.add_comm 1]

end LiteralState

/-- The literal that is open at the end of a text. -/
def openLiteral (quotes : List CodePoint) (text : Text) : Option OpenLiteral :=
  (LiteralState.run quotes 0 .initial text).opened

/-- Whether the character at a position follows an odd run of backslashes. -/
def escapedAt (text : Text) (position : Nat) : Bool :=
  ((text.take position).reverse.takeWhile (· = backslash)).length % 2 = 1

/-- Whether a position follows an odd run of backslashes; there is no answer beyond the end. -/
def escapedAt? (text : Text) (position : Int) : Option Bool :=
  if position ≤ text.length then some (escapedAt text position.toNat) else none

/-- The open literal at the end of a text, found by looking back for backslashes at every quote from a
position on. -/
def openLiteralLookingBack (quotes : List CodePoint) (text : Text) (position : Nat)
    (opened : Option OpenLiteral) : Text → Option OpenLiteral
  | [] => opened
  | c :: rest =>
    openLiteralLookingBack quotes text (position + 1)
      (if c ∈ quotes && !escapedAt text position then LiteralState.toggle opened c position
        else opened)
      rest

/-- The inside of a quoted text: nothing unless the first character is a quote and the last one is the
same. -/
def literalContent? (quotes : List CodePoint) (token : Text) : Option Text :=
  match token with
  | [] => none
  | quote :: rest =>
    if quote ∈ quotes && rest.getLast? = some quote then some rest.dropLast else none

/-- The text without a pair of quotes around it, or without a lone quote at its start, or without a
lone quote at its end. -/
def withoutQuotes (quotes : List CodePoint) (token : Text) : Text :=
  match literalContent? quotes token with
  | some inner => inner
  | none =>
    match token with
    | [] => []
    | c :: rest =>
      if c ∈ quotes then rest
      else if ((c :: rest).getLast?.any (· ∈ quotes)) then (c :: rest).dropLast
      else c :: rest

/-- The position of the first unescaped quote in the text, which follows an odd run of backslashes iff
`escaped`. -/
def firstUnescaped (quote : CodePoint) (escaped : Bool) : Text → Option Nat
  | [] => none
  | c :: rest =>
    if c = quote && !escaped then some 0
    else (firstUnescaped quote (c = backslash && !escaped) rest).map (· + 1)

/-- The position of the last unescaped quote in the text. -/
def lastUnescaped (quote : CodePoint) (escaped : Bool) : Text → Option Nat
  | [] => none
  | c :: rest =>
    match lastUnescaped quote (c = backslash && !escaped) rest with
    | some position => some (position + 1)
    | none => if c = quote && !escaped then some 0 else none

end FluentQuery
