/-
  The list of choices under an input field: a label and an icon for every completion on offer. Labels
  are the keys under which equal completions are one, so a label names its completion.
-/
import FluentQuery.Completion.Engine

namespace FluentQuery

/-- A line of the list. -/
structure Choice where
  icon : Text
  label : Text
  deriving DecidableEq, Repr

namespace Dropdown

/-- The icon of a declared category. -/
def icon : Option CompletionKind → Text
  | some .method => "ƒ"
  | some .collection => "▤"
  | some .field => "•"
  | some .operator => "≟"
  | some .direction => "⇅"
  | some .keyword => "#"
  | some .snippet => "✎"
  | some .value => [Text.doubleQuote]
  | some .property => "◆"
  | none => "·"

/-- The label of a completion. -/
def label (c : Completion) : Text := c.key

/-- The line of a completion. -/
def choice (c : Completion) : Choice := ⟨icon c.kind, label c⟩

/-- Whether there may be anything to offer at a cursor. -/
def mayOffer (engine : Engine) (text : Text) (cursor : Int) : Bool :=
  let situation := engine.situationAt text cursor
  !(Text.trim situation.trigger).isEmpty || situation.call.isSome || situation.inString ||
    situation.afterDot || situation.lineIsBlank

/-- The lines for a cursor. -/
def choices (engine : Engine) (text : Text) (cursor : Int) : List Choice :=
  (engine.complete text cursor).items.map choice

/-- Accepts the completion with a label; without one nothing changes. -/
def pick (engine : Engine) (picked : Text) (text : Text) (cursor : Int) : Edited :=
  let offer := engine.complete text cursor
  match offer.items.find? fun c => label c = picked with
  | some c => Edit.apply text cursor c offer.trigger
  | none => ⟨text, cursor⟩

end Dropdown

end FluentQuery
