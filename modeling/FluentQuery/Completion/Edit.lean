/-
  Accepting a completion: the text and the cursor afterwards. A trigger with a quote at its start
  replaces the content of the literal around the cursor; any other trigger is cut out before the
  cursor and the text of the completion put in its place.
-/
import FluentQuery.Completion.Cursor

namespace FluentQuery

/-- A text with a cursor in it. -/
structure Edited where
  text : Text
  cursor : Int
  deriving DecidableEq, Repr

namespace Edit

/-- The quote that a trigger starts with. -/
def quoteOf? (trigger : Text) : Option CodePoint :=
  match trigger with
  | [] => none
  | c :: _ => if c ∈ stringQuotes then some c else none

/-- Replaces the content of the literal around the cursor: from behind the last quote before the cursor
up to the first one at or after it, escaped quotes aside. -/
def insideQuotes? (text : Text) (cursor : Int) (quote : CodePoint) (inserted : Text) :
    Option Edited := do
  if cursor < 0 then none
  else
    let cursor := cursor.toNat
    let start ← lastUnescaped quote false (text.take cursor)
    let closing ← firstUnescaped quote (escapedAt text cursor) (text.drop cursor)
    let content := withoutQuotes stringQuotes inserted
    return ⟨text.take (start + 1) ++ content ++ text.drop (cursor + closing),
      (start + 1 + content.length : Nat)⟩

/-- Cuts the trigger out before the cursor and puts a text in its place; the cursor goes behind that
text and then by the offset, but not out of the text. Nothing changes if the trigger does not fit
before the cursor or the cursor is out of the text. -/
def splice (text : Text) (cursor : Int) (inserted : Text) (offset : Int) (trigger : Text) : Edited :=
  if cursor < trigger.length ∨ text.length < cursor then ⟨text, cursor⟩
  else
    let start := cursor.toNat - trigger.length
    let result := text.take start ++ inserted ++ text.drop cursor.toNat
    ⟨result, max 0 (min ((start : Int) + inserted.length + offset) result.length)⟩

/-- Accepts a completion that was offered for a trigger. -/
def apply (text : Text) (cursor : Int) (c : Completion) (trigger : Text) : Edited :=
  let inserted := c.insertedText
  match (quoteOf? trigger).bind (insideQuotes? text cursor · inserted) with
  | some edited => edited
  | none => splice text cursor inserted c.cursorOffset trigger

/-- Accepts a completion for whatever is typed before the cursor. -/
def applyHere (text : Text) (cursor : Int) (c : Completion) : Edited :=
  apply text cursor c (Cursor.trigger text cursor)

end Edit

end FluentQuery
