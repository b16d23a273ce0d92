/-
  An input field with a completion engine on it: typing, moving and deleting, and accepting what the
  last completion offered.
-/
import FluentQuery.Completion.Dropdown

namespace FluentQuery

/-- An input field. The cursor may point outside the text. -/
structure Editor where
  text : Text
  cursor : Int
  /-- The completions that were last asked for. -/
  offer : Option Offer := none

namespace Editor

/-- A field with a text and the cursor at its end. -/
def ofText (text : Text) : Editor := { text, cursor := text.length }

/-- Inserts a text at the cursor, which goes behind it. -/
def type (editor : Editor) (inserted : Text) : Editor :=
  let position := editor.text.clampCursor editor.cursor
  { editor with
    text := editor.text.take position ++ inserted ++ editor.text.drop position
    cursor := (position + inserted.length : Nat) }

/-- Moves the cursor, even out of the text. -/
def move (editor : Editor) (cursor : Int) : Editor := { editor with cursor }

/-- Replaces the text; the cursor goes to its end. -/
def set (editor : Editor) (text : Text) : Editor := { editor with text, cursor := text.length }

/-- Deletes up to `count` characters before the cursor. -/
def backspace (editor : Editor) (count : Nat) : Editor :=
  let position := editor.text.clampCursor editor.cursor
  let start := position - count
  { editor with
    text := editor.text.take start ++ editor.text.drop position
    cursor := start }

/-- Takes over an edit. -/
def take (editor : Editor) (edited : Edited) : Editor :=
  { editor with text := edited.text, cursor := edited.cursor }

/-- The completions at the cursor, which are remembered. -/
def complete (editor : Editor) (engine : Engine) : Offer × Editor :=
  let offer := engine.complete editor.text editor.cursor
  (offer, { editor with offer := some offer })

/-- Accepts an item of the last offer with the trigger it was offered for, if there is such an item. -/
def accept? (editor : Editor) (index : Nat) : Option Editor := do
  let offer ← editor.offer
  let item ← offer.items[index]?
  return editor.take (Edit.apply editor.text editor.cursor item offer.trigger)

/-- Accepts a completion for whatever is typed before the cursor. -/
def apply (editor : Editor) (c : Completion) : Editor :=
  editor.take (Edit.applyHere editor.text editor.cursor c)

/-- Accepts the choice with a label. -/
def pick (editor : Editor) (engine : Engine) (label : Text) : Editor :=
  editor.take (Dropdown.pick engine label editor.text editor.cursor)

end Editor

end FluentQuery
