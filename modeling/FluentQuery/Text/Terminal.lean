/-
  Text that leaves a program for something else than a terminal: without the sequences that tell a
  terminal how to show what follows. A sequence is an escape character, an opening bracket, numbers
  with semicolons and question marks, and a letter.
-/
import FluentQuery.Text.Basic

namespace FluentQuery.Text

/-- Whether the character may stand between the bracket and the letter of a sequence. -/
def isParameter (c : CodePoint) : Bool := c.isDigit || c = ';' || c = '?'

/-- The text behind a sequence at its start. -/
def afterSequence? : Text → Option Text
  | '\x1b' :: '[' :: rest =>
    match rest.dropWhile isParameter with
    | c :: behind => if c.isAlphanum && !c.isDigit then some behind else none
    | [] => none
  | _ => none

theorem length_lt_of_afterSequence? {text rest : Text} (h : afterSequence? text = some rest) :
    rest.length < text.length := by
  unfold afterSequence? at h
  split at h
  · rename_i parameters
    split at h
    · rename_i c behind hdrop
      split at h
      · cases h
        have hle := (List.dropWhile_sublist (l := parameters) isParameter).length_le
        rw [hdrop] at hle
        simp only [List.length_cons] at hle ⊢
        omega
      · cases h
    · cases h
  · cases h

/-- The text without the sequences in it. -/
def withoutSequences (text : Text) : Text :=
  match h : afterSequence? text with
  | some rest =>
    have := length_lt_of_afterSequence? h
    withoutSequences rest
  | none =>
    match text with
    | [] => []
    | c :: rest => c :: withoutSequences rest
termination_by text.length

end FluentQuery.Text
