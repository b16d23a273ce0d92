/-
  A line that ends in a call being typed. The call opens no literal itself, so the first quote behind its
  parenthesis does (`openLiteral_callText`), whatever stands before the call, as long as no literal is
  open there. Where the call is on one line, only the end of the text before it is read
  (`lineBefore_append`).
-/
import FluentQuery.Completion.Cursor
import FluentQuery.Proofs.Chain.Places
import FluentQuery.Proofs.Completion.TriggerPlace
import FluentQuery.Proofs.Expression.Unescaped

namespace FluentQuery

section

variable (name line : Text)

/-- The opening of a call opens no literal. -/
theorem openLiteral_callText (hname : ∀ c ∈ name, Text.isIdentChar c = true) :
    openLiteral stringQuotes (line ++ callText name []) = openLiteral stringQuotes line := by
  have hquotes : ∀ quote ∈ stringQuotes,
      quote ≠ '.' ∧ quote ≠ '(' ∧ Text.isIdentChar quote = false := by
    decide
  have hunquoted : ∀ c ∈ callText name [], c ∉ stringQuotes := by
    intro c hc hquote
    obtain ⟨hpoint, hparen, hident⟩ := hquotes c hquote
    simp only [callText, List.mem_cons, List.mem_append, List.not_mem_nil, or_false] at hc
    rcases hc with heq | hmem | heq
    · exact hpoint heq
    · rw [hname c hmem] at hident
      cases hident
    · exact hparen heq
  exact openLiteral_append_of_not_mem hunquoted

/-- No backslash ends the opening of a call. -/
theorem escapedBehind_callText : escapedBehind false (line ++ callText name []) = false := by
  unfold callText
  rw [← List.cons_append, ← List.append_assoc, escapedBehind_append_cons false _ (by decide)]
  rfl

end

namespace Cursor

/-- Of the text before the last part of a line only its last line is read. -/
theorem lineBefore_append {text : Text} (hbreak : CodePoint.char '\n' ∉ text) (earlier later : Text) :
    lineBefore (earlier ++ text ++ later) (earlier ++ text).length =
      Text.trimEnd (Text.lastLine earlier ++ text) := by
  unfold lineBefore Text.lastLine
  rw [before_append, Text.behindLast_append_of_not_mem hbreak]

end Cursor

end FluentQuery
