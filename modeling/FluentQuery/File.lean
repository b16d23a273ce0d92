/-
  Files as the library sees them: what stands at a path, and the text of a file with its line breaks
  unified.
-/
import FluentQuery.Text.Basic

namespace FluentQuery

/-- What stands at a path. -/
inductive Found where
  | nothing
  | folder
  | file (text : Text)
  deriving DecidableEq, Repr

/-- The text with every line break written as a line feed. -/
def Text.unifyLineBreaks : Text → Text
  | '\r' :: '\n' :: rest => '\n' :: unifyLineBreaks rest
  | '\r' :: rest => '\n' :: unifyLineBreaks rest
  | c :: rest => c :: unifyLineBreaks rest
  | [] => []

end FluentQuery
