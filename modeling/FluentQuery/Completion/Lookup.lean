/-
  Looking up completions without a situation: by the trigger that a text ends with, and by the start
  of the trigger or a part of the description.
-/
import FluentQuery.Completion.Basic
import FluentQuery.StableSort
import FluentQuery.Text.Case

namespace FluentQuery.Lookup

/-- Whether a character continues a word. -/
def isWordChar (c : CodePoint) : Bool := c.isAlphanum || c = '_'

/-- Whether the text that ends with the trigger has the trigger as a word of its own there. A trigger
with a point at its start needs no boundary. -/
def atBoundary (text trigger : Text) : Bool :=
  Text.startsWith "." trigger || !(text.reverse.drop trigger.length).head?.any isWordChar

/-- Whether the text or its last line ends with the trigger of the completion, as a word of its own. -/
def isEligible (text : Text) (c : Completion) : Bool :=
  (c.trigger.isSuffixOf text || c.trigger.isSuffixOf (Text.lastLine text)) && atBoundary text c.trigger

/-- Whether one completion has the longer trigger. -/
def isLonger (a b : Completion) : Bool := b.trigger.length < a.trigger.length

/-- The completion with the longest trigger that the text ends with; of several, the first. -/
def find? (text : Text) (completions : List Completion) : Option Completion :=
  if text = [] then none else (stableSort isLonger completions).find? (isEligible text)

/-- The completions whose trigger starts with the text or whose description contains it, in any case
of letters. -/
def matching (start : Text) (completions : List Completion) : List Completion :=
  if start = [] then []
  else
    let start := Text.lower start
    completions.filter fun c =>
      start.isPrefixOf (Text.lower c.trigger) || Text.occursIn start (Text.lower c.description)

end FluentQuery.Lookup
