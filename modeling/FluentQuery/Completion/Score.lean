/-
  Scores of completions for what has been typed: points for how well a text fits, the best ones among
  the texts of a completion. All scores are whole numbers: a description counts three fifths of its
  points, and points come in tens.
-/
import FluentQuery.Completion.Basic
import FluentQuery.Numeric.Binary64
import FluentQuery.Text.Blank
import FluentQuery.Text.Case
import FluentQuery.Value.Basic

namespace FluentQuery.Score

/-- Whether a character is dropped from the start of a text before texts are compared. -/
def isDecoration (c : CodePoint) : Bool := Text.isBlank c || c = '.' || c ∈ literalQuotes

/-- The text in lower case without points, quotes and blanks at its start. -/
def normalize (text : Text) : Text := (Text.lower text).dropWhile isDecoration

/-- Whether the characters of `needle` appear in order in the text. -/
def isSpelledIn (needle text : Text) : Bool := needle.isSublist text

/-- Points for a fit of any kind between two texts in lower case; the kinds add up. -/
def plainPoints (trigger candidate : Text) : Nat :=
  (if candidate = trigger then 100 else 0) +
    (if trigger.isPrefixOf candidate then 80 else 0) +
    (if Text.occursIn trigger candidate then 50 else 0) +
    (if 2 ≤ trigger.length && isSpelledIn trigger candidate then 30 else 0)

/-- Points for a fit of the normalized forms of two texts in lower case, given where that of the
candidate is another text than the candidate. -/
def normalizedPoints (trigger candidate : Text) : Nat :=
  let typed := normalize trigger
  let offered := normalize candidate
  if typed ≠ [] ∧ offered ≠ candidate then
    (if offered = typed then 60 else 0) + (if typed.isPrefixOf offered then 40 else 0)
  else 0

/-- Points of a text for what has been typed. -/
def points (trigger candidate : Text) : Nat :=
  if candidate = [] then 0
  else
    let trigger := Text.lower trigger
    let candidate := Text.lower candidate
    plainPoints trigger candidate + normalizedPoints trigger candidate

/-- Points of a text that may be missing. -/
def pointsOf (trigger : Text) (candidate : Option Text) : Nat := points trigger (candidate.getD [])

/-- The points of a text times a weight. -/
def weighted (trigger : Text) (candidate : Option Text) (weight : Number) : Except Fault Number :=
  if candidate.getD [] = [] then .ok (.int 0)
  else
    let points : Int := pointsOf trigger candidate
    match weight with
    | .int n => .ok (.int (points * n))
    | .float x => do return .float ((← Binary64.ofInt points).mul x)

/-- Points of a description: three fifths. -/
def descriptionPoints (trigger description : Text) : Nat := points trigger description * 3 / 5

/-- The best points among the texts of a completion. -/
def textScore (trigger : Text) (c : Completion) : Nat :=
  (c.keywords.map (points trigger)).foldl max
    (max (max (points trigger c.trigger) (pointsOf trigger c.fullForm))
      (descriptionPoints trigger c.description))

end FluentQuery.Score
