/-
  Ranking: of the completions that qualify, the best one for every key, best first. Where two have the
  same score the longer trigger goes first, then the key that was seen first.
-/
import FluentQuery.Completion.Fitness
import FluentQuery.Completion.Score
import FluentQuery.StableSort

namespace FluentQuery

/-- A completion with its score. -/
structure Ranked where
  completion : Completion
  score : Int
  deriving DecidableEq, Repr

namespace Ranking

/-- The score before adjustments: by the typed text, or by the situation where nothing is typed. -/
def baseScore (root trigger : Text) (situation : Situation) (c : Completion) : Nat :=
  let typed := Text.trim trigger
  if typed = [] then Fitness.situationScore (Fitness.likelyKind root c) c situation
  else Score.textScore typed c

/-- The score after adjustments. -/
def finalScore (root trigger : Text) (situation : Situation) (c : Completion) : Int :=
  baseScore root trigger situation c +
    Fitness.adjustment root (Fitness.likelyKind root c) c trigger situation

/-- The completion with its score, if the score is positive before and after the adjustments. -/
def qualify? (root trigger : Text) (situation : Situation) (c : Completion) : Option Ranked :=
  let score := finalScore root trigger situation c
  if 0 < baseScore root trigger situation c ∧ 0 < score then some ⟨c, score⟩ else none

/-- Enters a completion: behind all others under a new key, or in place of a worse one under its key. -/
def enter (entry : Ranked) : List Ranked → List Ranked
  | [] => [entry]
  | r :: rest =>
    if r.completion.key = entry.completion.key then
      (if r.score < entry.score then entry else r) :: rest
    else r :: enter entry rest

/-- The best completion of every key, in the order in which the keys come up. -/
def bestByKey (entries : List Ranked) : List Ranked :=
  entries.foldl (fun table entry => enter entry table) []

/-- Whether one completion goes before another by score and length of the trigger. -/
def above (a b : Ranked) : Bool :=
  b.score < a.score ||
    (a.score = b.score && b.completion.trigger.length < a.completion.trigger.length)

/-- The first results; a negative number counts those that are left out at the end. -/
def firstResults {α : Type} (maxResults : Int) (results : List α) : List α :=
  if 0 ≤ maxResults then results.take maxResults.toNat
  else results.take (results.length - maxResults.natAbs)

/-- Whether there is anything to offer: something is typed, or the situation asks for it. -/
def isWanted (trigger : Text) (situation : Situation) : Bool :=
  let hasTrigger : Bool := Text.trim trigger ≠ []
  let asksForCandidates := situation.call.isSome || situation.inString || situation.afterDot ||
    situation.lineIsBlank
  hasTrigger || asksForCandidates

/-- All completions that qualify, the best one for every key, best first. -/
def rankAll (root trigger : Text) (situation : Situation) (pool : List Completion) :
    List Ranked :=
  stableSort above (bestByKey (pool.filterMap (qualify? root trigger situation)))

/-- The best completions of a catalog and a supplier. -/
def rank (catalog : List Completion) (supplier : Supplier) (root : Text) (maxResults : Int)
    (trigger : Text) (situation : Situation) : List Ranked :=
  if !isWanted trigger situation then []
  else firstResults maxResults (rankAll root trigger situation (catalog ++ supplier situation))

end Ranking

end FluentQuery
