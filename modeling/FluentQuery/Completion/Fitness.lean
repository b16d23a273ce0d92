/-
  How well completions fit the situation at a cursor: the score where nothing has been typed, and the
  adjustments that are added to any score.
-/
import FluentQuery.Completion.Basic
import FluentQuery.Text.Basic

namespace FluentQuery.Fitness

/-- The declared category, or the one that the shape of the trigger suggests. -/
def likelyKind (root : Text) (c : Completion) : Option CompletionKind :=
  match c.kind with
  | some kind => some kind
  | none =>
    if Text.startsWith "." c.trigger then some .method
    else if root.isPrefixOf c.trigger then some .keyword
    else if c.startsWithQuote then some .value
    else if List.isPrefixOf "FieldValue" c.trigger then some .property
    else if Text.occursIn "function" c.trigger then some .snippet
    else none

/-- Whether the completion is a method by its category or its trigger. -/
def isMethod (kind : Option CompletionKind) (c : Completion) : Bool :=
  kind = some .method || Text.startsWith "." c.trigger

/-- The methods whose argument is a collection. -/
def methodsOnCollections : List Text := ["collection", "collectionGroup", "doc"]

/-- The methods whose arguments are strings. -/
def methodsOnStrings : List Text :=
  ["collection", "collectionGroup", "doc", "where", "orderBy", "select"]

/-- Points of a category for the argument that the cursor is in. -/
def argumentPoints (kind : Option CompletionKind) (call : OpenCall) : Nat :=
  let argument := call.argument
  if call.name = "where" then
    if argument = 0 ∧ (kind = some .field ∨ kind = some .collection) then 20
    else if argument = 1 ∧ kind = some .operator then 24
    else if 2 ≤ argument ∧ kind = some .value then 16
    else 0
  else if call.name = "orderBy" then
    if argument = 0 ∧ kind = some .field then 20
    else if argument = 1 ∧ kind = some .direction then 24
    else 0
  else if call.name = "select" then if argument = 0 ∧ kind = some .field then 18 else 0
  else if call.name ∈ methodsOnCollections then if kind = some .collection then 18 else 0
  else 0

/-- The score of a completion where nothing has been typed. -/
def situationScore (kind : Option CompletionKind) (c : Completion) (situation : Situation) : Nat :=
  let base :=
    match situation.call with
    | some call => argumentPoints kind call
    | none =>
      if situation.lineIsBlank ∧ ¬situation.inString ∧ ¬situation.afterDot ∧ kind = some .snippet
      then 18 else 0
  let inString :=
    if situation.inString ∧ (kind = some .collection ∨ kind = some .field) then 16 else 0
  let afterDot := if situation.afterDot ∧ isMethod kind c then 12 else 0
  max (max base inString) afterDot

/-- The standing of methods among one another. -/
def methodStanding : List (Text × Int) :=
  [(".where", 40), (".orderBy", 35), (".limit", 30), (".limitToLast", 28), (".get", 32),
    (".doc", 28), (".collection", 27), (".collectionGroup", 26), (".select", 24), (".add", 18),
    (".set", 18), (".update", 18), (".delete", 18), (".count", 16), (".withConverter", 14),
    (".listDocuments", 12), (".listCollections", 12)]

/-- The adjustment behind a point. -/
def dotAdjustment (kind : Option CompletionKind) (c : Completion) (trigger : Text)
    (situation : Situation) : Int :=
  if situation.afterDot ∨ Text.startsWith "." trigger then
    (if isMethod kind c then 25 else 0) + (if kind = some .keyword then -8 else 0)
  else 0

/-- The adjustment of whatever starts with the database root. -/
def rootAdjustment (root : Text) (c : Completion) (situation : Situation) : Int :=
  if situation.atRoot ∧ root.isPrefixOf c.trigger then 20 else 0

/-- The adjustment of snippets: they are for a place of their own. -/
def snippetAdjustment (kind : Option CompletionKind) (situation : Situation) : Int :=
  if kind = some .snippet then
    (if ¬situation.afterDot ∧ ¬situation.inString ∧ situation.call = none then 18 else 0) +
      (if situation.afterDot ∨ situation.inString then -8 else 0)
  else 0

/-- The adjustment inside a string. -/
def stringAdjustment (kind : Option CompletionKind) (c : Completion) (situation : Situation) :
    Int :=
  if situation.inString then
    (if kind = some .collection ∨ kind = some .field then 35 else 0) +
      (if c.startsWithQuote then 18 else 0) +
      (if kind = some .method ∨ kind = some .keyword then -10 else 0)
  else 0

/-- The adjustment of quoted completions where no string is expected. -/
def quoteAdjustment (c : Completion) (situation : Situation) : Int :=
  let expectsString :=
    situation.inString || situation.call.any fun call => call.name ∈ methodsOnStrings
  if !expectsString && c.startsWithQuote then -18 else 0

/-- The adjustment for the argument that the cursor is in. -/
def argumentAdjustment (kind : Option CompletionKind) (situation : Situation) : Int :=
  match situation.call with
  | none => 0
  | some call =>
    let argument := call.argument
    if call.name = "where" then
      if argument = 0 ∧ kind = some .field then 40
      else if argument = 1 ∧ kind = some .operator then 45
      else 0
    else if call.name = "orderBy" then
      if argument = 0 ∧ kind = some .field then 40
      else if argument = 1 ∧ kind = some .direction then 45
      else 0
    else if call.name = "select" then if argument = 0 ∧ kind = some .field then 35 else 0
    else if kind = some .collection then
      if call.name = "collection" ∨ call.name = "collectionGroup" then 30
      else if call.name = "doc" then 20
      else 0
    else 0

/-- All that is added to a base score. -/
def adjustment (root : Text) (kind : Option CompletionKind) (c : Completion) (trigger : Text)
    (situation : Situation) : Int :=
  c.priority + dotAdjustment kind c trigger situation + rootAdjustment root c situation +
    snippetAdjustment kind situation + stringAdjustment kind c situation + quoteAdjustment c situation +
    argumentAdjustment kind situation + (methodStanding.lookup c.key).getD 0

end FluentQuery.Fitness
