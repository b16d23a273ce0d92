/-
  An expression clause by clause. What a search reads at a place is a shape of the text there
  (`collectionCall?_eq_some_iff`), and a collection is found in the first call that is spelled as one
  (`firstPlace?_collectionCall?`). The conditions are those that are written in closed calls, in their
  order (`parseConditions_eq_ok_iff`). Only the limit and the conditions can be refused, and the other
  clauses do not depend on them (`parse_eq`).
-/
import FluentQuery.Proofs.Chain.Openings
import FluentQuery.Proofs.Query.Refusal
import FluentQuery.Proofs.Results

namespace FluentQuery

/-! ## Shapes -/

/-- Blanks, and nothing else. -/
abbrev AllBlank (text : Text) : Prop := text.all Text.isBlank = true

namespace Call

theorem open?_eq_some_iff {name text inside : Text} (hname : ∀ c ∈ name, Text.isIdentChar c = true) :
    open? name text = some inside ↔
      ∃ blanks, AllBlank blanks ∧ text = callText (name ++ blanks) inside := by
  constructor
  · intro h
    obtain ⟨blanks, htext, hblank⟩ := open?_eq_some h
    exact ⟨blanks, hblank, htext⟩
  · rintro ⟨blanks, hblank, rfl⟩
    exact (open?_callText hname hname hblank inside).trans (if_pos rfl)

theorem skipTo?_eq_some_iff {expected : CodePoint} (hexpected : Text.isBlank expected = false)
    {text rest : Text} : skipTo? expected text = some rest ↔
      ∃ blanks, AllBlank blanks ∧ text = blanks ++ expected :: rest := by
  constructor
  · intro h
    obtain ⟨blanks, htext, hblank⟩ := skipTo?_eq_some h
    exact ⟨blanks, hblank, htext⟩
  · rintro ⟨blanks, hblank, rfl⟩
    exact skipTo?_blanks hexpected hblank rest

/-- A literal is read behind blanks, from any quote to the next one, if something stands between. -/
theorem literal?_eq_some_iff {text content rest : Text} : literal? text = some (content, rest) ↔
    ∃ blanks opening closing, AllBlank blanks ∧ opening ∈ literalQuotes ∧ closing ∈ literalQuotes ∧
      content ≠ [] ∧ (∀ c ∈ content, c ∉ literalQuotes) ∧
      text = blanks ++ opening :: (content ++ closing :: rest) := by
  constructor
  · intro h
    have hsplit := List.takeWhile_append_dropWhile (p := Text.isBlank) (l := text)
    unfold literal? Text.trimStart at h
    split at h
    · cases h
    · rename_i opening behind htrim
      rw [htrim] at hsplit
      split at h
      · rename_i hopening
        have hspan := List.takeWhile_append_dropWhile (p := fun c => decide (c ∉ literalQuotes))
          (l := behind)
        have hcontent : ∀ c ∈ behind.takeWhile fun c => decide (c ∉ literalQuotes),
            c ∉ literalQuotes := fun c hc => by
          simpa using List.all_eq_true.1 List.all_takeWhile c hc
        split at h
        · rename_i c content' closing rest' htake hdrop
          cases h
          have hclosing := List.head?_dropWhile_not (fun c => decide (c ∉ literalQuotes)) behind
          rw [htake] at hcontent
          rw [hdrop] at hclosing
          rw [htake, hdrop] at hspan
          refine ⟨text.takeWhile Text.isBlank, opening, closing, List.all_takeWhile, hopening, ?_,
            List.cons_ne_nil _ _, hcontent, ?_⟩
          · simpa using hclosing
          · rw [hspan]
            exact hsplit.symm
        · cases h
      · cases h
  · rintro ⟨blanks, opening, closing, hblank, hopening, hclosing, hne, hcontent, rfl⟩
    have hstart : Text.startsInBlank (opening :: (content ++ closing :: rest)) = false :=
      isBlank_of_mem_literalQuotes hopening
    obtain ⟨htake, hdrop⟩ := span_unquoted hcontent hclosing rest
    unfold literal?
    rw [Text.trimStart_append hblank, Text.trimStart_of_startsInBlank_eq_false hstart]
    dsimp only
    rw [if_pos hopening, htake, hdrop]
    cases content with
    | nil => exact absurd rfl hne
    | cons c content => rfl

end Call

namespace Query

/-- A call `.collection("…")` with one literal in it, of any quotes. -/
theorem collectionCall?_eq_some_iff {text name : Text} : collectionCall? text = some name ↔
    ∃ gap front back opening closing rest, AllBlank gap ∧ AllBlank front ∧ AllBlank back ∧
      opening ∈ literalQuotes ∧ closing ∈ literalQuotes ∧ name ≠ [] ∧
      (∀ c ∈ name, c ∉ literalQuotes) ∧
      text = callText ("collection" ++ gap)
        (front ++ opening :: (name ++ closing :: (back ++ CodePoint.char ')' :: rest))) := by
  have hcollection := isIdentChar_method "collection" (by decide)
  simp only [collectionCall?, Option.bind_eq_bind, Option.bind_eq_some_iff]
  constructor
  · rintro ⟨inside, hopen, ⟨content, behind⟩, hliteral, rest, hskip, heq⟩
    cases heq
    obtain ⟨gap, hgap, rfl⟩ := (Call.open?_eq_some_iff hcollection).1 hopen
    obtain ⟨front, opening, closing, hfront, hopening, hclosing, hne, hname, rfl⟩ :=
      Call.literal?_eq_some_iff.1 hliteral
    obtain ⟨back, hback, rfl⟩ := (Call.skipTo?_eq_some_iff rfl).1 hskip
    exact ⟨gap, front, back, opening, closing, rest, hgap, hfront, hback, hopening, hclosing, hne,
      hname, rfl⟩
  · rintro ⟨gap, front, back, opening, closing, rest, hgap, hfront, hback, hopening, hclosing, hne,
      hname, rfl⟩
    exact ⟨_, (Call.open?_eq_some_iff hcollection).2 ⟨gap, hgap, rfl⟩, (name, _),
      Call.literal?_eq_some_iff.2
        ⟨front, opening, closing, hfront, hopening, hclosing, hne, hname, rfl⟩,
      rest, (Call.skipTo?_eq_some_iff rfl).2 ⟨back, hback, rfl⟩, rfl⟩

/-- In front of the call no other one is found, unless its name stands there. -/
theorem collectionCall?_append_callText {part inside : Text} (hne : part ≠ [])
    (hpart : ¬(".collection" : Text) <:+: part) :
    collectionCall? (part ++ callText "collection" inside) = none := by
  have hopen : Call.open? "collection" part = none := by
    cases hopen : Call.open? "collection" part with
    | none => rfl
    | some behind =>
      obtain ⟨blanks, htext, -⟩ := Call.open?_eq_some hopen
      have hprefix : (".collection" : Text) <+: part :=
        ⟨blanks ++ CodePoint.char '(' :: behind, by rw [htext]; rfl⟩
      exact absurd hprefix.isInfix hpart
  have hpoint := Call.open?_append_point (isIdentChar_method "collection" (by decide)) hne
    ("collection" ++ CodePoint.char '(' :: inside)
  rw [hopen] at hpoint
  unfold collectionCall? callText
  rw [hpoint]
  rfl

theorem firstPlace?_collectionCall? {earlier name : Text} {quote : CodePoint}
    (hcall : ¬(".collection" : Text) <:+: earlier) (hquote : quote ∈ literalQuotes) (hne : name ≠ [])
    (hname : ∀ c ∈ name, c ∉ literalQuotes) (rest : Text) :
    firstPlace? collectionCall?
        (earlier ++ callText "collection" (quote :: name) ++ quote :: CodePoint.char ')' :: rest) =
      some name := by
  have hhere : collectionCall? (callText "collection"
      (quote :: (name ++ quote :: CodePoint.char ')' :: rest))) = some name :=
    collectionCall?_eq_some_iff.2
      ⟨[], [], [], quote, quote, rest, rfl, rfl, rfl, hquote, hquote, hne, hname, rfl⟩
  have hearlier : ∀ part, part ≠ [] → part <:+ earlier → collectionCall? (part ++
      callText "collection" (quote :: (name ++ quote :: CodePoint.char ')' :: rest))) = none :=
    fun part hne hpart => collectionCall?_append_callText hne fun hin => hcall (hin.trans hpart.isInfix)
  rw [List.append_assoc, ← callText_append, List.cons_append, firstPlace?_eq_head?,
    allPlaces_append_of_none hearlier, ← firstPlace?_eq_head?]
  exact firstPlace?_of_find hhere

/-- A collection that is found holds no quote. -/
theorem unquoted_of_firstPlace?_collectionCall? {text name : Text}
    (h : firstPlace? collectionCall? text = some name) : ∀ c ∈ name, c ∉ literalQuotes := by
  obtain ⟨place, hplace⟩ := exists_of_firstPlace? h
  obtain ⟨-, -, -, -, -, -, -, -, -, -, -, -, hname, -⟩ := collectionCall?_eq_some_iff.1 hplace
  exact hname

/-! ## Conditions -/

/-- The conditions that are written in a text: field, operator and operand of every closed call. -/
def writtenConditions (text : Text) : List (Text × Text × Text) :=
  (Call.sites "where" text).filterMap conditionTexts?

/-- The condition is what is written there. -/
def IsWrittenAs (texts : Text × Text × Text) (c : Condition) : Prop :=
  c.field = texts.1 ∧ c.operator = texts.2.1 ∧ Operand.parse texts.2.2 = .ok c.value

theorem conditionOf_eq_ok_iff {texts : Text × Text × Text} {c : Condition} :
    conditionOf texts = .ok c ↔ IsWrittenAs texts c := by
  unfold conditionOf
  rw [map_eq_ok_iff]
  constructor
  · rintro ⟨value, hvalue, rfl⟩
    exact ⟨rfl, rfl, hvalue⟩
  · obtain ⟨field, operator, value⟩ := c
    rintro ⟨rfl, rfl, hvalue⟩
    exact ⟨value, hvalue, rfl⟩

/-- The conditions of an expression are those that are written in it, in their order. -/
theorem parseConditions_eq_ok_iff {text : Text} {conditions : List Condition} :
    parseConditions text = .ok conditions ↔
      List.Forall₂ IsWrittenAs (writtenConditions text) conditions := by
  rw [parseConditions_eq, mapM_eq_ok_iff]
  simp only [conditionOf_eq_ok_iff]
  rfl

/-! ## The parameters -/

/-- The limit and the conditions of an expression: the part of it that can be refused. -/
def limitAndConditions (text : Text) (limit : Int) : Except Fault (Int × List Condition) := do
  let fallback ← usableLimit limit
  let limit ← parseLimit text fallback
  let conditions ← parseConditions text
  let limit ← writable limit
  return (limit, conditions)

/-- They are read if each of the two is, and if the limit can be written. -/
theorem limitAndConditions_eq_ok_iff {text : Text} {limit used : Int} {conditions : List Condition} :
    limitAndConditions text limit = .ok (used, conditions) ↔
      (∃ fallback, usableLimit limit = .ok fallback ∧ parseLimit text fallback = .ok used) ∧
        parseConditions text = .ok conditions ∧ writable used = .ok used := by
  unfold limitAndConditions
  simp only [bind_eq_ok_iff]
  constructor
  · rintro ⟨fallback, hfallback, used', hused, conditions', hconditions, written, hwritten, ⟨⟩⟩
    cases eq_of_writable hwritten
    exact ⟨⟨fallback, hfallback, hused⟩, hconditions, hwritten⟩
  · rintro ⟨⟨fallback, hfallback, hused⟩, hconditions, hwritten⟩
    exact ⟨fallback, hfallback, used, hused, conditions, hconditions, used, hwritten, rfl⟩

theorem parse_eq (text collection : Text) (limit : Int) : parse text collection limit =
    (fun read : Int × List Condition =>
      { collection := (firstPlace? collectionCall? text).getD collection
        limit := .int read.1
        select := parseSelect text
        conditions := read.2
        ordering := parseOrdering text }) <$> limitAndConditions text limit := by
  unfold parse limitAndConditions
  simp only [map_bind, map_pure]

theorem collection_of_parse {text collection : Text} {limit : Int} {params : QueryParameters}
    (h : parse text collection limit = .ok params) :
    params.collection = (firstPlace? collectionCall? text).getD collection := by
  rw [parse_eq] at h
  obtain ⟨read, -, rfl⟩ := map_eq_ok_iff.1 h
  rfl

theorem exists_limit_of_parse {text collection : Text} {limit : Int} {params : QueryParameters}
    (h : parse text collection limit = .ok params) :
    ∃ used, limitAndConditions text limit = .ok (used, params.conditions) ∧ params.limit = .int used := by
  rw [parse_eq] at h
  obtain ⟨read, hread, rfl⟩ := map_eq_ok_iff.1 h
  exact ⟨read.1, hread, rfl⟩

theorem conditions_of_parse {text collection : Text} {limit : Int} {params : QueryParameters}
    (h : parse text collection limit = .ok params) : parseConditions text = .ok params.conditions := by
  obtain ⟨used, hread, -⟩ := exists_limit_of_parse h
  exact (limitAndConditions_eq_ok_iff.1 hread).2.1

theorem limitAndConditions_refusedIff (text : Text) (limit : Int) :
    RefusedIff (limitAndConditions text limit) (HasLongInteger text limit) := by
  have hrefused := parse_refusedIff text [] limit
  rw [parse_eq] at hrefused
  exact RefusedIff.map_iff.1 hrefused

end Query

end FluentQuery
