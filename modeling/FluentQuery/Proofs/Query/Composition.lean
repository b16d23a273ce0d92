/-
  Expressions that are put together. Behind a text whose `where` calls are closed a text that goes on with
  a point adds its conditions and changes none (`conditions_of_append`): the point ends whatever could
  still be open in the opening of a call, and a closed call is not read any further. The same holds for any
  number of such texts (`parseConditions_flatten`).
-/
import FluentQuery.Proofs.Query.Opacity

namespace FluentQuery.Query

/-- A text that a chain can go on with: none, or one that starts with a point. -/
def GoesOn (text : Text) : Prop := text = [] ∨ ∃ rest, text = CodePoint.char '.' :: rest

theorem goesOn_flatten {parts : List Text} (h : ∀ part ∈ parts, GoesOn part) :
    GoesOn parts.flatten := by
  induction parts with
  | nil => exact .inl rfl
  | cons part parts ih =>
    obtain rfl | ⟨rest, rfl⟩ := h part List.mem_cons_self
    · exact ih fun other hother => h other (List.mem_cons_of_mem _ hother)
    · exact .inr ⟨rest ++ parts.flatten, rfl⟩

/-! ## Conditions -/

theorem parseConditions_nil : parseConditions [] = .ok [] := rfl

/-- The conditions of the texts, one after the other, or the first refusal. -/
theorem parseConditions_append {front back : Text} (hfront : ClosesCalls "where" front)
    (hback : GoesOn back) : parseConditions (front ++ back) = do
      let before ← parseConditions front
      let after ← parseConditions back
      return before ++ after := by
  obtain rfl | ⟨rest, rfl⟩ := hback
  · rw [List.append_nil, parseConditions_nil]
    cases parseConditions front with
    | error fault => rfl
    | ok before => exact congrArg Except.ok (List.append_nil before).symm
  · exact parseConditions_append_point hfront rest

/-- The conditions of any number of texts, each with closed calls and put behind those before it. -/
theorem parseConditions_flatten {parts : List Text}
    (h : ∀ part ∈ parts, ClosesCalls "where" part ∧ GoesOn part) :
    parseConditions parts.flatten = List.flatten <$> parts.mapM parseConditions := by
  induction parts with
  | nil => rfl
  | cons part parts ih =>
    have hrest : ∀ part ∈ parts, ClosesCalls "where" part ∧ GoesOn part := fun other hother =>
      h other (List.mem_cons_of_mem part hother)
    have hpart := (h part List.mem_cons_self).1
    rw [List.flatten_cons, parseConditions_append hpart (goesOn_flatten fun other hother =>
      (hrest other hother).2), ih hrest, List.mapM_cons]
    simp only [bind_map_left, map_bind, map_pure, List.flatten_cons]

/-! ## Limits -/

/-- Digits between blanks, up to the parenthesis behind them. -/
theorem limitIn?_eq_some_iff {text digits : Text} : limitIn? text = some digits ↔
    ∃ front back rest, AllBlank front ∧ AllBlank back ∧ digits ≠ [] ∧
      (∀ c ∈ digits, Text.isDecimal c = true) ∧
      text = front ++ digits ++ back ++ CodePoint.char ')' :: rest := by
  rw [limitIn?_eq, Option.map_eq_some_iff]
  constructor
  · rintro ⟨⟨digits, rest⟩, hclosed, rfl⟩
    obtain ⟨hne, hdigits, back, hback, htrim⟩ := closedDigits_eq_some_iff.1 hclosed
    have hblanks : text.takeWhile Text.isBlank ++ Text.trimStart text = text :=
      List.takeWhile_append_dropWhile
    refine ⟨text.takeWhile Text.isBlank, back, rest, List.all_takeWhile, hback, hne, hdigits, ?_⟩
    rw [List.append_assoc, List.append_assoc, ← htrim, hblanks]
  · rintro ⟨front, back, rest, hfront, hback, hne, hdigits, rfl⟩
    refine ⟨(digits, rest), closedDigits_eq_some_iff.2 ⟨hne, hdigits, back, hback, ?_⟩, rfl⟩
    rw [List.append_assoc, List.append_assoc, Text.trimStart_append hfront,
      Text.trimStart_digits hdigits hne]

/-- The digits of a limit are not read over a point. -/
theorem limitIn?_append_point (inside rest : Text) :
    limitIn? (inside ++ CodePoint.char '.' :: rest) = limitIn? inside := by
  ext digits
  constructor
  · intro h
    obtain ⟨front, back, behind, hfront, hback, hne, hdigits, htext⟩ := limitIn?_eq_some_iff.1 h
    -- What a limit takes in is blank, a digit or the parenthesis, and a point is none of them.
    have hpoint : CodePoint.char '.' ∉ front ++ digits ++ back ++ [CodePoint.char ')'] := by
      simp only [List.mem_append, List.mem_singleton, not_or]
      exact ⟨⟨⟨fun hmem => absurd (List.all_eq_true.1 hfront _ hmem) (by decide),
        fun hmem => absurd (hdigits _ hmem) (by decide)⟩,
        fun hmem => absurd (List.all_eq_true.1 hback _ hmem) (by decide)⟩, by decide⟩
    rw [List.append_cons (front ++ digits ++ back)] at htext
    obtain ⟨more, rfl, -⟩ := exists_eq_append_of_not_mem hpoint htext
    refine limitIn?_eq_some_iff.2 ⟨front, back, more, hfront, hback, hne, hdigits, ?_⟩
    rw [List.append_assoc _ [CodePoint.char ')']]
    rfl
  · intro h
    obtain ⟨front, back, behind, hfront, hback, hne, hdigits, rfl⟩ := limitIn?_eq_some_iff.1 h
    refine limitIn?_eq_some_iff.2
      ⟨front, back, behind ++ CodePoint.char '.' :: rest, hfront, hback, hne, hdigits, ?_⟩
    rw [List.append_assoc _ (CodePoint.char ')' :: behind)]
    rfl

theorem limitCall?_append_point {part : Text} (hne : part ≠ []) (rest : Text) :
    limitCall? (part ++ CodePoint.char '.' :: rest) = limitCall? part := by
  have hopen := Call.open?_append_point (isIdentChar_method "limit" (by decide)) hne rest
  rw [limitCall?_eq_bind, limitCall?_eq_bind, hopen, Option.bind_map]
  exact congrArg _ (funext fun inside => limitIn?_append_point inside rest)

/-- The limit is the first one of the front, or else that of the back. -/
theorem firstLimit_append (front : Text) {back : Text} (hback : GoesOn back) :
    firstPlace? limitCall? (front ++ back) =
      (firstPlace? limitCall? front).or (firstPlace? limitCall? back) := by
  obtain rfl | ⟨rest, rfl⟩ := hback
  · have hnone : firstPlace? limitCall? [] = none := findsCalls_limitCall?.nil
    rw [List.append_nil, hnone, Option.or_none]
  · rw [firstPlace?_eq_head?, findsCalls_limitCall?.allPlaces_append fun part hne =>
      limitCall?_append_point hne rest, List.head?_append, ← firstPlace?_eq_head?,
      ← firstPlace?_eq_head?]

/-- One of the two texts decides about the limit. -/
theorem parseLimit_append (front : Text) {back : Text} (hback : GoesOn back) (fallback : Int) :
    parseLimit (front ++ back) fallback = parseLimit front fallback ∨
      parseLimit (front ++ back) fallback = parseLimit back fallback := by
  unfold parseLimit
  rw [firstLimit_append front hback]
  cases firstPlace? limitCall? front with
  | none => exact .inr rfl
  | some digits => exact .inl rfl

/-! ## Expressions -/

/-- Two texts that are read make one that is read, with the conditions of both. -/
theorem limitAndConditions_append {front back : Text} (hfront : ClosesCalls "where" front)
    (hback : GoesOn back) {limit n m : Int} {before after : List Condition}
    (hbefore : limitAndConditions front limit = .ok (n, before))
    (hafter : limitAndConditions back limit = .ok (m, after)) :
    ∃ used, limitAndConditions (front ++ back) limit = .ok (used, before ++ after) := by
  obtain ⟨⟨fallback, husable, hlimit⟩, hconditions, hwritable⟩ :=
    limitAndConditions_eq_ok_iff.1 hbefore
  obtain ⟨⟨fallback', husable', hlimit'⟩, hconditions', hwritable'⟩ :=
    limitAndConditions_eq_ok_iff.1 hafter
  cases husable.symm.trans husable'
  have hall : parseConditions (front ++ back) = .ok (before ++ after) := by
    rw [parseConditions_append hfront hback, hconditions, hconditions']
    rfl
  obtain heq | heq := parseLimit_append front hback fallback
  · exact ⟨n, limitAndConditions_eq_ok_iff.2
      ⟨⟨fallback, husable, heq.trans hlimit⟩, hall, hwritable⟩⟩
  · exact ⟨m, limitAndConditions_eq_ok_iff.2
      ⟨⟨fallback, husable, heq.trans hlimit'⟩, hall, hwritable'⟩⟩

/-- The conditions of a text whose calls are closed are followed by those of the text behind it; with no
integer of more than 4300 digits in either, both are read, and so is the text that they make. -/
theorem conditions_of_append {front back : Text} (hfront : ClosesCalls "where" front)
    (hback : GoesOn back) :
    (parseConditions (front ++ back) = do
      let before ← parseConditions front
      let after ← parseConditions back
      return before ++ after) ∧
    ∀ (collection : Text) (limit : Int), ¬HasLongInteger front limit → ¬HasLongInteger back limit →
      ∃ p q r, parse front collection limit = .ok p ∧ parse back collection limit = .ok q ∧
        parse (front ++ back) collection limit = .ok r ∧ r.conditions = p.conditions ++ q.conditions := by
  refine ⟨parseConditions_append hfront hback, fun collection limit hshort hshort' => ?_⟩
  obtain ⟨p, hp⟩ := (parse_refusedIff front collection limit).exists_ok_iff.2 hshort
  obtain ⟨q, hq⟩ := (parse_refusedIff back collection limit).exists_ok_iff.2 hshort'
  obtain ⟨n, hbefore, -⟩ := exists_limit_of_parse hp
  obtain ⟨m, hafter, -⟩ := exists_limit_of_parse hq
  obtain ⟨used, hall⟩ := limitAndConditions_append hfront hback hbefore hafter
  have hr := parse_eq (front ++ back) collection limit
  rw [hall] at hr
  exact ⟨p, q, _, hp, hq, hr, rfl⟩

/-- A list with a closing parenthesis in a literal, a call without a value, and a limit before the next
condition. -/
theorem conditions_of_append_skipped_call :
    ∃ r, parse (".where('a', '==', [1, 'b)']).where('x')" ++ ".limit(3).where('c', '>', true)") [] 50 =
        .ok r ∧
      r.conditions = [⟨"a", "==", .list [.int 1, .text "b)"]⟩, ⟨"c", ">", .bool true⟩] := by
  have hfront : ClosesCalls "where" ".where('a', '==', [1, 'b)']).where('x')" := by decide
  have hback : GoesOn ".limit(3).where('c', '>', true)" := .inr ⟨_, rfl⟩
  have hitem : Operand.parse "1" = .ok (.int 1) := by
    rw [Operand.parse_eq]
    rfl
  have htext : Operand.parse "'b)'" = .ok (.text "b)") := by
    rw [Operand.parse_eq]
    rfl
  have hlist : Operand.parse "[1, 'b)']" = .ok (.list [.int 1, .text "b)"]) := by
    have hform : Operand.formOf (Text.trim "[1, 'b)']") = .items ["1", "'b)'"] := by rfl
    rw [Operand.parse_eq, hform]
    dsimp only
    rw [mapM_eq_ok_iff.2 (.cons hitem (.cons htext .nil))]
    rfl
  have htrue : Operand.parse "true" = .ok (.bool true) := by
    rw [Operand.parse_eq]
    rfl
  have hbefore : parseConditions ".where('a', '==', [1, 'b)']).where('x')" =
      .ok [⟨"a", "==", .list [.int 1, .text "b)"]⟩] := by
    have hwritten : writtenConditions ".where('a', '==', [1, 'b)']).where('x')" =
      ([("a", "==", "[1, 'b)']")] : List (Text × Text × Text)) := rfl
    rw [parseConditions_eq_ok_iff, hwritten]
    exact .cons ⟨rfl, rfl, hlist⟩ .nil
  have hafter : parseConditions ".limit(3).where('c', '>', true)" = .ok [⟨"c", ">", .bool true⟩] := by
    have hwritten : writtenConditions ".limit(3).where('c', '>', true)" =
      ([("c", ">", "true")] : List (Text × Text × Text)) := rfl
    rw [parseConditions_eq_ok_iff, hwritten]
    exact .cons ⟨rfl, rfl, htrue⟩ .nil
  have hshort := (limitAndConditions_refusedIff ".where('a', '==', [1, 'b)']).where('x')" 50).not_of_ok
    (limitAndConditions_eq_ok_iff.2 ⟨⟨50, rfl, rfl⟩, hbefore, rfl⟩)
  have hshort' := (limitAndConditions_refusedIff ".limit(3).where('c', '>', true)" 50).not_of_ok
    (limitAndConditions_eq_ok_iff.2 ⟨⟨50, rfl, rfl⟩, hafter, rfl⟩)
  obtain ⟨p, q, r, hp, hq, hr, hconditions⟩ :=
    (conditions_of_append hfront hback).2 [] 50 hshort hshort'
  have hp' := Except.ok.inj (hbefore.symm.trans (conditions_of_parse hp))
  have hq' := Except.ok.inj (hafter.symm.trans (conditions_of_parse hq))
  rw [← hp', ← hq'] at hconditions
  exact ⟨r, hr, hconditions⟩

end FluentQuery.Query
