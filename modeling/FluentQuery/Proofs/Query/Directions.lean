/-
  Directions of orderings. The call of an ordering is found in any case, and one of the cases of an s is the
  long s, which is its own lower case: so a direction comes out as one of four texts
  (`direction_mem_of_parseOrdering`). The order that is sent goes by the upper case, where the long s is an S
  like any other (`descending_iff`). `direction_normalized_iff`: so the direction is one of the two words, and
  decides on the order that is sent, exactly if no long s stands in it.
-/
import FluentQuery.Proofs.Query.WellFormed

namespace FluentQuery

theorem StructuredQuery.member?_orderBy (query : StructuredQuery) : query.toValue.member? "orderBy" =
    query.ordering.map fun order => .list [orderValue order.1 order.2] :=
  query.member?_toValue "orderBy"

namespace Query

/-- The forms that a word can have in lower case: every s in it is an s or a long s. -/
def loweredForms : Text → List Text
  | [] => [[]]
  | letter :: word =>
    (if letter = 's' then ['s', 'ſ'] else [letter] : Text).flatMap fun c =>
      (loweredForms word).map (c :: ·)

theorem mem_loweredForms {word found : Text} (h : List.Forall₂ IsLowered word found) :
    found ∈ loweredForms word := by
  induction h with
  | nil => exact List.mem_singleton_self []
  | @cons letter c word found hc _ ih =>
    have hmem : c ∈ (if letter = 's' then ['s', 'ſ'] else [letter] : Text) := by
      rcases hc with rfl | ⟨rfl, rfl⟩
      · split
        · rename_i hs
          exact hs ▸ List.mem_cons_self
        · exact List.mem_singleton_self c
      · decide
    exact List.mem_flatMap.2 ⟨c, hmem, List.mem_map_of_mem ih⟩

/-- The directions that orderings can have. -/
def foundDirections : List Text := ["asc", "aſc", "desc", "deſc"]

theorem loweredForms_directions : loweredForms "asc" ++ loweredForms "desc" = foundDirections := by
  decide

/-- A direction that is read is one of the two words in lower case, but for a long s. -/
theorem lower_mem_of_direction? {text direction rest : Text}
    (h : direction? text = some (direction, rest)) : Text.lower direction ∈ foundDirections := by
  rw [← loweredForms_directions, List.mem_append]
  rcases Option.or_eq_some_iff.1 h with hword | ⟨-, hword⟩
  · exact .inl (mem_loweredForms (lowerAfter_of_letters (word?_eq_some hword).2 (by decide) []))
  · exact .inr (mem_loweredForms (lowerAfter_of_letters (word?_eq_some hword).2 (by decide) []))

theorem direction_mem_of_parseOrdering {text : Text} {ordering : OrderBy}
    (h : parseOrdering text = some ordering) : ordering.direction ∈ foundDirections := by
  obtain ⟨place, hplace⟩ := exists_of_firstPlace? h
  simp only [orderingCall?, Option.bind_eq_bind, Option.bind_eq_some_iff] at hplace
  obtain ⟨-, -, inside, -, ⟨field, behind⟩, -, -, -, hordering⟩ := hplace
  cases hordering
  dsimp only
  cases hargument : (directionArgument behind).1 with
  | none => decide
  | some direction =>
    obtain ⟨argument, rest, hfound⟩ := exists_direction?_of_directionArgument hargument
    exact lower_mem_of_direction? hfound

/-- An ordering is sent as descending for either form of that word. -/
theorem descending_iff {direction : Text} (h : direction ∈ foundDirections) :
    (SortOrder.ofDirection direction).wireName = "DESCENDING" ↔
      direction = "desc" ∨ direction = "deſc" := by
  revert direction
  decide

theorem isWord_iff_long_s_not_mem {direction : Text} (h : direction ∈ foundDirections) :
    (direction = "asc" ∨ direction = "desc") ↔ CodePoint.char 'ſ' ∉ direction := by
  revert direction
  decide

/-- An ordering that is found is in the query that is built. Its direction is one of the two words in lower
case, and the query is descending exactly for the second one, if no long s stands in the direction, and only
then. -/
theorem direction_normalized_iff {text collection : Text} {limit : Int} {params : QueryParameters}
    {ordering : OrderBy} (h : parse text collection limit = .ok params)
    (hordering : params.ordering = some ordering) :
    ∃ query order, StructuredQuery.build params = .ok query ∧
      query.toValue.member? "orderBy" = some (.list [orderValue ordering.field order]) ∧
      ((ordering.direction = "asc" ∨ ordering.direction = "desc") ∧
          (order.wireName = "DESCENDING" ↔ ordering.direction = "desc") ↔
        CodePoint.char 'ſ' ∉ ordering.direction) := by
  obtain ⟨filters, hbuild, -⟩ := exists_built_of_parse h
  have hfound : ordering.direction ∈ foundDirections := by
    have hparsed := (select_and_ordering_of_parse h).2
    exact direction_mem_of_parseOrdering (hparsed.symm.trans hordering)
  refine ⟨_, .ofDirection ordering.direction, hbuild, ?_, ?_⟩
  · rw [StructuredQuery.member?_orderBy]
    unfold StructuredQuery.ofFilters
    rw [hordering]
    rfl
  · rw [descending_iff hfound, isWord_iff_long_s_not_mem hfound]
    refine and_iff_left_of_imp fun hnot => or_iff_left ?_
    intro hlong
    rw [hlong] at hnot
    exact hnot (by decide)

/-- Call and direction in upper case. -/
theorem direction_normalized_upper_case :
    parse ".ORDERBY('name', 'DESC')" "users" 50 =
        .ok ⟨"users", .int 50, [], [], some ⟨"name", "desc"⟩⟩ ∧
      ∃ query order,
        StructuredQuery.build ⟨"users", .int 50, [], [], some ⟨"name", "desc"⟩⟩ = .ok query ∧
        query.toValue.member? "orderBy" = some (.list [orderValue "name" order]) ∧
        order.wireName = "DESCENDING" := by
  have hparse : parse ".ORDERBY('name', 'DESC')" "users" 50 =
      .ok ⟨"users", .int 50, [], [], some ⟨"name", "desc"⟩⟩ := rfl
  obtain ⟨query, order, hbuild, hmember, hiff⟩ := direction_normalized_iff hparse rfl
  obtain ⟨-, hdescending⟩ := hiff.2 (by decide)
  exact ⟨hparse, query, order, hbuild, hmember, hdescending.2 rfl⟩

/-- With a long s the direction is none of the two words, and the query is descending all the same. -/
theorem direction_with_long_s :
    parse ".orderBy('name', 'deſc')" "users" 50 =
        .ok ⟨"users", .int 50, [], [], some ⟨"name", "deſc"⟩⟩ ∧
      (("deſc" : String) : Text) ≠ "asc" ∧ (("deſc" : String) : Text) ≠ "desc" ∧
      ∃ query, StructuredQuery.build ⟨"users", .int 50, [], [], some ⟨"name", "deſc"⟩⟩ = .ok query ∧
        query.toValue.member? "orderBy" = some (.list [orderValue "name" .descending]) :=
  ⟨rfl, by decide, by decide, _, rfl, rfl⟩

end Query

end FluentQuery
