/-
  Spelled queries are read back: any spelling of a query parses to that query, whatever the defaults
  (`parse_spellChain`). Each part of the query is what its search reads off the calls of the chain.
-/
import FluentQuery.Proofs.Chain.Readings
import FluentQuery.Proofs.Query.Refusal

namespace FluentQuery

open Spelling

namespace Query

/-- A default limit that can be written is usable, or is replaced by the usual one. -/
theorem exists_usableLimit {limit : Int} (h : -10 ^ Decimal.maxDigits < limit) :
    ∃ fallback, usableLimit limit = .ok fallback := by
  unfold usableLimit
  by_cases hpos : 1 ≤ limit
  · exact ⟨limit, if_pos hpos⟩
  · refine ⟨defaultLimit, ?_⟩
    have hbounded : limit.natAbs < 10 ^ Decimal.maxDigits := by
      have hcast : ((10 ^ Decimal.maxDigits : Nat) : Int) = 10 ^ Decimal.maxDigits := Int.natCast_pow _ _
      rw [← hcast] at h
      generalize 10 ^ Decimal.maxDigits = bound at h ⊢
      omega
    rw [if_neg hpos, writable_eq hbounded]
    rfl

section

variable {receiver : Text} (hreceiver : CodePoint.char '.' ∉ receiver)
  {calls : List Spelling.Call} {query : QueryParameters} (h : SpellsQuery calls query)

include hreceiver h

theorem firstCollection_spellChain :
    firstPlace? collectionCall? (receiver ++ spellChain calls) = some query.collection := by
  have hfind : collectionCall? = fun t => (Call.open? "collection" t).bind collectionIn? := rfl
  rw [firstPlace?_eq_head?, hfind,
    allPlaces_open?_spellChain (by decide) collectionIn?_inside ?_ hreceiver, h.collection]
  · rfl
  · intro clause hne
    cases clause <;> first | rfl | exact absurd rfl hne

theorem parseLimit_spellChain (fallback : Int) :
    ∃ n : Nat, query.limit = .int n ∧ n < 10 ^ Decimal.maxDigits ∧
      parseLimit (receiver ++ spellChain calls) fallback = .ok (n : Int) := by
  have hlimit := h.limit
  cases hlimits : calls.filterMap (·.clause.limit?) with
  | nil =>
    rw [hlimits] at hlimit
    cases hlimit
  | cons n rest =>
    rw [hlimits, List.map_cons, List.cons.injEq] at hlimit
    have hmem : n ∈ calls.filterMap (·.clause.limit?) := by simp [hlimits]
    obtain ⟨call, -, hcall⟩ := List.mem_filterMap.1 hmem
    obtain ⟨hpos, hbounded⟩ := Clause.limit?_bounds hcall
    have hfirst : firstPlace? limitCall? (receiver ++ spellChain calls) = some (Decimal.ofNat n) := by
      have hfind : limitCall? = fun t => (Call.open? "limit" t).bind limitIn? := rfl
      rw [firstPlace?_eq_head?, hfind,
        allPlaces_open?_spellChain (by decide) limitIn?_inside ?_ hreceiver, ← List.map_filterMap,
        hlimits]
      · rfl
      · intro clause hne
        cases clause <;> first | rfl | exact absurd rfl hne
    exact ⟨n, hlimit.1.symm, hbounded, parseLimit_ofNat hfirst hpos hbounded fallback⟩

theorem parseSelect_spellChain :
    parseSelect (receiver ++ spellChain calls) = query.select := by
  have hselect : (allPlaces (Call.open? "select") (receiver ++ spellChain calls)).filterMap selectIn? =
      if query.select = [] then [] else [query.select] := by
    rw [filterMap_allPlaces, allPlaces_open?_spellChain (by decide) selectIn?_inside ?_ hreceiver,
      h.select]
    intro clause hne
    cases clause <;> first | rfl | exact absurd rfl hne
  rw [parseSelect_eq, Call.sites]
  cases hsites : allPlaces (Call.open? "select") (receiver ++ spellChain calls) with
  | nil =>
    rw [hsites] at hselect
    split at hselect
    · rename_i hnone
      exact hnone.symm
    · cases hselect
  | cons site rest =>
    have hsite : selectIn? site = some (fieldsOf (callArguments site)) := rfl
    rw [hsites, List.filterMap_cons_some hsite] at hselect
    split at hselect
    · cases hselect
    · exact (List.cons.inj hselect).1

theorem parseConditions_spellChain :
    parseConditions (receiver ++ spellChain calls) = .ok query.conditions := by
  have hread : (query.conditions.map Except.ok).mapM id = .ok (query.conditions.map id) :=
    mapM_map_eq_ok fun _ _ => rfl
  rw [parseConditions_eq_sites, Call.sites, filterMap_allPlaces,
    allPlaces_open?_spellChain (by decide) conditionAt?_inside ?_ hreceiver,
    ← List.map_filterMap, h.conditions]
  · rw [hread, List.map_id]
  · intro clause hne
    cases clause <;> first | rfl | exact absurd rfl hne

theorem parseOrdering_spellChain :
    parseOrdering (receiver ++ spellChain calls) = query.ordering := by
  have hfind : orderingCall? = fun t => (orderingOpening? t).bind orderingIn? :=
    funext orderingCall?_eq
  rw [parseOrdering, firstPlace?_eq_head?, hfind,
    allPlaces_spellChain opensCalls_orderingOpening? orderingOpening?_bind hreceiver, h.ordering]
  cases query.ordering <;> rfl

end

/-- A query is read back from each of its spellings: the clauses in any order, in any quotes, with any
blanks, behind any receiver without a point, and with other calls among them. -/
theorem parse_spellChain {calls : List Spelling.Call} {query : QueryParameters}
    (h : SpellsQuery calls query) {receiver : Text} (hreceiver : CodePoint.char '.' ∉ receiver)
    (collection : Text) {limit : Int} (hlimit : -10 ^ Decimal.maxDigits < limit) :
    parse (receiver ++ spellChain calls) collection limit = .ok query := by
  obtain ⟨fallback, hfallback⟩ := exists_usableLimit hlimit
  obtain ⟨n, hn, hbounded, hparse⟩ := parseLimit_spellChain hreceiver h fallback
  have hwrite : writable n = .ok (n : Int) := writable_eq (by simpa using hbounded)
  unfold parse
  rw [hfallback]
  dsimp only [bind, Except.bind]
  rw [hparse]
  dsimp only
  rw [parseConditions_spellChain hreceiver h]
  dsimp only
  rw [hwrite, firstCollection_spellChain hreceiver h, parseSelect_spellChain hreceiver h,
    parseOrdering_spellChain hreceiver h, Option.getD_some]
  dsimp only
  rw [← hn]
  rfl

theorem spells_mixed_list : Spells "[1, 'x']" (.list [.int 1, .text "x"]) := by
  have hitems : ∀ i ∈ ([.bare ("1", .int 1), ⟨⟨" ", by decide⟩, ("'x'", .text "x"), .none⟩] :
      List (Padded (Text × Value))), Spells i.item.1 i.item.2 := by
    intro i hi
    simp only [List.mem_cons, List.not_mem_nil, or_false] at hi
    rcases hi with rfl | rfl
    · exact .int (n := 1) (Decimal.lt_pow_of_le_maxDigits (by decide))
    · exact .text ⟨Text.singleQuote, "x", by decide, by decide⟩
  exact .list (by decide) hitems

/-- A chain with its clauses out of order, another call among them and a list as an operand. -/
theorem parse_spellChain_out_of_order :
    parse "db.limit( 5).where('tags','in',[1, 'x']).get().collection(\"users\")" [] 50 =
      .ok ⟨"users", .int 5, [], [⟨"tags", "in", .list [.int 1, .text "x"]⟩], none⟩ := by
  obtain ⟨calls, hcalls, htext⟩ : ∃ calls, SpellsQuery calls
        ⟨"users", .int 5, [], [⟨"tags", "in", .list [.int 1, .text "x"]⟩], none⟩ ∧
      ("db.limit( 5).where('tags','in',[1, 'x']).get().collection(\"users\")" : Text) =
        "db" ++ spellChain calls := by
    refine ⟨[⟨.limit ⟨⟨" ", by decide⟩, ⟨5, by decide, Decimal.lt_pow_of_le_maxDigits (by decide)⟩,
          .none⟩, .none, .none⟩,
        ⟨.condition (.bare ⟨⟨Text.singleQuote, "tags", by decide, by decide⟩, by decide⟩)
          (.bare ⟨⟨Text.singleQuote, "in", by decide, by decide⟩, by decide⟩)
          (.bare ⟨_, _, spells_mixed_list⟩), .none, .none⟩,
        ⟨.other ⟨"get", by decide, by decide⟩ .none, .none, .none⟩,
        ⟨.collection (.bare ⟨⟨Text.doubleQuote, "users", by decide, by decide⟩, by decide⟩),
          .none, .none⟩], ⟨rfl, rfl, rfl, rfl, rfl⟩, ?_⟩
    decide
  have hlimit : -10 ^ Decimal.maxDigits < (50 : Int) := by
    have hpos : (0 : Int) < 10 ^ Decimal.maxDigits := Int.pow_pos (by decide)
    generalize (10 : Int) ^ Decimal.maxDigits = bound at hpos ⊢
    omega
  rw [htext]
  exact parse_spellChain hcalls (by decide) [] hlimit

end Query

end FluentQuery
