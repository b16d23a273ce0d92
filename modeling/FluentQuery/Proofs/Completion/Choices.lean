/-
  The list of choices against the engine. No two results of a ranking have the same key
  (`keys_rank_nodup`), and the key is the label, so the search for a label finds the completion that it was
  made for (`find?_label`). The test whether anything may be offered looks at the situation on its own and
  agrees with the gate of the ranking (`mayOffer_eq_isWanted`). `choices_faithful`: what a label does is
  what accepting its completion does, any other label does nothing, and there are choices only where
  something may be offered.
-/
import FluentQuery.Completion.Dropdown
import FluentQuery.Proofs.Completion.TopResults
import FluentQuery.Proofs.Completion.TriggerPlace

namespace FluentQuery

namespace Ranking

theorem firstResults_sublist {α : Type} (maxResults : Int) (results : List α) :
    (firstResults maxResults results).Sublist results := by
  unfold firstResults
  split
  · exact List.take_sublist _ _
  · exact List.take_sublist _ _

/-- However many results are asked for, no two of them have the same key. -/
theorem keys_rank_nodup (catalog : List Completion) (supplier : Supplier) (root : Text)
    (maxResults : Int) (trigger : Text) (situation : Situation) :
    ((rank catalog supplier root maxResults trigger situation).map (·.completion.key)).Nodup := by
  unfold rank
  split
  · exact List.nodup_nil
  · have hranking := isRanking_rankAll root trigger situation (catalog ++ supplier situation)
    exact hranking.nodup.sublist ((firstResults_sublist maxResults _).map _)

end Ranking

namespace Engine

/-- What is offered at a cursor is offered for the situation at the position that the cursor stands for. -/
theorem complete_eq (engine : Engine) (text : Text) (cursor : Int) :
    let situation := engine.situationAt text cursor
    engine.complete text cursor =
      ⟨situation.trigger, situation,
        (engine.rank situation.trigger situation).map (·.completion)⟩ := by
  unfold complete situationAt
  rw [Cursor.situationAt_eq]
  rfl

end Engine

namespace Dropdown

variable (engine : Engine) (text : Text) (cursor : Int)

/-- The gate before the list and the gate of the ranking agree, wherever the cursor is. -/
theorem mayOffer_eq_isWanted : mayOffer engine text cursor =
    Ranking.isWanted (engine.complete text cursor).trigger (engine.complete text cursor).situation := by
  have htyped (typed : Text) : (!typed.isEmpty) = decide (typed ≠ []) := by
    cases typed <;> rfl
  rw [engine.complete_eq]
  unfold mayOffer Ranking.isWanted
  simp only [htyped, Bool.or_assoc]

theorem labels_choices :
    (choices engine text cursor).map (·.label) = (engine.complete text cursor).items.map label := by
  unfold choices
  rw [List.map_map]
  rfl

theorem labels_nodup : ((engine.complete text cursor).items.map label).Nodup := by
  have hkeys := Ranking.keys_rank_nodup engine.catalog engine.supplier
    engine.settings.rootIdentifier engine.settings.maxResults
    (engine.complete text cursor).trigger (engine.complete text cursor).situation
  unfold Engine.complete Engine.rank
  dsimp only
  rw [List.map_map]
  exact hkeys

variable {engine text cursor}

/-- The label of a completion on offer is found at this completion and at no other. -/
theorem find?_label {c : Completion} (hc : c ∈ (engine.complete text cursor).items) :
    (engine.complete text cursor).items.find? (fun d => label d = label c) = some c := by
  cases hfound : (engine.complete text cursor).items.find? (fun d => label d = label c) with
  | none =>
    have hnone := List.find?_eq_none.1 hfound c hc
    simp at hnone
  | some d =>
    have hlabel : label d = label c := by simpa using List.find?_some hfound
    have hd := List.mem_of_find?_eq_some hfound
    exact congrArg some (List.inj_on_of_nodup_map (labels_nodup engine text cursor) hd hc hlabel)

theorem pick_label {c : Completion} (hc : c ∈ (engine.complete text cursor).items) :
    pick engine (label c) text cursor =
      Edit.apply text cursor c (engine.complete text cursor).trigger := by
  unfold pick
  dsimp only
  rw [find?_label hc]

theorem pick_of_not_mem {picked : Text}
    (h : picked ∉ (engine.complete text cursor).items.map label) :
    pick engine picked text cursor = ⟨text, cursor⟩ := by
  have hnone : (engine.complete text cursor).items.find? (fun c => label c = picked) = none := by
    refine List.find?_eq_none.2 fun c hc hlabel => h ?_
    rw [decide_eq_true_eq] at hlabel
    exact hlabel ▸ List.mem_map_of_mem hc
  unfold pick
  dsimp only
  rw [hnone]

theorem choices_of_not_mayOffer (h : mayOffer engine text cursor = false) :
    choices engine text cursor = [] := by
  have hitems : (engine.complete text cursor).items = [] := by
    show List.map _ (Ranking.rank ..) = []
    rw [Ranking.rank_of_not_wanted (Bool.eq_false_iff.1 (mayOffer_eq_isWanted engine text cursor ▸ h)),
      List.map_nil]
  unfold choices
  rw [hitems, List.map_nil]

variable (engine text cursor) in
/-- The labels of the choices are all different, one for each completion on offer; a label does what
accepting its completion for the offered trigger does; any other label changes nothing; and where there
are choices, something may be offered. -/
theorem choices_faithful :
    ((choices engine text cursor).map (·.label)).Nodup ∧
      (choices engine text cursor).length = (engine.complete text cursor).items.length ∧
      (∀ (i : Nat) (line : Choice), (choices engine text cursor)[i]? = some line →
        ∃ c, (engine.complete text cursor).items[i]? = some c ∧
          pick engine line.label text cursor =
            Edit.apply text cursor c (engine.complete text cursor).trigger) ∧
      (∀ picked, picked ∉ (choices engine text cursor).map (·.label) →
        pick engine picked text cursor = ⟨text, cursor⟩) ∧
      (choices engine text cursor ≠ [] → mayOffer engine text cursor = true) := by
  rw [labels_choices]
  refine ⟨labels_nodup engine text cursor, List.length_map _, ?_, fun picked => pick_of_not_mem, ?_⟩
  · intro i line hline
    unfold choices at hline
    rw [List.getElem?_map] at hline
    obtain ⟨c, hc, rfl⟩ := Option.map_eq_some_iff.1 hline
    exact ⟨c, hc, pick_label (List.mem_of_getElem? hc)⟩
  · intro hne
    by_contra hnot
    exact hne (choices_of_not_mayOffer (Bool.not_eq_true _ ▸ hnot))

/-- Of two completions with one label the better one is on the list, and picking the label accepts it,
although the other one comes first in the catalog. -/
theorem choices_faithful_one_label :
    let plain : Completion := { trigger := (".limit" : String), kind := some .method }
    let better : Completion := { plain with suggestion := ("(10)" : String), priority := 5 }
    let engine : Engine := { catalog := [plain, better] }
    choices engine ("f().li" : String) 6 = [⟨("ƒ" : String), (".limit" : String)⟩] ∧
      pick engine (".limit" : String) ("f().li" : String) 6 =
        ⟨("f().limit(10)" : String), 13⟩ ∧
      pick engine ("ƒ" : String) ("f().li" : String) 6 = ⟨("f().li" : String), 6⟩ ∧
      mayOffer engine ("f().li" : String) 6 = true := by
  intro plain better engine
  have hchoices : choices engine ("f().li" : String) 6 =
      [⟨("ƒ" : String), (".limit" : String)⟩] := by decide
  have hitem : (engine.complete ("f().li" : String) 6).items[0]? = some better := by decide
  obtain ⟨-, -, hpick, hother, hoffer⟩ := choices_faithful engine ("f().li" : String) 6
  rw [hchoices] at hpick hother hoffer
  refine ⟨hchoices, ?_, hother _ (by decide), hoffer (List.cons_ne_nil _ _)⟩
  obtain ⟨c, hc, hedit⟩ := hpick 0 ⟨("ƒ" : String), (".limit" : String)⟩ rfl
  obtain rfl : c = better := Option.some_injective _ (hc.symm.trans hitem)
  exact hedit.trans (by decide)

end Dropdown

end FluentQuery
