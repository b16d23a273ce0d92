/-
  Ranking and candidates that are new in the pool. What a new candidate touches moves up: it takes the lead
  of its key with a higher score, or brings up a key that was not there (`IsRanking.exists_improved`). An
  entry under another key stays as it is and has at least as many entries before it as it had
  (`IsRanking.idxOf_le`). `rank_of_pool_append`: so new candidates push results out, but bring back none.
-/
import FluentQuery.Proofs.Completion.PoolOrder

namespace FluentQuery.Ranking

variable {root trigger : Text} {situation : Situation} {pool more : List Completion}
  {xs ys : List Ranked}

/-- An entry stays when the pool grows, or a better one takes its key. -/
theorem IsRanking.exists_improved (hx : IsRanking root trigger situation pool xs)
    (hy : IsRanking root trigger situation (pool ++ more) ys) {e : Ranked} (he : e ∈ xs) :
    ∃ e' ∈ ys, e'.completion.key = e.completion.key ∧ (e' = e ∨ e.score < e'.score) := by
  obtain ⟨hscored, hleads⟩ := hx.entry e he
  have hscore : e.score = finalScore root trigger situation e.completion :=
    congrArg Ranked.score hscored
  have hmem : e.completion ∈ pool ++ more := List.mem_append_left more hleads.mem
  have hqualifies : Qualifies root trigger situation e.completion := by
    obtain ⟨-, -, -, hq, -⟩ := hleads
    exact hq
  obtain ⟨e', he', hkey⟩ := List.mem_map.1 ((hy.mem_iff _).2 ⟨_, hmem, hqualifies, rfl⟩)
  obtain ⟨hscored', hleads'⟩ := hy.entry e' he'
  have hscore' : e'.score = finalScore root trigger situation e'.completion :=
    congrArg Ranked.score hscored'
  refine ⟨e', he', hkey, ?_⟩
  rcases lt_or_ge e.score e'.score with hlt | hge
  · exact .inr hlt
  · left
    -- nothing new is better than the candidate of `e`, so it still stands for its key
    have hstays : LeadsKey root trigger situation (pool ++ more) e.completion := by
      refine hleads.append fun d hd hq hk => ?_
      have hle := hleads'.le (List.mem_append_right pool hd) hq (hk.trans hkey.symm)
      omega
    rw [hscored', hleads'.unique hstays hkey, ← hscored]

/-- An entry under a key that no new candidate has was there before. -/
theorem IsRanking.mem_of_append (hx : IsRanking root trigger situation pool xs)
    (hy : IsRanking root trigger situation (pool ++ more) ys) {r : Ranked} (hr : r ∈ ys)
    (hkey : r.completion.key ∉ more.map Completion.key) : r ∈ xs := by
  obtain ⟨c, hc, hq, hk⟩ := hy.exists_of_mem hr
  have hc : c ∈ pool := (List.mem_append.1 hc).resolve_right fun hnew =>
    hkey (hk ▸ List.mem_map_of_mem hnew)
  obtain ⟨e, he, hek⟩ := List.mem_map.1 ((hx.mem_iff _).2 ⟨c, hc, hq, hk⟩)
  obtain ⟨hscored, hleads⟩ := hx.entry e he
  obtain ⟨hscored', hleads'⟩ := hy.entry r hr
  have hstays : LeadsKey root trigger situation (pool ++ more) e.completion :=
    hleads.append fun d hd _ hdk => absurd (hdk.trans hek ▸ List.mem_map_of_mem hd) hkey
  have hsame : e = r := by rw [hscored, hstays.unique hleads' hek, ← hscored']
  exact hsame ▸ he

/-- What stood before an entry that stays, or what took its key, stands before that entry. -/
theorem IsRanking.goesBefore_improved (hx : IsRanking root trigger situation pool xs)
    (more : List Completion) {e e' r : Ranked} (he : e ∈ xs) (hr : r ∈ xs)
    (hbefore : GoesBefore root trigger situation pool e r)
    (himproved : e' = e ∨ e.score < e'.score) :
    GoesBefore root trigger situation (pool ++ more) e' r := by
  rcases himproved with rfl | hlt
  · exact (goesBefore_append_iff more (hx.exists_of_mem he) (hx.exists_of_mem hr)).2 hbefore
  · exact .inl (Int.lt_of_le_of_lt hbefore.score_le hlt)

/-- Whatever key had an entry before an entry that stays has one before it still. -/
theorem IsRanking.keys_before_subset {front back front' back' : List Ranked} {r : Ranked}
    (hx : IsRanking root trigger situation pool (front ++ r :: back))
    (hy : IsRanking root trigger situation (pool ++ more) (front' ++ r :: back')) :
    front.map (·.completion.key) ⊆ front'.map (·.completion.key) := by
  have hr : r ∈ front ++ r :: back := by simp
  have hnodup := hx.nodup
  rw [List.map_append, List.map_cons] at hnodup
  have hnot := (List.nodup_cons.1 (List.nodup_middle.1 hnodup)).1
  intro key hkey
  obtain ⟨e, he, rfl⟩ := List.mem_map.1 hkey
  have hex : e ∈ front ++ r :: back := List.mem_append_left _ he
  obtain ⟨e', he', hk, himproved⟩ := hx.exists_improved hy hex
  have hbefore := (List.pairwise_append.1 hx.ordered).2.2 e he r (by simp)
  have hbefore' := hx.goesBefore_improved more hex hr hbefore himproved
  have hne : e' ≠ r := by
    rintro rfl
    exact hnot (hk ▸ List.mem_append_left _ hkey)
  refine List.mem_map.2 ⟨e', ?_, hk⟩
  rcases List.mem_append.1 he' with he' | he'
  · exact he'
  · have hbehind : e' ∈ back' := (List.mem_cons.1 he').resolve_left hne
    have hordered := (List.pairwise_append.1 hy.ordered).2.1
    exact absurd (hbefore'.asymm ((List.pairwise_cons.1 hordered).1 e' hbehind)) hne

/-- An entry that stays has no fewer entries before it than it had. -/
theorem IsRanking.idxOf_le (hx : IsRanking root trigger situation pool xs)
    (hy : IsRanking root trigger situation (pool ++ more) ys) {r : Ranked} (hrx : r ∈ xs)
    (hry : r ∈ ys) : xs.idxOf r ≤ ys.idxOf r := by
  obtain ⟨front, back, rfl, hfront⟩ := List.eq_append_cons_of_mem hrx
  obtain ⟨front', back', rfl, hfront'⟩ := List.eq_append_cons_of_mem hry
  rw [List.idxOf_append_of_notMem hfront, List.idxOf_append_of_notMem hfront', List.idxOf_cons_self,
    List.idxOf_cons_self]
  have hnodup := hx.nodup
  rw [List.map_append] at hnodup
  have hle := ((List.Nodup.of_append_left hnodup).subperm (hx.keys_before_subset hy)).length_le
  rw [List.length_map, List.length_map] at hle
  omega

/-- So it is among as many first entries as before. -/
theorem IsRanking.mem_take_of_append (hx : IsRanking root trigger situation pool xs)
    (hy : IsRanking root trigger situation (pool ++ more) ys) {r : Ranked} {count : Nat}
    (hr : r ∈ ys.take count) (hkey : r.completion.key ∉ more.map Completion.key) :
    r ∈ xs.take count := by
  have hry : r ∈ ys := List.mem_of_mem_take hr
  have hrx : r ∈ xs := hx.mem_of_append hy hry hkey
  rw [List.mem_take_iff_idxOf_lt hry] at hr
  rw [List.mem_take_iff_idxOf_lt hrx]
  exact Nat.lt_of_le_of_lt (hx.idxOf_le hy hrx hry) hr

/-- Entries of both rankings are in the same order in both. -/
theorem IsRanking.sublist_of_subset (hx : IsRanking root trigger situation pool xs)
    (hy : IsRanking root trigger situation (pool ++ more) ys) {part part' : List Ranked}
    (hpart : part.Sublist xs) (hpart' : part'.Sublist ys) (h : part' ⊆ part) : part'.Sublist part := by
  have hnodup : part'.Nodup := (List.Nodup.of_map _ hy.nodup).sublist hpart'
  have hordered : part'.Pairwise (GoesBefore root trigger situation pool) := by
    refine (hy.ordered.sublist hpart').imp_of_mem ?_
    intro a b ha hb hab
    exact (goesBefore_append_iff more (hx.exists_of_mem (hpart.subset (h ha)))
      (hx.exists_of_mem (hpart.subset (h hb)))).1 hab
  have : Std.Antisymm (GoesBefore root trigger situation pool) := ⟨fun _ _ => GoesBefore.asymm⟩
  exact List.sublist_of_subperm_of_pairwise (hnodup.subperm h) hordered (hx.ordered.sublist hpart)

theorem IsRanking.filter_take_sublist (hx : IsRanking root trigger situation pool xs)
    (hy : IsRanking root trigger situation (pool ++ more) ys) (count : Nat) :
    ((ys.take count).filter fun r => r.completion.key ∉ more.map Completion.key).Sublist
      (xs.take count) := by
  refine hx.sublist_of_subset hy (List.take_sublist _ _)
    (List.filter_sublist.trans (List.take_sublist _ _)) ?_
  intro r hr
  obtain ⟨htake, hkey⟩ := List.mem_filter.1 hr
  exact hx.mem_take_of_append hy htake (of_decide_eq_true hkey)

/-- Where the pool grows by new candidates at its end, however the two pools are split between catalog and
supplier, every result under a key that no new candidate has was a result before, with the same candidate
and score, and these results keep their order. -/
theorem rank_of_pool_append {catalog catalog' : List Completion} {supplier supplier' : Supplier}
    {situation : Situation} {more : List Completion} {maxResults : Int}
    (hpool : catalog' ++ supplier' situation = catalog ++ supplier situation ++ more)
    (hmax : 1 ≤ maxResults) (root trigger : Text) :
    ((rank catalog' supplier' root maxResults trigger situation).filter fun r =>
        r.completion.key ∉ more.map Completion.key).Sublist
      (rank catalog supplier root maxResults trigger situation) := by
  by_cases hwanted : isWanted trigger situation = true
  · have hfirst (entries : List Ranked) : firstResults maxResults entries = entries.take _ :=
      if_pos (by omega)
    rw [rank_of_wanted hwanted, rank_of_wanted hwanted, hpool, hfirst, hfirst]
    exact (isRanking_rankAll _ _ _ _).filter_take_sublist (isRanking_rankAll _ _ _ _) _
  · rw [rank_of_not_wanted hwanted]
    exact List.nil_sublist _

/-- The new `.where` takes a place, and a `.set` of higher priority the first one, under a key that was
there. So `.add` is pushed out, and `.delete`, which no new candidate stands for, is still a result. -/
theorem rank_of_pool_append_pushed_out :
    let adding : Completion := { trigger := (".add" : String) }
    let setting : Completion := { trigger := (".set" : String) }
    let deleting : Completion := { trigger := (".delete" : String) }
    let pool : List Completion := [adding, setting, deleting]
    let more : List Completion :=
      [{ trigger := (".where" : String) }, { setting with priority := 50 }]
    let situation : Situation := ⟨false, ("." : String), false, true, false, none⟩
    let supplier : Supplier := fun _ => []
    let results (catalog : List Completion) : List Ranked :=
      rank catalog supplier ("db" : String) 3 ("." : String) situation
    (1 : Int) ≤ 3 ∧
      pool ++ more ++ supplier situation = pool ++ supplier situation ++ more ∧
      (results pool).map (·.completion.key) =
        [(".delete" : String), (".add" : String), (".set" : String)] ∧
      (results (pool ++ more)).map (·.completion.key) =
        [(".set" : String), (".where" : String), (".delete" : String)] ∧
      ((results (pool ++ more)).filter fun r =>
        r.completion.key ∉ more.map Completion.key).Sublist (results pool) := by
  intro adding setting deleting pool more situation supplier results
  have hmax : (1 : Int) ≤ 3 := by decide
  have hpool : pool ++ more ++ supplier situation = pool ++ supplier situation ++ more := by decide
  exact ⟨hmax, hpool, by decide, by decide,
    rank_of_pool_append hpool hmax ("db" : String) ("." : String)⟩

end FluentQuery.Ranking
