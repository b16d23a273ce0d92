/-
  Ranking and the order of the pool. Which keys there are and what their scores are depends only on which
  candidates are in the pool (`IsRanking.keyScores_perm`); its order decides no more than which of several
  equal candidates stands for a key, and how equal entries are arranged. `rank_of_pool_perm`: so pools with
  the same candidates, however they are split between catalog and supplier, have results with the same
  scores, which differ at most in keys of the last score; and candidates that come up a second time, behind
  all others, change nothing.
-/
import FluentQuery.Proofs.Completion.TopResults

namespace FluentQuery.Ranking

/-! ## The score of a key -/

section Specification

variable (root trigger : Text) (situation : Situation)

/-- Whether a score is that of a key: the highest one among the qualified candidates with the key. -/
def IsKeyScore (pool : List Completion) (key : Text) (score : Int) : Prop :=
  (∃ c ∈ pool, Qualifies root trigger situation c ∧ c.key = key ∧
      finalScore root trigger situation c = score) ∧
    ∀ c ∈ pool, Qualifies root trigger situation c → c.key = key →
      finalScore root trigger situation c ≤ score

end Specification

/-- Key and score of an entry. -/
def keyScore (r : Ranked) : Text × Int := (r.completion.key, r.score)

variable {root trigger : Text} {situation : Situation} {pool other more : List Completion}
  {xs ys entries : List Ranked}

theorem isKeyScore_congr (h : ∀ c, c ∈ pool ↔ c ∈ other) (key : Text) (score : Int) :
    IsKeyScore root trigger situation pool key score ↔
      IsKeyScore root trigger situation other key score := by
  simp only [IsKeyScore, h]

theorem LeadsKey.isKeyScore {c : Completion} (h : LeadsKey root trigger situation pool c) :
    IsKeyScore root trigger situation pool c.key (finalScore root trigger situation c) := by
  obtain ⟨earlier, later, hpool, hq, -⟩ := id h
  exact ⟨⟨c, h.mem, hq, rfl, rfl⟩, fun d hd hqd hk => h.le hd hqd hk⟩

theorem IsKeyScore.unique {key : Text} {a b : Int}
    (ha : IsKeyScore root trigger situation pool key a)
    (hb : IsKeyScore root trigger situation pool key b) : a = b := by
  obtain ⟨⟨c, hc, hqc, hkc, rfl⟩, hmaxc⟩ := ha
  obtain ⟨⟨d, hd, hqd, hkd, rfl⟩, hmaxd⟩ := hb
  exact Int.le_antisymm (hmaxd c hc hqc hkc) (hmaxc d hd hqd hkd)

/-- A ranking has an entry with a key and a score exactly if the score is that of the key. -/
theorem IsRanking.mem_keyScores_iff (h : IsRanking root trigger situation pool entries) (key : Text)
    (score : Int) : (key, score) ∈ entries.map keyScore ↔
      IsKeyScore root trigger situation pool key score := by
  have hentry : ∀ r ∈ entries,
      IsKeyScore root trigger situation pool r.completion.key r.score := by
    intro r hr
    obtain ⟨hscore, hleads⟩ := h.entry r hr
    rw [hscore]
    exact hleads.isKeyScore
  constructor
  · intro hmem
    obtain ⟨r, hr, heq⟩ := List.mem_map.1 hmem
    cases heq
    exact hentry r hr
  · intro hscore
    obtain ⟨c, hc, hq, hk, -⟩ := hscore.1
    obtain ⟨r, hr, hkey⟩ := List.mem_map.1 ((h.mem_iff key).2 ⟨c, hc, hq, hk⟩)
    have hsame := hentry r hr
    rw [hkey] at hsame
    exact List.mem_map.2 ⟨r, hr, by rw [keyScore, hkey, hsame.unique hscore]⟩

theorem IsRanking.keyScores_nodup (h : IsRanking root trigger situation pool entries) :
    (entries.map keyScore).Nodup := by
  refine List.Nodup.of_map Prod.fst ?_
  rw [List.map_map]
  exact h.nodup

/-- Pools with the same candidates have rankings with the same keys and scores. -/
theorem IsRanking.keyScores_perm (hx : IsRanking root trigger situation pool xs)
    (hy : IsRanking root trigger situation other ys) (h : ∀ c, c ∈ pool ↔ c ∈ other) :
    (xs.map keyScore).Perm (ys.map keyScore) := by
  rw [List.perm_ext_iff_of_nodup hx.keyScores_nodup hy.keyScores_nodup]
  rintro ⟨key, score⟩
  rw [hx.mem_keyScores_iff, hy.mem_keyScores_iff, isKeyScore_congr h]

theorem IsRanking.scores_pairwise (h : IsRanking root trigger situation pool entries) :
    (entries.map Ranked.score).Pairwise fun a b => b ≤ a :=
  List.pairwise_map.2 (h.ordered.imp GoesBefore.score_le)

/-- Pools with the same candidates have rankings with the same scores, in the same order. -/
theorem IsRanking.scores_eq (hx : IsRanking root trigger situation pool xs)
    (hy : IsRanking root trigger situation other ys) (h : ∀ c, c ∈ pool ↔ c ∈ other) :
    xs.map Ranked.score = ys.map Ranked.score := by
  have hperm := (hx.keyScores_perm hy h).map Prod.snd
  rw [List.map_map, List.map_map] at hperm
  exact hperm.eq_of_pairwise (fun a b _ _ hab hba => Int.le_antisymm hba hab) hx.scores_pairwise
    hy.scores_pairwise

/-! ## Candidates that come up again -/

theorem LeadsKey.append_again {c : Completion} (h : LeadsKey root trigger situation pool c)
    (hmore : ∀ d ∈ more, d ∈ pool) : LeadsKey root trigger situation (pool ++ more) c :=
  h.append fun d hd hq hk => h.le (hmore d hd) hq hk

/-- Candidates that are in the pool already do not change its ranking when they are appended to it. -/
theorem IsRanking.append_again (h : IsRanking root trigger situation pool entries)
    (hmore : ∀ d ∈ more, d ∈ pool) : IsRanking root trigger situation (pool ++ more) entries := by
  refine ⟨h.nodup, ?_, fun r hr => ⟨(h.entry r hr).1, (h.entry r hr).2.append_again hmore⟩, ?_⟩
  · intro key
    rw [h.mem_iff]
    constructor
    · rintro ⟨c, hc, hq⟩
      exact ⟨c, List.mem_append_left _ hc, hq⟩
    · rintro ⟨c, hc, hq⟩
      exact ⟨c, (List.mem_append.1 hc).elim id (hmore c), hq⟩
  · refine h.ordered.imp_of_mem ?_
    intro a b ha hb hab
    exact (goesBefore_append_iff more (h.exists_of_mem ha) (h.exists_of_mem hb)).2 hab

theorem rankAll_append_again (hmore : ∀ d ∈ more, d ∈ pool) :
    rankAll root trigger situation (pool ++ more) = rankAll root trigger situation pool :=
  (isRanking_rankAll _ _ _ _).unique ((isRanking_rankAll _ _ _ _).append_again hmore)

/-! ## The results -/

/-- How many of so many results are given. -/
def resultCount (maxResults : Int) (available : Nat) : Nat :=
  if 0 ≤ maxResults then maxResults.toNat else available - maxResults.natAbs

theorem firstResults_eq_take {α : Type} (maxResults : Int) (results : List α) :
    firstResults maxResults results = results.take (resultCount maxResults results.length) := by
  unfold firstResults resultCount
  split <;> rfl

theorem map_firstResults {α β : Type} (f : α → β) (maxResults : Int) (results : List α) :
    (firstResults maxResults results).map f = firstResults maxResults (results.map f) := by
  rw [firstResults_eq_take, firstResults_eq_take, List.map_take, List.length_map]

/-- Fewer results than asked for are all there are. -/
theorem firstResults_of_length_lt {α : Type} {maxResults : Int} {results : List α}
    (h : ((firstResults maxResults results).length : Int) < maxResults) :
    firstResults maxResults results = results := by
  have hpos : 0 ≤ maxResults := by omega
  unfold firstResults at h ⊢
  rw [if_pos hpos] at h ⊢
  rw [List.length_take] at h
  exact List.take_of_length_le (by omega)

/-- A key with a higher score than one of the results is among the results. -/
theorem IsRanking.mem_firstResults_of_lt (h : IsRanking root trigger situation pool entries)
    {maxResults : Int} {r : Ranked} (hr : r ∈ firstResults maxResults entries) {key : Text} {score : Int}
    (hscore : IsKeyScore root trigger situation pool key score) (hlt : r.score < score) :
    key ∈ (firstResults maxResults entries).map (·.completion.key) := by
  rw [firstResults_eq_take] at hr ⊢
  obtain ⟨c, hc, hq, rfl, rfl⟩ := hscore.1
  by_contra hkey
  exact absurd (h.le_of_not_mem_take _ hc hq hkey hr) (Int.not_le.2 hlt)

theorem IsRanking.mem_firstResults_of_last (h : IsRanking root trigger situation pool entries)
    {maxResults last : Int}
    (hlast : ((firstResults maxResults entries).map Ranked.score).getLast? = some last) {key : Text}
    {score : Int} (hscore : IsKeyScore root trigger situation pool key score) (hlt : last < score) :
    key ∈ (firstResults maxResults entries).map (·.completion.key) := by
  obtain ⟨r, hr, rfl⟩ := List.mem_map.1 (List.mem_of_getLast? hlast)
  exact h.mem_firstResults_of_lt hr hscore hlt

/-- Where not all of the keys are given, there are as many results as asked for. -/
theorem IsRanking.mem_firstResults_of_length_lt
    (h : IsRanking root trigger situation pool entries) {maxResults : Int}
    (hfew : ((firstResults maxResults entries).length : Int) < maxResults) (key : Text) :
    key ∈ (firstResults maxResults entries).map (·.completion.key) ↔
      ∃ c ∈ pool, Qualifies root trigger situation c ∧ c.key = key := by
  rw [firstResults_of_length_lt hfew, h.mem_iff]

/-- Two pools that hold the same candidates in different orders, split between catalog and supplier in any
way, have results with the same scores. A key whose score is above the last one is in both results; if there
are fewer results than asked for, both have the same keys; and candidates of the pool that are appended to it
once more leave the results as they are. -/
theorem rank_of_pool_perm {catalog supplied catalog' supplied' : List Completion}
    (h : (catalog ++ supplied).Perm (catalog' ++ supplied')) (root : Text) (maxResults : Int)
    (trigger : Text) (situation : Situation) :
    let results := rank catalog (fun _ => supplied) root maxResults trigger situation
    let results' := rank catalog' (fun _ => supplied') root maxResults trigger situation
    results.map Ranked.score = results'.map Ranked.score ∧
      (∀ last, (results.map Ranked.score).getLast? = some last → ∀ key score,
        IsKeyScore root trigger situation (catalog ++ supplied) key score → last < score →
          key ∈ results.map (·.completion.key) ∧ key ∈ results'.map (·.completion.key)) ∧
      ((results.length : Int) < maxResults →
        ∀ key, key ∈ results.map (·.completion.key) ↔ key ∈ results'.map (·.completion.key)) ∧
      ∀ more, (∀ c ∈ more, c ∈ catalog ++ supplied) →
        rank catalog (fun _ => supplied ++ more) root maxResults trigger situation = results := by
  intro results results'
  by_cases hwanted : isWanted trigger situation = true
  · have hresults : results = firstResults maxResults _ := rank_of_wanted hwanted _ _ _ _
    have hresults' : results' = firstResults maxResults _ := rank_of_wanted hwanted _ _ _ _
    have hx := isRanking_rankAll root trigger situation (catalog ++ supplied)
    have hy := isRanking_rankAll root trigger situation (catalog' ++ supplied')
    have hmem : ∀ c, c ∈ catalog ++ supplied ↔ c ∈ catalog' ++ supplied' := fun c => h.mem_iff
    have hscores : results.map Ranked.score = results'.map Ranked.score := by
      rw [hresults, hresults', map_firstResults, map_firstResults, hx.scores_eq hy hmem]
    have hlength : results.length = results'.length := by
      simpa using congrArg List.length hscores
    refine ⟨hscores, ?_, ?_, ?_⟩
    · intro last hlast key score hscore hlt
      have hlast' := hscores ▸ hlast
      have hscore' := (isKeyScore_congr hmem key score).1 hscore
      rw [hresults] at hlast ⊢
      rw [hresults'] at hlast' ⊢
      exact ⟨hx.mem_firstResults_of_last hlast hscore hlt,
        hy.mem_firstResults_of_last hlast' hscore' hlt⟩
    · intro hfew key
      have hfew' : (results'.length : Int) < maxResults := hlength ▸ hfew
      rw [hresults] at hfew ⊢
      rw [hresults'] at hfew' ⊢
      rw [hx.mem_firstResults_of_length_lt hfew, hy.mem_firstResults_of_length_lt hfew']
      simp only [hmem]
    · intro more hmore
      rw [hresults, rank_of_wanted hwanted, ← List.append_assoc, rankAll_append_again hmore]
  · have hnone : results = [] := rank_of_not_wanted hwanted _ _ _ _
    have hnone' : results' = [] := rank_of_not_wanted hwanted _ _ _ _
    rw [hnone, hnone']
    exact ⟨rfl, nofun, fun _ _ => Iff.rfl, fun more _ => rank_of_not_wanted hwanted _ _ _ _⟩

/-- Of two keys with the same score the first one in the pool takes the last place, so the results differ;
their scores do not, the key above is in both, and a candidate that comes up again changes nothing. -/
theorem rank_of_pool_perm_level_keys :
    let adding : Completion := { trigger := (".add" : String) }
    let setting : Completion := { trigger := (".set" : String) }
    let filtering : Completion := { trigger := (".where" : String) }
    let situation : Situation := ⟨false, ("." : String), false, true, false, none⟩
    let results (catalog supplied : List Completion) : List Ranked :=
      rank catalog (fun _ => supplied) ("db" : String) 2 ("." : String) situation
    ([adding] ++ [setting, filtering]).Perm ([setting, filtering] ++ [adding]) ∧
      (results [adding] [setting, filtering]).map (·.completion.key) =
        [(".where" : String), (".add" : String)] ∧
      (results [setting, filtering] [adding]).map (·.completion.key) =
        [(".where" : String), (".set" : String)] ∧
      (results [adding] [setting, filtering]).map Ranked.score =
        (results [setting, filtering] [adding]).map Ranked.score ∧
      filtering.key ∈ (results [setting, filtering] [adding]).map (·.completion.key) ∧
      results [adding] [setting, filtering, setting] = results [adding] [setting, filtering] := by
  intro adding setting filtering situation results
  have hperm : ([adding] ++ [setting, filtering]).Perm ([setting, filtering] ++ [adding]) :=
    List.perm_append_comm
  obtain ⟨hscores, hkeys, -, hagain⟩ :=
    rank_of_pool_perm hperm ("db" : String) 2 ("." : String) situation
  have hscore : IsKeyScore ("db" : String) ("." : String) situation
      ([adding] ++ [setting, filtering]) filtering.key 195 := by
    unfold IsKeyScore
    decide
  have hlast : ((results [adding] [setting, filtering]).map Ranked.score).getLast? = some 173 := by
    decide
  exact ⟨hperm, by decide, by decide, hscores, (hkeys 173 hlast _ _ hscore (by decide)).2,
    hagain [setting] (by simp)⟩

end FluentQuery.Ranking
