/-
  Ranking against its specification. A pool of completions has exactly one ranking: one entry for
  every key of a qualified candidate, the earliest of the best-scored candidates of that key, in the
  order of score, length of the trigger, and first appearance of the key (`IsRanking`). The table that
  is built up candidate by candidate keeps one such entry for every key seen so far (`isTable_table`),
  sorting it stably gives the ranking, and the results are its first entries
  (`rank_eq_take_ranking`).
-/
import FluentQuery.Completion.Ranking
import Mathlib

namespace FluentQuery.Ranking

/-! ## The specification -/

section Specification

variable (root trigger : Text) (situation : Situation)

/-- Whether the score of a candidate is positive before and after the adjustments. -/
def Qualifies (c : Completion) : Prop :=
  0 < baseScore root trigger situation c ∧ 0 < finalScore root trigger situation c

instance : DecidablePred (Qualifies root trigger situation) :=
  fun _ => inferInstanceAs (Decidable (_ ∧ _))

/-- A candidate with its score after adjustments. -/
def scored (c : Completion) : Ranked := ⟨c, finalScore root trigger situation c⟩

/-- Whether a candidate stands for its key: of the qualified candidates with that key, those before it
in the pool have a lower score and those behind it have no higher one. -/
def LeadsKey (pool : List Completion) (c : Completion) : Prop :=
  ∃ earlier later, pool = earlier ++ c :: later ∧ Qualifies root trigger situation c ∧
    (∀ d ∈ earlier, Qualifies root trigger situation d → d.key = c.key →
      finalScore root trigger situation d < finalScore root trigger situation c) ∧
    (∀ d ∈ later, Qualifies root trigger situation d → d.key = c.key →
      finalScore root trigger situation d ≤ finalScore root trigger situation c)

/-- The place in the pool of the first qualified candidate with a key. -/
def firstPosition (pool : List Completion) (key : Text) : Nat :=
  pool.findIdx fun c => Qualifies root trigger situation c ∧ c.key = key

/-- Whether an entry goes before another one: by score, then by length of the trigger, then by the
first place of the key. -/
def GoesBefore (pool : List Completion) (a b : Ranked) : Prop :=
  b.score < a.score ∨ a.score = b.score ∧
    (b.completion.trigger.length < a.completion.trigger.length ∨
      a.completion.trigger.length = b.completion.trigger.length ∧
        firstPosition root trigger situation pool a.completion.key <
          firstPosition root trigger situation pool b.completion.key)

/-- Whether a list is the ranking of a pool. -/
structure IsRanking (pool : List Completion) (entries : List Ranked) : Prop where
  /-- No key has two entries. -/
  nodup : (entries.map (·.completion.key)).Nodup
  /-- The keys are those of the qualified candidates. -/
  mem_iff : ∀ key, key ∈ entries.map (·.completion.key) ↔
    ∃ c ∈ pool, Qualifies root trigger situation c ∧ c.key = key
  /-- Every entry is the candidate that stands for its key, with its score. -/
  entry : ∀ r ∈ entries, r = scored root trigger situation r.completion ∧
    LeadsKey root trigger situation pool r.completion
  ordered : entries.Pairwise (GoesBefore root trigger situation pool)

end Specification

variable {root trigger : Text} {situation : Situation} {pool : List Completion}

/-! ## Scores are exact -/

theorem ten_dvd_points (trigger candidate : Text) : 10 ∣ Score.points trigger candidate := by
  unfold Score.points Score.plainPoints Score.normalizedPoints
  dsimp only
  split_ifs <;> omega

/-- No point is lost when a description counts three fifths of its points. -/
theorem descriptionPoints_mul_five (trigger description : Text) :
    Score.descriptionPoints trigger description * 5 = Score.points trigger description * 3 := by
  have h := ten_dvd_points trigger description
  unfold Score.descriptionPoints
  omega

/-! ## The candidate that stands for a key -/

theorem LeadsKey.mem {c : Completion} (h : LeadsKey root trigger situation pool c) : c ∈ pool := by
  obtain ⟨earlier, later, rfl, -⟩ := h
  simp

/-- No qualified candidate of its key has a higher score. -/
theorem LeadsKey.le {c d : Completion} (h : LeadsKey root trigger situation pool c) (hd : d ∈ pool)
    (hq : Qualifies root trigger situation d) (hk : d.key = c.key) :
    finalScore root trigger situation d ≤ finalScore root trigger situation c := by
  obtain ⟨earlier, later, rfl, -, hearlier, hlater⟩ := h
  rcases List.mem_append.1 hd with hd | hd
  · exact Int.le_of_lt (hearlier d hd hq hk)
  · rcases List.mem_cons.1 hd with rfl | hd
    · exact Int.le_refl _
    · exact hlater d hd hq hk

/-- A candidate stands for its key as long as nothing better is appended to the pool. -/
theorem LeadsKey.append {c : Completion} {more : List Completion}
    (h : LeadsKey root trigger situation pool c)
    (hmore : ∀ d ∈ more, Qualifies root trigger situation d → d.key = c.key →
      finalScore root trigger situation d ≤ finalScore root trigger situation c) :
    LeadsKey root trigger situation (pool ++ more) c := by
  obtain ⟨earlier, later, rfl, hq, hearlier, hlater⟩ := h
  refine ⟨earlier, later ++ more, by simp, hq, hearlier, ?_⟩
  intro e he
  rcases List.mem_append.1 he with he | he
  · exact hlater e he
  · exact hmore e he

/-- A candidate that all of its key before it are worse than stands for its key at the end. -/
theorem leadsKey_append_self {c : Completion} (hq : Qualifies root trigger situation c)
    (h : ∀ d ∈ pool, Qualifies root trigger situation d → d.key = c.key →
      finalScore root trigger situation d < finalScore root trigger situation c) :
    LeadsKey root trigger situation (pool ++ [c]) c :=
  ⟨pool, [], rfl, hq, h, by simp⟩

/-- A key is stood for by one candidate only. -/
theorem LeadsKey.unique {c d : Completion} (hc : LeadsKey root trigger situation pool c)
    (hd : LeadsKey root trigger situation pool d) (hk : c.key = d.key) : c = d := by
  obtain ⟨earlier, later, hpool, hqc, hearlier, hlater⟩ := hc
  obtain ⟨earlier', later', hpool', hqd, hearlier', hlater'⟩ := hd
  rcases List.append_eq_append_iff.1 (hpool.symm.trans hpool') with
    ⟨between, hb, hb'⟩ | ⟨between, hb, hb'⟩
  · cases between with
    | nil => exact (List.cons.inj hb').1
    | cons x between =>
      obtain ⟨rfl, rfl⟩ := List.cons.inj hb'
      have h1 := hearlier' c (by simp [hb]) hqc hk
      have h2 := hlater d (by simp) hqd hk.symm
      omega
  · cases between with
    | nil => exact (List.cons.inj hb').1.symm
    | cons x between =>
      obtain ⟨rfl, rfl⟩ := List.cons.inj hb'
      have h1 := hearlier d (by simp [hb]) hqd hk.symm
      have h2 := hlater' c (by simp) hqc hk
      omega

/-! ## First places -/

theorem firstPosition_lt {key : Text}
    (h : ∃ c ∈ pool, Qualifies root trigger situation c ∧ c.key = key) :
    firstPosition root trigger situation pool key < pool.length := by
  obtain ⟨c, hc, hq⟩ := h
  exact List.findIdx_lt_length_of_exists ⟨c, hc, by simpa using hq⟩

theorem firstPosition_append {key : Text} (more : List Completion)
    (h : ∃ c ∈ pool, Qualifies root trigger situation c ∧ c.key = key) :
    firstPosition root trigger situation (pool ++ more) key =
      firstPosition root trigger situation pool key := by
  have hlt := firstPosition_lt h
  unfold firstPosition at hlt ⊢
  rw [List.findIdx_append, if_pos hlt]

theorem le_firstPosition_append {key : Text} (more : List Completion)
    (h : ¬∃ c ∈ pool, Qualifies root trigger situation c ∧ c.key = key) :
    pool.length ≤ firstPosition root trigger situation (pool ++ more) key := by
  unfold firstPosition
  rw [List.findIdx_append, if_neg]
  · exact Nat.le_add_left _ _
  · rw [List.findIdx_lt_length]
    simpa using h

/-! ## The table, candidate by candidate -/

section Table

variable (root trigger : Text) (situation : Situation)

/-- The best of every key, in the order in which the keys come up in the pool. -/
def table (pool : List Completion) : List Ranked :=
  bestByKey (pool.filterMap (qualify? root trigger situation))

/-- What the table of a pool is: the candidates that stand for the keys, by first appearance. -/
structure IsTable (pool : List Completion) (entries : List Ranked) : Prop where
  increasing : (entries.map (·.completion.key)).Pairwise fun a b =>
    firstPosition root trigger situation pool a < firstPosition root trigger situation pool b
  mem_iff : ∀ key, key ∈ entries.map (·.completion.key) ↔
    ∃ c ∈ pool, Qualifies root trigger situation c ∧ c.key = key
  entry : ∀ r ∈ entries, r = scored root trigger situation r.completion ∧
    LeadsKey root trigger situation pool r.completion

end Table

theorem enter_of_new {e : Ranked} {entries : List Ranked}
    (h : ∀ r ∈ entries, r.completion.key ≠ e.completion.key) : enter e entries = entries ++ [e] := by
  induction entries with
  | nil => rfl
  | cons r rest ih =>
    have hr := h r (by simp)
    simp only [enter, hr, if_false]
    rw [ih fun s hs => h s (List.mem_cons_of_mem _ hs)]
    rfl

theorem enter_of_old {e old : Ranked} {front back : List Ranked}
    (hfront : ∀ r ∈ front, r.completion.key ≠ e.completion.key)
    (hold : old.completion.key = e.completion.key) :
    enter e (front ++ old :: back) =
      front ++ (if old.score < e.score then e else old) :: back := by
  induction front with
  | nil => simp [enter, hold]
  | cons r rest ih =>
    have hr := hfront r (by simp)
    simp only [List.cons_append, enter, hr, if_false]
    rw [ih fun s hs => hfront s (List.mem_cons_of_mem _ hs)]

theorem bestByKey_append (entries : List Ranked) (e : Ranked) :
    bestByKey (entries ++ [e]) = enter e (bestByKey entries) := by
  simp [bestByKey]

theorem table_append_of_qualifies {c : Completion} (h : Qualifies root trigger situation c) :
    table root trigger situation (pool ++ [c]) =
      enter (scored root trigger situation c) (table root trigger situation pool) := by
  have hc : qualify? root trigger situation c = some (scored root trigger situation c) := if_pos h
  unfold table
  rw [List.filterMap_append, ← bestByKey_append]
  simp [hc]

theorem table_append_of_not_qualifies {c : Completion} (h : ¬Qualifies root trigger situation c) :
    table root trigger situation (pool ++ [c]) = table root trigger situation pool := by
  have hc : qualify? root trigger situation c = none := if_neg h
  unfold table
  rw [List.filterMap_append]
  simp [hc]

theorem exists_qualified_append {c : Completion} {key : Text} :
    (∃ d ∈ pool ++ [c], Qualifies root trigger situation d ∧ d.key = key) ↔
      (∃ d ∈ pool, Qualifies root trigger situation d ∧ d.key = key) ∨
        Qualifies root trigger situation c ∧ c.key = key := by
  simp only [List.mem_append, List.mem_singleton, or_and_right, exists_or, exists_eq_left]

theorem IsTable.nodup {entries : List Ranked}
    (h : IsTable root trigger situation pool entries) :
    (entries.map (·.completion.key)).Nodup :=
  h.increasing.imp fun hlt he => by rw [he] at hlt; omega

/-- The keys that are there keep their places when the pool grows. -/
theorem IsTable.increasing_append {entries : List Ranked}
    (h : IsTable root trigger situation pool entries) (more : List Completion) :
    (entries.map (·.completion.key)).Pairwise fun a b =>
      firstPosition root trigger situation (pool ++ more) a <
        firstPosition root trigger situation (pool ++ more) b := by
  refine h.increasing.imp_of_mem ?_
  intro a b ha hb hab
  rw [firstPosition_append more ((h.mem_iff a).1 ha), firstPosition_append more ((h.mem_iff b).1 hb)]
  exact hab

theorem IsTable.append_of_not_qualifies {entries : List Ranked}
    (h : IsTable root trigger situation pool entries) {c : Completion}
    (hc : ¬Qualifies root trigger situation c) :
    IsTable root trigger situation (pool ++ [c]) entries where
  increasing := h.increasing_append [c]
  mem_iff key := by rw [h.mem_iff, exists_qualified_append]; simp [hc]
  entry r hr := ⟨(h.entry r hr).1, (h.entry r hr).2.append
    (List.forall_mem_singleton.2 fun hq => absurd hq hc)⟩

theorem IsTable.enter_of_new {entries : List Ranked}
    (h : IsTable root trigger situation pool entries) {c : Completion}
    (hc : Qualifies root trigger situation c)
    (hnew : c.key ∉ entries.map (·.completion.key)) :
    IsTable root trigger situation (pool ++ [c])
      (enter (scored root trigger situation c) entries) := by
  have hne : ∀ r ∈ entries, r.completion.key ≠ c.key := fun r hr he =>
    hnew (List.mem_map.2 ⟨r, hr, he⟩)
  have hnone : ¬∃ d ∈ pool, Qualifies root trigger situation d ∧ d.key = c.key :=
    fun hd => hnew ((h.mem_iff _).2 hd)
  rw [Ranking.enter_of_new hne]
  refine ⟨?_, ?_, ?_⟩
  · rw [List.map_append, List.pairwise_append]
    refine ⟨h.increasing_append [c], List.pairwise_singleton _ _, ?_⟩
    intro a ha b hb
    rw [List.map_singleton, List.mem_singleton] at hb
    have hlt := firstPosition_lt ((h.mem_iff a).1 ha)
    have hle := le_firstPosition_append [c] hnone
    rw [hb, firstPosition_append [c] ((h.mem_iff a).1 ha)]
    exact Nat.lt_of_lt_of_le hlt hle
  · intro key
    rw [exists_qualified_append, ← h.mem_iff, List.map_append, List.mem_append]
    simp [scored, hc, eq_comm]
  · intro r hr
    rcases List.mem_append.1 hr with hr | hr
    · refine ⟨(h.entry r hr).1, (h.entry r hr).2.append (List.forall_mem_singleton.2 ?_)⟩
      intro _ he
      exact absurd he.symm (hne r hr)
    · rw [List.mem_singleton.1 hr]
      refine ⟨rfl, leadsKey_append_self hc ?_⟩
      intro d hd hq hk
      exact absurd ⟨d, hd, hq, hk⟩ hnone

theorem IsTable.enter_of_old {entries : List Ranked}
    (h : IsTable root trigger situation pool entries) {c : Completion}
    (hc : Qualifies root trigger situation c) (hold : c.key ∈ entries.map (·.completion.key)) :
    IsTable root trigger situation (pool ++ [c])
      (enter (scored root trigger situation c) entries) := by
  obtain ⟨old, hmem, hkey⟩ := List.mem_map.1 hold
  obtain ⟨front, back, rfl⟩ := List.append_of_mem hmem
  obtain ⟨hscore, hleads⟩ := h.entry old hmem
  have hscore : old.score = finalScore root trigger situation old.completion :=
    congrArg Ranked.score hscore
  have hdistinct : ∀ r ∈ front ++ back, r.completion.key ≠ c.key := by
    have hnodup := h.nodup
    rw [List.map_append, List.map_cons, List.nodup_middle, ← List.map_append] at hnodup
    intro r hr he
    exact (List.nodup_cons.1 hnodup).1 (List.mem_map.2 ⟨r, hr, he.trans hkey.symm⟩)
  have hkeys : ∀ entry : Ranked, entry.completion.key = c.key →
      (front ++ entry :: back).map (·.completion.key) =
        (front ++ old :: back).map (·.completion.key) := by
    intro entry he
    simp [he, hkey]
  rw [Ranking.enter_of_old (fun r hr => hdistinct r (List.mem_append_left _ hr)) hkey]
  have hentry : (if old.score < (scored root trigger situation c).score then
      scored root trigger situation c else old).completion.key = c.key := by
    split
    · rfl
    · exact hkey
  refine ⟨?_, ?_, ?_⟩
  · rw [hkeys _ hentry]
    exact h.increasing_append [c]
  · intro key
    rw [hkeys _ hentry, exists_qualified_append, h.mem_iff]
    constructor
    · exact Or.inl
    · rintro (hd | ⟨-, rfl⟩)
      · exact hd
      · exact (h.mem_iff _).1 hold
  · intro r hr
    rcases List.mem_append.1 hr with hr | hr
    · exact ⟨(h.entry r (by simp [hr])).1, (h.entry r (by simp [hr])).2.append
        (List.forall_mem_singleton.2 fun _ he => absurd he.symm (hdistinct r (by simp [hr])))⟩
    rcases List.mem_cons.1 hr with rfl | hr
    · split
      · rename_i hlt
        refine ⟨rfl, leadsKey_append_self hc ?_⟩
        intro d hd hq hk
        have := hleads.le hd hq (hk.trans hkey.symm)
        simp only [scored] at hlt ⊢
        omega
      · rename_i hge
        refine ⟨(h.entry old hmem).1, hleads.append (List.forall_mem_singleton.2 ?_)⟩
        intro _ _
        simp only [scored] at hge
        omega
    · exact ⟨(h.entry r (by simp [hr])).1, (h.entry r (by simp [hr])).2.append
        (List.forall_mem_singleton.2 fun _ he => absurd he.symm (hdistinct r (by simp [hr])))⟩

theorem isTable_table (pool : List Completion) :
    IsTable root trigger situation pool (table root trigger situation pool) := by
  induction pool using List.reverseRecOn with
  | nil => exact ⟨List.Pairwise.nil, by simp [table, bestByKey], by simp [table, bestByKey]⟩
  | append_singleton pool c ih =>
    by_cases hc : Qualifies root trigger situation c
    · rw [table_append_of_qualifies hc]
      by_cases hk : c.key ∈ (table root trigger situation pool).map (·.completion.key)
      · exact ih.enter_of_old hc hk
      · exact ih.enter_of_new hc hk
    · rw [table_append_of_not_qualifies hc]
      exact ih.append_of_not_qualifies hc

/-! ## Sorting the table -/

theorem above_asymm (a b : Ranked) (h : above a b = true) : above b a = false := by
  simp only [above, Bool.or_eq_true, Bool.and_eq_true, decide_eq_true_eq, Bool.or_eq_false_iff,
    Bool.and_eq_false_iff, decide_eq_false_iff_not] at h ⊢
  omega

theorem above_trans (a b c : Ranked) (hab : above a b = false) (hbc : above b c = false) :
    above a c = false := by
  simp only [above, Bool.or_eq_false_iff, Bool.and_eq_false_iff, decide_eq_false_iff_not]
    at hab hbc ⊢
  omega

theorem goesBefore_of_above {a b : Ranked}
    (h : above b a = false ∧ (above a b = true ∨
      firstPosition root trigger situation pool a.completion.key <
        firstPosition root trigger situation pool b.completion.key)) :
    GoesBefore root trigger situation pool a b := by
  unfold GoesBefore
  simp only [above, Bool.or_eq_true, Bool.and_eq_true, decide_eq_true_eq, Bool.or_eq_false_iff,
    Bool.and_eq_false_iff, decide_eq_false_iff_not] at h
  omega

theorem isRanking_rankAll (root trigger : Text) (situation : Situation) (pool : List Completion) :
    IsRanking root trigger situation pool (rankAll root trigger situation pool) := by
  have ht : IsTable root trigger situation pool (table root trigger situation pool) :=
    isTable_table pool
  have hperm : (rankAll root trigger situation pool).Perm (table root trigger situation pool) :=
    stableSort_perm _ _
  refine ⟨?_, ?_, ?_, ?_⟩
  · rw [(hperm.map _).nodup_iff]
    exact ht.nodup
  · intro key
    rw [(hperm.map _).mem_iff, ht.mem_iff]
  · intro r hr
    exact ht.entry r (hperm.mem_iff.1 hr)
  · exact (stableSort_pairwise above_asymm above_trans
      (List.pairwise_map.1 ht.increasing)).imp goesBefore_of_above

/-! ## A pool has one ranking -/

theorem GoesBefore.asymm {a b : Ranked} (hab : GoesBefore root trigger situation pool a b)
    (hba : GoesBefore root trigger situation pool b a) : a = b := by
  unfold GoesBefore at hab hba
  omega

theorem GoesBefore.score_le {a b : Ranked} (h : GoesBefore root trigger situation pool a b) :
    b.score ≤ a.score := by
  unfold GoesBefore at h
  omega

/-- The keys that are there keep their order when the pool grows. -/
theorem goesBefore_append_iff {a b : Ranked} (more : List Completion)
    (ha : ∃ c ∈ pool, Qualifies root trigger situation c ∧ c.key = a.completion.key)
    (hb : ∃ c ∈ pool, Qualifies root trigger situation c ∧ c.key = b.completion.key) :
    GoesBefore root trigger situation (pool ++ more) a b ↔
      GoesBefore root trigger situation pool a b := by
  unfold GoesBefore
  rw [firstPosition_append more ha, firstPosition_append more hb]

theorem IsRanking.exists_of_mem {entries : List Ranked}
    (h : IsRanking root trigger situation pool entries) {r : Ranked} (hr : r ∈ entries) :
    ∃ c ∈ pool, Qualifies root trigger situation c ∧ c.key = r.completion.key :=
  (h.mem_iff _).1 (List.mem_map_of_mem hr)

theorem IsRanking.mem_of_mem {xs ys : List Ranked} (hx : IsRanking root trigger situation pool xs)
    (hy : IsRanking root trigger situation pool ys) {r : Ranked} (hr : r ∈ xs) : r ∈ ys := by
  obtain ⟨r', hr', hk⟩ := List.mem_map.1 ((hy.mem_iff _).2 (hx.exists_of_mem hr))
  obtain ⟨he, hleads⟩ := hx.entry r hr
  obtain ⟨he', hleads'⟩ := hy.entry r' hr'
  have hc : r'.completion = r.completion := hleads'.unique hleads hk
  rw [he, ← hc, ← he']
  exact hr'

theorem IsRanking.unique {xs ys : List Ranked} (hx : IsRanking root trigger situation pool xs)
    (hy : IsRanking root trigger situation pool ys) : xs = ys := by
  have hperm : xs.Perm ys := by
    rw [List.perm_ext_iff_of_nodup (List.Nodup.of_map _ hx.nodup) (List.Nodup.of_map _ hy.nodup)]
    exact fun r => ⟨hx.mem_of_mem hy, hy.mem_of_mem hx⟩
  exact hperm.eq_of_pairwise (fun a b _ _ hab hba => hab.asymm hba) hx.ordered hy.ordered

/-! ## The results -/

/-- A qualified candidate whose key is not among the first entries has no higher score than any of
them. -/
theorem IsRanking.le_of_not_mem_take {entries : List Ranked}
    (h : IsRanking root trigger situation pool entries) (k : Nat) {c : Completion} (hc : c ∈ pool)
    (hq : Qualifies root trigger situation c)
    (hkey : c.key ∉ (entries.take k).map (·.completion.key)) {r : Ranked} (hr : r ∈ entries.take k) :
    finalScore root trigger situation c ≤ r.score := by
  obtain ⟨best, hbest, hk⟩ := List.mem_map.1 ((h.mem_iff c.key).2 ⟨c, hc, hq, rfl⟩)
  obtain ⟨hscore, hleads⟩ := h.entry best hbest
  have hscore : best.score = finalScore root trigger situation best.completion :=
    congrArg Ranked.score hscore
  have hdrop : best ∈ entries.drop k := by
    rw [← List.take_append_drop k entries, List.mem_append] at hbest
    rcases hbest with hbest | hbest
    · exact absurd (List.mem_map.2 ⟨best, hbest, hk⟩) hkey
    · exact hbest
  have hordered := h.ordered
  rw [← List.take_append_drop k entries] at hordered
  have hbefore := (List.pairwise_append.1 hordered).2.2 r hr best hdrop
  calc finalScore root trigger situation c
    _ ≤ finalScore root trigger situation best.completion := hleads.le hc hq hk.symm
    _ = best.score := hscore.symm
    _ ≤ r.score := hbefore.score_le

theorem isWanted_of {trigger : Text} {situation : Situation}
    (h : Text.trim trigger ≠ [] ∨ situation.call.isSome ∨ situation.inString ∨ situation.afterDot ∨
      situation.lineIsBlank) : isWanted trigger situation = true := by
  simpa [isWanted, or_assoc] using h

theorem rank_of_wanted {trigger : Text} {situation : Situation} (h : isWanted trigger situation = true)
    (catalog : List Completion) (supplier : Supplier) (root : Text) (maxResults : Int) :
    rank catalog supplier root maxResults trigger situation =
      firstResults maxResults (rankAll root trigger situation (catalog ++ supplier situation)) := by
  unfold rank
  rw [h]
  rfl

theorem rank_of_not_wanted {trigger : Text} {situation : Situation}
    (h : ¬isWanted trigger situation = true) (catalog : List Completion) (supplier : Supplier)
    (root : Text) (maxResults : Int) : rank catalog supplier root maxResults trigger situation = [] := by
  unfold rank
  rw [Bool.eq_false_iff.2 h]
  rfl

/-- Where there is anything to offer, the results are the first entries of the one ranking of the
pool. Their keys are distinct, they come from the pool, and no qualified candidate of another key has
a higher score than any of them. -/
theorem rank_eq_take_ranking (catalog : List Completion) (supplier : Supplier) (root : Text)
    (maxResults : Int) (trigger : Text) (situation : Situation) (hmax : 1 ≤ maxResults)
    (hwanted : Text.trim trigger ≠ [] ∨ situation.call.isSome ∨ situation.inString ∨
      situation.afterDot ∨ situation.lineIsBlank) :
    ∃ ranking : List Ranked,
      (∀ entries, IsRanking root trigger situation (catalog ++ supplier situation) entries ↔
        entries = ranking) ∧
      rank catalog supplier root maxResults trigger situation = ranking.take maxResults.toNat ∧
      ((rank catalog supplier root maxResults trigger situation).map (·.completion.key)).Nodup ∧
      (∀ r ∈ rank catalog supplier root maxResults trigger situation,
        r.completion ∈ catalog ++ supplier situation) ∧
      ∀ c ∈ catalog ++ supplier situation, Qualifies root trigger situation c →
        c.key ∉ (rank catalog supplier root maxResults trigger situation).map (·.completion.key) →
        ∀ r ∈ rank catalog supplier root maxResults trigger situation,
          finalScore root trigger situation c ≤ r.score := by
  have h := isRanking_rankAll root trigger situation (catalog ++ supplier situation)
  have htake : rank catalog supplier root maxResults trigger situation =
      (rankAll root trigger situation (catalog ++ supplier situation)).take maxResults.toNat := by
    rw [rank_of_wanted (isWanted_of hwanted)]
    exact if_pos (by omega)
  rw [htake]
  refine ⟨rankAll root trigger situation (catalog ++ supplier situation), ?_, rfl, ?_, ?_, ?_⟩
  · intro entries
    constructor
    · exact fun he => he.unique h
    · rintro rfl
      exact h
  · exact h.nodup.sublist ((List.take_sublist _ _).map _)
  · intro r hr
    exact (h.entry r (List.mem_of_mem_take hr)).2.mem
  · intro c hc hq hkey r hr
    exact h.le_of_not_mem_take _ hc hq hkey hr

/-- Of two completions with one key the better one stands for it, although it comes later. -/
theorem rank_limit_of_three :
    let catalog : List Completion :=
      [{ trigger := (".limit" : String), kind := some .method },
        { trigger := (".limit" : String), suggestion := ("(10)" : String), kind := some .method,
          priority := 5 }]
    let supplier : Supplier := fun _ => [{ trigger := (".limitToLast" : String) }]
    let situation : Situation := ⟨false, (".li" : String), false, true, false, none⟩
    (rank catalog supplier ("db" : String) 1 (".li" : String) situation).map
        (·.completion.suggestion) = [("(10)" : String)] ∧
      ∃ ranking : List Ranked,
        (∀ entries, IsRanking ("db" : String) (".li" : String) situation
          (catalog ++ supplier situation) entries ↔ entries = ranking) ∧
        rank catalog supplier ("db" : String) 1 (".li" : String) situation = ranking.take 1 := by
  intro catalog supplier situation
  have hmax : (1 : Int) ≤ 1 := by decide
  obtain ⟨ranking, hranking, htake, -⟩ := rank_eq_take_ranking catalog supplier ("db" : String) 1
    (".li" : String) situation hmax (Or.inl (by decide))
  exact ⟨by decide, ranking, hranking, htake⟩

end FluentQuery.Ranking
