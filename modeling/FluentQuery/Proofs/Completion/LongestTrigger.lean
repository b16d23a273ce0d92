/-
  The completion whose trigger a text ends with. Bringing a list into order and taking the first member
  with a property is choosing the member that leads the others with it: all such members before it in the
  list are below it, and none behind it is above it (`find?_stableSort_eq_some_iff`). So what is found is
  the longest trigger that the text ends with as a word of its own, the first one of several
  (`find?_isLongestTrigger`).
-/
import FluentQuery.Completion.Lookup
import FluentQuery.Proofs.Text.Trim

namespace FluentQuery

/-! ## Searching in order -/

/-- Whether a member of the list has the property, is above all members before it that have it, and below
none behind it. -/
def Leads {α : Type} (above : α → α → Bool) (p : α → Bool) (l : List α) (c : α) : Prop :=
  ∃ earlier later, l = earlier ++ c :: later ∧ p c = true ∧
    (∀ d ∈ earlier, p d = true → above c d = true) ∧ ∀ d ∈ later, p d = true → above d c = false

section Search

variable {α : Type} {above : α → α → Bool} {p : α → Bool} {l : List α} {x c : α}

theorem Leads.mem (h : Leads above p l c) : c ∈ l := by
  obtain ⟨earlier, later, rfl, -⟩ := h
  exact List.mem_append_right _ List.mem_cons_self

theorem Leads.unique {d : α} (hc : Leads above p l c) (hd : Leads above p l d) : c = d := by
  obtain ⟨earlier, later, hl, hpc, hearlier, hlater⟩ := hc
  obtain ⟨earlier', later', hl', hpd, hearlier', hlater'⟩ := hd
  -- of two different places one comes first, and both members would have to lead there
  rcases List.append_eq_append_iff.1 (hl.symm.trans hl') with ⟨between, hb, hb'⟩ | ⟨between, hb, hb'⟩
  · cases between with
    | nil => exact (List.cons.inj hb').1
    | cons y between =>
      obtain ⟨rfl, rfl⟩ := List.cons.inj hb'
      have habove := hearlier' c (by simp [hb]) hpc
      rw [hlater d (by simp) hpd] at habove
      cases habove
  · cases between with
    | nil => exact (List.cons.inj hb').1.symm
    | cons y between =>
      obtain ⟨rfl, rfl⟩ := List.cons.inj hb'
      have habove := hearlier d (by simp [hb]) hpd
      rw [hlater' c (by simp) hpc] at habove
      cases habove

theorem find?_insertBy_of_neg (hx : ¬p x = true) : (insertBy above x l).find? p = l.find? p := by
  induction l with
  | nil => simp [insertBy, hx]
  | cons y ys ih =>
    unfold insertBy
    split
    · rw [List.find?_cons, List.find?_cons, ih]
    · rw [List.find?_cons_of_neg hx]

variable (trans : ∀ a b c, above a b = false → above b c = false → above a c = false)

include trans

/-- A member that is put in its place is found unless something above it was found before. -/
theorem find?_insertBy (hl : l.Pairwise fun a b => above b a = false) (hx : p x = true) :
    (insertBy above x l).find? p =
      some (match l.find? p with
        | some y => if above y x then y else x
        | none => x) := by
  induction l with
  | nil => simp [insertBy, hx]
  | cons y ys ih =>
    obtain ⟨hy, hys⟩ := List.pairwise_cons.1 hl
    unfold insertBy
    split
    · rename_i hyx
      by_cases hpy : p y = true
      · simp [hpy, hyx]
      · simp [hpy, ih hys]
    · rename_i hyx
      rw [List.find?_cons_of_pos hx]
      cases hfound : (y :: ys).find? p with
      | none => rfl
      | some z =>
        have hzx : above z x = false := by
          rcases List.mem_cons.1 (List.mem_of_find?_eq_some hfound) with rfl | hz
          · exact eq_false_of_ne_true hyx
          · exact trans z y x (hy z hz) (eq_false_of_ne_true hyx)
        simp [hzx]

variable (asymm : ∀ a b, above a b = true → above b a = false)

include asymm

theorem sorted_stableSort (l : List α) : (stableSort above l).Pairwise fun a b => above b a = false :=
  (stableSort_pairwise (R := fun _ _ => True) asymm trans (List.pairwise_of_forall fun _ _ => trivial)).imp
    And.left

/-- What a search in the ordered list finds leads the list. -/
theorem leads_of_find?_stableSort (h : (stableSort above l).find? p = some c) : Leads above p l c := by
  induction l generalizing c with
  | nil => cases h
  | cons x xs ih =>
    rw [stableSort] at h
    by_cases hx : p x = true
    · rw [find?_insertBy trans (sorted_stableSort trans asymm xs) hx] at h
      cases hfound : (stableSort above xs).find? p with
      | none =>
        rw [hfound] at h
        cases h
        refine ⟨[], xs, rfl, hx, List.forall_mem_nil _, fun d hd hpd => ?_⟩
        exact absurd hpd (List.find?_eq_none.1 hfound d ((stableSort_perm above xs).mem_iff.2 hd))
      | some y =>
        rw [hfound] at h
        obtain ⟨earlier, later, hxs, hpy, hearlier, hlater⟩ := ih hfound
        cases hyx : above y x with
        | true =>
          simp only [hyx, if_true, Option.some.injEq] at h
          subst h
          exact ⟨x :: earlier, later, by rw [hxs, List.cons_append], hpy,
            List.forall_mem_cons.2 ⟨fun _ => hyx, hearlier⟩, hlater⟩
        | false =>
          simp only [hyx, Bool.false_eq_true, if_false, Option.some.injEq] at h
          subst h
          -- what is not above `y` is not above `x` either
          refine ⟨[], xs, rfl, hx, List.forall_mem_nil _, fun d hd hpd => trans d y x ?_ hyx⟩
          rw [hxs] at hd
          rcases List.mem_append.1 hd with hd | hd
          · exact asymm y d (hearlier d hd hpd)
          · rcases List.mem_cons.1 hd with rfl | hd
            · exact Bool.eq_false_iff.2 fun hself => absurd (asymm d d hself) (by simp [hself])
            · exact hlater d hd hpd
    · rw [find?_insertBy_of_neg hx] at h
      obtain ⟨earlier, later, hxs, hpc, hearlier, hlater⟩ := ih h
      exact ⟨x :: earlier, later, by rw [hxs, List.cons_append], hpc,
        List.forall_mem_cons.2 ⟨fun hpx => absurd hpx hx, hearlier⟩, hlater⟩

/-- A search in the ordered list finds exactly what leads the list. -/
theorem find?_stableSort_eq_some_iff : (stableSort above l).find? p = some c ↔ Leads above p l c := by
  refine ⟨leads_of_find?_stableSort trans asymm, fun h => ?_⟩
  have hpc : p c = true := by
    obtain ⟨_, _, -, hpc, -⟩ := h
    exact hpc
  have hmem : c ∈ stableSort above l := (stableSort_perm above l).mem_iff.2 h.mem
  obtain ⟨d, hd⟩ := Option.isSome_iff_exists.1 (List.find?_isSome.2 ⟨c, hmem, hpc⟩)
  rw [hd, h.unique (leads_of_find?_stableSort trans asymm hd)]

end Search

namespace Lookup

/-! ## Triggers at the end of a text -/

/-- Whether the text ends with the trigger of the completion: as a word of its own, that is, without a
letter, a digit or an underscore in front of it, or anywhere if the trigger starts with a point. -/
def EndsWith (text : Text) (c : Completion) : Prop :=
  ∃ before, text = before ++ c.trigger ∧
    (c.trigger.head? = some (CodePoint.char '.') ∨ ∀ d, before.getLast? = some d → isWordChar d = false)

theorem atBoundary_append_iff (before trigger : Text) : atBoundary (before ++ trigger) trigger = true ↔
    trigger.head? = some (CodePoint.char '.') ∨
      ∀ d, before.getLast? = some d → isWordChar d = false := by
  have hpoint : Text.startsWith "." trigger = true ↔ trigger.head? = some (CodePoint.char '.') := by
    rw [Text.startsWith, List.isPrefixOf_iff_prefix, List.head?_eq_some_iff]
    constructor
    · rintro ⟨rest, rfl⟩
      exact ⟨rest, rfl⟩
    · rintro ⟨rest, rfl⟩
      exact ⟨rest, rfl⟩
  have hbefore : (before ++ trigger).reverse.drop trigger.length = before.reverse := by
    rw [List.reverse_append, List.drop_left' List.length_reverse]
  rw [atBoundary, hbefore, Bool.or_eq_true, hpoint, List.head?_reverse]
  refine or_congr_right ?_
  cases before.getLast? with
  | none => exact iff_of_true rfl nofun
  | some d => simp

/-- What the last line ends with, the whole text ends with, so looking at the line finds nothing more. -/
theorem suffix_or_suffix_lastLine_iff {trigger text : Text} :
    trigger <:+ text ∨ trigger <:+ Text.lastLine text ↔ trigger <:+ text :=
  or_iff_left_of_imp fun h => h.trans (Text.lastLine_suffix text)

theorem isEligible_iff {text : Text} {c : Completion} : isEligible text c = true ↔ EndsWith text c := by
  rw [isEligible, Bool.and_eq_true, Bool.or_eq_true, List.isSuffixOf_iff_suffix,
    List.isSuffixOf_iff_suffix, suffix_or_suffix_lastLine_iff]
  constructor
  · rintro ⟨⟨before, rfl⟩, hboundary⟩
    exact ⟨before, rfl, (atBoundary_append_iff before c.trigger).1 hboundary⟩
  · rintro ⟨before, rfl, hboundary⟩
    exact ⟨List.suffix_append _ _, (atBoundary_append_iff before c.trigger).2 hboundary⟩

/-- Whether the completion has the longest trigger of those in the list that the text ends with, and is
the first one with a trigger of this length. -/
def IsLongestTrigger (text : Text) (completions : List Completion) (c : Completion) : Prop :=
  ∃ earlier later, completions = earlier ++ c :: later ∧ EndsWith text c ∧
    (∀ d ∈ earlier, EndsWith text d → d.trigger.length < c.trigger.length) ∧
    ∀ d ∈ later, EndsWith text d → d.trigger.length ≤ c.trigger.length

theorem leads_iff_isLongestTrigger {text : Text} {completions : List Completion} {c : Completion} :
    Leads isLonger (isEligible text) completions c ↔ IsLongestTrigger text completions c := by
  simp only [Leads, IsLongestTrigger, isEligible_iff, isLonger, decide_eq_true_eq, decide_eq_false_iff_not,
    Nat.not_lt]

/-- In a text with a character in it the longest trigger that the text ends with is found, the first one of
several in the list, and nothing is found exactly if the text ends with none of the triggers. -/
theorem find?_isLongestTrigger {text : Text} (h : text ≠ []) (completions : List Completion) :
    (find? text completions = none ↔ ∀ c ∈ completions, ¬EndsWith text c) ∧
      ∀ c, find? text completions = some c ↔ IsLongestTrigger text completions c := by
  have hsort := stableSort_perm isLonger completions
  rw [find?, if_neg h]
  refine ⟨?_, fun c => ?_⟩
  · simp only [List.find?_eq_none, hsort.mem_iff, isEligible_iff]
  · rw [← leads_iff_isLongestTrigger]
    refine find?_stableSort_eq_some_iff (fun a b d hab hbd => ?_) (fun a b hab => ?_)
    · simp only [isLonger, decide_eq_false_iff_not] at hab hbd ⊢
      omega
    · simp only [isLonger, decide_eq_true_eq, decide_eq_false_iff_not] at hab ⊢
      omega

/-- The first of two completions with the trigger `.doc` is found on the second line. The longer `o.doc` is no
word of its own there, and `doc` is shorter. -/
theorem find?_isLongestTrigger_second_line :
    let completions : List Completion :=
      [{ trigger := ("doc" : String) }, { trigger := ("o.doc" : String) }, { trigger := (".doc" : String) },
        { trigger := (".doc" : String), priority := 5 }]
    let text : Text := ("doc\nfoo.doc" : String)
    find? text completions = some { trigger := (".doc" : String) } ∧
      IsLongestTrigger text completions { trigger := (".doc" : String) } := by
  intro completions text
  have hfound : find? text completions = some { trigger := (".doc" : String) } := by decide
  exact ⟨hfound, ((find?_isLongestTrigger (by decide) completions).2 _).1 hfound⟩

end Lookup

end FluentQuery
