/-
  Stable sorting by insertion: the members of a list in an order in which none stands behind one that
  it is above of, and members that are not above one another as they stood before.
-/

namespace FluentQuery

/-- The list with `x` in front of the first member that is not above it. -/
def insertBy {α : Type} (above : α → α → Bool) (x : α) : List α → List α
  | [] => [x]
  | y :: ys => if above y x then y :: insertBy above x ys else x :: y :: ys

/-- The list in order. -/
def stableSort {α : Type} (above : α → α → Bool) : List α → List α
  | [] => []
  | x :: xs => insertBy above x (stableSort above xs)

theorem insertBy_perm {α : Type} (above : α → α → Bool) (x : α) (l : List α) :
    (insertBy above x l).Perm (x :: l) := by
  induction l with
  | nil => exact .refl _
  | cons y ys ih =>
    unfold insertBy
    split
    · exact (List.Perm.cons y ih).trans (List.Perm.swap x y ys)
    · exact .refl _

/-- Sorting keeps every member as often as it is there. -/
theorem stableSort_perm {α : Type} (above : α → α → Bool) (l : List α) :
    (stableSort above l).Perm l := by
  induction l with
  | nil => exact .refl _
  | cons x xs ih => exact (insertBy_perm above x _).trans (List.Perm.cons x ih)

section Order

variable {α : Type} {above : α → α → Bool} {R : α → α → Prop}
variable (asymm : ∀ a b, above a b = true → above b a = false)
  (trans : ∀ a b c, above a b = false → above b c = false → above a c = false)

include asymm trans

theorem insertBy_pairwise {x : α} {l : List α} (hx : ∀ y ∈ l, R x y)
    (h : l.Pairwise fun a b => above b a = false ∧ (above a b = true ∨ R a b)) :
    (insertBy above x l).Pairwise fun a b => above b a = false ∧ (above a b = true ∨ R a b) := by
  induction l with
  | nil => exact List.pairwise_singleton _ _
  | cons y ys ih =>
    obtain ⟨hy, hys⟩ := List.pairwise_cons.1 h
    unfold insertBy
    split
    · rename_i hyx
      refine List.pairwise_cons.2 ⟨?_, ih (fun z hz => hx z (List.mem_cons_of_mem _ hz)) hys⟩
      intro z hz
      rcases List.mem_cons.1 ((insertBy_perm above x ys).mem_iff.1 hz) with rfl | hz
      · exact ⟨asymm y z hyx, Or.inl hyx⟩
      · exact hy z hz
    · rename_i hyx
      refine List.pairwise_cons.2 ⟨?_, h⟩
      intro z hz
      refine ⟨?_, Or.inr (hx z hz)⟩
      -- behind `y`, which is not above `x`, nothing is above `x`
      rcases List.mem_cons.1 hz with rfl | hz
      · simpa using hyx
      · exact trans z y x (hy z hz).1 (by simpa using hyx)

/-- What stands before something else is above it, or is level with it and stood before it. -/
theorem stableSort_pairwise {l : List α} (h : l.Pairwise R) :
    (stableSort above l).Pairwise fun a b => above b a = false ∧ (above a b = true ∨ R a b) := by
  induction l with
  | nil => exact List.Pairwise.nil
  | cons x xs ih =>
    obtain ⟨hx, hxs⟩ := List.pairwise_cons.1 h
    apply insertBy_pairwise asymm trans _ (ih hxs)
    intro y hy
    exact hx y ((stableSort_perm above xs).mem_iff.1 hy)

end Order

end FluentQuery
