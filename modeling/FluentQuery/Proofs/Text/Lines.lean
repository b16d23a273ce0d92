/-
  Texts line by line. A text is what reaches up to its last line break and the line behind it
  (`throughLast_append_lastLine`); what is appended without a line break goes to that line. And a text is
  what stands before its first line break, and what stands from there on.
-/
import FluentQuery.Proofs.Text.Trim

namespace FluentQuery.Text

/-- The part up to and including the last `c`, nothing if there is none. -/
def throughLast (c : CodePoint) (text : Text) : Text := (text.reverse.dropWhile (· ≠ c)).reverse

theorem throughLast_append_behindLast (c : CodePoint) (text : Text) :
    throughLast c text ++ behindLast c text = text := by
  unfold throughLast behindLast
  rw [← List.reverse_append, List.takeWhile_append_dropWhile, List.reverse_reverse]

theorem throughLast_append_lastLine (text : Text) : throughLast '\n' text ++ lastLine text = text :=
  throughLast_append_behindLast '\n' text

/-- Such a part is empty or ends in `c`. -/
theorem throughLast_eq (c : CodePoint) (text : Text) :
    throughLast c text = [] ∨ ∃ front, throughLast c text = front ++ [c] := by
  unfold throughLast
  cases hback : text.reverse.dropWhile (· ≠ c) with
  | nil => exact .inl rfl
  | cons d rest =>
    have hd := List.head?_dropWhile_not (· ≠ c) text.reverse
    rw [hback] at hd
    have hd : d = c := by simpa using hd
    exact .inr ⟨rest.reverse, by rw [hd, List.reverse_cons]⟩

theorem not_mem_behindLast (c : CodePoint) (text : Text) : c ∉ behindLast c text := by
  intro hmem
  unfold behindLast at hmem
  rw [List.mem_reverse] at hmem
  have hne := List.all_eq_true.1 List.all_takeWhile c hmem
  simp at hne

/-- What stands behind the last `c` does not matter up to it. -/
theorem throughLast_append_of_not_mem {c : CodePoint} {text : Text} (h : c ∉ text) (front : Text) :
    throughLast c (front ++ text) = throughLast c front := by
  have hwhole := throughLast_append_behindLast c (front ++ text)
  rw [behindLast_append_of_not_mem h] at hwhole
  conv at hwhole => rhs; rw [← throughLast_append_behindLast c front]
  rw [← List.append_assoc, List.append_cancel_right_eq, List.append_cancel_right_eq] at hwhole
  exact hwhole

/-- Nothing stands behind the last `c` of what reaches up to it. -/
theorem behindLast_throughLast (c : CodePoint) (text : Text) : behindLast c (throughLast c text) = [] := by
  rcases throughLast_eq c text with h | ⟨front, h⟩
  · rw [h]
    rfl
  · rw [h]
    unfold behindLast
    simp

theorem since_append_of_not_mem {c : CodePoint} {front : Text} (h : c ∉ front) (rest : Text) :
    since c (front ++ rest) = since c rest := by
  unfold since
  refine List.dropWhile_append_of_pos fun d hd => ?_
  simpa using fun heq : d = c => h (heq ▸ hd)

/-- Dropping characters before the first `c` leaves what stands from it on. -/
theorem since_suffix_drop {c : CodePoint} {text : Text} {position : Nat}
    (h : c ∉ text.take position) : since c text <:+ text.drop position := by
  have hsince := since_append_of_not_mem h (text.drop position)
  rw [List.take_append_drop] at hsince
  rw [hsince]
  exact List.dropWhile_suffix _

/-- The first `c` of a text cuts it. -/
theorem exists_since_eq {c : CodePoint} {front : Text} (h : c ∈ front) (rest : Text) :
    ∃ before after, front = before ++ c :: after ∧
      since c (front ++ rest) = c :: after ++ rest := by
  obtain ⟨before, after, rfl, hnot⟩ := List.eq_append_cons_of_mem h
  refine ⟨before, after, rfl, ?_⟩
  rw [List.append_assoc, since_append_of_not_mem hnot, since, List.cons_append,
    List.dropWhile_cons_of_neg (by simp)]

end FluentQuery.Text
