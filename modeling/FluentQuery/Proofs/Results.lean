/-
  Results that may be refused. Steps succeed if each of them does (`bind_eq_ok_iff`), and a list is read if
  each of its items is (`mapM_eq_ok_iff`). Where too many digits are the one cause, the causes of the steps
  add up (`RefusedIff`).
-/
import FluentQuery.Fault
import Mathlib

namespace FluentQuery

variable {α β γ ε : Type}

theorem bind_eq_ok_iff {result : Except ε α} {next : α → Except ε β} {b : β} :
    (result >>= next) = .ok b ↔ ∃ a, result = .ok a ∧ next a = .ok b := by
  cases result with
  | error fault => exact iff_of_false nofun nofun
  | ok a =>
    constructor
    · intro h
      exact ⟨a, rfl, h⟩
    · rintro ⟨_, ⟨⟩, h⟩
      exact h

/-- The first step that is refused is the refusal of all. -/
theorem bind_eq_error_iff {result : Except ε α} {next : α → Except ε β} {e : ε} :
    (result >>= next) = .error e ↔ result = .error e ∨ ∃ a, result = .ok a ∧ next a = .error e := by
  cases result with
  | error e' =>
    constructor
    · rintro ⟨⟩
      exact .inl rfl
    · rintro (⟨⟨⟩⟩ | ⟨_, ⟨⟩, _⟩)
      rfl
  | ok a =>
    constructor
    · intro h
      exact .inr ⟨a, rfl, h⟩
    · rintro (⟨⟨⟩⟩ | ⟨_, ⟨⟩, h⟩)
      exact h

theorem map_eq_ok_iff {result : Except ε α} {f : α → β} {b : β} :
    f <$> result = .ok b ↔ ∃ a, result = .ok a ∧ f a = b := by
  cases result with
  | error fault => exact iff_of_false nofun nofun
  | ok a =>
    constructor
    · rintro ⟨⟩
      exact ⟨a, rfl, rfl⟩
    · rintro ⟨_, ⟨⟩, rfl⟩
      rfl

/-- A list is read as the list of what its items are read as. -/
theorem mapM_eq_ok_iff {read : α → Except Fault β} {items : List α} {results : List β} :
    items.mapM read = .ok results ↔ List.Forall₂ (fun a b => read a = .ok b) items results := by
  induction items generalizing results with
  | nil =>
    rw [List.mapM_nil, List.forall₂_nil_left_iff]
    constructor
    · rintro ⟨⟩
      rfl
    · rintro rfl
      rfl
  | cons a rest ih =>
    rw [List.mapM_cons, List.forall₂_cons_left_iff, bind_eq_ok_iff]
    constructor
    · rintro ⟨b, hb, h⟩
      obtain ⟨bs, hbs, ⟨⟩⟩ := bind_eq_ok_iff.1 h
      exact ⟨b, bs, hb, ih.1 hbs, rfl⟩
    · rintro ⟨b, bs, hb, hbs, rfl⟩
      exact ⟨b, hb, bind_eq_ok_iff.2 ⟨bs, ih.2 hbs, rfl⟩⟩

/-- Every member of the second list has a partner in the first. -/
theorem forall₂_exists_of_mem_right {r : α → β → Prop} {as : List α} {bs : List β} (h : List.Forall₂ r as bs)
    {b : β} (hb : b ∈ bs) : ∃ a ∈ as, r a b := by
  induction h with
  | nil => cases hb
  | cons hr _ ih =>
    obtain rfl | hb := List.mem_cons.1 hb
    · exact ⟨_, List.mem_cons_self, hr⟩
    · obtain ⟨a, ha, hr⟩ := ih hb
      exact ⟨a, List.mem_cons_of_mem _ ha, hr⟩

/-- A list is read if each of its items is. -/
theorem exists_mapM_eq_ok {read : α → Except Fault β} {items : List α}
    (h : ∀ a ∈ items, ∃ b, read a = .ok b) : ∃ results, items.mapM read = .ok results := by
  induction items with
  | nil => exact ⟨[], rfl⟩
  | cons a rest ih =>
    obtain ⟨b, hb⟩ := h a List.mem_cons_self
    obtain ⟨bs, hbs⟩ := ih fun a' ha' => h a' (List.mem_cons_of_mem a ha')
    exact ⟨b :: bs, mapM_eq_ok_iff.2 (.cons hb (mapM_eq_ok_iff.1 hbs))⟩

/-- Exactly those lists are read of which every item is. -/
theorem exists_mapM_eq_ok_iff {read : α → Except Fault β} {items : List α} :
    (∃ results, items.mapM read = .ok results) ↔ ∀ a ∈ items, ∃ b, read a = .ok b := by
  refine ⟨?_, exists_mapM_eq_ok⟩
  rintro ⟨results, h⟩
  have hread := mapM_eq_ok_iff.1 h
  intro a ha
  obtain ⟨b, -, hb⟩ := forall₂_exists_of_mem_right hread.flip ha
  exact ⟨b, hb⟩

/-- Reading every item of a list that is read item by item. -/
theorem mapM_map_eq_ok {read : β → Except Fault γ} {text : α → β} {meaning : α → γ}
    {items : List α} (h : ∀ i ∈ items, read (text i) = .ok (meaning i)) :
    (items.map text).mapM read = .ok (items.map meaning) := by
  rw [mapM_eq_ok_iff, List.forall₂_map_left_iff, List.forall₂_map_right_iff, List.forall₂_same]
  exact h

/-- What is read item by item is replaced item by item. -/
theorem mapM_map_of_forall {read : α → Except Fault β} {f : α → α} {g : β → β}
    {items : List α} (h : ∀ a ∈ items, read (f a) = g <$> read a) :
    (items.map f).mapM read = List.map g <$> items.mapM read := by
  induction items with
  | nil => rfl
  | cons a rest ih =>
    rw [List.map_cons, List.mapM_cons, List.mapM_cons, h a List.mem_cons_self,
      ih fun b hb => h b (List.mem_cons_of_mem a hb)]
    cases read a with
    | error fault => rfl
    | ok b => cases rest.mapM read <;> rfl

/-! ## Refusals that add up -/

/-- A result that is refused under a condition and only then, and always for too many digits. -/
def RefusedIff {α : Type} (result : Except Fault α) (cause : Prop) : Prop :=
  ∀ fault, result = .error fault ↔ fault = .tooManyDigits ∧ cause

namespace RefusedIff

variable {result : Except Fault α} {cause cause' : Prop}

theorem ok (a : α) : RefusedIff (.ok a) False := by
  intro fault
  simp

theorem of_iff (h : RefusedIff result cause) (hcause : cause ↔ cause') :
    RefusedIff result cause' := by
  intro fault
  rw [h fault, hcause]

theorem not_of_ok (h : RefusedIff result cause) {a : α} (ha : result = .ok a) : ¬cause := by
  intro hcause
  have herror := (h .tooManyDigits).2 ⟨rfl, hcause⟩
  rw [ha] at herror
  cases herror

/-- What is not refused has a result. -/
theorem exists_ok_iff (h : RefusedIff result cause) : (∃ a, result = .ok a) ↔ ¬cause := by
  constructor
  · rintro ⟨a, ha⟩
    exact h.not_of_ok ha
  · intro hcause
    cases hresult : result with
    | error fault => exact absurd ((h fault).1 hresult).2 hcause
    | ok a => exact ⟨a, rfl⟩

/-- One step after the other: the first refusal is the refusal of both. -/
theorem bind {next : α → Except Fault β} (h : RefusedIff result cause)
    (hnext : ∀ a, result = .ok a → RefusedIff (next a) cause') :
    RefusedIff (result >>= next) (cause ∨ cause') := by
  intro fault
  cases hresult : result with
  | error e =>
    obtain ⟨rfl, hcause⟩ := (h e).1 hresult
    constructor
    · rintro ⟨⟩
      exact ⟨rfl, .inl hcause⟩
    · rintro ⟨rfl, -⟩
      rfl
  | ok a =>
    rw [or_iff_right (h.not_of_ok hresult)]
    exact hnext a hresult fault

theorem map_iff {f : α → β} : RefusedIff (f <$> result) cause ↔ RefusedIff result cause := by
  refine forall_congr' fun fault => iff_congr ?_ Iff.rfl
  cases result with
  | error e =>
    constructor
    · rintro ⟨⟩
      rfl
    · rintro ⟨⟩
      rfl
  | ok a => exact iff_of_false nofun nofun

theorem map (h : RefusedIff result cause) (f : α → β) : RefusedIff (f <$> result) cause :=
  map_iff.2 h

/-- A bound that has to be kept. -/
theorem of_bound {bound : Prop} [Decidable bound] (a : α) :
    RefusedIff (if bound then .ok a else .error .tooManyDigits) (¬bound) := by
  intro fault
  split
  · exact iff_of_false nofun fun h => h.2 ‹_›
  · exact ⟨fun h => ⟨(Except.error.inj h).symm, ‹_›⟩, fun h => h.1 ▸ rfl⟩

/-- A list is refused if one of its items is. -/
theorem mapM {f : α → Except Fault β} {items : List α} {cause : α → Prop}
    (h : ∀ a ∈ items, RefusedIff (f a) (cause a)) :
    RefusedIff (items.mapM f) (∃ a ∈ items, cause a) := by
  induction items with
  | nil => exact (ok []).of_iff (by simp)
  | cons a rest ih =>
    have hrest := ih fun b hb => h b (List.mem_cons_of_mem a hb)
    rw [List.mapM_cons]
    refine ((h a List.mem_cons_self).bind fun b _ => hrest.map (b :: ·)).of_iff ?_
    simp

end RefusedIff

end FluentQuery
