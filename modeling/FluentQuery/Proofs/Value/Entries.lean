/-
  Entries under texts. An entry under a new text goes behind all others (`insert_named`), so entries under
  texts that are all different are a map as they stand (`ofList_named`). `Value.under` collects what stands
  under a text anywhere in a tree.
-/
import FluentQuery.Value.Basic
import Mathlib

namespace FluentQuery

/-- Entries that stand under texts. -/
def Entries.named (entries : List (Text × Value)) : Entries := entries.map fun e => (.text e.1, e.2)

theorem Key.same_text (a b : Text) : Key.same (.text a) (.text b) = decide (a = b) := by
  simp [Key.same, Scalar.sameKey]

namespace Entries

/-- An entry under a new text goes behind all others. -/
theorem insert_named {name : Text} {w : Value} {ws : List (Text × Value)}
    (h : name ∉ ws.map (·.1)) :
    insert (.text name) w (named ws) = named (ws ++ [(name, w)]) := by
  unfold named
  induction ws with
  | nil => rfl
  | cons e rest ih =>
    rw [List.map_cons, List.mem_cons, not_or] at h
    have hne : ¬Key.same (.text e.1) (.text name) = true := by
      rw [Key.same_text]
      simpa using fun heq => h.1 heq.symm
    rw [List.map_cons, Entries.insert, if_neg hne, ih h.2]
    rfl

/-- Entries under texts that are all different are a map as they stand. -/
theorem ofList_named {ws : List (Text × Value)} (h : (ws.map (·.1)).Nodup) :
    Entries.ofList (Entries.named ws) = Entries.named ws := by
  unfold Entries.ofList
  induction ws using List.reverseRecOn with
  | nil => rfl
  | append_singleton ws e ih =>
    rw [List.map_append, List.map_singleton, List.nodup_append] at h
    have hnew : e.1 ∉ ws.map (·.1) := fun hmem => h.2.2 _ hmem _ (List.mem_singleton_self _) rfl
    have hsplit : Entries.named (ws ++ [e]) = Entries.named ws ++ [(.text e.1, e.2)] := by
      unfold Entries.named
      rw [List.map_append, List.map_singleton]
    rw [hsplit, List.foldl_append, ih h.1, List.foldl_cons, List.foldl_nil, insert_named hnew]
    exact hsplit

/-- Writing an entry keeps what holds of all keys and of all values. -/
theorem forall_mem_insert {p : Key → Prop} {q : Value → Prop} {key : Key} {v : Value} {entries : Entries}
    (hkey : p key) (hv : q v) (h : ∀ e ∈ entries, p e.1 ∧ q e.2) :
    ∀ e ∈ insert key v entries, p e.1 ∧ q e.2 := by
  induction entries with
  | nil =>
    intro e he
    rw [insert, List.mem_singleton] at he
    exact he ▸ ⟨hkey, hv⟩
  | cons entry rest ih =>
    obtain ⟨k, u⟩ := entry
    rw [List.forall_mem_cons] at h
    rw [insert]
    split
    · exact List.forall_mem_cons.2 ⟨⟨h.1.1, hv⟩, h.2⟩
    · exact List.forall_mem_cons.2 ⟨h.1, ih h.2⟩

/-- A map has keys and values that were written to it, and no others. -/
theorem forall_mem_ofList {p : Key → Prop} {q : Value → Prop} {entries : List (Key × Value)}
    (h : ∀ e ∈ entries, p e.1 ∧ q e.2) : ∀ e ∈ ofList entries, p e.1 ∧ q e.2 := by
  unfold ofList
  induction entries using List.reverseRecOn with
  | nil => exact fun e he => absurd he List.not_mem_nil
  | append_singleton entries entry ih =>
    rw [List.forall_mem_append, List.forall_mem_singleton] at h
    rw [List.foldl_append, List.foldl_cons, List.foldl_nil]
    exact forall_mem_insert h.2.1 h.2.2 (ih h.1)

theorem forall_ofList {p : Value → Prop} {entries : List (Key × Value)} (h : ∀ e ∈ entries, p e.2) :
    ∀ e ∈ ofList entries, p e.2 := fun e he =>
  (forall_mem_ofList (p := fun _ => True) (fun e he => ⟨trivial, h e he⟩) e he).2

theorem get?_named (name : Text) (entries : List (Text × Value)) :
    get? name (named entries) = entries.lookup name := by
  unfold named
  induction entries with
  | nil => rfl
  | cons entry rest ih =>
    obtain ⟨other, v⟩ := entry
    rw [List.map_cons, get?, Key.isText, Key.same_text, ih, List.lookup_cons]
    by_cases h : name = other
    · simp [h]
    · simp [h, beq_eq_false_iff_ne.2 h]

end Entries

namespace Value

/-! ## What stands under a text in a tree -/

mutual

/-- All values that stand under the text, at any depth, in their order. -/
def under (name : Text) : Value → List Value
  | scalar _ => []
  | list items => underItems name items
  | map entries => underEntries name entries

/-- What stands under the text in several values. -/
def underItems (name : Text) : List Value → List Value
  | [] => []
  | item :: rest => item.under name ++ underItems name rest

/-- What stands under the text in entries: the value of each entry with this key, and what is in it. -/
def underEntries (name : Text) : List (Key × Value) → List Value
  | [] => []
  | (key, v) :: rest =>
    (if key.isText name then [v] else []) ++ v.under name ++ underEntries name rest

end

theorem under_list (name : Text) (items : List Value) :
    (list items).under name = items.flatMap (under name) := by
  rw [under]
  induction items with
  | nil => rfl
  | cons item rest ih => rw [underItems, ih, List.flatMap_cons]

theorem under_named (name : Text) (entries : List (Text × Value)) :
    (map (Entries.named entries)).under name =
      entries.flatMap fun e => (if name = e.1 then [e.2] else []) ++ e.2.under name := by
  rw [under]
  unfold Entries.named
  induction entries with
  | nil => rfl
  | cons entry rest ih =>
    rw [List.map_cons, underEntries, ih, List.flatMap_cons, Key.isText, Key.same_text]
    simp only [decide_eq_true_eq]

end Value

end FluentQuery
