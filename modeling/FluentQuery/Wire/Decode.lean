/-
  Reading wire values to any depth. `decode_eq` gives it as an equation: the outermost level is read,
  then its parts.
-/
import FluentQuery.Wire.Reading

namespace FluentQuery.Wire

/-- The dynamic value that a wire value stands for. -/
def decode (value : Value) : Except Fault Value :=
  match h : read value with
  | .error fault => .error fault
  | .ok (.done v) => .ok v
  | .ok (.items values) => do
    return .list (← values.attach.mapM fun w =>
      have := sizeOf_lt_of_read h w.1 w.2
      decode w.1)
  | .ok (.entries es) => do
    return .map (← es.attach.mapM fun e =>
      have := sizeOf_lt_of_read h e.1.2 (List.mem_map.2 ⟨e.1, e.2, rfl⟩)
      do return (e.1.1, ← decode e.1.2))
termination_by sizeOf value

/-- The values of a list of wire values. -/
def decodeAll (values : List Value) : Except Fault (List Value) := values.mapM decode

/-- The values of entries, each under its own key. -/
def decodeEntries (es : Entries) : Except Fault Entries :=
  es.mapM fun e => do return (e.1, ← decode e.2)

theorem mapM_attach {α β : Type} (l : List α) (f : α → Except Fault β) :
    l.attach.mapM (fun x => f x.1) = l.mapM f := by
  have h := List.mapM_map (m := Except Fault) (f := Subtype.val) (g := f) (l := l.attach)
  rw [List.attach_map_subtype_val] at h
  exact h.symm

/-- Reading a wire value is reading its outermost level and then its parts. -/
theorem decode_eq (value : Value) :
    decode value =
      match read value with
      | .error fault => .error fault
      | .ok (.done v) => .ok v
      | .ok (.items values) => do return .list (← decodeAll values)
      | .ok (.entries es) => do return .map (← decodeEntries es) := by
  rw [decode]
  split <;> rename_i h <;> simp only [h]
  · rename_i values
    rw [decodeAll, ← mapM_attach values decode]
  · rename_i es
    rw [decodeEntries, ← mapM_attach es fun e => do return (e.1, ← decode e.2)]

/-- The values of a field map, in the order of its entries. -/
def decodeFieldMap (fields : Value) : Except Fault Entries := do
  decodeEntries (← entriesOf fields)

end FluentQuery.Wire
