/-
  A cell that is edited and left as it is. The text in the edit box is the JSON text of the value, also
  where the cell is shown instead (`editText_eq_print`), and only a text on its own is not put in quotes.
  `ofEditText_editText`: so every other value that JSON keeps comes back from its edit box, and a map also
  comes back as a document.
-/
import FluentQuery.Proofs.Json.RoundTrip
import FluentQuery.Value.Display

namespace FluentQuery.Display

open Json (Keeps)

/-- The cell of null, of a truth value and of an integer is what JSON prints for it. -/
theorem editText_eq_print {v : Value} (h : Keeps v) (htext : v.chars? = none) :
    editText v = Json.print .nonAscii v := by
  cases h with
  | null => rfl
  | bool b => rfl
  | int _ => rfl
  | text _ => cases htext
  | list _ => rfl
  | map _ _ _ => rfl

/-- A value that JSON keeps, unless it is a text, is shown in the edit box as a text that is read back as
this value, with the entries of every map in their order; and what is shown for a map is a document with
these entries. -/
theorem ofEditText_editText {v : Value} (h : Keeps v) (htext : v.chars? = none) :
    ∃ text, editText v = .ok text ∧ ofEditText text = .ok v ∧
      ∀ entries, v = .map entries → ofDocumentText text = .ok entries := by
  obtain ⟨text, hprint, hvalue⟩ := h.printsBack .nonAscii 0
  have hread := hvalue.read_eq
  refine ⟨text, (editText_eq_print h htext).trans hprint, ?_, ?_⟩
  · rw [ofEditText, hread]
  · rintro entries rfl
    rw [ofDocumentText, hread]

/-- A text on its own may be read as something else. -/
example : editText (.text "5") = .ok "5" ∧ ofEditText "5" = .ok (.int 5) := ⟨rfl, rfl⟩

/-- A map with a quote, a line break, a backslash and a character beyond the basic plane in its names and
texts, with an empty list and an empty map in it. -/
theorem ofEditText_editText_nested :
    let entries : Entries := [(.text "\x22n\n\x22", .list [.int (-120), .bool false, .text "é😀\x5c", .list []]),
      (.text "", .map []), (.text "a", .null)]
    ∃ text, editText (.map entries) = .ok text ∧ ofEditText text = .ok (.map entries) ∧
      ofDocumentText text = .ok entries := by
  intro entries
  have hmap : Keeps (.map (Entries.named [])) :=
    .map .nil (List.forall_mem_nil _) (List.forall_mem_nil _)
  have hlist : Keeps (.list [.int (-120), .bool false, .text "é😀\x5c", .list []]) := by
    refine .list fun v hv => ?_
    simp only [List.mem_cons, List.not_mem_nil, or_false] at hv
    rcases hv with rfl | rfl | rfl | rfl
    · exact .int (Decimal.lt_pow_of_le_maxDigits (by decide))
    · exact .bool false
    · exact .text (by decide)
    · exact .list (List.forall_mem_nil _)
  have hkeeps : Keeps (.map (Entries.named
      [("\x22n\n\x22", .list [.int (-120), .bool false, .text "é😀\x5c", .list []]),
        ("", .map (Entries.named [])), ("a", .null)])) := by
    refine .map (by decide) (by decide) fun e he => ?_
    simp only [List.mem_cons, List.not_mem_nil, or_false] at he
    rcases he with rfl | rfl | rfl
    · exact hlist
    · exact hmap
    · exact .null
  obtain ⟨text, hshown, hread, hdocument⟩ := ofEditText_editText hkeeps rfl
  exact ⟨text, hshown, hread, hdocument entries rfl⟩

end FluentQuery.Display
