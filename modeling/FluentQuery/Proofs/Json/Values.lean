/-
  The values that JSON texts are read as (`IsJson`): no other kinds, no integer of more than 4300 digits at
  any depth, and no keys but texts. `isJson_of_read` shows that there are no others, along the grammar; so
  each of them has a text of its own (`IsJson.exists_toQuoted`).
-/
import FluentQuery.Proofs.Json.Grammar
import FluentQuery.Value.Text

namespace FluentQuery.Json

/-- A value of the kinds that JSON has, with integers of at most 4300 digits and with texts as keys. -/
inductive IsJson : Value → Prop
  | null : IsJson .null
  | bool (b : Bool) : IsJson (.bool b)
  | int {n : Int} : n.natAbs < 10 ^ Decimal.maxDigits → IsJson (.int n)
  | float (x : Binary64) : IsJson (.float x)
  | text (s : Text) : IsJson (.text s)
  | list {items : List Value} : (∀ v ∈ items, IsJson v) → IsJson (.list items)
  | map {entries : List (Key × Value)} : (∀ e ∈ entries, ∃ name, e.1 = .text name) →
      (∀ e ∈ entries, IsJson e.2) → IsJson (.map entries)

/-! ## Reading -/

theorem isJson_of_numberOf {negative : Bool} {whole : Text} {fraction : Option Text}
    {exponent : Option (Bool × Text)} {v : Value} (hdigits : ∀ c ∈ whole, c.isDigit = true)
    (h : numberOf negative whole fraction exponent = .ok v) : IsJson v := by
  unfold numberOf at h
  split at h
  · split at h
    · rename_i n hn
      cases h
      obtain ⟨hlength, hread⟩ := Decimal.readSigned_eq_ok hn
      refine .int ?_
      rw [hread]
      exact Nat.lt_of_lt_of_le (Decimal.readDigits_lt_of_digitValues? (digitValues?_eq hdigits))
        (Nat.pow_le_pow_right (by decide) hlength)
    · cases h
  · cases h
    exact .float _

theorem isJson_of_readAtom {text rest : Text} {v : Value} (h : readAtom text = .ok (v, rest)) : IsJson v := by
  rcases readAtom_eq_ok h with ⟨word, hword, -⟩ | h
  · simp only [words, List.mem_cons, List.not_mem_nil, or_false, Prod.mk.injEq] at hword
    rcases hword with ⟨-, rfl⟩ | ⟨-, rfl⟩ | ⟨-, rfl⟩ | ⟨-, rfl⟩ | ⟨-, rfl⟩ | ⟨-, rfl⟩
    · exact .null
    · exact .bool true
    · exact .bool false
    · exact .float _
    · exact .float _
    · exact .float _
  · obtain ⟨whole, behind, hwhole, hnumber, -⟩ := readNumber_eq_ok h
    refine isJson_of_numberOf ?_ hnumber
    obtain ⟨-, rfl | ⟨hdigits, -⟩⟩ := spanWhole_eq_some hwhole
    · decide
    · exact hdigits

/-- The values in a part are such values. -/
def Part.IsJson : Part → Prop
  | .value v => Json.IsJson v
  | .items vs => ∀ v ∈ vs, Json.IsJson v
  | .entries es => ∀ e ∈ es, (∃ name, e.1 = .text name) ∧ Json.IsJson e.2

theorem Reads.isJson {part : Part} {text rest : Text} (h : Reads part text rest) : part.IsJson := by
  induction h with
  | atom h => exact isJson_of_readAtom h
  | @string _ s _ _ => exact .text s
  | emptyList _ => exact .list (List.forall_mem_nil _)
  | list _ ih => exact .list ih
  | emptyMap _ => exact .map (List.forall_mem_nil _) (List.forall_mem_nil _)
  | map _ ih =>
    have hentries := Entries.forall_mem_ofList (p := fun key => ∃ name, key = .text name) ih
    exact .map (fun e he => (hentries e he).1) fun e he => (hentries e he).2
  | lastItem _ _ ih => exact List.forall_mem_singleton.2 ih
  | item _ _ _ ih ih' => exact List.forall_mem_cons.2 ⟨ih, ih'⟩
  | lastEntry _ _ _ _ ih => exact List.forall_mem_singleton.2 ⟨⟨_, rfl⟩, ih⟩
  | entry _ _ _ _ _ ih ih' => exact List.forall_mem_cons.2 ⟨⟨⟨_, rfl⟩, ih⟩, ih'⟩

/-- Whatever is read from a text is a value of the kinds that JSON has. -/
theorem isJson_of_read {text : Text} {v : Value} (h : read text = .ok v) : IsJson v := by
  obtain ⟨rest, hreads, -⟩ := read_eq_ok_iff.1 h
  exact hreads.isJson

/-! ## Texts of such values -/

theorem exists_quotedItems {items : List Value} (h : ∀ v ∈ items, ∃ s, v.toQuoted = .ok s) :
    ∃ texts, Value.quotedItems items = .ok texts := by
  induction items with
  | nil => exact ⟨[], rfl⟩
  | cons v items ih =>
    obtain ⟨s, hs⟩ := h v List.mem_cons_self
    obtain ⟨texts, htexts⟩ := ih fun w hw => h w (List.mem_cons_of_mem v hw)
    refine ⟨s :: texts, ?_⟩
    rw [Value.quotedItems, hs, htexts]
    rfl

theorem exists_quotedEntries {entries : List (Key × Value)} (hkeys : ∀ e ∈ entries, ∃ name, e.1 = .text name)
    (h : ∀ e ∈ entries, ∃ s, e.2.toQuoted = .ok s) : ∃ texts, Value.quotedEntries entries = .ok texts := by
  induction entries with
  | nil => exact ⟨[], rfl⟩
  | cons e entries ih =>
    obtain ⟨key, v⟩ := e
    obtain ⟨name, rfl⟩ := hkeys _ List.mem_cons_self
    obtain ⟨s, hs⟩ := h _ List.mem_cons_self
    obtain ⟨texts, htexts⟩ := ih (fun e he => hkeys e (List.mem_cons_of_mem _ he))
      fun e he => h e (List.mem_cons_of_mem _ he)
    refine ⟨(Text.quoted name ++ ": " ++ s) :: texts, ?_⟩
    rw [Value.quotedEntries, hs, htexts]
    rfl

/-- No integer in such a value is too long to be written, so the value has a quoted text. -/
theorem IsJson.exists_toQuoted {v : Value} (h : IsJson v) : ∃ s, v.toQuoted = .ok s := by
  induction h with
  | null => exact ⟨_, rfl⟩
  | bool b => exact ⟨_, rfl⟩
  | int h => exact ⟨_, Decimal.write_eq h⟩
  | float x => exact ⟨_, rfl⟩
  | text s => exact ⟨_, rfl⟩
  | list _ ih =>
    obtain ⟨texts, htexts⟩ := exists_quotedItems ih
    rw [Value.toQuoted, htexts]
    exact ⟨_, rfl⟩
  | map hkeys _ ih =>
    obtain ⟨texts, htexts⟩ := exists_quotedEntries hkeys ih
    rw [Value.toQuoted, htexts]
    exact ⟨_, rfl⟩

end FluentQuery.Json
