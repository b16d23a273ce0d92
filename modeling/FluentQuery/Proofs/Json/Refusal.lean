/-
  When a JSON text is refused for its digits. Reading comes to an integer that is too long
  (`MeetsLongInteger`) if this stands at the start, or in a part of a list or a map behind other parts that
  are read; what follows it does not matter. `read_eq_tooManyDigits_iff`: exactly these texts are refused for
  their digits, and all other refusals name a place in the text.
-/
import FluentQuery.Proofs.Json.Grammar

namespace FluentQuery.Json

/-! ## Strings -/

/-- Strings are refused with a place in the text, if at all. -/
theorem readHex_ne_tooManyDigits (text : Text) : readHex text ≠ .error .tooManyDigits := by
  unfold readHex
  dsimp only
  split
  · exact nofun
  · split <;> exact nofun

theorem readUnicode_ne_tooManyDigits (text : Text) : readUnicode text ≠ .error .tooManyDigits := by
  intro h
  rcases bind_eq_error_iff.1 h with h | ⟨⟨n, rest⟩, -, h⟩
  · exact readHex_ne_tooManyDigits _ h
  · dsimp only at h
    split at h
    · split at h
      · rcases bind_eq_error_iff.1 h with h | ⟨⟨m, rest'⟩, -, h⟩
        · exact readHex_ne_tooManyDigits _ h
        · dsimp only at h
          split at h <;> cases h
      · cases h
    · cases h

theorem readString_ne_tooManyDigits (opening steps : Nat) (text : Text) :
    readString opening steps text ≠ .error .tooManyDigits := by
  induction steps generalizing text with
  | zero => exact nofun
  | succ steps ih =>
    cases text with
    | nil => exact nofun
    | cons c text =>
      intro h
      unfold readString at h
      split_ifs at h
      · split at h
        · cases h
        · rcases bind_eq_error_iff.1 h with h | ⟨⟨d, more⟩, -, h⟩
          · exact readUnicode_ne_tooManyDigits _ h
          · rcases bind_eq_error_iff.1 h with h | ⟨_, -, h⟩
            · exact ih _ h
            · cases h
        · split at h
          · rcases bind_eq_error_iff.1 h with h | ⟨_, -, h⟩
            · exact ih _ h
            · cases h
          · cases h
      · cases h
      · rcases bind_eq_error_iff.1 h with h | ⟨_, -, h⟩
        · exact ih _ h
        · cases h

/-! ## Long integers in a text -/

/-- Reading goes on from a place to an integer that is too long: it stands there, or in a part of the list
or the map there, behind parts that are read. -/
inductive MeetsLongInteger : Place → Text → Prop
  | integer {text : Text} : StartsLongInteger text → MeetsLongInteger .value text
  | list {text : Text} : MeetsLongInteger .items (skipSpace text) →
      MeetsLongInteger .value (CodePoint.char '[' :: text)
  | map {text : Text} : MeetsLongInteger .entries (skipSpace text) →
      MeetsLongInteger .value (CodePoint.char '\x7b' :: text)
  | item {text : Text} : MeetsLongInteger .value text → MeetsLongInteger .items text
  | laterItem {text behind more : Text} {v : Value} : Reads (.value v) text behind →
      skipSpace behind = CodePoint.char ',' :: more → MeetsLongInteger .items (skipSpace more) →
        MeetsLongInteger .items text
  | entry {text name colon value : Text} : ReadsString text name colon →
      skipSpace colon = CodePoint.char ':' :: value → MeetsLongInteger .value (skipSpace value) →
        MeetsLongInteger .entries (CodePoint.char '\x22' :: text)
  | laterEntry {text name colon value behind more : Text} {v : Value} : ReadsString text name colon →
      skipSpace colon = CodePoint.char ':' :: value → Reads (.value v) (skipSpace value) behind →
        skipSpace behind = CodePoint.char ',' :: more → MeetsLongInteger .entries (skipSpace more) →
          MeetsLongInteger .entries (CodePoint.char '\x22' :: text)

/-- With this many steps all refusals for digits are of texts in which such an integer is met. -/
structure SoundRefusal (steps : Nat) : Prop where
  value : ∀ {text}, readValue steps text = .error .tooManyDigits → MeetsLongInteger .value text
  items : ∀ {text}, readItems steps text = .error .tooManyDigits → MeetsLongInteger .items text
  entries : ∀ {text}, readEntries steps text = .error .tooManyDigits → MeetsLongInteger .entries text

namespace SoundRefusal

variable {steps : Nat} (ih : SoundRefusal steps) {text : Text}
include ih

theorem value_succ (h : readValue (steps + 1) text = .error .tooManyDigits) :
    MeetsLongInteger .value text := by
  unfold readValue at h
  split at h
  · rcases bind_eq_error_iff.1 h with h | ⟨_, -, h⟩
    · exact absurd h (readString_ne_tooManyDigits _ _ _)
    · cases h
  · split at h
    · cases h
    · rcases bind_eq_error_iff.1 h with h | ⟨_, -, h⟩
      · exact .map (ih.entries h)
      · cases h
  · split at h
    · cases h
    · rcases bind_eq_error_iff.1 h with h | ⟨_, -, h⟩
      · exact .list (ih.items h)
      · cases h
  · exact .integer ((readAtom_eq_tooManyDigits_iff _).1 h)

theorem items_succ (h : readItems (steps + 1) text = .error .tooManyDigits) :
    MeetsLongInteger .items text := by
  rcases bind_eq_error_iff.1 h with h | ⟨⟨v, behind⟩, hvalue, h⟩
  · exact .item (ih.value h)
  · dsimp only at h
    split at h
    · cases h
    · rcases bind_eq_error_iff.1 h with h | ⟨_, -, h⟩
      · exact .laterItem ((sound steps).value hvalue) ‹_› (ih.items h)
      · cases h
    · cases h

theorem entries_succ (h : readEntries (steps + 1) text = .error .tooManyDigits) :
    MeetsLongInteger .entries text := by
  unfold readEntries at h
  split at h
  · rcases bind_eq_error_iff.1 h with h | ⟨⟨name, colon⟩, hname, h⟩
    · exact absurd h (readString_ne_tooManyDigits _ _ _)
    · dsimp only at h
      split at h
      · rcases bind_eq_error_iff.1 h with h | ⟨⟨v, behind⟩, hvalue, h⟩
        · exact .entry hname ‹_› (ih.value h)
        · dsimp only at h
          split at h
          · cases h
          · rcases bind_eq_error_iff.1 h with h | ⟨_, -, h⟩
            · exact .laterEntry hname ‹_› ((sound steps).value hvalue) ‹_› (ih.entries h)
            · cases h
          · cases h
      · cases h
  · cases h

end SoundRefusal

theorem soundRefusal (steps : Nat) : SoundRefusal steps := by
  induction steps with
  | zero => exact ⟨nofun, nofun, nofun⟩
  | succ steps ih => exact ⟨ih.value_succ, ih.items_succ, ih.entries_succ⟩

/-! ## Enough steps -/

theorem StartsLongInteger.head?_not_mem {text : Text} (h : StartsLongInteger text) {c : CodePoint}
    (hc : c ∈ openers ++ nonParts) : text.head? ≠ some c := by
  intro hhead
  obtain ⟨more, rfl⟩ := List.head?_eq_some_iff.1 hhead
  have hread := (readAtom_eq_tooManyDigits_iff _).2 h
  rw [readAtom_nonPart hc] at hread
  cases hread

theorem MeetsLongInteger.head?_ne {place : Place} {text : Text} (h : MeetsLongInteger place text)
    {c : CodePoint} (hc : c ∈ nonParts) : text.head? ≠ some c := by
  have hopeners : ∀ c ∈ openers, c ∉ nonParts := by decide
  induction h with
  | integer h => exact h.head?_not_mem (List.mem_append_right _ hc)
  | item _ ih => exact ih
  | laterItem h _ _ _ => exact h.head?_ne hc
  | _ =>
    intro heq
    cases heq
    exact absurd hc (hopeners _ (by decide))

/-- The reader of the place refuses the text for its digits. -/
def Place.IsRefused (steps : Nat) (text : Text) : Place → Prop
  | .value => readValue steps text = .error .tooManyDigits
  | .items => readItems steps text = .error .tooManyDigits
  | .entries => readEntries steps text = .error .tooManyDigits

theorem readEntries_error {steps : Nat} {text name colon value : Text} {stop : Stop}
    (hname : ReadsString text name colon) (hcolon : skipSpace colon = CodePoint.char ':' :: value)
    (hvalue : readValue steps (skipSpace value) = .error stop) :
    readEntries (steps + 1) (CodePoint.char '\x22' :: text) = .error stop := by
  unfold ReadsString at hname
  rw [readEntries, List.length_cons, hname]
  dsimp only [bind, Except.bind]
  rw [hcolon]
  change (readValue steps (skipSpace value)).bind _ = _
  rw [hvalue]
  rfl

/-- With enough steps the readers come to the integer. -/
theorem MeetsLongInteger.isRefused {place : Place} {text : Text} (h : MeetsLongInteger place text) {steps : Nat}
    (hsteps : place.steps text ≤ steps) : place.IsRefused steps text := by
  induction h generalizing steps with
  | integer h =>
    obtain ⟨steps, rfl⟩ := Place.exists_eq_succ hsteps
    have hopeners := fun c hc => h.head?_not_mem (c := c) (List.mem_append_left _ hc)
    rw [Place.IsRefused, readValue_eq_readAtom hopeners]
    exact (readAtom_eq_tooManyDigits_iff _).2 h
  | list h ih =>
    obtain ⟨steps, rfl⟩ := Place.exists_eq_succ hsteps
    have hread : readItems steps _ = _ :=
      ih (Place.steps_le_of_length_lt .items hsteps (length_skipSpace_lt_cons _ _))
    rw [Place.IsRefused, readValue_list (h.head?_ne (by decide)), hread]
    rfl
  | map h ih =>
    obtain ⟨steps, rfl⟩ := Place.exists_eq_succ hsteps
    have hread : readEntries steps _ = _ :=
      ih (Place.steps_le_of_length_lt .entries hsteps (length_skipSpace_lt_cons _ _))
    rw [Place.IsRefused, readValue_map (h.head?_ne (by decide)), hread]
    rfl
  | item _ ih =>
    obtain ⟨steps, rfl⟩ := Place.exists_eq_succ hsteps
    have hread : readValue steps _ = _ := ih (Nat.le_of_succ_le_succ hsteps)
    rw [Place.IsRefused, readItems, hread]
    rfl
  | laterItem hvalue h _ ih =>
    obtain ⟨steps, rfl⟩ := Place.exists_eq_succ hsteps
    have hmore := Nat.lt_trans (length_skipSpace_lt h) hvalue.length_lt
    have hread : readItems steps _ = _ := ih (Place.steps_le_of_length_lt .items hsteps hmore)
    rw [Place.IsRefused, readItems_next (hvalue.isRead (Nat.le_of_succ_le_succ hsteps)) h, hread]
    rfl
  | entry hname hcolon _ ih =>
    obtain ⟨steps, rfl⟩ := Place.exists_eq_succ hsteps
    have hlt := Nat.lt_trans (length_skipSpace_lt hcolon) (length_lt_of_readString hname)
    have hread : readValue steps _ = _ :=
      ih (Place.steps_le_of_length_lt .value hsteps (Nat.lt_succ_of_lt hlt))
    exact readEntries_error hname hcolon hread
  | laterEntry hname hcolon hvalue h _ ih =>
    obtain ⟨steps, rfl⟩ := Place.exists_eq_succ hsteps
    have hlt := Nat.lt_trans (length_skipSpace_lt hcolon) (length_lt_of_readString hname)
    have hmore := Nat.lt_trans (length_skipSpace_lt h) (Nat.lt_trans hvalue.length_lt hlt)
    have hread : readEntries steps _ = _ :=
      ih (Place.steps_le_of_length_lt .entries hsteps (Nat.lt_succ_of_lt hmore))
    rw [Place.IsRefused, readEntries_next hname hcolon
      (hvalue.isRead (Place.steps_le_of_length_lt .value hsteps (Nat.lt_succ_of_lt hlt))) h, hread]
    rfl

/-! ## Whole texts -/

theorem readWhole_eq_tooManyDigits_iff (text : Text) :
    readWhole text = .error .tooManyDigits ↔ MeetsLongInteger .value (skipSpace text) := by
  constructor
  · intro h
    unfold readWhole at h
    split at h
    · cases h
    · rcases bind_eq_error_iff.1 h with h | ⟨⟨v, rest⟩, -, h⟩
      · exact (soundRefusal _).value h
      · dsimp only at h
        split at h <;> cases h
  · intro h
    unfold readWhole
    split
    · rw [skipSpace_cons (by decide)] at h
      exact absurd rfl (h.head?_ne (by decide))
    · have hsteps : 2 * (skipSpace text).length + 1 ≤ 2 * text.length + 1 := by
        have hspace := length_skipSpace_le text
        omega
      have hvalue : readValue (2 * text.length + 1) (skipSpace text) = .error .tooManyDigits :=
        h.isRefused hsteps
      rw [hvalue]
      rfl

/-- Reading the whole text comes to an integer that is too long. -/
def HasLongInteger (text : Text) : Prop := MeetsLongInteger .value (skipSpace text)

/-- Exactly these texts are refused for their digits. -/
theorem read_eq_tooManyDigits_iff (text : Text) :
    read text = .error .tooManyDigits ↔ HasLongInteger text := by
  rw [HasLongInteger, ← readWhole_eq_tooManyDigits_iff]
  unfold read
  cases hwhole : readWhole text with
  | ok v => exact iff_of_false nofun nofun
  | error stop =>
    cases stop with
    | tooManyDigits => exact iff_of_true rfl rfl
    | problem p left => exact iff_of_false nofun nofun

end FluentQuery.Json
