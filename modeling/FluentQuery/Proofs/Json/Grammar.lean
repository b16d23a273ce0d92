/-
  The grammar of JSON texts. `Reads` says which values, items and entries stand at the start of a text, and
  with which text behind them, without a bound on steps. The readers follow it: whatever they yield is in the
  grammar (`sound`), and what is in the grammar they yield, since every part takes characters off the text
  (`Reads.isRead`). `read_eq_ok_iff`: so a text is read as a value exactly if it is this value between
  spaces.
-/
import FluentQuery.Proofs.Json.LongIntegers

namespace FluentQuery.Json

/-! ## What is left -/

theorem length_skipSpace_le (text : Text) : (skipSpace text).length ≤ text.length :=
  List.length_dropWhile_le _ _

theorem length_of_readHex {text rest : Text} {n : Nat} (h : readHex text = .ok (n, rest)) :
    rest.length + 4 = text.length := by
  unfold readHex at h
  dsimp only at h
  split at h
  · cases h
  · split at h
    · cases h
      rw [List.length_drop]
      omega
    · cases h

theorem length_lt_of_readUnicode {text rest : Text} {c : CodePoint} (h : readUnicode text = .ok (c, rest)) :
    rest.length < text.length := by
  obtain ⟨⟨n, behind⟩, hhex, h⟩ := bind_eq_ok_iff.1 h
  have hlength := length_of_readHex hhex
  dsimp only at h
  split at h
  · split at h
    · obtain ⟨⟨m, behind'⟩, hlow, h⟩ := bind_eq_ok_iff.1 h
      have hlength' := length_of_readHex hlow
      simp only [List.length_cons] at hlength
      dsimp only at h
      split at h
      · obtain ⟨-, rfl⟩ := Prod.mk.inj (Except.ok.inj h)
        omega
      · obtain ⟨-, rfl⟩ := Prod.mk.inj (Except.ok.inj h)
        simp only [List.length_cons]
        omega
    · obtain ⟨-, rfl⟩ := Prod.mk.inj (Except.ok.inj h)
      simp only [List.length_cons] at hlength ⊢
      omega
  · obtain ⟨-, rfl⟩ := Prod.mk.inj (Except.ok.inj h)
    omega

/-- A string takes its closing quote off the text, at least. -/
theorem length_lt_of_readString {opening steps : Nat} {text s rest : Text}
    (h : readString opening steps text = .ok (s, rest)) : rest.length < text.length := by
  induction steps generalizing text s with
  | zero => cases h
  | succ steps ih =>
    cases text with
    | nil => cases h
    | cons c text =>
      unfold readString at h
      rw [List.length_cons]
      split_ifs at h
      · cases h
        exact Nat.lt_succ_self _
      · split at h
        · cases h
        · obtain ⟨⟨d, more⟩, hunicode, h⟩ := bind_eq_ok_iff.1 h
          obtain ⟨⟨s', rest'⟩, hstring, h⟩ := bind_eq_ok_iff.1 h
          cases h
          have hfirst := length_lt_of_readUnicode hunicode
          have hsecond := ih hstring
          simp only [List.length_cons]
          omega
        · split at h
          · obtain ⟨⟨s', rest'⟩, hstring, h⟩ := bind_eq_ok_iff.1 h
            cases h
            have hmore := ih hstring
            simp only [List.length_cons]
            omega
          · cases h
      · cases h
      · obtain ⟨⟨s', rest'⟩, hstring, h⟩ := bind_eq_ok_iff.1 h
        cases h
        have hmore := ih hstring
        omega

theorem length_spanFraction_le (text : Text) : (spanFraction text).2.length ≤ text.length := by
  unfold spanFraction
  split
  · split
    · refine Nat.le_trans (List.length_dropWhile_le _ _) ?_
      exact Nat.le_succ _
    · exact Nat.le_refl _
  · exact Nat.le_refl _

theorem length_spanExponent_le (text : Text) : (spanExponent text).2.length ≤ text.length := by
  cases text with
  | nil => exact Nat.le_refl _
  | cons e rest =>
    by_cases he : e = 'e' ∨ e = 'E'
    · rw [spanExponent_cons_eq he]
      obtain ⟨sign, -, hrest⟩ := splitExponentSign_eq rest
      have hsign := congrArg List.length hrest
      rw [List.length_append] at hsign
      have hdigits := List.length_dropWhile_le CodePoint.isDigit (splitExponentSign rest).2
      split
      · exact Nat.le_refl _
      · rename_i heq
        obtain ⟨-, rfl⟩ := Prod.mk.inj heq
        rw [List.length_cons]
        dsimp only
        omega
    · rw [not_or] at he
      rw [spanExponent_cons he.1 he.2]

/-- A number is put together from its sign, the digits before the point, a fraction and an exponent. -/
theorem readNumber_eq_ok {text rest : Text} {v : Value} (h : readNumber text = .ok (v, rest)) :
    ∃ whole behind, spanWhole (splitMinus text).2 = some (whole, behind) ∧
      numberOf (splitMinus text).1 whole (spanFraction behind).1
        (spanExponent (spanFraction behind).2).1 = .ok v ∧
      rest = (spanExponent (spanFraction behind).2).2 := by
  cases hwhole : spanWhole (splitMinus text).2 with
  | none =>
    rw [readNumber_of_spanWhole_eq_none hwhole] at h
    cases h
  | some parts =>
    obtain ⟨whole, behind⟩ := parts
    rw [readNumber_of_spanWhole hwhole] at h
    obtain ⟨x, hx, heq⟩ := map_eq_ok_iff.1 h
    obtain ⟨rfl, rfl⟩ := Prod.mk.inj heq
    exact ⟨whole, behind, rfl, hx, rfl⟩

/-- A word stands at the start of the text, or else it is a number. -/
theorem readAtom_eq_ok {text rest : Text} {v : Value} (h : readAtom text = .ok (v, rest)) :
    (∃ word, (word, v) ∈ words ∧ text = word ++ rest) ∨ readNumber text = .ok (v, rest) := by
  unfold readAtom at h
  split at h
  · rename_i found hfound
    obtain rfl := Except.ok.inj h
    obtain ⟨⟨word, value⟩, hword, hafter⟩ := List.exists_of_findSome?_eq_some hfound
    obtain ⟨behind, hbehind, heq⟩ := Option.map_eq_some_iff.1 hafter
    obtain ⟨rfl, rfl⟩ := Prod.mk.inj heq
    exact .inl ⟨word, hword, Text.after?_eq_some_iff.1 hbehind⟩
  · exact .inr h

theorem length_lt_of_readAtom {text rest : Text} {v : Value} (h : readAtom text = .ok (v, rest)) :
    rest.length < text.length := by
  rcases readAtom_eq_ok h with ⟨word, hword, rfl⟩ | h
  · have hwords : ∀ p ∈ words, 0 < p.1.length := by decide
    have hpos : 0 < word.length := hwords _ hword
    rw [List.length_append]
    omega
  · obtain ⟨whole, behind, hwhole, -, rfl⟩ := readNumber_eq_ok h
    obtain ⟨sign, -, htext⟩ := splitMinus_eq text
    obtain ⟨hbody, hparts⟩ := spanWhole_eq_some hwhole
    have hpos : 0 < whole.length := by
      rcases hparts with rfl | ⟨-, hne, -⟩
      · exact Nat.zero_lt_one
      · exact List.length_pos_of_ne_nil hne
    have hfraction := length_spanFraction_le behind
    have hexponent := length_spanExponent_le (spanFraction behind).2
    rw [htext, hbody, List.length_append, List.length_append]
    omega

/-! ## The grammar -/

/-- What stands in a text: a value, or the items of a list or the entries of a map with what closes them. -/
inductive Part where
  | value (v : Value)
  | items (items : List Value)
  | entries (entries : List (Key × Value))

/-- The string behind an opening quote, and what is left behind its closing quote. -/
def ReadsString (text s rest : Text) : Prop :=
  readString (text.length + 1) text.length text = .ok (s, rest)

/-- The part stands at the start of the text, in front of the rest. The constructors do not overlap: neither a
word nor a number starts like a string, a list or a map, and no part starts like the end of one. -/
inductive Reads : Part → Text → Text → Prop
  | atom {text rest : Text} {v : Value} : readAtom text = .ok (v, rest) → Reads (.value v) text rest
  | string {text s rest : Text} : ReadsString text s rest →
      Reads (.value (.text s)) (CodePoint.char '\x22' :: text) rest
  | emptyList {text rest : Text} : skipSpace text = CodePoint.char ']' :: rest →
      Reads (.value (.list [])) (CodePoint.char '[' :: text) rest
  | list {text rest : Text} {items : List Value} : Reads (.items items) (skipSpace text) rest →
      Reads (.value (.list items)) (CodePoint.char '[' :: text) rest
  | emptyMap {text rest : Text} : skipSpace text = CodePoint.char '\x7d' :: rest →
      Reads (.value (.map [])) (CodePoint.char '\x7b' :: text) rest
  | map {text rest : Text} {entries : List (Key × Value)} : Reads (.entries entries) (skipSpace text) rest →
      Reads (.value (.map (Entries.ofList entries))) (CodePoint.char '\x7b' :: text) rest
  | lastItem {text behind rest : Text} {v : Value} : Reads (.value v) text behind →
      skipSpace behind = CodePoint.char ']' :: rest → Reads (.items [v]) text rest
  | item {text behind more rest : Text} {v : Value} {items : List Value} : Reads (.value v) text behind →
      skipSpace behind = CodePoint.char ',' :: more → Reads (.items items) (skipSpace more) rest →
        Reads (.items (v :: items)) text rest
  | lastEntry {text name colon value behind rest : Text} {v : Value} : ReadsString text name colon →
      skipSpace colon = CodePoint.char ':' :: value → Reads (.value v) (skipSpace value) behind →
        skipSpace behind = CodePoint.char '\x7d' :: rest →
          Reads (.entries [(.text name, v)]) (CodePoint.char '\x22' :: text) rest
  | entry {text name colon value behind more rest : Text} {v : Value} {entries : List (Key × Value)} :
      ReadsString text name colon → skipSpace colon = CodePoint.char ':' :: value →
        Reads (.value v) (skipSpace value) behind → skipSpace behind = CodePoint.char ',' :: more →
          Reads (.entries entries) (skipSpace more) rest →
            Reads (.entries ((.text name, v) :: entries)) (CodePoint.char '\x22' :: text) rest

section

variable {text rest : Text} {c : CodePoint}

/-- What follows a character behind spaces is shorter. -/
theorem length_lt_of_skipSpace (h : skipSpace text = c :: rest) : rest.length < text.length := by
  have hle := length_skipSpace_le text
  rw [h, List.length_cons] at hle
  exact hle

theorem length_skipSpace_lt (h : skipSpace text = c :: rest) : (skipSpace rest).length < text.length :=
  Nat.lt_of_le_of_lt (length_skipSpace_le rest) (length_lt_of_skipSpace h)

theorem length_skipSpace_lt_cons (c : CodePoint) (text : Text) :
    (skipSpace text).length < (c :: text).length := Nat.lt_succ_of_le (length_skipSpace_le text)

end

/-- A part takes a character off the text, at least. -/
theorem Reads.length_lt {part : Part} {text rest : Text} (h : Reads part text rest) :
    rest.length < text.length := by
  induction h with
  | atom h => exact length_lt_of_readAtom h
  | string h => exact Nat.lt_succ_of_lt (length_lt_of_readString h)
  | emptyList h => exact Nat.lt_succ_of_lt (length_lt_of_skipSpace h)
  | emptyMap h => exact Nat.lt_succ_of_lt (length_lt_of_skipSpace h)
  | list _ ih => exact Nat.lt_trans ih (length_skipSpace_lt_cons _ _)
  | map _ ih => exact Nat.lt_trans ih (length_skipSpace_lt_cons _ _)
  | lastItem _ h ih => exact Nat.lt_trans (length_lt_of_skipSpace h) ih
  | item _ h _ ih ih' => exact Nat.lt_trans ih' (Nat.lt_trans (length_skipSpace_lt h) ih)
  | lastEntry hname hcolon _ h ih =>
    have hvalue := Nat.lt_trans (length_skipSpace_lt hcolon) (length_lt_of_readString hname)
    exact Nat.lt_succ_of_lt (Nat.lt_trans (length_lt_of_skipSpace h) (Nat.lt_trans ih hvalue))
  | entry hname hcolon _ h _ ih ih' =>
    have hvalue := Nat.lt_trans (length_skipSpace_lt hcolon) (length_lt_of_readString hname)
    have hmore := Nat.lt_trans ih' (length_skipSpace_lt h)
    exact Nat.lt_succ_of_lt (Nat.lt_trans hmore (Nat.lt_trans ih hvalue))

/-! ## The readers are sound -/

/-- With this many steps all that the readers yield is in the grammar. -/
structure Sound (steps : Nat) : Prop where
  value : ∀ {text rest v}, readValue steps text = .ok (v, rest) → Reads (.value v) text rest
  items : ∀ {text rest items}, readItems steps text = .ok (items, rest) → Reads (.items items) text rest
  entries : ∀ {text rest entries}, readEntries steps text = .ok (entries, rest) →
    Reads (.entries entries) text rest

namespace Sound

variable {steps : Nat} (ih : Sound steps) {text rest : Text}
include ih

theorem value_succ {v : Value} (h : readValue (steps + 1) text = .ok (v, rest)) :
    Reads (.value v) text rest := by
  unfold readValue at h
  split at h
  · obtain ⟨⟨s, rest'⟩, hstring, h⟩ := bind_eq_ok_iff.1 h
    cases h
    exact .string hstring
  · split at h
    · cases h
      exact .emptyMap ‹_›
    · obtain ⟨⟨entries, rest'⟩, hentries, h⟩ := bind_eq_ok_iff.1 h
      cases h
      exact .map (ih.entries hentries)
  · split at h
    · cases h
      exact .emptyList ‹_›
    · obtain ⟨⟨items, rest'⟩, hitems, h⟩ := bind_eq_ok_iff.1 h
      cases h
      exact .list (ih.items hitems)
  · exact .atom h

theorem items_succ {items : List Value} (h : readItems (steps + 1) text = .ok (items, rest)) :
    Reads (.items items) text rest := by
  obtain ⟨⟨v, behind⟩, hvalue, h⟩ := bind_eq_ok_iff.1 h
  dsimp only at h
  split at h
  · cases h
    exact .lastItem (ih.value hvalue) ‹_›
  · obtain ⟨⟨items', rest'⟩, hitems, h⟩ := bind_eq_ok_iff.1 h
    cases h
    exact .item (ih.value hvalue) ‹_› (ih.items hitems)
  · cases h

theorem entries_succ {entries : List (Key × Value)} (h : readEntries (steps + 1) text = .ok (entries, rest)) :
    Reads (.entries entries) text rest := by
  unfold readEntries at h
  split at h
  · obtain ⟨⟨name, colon⟩, hname, h⟩ := bind_eq_ok_iff.1 h
    dsimp only at h
    split at h
    · obtain ⟨⟨v, behind⟩, hvalue, h⟩ := bind_eq_ok_iff.1 h
      dsimp only at h
      split at h
      · cases h
        exact .lastEntry hname ‹_› (ih.value hvalue) ‹_›
      · obtain ⟨⟨entries', rest'⟩, hentries, h⟩ := bind_eq_ok_iff.1 h
        cases h
        exact .entry hname ‹_› (ih.value hvalue) ‹_› (ih.entries hentries)
      · cases h
    · cases h
  · cases h

end Sound

theorem sound (steps : Nat) : Sound steps := by
  induction steps with
  | zero => exact ⟨nofun, nofun, nofun⟩
  | succ steps ih => exact ⟨ih.value_succ, ih.items_succ, ih.entries_succ⟩

/-! ## The readers are complete -/

/-- The characters that can stand where a part is read, although no part starts with them. -/
def nonParts : List CodePoint := '\x7d' :: nonStarters

/-- Neither a word nor a number starts with such a character, or with one that opens a string, a list or a
map. -/
theorem readAtom_nonPart {c : CodePoint} (h : c ∈ openers ++ nonParts) (rest : Text) :
    readAtom (c :: rest) = fail .expectingValue (c :: rest) := by
  simp only [openers, nonParts, nonStarters, List.cons_append, List.nil_append, List.mem_cons,
    List.not_mem_nil, or_false] at h
  rcases h with rfl | rfl | rfl | rfl | rfl | rfl | rfl | rfl | rfl | rfl <;> rfl

theorem Reads.head?_ne {part : Part} {text rest : Text} (h : Reads part text rest) {c : CodePoint}
    (hc : c ∈ nonParts) : text.head? ≠ some c := by
  have hopeners : ∀ c ∈ openers, c ∉ nonParts := by decide
  induction h with
  | atom h =>
    intro hhead
    obtain ⟨more, rfl⟩ := List.head?_eq_some_iff.1 hhead
    rw [readAtom_nonPart (List.mem_append_right _ hc)] at h
    cases h
  | lastItem _ _ ih => exact ih
  | item _ _ _ ih _ => exact ih
  | _ =>
    intro heq
    cases heq
    exact absurd hc (hopeners _ (by decide))

/-- Where the readers stand: at a value, at the items of a list or at the entries of a map. -/
inductive Place where
  | value
  | items
  | entries

/-- The steps that are enough at a place: two for each character, and one for a value or two for parts, of
which the first is a value. -/
def Place.steps (text : Text) : Place → Nat
  | .value => 2 * text.length + 1
  | .items => 2 * text.length + 2
  | .entries => 2 * text.length + 2

theorem Place.exists_eq_succ {place : Place} {text : Text} {steps : Nat} (h : place.steps text ≤ steps) :
    ∃ fewer, steps = fewer + 1 := by
  refine Nat.exists_eq_add_one.2 (Nat.lt_of_lt_of_le ?_ h)
  cases place <;> exact Nat.succ_pos _

/-- A step is left over where the text has become shorter. -/
theorem Place.steps_le_of_length_lt {place : Place} (place' : Place) {text text' : Text} {steps : Nat}
    (h : place.steps text ≤ steps + 1) (hlt : text'.length < text.length) : place'.steps text' ≤ steps := by
  have hle : 2 * text.length + 1 ≤ place.steps text := by
    cases place <;> (simp only [Place.steps]; omega)
  have hle' : place'.steps text' ≤ 2 * text'.length + 2 := by
    cases place' <;> (simp only [Place.steps]; omega)
  omega

/-- Where a part is read. -/
def Part.place : Part → Place
  | .value _ => .value
  | .items _ => .items
  | .entries _ => .entries

/-- The reader of its kind yields the part. -/
def Part.IsRead (steps : Nat) (text rest : Text) : Part → Prop
  | .value v => readValue steps text = .ok (v, rest)
  | .items vs => readItems steps text = .ok (vs, rest)
  | .entries es => readEntries steps text = .ok (es, rest)

theorem readValue_list {steps : Nat} {text : Text}
    (h : (skipSpace text).head? ≠ some (CodePoint.char ']')) :
    readValue (steps + 1) (CodePoint.char '[' :: text) =
      (fun found : List Value × Text => (.list found.1, found.2)) <$> readItems steps (skipSpace text) := by
  rw [readValue]
  split
  · rename_i heq
    rw [heq] at h
    exact absurd rfl h
  · cases readItems steps (skipSpace text) <;> rfl

theorem readValue_map {steps : Nat} {text : Text}
    (h : (skipSpace text).head? ≠ some (CodePoint.char '\x7d')) :
    readValue (steps + 1) (CodePoint.char '\x7b' :: text) =
      (fun found : List (Key × Value) × Text => (.map (Entries.ofList found.1), found.2)) <$>
        readEntries steps (skipSpace text) := by
  rw [readValue]
  split
  · rename_i heq
    rw [heq] at h
    exact absurd rfl h
  · cases readEntries steps (skipSpace text) <;> rfl

theorem readValue_eq_readAtom {text : Text} (h : ∀ c ∈ openers, text.head? ≠ some c) (steps : Nat) :
    readValue (steps + 1) text = readAtom text := by
  cases text with
  | nil => rfl
  | cons c more => exact readValue_atom (fun hc => h c hc rfl) steps more

theorem readValue_of_readAtom {steps : Nat} {text rest : Text} {v : Value} (h : readAtom text = .ok (v, rest)) :
    readValue (steps + 1) text = .ok (v, rest) := by
  rw [readValue_eq_readAtom _ steps, h]
  intro c hc hhead
  obtain ⟨more, rfl⟩ := List.head?_eq_some_iff.1 hhead
  rw [readAtom_nonPart (List.mem_append_left _ hc)] at h
  cases h

theorem readValue_string {steps : Nat} {text s rest : Text} (h : ReadsString text s rest) :
    readValue (steps + 1) (CodePoint.char '\x22' :: text) = .ok (.text s, rest) := by
  unfold ReadsString at h
  rw [readValue, List.length_cons, h]
  rfl

/-- With enough steps the readers yield all that is in the grammar. -/
theorem Reads.isRead {part : Part} {text rest : Text} (h : Reads part text rest) {steps : Nat}
    (hsteps : part.place.steps text ≤ steps) : part.IsRead steps text rest := by
  induction h generalizing steps with
  | atom h =>
    obtain ⟨steps, rfl⟩ := Place.exists_eq_succ hsteps
    exact readValue_of_readAtom h
  | string h =>
    obtain ⟨steps, rfl⟩ := Place.exists_eq_succ hsteps
    exact readValue_string h
  | emptyList h =>
    obtain ⟨steps, rfl⟩ := Place.exists_eq_succ hsteps
    rw [Part.IsRead, readValue, h]
    rfl
  | @list text rest items hitems ih =>
    obtain ⟨steps, rfl⟩ := Place.exists_eq_succ hsteps
    have hread : readItems steps (skipSpace text) = .ok (items, rest) :=
      ih (Place.steps_le_of_length_lt .items hsteps (length_skipSpace_lt_cons _ _))
    rw [Part.IsRead, readValue_list (hitems.head?_ne (by decide)), hread]
    rfl
  | emptyMap h =>
    obtain ⟨steps, rfl⟩ := Place.exists_eq_succ hsteps
    rw [Part.IsRead, readValue, h]
    rfl
  | @map text rest entries hentries ih =>
    obtain ⟨steps, rfl⟩ := Place.exists_eq_succ hsteps
    have hread : readEntries steps (skipSpace text) = .ok (entries, rest) :=
      ih (Place.steps_le_of_length_lt .entries hsteps (length_skipSpace_lt_cons _ _))
    rw [Part.IsRead, readValue_map (hentries.head?_ne (by decide)), hread]
    rfl
  | lastItem _ h ih =>
    obtain ⟨steps, rfl⟩ := Place.exists_eq_succ hsteps
    exact readItems_last (ih (Nat.le_of_succ_le_succ hsteps)) h
  | @item text behind more rest v items hvalue h _ ih ih' =>
    obtain ⟨steps, rfl⟩ := Place.exists_eq_succ hsteps
    have hmore := Nat.lt_trans (length_skipSpace_lt h) hvalue.length_lt
    have hread : readItems steps (skipSpace more) = .ok (items, rest) :=
      ih' (Place.steps_le_of_length_lt .items hsteps hmore)
    rw [Part.IsRead, readItems_next (ih (Nat.le_of_succ_le_succ hsteps)) h, hread]
    rfl
  | lastEntry hname hcolon _ h ih =>
    obtain ⟨steps, rfl⟩ := Place.exists_eq_succ hsteps
    have hvalue := Nat.lt_trans (length_skipSpace_lt hcolon) (length_lt_of_readString hname)
    exact readEntries_last hname hcolon
      (ih (Place.steps_le_of_length_lt .value hsteps (Nat.lt_succ_of_lt hvalue))) h
  | @entry text name colon value behind more rest v entries hname hcolon hvalue h _ ih ih' =>
    obtain ⟨steps, rfl⟩ := Place.exists_eq_succ hsteps
    have hlt := Nat.lt_trans (length_skipSpace_lt hcolon) (length_lt_of_readString hname)
    have hmore := Nat.lt_trans (length_skipSpace_lt h) (Nat.lt_trans hvalue.length_lt hlt)
    have hread : readEntries steps (skipSpace more) = .ok (entries, rest) :=
      ih' (Place.steps_le_of_length_lt .entries hsteps (Nat.lt_succ_of_lt hmore))
    rw [Part.IsRead, readEntries_next hname hcolon
      (ih (Place.steps_le_of_length_lt .value hsteps (Nat.lt_succ_of_lt hlt))) h, hread]
    rfl

/-! ## Whole texts -/

/-- Exactly the texts that are a value between spaces are read, as this value. -/
theorem readWhole_eq_ok_iff {text : Text} {v : Value} :
    readWhole text = .ok v ↔ ∃ rest, Reads (.value v) (skipSpace text) rest ∧ skipSpace rest = [] := by
  constructor
  · intro h
    unfold readWhole at h
    split at h
    · cases h
    · obtain ⟨⟨v', rest⟩, hread, h⟩ := bind_eq_ok_iff.1 h
      dsimp only at h
      split at h
      · cases h
        exact ⟨rest, (sound _).value hread, ‹_›⟩
      · cases h
  · rintro ⟨rest, hread, hend⟩
    unfold readWhole
    split
    · rw [skipSpace_cons (by decide)] at hread
      exact absurd rfl (hread.head?_ne (by decide))
    · have hsteps : 2 * (skipSpace text).length + 1 ≤ 2 * text.length + 1 := by
        have hspace := length_skipSpace_le text
        omega
      have hvalue : readValue (2 * text.length + 1) (skipSpace text) = .ok (v, rest) := hread.isRead hsteps
      rw [hvalue]
      dsimp only [bind, Except.bind]
      rw [hend]
      rfl

theorem read_eq_ok_iff {text : Text} {v : Value} :
    read text = .ok v ↔ ∃ rest, Reads (.value v) (skipSpace text) rest ∧ skipSpace rest = [] := by
  rw [← readWhole_eq_ok_iff]
  unfold read
  cases hwhole : readWhole text with
  | ok v' =>
    constructor
    · rintro ⟨⟩
      rfl
    · rintro ⟨⟩
      rfl
  | error stop => cases stop <;> exact iff_of_false nofun nofun

end FluentQuery.Json
