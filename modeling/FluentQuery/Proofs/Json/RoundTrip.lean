/-
  Printed JSON reads back. A text is the text of a value (`IsValueText`) if it is read as this value
  with as many steps as it has characters, whatever stands behind it, as long as that does not go on with
  a number. The judgment holds of the words, of integers and strings, and it is closed under blocks, in
  which line breaks and blanks stand around the parts (`IsValueText.array`, `IsValueText.object`).
  `Keeps.printsBack`: so it holds of every value that JSON keeps, printed at any depth.
-/
import FluentQuery.Proofs.Json.StringText
import FluentQuery.Proofs.Numeric.DecimalText
import FluentQuery.Proofs.Value.Entries

namespace FluentQuery

/-! ## Digits -/

namespace Decimal

/-- The first digit is a zero for zero only. -/
theorem exists_ofNat_eq_cons {n : Nat} (h : 0 < n) :
    ∃ d more, ofNat n = d :: more ∧ d ≠ CodePoint.char '0' := by
  induction n using Nat.strongRecOn with
  | ind n ih =>
    by_cases hn : n < 10
    · have hdigit : ∀ d < 10, 0 < d → CodePoint.char (Nat.digitChar d) ≠ CodePoint.char '0' := by decide
      refine ⟨_, [], ?_, hdigit n hn h⟩
      rw [ofNat, Nat.toDigits_of_lt_base hn]
      rfl
    · obtain ⟨d, more, hmore, hd⟩ := ih (n / 10) (by omega) (by omega)
      refine ⟨d, more ++ [CodePoint.char (n % 10).digitChar], ?_, hd⟩
      rw [ofNat, Nat.toDigits_of_base_le (by decide) (Nat.not_lt.1 hn), Text.ofChars_append]
      exact congrArg (· ++ _) hmore

/-- The first character of a number is a digit. -/
theorem exists_ofNat_eq_digit (n : Nat) : ∃ d more, ofNat n = d :: more ∧ d.isDigit = true := by
  obtain ⟨d, more, hmore⟩ := List.exists_cons_of_ne_nil (ofNat_ne_nil n)
  exact ⟨d, more, hmore, isDigit_of_mem_ofNat (n := n) (hmore ▸ List.mem_cons_self)⟩

end Decimal

namespace Json

/-! ## Numbers -/

/-- The text does not go on with a number in front of it. -/
def EndsNumber (rest : Text) : Prop :=
  ∀ c, rest.head? = some c → c.isDigit = false ∧ c ≠ '.' ∧ c ≠ 'e' ∧ c ≠ 'E'

theorem endsNumber_nil : EndsNumber [] := by
  intro c hc
  cases hc

theorem digitValues?_eq {text : Text} (h : ∀ c ∈ text, c.isDigit = true) :
    Decimal.digitValues? text = some (digitValues text) := by
  induction text with
  | nil => rfl
  | cons c text ih =>
    rw [Decimal.digitValues?, Text.digitValue?_of_isDigit (h c List.mem_cons_self),
      ih fun d hd => h d (List.mem_cons_of_mem c hd)]
    rfl

theorem spanDigits_append {digits rest : Text} (hdigits : ∀ c ∈ digits, c.isDigit = true)
    (hrest : ∀ c, rest.head? = some c → c.isDigit = false) : spanDigits (digits ++ rest) = (digits, rest) := by
  have htake : rest.takeWhile CodePoint.isDigit = [] := by
    cases rest with
    | nil => rfl
    | cons c rest => exact List.takeWhile_cons_of_neg (by simp [hrest c rfl])
  have hsplit := List.takeWhile_append_dropWhile (p := CodePoint.isDigit) (l := rest)
  rw [htake, List.nil_append] at hsplit
  rw [spanDigits, List.takeWhile_append_of_pos hdigits, List.dropWhile_append_of_pos hdigits, htake,
    hsplit, List.append_nil]

/-- Digits that do not start with a zero stand before the point, up to what is no digit. -/
theorem spanWhole_append {whole rest : Text} (hdigits : ∀ c ∈ whole, c.isDigit = true) (hne : whole ≠ [])
    (hzero : whole.head? ≠ some (CodePoint.char '0'))
    (hrest : ∀ c, rest.head? = some c → c.isDigit = false) :
    spanWhole (whole ++ rest) = some (whole, rest) := by
  obtain ⟨d, more, rfl⟩ := List.exists_cons_of_ne_nil hne
  rw [List.cons_append]
  unfold spanWhole
  split
  · rename_i heq
    exact absurd (congrArg some (List.cons.inj heq).1) hzero
  · rename_i heq
    obtain ⟨rfl, rfl⟩ := List.cons.inj heq
    rw [if_pos (hdigits d List.mem_cons_self), ← List.cons_append, spanDigits_append hdigits hrest]
  · rename_i heq
    cases heq

theorem spanWhole_ofNat (n : Nat) {rest : Text} (hrest : EndsNumber rest) :
    spanWhole (Decimal.ofNat n ++ rest) = some (Decimal.ofNat n, rest) := by
  rcases Nat.eq_zero_or_pos n with rfl | hpos
  · rfl
  · obtain ⟨d, more, hmore, hzero⟩ := Decimal.exists_ofNat_eq_cons hpos
    refine spanWhole_append (fun c hc => Decimal.isDigit_of_mem_ofNat hc) (Decimal.ofNat_ne_nil n) ?_
      fun c hc => (hrest c hc).1
    rw [hmore]
    exact fun heq => hzero (Option.some.inj heq)

theorem spanFraction_cons {c : CodePoint} (hc : c ≠ '.') (rest : Text) :
    spanFraction (c :: rest) = (none, c :: rest) := by
  unfold spanFraction
  split
  · rename_i heq
    exact absurd (List.cons.inj heq).1 hc
  · rfl

theorem spanExponent_cons {c : CodePoint} (hlower : c ≠ 'e') (hupper : c ≠ 'E') (rest : Text) :
    spanExponent (c :: rest) = (none, c :: rest) := by
  unfold spanExponent
  dsimp only
  rw [if_neg (by simp [hlower, hupper])]

theorem spanFraction_of_endsNumber {rest : Text} (h : EndsNumber rest) :
    spanFraction rest = (none, rest) := by
  cases rest with
  | nil => rfl
  | cons c rest => exact spanFraction_cons (h c rfl).2.1 rest

theorem spanExponent_of_endsNumber {rest : Text} (h : EndsNumber rest) :
    spanExponent rest = (none, rest) := by
  cases rest with
  | nil => rfl
  | cons c rest => exact spanExponent_cons (h c rfl).2.2.1 (h c rfl).2.2.2 rest

theorem numberOf_ofNat {n : Int} (h : n.natAbs < 10 ^ Decimal.maxDigits) :
    numberOf (n < 0) (Decimal.ofNat n.natAbs) none none = .ok (.int n) := by
  obtain ⟨digits, hvalues, hlength, hread⟩ := Decimal.readDigits_toDigits n.natAbs
  rw [digitValues?_eq fun c hc => Decimal.isDigit_of_mem_ofNat hc] at hvalues
  cases hvalues
  rw [numberOf, Decimal.readSigned_of_readDigits hread
    (hlength ▸ (Decimal.length_ofNat_le_maxDigits_iff _).2 h)]

/-- The minus sign in front of a number, and what follows it. -/
def splitMinus : Text → Bool × Text
  | '-' :: body => (true, body)
  | body => (false, body)

/-- Behind the digits before the point, a fraction and then an exponent are part of a number. -/
theorem readNumber_of_spanWhole {text whole rest : Text}
    (h : spanWhole (splitMinus text).2 = some (whole, rest)) :
    readNumber text = (numberOf (splitMinus text).1 whole (spanFraction rest).1
      (spanExponent (spanFraction rest).2).1).map (·, (spanExponent (spanFraction rest).2).2) := by
  unfold readNumber
  split
  rename_i negative body hbody
  have hsplit : splitMinus text = (negative, body) := hbody
  rw [hsplit] at h ⊢
  rw [h]

theorem readNumber_of_spanWhole_eq_none {text : Text} (h : spanWhole (splitMinus text).2 = none) :
    readNumber text = fail .expectingValue text := by
  unfold readNumber
  split
  rename_i negative body hbody
  have hsplit : splitMinus text = (negative, body) := hbody
  rw [hsplit] at h
  rw [h]

theorem splitMinus_of_isDigit {c : CodePoint} (hc : c.isDigit = true) (rest : Text) :
    splitMinus (c :: rest) = (false, c :: rest) := by
  unfold splitMinus
  split
  · rename_i heq
    obtain ⟨rfl, -⟩ := List.cons.inj heq
    cases hc
  · rfl

theorem splitMinus_ofInt (n : Int) (rest : Text) :
    splitMinus (Decimal.ofInt n ++ rest) = (decide (n < 0), Decimal.ofNat n.natAbs ++ rest) := by
  obtain ⟨d, more, hmore, hd⟩ := Decimal.exists_ofNat_eq_digit n.natAbs
  unfold Decimal.ofInt
  by_cases hn : n < 0
  · rw [if_pos hn, decide_eq_true hn]
    rfl
  · rw [if_neg hn, decide_eq_false hn, hmore, List.cons_append]
    exact splitMinus_of_isDigit hd _

/-- Sign and digits of an integer are read as this integer. -/
theorem readNumber_ofInt {n : Int} (h : n.natAbs < 10 ^ Decimal.maxDigits) {rest : Text}
    (hrest : EndsNumber rest) : readNumber (Decimal.ofInt n ++ rest) = .ok (.int n, rest) := by
  have hwhole : spanWhole (splitMinus (Decimal.ofInt n ++ rest)).2 = some (Decimal.ofNat n.natAbs, rest) := by
    rw [splitMinus_ofInt]
    exact spanWhole_ofNat n.natAbs hrest
  rw [readNumber_of_spanWhole hwhole, splitMinus_ofInt, spanFraction_of_endsNumber hrest]
  dsimp only
  rw [spanExponent_of_endsNumber hrest]
  dsimp only
  rw [numberOf_ofNat h]
  rfl

/-- A digit stands at the start of the text, or behind a sign there. -/
def startsNumber : Text → Bool
  | '-' :: d :: _ => d.isDigit
  | d :: _ => d.isDigit
  | [] => false

theorem startsNumber_of_isDigit {d : CodePoint} (hd : d.isDigit = true) (rest : Text) :
    startsNumber (d :: rest) = true := by
  unfold startsNumber
  split
  · rename_i heq
    obtain ⟨rfl, -⟩ := List.cons.inj heq
    cases hd
  · rename_i heq
    obtain ⟨rfl, -⟩ := List.cons.inj heq
    exact hd
  · rename_i heq
    cases heq

theorem startsNumber_ofInt (n : Int) (rest : Text) : startsNumber (Decimal.ofInt n ++ rest) = true := by
  obtain ⟨d, more, hmore, hd⟩ := Decimal.exists_ofNat_eq_digit n.natAbs
  unfold Decimal.ofInt
  rw [hmore]
  split
  · exact hd
  · exact startsNumber_of_isDigit hd _

/-- No word starts like a number, not even the one with a sign. -/
theorem startsNumber_word : ∀ p ∈ words, ∀ rest, startsNumber (p.1 ++ rest) = false := by
  intro p hp rest
  simp only [words, List.mem_cons, List.not_mem_nil, or_false] at hp
  rcases hp with rfl | rfl | rfl | rfl | rfl | rfl <;> rfl

theorem readAtom_of_startsNumber {text : Text} (h : startsNumber text = true) :
    readAtom text = readNumber text := by
  have hnone : (words.findSome? fun p => (Text.after? p.1 text).map (p.2, ·)) = none := by
    refine List.findSome?_eq_none_iff.2 fun p hp => ?_
    rw [Option.map_eq_none_iff]
    cases hafter : Text.after? p.1 text with
    | none => rfl
    | some behind =>
      have hword := startsNumber_word p hp behind
      rw [← Text.after?_eq_some_iff.1 hafter, h] at hword
      cases hword
  unfold readAtom
  split
  · rename_i heq
    rw [hnone] at heq
    cases heq
  · rfl

theorem readAtom_ofInt {n : Int} (h : n.natAbs < 10 ^ Decimal.maxDigits) {rest : Text}
    (hrest : EndsNumber rest) : readAtom (Decimal.ofInt n ++ rest) = .ok (.int n, rest) := by
  rw [readAtom_of_startsNumber (startsNumber_ofInt n rest)]
  exact readNumber_ofInt h hrest

/-! ## Texts of values -/

theorem skipSpace_cons {c : CodePoint} (hc : isSpace c = false) (rest : Text) :
    skipSpace (c :: rest) = c :: rest := List.dropWhile_cons_of_neg (by simp [hc])

theorem skipSpace_append {spaces : Text} (h : ∀ c ∈ spaces, isSpace c = true) {c : CodePoint}
    (hc : isSpace c = false) (rest : Text) : skipSpace (spaces ++ c :: rest) = c :: rest :=
  (List.dropWhile_append_of_pos h).trans (skipSpace_cons hc rest)

theorem isSpace_newLine (depth : Nat) : ∀ c ∈ newLine depth, isSpace c = true := by
  intro c hc
  rcases List.mem_cons.1 hc with rfl | hc
  · rfl
  · rw [List.eq_of_mem_replicate hc]
    rfl

/-- The characters that no text of a value starts with, although spaces, the bracket that closes a list
and the byte order mark may stand where a value is read. -/
def nonStarters : List CodePoint := [' ', '\t', '\n', '\r', ']', '\ufeff']

/-- A text that is read as the value, wherever a number may end behind it, with as many steps as it has
characters. -/
structure IsValueText (text : Text) (v : Value) : Prop where
  start : ∃ c more, text = c :: more ∧ c ∉ nonStarters
  read : ∀ (steps : Nat) (rest : Text), text.length ≤ steps → EndsNumber rest →
    readValue steps (text ++ rest) = .ok (v, rest)

theorem isSpace_of_starter {c : CodePoint} (h : c ∉ nonStarters) : isSpace c = false := by
  simp only [nonStarters, List.mem_cons, not_or] at h
  simp [isSpace, h]

/-- The characters that a string, a map and a list start with. -/
def openers : List CodePoint := ['\x22', '\x7b', '[']

theorem readValue_atom {c : CodePoint} (h : c ∉ openers) (steps : Nat) (more : Text) :
    readValue (steps + 1) (c :: more) = readAtom (c :: more) := by
  simp only [openers, List.mem_cons, List.not_mem_nil, or_false, not_or] at h
  obtain ⟨hquote, hbrace, hbracket⟩ := h
  unfold readValue
  split
  · rename_i heq
    exact absurd (List.cons.inj heq).1 hquote
  · rename_i heq
    exact absurd (List.cons.inj heq).1 hbrace
  · rename_i heq
    exact absurd (List.cons.inj heq).1 hbracket
  · rfl

/-- A text of a value has a character, so there is a step to read it with. -/
theorem IsValueText.of_read_succ {text : Text} {v : Value}
    (hstart : ∃ c more, text = c :: more ∧ c ∉ nonStarters)
    (hread : ∀ (steps : Nat) (rest : Text), text.length ≤ steps + 1 → EndsNumber rest →
      readValue (steps + 1) (text ++ rest) = .ok (v, rest)) : IsValueText text v := by
  refine ⟨hstart, fun steps rest hsteps hrest => ?_⟩
  cases steps with
  | zero =>
    obtain ⟨c, more, rfl, -⟩ := hstart
    exact absurd hsteps (Nat.not_succ_le_zero _)
  | succ steps => exact hread steps rest hsteps hrest

/-- A word or a number is the text of the value that it is read as. -/
theorem IsValueText.atom {text : Text} {v : Value}
    (hstart : ∃ c more, text = c :: more ∧ c ∉ openers ++ nonStarters)
    (hread : ∀ rest, EndsNumber rest → readAtom (text ++ rest) = .ok (v, rest)) : IsValueText text v := by
  obtain ⟨c, more, rfl, hc⟩ := hstart
  rw [List.mem_append, not_or] at hc
  refine .of_read_succ ⟨c, more, rfl, hc.2⟩ fun steps rest _ hrest => ?_
  rw [List.cons_append, readValue_atom hc.1]
  exact hread rest hrest

theorem IsValueText.null : IsValueText "null" .null :=
  .atom ⟨_, _, rfl, by decide⟩ fun _ _ => rfl

theorem IsValueText.bool (b : Bool) : IsValueText (if b then "true" else "false") (.bool b) := by
  cases b
  · exact .atom ⟨_, _, rfl, by decide⟩ fun _ _ => rfl
  · exact .atom ⟨_, _, rfl, by decide⟩ fun _ _ => rfl

theorem IsValueText.int {n : Int} (h : n.natAbs < 10 ^ Decimal.maxDigits) :
    IsValueText (Decimal.ofInt n) (.int n) := by
  refine .atom ?_ fun rest hrest => readAtom_ofInt h hrest
  obtain ⟨d, more, hmore, hd⟩ := Decimal.exists_ofNat_eq_digit n.natAbs
  unfold Decimal.ofInt
  rw [hmore]
  split
  · exact ⟨_, _, rfl, by decide⟩
  · refine ⟨d, more, rfl, fun hmem => ?_⟩
    have hnone : ∀ c ∈ openers ++ nonStarters, c.isDigit = false := by decide
    rw [hnone d hmem] at hd
    cases hd

theorem IsValueText.string (escaping : Escaping) {s : Text} (h : s.NoSurrogates) :
    IsValueText (Json.string escaping s) (.text s) := by
  refine .of_read_succ ⟨_, _, string_eq escaping s, by decide⟩ fun steps rest _ _ => ?_
  rw [string_eq, List.cons_append, readValue, readString_closedString escaping h]
  rfl

/-! ## Lists and maps -/

/-- The characters that follow the parts of a list or a map. -/
def closers : List CodePoint := [',', ']', '\x7d']

theorem endsNumber_closer {c : CodePoint} (hc : c ∈ closers) (rest : Text) : EndsNumber (c :: rest) := by
  have hclosers : ∀ c ∈ closers, c.isDigit = false ∧ c ≠ '.' ∧ c ≠ 'e' ∧ c ≠ 'E' := by decide
  intro d hd
  cases hd
  exact hclosers c hc

/-- Spaces in front of it end a number, too. -/
theorem endsNumber_spaces {spaces : Text} (hspaces : ∀ c ∈ spaces, isSpace c = true) {c : CodePoint}
    (hc : c ∈ closers) (rest : Text) : EndsNumber (spaces ++ c :: rest) := by
  cases spaces with
  | nil => exact endsNumber_closer hc rest
  | cons b spaces =>
    intro d hd
    cases hd
    have hspace := hspaces b List.mem_cons_self
    simp only [isSpace, Bool.or_eq_true, decide_eq_true_eq] at hspace
    rcases hspace with ((rfl | rfl) | rfl) | rfl <;> decide

theorem exists_join_eq_append (separator first : Text) (texts : List Text) :
    ∃ more, Text.join separator (first :: texts) = first ++ more := by
  cases texts with
  | nil => exact ⟨[], (List.append_nil first).symm⟩
  | cons next texts => exact ⟨separator ++ Text.join separator (next :: texts), List.append_assoc _ _ _⟩

/-- The parts of a list or a map stand between lines of their own. -/
theorem block_append (opening closing : CodePoint) (depth : Nat) (part : Text) (parts : List Text)
    (rest : Text) : block opening closing depth (part :: parts) ++ rest =
      opening :: (newLine (depth + 1) ++
        (Text.join (CodePoint.char ',' :: newLine (depth + 1)) (part :: parts) ++
          (newLine depth ++ closing :: rest))) := by
  rw [block, List.append_assoc, List.append_assoc, List.append_assoc, List.cons_append,
    List.singleton_append]
  rintro ⟨⟩

theorem exists_block_eq_cons (opening closing : CodePoint) (depth : Nat) (parts : List Text) :
    ∃ inside, block opening closing depth parts = opening :: inside := by
  cases parts <;> exact ⟨_, rfl⟩

theorem length_block (opening closing : CodePoint) (depth : Nat) (part : Text) (parts : List Text) :
    (Text.join (CodePoint.char ',' :: newLine (depth + 1)) (part :: parts)).length + 1 <
      (block opening closing depth (part :: parts)).length := by
  have hline : 0 < (newLine (depth + 1)).length := Nat.succ_pos _
  rw [← List.append_nil (block opening closing depth (part :: parts)), block_append, List.length_cons,
    List.length_append, List.length_append]
  omega

/-- A reader of parts, of which each is read as what `part` makes of its meaning: it stops behind the
closing character, and goes on behind a comma. -/
structure ReadsParts {α β : Type} (closing : CodePoint) (IsPart : Text → α → Prop)
    (readMany : Nat → Text → Except Stop (List β × Text)) (part : α → β) : Prop where
  closing_mem : closing ∈ closers
  start : ∀ {text a}, IsPart text a → ∃ c more, text = c :: more ∧ isSpace c = false ∧ c ≠ closing
  last : ∀ {text a steps behind rest}, IsPart text a → text.length ≤ steps → EndsNumber behind →
    skipSpace behind = closing :: rest → readMany (steps + 1) (text ++ behind) = .ok ([part a], rest)
  next : ∀ {text a steps behind rest}, IsPart text a → text.length ≤ steps → EndsNumber behind →
    skipSpace behind = CodePoint.char ',' :: rest → readMany (steps + 1) (text ++ behind) =
      (fun found : List β × Text => (part a :: found.1, found.2)) <$> readMany steps (skipSpace rest)

namespace ReadsParts

variable {α β : Type} {closing : CodePoint} {IsPart : Text → α → Prop}
  {readMany : Nat → Text → Except Stop (List β × Text)} {part : α → β}

/-- The parts, with a comma and spaces between any two, are read one after the other. -/
theorem join (h : ReadsParts closing IsPart readMany part) {gap back : Text}
    (hgap : ∀ c ∈ gap, isSpace c = true) (hback : ∀ c ∈ back, isSpace c = true) {texts : List Text}
    {values : List α} (hparts : List.Forall₂ IsPart texts values) (hne : texts ≠ []) (steps : Nat)
    (rest : Text) (hsteps : (Text.join (CodePoint.char ',' :: gap) texts).length < steps) :
    readMany steps (Text.join (CodePoint.char ',' :: gap) texts ++ (back ++ closing :: rest)) =
      .ok (values.map part, rest) := by
  induction hparts generalizing steps with
  | nil => exact absurd rfl hne
  | @cons text a texts values ha hvalues ih =>
    cases steps with
    | zero => exact absurd hsteps (Nat.not_lt_zero _)
    | succ steps =>
      cases hvalues with
      | nil =>
        have hspace : isSpace closing = false := by
          have hclosers : ∀ c ∈ closers, isSpace c = false := by decide
          exact hclosers closing h.closing_mem
        exact h.last ha (Nat.le_of_lt_succ hsteps) (endsNumber_spaces hback h.closing_mem rest)
          (skipSpace_append hback hspace rest)
      | @cons following b texts values hb hvalues =>
        rw [Text.join, List.length_append, List.length_append, List.length_cons] at hsteps
        have hmore := ih (List.cons_ne_nil _ _) steps (by omega)
        obtain ⟨more, hjoin⟩ := exists_join_eq_append (CodePoint.char ',' :: gap) following texts
        obtain ⟨c, inner, hfollowing, hc, -⟩ := h.start hb
        rw [hjoin, hfollowing] at hmore
        have hcomma : EndsNumber (CodePoint.char ',' :: (gap ++ (c :: inner ++ more ++
            (back ++ closing :: rest)))) := endsNumber_closer (by decide) _
        rw [Text.join, hjoin, hfollowing, List.append_assoc, List.append_assoc, List.cons_append,
          h.next ha (by omega) hcomma (skipSpace_cons (by decide) _),
          List.cons_append, List.cons_append, skipSpace_append hgap hc]
        exact congrArg _ hmore

/-- Behind the opening character of a block the parts are read up to its closing one. -/
theorem block (h : ReadsParts closing IsPart readMany part) {texts : List Text} {values : List α}
    (hparts : List.Forall₂ IsPart texts values) (hne : texts ≠ []) (opening : CodePoint) (depth : Nat)
    {steps : Nat} (hsteps : (Json.block opening closing depth texts).length ≤ steps + 1) (rest : Text) :
    ∃ inside c more, Json.block opening closing depth texts ++ rest = opening :: inside ∧
      skipSpace inside = c :: more ∧ c ≠ closing ∧
        readMany steps (c :: more) = .ok (values.map part, rest) := by
  cases hparts with
  | nil => exact absurd rfl hne
  | @cons text a texts values ha hvalues =>
    have hlength := length_block opening closing depth text texts
    have hread := h.join (isSpace_newLine (depth + 1)) (isSpace_newLine depth) (.cons ha hvalues)
      (List.cons_ne_nil _ _) steps rest (by omega)
    obtain ⟨more, hjoin⟩ := exists_join_eq_append (CodePoint.char ',' :: newLine (depth + 1)) text texts
    obtain ⟨c, inner, rfl, hc, hclosing⟩ := h.start ha
    rw [hjoin, List.cons_append, List.cons_append] at hread
    refine ⟨_, c, _, block_append opening closing depth (c :: inner) texts rest, ?_, hclosing, hread⟩
    rw [hjoin, List.cons_append, List.cons_append]
    exact skipSpace_append (isSpace_newLine (depth + 1)) hc _

end ReadsParts

section

variable {steps : Nat} {text behind rest : Text} {v : Value}

/-- A bracket behind an item ends the list. -/
theorem readItems_last (h : readValue steps text = .ok (v, behind))
    (hclosed : skipSpace behind = CodePoint.char ']' :: rest) :
    readItems (steps + 1) text = .ok ([v], rest) := by
  rw [readItems, h]
  dsimp only [bind, Except.bind]
  rw [hclosed]
  rfl

/-- A comma behind an item goes on with the list. -/
theorem readItems_next (h : readValue steps text = .ok (v, behind))
    (hcomma : skipSpace behind = CodePoint.char ',' :: rest) : readItems (steps + 1) text =
      (fun found : List Value × Text => (v :: found.1, found.2)) <$> readItems steps (skipSpace rest) := by
  rw [readItems, h]
  dsimp only [bind, Except.bind]
  rw [hcomma]
  change (readItems steps (skipSpace rest)).bind _ = _
  cases readItems steps (skipSpace rest) <;> rfl

variable {name colon value : Text}

/-- A brace behind the value of an entry ends the map. -/
theorem readEntries_last (hname : readString (text.length + 1) text.length text = .ok (name, colon))
    (hcolon : skipSpace colon = CodePoint.char ':' :: value)
    (hvalue : readValue steps (skipSpace value) = .ok (v, behind))
    (hclosed : skipSpace behind = CodePoint.char '\x7d' :: rest) :
    readEntries (steps + 1) (CodePoint.char '\x22' :: text) = .ok ([(.text name, v)], rest) := by
  rw [readEntries, List.length_cons, hname]
  dsimp only [bind, Except.bind]
  rw [hcolon]
  change (readValue steps (skipSpace value)).bind _ = _
  rw [hvalue]
  dsimp only [Except.bind]
  rw [hclosed]
  rfl

/-- A comma behind the value of an entry goes on with the map. -/
theorem readEntries_next (hname : readString (text.length + 1) text.length text = .ok (name, colon))
    (hcolon : skipSpace colon = CodePoint.char ':' :: value)
    (hvalue : readValue steps (skipSpace value) = .ok (v, behind))
    (hcomma : skipSpace behind = CodePoint.char ',' :: rest) :
    readEntries (steps + 1) (CodePoint.char '\x22' :: text) =
      (fun found : List (Key × Value) × Text => ((.text name, v) :: found.1, found.2)) <$>
        readEntries steps (skipSpace rest) := by
  rw [readEntries, List.length_cons, hname]
  dsimp only [bind, Except.bind]
  rw [hcolon]
  change (readValue steps (skipSpace value)).bind _ = _
  rw [hvalue]
  dsimp only [Except.bind]
  rw [hcomma]
  change (readEntries steps (skipSpace rest)).bind _ = _
  cases readEntries steps (skipSpace rest) <;> rfl

end

/-- Items are read as the values that they are texts of. -/
theorem readsParts_items : ReadsParts ']' IsValueText readItems id where
  closing_mem := by decide
  start h := by
    obtain ⟨c, more, rfl, hc⟩ := h.start
    refine ⟨c, more, rfl, isSpace_of_starter hc, ?_⟩
    rintro rfl
    exact hc (by decide)
  last h hsteps hbehind hclosed := readItems_last (h.read _ _ hsteps hbehind) hclosed
  next h hsteps hbehind hcomma := readItems_next (h.read _ _ hsteps hbehind) hcomma

theorem IsValueText.array {texts : List Text} {values : List Value}
    (h : List.Forall₂ IsValueText texts values) (depth : Nat) :
    IsValueText (block '[' ']' depth texts) (.list values) := by
  obtain ⟨inside, hstart⟩ := exists_block_eq_cons '[' ']' depth texts
  refine .of_read_succ ⟨_, _, hstart, by decide⟩ fun steps rest hsteps _ => ?_
  cases h with
  | nil => rfl
  | cons hv hvalues =>
    obtain ⟨inside, c, more, hblock, hskip, hc, hread⟩ := readsParts_items.block (.cons hv hvalues)
      (List.cons_ne_nil _ _) '[' depth hsteps rest
    rw [List.map_id] at hread
    rw [hblock, readValue, hskip]
    split
    · rename_i heq
      exact absurd (List.cons.inj heq).1 hc
    · rw [hread]
      rfl

/-- A name and the text of its value, with the entry that they are read as. -/
inductive IsMember (escaping : Escaping) : Text → Text × Value → Prop
  | intro {name text : Text} {v : Value} : name.NoSurrogates → IsValueText text v →
      IsMember escaping (member escaping name text) (name, v)

/-- Behind the name, the colon and the blank the value is read; a brace behind it ends the entries, and a
comma goes on with them. -/
theorem readEntries_member (escaping : Escaping) {name text behind : Text} {v : Value}
    (hname : name.NoSurrogates) (hv : IsValueText text v) {steps : Nat} (hsteps : text.length ≤ steps)
    (hbehind : EndsNumber behind) :
    (∀ rest, skipSpace behind = CodePoint.char '\x7d' :: rest →
      readEntries (steps + 1) (member escaping name text ++ behind) = .ok ([(.text name, v)], rest)) ∧
    (∀ rest, skipSpace behind = CodePoint.char ',' :: rest →
      readEntries (steps + 1) (member escaping name text ++ behind) =
        (fun found : List (Key × Value) × Text => ((.text name, v) :: found.1, found.2)) <$>
          readEntries steps (skipSpace rest)) := by
  have htext : member escaping name text ++ behind = CodePoint.char '\x22' ::
      (closedString escaping name ++ CodePoint.char ':' :: (" " ++ (text ++ behind))) := by
    simp [member, string_eq, closedString]
  have hblank : ∀ c ∈ (" " : Text), isSpace c = true := by decide
  have hvalue : skipSpace (" " ++ (text ++ behind)) = text ++ behind := by
    obtain ⟨c, more, rfl, hc⟩ := hv.start
    exact skipSpace_append hblank (isSpace_of_starter hc) (more ++ behind)
  have hread := hv.read steps behind hsteps hbehind
  rw [← hvalue] at hread
  have hcolon := skipSpace_cons (c := ':') (by decide) (" " ++ (text ++ behind))
  rw [htext]
  exact ⟨fun rest => readEntries_last (readString_closedString escaping hname _ _) hcolon hread,
    fun rest => readEntries_next (readString_closedString escaping hname _ _) hcolon hread⟩

theorem length_le_member (escaping : Escaping) (name text : Text) :
    text.length ≤ (member escaping name text).length := by
  rw [member, List.length_append]
  omega

/-- Names and the texts of their values are read as entries under these names. -/
theorem readsParts_entries (escaping : Escaping) : ReadsParts '\x7d' (IsMember escaping) readEntries
    fun entry => (.text entry.1, entry.2) where
  closing_mem := by decide
  start h := by
    cases h
    exact ⟨_, _, rfl, by decide, by decide⟩
  last h hsteps hbehind hclosed := by
    obtain ⟨hname, hv⟩ := h
    have hvalue := Nat.le_trans (length_le_member escaping _ _) hsteps
    exact (readEntries_member escaping hname hv hvalue hbehind).1 _ hclosed
  next h hsteps hbehind hcomma := by
    obtain ⟨hname, hv⟩ := h
    have hvalue := Nat.le_trans (length_le_member escaping _ _) hsteps
    exact (readEntries_member escaping hname hv hvalue hbehind).2 _ hcomma

theorem IsValueText.object {escaping : Escaping} {parts : List Text} {entries : List (Text × Value)}
    (h : List.Forall₂ (IsMember escaping) parts entries) (hnodup : (entries.map (·.1)).Nodup)
    (depth : Nat) : IsValueText (block '\x7b' '\x7d' depth parts) (.map (Entries.named entries)) := by
  obtain ⟨inside, hstart⟩ := exists_block_eq_cons '\x7b' '\x7d' depth parts
  refine .of_read_succ ⟨_, _, hstart, by decide⟩ fun steps rest hsteps _ => ?_
  cases h with
  | nil => rfl
  | cons hmember hentries =>
    obtain ⟨inside, c, more, hblock, hskip, hc, hread⟩ := (readsParts_entries escaping).block
      (.cons hmember hentries) (List.cons_ne_nil _ _) '\x7b' depth hsteps rest
    rw [hblock, readValue, hskip]
    split
    · rename_i heq
      exact absurd (List.cons.inj heq).1 hc
    · rw [hread]
      exact congrArg (fun entries => Except.ok (Value.map entries, rest)) (Entries.ofList_named hnodup)

/-! ## Printed values -/

/-- Whether JSON keeps the value: null, a truth value, an integer that can be written, a text without
surrogates, or a list or a map of such values under different texts without surrogates. -/
inductive Keeps : Value → Prop
  | null : Keeps .null
  | bool (b : Bool) : Keeps (.bool b)
  | int {n : Int} : n.natAbs < 10 ^ Decimal.maxDigits → Keeps (.int n)
  | text {s : Text} : s.NoSurrogates → Keeps (.text s)
  | list {items : List Value} : (∀ v ∈ items, Keeps v) → Keeps (.list items)
  | map {entries : List (Text × Value)} : (entries.map (·.1)).Nodup →
      (∀ e ∈ entries, e.1.NoSurrogates) → (∀ e ∈ entries, Keeps e.2) → Keeps (.map (Entries.named entries))

section

variable (escaping : Escaping)

/-- At every depth the value is printed as a text that is read as this value. -/
def PrintsBack (v : Value) : Prop :=
  ∀ depth, ∃ text, printAt escaping depth v = .ok text ∧ IsValueText text v

theorem exists_printItems {items : List Value} (h : ∀ v ∈ items, PrintsBack escaping v) (depth : Nat) :
    ∃ texts, printItems escaping depth items = .ok texts ∧ List.Forall₂ IsValueText texts items := by
  induction items with
  | nil => exact ⟨[], rfl, .nil⟩
  | cons v items ih =>
    obtain ⟨text, hprint, htext⟩ := h v List.mem_cons_self depth
    obtain ⟨texts, hprints, htexts⟩ := ih fun w hw => h w (List.mem_cons_of_mem v hw)
    refine ⟨text :: texts, ?_, .cons htext htexts⟩
    rw [printItems, hprint, hprints]
    rfl

theorem exists_printEntries {entries : List (Text × Value)} (hnames : ∀ e ∈ entries, e.1.NoSurrogates)
    (h : ∀ e ∈ entries, PrintsBack escaping e.2) (depth : Nat) :
    ∃ parts, printEntries escaping depth (Entries.named entries) = .ok parts ∧
      List.Forall₂ (IsMember escaping) parts entries := by
  induction entries with
  | nil => exact ⟨[], rfl, .nil⟩
  | cons e entries ih =>
    obtain ⟨name, v⟩ := e
    obtain ⟨text, hprint, htext⟩ := h (name, v) List.mem_cons_self depth
    obtain ⟨parts, hprints, hparts⟩ := ih (fun e he => hnames e (List.mem_cons_of_mem _ he))
      fun e he => h e (List.mem_cons_of_mem _ he)
    refine ⟨member escaping name text :: parts, ?_,
      .cons (.intro (hnames (name, v) List.mem_cons_self) htext) hparts⟩
    unfold Entries.named at hprints ⊢
    rw [List.map_cons, printEntries, nameOf]
    dsimp only [bind, Except.bind]
    rw [hprint]
    dsimp only
    rw [hprints]
    rfl

/-- Every value that JSON keeps is printed, and the text is read as this value. -/
theorem Keeps.printsBack {v : Value} (h : Keeps v) : PrintsBack escaping v := by
  induction h with
  | null => exact fun _ => ⟨_, rfl, .null⟩
  | bool b => exact fun _ => ⟨_, rfl, .bool b⟩
  | int h => exact fun _ => ⟨_, Decimal.write_eq h, .int h⟩
  | text h => exact fun _ => ⟨_, rfl, .string escaping h⟩
  | list _ ih =>
    intro depth
    obtain ⟨texts, hprints, htexts⟩ := exists_printItems escaping ih (depth + 1)
    refine ⟨_, ?_, .array htexts depth⟩
    rw [printAt, hprints]
    rfl
  | map hnodup hnames _ ih =>
    intro depth
    obtain ⟨parts, hprints, hparts⟩ := exists_printEntries escaping hnames ih (depth + 1)
    refine ⟨_, ?_, .object hparts hnodup depth⟩
    rw [printAt, hprints]
    rfl

end

/-- The text of a value is a whole JSON text. -/
theorem IsValueText.read_eq {text : Text} {v : Value} (h : IsValueText text v) :
    Json.read text = .ok v := by
  obtain ⟨c, more, htext, hc⟩ := h.start
  have hread := h.read (2 * text.length + 1) [] (by omega) endsNumber_nil
  rw [List.append_nil] at hread
  have hwhole : readWhole text = .ok v := by
    unfold readWhole
    split
    · obtain ⟨rfl, -⟩ := List.cons.inj htext
      exact absurd (by decide) hc
    · have hstart : Json.skipSpace text = text := by
        rw [htext]
        exact skipSpace_cons (isSpace_of_starter hc) more
      rw [hstart, hread]
      rfl
  rw [Json.read, hwhole]

end Json

end FluentQuery
