/-
  Quotes that count: those behind an even run of backslashes (`UnescapedAt`). The searches for quotes
  find the first and the last of them, and the quote of an open literal is one (`openLiteral_eq_some_iff`).
  Whether a run is odd is decided by the text since the last character that is no backslash
  (`escapedBehind_append_cons`), so a line can be looked at on its own.
-/
import FluentQuery.Expression.Literal
import Mathlib

namespace FluentQuery

/-- Whether an odd run of backslashes ends a text, given that one stands before it iff `escaped`. -/
def escapedBehind (escaped : Bool) (text : Text) : Bool :=
  text.foldl (fun escaped c => c = Text.backslash && !escaped) escaped

theorem escapedBehind_cons (escaped : Bool) (c : CodePoint) (rest : Text) :
    escapedBehind escaped (c :: rest) = escapedBehind (c = Text.backslash && !escaped) rest := rfl

theorem escapedBehind_append (escaped : Bool) (a b : Text) :
    escapedBehind escaped (a ++ b) = escapedBehind (escapedBehind escaped a) b := List.foldl_append

/-- What stands before a character other than a backslash does not matter behind it. -/
theorem escapedBehind_append_cons (escaped : Bool) (a : Text) {c : CodePoint}
    (hc : c ≠ Text.backslash) (b : Text) :
    escapedBehind escaped (a ++ c :: b) = escapedBehind false b := by
  rw [escapedBehind_append, escapedBehind_cons]
  simp [hc]

theorem ne_backslash_of_mem_stringQuotes {quote : CodePoint} (h : quote ∈ stringQuotes) :
    quote ≠ Text.backslash := by
  rintro rfl
  exact absurd h (by decide)

/-- An unescaped `quote` stands at a position of the text. -/
def UnescapedAt (quote : CodePoint) (escaped : Bool) (text : Text) (position : Nat) : Prop :=
  ∃ front back, text = front ++ quote :: back ∧ front.length = position ∧
    escapedBehind escaped front = false

namespace UnescapedAt

variable {quote : CodePoint} {escaped : Bool} {position : Nat}

theorem zero (rest : Text) : UnescapedAt quote false (quote :: rest) 0 :=
  ⟨[], rest, rfl, rfl, rfl⟩

theorem lt_length {text : Text} (h : UnescapedAt quote escaped text position) :
    position < text.length := by
  obtain ⟨front, back, rfl, rfl, -⟩ := h
  simp

theorem cons_iff {c : CodePoint} {rest : Text} : UnescapedAt quote escaped (c :: rest) position ↔
    (position = 0 ∧ c = quote ∧ escaped = false) ∨
      ∃ before, position = before + 1 ∧
        UnescapedAt quote (c = Text.backslash && !escaped) rest before := by
  constructor
  · rintro ⟨front, back, htext, hlength, hescaped⟩
    cases front with
    | nil =>
      cases htext
      exact .inl ⟨hlength.symm, rfl, hescaped⟩
    | cons d front =>
      cases htext
      exact .inr ⟨front.length, hlength.symm, front, back, rfl, rfl, hescaped⟩
  · rintro (⟨rfl, rfl, rfl⟩ | ⟨before, rfl, front, back, rfl, rfl, hescaped⟩)
    · exact zero rest
    · exact ⟨c :: front, back, rfl, rfl, hescaped⟩

/-- The unescaped quotes of two texts in a row are those of the first one, and those of the second one as
the backslashes at the end of the first one leave them. -/
theorem append_iff {a b : Text} : UnescapedAt quote escaped (a ++ b) position ↔
    UnescapedAt quote escaped a position ∨
      ∃ behind, position = a.length + behind ∧
        UnescapedAt quote (escapedBehind escaped a) b behind := by
  constructor
  · rintro ⟨front, back, htext, rfl, hescaped⟩
    rcases List.append_eq_append_iff.1 htext with ⟨between, rfl, rfl⟩ | ⟨between, rfl, hbetween⟩
    · rw [escapedBehind_append] at hescaped
      exact .inr ⟨between.length, List.length_append, between, back, rfl, rfl, hescaped⟩
    · cases between with
      | nil =>
        rw [List.append_nil]
        exact .inr ⟨0, rfl, [], back, hbetween.symm, rfl, hescaped⟩
      | cons c between =>
        obtain ⟨rfl, rfl⟩ := List.cons.inj hbetween
        exact .inl ⟨front, between, rfl, rfl, hescaped⟩
  · rintro (⟨front, back, rfl, hlength, hescaped⟩ | ⟨_, rfl, front, back, rfl, rfl, hescaped⟩)
    · exact ⟨front, back ++ b, by rw [List.append_assoc, List.cons_append], hlength, hescaped⟩
    · refine ⟨a ++ front, back, (List.append_assoc _ _ _).symm, List.length_append, ?_⟩
      rw [escapedBehind_append, hescaped]

/-- A text in front moves a position on. -/
theorem append {front text : Text} (hfront : escapedBehind escaped front = false)
    (h : UnescapedAt quote false text position) :
    UnescapedAt quote escaped (front ++ text) (front.length + position) :=
  append_iff.2 (.inr ⟨position, rfl, hfront ▸ h⟩)

theorem append_right {text : Text} (h : UnescapedAt quote escaped text position) (behind : Text) :
    UnescapedAt quote escaped (text ++ behind) position := append_iff.2 (.inl h)

/-- An unescaped quote that does not stand in the first of two texts stands in the second one. -/
theorem behind {a b : Text} (h : UnescapedAt quote escaped (a ++ b) position)
    (hle : a.length ≤ position) :
    ∃ behind, position = a.length + behind ∧ UnescapedAt quote (escapedBehind escaped a) b behind := by
  refine (append_iff.1 h).resolve_left fun hat => ?_
  have hlt := hat.lt_length
  omega

theorem mem {text : Text} (h : UnescapedAt quote escaped text position) : quote ∈ text := by
  obtain ⟨front, back, rfl, -⟩ := h
  simp

/-- A text without the quote behind another one has no unescaped quote to add. -/
theorem of_append_of_not_mem {text behind : Text} (hbehind : quote ∉ behind)
    (h : UnescapedAt quote escaped (text ++ behind) position) :
    UnescapedAt quote escaped text position :=
  (append_iff.1 h).resolve_right fun ⟨_, _, hat⟩ => hbehind hat.mem

end UnescapedAt

/-! ## The first and the last one -/

theorem unescapedAt_of_firstUnescaped {quote : CodePoint} {escaped : Bool} {text : Text}
    {position : Nat} (h : firstUnescaped quote escaped text = some position) :
    UnescapedAt quote escaped text position ∧
      ∀ other, UnescapedAt quote escaped text other → position ≤ other := by
  induction text generalizing escaped position with
  | nil => cases h
  | cons c rest ih =>
    unfold firstUnescaped at h
    split at h
    · rename_i hc
      simp only [Bool.and_eq_true, decide_eq_true_eq, Bool.not_eq_eq_eq_not, Bool.not_true] at hc
      obtain ⟨rfl, rfl⟩ := hc
      cases h
      exact ⟨UnescapedAt.zero rest, fun other _ => Nat.zero_le other⟩
    · rename_i hc
      obtain ⟨before, hbefore, rfl⟩ := Option.map_eq_some_iff.1 h
      obtain ⟨hat, hfirst⟩ := ih hbefore
      refine ⟨UnescapedAt.cons_iff.2 (.inr ⟨before, rfl, hat⟩), ?_⟩
      intro other hother
      rcases UnescapedAt.cons_iff.1 hother with ⟨-, rfl, rfl⟩ | ⟨earlier, rfl, hearlier⟩
      · exact absurd (by simp) hc
      · exact Nat.succ_le_succ (hfirst earlier hearlier)

theorem unescapedAt_of_lastUnescaped {quote : CodePoint} {escaped : Bool} {text : Text}
    {position : Nat} (h : lastUnescaped quote escaped text = some position) :
    UnescapedAt quote escaped text position := by
  induction text generalizing escaped position with
  | nil => cases h
  | cons c rest ih =>
    unfold lastUnescaped at h
    split at h
    · rename_i before hbefore
      cases h
      exact UnescapedAt.cons_iff.2 (.inr ⟨before, rfl, ih hbefore⟩)
    · split at h
      · rename_i hc
        simp only [Bool.and_eq_true, decide_eq_true_eq, Bool.not_eq_eq_eq_not, Bool.not_true] at hc
        obtain ⟨rfl, rfl⟩ := hc
        cases h
        exact UnescapedAt.zero rest
      · cases h

/-- Where there is an unescaped quote there is a last one, and it stands no earlier. -/
theorem exists_lastUnescaped {quote : CodePoint} {escaped : Bool} {text : Text} {position : Nat}
    (h : UnescapedAt quote escaped text position) :
    ∃ last, lastUnescaped quote escaped text = some last ∧ position ≤ last := by
  induction text generalizing escaped position with
  | nil =>
    obtain ⟨front, back, htext, -⟩ := h
    exact absurd htext (by simp)
  | cons c rest ih =>
    unfold lastUnescaped
    rcases UnescapedAt.cons_iff.1 h with ⟨rfl, rfl, rfl⟩ | ⟨before, rfl, hbefore⟩
    · split
      · exact ⟨_, rfl, Nat.zero_le _⟩
      · exact ⟨0, if_pos (by simp), Nat.le_refl 0⟩
    · obtain ⟨last, hlast, hle⟩ := ih hbefore
      rw [hlast]
      exact ⟨last + 1, rfl, Nat.succ_le_succ hle⟩

/-- Where there is an unescaped quote there is a first one. -/
theorem exists_firstUnescaped {quote : CodePoint} {escaped : Bool} {text : Text} {position : Nat}
    (h : UnescapedAt quote escaped text position) :
    ∃ first, firstUnescaped quote escaped text = some first := by
  induction text generalizing escaped position with
  | nil => exact absurd h.mem (by simp)
  | cons c rest ih =>
    unfold firstUnescaped
    rcases UnescapedAt.cons_iff.1 h with ⟨rfl, rfl, rfl⟩ | ⟨before, rfl, hbefore⟩
    · exact ⟨0, if_pos (by simp)⟩
    · split
      · exact ⟨0, rfl⟩
      · obtain ⟨first, hfirst⟩ := ih hbefore
        exact ⟨first + 1, by rw [hfirst, Option.map_some]⟩

/-- The last unescaped quote is the one that no other follows. -/
theorem lastUnescaped_eq_some {quote : CodePoint} {escaped : Bool} {text : Text} {position : Nat}
    (h : UnescapedAt quote escaped text position)
    (hlast : ∀ other, UnescapedAt quote escaped text other → other ≤ position) :
    lastUnescaped quote escaped text = some position := by
  obtain ⟨last, hsome, hle⟩ := exists_lastUnescaped h
  rw [hsome, Nat.le_antisymm (hlast last (unescapedAt_of_lastUnescaped hsome)) hle]

/-- Whether a position is escaped is decided by the text before it. -/
theorem escapedAt_append (front back : Text) :
    escapedAt (front ++ back) front.length = escapedBehind false front := by
  unfold escapedAt
  rw [List.take_left]
  induction front using List.reverseRecOn with
  | nil => rfl
  | append_singleton front c ih =>
    rw [escapedBehind_append, escapedBehind_cons, ← ih, List.reverse_append, List.reverse_singleton,
      List.singleton_append, List.takeWhile_cons]
    by_cases hc : c = Text.backslash
    · rw [if_pos (decide_eq_true hc), List.length_cons, decide_eq_true hc, Bool.true_and,
        ← decide_not]
      exact decide_eq_decide.2 (by omega)
    · rw [if_neg (by simpa using hc), decide_eq_false hc]
      rfl

/-! ## Open literals -/

namespace LiteralState

theorem run_concat (quotes : List CodePoint) (text : Text) (c : CodePoint) :
    run quotes 0 .initial (text ++ [c]) =
      (run quotes 0 .initial text).step quotes text.length c := by
  rw [run_append, Nat.zero_add]
  rfl

theorem toggle_quote_iff {opened : Option OpenLiteral} {quote : CodePoint} {start position : Nat} :
    toggle opened quote position = some ⟨quote, start⟩ ↔ start = position ∧ opened = none := by
  cases opened with
  | none => simp [toggle, eq_comm]
  | some other =>
    change (if other.quote = quote then none else some other) = some ⟨quote, start⟩ ↔ _
    refine ⟨fun h => ?_, nofun⟩
    split at h
    · cases h
    · cases h
      exact absurd rfl ‹¬_›

theorem toggle_iff_of_ne {opened : Option OpenLiteral} {literal : OpenLiteral} {c : CodePoint}
    {position : Nat} (h : c ≠ literal.quote) :
    toggle opened c position = some literal ↔ opened = some literal := by
  cases opened with
  | none =>
    refine ⟨fun heq => ?_, nofun⟩
    cases Option.some.inj heq
    exact absurd rfl h
  | some other =>
    change (if other.quote = c then none else some other) = some literal ↔ _
    split
    · rename_i hc
      refine ⟨nofun, fun heq => ?_⟩
      cases Option.some.inj heq
      exact absurd hc.symm h
    · rfl

theorem escaped_run (quotes : List CodePoint) (text : Text) :
    (run quotes 0 .initial text).escaped = escapedBehind false text := by
  induction text using List.reverseRecOn with
  | nil => rfl
  | append_singleton text c ih =>
    rw [run_concat, escapedBehind_append, ← ih]
    rfl

end LiteralState

theorem openLiteral_concat (quotes : List CodePoint) (text : Text) (c : CodePoint) :
    openLiteral quotes (text ++ [c]) =
      if c ∈ quotes && !escapedBehind false text then
        LiteralState.toggle (openLiteral quotes text) c text.length
      else openLiteral quotes text := by
  unfold openLiteral
  rw [LiteralState.run_concat, LiteralState.step, LiteralState.escaped_run]

/-- Where the literal was opened that is open at the end of a text: outside of literals, at an unescaped
quote that is the last one of its kind. -/
structure IsOpening (quotes : List CodePoint) (text : Text) (literal : OpenLiteral) : Prop where
  quote_mem : literal.quote ∈ quotes
  unescaped : UnescapedAt literal.quote false text literal.start
  outside : openLiteral quotes (text.take literal.start) = none
  last : ∀ position, UnescapedAt literal.quote false text position → position ≤ literal.start

section Opening

variable {quotes : List CodePoint} {line text content : Text} {literal : OpenLiteral} {c quote : CodePoint}

/-- The text before the quote and the text behind it. -/
theorem IsOpening.exists_eq (h : IsOpening quotes text literal) : ∃ front back,
    text = front ++ literal.quote :: back ∧ front.length = literal.start ∧
      escapedBehind false front = false ∧ openLiteral quotes front = none := by
  obtain ⟨front, back, htext, hlength, hescaped⟩ := h.unescaped
  have houtside := h.outside
  rw [htext, ← hlength, List.take_left] at houtside
  exact ⟨front, back, htext, hlength, hescaped, houtside⟩

/-- Any other character leaves the literal open. -/
theorem isOpening_concat_iff (hc : ¬(c = literal.quote ∧ escapedBehind false text = false)) :
    IsOpening quotes (text ++ [c]) literal ↔ IsOpening quotes text literal := by
  have hsame (position : Nat) : UnescapedAt literal.quote false (text ++ [c]) position ↔
      UnescapedAt literal.quote false text position := by
    refine ⟨fun h => ?_, fun h => h.append_right [c]⟩
    refine (UnescapedAt.append_iff.1 h).resolve_right ?_
    rintro ⟨behind, -, hat⟩
    rcases UnescapedAt.cons_iff.1 hat with ⟨-, heq, hescaped⟩ | ⟨_, -, hnil⟩
    · exact hc ⟨heq, hescaped⟩
    · exact absurd hnil.mem (by simp)
  have htake (hat : UnescapedAt literal.quote false text literal.start) :
      (text ++ [c]).take literal.start = text.take literal.start :=
    List.take_append_of_le_length (Nat.le_of_lt hat.lt_length)
  constructor
  · rintro ⟨hquote, hat, houtside, hlast⟩
    rw [hsame] at hat
    rw [htake hat] at houtside
    exact ⟨hquote, hat, houtside, fun position hposition => hlast position ((hsame _).2 hposition)⟩
  · rintro ⟨hquote, hat, houtside, hlast⟩
    refine ⟨hquote, (hsame _).2 hat, ?_, fun position hposition =>
      hlast position ((hsame _).1 hposition)⟩
    rwa [htake hat]

/-- An unescaped quote opens a literal of its kind if none is open. -/
theorem isOpening_concat_quote_iff (hquote : literal.quote ∈ quotes)
    (hescaped : escapedBehind false text = false) :
    IsOpening quotes (text ++ [literal.quote]) literal ↔
      literal.start = text.length ∧ openLiteral quotes text = none := by
  have hat : UnescapedAt literal.quote false (text ++ [literal.quote]) text.length :=
    ⟨text, [], rfl, rfl, hescaped⟩
  have hbound {position : Nat}
      (h : UnescapedAt literal.quote false (text ++ [literal.quote]) position) :
      position ≤ text.length := by
    have hlt := h.lt_length
    rw [List.length_append, List.length_singleton] at hlt
    omega
  constructor
  · intro h
    have hstart : literal.start = text.length := Nat.le_antisymm (hbound h.unescaped) (h.last _ hat)
    have houtside := h.outside
    rw [hstart, List.take_left] at houtside
    exact ⟨hstart, houtside⟩
  · rintro ⟨hstart, hclosed⟩
    refine ⟨hquote, hstart ▸ hat, ?_, fun position hposition => hstart ▸ hbound hposition⟩
    rwa [hstart, List.take_left]

/-- The open literal that the scan of a text ends with is the one that was opened last and not closed. -/
theorem openLiteral_eq_some_iff :
    openLiteral quotes text = some literal ↔ IsOpening quotes text literal := by
  induction text using List.reverseRecOn with
  | nil => exact ⟨nofun, fun h => absurd h.unescaped.mem (by simp)⟩
  | append_singleton text c ih =>
    rw [openLiteral_concat]
    by_cases hc : c ∈ quotes ∧ escapedBehind false text = false
    · rw [if_pos (by simpa using hc)]
      by_cases hquote : c = literal.quote
      · subst hquote
        rw [isOpening_concat_quote_iff hc.1 hc.2, LiteralState.toggle_quote_iff]
      · rw [isOpening_concat_iff fun h => hquote h.1, LiteralState.toggle_iff_of_ne hquote, ih]
    · rw [if_neg (by simpa using hc), ih]
      by_cases hmem : literal.quote ∈ quotes
      · have hother : ¬(c = literal.quote ∧ escapedBehind false text = false) := by
          rintro ⟨rfl, hescaped⟩
          exact hc ⟨hmem, hescaped⟩
        rw [isOpening_concat_iff hother]
      · exact ⟨fun h => absurd h.quote_mem hmem, fun h => absurd h.quote_mem hmem⟩

/-- A text without quotes opens and closes nothing. -/
theorem openLiteral_append_of_not_mem {text : Text} (h : ∀ c ∈ text, c ∉ quotes) :
    openLiteral quotes (line ++ text) = openLiteral quotes line := by
  induction text using List.reverseRecOn with
  | nil => rw [List.append_nil]
  | append_singleton text c ih =>
    have hc : c ∉ quotes := h c (by simp)
    rw [← List.append_assoc, openLiteral_concat, if_neg (by simp [hc])]
    exact ih fun d hd => h d (List.mem_append_left _ hd)

/-- A quote opens a literal, which stays open up to the next quote of its kind. -/
theorem openLiteral_append_cons (hline : openLiteral quotes line = none)
    (hescaped : escapedBehind false line = false) (hquote : quote ∈ quotes)
    (hcontent : quote ∉ content) :
    openLiteral quotes (line ++ quote :: content) = some ⟨quote, line.length⟩ := by
  refine openLiteral_eq_some_iff.2 ⟨hquote, ⟨line, content, rfl, rfl, hescaped⟩, ?_, ?_⟩
  · rwa [List.take_left]
  · intro position hposition
    rw [List.append_cons] at hposition
    have hlt := (hposition.of_append_of_not_mem hcontent).lt_length
    rw [List.length_append, List.length_singleton] at hlt
    exact Nat.le_of_lt_succ hlt

theorem escapedBehind_of_not_mem {text : Text} (h : Text.backslash ∉ text) :
    escapedBehind false text = false := by
  induction text with
  | nil => rfl
  | cons c rest ih =>
    rw [List.mem_cons, not_or] at h
    have hc : (c = Text.backslash && !false) = false := by simpa using Ne.symm h.1
    rw [escapedBehind_cons, hc]
    exact ih h.2

/-- The next quote of its kind closes a literal with no backslash in it. -/
theorem openLiteral_append_closed (hline : openLiteral quotes line = none)
    (hescaped : escapedBehind false line = false) (hquote : quote ∈ quotes)
    (hcontent : quote ∉ content) (hslash : Text.backslash ∉ content)
    (hplain : quote ≠ Text.backslash) :
    openLiteral quotes (line ++ quote :: (content ++ [quote])) = none := by
  have hopen := openLiteral_append_cons hline hescaped hquote hcontent
  have hbehind : escapedBehind false (line ++ quote :: content) = false := by
    rw [escapedBehind_append_cons false line hplain, escapedBehind_of_not_mem hslash]
  rw [← List.cons_append, ← List.append_assoc, openLiteral_concat, hopen, hbehind,
    if_pos (by simp [hquote]), LiteralState.toggle]
  exact if_pos rfl

end Opening

end FluentQuery
