/-
  Texts with other quotes. A permutation of the quote characters that leaves everything else in place
  (`Requotes`) is put on a text character by character. What looks at no quote in particular takes the same
  part of the text either way: the blanks at the ends, the last line, what stands behind a word.
-/
import FluentQuery.Expression.Literal
import FluentQuery.Proofs.Text.Trim

namespace FluentQuery

/-- A permutation of the characters that moves no other ones than the given quotes. -/
structure Requotes (s : Equiv.Perm CodePoint) (quotes : List CodePoint) : Prop where
  fixes : ∀ c, c ∉ quotes → s c = c

namespace Requotes

variable {s : Equiv.Perm CodePoint} {quotes : List CodePoint}

theorem toLiteralQuotes (h : Requotes s stringQuotes) : Requotes s literalQuotes :=
  ⟨fun c hc => h.fixes c fun hmem => hc (List.mem_append_left [Text.backtick] hmem)⟩

/-- A quote becomes a quote, and nothing else does. -/
theorem mem_iff (h : Requotes s quotes) (c : CodePoint) : s c ∈ quotes ↔ c ∈ quotes := by
  constructor
  · intro hmem
    by_contra hc
    exact hc (h.fixes c hc ▸ hmem)
  · intro hc
    by_contra hmem
    have hfixed : s c = c := s.injective (h.fixes (s c) hmem)
    exact hmem (hfixed.symm ▸ hc)

/-- A character that is no quote is found at the same places. -/
theorem eq_iff (h : Requotes s quotes) {d : CodePoint} (hd : d ∉ quotes) (c : CodePoint) :
    s c = d ↔ c = d := by
  constructor
  · intro heq
    exact s.injective (heq.trans (h.fixes d hd).symm)
  · rintro rfl
    exact h.fixes c hd

theorem map_eq_self (h : Requotes s quotes) {text : Text} (htext : ∀ c ∈ text, c ∉ quotes) :
    text.map s = text :=
  (List.map_congr_left fun c hc => h.fixes c (htext c hc)).trans (List.map_id text)

theorem map_eq_iff (h : Requotes s quotes) (word : Text) (hword : ∀ c ∈ word, c ∉ quotes) (text : Text) :
    text.map s = word ↔ text = word := by
  have hinj := (List.map_injective_iff.2 s.injective).eq_iff (a := text) (b := word)
  rwa [h.map_eq_self hword] at hinj

/-- What is the same of all quotes is the same of all characters and their images. -/
theorem apply_kind (h : Requotes s quotes) {β : Type} {kind : CodePoint → β} {b : β}
    (hkind : ∀ q ∈ quotes, kind q = b) (c : CodePoint) : kind (s c) = kind c := by
  by_cases hc : c ∈ quotes
  · rw [hkind c hc, hkind (s c) ((h.mem_iff c).2 hc)]
  · rw [h.fixes c hc]

/-- Two quotes change places. -/
theorem swap {a b : CodePoint} (ha : a ∈ quotes) (hb : b ∈ quotes) :
    Requotes (Equiv.swap a b) quotes := by
  refine ⟨fun c hc => Equiv.swap_apply_of_ne_of_ne ?_ ?_⟩
  · rintro rfl
    exact hc ha
  · rintro rfl
    exact hc hb

theorem mul {t : Equiv.Perm CodePoint} (h : Requotes s quotes) (ht : Requotes t quotes) :
    Requotes (s * t) quotes := by
  refine ⟨fun c hc => ?_⟩
  rw [Equiv.Perm.mul_apply, ht.fixes c hc, h.fixes c hc]

end Requotes

section

variable {s : Equiv.Perm CodePoint} {kind : CodePoint → Bool}

theorem takeWhile_map_kind (hkind : ∀ c, kind (s c) = kind c) (text : Text) :
    (text.map s).takeWhile kind = (text.takeWhile kind).map s := by
  have hcomp : kind ∘ s = kind := funext hkind
  rw [List.takeWhile_map, hcomp]

theorem dropWhile_map_kind (hkind : ∀ c, kind (s c) = kind c) (text : Text) :
    (text.map s).dropWhile kind = (text.dropWhile kind).map s := by
  have hcomp : kind ∘ s = kind := funext hkind
  rw [List.dropWhile_map, hcomp]

end

namespace Text

variable {s : Equiv.Perm CodePoint}

theorem after?_map (start text : Text) :
    after? (start.map s) (text.map s) = (after? start text).map (List.map s) := by
  induction start generalizing text with
  | nil => rfl
  | cons d start ih =>
    cases text with
    | nil => rfl
    | cons c text =>
      rw [List.map_cons, List.map_cons, after?, after?]
      by_cases hc : d = c
      · rw [if_pos hc, if_pos (congrArg s hc), ih]
      · rw [if_neg hc, if_neg fun heq => hc (s.injective heq)]
        rfl

variable (h : Requotes s literalQuotes)

include h

theorem isBlank_requoted (c : CodePoint) : isBlank (s c) = isBlank c := h.apply_kind (b := false) (by decide) c

theorem isIdentChar_requoted (c : CodePoint) : isIdentChar (s c) = isIdentChar c :=
  h.apply_kind (b := false) (by decide) c

theorem trimStart_map (text : Text) : trimStart (text.map s) = (trimStart text).map s :=
  dropWhile_map_kind (isBlank_requoted h) text

theorem trimEnd_map (text : Text) : trimEnd (text.map s) = (trimEnd text).map s := by
  unfold trimEnd
  rw [← List.map_reverse, dropWhile_map_kind (isBlank_requoted h), List.map_reverse]

theorem trim_map (text : Text) : trim (text.map s) = (trim text).map s := by
  unfold trim
  rw [trimStart_map h, trimEnd_map h]

theorem isAllBlank_map (text : Text) : isAllBlank (text.map s) = isAllBlank text := by
  unfold isAllBlank
  rw [List.all_map]
  exact congrArg (text.all ·) (funext (isBlank_requoted h))

theorem lastLine_map (text : Text) : lastLine (text.map s) = (lastLine text).map s := by
  have hkind (c : CodePoint) : decide (s c ≠ '\n') = decide (c ≠ '\n') :=
    decide_eq_decide.2 (not_congr (h.eq_iff (by decide) c))
  unfold lastLine behindLast
  rw [← List.map_reverse, takeWhile_map_kind hkind, List.map_reverse]

end Text

end FluentQuery
