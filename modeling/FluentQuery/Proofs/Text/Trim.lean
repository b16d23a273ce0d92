/-
  What trimming takes off. A text without a blank at its start and at its end (`Tight`) is what
  trimming leaves of it, with any blanks around it: `trim_surrounded`.
-/
import FluentQuery.Text.Blank
import Mathlib

namespace FluentQuery.Text

/-- Whether the last character is a blank. -/
def endsInBlank (text : Text) : Bool := text.getLast?.any isBlank

/-- Whether the first character is a blank. -/
def startsInBlank (text : Text) : Bool := text.head?.any isBlank

/-- No blank stands at either end. -/
structure Tight (text : Text) : Prop where
  start : startsInBlank text = false
  finish : endsInBlank text = false

theorem endsInBlank_reverse (text : Text) : endsInBlank text.reverse = startsInBlank text := by
  unfold endsInBlank startsInBlank
  rw [List.getLast?_reverse]

theorem startsInBlank_dropWhile (text : Text) : startsInBlank (text.dropWhile isBlank) = false := by
  have h := List.head?_dropWhile_not isBlank text
  unfold startsInBlank
  split at h
  · rename_i c hc
    simp [hc, h]
  · rename_i hc
    simp [hc]

theorem endsInBlank_trimEnd (text : Text) : endsInBlank (trimEnd text) = false := by
  unfold trimEnd
  rw [endsInBlank_reverse]
  exact startsInBlank_dropWhile _

theorem trimStart_of_startsInBlank_eq_false {text : Text} (h : startsInBlank text = false) :
    trimStart text = text := by
  cases text with
  | nil => rfl
  | cons c rest =>
    have hc : isBlank c = false := by simpa [startsInBlank] using h
    exact List.dropWhile_cons_of_neg (by simp [hc])

theorem trimEnd_of_endsInBlank_eq_false {text : Text} (h : endsInBlank text = false) :
    trimEnd text = text := by
  rw [← List.reverse_reverse text, endsInBlank_reverse] at h
  have hs := trimStart_of_startsInBlank_eq_false h
  unfold trimStart at hs
  unfold trimEnd
  rw [hs, List.reverse_reverse]

/-- The end of a text decides, so a part of it that reaches up to there ends alike. -/
theorem endsInBlank_of_suffix {part text : Text} (h : part <:+ text) (hne : part ≠ []) :
    endsInBlank part = endsInBlank text := by
  obtain ⟨earlier, rfl⟩ := h
  unfold endsInBlank
  rw [List.getLast?_append_of_ne_nil earlier hne]

theorem endsInBlank_append {front back : Text} (hfront : endsInBlank front = false)
    (hback : endsInBlank back = false) : endsInBlank (front ++ back) = false := by
  by_cases hne : back = []
  · rwa [hne, List.append_nil]
  · rwa [← endsInBlank_of_suffix (List.suffix_append front back) hne]

theorem Tight.trim {text : Text} (h : Tight text) : Text.trim text = text := by
  unfold Text.trim
  rw [trimStart_of_startsInBlank_eq_false h.start, trimEnd_of_endsInBlank_eq_false h.finish]

theorem trimStart_append {blanks : Text} (h : blanks.all isBlank = true) (text : Text) :
    trimStart (blanks ++ text) = trimStart text :=
  List.dropWhile_append_of_pos (by simpa using h)

theorem trimEnd_append {blanks : Text} (h : blanks.all isBlank = true) (text : Text) :
    trimEnd (text ++ blanks) = trimEnd text := by
  unfold trimEnd
  rw [List.reverse_append, List.dropWhile_append_of_pos (by simpa using h)]

theorem trimEnd_append_cons {c : CodePoint} (hc : isBlank c = false) (front text : Text) :
    trimEnd (front ++ c :: text) = front ++ c :: trimEnd text := by
  unfold trimEnd
  rw [List.reverse_append, List.reverse_cons, List.append_assoc, List.dropWhile_append]
  cases hback : text.reverse.dropWhile isBlank with
  | nil => simp [hc]
  | cons d rest => simp

/-- A character in front stays, unless there is nothing but blanks. -/
theorem trimEnd_cons (c : CodePoint) (text : Text) :
    trimEnd (c :: text) = c :: trimEnd text ∨
      (trimEnd (c :: text) = [] ∧ trimEnd text = []) := by
  unfold trimEnd
  rw [List.reverse_cons, List.dropWhile_append]
  cases hback : text.reverse.dropWhile isBlank with
  | nil =>
    cases hc : isBlank c with
    | true => exact .inr (by simp [hc])
    | false => exact .inl (by simp [hc])
  | cons d rest => exact .inl (by simp)

/-- Trimming takes off the blanks around a tight text. -/
theorem trim_surrounded {front text back : Text} (hfront : front.all isBlank = true)
    (h : Tight text) (hback : back.all isBlank = true) :
    trim (front ++ (text ++ back)) = text := by
  unfold trim
  rw [trimStart_append hfront]
  cases text with
  | nil =>
    have hnil := trimStart_append hback []
    rw [List.append_nil] at hnil
    rw [List.nil_append, hnil]
    rfl
  | cons c rest =>
    have hstart : startsInBlank (c :: rest ++ back) = false := h.start
    rw [trimStart_of_startsInBlank_eq_false hstart, trimEnd_append hback,
      trimEnd_of_endsInBlank_eq_false h.finish]

/-- What trimming leaves is a part of the text. -/
theorem trim_infix (text : Text) : trim text <:+: text := by
  obtain ⟨blanks, hend, -⟩ := trimEnd_append_blanks (trimStart text)
  have hprefix : trimEnd (trimStart text) <+: trimStart text := ⟨blanks, hend.symm⟩
  exact hprefix.isInfix.trans (List.dropWhile_suffix isBlank).isInfix

theorem behindLast_suffix (c : CodePoint) (text : Text) : behindLast c text <:+ text := by
  unfold behindLast
  conv => rhs; rw [← List.reverse_reverse text]
  exact List.reverse_suffix.2 (List.takeWhile_prefix _)

theorem lastLine_suffix (text : Text) : lastLine text <:+ text := behindLast_suffix '\n' text

theorem behindLast_append_of_not_mem {c : CodePoint} {text : Text} (h : c ∉ text) (front : Text) :
    behindLast c (front ++ text) = behindLast c front ++ text := by
  have hne : ∀ d ∈ text.reverse, decide (d ≠ c) = true := by
    intro d hd
    have hmem : d ∈ text := List.mem_reverse.1 hd
    exact decide_eq_true fun heq => h (heq ▸ hmem)
  unfold behindLast
  rw [List.reverse_append, List.takeWhile_append_of_pos hne, List.reverse_append,
    List.reverse_reverse]

theorem trimEnd_eq_nil {blanks : Text} (h : blanks.all isBlank = true) : trimEnd blanks = [] :=
  trimEnd_append h []

end FluentQuery.Text
