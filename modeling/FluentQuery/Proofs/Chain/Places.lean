/-
  Where a search for calls can succeed. Every search of the parser succeeds only at a point that an
  opening parenthesis follows with no quote between (`FindsCalls`), so it passes over literals without
  a parenthesis and over everything without a point (`Silent`). `allPlaces_chain`: in a chain of
  calls it finds what stands at the starts of the calls, and nothing else.
-/
import FluentQuery.Expression.Call
import Mathlib

namespace FluentQuery

/-- The characters that end the name of a call: the opening parenthesis, and the quotes. -/
def marks : List CodePoint := .char '(' :: literalQuotes

/-- No quote and no opening parenthesis stands in the text. -/
def Unmarked (text : Text) : Prop := ∀ c ∈ text, c ∉ marks

namespace Unmarked

theorem append {a b : Text} (ha : Unmarked a) (hb : Unmarked b) : Unmarked (a ++ b) := by
  intro c hc
  rcases List.mem_append.1 hc with hc | hc
  · exact ha c hc
  · exact hb c hc

/-- A text of characters of a kind that no mark is of. -/
theorem of_kind {kind : CodePoint → Bool} (hkind : ∀ m ∈ marks, kind m = false) {text : Text}
    (h : ∀ c ∈ text, kind c = true) : Unmarked text := by
  intro c hc hmark
  have hfalse := hkind c hmark
  rw [h c hc] at hfalse
  cases hfalse

end Unmarked

/-- The first character of a kind cuts a text in one way only. -/
theorem cut_at_first {kind : CodePoint → Prop} {front front' rest rest' : Text} {m m' : CodePoint}
    (hfront : ∀ c ∈ front, ¬kind c) (hm : kind m) (hfront' : ∀ c ∈ front', ¬kind c) (hm' : kind m')
    (h : front ++ m :: rest = front' ++ m' :: rest') : front = front' ∧ m = m' ∧ rest = rest' := by
  induction front generalizing front' with
  | nil =>
    cases front' with
    | nil =>
      cases h
      exact ⟨rfl, rfl, rfl⟩
    | cons c front' =>
      cases h
      exact absurd hm (hfront' m List.mem_cons_self)
  | cons c front ih =>
    cases front' with
    | nil =>
      cases h
      exact absurd hm' (hfront m' List.mem_cons_self)
    | cons c' front' =>
      rw [List.cons_append, List.cons_append, List.cons.injEq] at h
      obtain ⟨rfl, h⟩ := h
      obtain ⟨rfl, hrest⟩ := ih (fun d hd => hfront d (List.mem_cons_of_mem _ hd))
        (fun d hd => hfront' d (List.mem_cons_of_mem _ hd)) h
      exact ⟨rfl, hrest⟩

/-- So does the last one. -/
theorem cut_at_last {kind : CodePoint → Prop} {front front' rest rest' : Text} {m m' : CodePoint}
    (hrest : ∀ c ∈ rest, ¬kind c) (hm : kind m) (hrest' : ∀ c ∈ rest', ¬kind c) (hm' : kind m')
    (h : front ++ m :: rest = front' ++ m' :: rest') : front = front' ∧ m = m' ∧ rest = rest' := by
  have hreverse := congrArg List.reverse h
  rw [List.reverse_append, List.reverse_append, List.reverse_cons, List.reverse_cons, List.append_assoc,
    List.append_assoc, List.singleton_append, List.singleton_append] at hreverse
  obtain ⟨hback, heq, hfront⟩ := cut_at_first (fun c hc => hrest c (List.mem_reverse.1 hc)) hm
    (fun c hc => hrest' c (List.mem_reverse.1 hc)) hm' hreverse
  exact ⟨List.reverse_injective hfront, heq, List.reverse_injective hback⟩

/-- The first mark of a text cuts it in one way only. -/
theorem cut_at_mark {front front' rest rest' : Text} {m m' : CodePoint}
    (hfront : Unmarked front) (hm : m ∈ marks) (hfront' : Unmarked front') (hm' : m' ∈ marks)
    (h : front ++ m :: rest = front' ++ m' :: rest') : front = front' ∧ m = m' ∧ rest = rest' :=
  cut_at_first hfront hm hfront' hm' h

/-- A call: a point, what stands before the opening parenthesis, and what stands behind it. -/
def callText (front inside : Text) : Text := '.' :: (front ++ CodePoint.char '(' :: inside)

theorem callText_append (front a b : Text) : callText front (a ++ b) = callText front a ++ b := by
  unfold callText
  rw [List.cons_append, List.append_assoc, List.cons_append]

/-- A character that is not in the front stands behind it. -/
theorem exists_eq_append_of_not_mem {front text part rest : Text} {c : CodePoint} (hc : c ∉ front)
    (h : part ++ c :: rest = front ++ text) : ∃ more, part = front ++ more ∧ text = more ++ c :: rest := by
  rcases List.append_eq_append_iff.1 h with ⟨more, rfl, hmore⟩ | ⟨more, rfl, rfl⟩
  · cases more with
    | nil => exact ⟨[], by simp, hmore.symm⟩
    | cons d more =>
      obtain ⟨rfl, -⟩ := List.cons.inj hmore
      exact absurd (by simp) hc
  · exact ⟨more, rfl, rfl⟩

/-- In front of a point a part of a text starts with a call if the whole text does: the opening of a call
has no other point. -/
theorem exists_callText_of_append_point {part rest front inside : Text} (hne : part ≠ [])
    (hpoint : CodePoint.char '.' ∉ front)
    (h : part ++ CodePoint.char '.' :: rest = callText front inside) :
    ∃ more, part = callText front more ∧ inside = more ++ CodePoint.char '.' :: rest := by
  cases part with
  | nil => exact absurd rfl hne
  | cons c part =>
    unfold callText at h
    rw [List.cons_append, List.append_cons front, List.cons.injEq] at h
    obtain ⟨rfl, h⟩ := h
    have hopening : CodePoint.char '.' ∉ front ++ [CodePoint.char '('] := by simp [hpoint]
    obtain ⟨more, rfl, rfl⟩ := exists_eq_append_of_not_mem hopening h
    exact ⟨more, by simp [callText], rfl⟩

theorem callText_inj {front front' inside inside' : Text} (hfront : Unmarked front)
    (hfront' : Unmarked front') (h : callText front inside = callText front' inside') :
    front = front' ∧ inside = inside' := by
  unfold callText at h
  rw [List.cons.injEq] at h
  obtain ⟨hfronts, -, hinsides⟩ := cut_at_mark hfront (by decide) hfront' (by decide) h.2
  exact ⟨hfronts, hinsides⟩

section

variable {α β : Type} {find : Text → Option α}

/-- The search succeeds only where a call stands with no quote before its opening parenthesis. -/
def FindsCalls (find : Text → Option α) : Prop :=
  ∀ text found, find text = some found → ∃ front inside, text = callText front inside ∧ Unmarked front

theorem FindsCalls.bind (h : FindsCalls find) (next : α → Option β) :
    FindsCalls fun text => (find text).bind next := by
  intro text found hfound
  obtain ⟨a, ha, -⟩ := Option.bind_eq_some_iff.1 hfound
  exact h text a ha

theorem FindsCalls.nil (h : FindsCalls find) : find [] = none := by
  cases hfind : find [] with
  | none => rfl
  | some found =>
    obtain ⟨front, rest, htext, -⟩ := h [] found hfind
    cases htext

theorem FindsCalls.of_ne_point (h : FindsCalls find) {c : CodePoint} (hc : c ≠ '.') (rest : Text) :
    find (c :: rest) = none := by
  cases hfind : find (c :: rest) with
  | none => rfl
  | some found =>
    obtain ⟨front, inside, htext, -⟩ := h _ found hfind
    cases htext
    exact absurd rfl hc

/-- Nothing is found where there is no parenthesis. -/
theorem FindsCalls.allPlaces_eq_nil (h : FindsCalls find) {text : Text}
    (hparen : CodePoint.char '(' ∉ text) : allPlaces find text = [] := by
  have hnone {text : Text} (hparen : CodePoint.char '(' ∉ text) : find text = none := by
    cases hfind : find text with
    | none => rfl
    | some found =>
      obtain ⟨front, inside, rfl, -⟩ := h text found hfind
      exact absurd (by simp [callText]) hparen
  induction text with
  | nil =>
    rw [allPlaces, h.nil]
    rfl
  | cons c text ih =>
    rw [allPlaces, hnone hparen, ih fun hmem => hparen (List.mem_cons_of_mem c hmem)]
    rfl

/-- A point in a literal is no call, since a quote comes before any parenthesis. -/
theorem FindsCalls.in_literal (h : FindsCalls find) {content : Text} {quote : CodePoint}
    (hcontent : Unmarked content) (hquote : quote ∈ literalQuotes) (rest : Text) :
    find ('.' :: (content ++ quote :: rest)) = none := by
  cases hfind : find ('.' :: (content ++ quote :: rest)) with
  | none => rfl
  | some found =>
    obtain ⟨front, inside, htext, hfront⟩ := h _ found hfind
    unfold callText at htext
    rw [List.cons.injEq] at htext
    obtain ⟨-, rfl, -⟩ :=
      cut_at_mark hcontent (List.mem_cons_of_mem _ hquote) hfront (by decide) htext.2
    exact absurd hquote (by decide)

/-- The first place is the first of all places. -/
theorem firstPlace?_eq_head? (find : Text → Option α) (text : Text) :
    firstPlace? find text = (allPlaces find text).head? := by
  induction text with
  | nil => cases h : find [] <;> simp [firstPlace?, allPlaces, h]
  | cons c rest ih => cases h : find (c :: rest) <;> simp [firstPlace?, allPlaces, h, ih]

/-- What all places of an end of a text yield is the end of what all places of the text yield. -/
theorem allPlaces_suffix (find : Text → Option α) (front text : Text) :
    allPlaces find text <:+ allPlaces find (front ++ text) := by
  induction front with
  | nil => exact List.suffix_refl _
  | cons c front ih =>
    rw [List.cons_append, allPlaces]
    exact ih.trans (List.suffix_append _ _)

/-- Where the search succeeds at no place of a text, it goes on behind the text. -/
theorem allPlaces_append_of_none {front text : Text}
    (h : ∀ part, part ≠ [] → part <:+ front → find (part ++ text) = none) :
    allPlaces find (front ++ text) = allPlaces find text := by
  induction front with
  | nil => rfl
  | cons c front ih =>
    have hhere := h (c :: front) (List.cons_ne_nil _ _) (List.suffix_refl _)
    have hrest := ih fun part hne hpart => h part hne (hpart.trans (List.suffix_cons c front))
    rw [List.cons_append] at hhere ⊢
    rw [allPlaces, hhere, hrest]
    rfl

/-- Where the search does not look into the text behind, it finds what it finds without it. -/
theorem FindsCalls.allPlaces_append (h : FindsCalls find) {text : Text}
    (htext : ∀ part, part ≠ [] → find (part ++ text) = find part) (front : Text) :
    allPlaces find (front ++ text) = allPlaces find front ++ allPlaces find text := by
  induction front with
  | nil =>
    rw [allPlaces, h.nil]
    rfl
  | cons c front ih =>
    have hhere := htext (c :: front) (List.cons_ne_nil c front)
    rw [List.cons_append] at hhere ⊢
    rw [allPlaces, allPlaces, hhere, ih, List.append_assoc]

/-- A text may be replaced by one in which the same is found, where the search does not tell them apart
from any place in front. -/
theorem allPlaces_append_congr {front a b : Text}
    (hfront : ∀ part, part ≠ [] → part <:+ front → find (part ++ a) = find (part ++ b))
    (h : allPlaces find a = allPlaces find b) :
    allPlaces find (front ++ a) = allPlaces find (front ++ b) := by
  induction front with
  | nil => exact h
  | cons c front ih =>
    have hhere := hfront (c :: front) (List.cons_ne_nil _ _) (List.suffix_refl _)
    have hrest := ih fun part hne hpart => hfront part hne (hpart.trans (List.suffix_cons c front))
    rw [List.cons_append, List.cons_append] at hhere ⊢
    rw [allPlaces, allPlaces, hhere, hrest]

theorem mem_allPlaces_iff {text : Text} {a : α} :
    a ∈ allPlaces find text ↔ ∃ part, part <:+ text ∧ find part = some a := by
  induction text with
  | nil => simp [allPlaces, List.suffix_nil]
  | cons c text ih => simp [allPlaces, List.suffix_cons_iff, ih, or_and_right, exists_or]

/-- What is made of every find is what the longer search finds. -/
theorem filterMap_allPlaces (find : Text → Option α) (next : α → Option β) (text : Text) :
    (allPlaces find text).filterMap next = allPlaces (fun t => (find t).bind next) text := by
  induction text with
  | nil => cases h : find [] <;> cases h' : (find []).bind next <;> simp_all [allPlaces]
  | cons c rest ih =>
    rw [allPlaces, allPlaces, List.filterMap_append, ih]
    cases h : find (c :: rest) with
    | none => rfl
    | some a => cases h' : next a <;> simp [h']

end

/-! ## Texts that no search stops in -/

/-- No search for calls succeeds at a place of the text, whatever follows it. -/
def Silent (text : Text) : Prop :=
  ∀ ⦃α : Type⦄ ⦃find : Text → Option α⦄, FindsCalls find →
    ∀ rest, allPlaces find (text ++ rest) = allPlaces find rest

namespace Silent

theorem append {a b : Text} (ha : Silent a) (hb : Silent b) : Silent (a ++ b) := by
  intro α find h rest
  rw [List.append_assoc, ha h, hb h]

theorem of_not_mem {text : Text} (hpoint : CodePoint.char '.' ∉ text) : Silent text := by
  intro α find h rest
  induction text with
  | nil => rfl
  | cons c text ih =>
    rw [List.mem_cons, not_or] at hpoint
    rw [List.cons_append, allPlaces, h.of_ne_point (Ne.symm hpoint.1), Option.toList_none,
      List.nil_append, ih hpoint.2]

theorem cons {c : CodePoint} {text : Text} (hc : c ≠ '.') (h : Silent text) : Silent (c :: text) :=
  append (a := [c]) (of_not_mem (by simpa using Ne.symm hc)) h

/-- The content of a literal and its closing quote. -/
theorem content {content : Text} {quote : CodePoint} (hcontent : Unmarked content)
    (hquote : quote ∈ literalQuotes) : Silent (content ++ [quote]) := by
  have hpoint : quote ≠ '.' := by
    rintro rfl
    exact absurd hquote (by decide)
  intro α find h rest
  induction content with
  | nil => exact (cons hpoint (of_not_mem List.not_mem_nil)) h rest
  | cons c content ih =>
    have hrest : Unmarked content := fun d hd => hcontent d (List.mem_cons_of_mem c hd)
    have hnone : find (c :: (content ++ quote :: rest)) = none := by
      by_cases hc : c = '.'
      · rw [hc]
        exact h.in_literal hrest hquote rest
      · exact h.of_ne_point hc _
    have ih := ih hrest
    rw [List.append_assoc, List.singleton_append] at ih ⊢
    rw [List.cons_append, allPlaces, hnone, Option.toList_none, List.nil_append, ih]

/-- A call with no other one up to some place in it. -/
theorem allPlaces_callText {front inside : Text} (h : Silent (front ++ CodePoint.char '(' :: inside))
    {α : Type} {find : Text → Option α} (hfind : FindsCalls find) (rest : Text) :
    allPlaces find (callText front (inside ++ rest)) =
      (find (callText front (inside ++ rest))).toList ++ allPlaces find rest := by
  have htail := h hfind rest
  rw [List.append_assoc, List.cons_append] at htail
  rw [callText, allPlaces, htail]

theorem join {texts : List Text} (h : ∀ t ∈ texts, Silent t) : Silent (Text.join [','] texts) := by
  induction texts with
  | nil => exact of_not_mem List.not_mem_nil
  | cons t rest ih =>
    have ht := h t List.mem_cons_self
    cases rest with
    | nil => exact ht
    | cons u rest =>
      rw [Text.join, List.append_assoc]
      exact append ht (cons (by decide) (ih fun v hv => h v (List.mem_cons_of_mem _ hv)))

end Silent

/-- In a chain of calls a search finds what it finds at the starts of the calls. -/
theorem allPlaces_chain {γ α : Type} {find : Text → Option α} (hfind : FindsCalls find)
    (body : γ → Text) (hbody : ∀ call, Silent (body call)) (reading : γ → Option α)
    (hreading : ∀ call rest, find ('.' :: (body call ++ rest)) = reading call) (calls : List γ) :
    allPlaces find (calls.flatMap fun call => '.' :: body call) = calls.filterMap reading := by
  induction calls with
  | nil =>
    rw [List.flatMap_nil, allPlaces, hfind.nil]
    rfl
  | cons call rest ih =>
    rw [List.flatMap_cons, List.cons_append, allPlaces, hreading, hbody call hfind, ih,
      List.filterMap_cons]
    cases reading call <;> rfl

end FluentQuery
