/-
  The parts of a situation agree with each other, although each is searched for on its own. Outside of
  literals the search for a point succeeds exactly if the token has one (`endsAfterDot_iff`), and the
  search for the root exactly if the token starts with it (`endsAtRoot_iff`).
  `situationAt_isConsistent` says so of every situation.
-/
import FluentQuery.Proofs.Chain.Places
import FluentQuery.Proofs.Completion.LongestToken

namespace FluentQuery

/-- Identifier characters with exactly one point among them. -/
structure IsPointed (text : Text) : Prop where
  chars : ∀ c ∈ text, Text.isIdentChar c = true ∨ c = '.'
  point : text.count (CodePoint.char '.') = 1

/-- No part of the situation contradicts another one, where `root` is the database root. -/
structure Situation.IsConsistent (root : Text) (s : Situation) : Prop where
  /-- In a literal the token starts with a quote, and the cursor is behind no point. -/
  inString : s.inString = true → Completion.startsQuoted s.trigger = true ∧ s.afterDot = false
  /-- Behind a point the token has one point and identifier characters. -/
  afterDot : s.afterDot = true ↔ s.inString = false ∧ IsPointed s.trigger
  /-- Behind the root the token is the root, a point and identifier characters. -/
  atRoot : s.inString = false → (s.atRoot = true ↔ s.afterDot = true ∧
    ∃ word, s.trigger = root ++ CodePoint.char '.' :: word ∧ ∀ c ∈ word, Text.isIdentChar c = true)
  /-- On a blank line there is nothing. -/
  lineIsBlank : s.lineIsBlank = true →
    s.trigger = [] ∧ s.inString = false ∧ s.afterDot = false ∧ s.atRoot = false

namespace Cursor

theorem isPointed_append {scope word : Text} (hscope : ∀ c ∈ scope, Text.isIdentChar c = true)
    (hword : ∀ c ∈ word, Text.isIdentChar c = true) : IsPointed (scope ++ CodePoint.char '.' :: word) :=
  ⟨(isToken_pointed hscope hword).chars, by
    rw [List.count_append, List.count_cons_self, count_point_eq_zero hscope, count_point_eq_zero hword]⟩

/-! ## The end of a line -/

section

variable {line root : Text}

/-- Outside of literals a line ends behind a point exactly if its token has a point. -/
theorem endsAfterDot_iff (h : openLiteral stringQuotes line = none) :
    endsAfterDot line = true ↔ IsPointed (lineTrigger line) := by
  obtain ⟨front, token, rfl, hending⟩ := exists_ending line
  rw [lineTrigger_of_ending hending h]
  cases hending with
  | word hword hpoint =>
    rw [endsAfterDot_of_word hword hpoint]
    refine iff_of_false nofun fun hpointed => ?_
    have hcount := hpointed.point
    rw [count_point_eq_zero hword.chars] at hcount
    cases hcount
  | @pointed scope word hscope hword =>
    refine iff_of_true ?_ (isPointed_append hscope.chars hword)
    unfold endsAfterDot
    rw [← List.append_assoc, find?_pointedWord_append hword]
    rfl

/-- Outside of literals a line ends behind the root exactly if its token is the root, a point and
identifier characters. -/
theorem endsAtRoot_iff (h : openLiteral stringQuotes line = none)
    (hroot : ∀ c ∈ root, Text.isIdentChar c = true) :
    endsAtRoot root line = true ↔ endsAfterDot line = true ∧
      ∃ word, lineTrigger line = root ++ CodePoint.char '.' :: word ∧
        ∀ c ∈ word, Text.isIdentChar c = true := by
  rw [endsAfterDot_iff h]
  obtain ⟨front, token, rfl, hending⟩ := exists_ending line
  rw [lineTrigger_of_ending hending h]
  cases hending with
  | word hword hpoint =>
    rw [endsAtRoot_of_word root hword hpoint]
    refine iff_of_false nofun fun ⟨_, _, htoken, _⟩ => ?_
    exact ne_point hword.chars (CodePoint.char '.') (by simp [htoken]) rfl
  | @pointed scope word hscope hword =>
    refine (isSome_find?_rootedWord_iff hroot hscope hword).trans ?_
    constructor
    · rintro rfl
      exact ⟨isPointed_append hscope.chars hword, word, rfl, hword⟩
    · rintro ⟨-, word', htoken, -⟩
      -- No identifier character is a point, so the token has only one cut at a point.
      exact (cut_at_first (ne_point hscope.chars) rfl (ne_point hroot) rfl htoken).1

end

theorem startsQuoted_drop_of_openLiteral {line : Text} {literal : OpenLiteral}
    (h : openLiteral stringQuotes line = some literal) :
    Completion.startsQuoted (line.drop literal.start) = true := by
  have hopening := openLiteral_eq_some_iff.1 h
  obtain ⟨front, back, hline, hlength, -, -⟩ := hopening.exists_eq
  rw [hline, ← hlength, List.drop_left]
  exact decide_eq_true hopening.quote_mem

/-- A blank line has lost all its blanks at the end. -/
theorem lineBefore_eq_nil {text : Text} {cursor : Int}
    (h : Text.isAllBlank (lineBefore text cursor) = true) : lineBefore text cursor = [] := by
  have htrimmed : Text.trimEnd (lineBefore text cursor) = lineBefore text cursor :=
    Text.trimEnd_of_endsInBlank_eq_false (Text.endsInBlank_trimEnd _)
  rw [← htrimmed]
  exact Text.trimEnd_eq_nil h

/-! ## The situation -/

/-- Whatever stands in the text and wherever the cursor is, the parts of the situation agree. -/
theorem situationAt_isConsistent {root : Text} (hroot : ∀ c ∈ root, Text.isIdentChar c = true)
    (window : Int) (text : Text) (cursor : Int) :
    (situationAt root window text cursor).IsConsistent root := by
  -- Blanks at the end of the line are taken away first, so a blank line is an empty one.
  have hblank := @lineBefore_eq_nil text cursor
  rw [situationAt_eq]
  unfold situationWith trigger
  dsimp only
  generalize lineBefore text cursor = line at hblank ⊢
  cases hopen : openLiteral stringQuotes line with
  | none =>
    have hpoint := endsAfterDot_iff hopen
    have hatRoot := endsAtRoot_iff hopen hroot
    rw [Option.isSome_none, Bool.not_false, Bool.true_and]
    refine ⟨?_, ?_, fun _ => hatRoot, fun hline => ?_⟩
    · intro hstring
      cases hstring
    · exact hpoint.trans (and_iff_right rfl).symm
    · cases hblank hline
      have hnil : endsAtRoot root ([] ++ []) = false := endsAtRoot_of_word root ⟨nofun, rfl⟩ nofun
      exact ⟨rfl, rfl, rfl, hnil⟩
  | some literal =>
    have hquoted := startsQuoted_drop_of_openLiteral hopen
    rw [lineTrigger_of_openLiteral hopen, Option.isSome_some, Bool.not_true, Bool.false_and]
    refine ⟨fun _ => ⟨hquoted, rfl⟩, iff_of_false nofun nofun, ?_, fun hline => ?_⟩
    · intro hstring
      cases hstring
    · cases hblank hline
      cases hopen

/-- Behind a word that ends in the name of the root the cursor is at another one; in a literal with the
root in it the cursor is behind no point. -/
theorem situationAt_isConsistent_root_in_name :
    (∀ c ∈ (("db" : String) : Text), Text.isIdentChar c = true) ∧
      (situationAt "db" 200 "f(x)\n  + db.col" 15).IsConsistent "db" ∧
      (situationAt "db" 200 "f(x)\n  + db.col" 15).atRoot = true ∧
      (situationAt "db" 200 "mydb.col" 8).IsConsistent "db" ∧
      (situationAt "db" 200 "mydb.col" 8).atRoot = false ∧
      (situationAt "db" 200 "f('a, db.col" 12).IsConsistent "db" ∧
      (situationAt "db" 200 "f('a, db.col" 12).atRoot = true := by
  have hroot : ∀ c ∈ (("db" : String) : Text), Text.isIdentChar c = true := by decide
  exact ⟨hroot, situationAt_isConsistent hroot 200 _ 15, by decide,
    situationAt_isConsistent hroot 200 _ 8, by decide, situationAt_isConsistent hroot 200 _ 12,
    by decide⟩

end Cursor

end FluentQuery
