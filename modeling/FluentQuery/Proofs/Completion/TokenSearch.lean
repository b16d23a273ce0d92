/-
  What the searches for a token find at the end of a line. A line ends in identifier characters, or in
  identifier characters around a point, in one way only (`Ending`, `exists_ending`). A pattern with a point
  finds nothing where the end has none; where it has one, the pattern fits at one place, and the look at
  the character before the place decides. So the exit behind a parenthesis or a comma and the searches
  after it, tried in their order, find exactly that end: `lineTrigger_of_ending`.
-/
import FluentQuery.Completion.Cursor
import FluentQuery.Proofs.Chain.Places
import FluentQuery.Proofs.Expression.Unescaped

namespace FluentQuery.Cursor

theorem isIdentChar_point : Text.isIdentChar (CodePoint.char '.') = false := by decide

theorem isPointedWord_iff {rest : Text} : isPointedWord rest = true ↔
    ∃ word, rest = CodePoint.char '.' :: word ∧ ∀ c ∈ word, Text.isIdentChar c = true := by
  unfold isPointedWord
  split
  · rename_i word
    simp
  · rename_i hpoint
    refine iff_of_false nofun ?_
    rintro ⟨word, rfl, -⟩
    exact hpoint word rfl

/-! ## The first place where a pattern fits -/

namespace EndPattern

section

variable {pattern : EndPattern} {previous : Option CodePoint} {text line front rest : Text}

theorem getLast?_or_cons (c : CodePoint) (front : Text) (previous : Option CodePoint) :
    (c :: front).getLast?.or previous = front.getLast?.or (some c) := by
  rw [List.getLast?_cons]
  cases front.getLast? <;> rfl

/-- A search finds something exactly if the pattern fits at some place. -/
theorem isSome_search?_iff : (pattern.search? previous text).isSome = true ↔
    ∃ front rest, text = front ++ rest ∧ pattern.fits (front.getLast?.or previous) rest = true := by
  induction text generalizing previous with
  | nil =>
    rw [search?]
    constructor
    · intro h
      split at h
      · rename_i hfits
        exact ⟨[], [], rfl, hfits⟩
      · cases h
    · rintro ⟨front, rest, heq, hfits⟩
      obtain ⟨rfl, rfl⟩ := List.nil_eq_append_iff.1 heq
      exact congrArg Option.isSome (if_pos hfits)
  | cons c text ih =>
    rw [search?]
    split
    · rename_i hfits
      exact iff_of_true rfl ⟨[], c :: text, rfl, hfits⟩
    · rename_i hfits
      rw [ih]
      constructor
      · rintro ⟨front, rest, rfl, hlater⟩
        exact ⟨c :: front, rest, rfl, by rwa [getLast?_or_cons]⟩
      · rintro ⟨front, rest, heq, hlater⟩
        cases front with
        | nil => exact absurd (heq ▸ hlater) hfits
        | cons d front =>
          obtain ⟨rfl, rfl⟩ := List.cons.inj heq
          exact ⟨front, rest, rfl, by rwa [getLast?_or_cons] at hlater⟩

/-- The rest of the text is found at a place where the pattern fits, if it fits at no place before. -/
theorem search?_append (hfits : pattern.fits (front.getLast?.or previous) rest = true)
    (hfirst : ∀ earlier later, front = earlier ++ later → later ≠ [] →
      pattern.fits (earlier.getLast?.or previous) (later ++ rest) = false) :
    pattern.search? previous (front ++ rest) = some rest := by
  induction front generalizing previous with
  | nil =>
    rw [List.nil_append]
    cases rest <;> exact if_pos hfits
  | cons c front ih =>
    have hhere : pattern.fits previous (c :: (front ++ rest)) = false :=
      hfirst [] (c :: front) rfl (List.cons_ne_nil c front)
    rw [List.cons_append, search?, hhere, if_neg Bool.false_ne_true]
    refine ih (getLast?_or_cons c front previous ▸ hfits) fun earlier later heq hne => ?_
    rw [← getLast?_or_cons c earlier previous]
    exact hfirst (c :: earlier) later (by rw [heq, List.cons_append]) hne

theorem isSome_find?_iff : (pattern.find? line).isSome = true ↔
    ∃ front rest, line = front ++ rest ∧ pattern.fits front.getLast? rest = true := by
  unfold find?
  simp only [isSome_search?_iff, Option.or_none]

theorem find?_append (hfits : pattern.fits front.getLast? rest = true)
    (hfirst : ∀ earlier later, front = earlier ++ later → later ≠ [] →
      pattern.fits earlier.getLast? (later ++ rest) = false) :
    pattern.find? (front ++ rest) = some rest :=
  search?_append (by rwa [Option.or_none]) fun earlier later heq hne => by
    rw [Option.or_none]
    exact hfirst earlier later heq hne

end

/-! ## What the patterns fit -/

variable {previous : Option CodePoint} {rest root : Text}

theorem fits_word_iff : word.fits previous rest = true ↔
    rest ≠ [] ∧ ∀ c ∈ rest, Text.isIdentChar c = true := by
  simp [fits]

theorem fits_rootedWord_iff : (rootedWord root).fits previous rest = true ↔
    previous.any Text.isIdentChar = false ∧ ∃ word, rest = root ++ CodePoint.char '.' :: word ∧
      ∀ c ∈ word, Text.isIdentChar c = true := by
  unfold fits
  rw [Bool.and_eq_true, Bool.not_eq_true', Option.any_eq_true]
  refine and_congr_right fun _ => ⟨?_, ?_⟩
  · rintro ⟨behind, hbehind, hpointed⟩
    obtain ⟨word, rfl, hword⟩ := isPointedWord_iff.1 hpointed
    exact ⟨word, Text.after?_eq_some_iff.1 hbehind, hword⟩
  · rintro ⟨word, rfl, hword⟩
    exact ⟨_, Text.after?_eq_some_iff.2 rfl, isPointedWord_iff.2 ⟨word, rfl, hword⟩⟩

theorem fits_scopedWord_iff : scopedWord.fits previous rest = true ↔
    previous.any Text.isIdentChar = false ∧ ∃ scope word, rest = scope ++ CodePoint.char '.' :: word ∧
      scope ≠ [] ∧ (∀ c ∈ scope, Text.isIdentChar c = true) ∧ ∀ c ∈ word, Text.isIdentChar c = true := by
  unfold fits
  rw [Bool.and_eq_true, Bool.and_eq_true, Bool.not_eq_true', and_assoc, isPointedWord_iff]
  refine and_congr_right fun _ => ⟨?_, ?_⟩
  · rintro ⟨hhead, word, hdrop, hword⟩
    have hsplit := List.takeWhile_append_dropWhile (p := Text.isIdentChar) (l := rest)
    rw [hdrop] at hsplit
    refine ⟨rest.takeWhile Text.isIdentChar, word, hsplit.symm, ?_, ?_, hword⟩
    · cases rest with
      | nil => cases hhead
      | cons c rest =>
        have hc : Text.isIdentChar c = true := hhead
        rw [List.takeWhile_cons_of_pos hc]
        exact List.cons_ne_nil _ _
    · exact fun c hc => List.all_eq_true.1 List.all_takeWhile c hc
  · rintro ⟨scope, word, rfl, hne, hscope, hword⟩
    refine ⟨?_, word, ?_, hword⟩
    · cases scope with
      | nil => exact absurd rfl hne
      | cons c scope => exact hscope c List.mem_cons_self
    · have hpoint : ¬Text.isIdentChar (CodePoint.char '.') = true := by decide
      rw [List.dropWhile_append_of_pos hscope, List.dropWhile_cons_of_neg hpoint]

/-- Every pattern but the plain word takes in a point and identifier characters up to the end. -/
theorem exists_point_of_fits {pattern : EndPattern} (hpattern : pattern ≠ word)
    (h : pattern.fits previous rest = true) : ∃ before behind,
      rest = before ++ CodePoint.char '.' :: behind ∧ ∀ c ∈ behind, Text.isIdentChar c = true := by
  cases pattern with
  | scopedWord =>
    obtain ⟨-, scope, behind, hrest, -, -, hbehind⟩ := fits_scopedWord_iff.1 h
    exact ⟨scope, behind, hrest, hbehind⟩
  | pointedWord =>
    obtain ⟨behind, hrest, hbehind⟩ := isPointedWord_iff.1 h
    exact ⟨[], behind, hrest, hbehind⟩
  | word => exact absurd rfl hpattern
  | rootedWord root =>
    obtain ⟨-, behind, hrest, hbehind⟩ := fits_rootedWord_iff.1 h
    exact ⟨root, behind, hrest, hbehind⟩

end EndPattern

/-! ## The end of a line -/

/-- A word that cannot be continued into the front before it. It may be empty. -/
structure EndsInWord (front word : Text) : Prop where
  chars : ∀ c ∈ word, Text.isIdentChar c = true
  boundary : front.getLast?.any Text.isIdentChar = false

/-- A token that cannot be continued into the front before it: a word, or two words around a point. -/
inductive Ending (front : Text) : Text → Prop where
  | word {word : Text} (h : EndsInWord front word)
      (hpoint : front.getLast? ≠ some (CodePoint.char '.')) : Ending front word
  | pointed {scope word : Text} (h : EndsInWord front scope)
      (hword : ∀ c ∈ word, Text.isIdentChar c = true) : Ending front (scope ++ CodePoint.char '.' :: word)

/-- Every text ends in a word. -/
theorem exists_word (text : Text) : ∃ front word, text = front ++ word ∧ EndsInWord front word := by
  refine ⟨text.rdropWhile Text.isIdentChar, text.rtakeWhile Text.isIdentChar,
    List.rdropWhile_append_rtakeWhile.symm, fun c hc => List.mem_rtakeWhile_imp hc, ?_⟩
  rw [List.rdropWhile, List.getLast?_reverse, Option.any_eq_false]
  intro c hc
  have hhead := List.head?_dropWhile_not Text.isIdentChar text.reverse
  rw [hc] at hhead
  simpa using hhead

/-- Every line ends in a token. -/
theorem exists_ending (line : Text) : ∃ front token, line = front ++ token ∧ Ending front token := by
  obtain ⟨front, word, rfl, h⟩ := exists_word line
  by_cases hpoint : front.getLast? = some (CodePoint.char '.')
  · obtain ⟨init, rfl⟩ := List.getLast?_eq_some_iff.1 hpoint
    obtain ⟨earlier, scope, rfl, hscope⟩ := exists_word init
    exact ⟨earlier, scope ++ CodePoint.char '.' :: word, by simp, .pointed hscope h.chars⟩
  · exact ⟨front, word, rfl, .word h hpoint⟩

/-- A word that a front ends in is empty if the front ends in no character of words. -/
theorem eq_nil_of_boundary {front word : Text}
    (hfront : (front ++ word).getLast?.any Text.isIdentChar = false)
    (hword : ∀ c ∈ word, Text.isIdentChar c = true) : word = [] := by
  rcases List.eq_nil_or_concat word with rfl | ⟨init, c, rfl⟩
  · rfl
  · have hc := hword c (by simp)
    simp [hc] at hfront

/-- So a text ends in one word only. -/
theorem EndsInWord.unique {front front' word word' : Text} (h : EndsInWord front word)
    (h' : EndsInWord front' word') (heq : front ++ word = front' ++ word') : word = word' := by
  rcases List.append_eq_append_iff.1 heq with ⟨more, rfl, rfl⟩ | ⟨more, rfl, rfl⟩
  · rw [eq_nil_of_boundary h'.boundary fun c hc => h.chars c (List.mem_append_left _ hc), List.nil_append]
  · rw [eq_nil_of_boundary h.boundary fun c hc => h'.chars c (List.mem_append_left _ hc), List.nil_append]

theorem ne_point {text : Text} (h : ∀ c ∈ text, Text.isIdentChar c = true) :
    ∀ c ∈ text, ¬c = CodePoint.char '.' := by
  rintro c hc rfl
  exact absurd (h _ hc) (by decide)

section

variable {front scope word : Text}

/-- Where no point stands before the word at the end of a line, no pattern with a point finds anything. -/
theorem find?_eq_none_of_word {pattern : EndPattern} (hpattern : pattern ≠ .word)
    (h : EndsInWord front word) (hpoint : front.getLast? ≠ some (CodePoint.char '.')) :
    pattern.find? (front ++ word) = none := by
  rw [← Option.not_isSome_iff_eq_none, EndPattern.isSome_find?_iff]
  rintro ⟨part, rest, heq, hfits⟩
  obtain ⟨before, behind, rfl, hbehind⟩ := EndPattern.exists_point_of_fits hpattern hfits
  have hsplit : front ++ word = (part ++ before ++ [CodePoint.char '.']) ++ behind := by simp [heq]
  have hboundary : EndsInWord (part ++ before ++ [CodePoint.char '.']) behind :=
    ⟨hbehind, by rw [List.getLast?_concat]; exact isIdentChar_point⟩
  rw [h.unique hboundary hsplit, List.append_cancel_right_eq] at hsplit
  exact hpoint (by rw [hsplit, List.getLast?_concat])

theorem endsAfterDot_of_word (h : EndsInWord front word)
    (hpoint : front.getLast? ≠ some (CodePoint.char '.')) : endsAfterDot (front ++ word) = false := by
  unfold endsAfterDot
  rw [find?_eq_none_of_word (by decide) h hpoint]
  rfl

theorem endsAtRoot_of_word (root : Text) (h : EndsInWord front word)
    (hpoint : front.getLast? ≠ some (CodePoint.char '.')) : endsAtRoot root (front ++ word) = false := by
  have hrooted : (EndPattern.rootedWord root).find? (front ++ word) = none :=
    find?_eq_none_of_word nofun h hpoint
  unfold endsAtRoot
  rw [hrooted]
  rfl

/-- The search for a point finds it where the end of the line has one. -/
theorem find?_pointedWord_append (hword : ∀ c ∈ word, Text.isIdentChar c = true) :
    EndPattern.pointedWord.find? (front ++ CodePoint.char '.' :: word) =
      some (CodePoint.char '.' :: word) := by
  refine EndPattern.find?_append (isPointedWord_iff.2 ⟨word, rfl, hword⟩) fun earlier later _ hne => ?_
  rw [Bool.eq_false_iff]
  intro hfits
  obtain ⟨behind, heq, hbehind⟩ := isPointedWord_iff.1 hfits
  obtain ⟨hnil, -, -⟩ := cut_at_last (ne_point hword) rfl (ne_point hbehind) rfl
    (heq.trans (List.nil_append _).symm)
  exact hne hnil

/-- The word before the point is found with it, as a whole. -/
theorem find?_scopedWord_append (h : EndsInWord front scope) (hne : scope ≠ [])
    (hword : ∀ c ∈ word, Text.isIdentChar c = true) :
    EndPattern.scopedWord.find? (front ++ (scope ++ CodePoint.char '.' :: word)) =
      some (scope ++ CodePoint.char '.' :: word) := by
  refine EndPattern.find?_append
    (EndPattern.fits_scopedWord_iff.2 ⟨h.boundary, scope, word, rfl, hne, h.chars, hword⟩)
    fun earlier later hsplit hlater => ?_
  rw [Bool.eq_false_iff]
  intro hfits
  obtain ⟨-, scope', word', heq, -, hscope', hword'⟩ := EndPattern.fits_scopedWord_iff.1 hfits
  rw [← List.append_assoc] at heq
  obtain ⟨rfl, -, -⟩ := cut_at_last (ne_point hword) rfl (ne_point hword') rfl heq
  exact hlater (eq_nil_of_boundary (hsplit ▸ h.boundary) fun c hc => hscope' c (List.mem_append_left _ hc))

/-- Without a word before the point there is no place for a pattern that starts with one. -/
theorem find?_scopedWord_point (h : EndsInWord front []) (hword : ∀ c ∈ word, Text.isIdentChar c = true) :
    EndPattern.scopedWord.find? (front ++ CodePoint.char '.' :: word) = none := by
  rw [← Option.not_isSome_iff_eq_none, EndPattern.isSome_find?_iff]
  rintro ⟨part, rest, heq, hfits⟩
  obtain ⟨-, scope, behind, rfl, hne, hscope, hbehind⟩ := EndPattern.fits_scopedWord_iff.1 hfits
  rw [← List.append_assoc] at heq
  obtain ⟨rfl, -, -⟩ := cut_at_last (ne_point hword) rfl (ne_point hbehind) rfl heq
  exact hne (eq_nil_of_boundary h.boundary hscope)

/-- The search for the root finds it exactly if it is the whole word before the point. -/
theorem isSome_find?_rootedWord_iff {root : Text} (hroot : ∀ c ∈ root, Text.isIdentChar c = true)
    (h : EndsInWord front scope) (hword : ∀ c ∈ word, Text.isIdentChar c = true) :
    ((EndPattern.rootedWord root).find? (front ++ (scope ++ CodePoint.char '.' :: word))).isSome = true ↔
      scope = root := by
  rw [EndPattern.isSome_find?_iff]
  constructor
  · rintro ⟨part, rest, heq, hfits⟩
    obtain ⟨hpart, behind, rfl, hbehind⟩ := EndPattern.fits_rootedWord_iff.1 hfits
    rw [← List.append_assoc, ← List.append_assoc] at heq
    obtain ⟨hcut, -, -⟩ := cut_at_last (ne_point hword) rfl (ne_point hbehind) rfl heq
    exact h.unique ⟨hroot, hpart⟩ hcut
  · rintro rfl
    exact ⟨front, _, rfl, EndPattern.fits_rootedWord_iff.2 ⟨h.boundary, word, rfl, hword⟩⟩

/-- The last search finds the word at the end of a line as a whole, or nothing if there is none. -/
theorem getD_find?_word_append (h : EndsInWord front word) :
    (EndPattern.word.find? (front ++ word)).getD [] = word := by
  by_cases hne : word = []
  · have hnone : EndPattern.word.find? (front ++ word) = none := by
      rw [← Option.not_isSome_iff_eq_none, EndPattern.isSome_find?_iff, hne, List.append_nil]
      rintro ⟨part, rest, rfl, hfits⟩
      obtain ⟨hrest, hall⟩ := EndPattern.fits_word_iff.1 hfits
      exact hrest (eq_nil_of_boundary h.boundary hall)
    rw [hnone, hne]
    rfl
  · have hfound : EndPattern.word.find? (front ++ word) = some word := by
      refine EndPattern.find?_append (EndPattern.fits_word_iff.2 ⟨hne, h.chars⟩)
        fun earlier later hsplit hlater => ?_
      rw [Bool.eq_false_iff]
      intro hfits
      obtain ⟨-, hall⟩ := EndPattern.fits_word_iff.1 hfits
      exact hlater (eq_nil_of_boundary (hsplit ▸ h.boundary) fun c hc => hall c (List.mem_append_left _ hc))
    rw [hfound]
    rfl

end

/-! ## The token -/

theorem chars_pointed {scope word : Text} (hscope : ∀ c ∈ scope, Text.isIdentChar c = true)
    (hword : ∀ c ∈ word, Text.isIdentChar c = true) :
    ∀ c ∈ scope ++ CodePoint.char '.' :: word, Text.isIdentChar c = true ∨ c = '.' := by
  intro c hc
  rcases List.mem_append.1 hc with hc | hc
  · exact .inl (hscope c hc)
  · rcases List.mem_cons.1 hc with rfl | hc
    · exact .inr rfl
    · exact .inl (hword c hc)

section

variable {front token : Text}

theorem Ending.chars (h : Ending front token) : ∀ c ∈ token, Text.isIdentChar c = true ∨ c = '.' := by
  cases h with
  | word h _ => exact fun c hc => .inl (h.chars c hc)
  | pointed h hword => exact chars_pointed h.chars hword

/-- At the start of an argument there is no token. -/
theorem Ending.eq_nil (h : Ending front token) (hargument : endsAtArgument (front ++ token) = true) :
    token = [] := by
  rcases List.eq_nil_or_concat token with rfl | ⟨init, c, rfl⟩
  · rfl
  · have hc := h.chars c (by simp)
    have hends : c = '(' ∨ c = ',' := by simpa [endsAtArgument, ← List.append_assoc] using hargument
    rcases hends with rfl | rfl <;> exact absurd hc (by decide)

/-- The first pattern that finds anything finds the end of the line as a whole. -/
theorem Ending.getD_findSome? (h : Ending front token) :
    (tokenPatterns.findSome? (·.find? (front ++ token))).getD [] = token := by
  unfold tokenPatterns
  rw [List.findSome?_cons, List.findSome?_cons, List.findSome?_singleton]
  cases h with
  | word h hpoint =>
    have hscoped : EndPattern.scopedWord.find? (front ++ token) = none :=
      find?_eq_none_of_word (by decide) h hpoint
    have hpointed : EndPattern.pointedWord.find? (front ++ token) = none :=
      find?_eq_none_of_word (by decide) h hpoint
    rw [hscoped, hpointed]
    exact getD_find?_word_append h
  | @pointed scope word h hword =>
    by_cases hne : scope = []
    · subst hne
      rw [List.nil_append, find?_scopedWord_point h hword, find?_pointedWord_append hword]
      rfl
    · rw [find?_scopedWord_append h hne hword]
      rfl

/-- Outside of literals the exit and the searches find the end of the line as a whole. -/
theorem lineTrigger_of_ending (h : Ending front token)
    (hopen : openLiteral stringQuotes (front ++ token) = none) : lineTrigger (front ++ token) = token := by
  unfold lineTrigger
  rw [hopen]
  dsimp only
  split
  · rename_i hargument
    exact (h.eq_nil hargument).symm
  · exact h.getD_findSome?

/-- In a literal the token is what stands on the line from the quote on. -/
theorem lineTrigger_of_openLiteral {line : Text} {literal : OpenLiteral}
    (h : openLiteral stringQuotes line = some literal) : lineTrigger line = line.drop literal.start := by
  obtain ⟨before, behind, hline, hlength, -⟩ := (openLiteral_eq_some_iff.1 h).exists_eq
  unfold lineTrigger
  rw [h]
  dsimp only
  rw [hline, ← hlength, List.drop_left, ← List.drop_drop, List.drop_left, List.drop_one, List.tail_cons]

end

end FluentQuery.Cursor
