/-
  The call that encloses the end of a text. The search goes through the calls of known methods from the
  last one back and scans the rest of the text behind every one of them; the same result comes from one
  pass over the opening parentheses with the text before each at hand (`openCall?_eq_openCallFrom`). In a
  balanced text no parenthesis is left open (`openCallFrom_balanced`), so in a fluent text the search
  finds the innermost open group that a known method stands before, with the commas directly in it:
  `openCall?_eq_innermostCall?`.
-/
import FluentQuery.Completion.Cursor
import FluentQuery.Proofs.Chain.Openings
import FluentQuery.Proofs.Expression.Fluent

namespace FluentQuery

/-! ## Open groups -/

/-- The known method whose name, behind a point, ends a text, blanks aside. -/
def Cursor.calledName? (before : Text) : Option Text :=
  completedMethods.find? fun name => (CodePoint.char '.' :: name) <:+ Text.trimEnd before

/-- A group that is open at the end of a text: what stands before it, its bracket, and how many commas
stand directly in it. -/
structure OpenGroup where
  before : Text
  bracket : Bracket
  commas : Nat

/-- The call of a known method whose arguments the group holds. -/
def OpenGroup.call? (g : OpenGroup) : Option OpenCall :=
  if g.bracket = .round then (Cursor.calledName? g.before).map (⟨·, g.commas⟩) else none

namespace Unfinished

/-- The groups that are open at the end of a text, innermost first, where `before` stands before the
text. -/
def openGroups (before : Text) : Unfinished → List OpenGroup
  | done _ => []
  | inLiteral _ _ _ _ => []
  | inGroup front bracket inside =>
    inside.openGroups (before ++ front.text ++ [bracket.opener]) ++
      [⟨before ++ front.text, bracket, inside.commas⟩]

/-- The innermost open group that holds the arguments of a known method, as a call. -/
def innermostCall? (u : Unfinished) : Option OpenCall := (u.openGroups []).findSome? OpenGroup.call?

end Unfinished

namespace Cursor

open Pieces

/-! ## Names before parentheses -/

theorem point_not_mem_of_mem_completedMethods {name : Text} (h : name ∈ completedMethods) :
    CodePoint.char '.' ∉ name := fun hmem =>
  absurd (isIdentChar_method _ h _ hmem) (by decide)

theorem trimEnd_pointed {name blanks : Text} (h : name ∈ completedMethods)
    (hblank : blanks.all Text.isBlank = true) :
    Text.trimEnd (CodePoint.char '.' :: name ++ blanks) = CodePoint.char '.' :: name := by
  have hend : ∀ name ∈ completedMethods, Text.endsInBlank (CodePoint.char '.' :: name) = false := by
    decide
  rw [Text.trimEnd_append hblank, Text.trimEnd_of_endsInBlank_eq_false (hend name h)]

theorem paren_not_mem_pointed {name : Text} (h : name ∈ completedMethods) :
    CodePoint.char '(' ∉ CodePoint.char '.' :: name := by
  rw [List.mem_cons, not_or]
  exact ⟨by decide, fun hmem => absurd (isIdentChar_method _ h _ hmem) (by decide)⟩

/-- A text ends in a point and a name without points in one way only. -/
theorem eq_of_pointed_suffix {name other text : Text} (hname : CodePoint.char '.' ∉ name)
    (hother : CodePoint.char '.' ∉ other) (h : (CodePoint.char '.' :: name) <:+ text)
    (h' : (CodePoint.char '.' :: other) <:+ text) : name = other := by
  have hle {short long : Text} (hlong : CodePoint.char '.' ∉ long)
      (hsuffix : (CodePoint.char '.' :: short) <:+ CodePoint.char '.' :: long) : short = long := by
    rcases List.suffix_cons_iff.1 hsuffix with heq | hin
    · exact List.tail_eq_of_cons_eq heq
    · exact absurd (hin.subset List.mem_cons_self) hlong
  rcases List.suffix_or_suffix_of_suffix h h' with hsuffix | hsuffix
  · exact hle hother hsuffix
  · exact (hle hname hsuffix).symm

/-- The end of a text without some character is the end of what stands behind the character. -/
theorem suffix_append_cons_iff {c : CodePoint} {part : Text} (h : c ∉ part) (front text : Text) :
    part <:+ front ++ c :: text ↔ part <:+ text := by
  constructor
  · intro hpart
    rcases List.suffix_or_suffix_of_suffix hpart (List.suffix_append front (c :: text)) with hin | hin
    · rcases List.suffix_cons_iff.1 hin with rfl | hin
      · exact absurd List.mem_cons_self h
      · exact hin
    · exact absurd (hin.subset List.mem_cons_self) h
  · intro hpart
    exact hpart.trans ((List.suffix_cons c text).trans (List.suffix_append front _))

theorem calledName?_eq_some_iff {before name : Text} : calledName? before = some name ↔
    name ∈ completedMethods ∧ (CodePoint.char '.' :: name) <:+ Text.trimEnd before := by
  unfold calledName?
  constructor
  · intro h
    exact ⟨List.mem_of_find?_eq_some h, by simpa using List.find?_some h⟩
  · rintro ⟨hmem, hsuffix⟩
    cases hfind : completedMethods.find?
        fun name => decide ((CodePoint.char '.' :: name) <:+ Text.trimEnd before) with
    | none => exact absurd hsuffix (by simpa using List.find?_eq_none.1 hfind name hmem)
    | some other =>
      have hother : (CodePoint.char '.' :: other) <:+ Text.trimEnd before := by
        simpa using List.find?_some hfind
      exact congrArg some (eq_of_pointed_suffix
        (point_not_mem_of_mem_completedMethods (List.mem_of_find?_eq_some hfind))
        (point_not_mem_of_mem_completedMethods hmem) hother hsuffix)

/-- Within the name itself no other name ends. -/
theorem calledName?_eq_none_of_pointed {name a : Text} {c : CodePoint} (hname : name ∈ completedMethods)
    (h : Text.trimEnd (c :: a) = CodePoint.char '.' :: name) : calledName? a = none := by
  rcases Text.trimEnd_cons c a with hcons | ⟨hnil, -⟩
  · have hpoint := point_not_mem_of_mem_completedMethods hname
    rw [← List.tail_eq_of_cons_eq (hcons.symm.trans h)] at hpoint
    rw [Option.eq_none_iff_forall_ne_some]
    intro other hother
    exact hpoint ((calledName?_eq_some_iff.1 hother).2.subset List.mem_cons_self)
  · rw [hnil] at h
    cases h

/-- Where a text is more than a name behind its point, its first character does not matter. -/
theorem calledName?_cons_of_ne {a : Text} {c : CodePoint}
    (h : ∀ name ∈ completedMethods, Text.trimEnd (c :: a) ≠ CodePoint.char '.' :: name) :
    calledName? (c :: a) = calledName? a := by
  ext name
  rw [calledName?_eq_some_iff, calledName?_eq_some_iff, and_congr_right_iff]
  intro hname
  have hne := h name hname
  rcases Text.trimEnd_cons c a with hcons | ⟨hnil, hnil'⟩
  · rw [hcons] at hne
    rw [hcons, List.suffix_cons_iff, or_iff_right hne.symm]
  · rw [hnil, hnil']

theorem findsCalls_completedCall? : FindsCalls completedCall? := by
  intro text found h
  obtain ⟨name, hname, hcall⟩ := List.exists_of_findSome?_eq_some h
  obtain ⟨inside, hopen, -⟩ := Option.map_eq_some_iff.1 hcall
  exact (Call.opensCalls_open? (isIdentChar_method _ hname)).findsCalls text inside hopen

section

variable {a : Text} (ha : CodePoint.char '(' ∉ a) (b : Text)

include ha

theorem eq_of_completedCall?_append {name rest : Text}
    (h : completedCall? (a ++ CodePoint.char '(' :: b) = some (name, rest)) :
    name ∈ completedMethods ∧ Text.trimEnd a = CodePoint.char '.' :: name ∧ rest = b := by
  obtain ⟨other, hname, hcall⟩ := List.exists_of_findSome?_eq_some h
  obtain ⟨inside, hopen, heq⟩ := Option.map_eq_some_iff.1 hcall
  cases heq
  obtain ⟨blanks, htext, hblank⟩ := Call.open?_eq_some hopen
  have hfront := unmarked_of_name (isIdentChar_method _ hname) hblank
  have hfront' : ∀ c ∈ CodePoint.char '.' :: name ++ blanks, ¬c = CodePoint.char '(' := by
    rintro c hc rfl
    rcases List.mem_cons.1 hc with heq | hmem
    · exact absurd heq (by decide)
    · exact hfront _ hmem List.mem_cons_self
  have ha' : ∀ c ∈ a, ¬c = CodePoint.char '(' := by
    rintro c hc rfl
    exact ha hc
  obtain ⟨rfl, -, rfl⟩ := cut_at_first ha' rfl hfront' rfl htext
  exact ⟨hname, trimEnd_pointed hname hblank, rfl⟩

/-- A call of a known method starts where its name, behind a point, is all that stands before the next
opening parenthesis. -/
theorem completedCall?_append_eq_some_iff {name rest : Text} :
    completedCall? (a ++ CodePoint.char '(' :: b) = some (name, rest) ↔
      name ∈ completedMethods ∧ Text.trimEnd a = CodePoint.char '.' :: name ∧ rest = b := by
  refine ⟨eq_of_completedCall?_append ha b, ?_⟩
  rintro ⟨hname, htrim, rfl⟩
  cases hcall : completedCall? (a ++ CodePoint.char '(' :: rest) with
  | some found =>
    obtain ⟨other, behind⟩ := found
    obtain ⟨-, htrim', rfl⟩ := eq_of_completedCall?_append ha rest hcall
    rw [List.tail_eq_of_cons_eq (htrim.symm.trans htrim')]
  | none =>
    obtain ⟨blanks, hsplit, hblank⟩ := Text.trimEnd_append_blanks a
    have hident := isIdentChar_method _ hname
    have hopen := Call.open?_callText hident hident hblank rest
    rw [if_pos rfl] at hopen
    rw [htrim] at hsplit
    have hnone := List.findSome?_eq_none_iff.1 hcall name hname
    have htext : a ++ CodePoint.char '(' :: rest = callText (name ++ blanks) rest := by
      rw [hsplit]
      rfl
    rw [htext, hopen] at hnone
    cases hnone

/-- Up to the next opening parenthesis there is the call whose name stands before it, if any. -/
theorem allPlaces_completedCall?_append :
    allPlaces completedCall? (a ++ CodePoint.char '(' :: b) =
      ((calledName? a).map (·, b)).toList ++ allPlaces completedCall? b := by
  induction a with
  | nil =>
    have hnone : completedCall? (CodePoint.char '(' :: b) = none :=
      findsCalls_completedCall?.of_ne_point (by decide) b
    have hnone' : calledName? [] = none := by decide
    rw [List.nil_append, allPlaces, hnone, hnone']
    rfl
  | cons c a ih =>
    have ih := ih fun hmem => ha (List.mem_cons_of_mem c hmem)
    rw [List.cons_append, allPlaces, ih]
    cases hcall : completedCall? (c :: (a ++ CodePoint.char '(' :: b)) with
    | some found =>
      obtain ⟨name, rest⟩ := found
      obtain ⟨hname, htrim, rfl⟩ := (completedCall?_append_eq_some_iff ha b).1 hcall
      have hcalled : calledName? (c :: a) = some name :=
        calledName?_eq_some_iff.2 ⟨hname, htrim ▸ List.suffix_refl _⟩
      rw [hcalled, calledName?_eq_none_of_pointed hname htrim]
      rfl
    | none =>
      have hnot : ∀ name ∈ completedMethods, Text.trimEnd (c :: a) ≠ CodePoint.char '.' :: name := by
        intro name hname htrim
        have hsome := (completedCall?_append_eq_some_iff ha b).2 ⟨hname, htrim, rfl⟩
        rw [List.cons_append, hcall] at hsome
        cases hsome
      rw [calledName?_cons_of_ne hnot]
      rfl

theorem openCall?_append :
    openCall? (a ++ CodePoint.char '(' :: b) =
      (openCall? b).or ((calledName? a).bind (openArgument? · b)) := by
  unfold openCall?
  rw [allPlaces_completedCall?_append ha, List.reverse_append, List.findSome?_append]
  cases calledName? a <;> simp

theorem openCall?_of_not_mem : openCall? a = none := by
  unfold openCall?
  rw [findsCalls_completedCall?.allPlaces_eq_nil ha]
  rfl

end

/-- What stands before the last parenthesis does not matter. -/
theorem calledName?_append (front a : Text) :
    calledName? (front ++ CodePoint.char '(' :: a) = calledName? a := by
  ext name
  rw [calledName?_eq_some_iff, calledName?_eq_some_iff, and_congr_right_iff]
  intro hname
  rw [Text.trimEnd_append_cons (by decide), suffix_append_cons_iff (paren_not_mem_pointed hname)]

/-! ## One pass over the parentheses -/

/-- The last call of a known method that is still open at the end of a text, where `before` stands
before the text. -/
def openCallFrom (before : Text) : Text → Option OpenCall
  | [] => none
  | c :: rest =>
    (openCallFrom (before ++ [c]) rest).or
      (if c = '(' then (calledName? before).bind (openArgument? · rest) else none)

theorem openCallFrom_cons_of_ne {c : CodePoint} (hc : c ≠ '(') (before rest : Text) :
    openCallFrom before (c :: rest) = openCallFrom (before ++ [c]) rest := by
  rw [openCallFrom, if_neg hc, Option.or_none]

/-- The pass agrees with the search, where the text since the last parenthesis is all of `before` that
matters. -/
theorem openCall?_append_eq_openCallFrom (text : Text) {before a : Text}
    (ha : CodePoint.char '(' ∉ a)
    (hbefore : ∀ s, CodePoint.char '(' ∉ s → calledName? (before ++ s) = calledName? (a ++ s)) :
    openCall? (a ++ text) = openCallFrom before text := by
  -- on the text still to be read: `a` grows up to the next parenthesis and is empty behind it
  induction text generalizing before a with
  | nil =>
    rw [List.append_nil, openCall?_of_not_mem ha]
    rfl
  | cons c rest ih =>
    by_cases hc : c = '('
    · have hlater := @ih (before ++ [c]) [] List.not_mem_nil fun s _ => by
        rw [hc, List.append_assoc, List.singleton_append, calledName?_append, List.nil_append]
      have hname := hbefore [] List.not_mem_nil
      rw [List.append_nil, List.append_nil] at hname
      rw [List.nil_append] at hlater
      rw [openCallFrom, if_pos hc, ← hlater, hname, hc, openCall?_append ha]
    · have hlater := @ih (before ++ [c]) (a ++ [c])
        (by simpa [ha] using Ne.symm hc) fun s hs => by
          rw [List.append_assoc, List.append_assoc]
          exact hbefore _ (by simpa [hs] using Ne.symm hc)
      rw [openCallFrom_cons_of_ne hc, ← hlater, List.append_assoc, List.singleton_append]

theorem openCall?_eq_openCallFrom (text : Text) : openCall? text = openCallFrom [] text :=
  openCall?_append_eq_openCallFrom text List.not_mem_nil fun _ _ => rfl

theorem openCallFrom_append_of_not_mem {a : Text} (ha : CodePoint.char '(' ∉ a) (before b : Text) :
    openCallFrom before (a ++ b) = openCallFrom (before ++ a) b := by
  induction a generalizing before with
  | nil => rw [List.nil_append, List.append_nil]
  | cons c a ih =>
    rw [List.mem_cons, not_or] at ha
    rw [List.cons_append, openCallFrom_cons_of_ne (Ne.symm ha.1), ih ha.2, List.append_assoc,
      List.singleton_append]

/-! ## Balanced and fluent texts -/

/-- The arguments of a call that is closed behind a balanced text are not open. -/
theorem openArgument?_closed (b : Balanced) (name rest : Text) :
    openArgument? name (b.text ++ CodePoint.char ')' :: rest) = none := by
  have hclosing := (b.passes 0 (CodePoint.char ')' :: rest)).1
  rw [scanAt_end] at hclosing
  unfold openArgument?
  rw [callArguments_eq, CallArguments.isClosed, Option.isSome_map, hclosing]
  rfl

/-- In an unfinished text the argument is counted by the commas directly in it. -/
theorem openArgument?_unfinished (u : Unfinished) (name : Text) :
    openArgument? name u.text = some ⟨name, u.commas⟩ := by
  obtain ⟨hclosing, hmore⟩ := u.ends 0
  unfold openArgument?
  rw [countCommas_eq, hmore, callArguments_eq, CallArguments.isClosed, hclosing]
  rfl

/-- What an opening bracket adds: the call of the known method before it, if the rest of the text leaves
it open. -/
def callAt? (bracket : Bracket) (before rest : Text) : Option OpenCall :=
  if bracket = .round then (calledName? before).bind (openArgument? · rest) else none

theorem openCallFrom_opener (bracket : Bracket) (before rest : Text) :
    openCallFrom before (bracket.opener :: rest) =
      (openCallFrom (before ++ [bracket.opener]) rest).or (callAt? bracket before rest) := by
  cases bracket <;> rfl

/-- A bracket that is closed behind a balanced text adds nothing. -/
theorem callAt?_closed (bracket : Bracket) (before : Text) (inside : Balanced) (rest : Text) :
    callAt? bracket before (inside.text ++ bracket.closer :: rest) = none := by
  unfold callAt?
  split
  · rename_i hround
    rw [hround]
    cases calledName? before with
    | none => rfl
    | some name => exact openArgument?_closed inside name rest
  · rfl

/-- A bracket that stays open adds the call of its group. -/
theorem callAt?_unfinished (bracket : Bracket) (before : Text) (inside : Unfinished) :
    callAt? bracket before inside.text = OpenGroup.call? ⟨before, bracket, inside.commas⟩ := by
  unfold callAt? OpenGroup.call?
  split
  · cases calledName? before with
    | none => rfl
    | some name => exact openArgument?_unfinished inside name
  · rfl

/-- No call is left open in a balanced text. -/
theorem openCallFrom_balanced (b : Balanced) (before rest : Text) :
    openCallFrom before (b.text ++ rest) = openCallFrom (before ++ b.text) rest := by
  induction b generalizing before rest with
  | nil => exact openCallFrom_append_of_not_mem List.not_mem_nil before rest
  | plain run h tail ih =>
    have hparen : CodePoint.char '(' ∉ run := fun hmem => absurd (h _ hmem) (by decide)
    rw [Balanced.text, List.append_assoc, openCallFrom_append_of_not_mem hparen, ih, List.append_assoc]
  | literal quote content h tail ih =>
    have hparen : CodePoint.char '(' ∉ quote :: (content ++ [quote]) := by
      rw [← List.cons_append, List.mem_append, not_or]
      refine ⟨h.paren_not_mem_cons, fun hmem => h.paren_not_mem_cons ?_⟩
      rw [List.mem_singleton.1 hmem]
      exact List.mem_cons_self
    rw [Balanced.text, List.append_assoc, openCallFrom_append_of_not_mem hparen, ih, List.append_assoc]
  | group bracket inside tail ihInside ihTail =>
    have hcloser : bracket.closer ≠ '(' := by
      cases bracket <;> decide
    rw [Balanced.text, List.cons_append, List.cons_append, List.append_assoc, List.append_assoc,
      List.singleton_append, openCallFrom_opener, callAt?_closed, Option.or_none, ihInside,
      openCallFrom_cons_of_ne hcloser, ihTail]
    simp only [List.append_assoc, List.cons_append, List.nil_append]

/-- Only the groups that an unfinished text ends in can leave a call open. -/
theorem openCallFrom_unfinished (u : Unfinished) (before : Text) :
    openCallFrom before u.text = (u.openGroups before).findSome? OpenGroup.call? := by
  induction u generalizing before with
  | done front =>
    have hfront := openCallFrom_balanced front before []
    rwa [List.append_nil] at hfront
  | inLiteral front quote content h =>
    have hliteral := openCallFrom_append_of_not_mem h.paren_not_mem_cons (before ++ front.text) []
    rw [List.append_nil] at hliteral
    exact (openCallFrom_balanced front before _).trans hliteral
  | inGroup front bracket inside ih =>
    rw [Unfinished.text, openCallFrom_balanced, openCallFrom_opener, ih, callAt?_unfinished,
      Unfinished.openGroups, List.findSome?_append, List.findSome?_singleton]

/-- Every start of a balanced text reads as a text that ends behind a balanced one, in a literal or in a
group; and however it reads, the enclosing call that is found is the innermost group still open whose
parenthesis follows the name of a known method, with the number of commas directly in it. -/
theorem openCall?_eq_innermostCall? {text : Text} (h : Fluent text) :
    (∃ u : Unfinished, u.text = text) ∧
      ∀ u : Unfinished, u.text = text → openCall? text = u.innermostCall? := by
  refine ⟨fluent_iff.1 h, ?_⟩
  rintro u rfl
  rw [openCall?_eq_openCallFrom]
  exact openCallFrom_unfinished u []

/-- Behind a closed list and a closed call in it, in a literal in an open call of some other function,
the cursor is in the third argument of `where`. -/
theorem openCall?_in_other_call :
    Fluent (".where('a', [1, .doc(b, c)], f(x, \"y" : String) ∧
      openCall? (".where('a', [1, .doc(b, c)], f(x, \"y" : String) = some ⟨"where", 2⟩ := by
  obtain ⟨u, htext, hcall⟩ : ∃ u : Unfinished,
      u.text = (".where('a', [1, .doc(b, c)], f(x, \"y" : String) ∧
        u.innermostCall? = some ⟨"where", 2⟩ :=
    ⟨.inGroup (.plain ".where" (by decide) .nil) .round
      (.inGroup
        (.literal Text.singleQuote "a" ⟨by decide, by decide, by decide, by decide⟩
          (.plain ", " (by decide)
            (.group .square
              (.plain "1, .doc" (by decide) (.group .round (.plain "b, c" (by decide) .nil) .nil))
              (.plain ", f" (by decide) .nil))))
        .round
        (.inLiteral (.plain "x, " (by decide) .nil) Text.doubleQuote "y"
          ⟨by decide, by decide, by decide, by decide⟩)),
      by decide, by decide⟩
  have hfluent := fluent_iff.2 ⟨u, htext⟩
  exact ⟨hfluent, ((openCall?_eq_innermostCall? hfluent).2 u htext).trans hcall⟩

end Cursor

end FluentQuery
