/-
  The openings of calls. At a call the search for a name succeeds if the call has this name, and is at its
  arguments then (`Call.open?_callText`); a point ends the opening (`Call.open?_append_point`). The search
  for an ordering takes the name in any case (`Query.opensCalls_orderingOpening?`).
-/
import FluentQuery.Completion.Cursor
import FluentQuery.Proofs.Chain.Operands
import FluentQuery.Query.Parse

namespace FluentQuery

/-! ## Characters of names -/

/-- The characters of identifiers lie between the dollar sign and the small letters. -/
theorem toNat_of_isIdentChar {c : CodePoint} (h : Text.isIdentChar c = true) :
    0x24 ≤ c.toNat ∧ c.toNat ≤ 0x7A := by
  cases c with
  | surrogate offset => cases h
  | char c =>
    simp only [Text.isIdentChar, CodePoint.isAlphanum, Char.isAlphanum, Char.isAlpha, Char.isUpper,
      Char.isLower, Char.isDigit, Bool.or_eq_true, Bool.and_eq_true, decide_eq_true_eq,
      UInt32.le_iff_toNat_le, ge_iff_le] at h
    change ((((0x41 ≤ c.toNat ∧ c.toNat ≤ 0x5A) ∨ (0x61 ≤ c.toNat ∧ c.toNat ≤ 0x7A)) ∨
      (0x30 ≤ c.toNat ∧ c.toNat ≤ 0x39)) ∨ CodePoint.char c = '_') ∨ CodePoint.char c = '$' at h
    rw [CodePoint.toNat_char]
    rcases h with (h | h) | h
    · omega
    · cases h
      decide
    · cases h
      decide

/-- The names of the methods are identifiers. -/
theorem isIdentChar_method (name : Text) (h : name ∈ Cursor.completedMethods) :
    ∀ c ∈ name, Text.isIdentChar c = true := by
  revert name
  decide

theorem isBlank_of_isIdentChar {c : CodePoint} (h : Text.isIdentChar c = true) :
    Text.isBlank c = false := by
  have hc := toNat_of_isIdentChar h
  unfold Text.isBlank
  simp only [Bool.or_eq_false_iff, Bool.and_eq_false_iff, decide_eq_false_iff_not]
  omega

/-- Lower case changes the capital letters of ASCII only. -/
theorem toLower_eq (c : CodePoint) :
    c.toLower = c ∨ (0x41 ≤ c.toNat ∧ c.toNat ≤ 0x5A ∧ c.toLower.toNat = c.toNat + 0x20) := by
  cases c with
  | surrogate offset => exact Or.inl rfl
  | char c =>
    by_cases h : c.val ≥ 'A'.val ∧ c.val ≤ 'Z'.val
    · have hlower : (CodePoint.char c).toLower.toNat = (c.val + ('a'.val - 'A'.val)).toNat := by
        simp only [CodePoint.toLower, Char.toLower, h, and_self, dite_true]
        rfl
      obtain ⟨hlo, hhi⟩ := h
      rw [ge_iff_le, UInt32.le_iff_toNat_le] at hlo
      rw [UInt32.le_iff_toNat_le] at hhi
      have hcap : 'A'.val.toNat = 0x41 := rfl
      have hcap' : 'Z'.val.toNat = 0x5A := rfl
      have hstep : ('a'.val - 'A'.val).toNat = 0x20 := rfl
      have hval : c.toNat = c.val.toNat := rfl
      rw [hlower, UInt32.toNat_add, hstep, CodePoint.toNat_char]
      omega
    · left
      simp only [CodePoint.toLower, Char.toLower, h, dite_false]

/-! ## Searches for openings -/

/-- The search is at the arguments of a call when it succeeds. -/
def OpensCalls (opens : Text → Option Text) : Prop :=
  ∀ text inside, opens text = some inside → ∃ front, text = callText front inside ∧ Unmarked front

theorem OpensCalls.findsCalls {opens : Text → Option Text} (h : OpensCalls opens) :
    FindsCalls opens := by
  intro text inside hinside
  obtain ⟨front, htext, hfront⟩ := h text inside hinside
  exact ⟨front, inside, htext, hfront⟩

/-- At a call the search can only be at the arguments of this call. -/
theorem OpensCalls.eq_of_call {opens : Text → Option Text} (h : OpensCalls opens)
    {front inside inside' : Text} (hfront : Unmarked front)
    (hopens : opens (callText front inside) = some inside') : inside' = inside := by
  obtain ⟨front', htext, hfront'⟩ := h _ _ hopens
  exact (callText_inj hfront hfront' htext).2.symm

theorem unmarked_of_blanks {blanks : Text} (h : blanks.all Text.isBlank = true) :
    Unmarked blanks := Unmarked.of_kind (by decide) (List.all_eq_true.1 h)

/-- An identifier and the blanks behind it. -/
theorem unmarked_of_name {name blanks : Text} (h : ∀ c ∈ name, Text.isIdentChar c = true)
    (hblank : blanks.all Text.isBlank = true) : Unmarked (name ++ blanks) :=
  (Unmarked.of_kind (by decide) h).append (unmarked_of_blanks hblank)

namespace Call

theorem skipTo?_eq_some {expected : CodePoint} {text rest : Text}
    (h : skipTo? expected text = some rest) :
    ∃ blanks : Text, text = blanks ++ expected :: rest ∧ blanks.all Text.isBlank = true := by
  unfold skipTo? at h
  cases htrim : Text.trimStart text with
  | nil =>
    rw [htrim] at h
    cases h
  | cons c behind =>
    rw [htrim] at h
    dsimp only at h
    split at h
    · rename_i hc
      cases h
      refine ⟨text.takeWhile Text.isBlank, ?_, List.all_takeWhile⟩
      have hsplit := List.takeWhile_append_dropWhile (p := Text.isBlank) (l := text)
      unfold Text.trimStart at htrim
      rw [htrim, hc] at hsplit
      exact hsplit.symm
    · cases h

theorem skipTo?_blanks {expected : CodePoint} (hexpected : Text.isBlank expected = false)
    {blanks : Text} (h : blanks.all Text.isBlank = true) (rest : Text) :
    skipTo? expected (blanks ++ expected :: rest) = some rest := by
  have hstart : Text.startsInBlank (expected :: rest) = false := hexpected
  unfold skipTo?
  rw [Text.trimStart_append h, Text.trimStart_of_startsInBlank_eq_false hstart]
  dsimp only
  rw [if_pos rfl]

theorem open?_eq_some {name text inside : Text} (h : open? name text = some inside) :
    ∃ blanks : Text, text = callText (name ++ blanks) inside ∧ blanks.all Text.isBlank = true := by
  obtain ⟨behind, hafter, hskip⟩ := Option.bind_eq_some_iff.1 h
  obtain ⟨blanks, rfl, hblank⟩ := skipTo?_eq_some hskip
  refine ⟨blanks, ?_, hblank⟩
  unfold callText
  rw [Text.after?_eq_some_iff.1 hafter, List.cons_append, List.append_assoc]

theorem opensCalls_open? {name : Text} (h : ∀ c ∈ name, Text.isIdentChar c = true) :
    OpensCalls (open? name) := by
  intro text inside hopen
  obtain ⟨blanks, htext, hblank⟩ := open?_eq_some hopen
  exact ⟨name ++ blanks, htext, unmarked_of_name h hblank⟩

/-- A name ends where blanks follow. -/
theorem takeWhile_name {name blanks : Text} (h : ∀ c ∈ name, Text.isIdentChar c = true)
    (hblank : blanks.all Text.isBlank = true) :
    (name ++ blanks).takeWhile (fun c => !Text.isBlank c) = name := by
  rw [List.takeWhile_append_of_pos fun c hc => by rw [isBlank_of_isIdentChar (h c hc)]; rfl]
  cases blanks with
  | nil => rw [List.takeWhile_nil, List.append_nil]
  | cons b blanks =>
    have hb : Text.isBlank b = true := List.all_eq_true.1 hblank b List.mem_cons_self
    rw [List.takeWhile_cons_of_neg (by simp [hb]), List.append_nil]

/-- At a call the search for a name succeeds if the call has this name. -/
theorem open?_callText {name other gap : Text} (hname : ∀ c ∈ name, Text.isIdentChar c = true)
    (hother : ∀ c ∈ other, Text.isIdentChar c = true) (hgap : gap.all Text.isBlank = true)
    (inside : Text) : open? name (callText (other ++ gap) inside) =
      if other = name then some inside else none := by
  by_cases h : other = name
  · have hafter : Text.after? ('.' :: name) (callText (other ++ gap) inside) =
        some (gap ++ CodePoint.char '(' :: inside) := by
      rw [Text.after?_eq_some_iff, callText, h, List.cons_append, List.append_assoc]
    rw [if_pos h, open?, hafter]
    exact skipTo?_blanks rfl hgap inside
  · rw [if_neg h]
    cases hopen : open? name (callText (other ++ gap) inside) with
    | none => rfl
    | some inside' =>
      obtain ⟨blanks, htext, hblank⟩ := open?_eq_some hopen
      obtain ⟨hfront, -⟩ :=
        callText_inj (unmarked_of_name hother hgap) (unmarked_of_name hname hblank) htext
      have hnames := congrArg (List.takeWhile fun c => !Text.isBlank c) hfront
      rw [takeWhile_name hother hgap, takeWhile_name hname hblank] at hnames
      exact absurd hnames h

/-- The search passes over a call of another name. -/
theorem open?_callText_of_ne {name other : Text} (hname : ∀ c ∈ name, Text.isIdentChar c = true)
    (hother : ∀ c ∈ other, Text.isIdentChar c = true) (hne : other ≠ name) (inside : Text) :
    open? name (callText other inside) = none := by
  have hgap : List.all [] Text.isBlank = true := rfl
  have hopen := open?_callText hname hother hgap inside
  rwa [List.append_nil, if_neg hne] at hopen

/-- In front of a point the opening of a call ends, or it is none. -/
theorem open?_append_point {name part : Text} (hname : ∀ c ∈ name, Text.isIdentChar c = true)
    (hne : part ≠ []) (rest : Text) :
    open? name (part ++ CodePoint.char '.' :: rest) =
      (open? name part).map (· ++ CodePoint.char '.' :: rest) := by
  have hopens {blanks : Text} (hblank : blanks.all Text.isBlank = true) (inside : Text) :
      open? name (callText (name ++ blanks) inside) = some inside :=
    (open?_callText hname hname hblank inside).trans (if_pos rfl)
  cases hpart : open? name part with
  | some inside =>
    obtain ⟨blanks, rfl, hblank⟩ := open?_eq_some hpart
    rw [← callText_append, hopens hblank]
    rfl
  | none =>
    cases hfound : open? name (part ++ CodePoint.char '.' :: rest) with
    | none => rfl
    | some inside =>
      obtain ⟨blanks, htext, hblank⟩ := open?_eq_some hfound
      have hpoint : CodePoint.char '.' ∉ name ++ blanks := by
        rw [List.mem_append, not_or]
        exact ⟨fun hmem => absurd (hname _ hmem) (by decide),
          fun hmem => absurd (List.all_eq_true.1 hblank _ hmem) (by decide)⟩
      obtain ⟨more, rfl, -⟩ := exists_callText_of_append_point hne hpoint htext
      rw [hopens hblank] at hpart
      cases hpart

/-- The part of a text without quotes ends at the first quote. -/
theorem span_unquoted {content : Text} (hcontent : ∀ c ∈ content, c ∉ literalQuotes)
    {quote : CodePoint} (hquote : quote ∈ literalQuotes) (rest : Text) :
    (content ++ quote :: rest).takeWhile (· ∉ literalQuotes) = content ∧
      (content ++ quote :: rest).dropWhile (· ∉ literalQuotes) = quote :: rest := by
  have hkept : ∀ c ∈ content, decide (c ∉ literalQuotes) = true := fun c hc =>
    decide_eq_true (hcontent c hc)
  constructor
  · rw [List.takeWhile_append_of_pos hkept, List.takeWhile_cons_of_neg (by simp [hquote]),
      List.append_nil]
  · rw [List.dropWhile_append_of_pos hkept, List.dropWhile_cons_of_neg (by simp [hquote])]

end Call

/-! ## The opening of an ordering -/

namespace Query

/-- The text behind the opening parenthesis of a call `.orderBy`, its name in any case. -/
def orderingOpening? (text : Text) : Option Text :=
  (word? ".orderby" text).bind fun found => Call.skipTo? '(' found.2

/-- What stands behind the opening parenthesis of an ordering. -/
def orderingIn? (text : Text) : Option OrderBy := do
  let (field, rest) ← Call.literal? text
  let (direction, rest) := directionArgument rest
  let _ ← Call.skipTo? ')' rest
  return ⟨field, Text.lower (direction.getD "asc")⟩

theorem orderingCall?_eq (text : Text) :
    orderingCall? text = (orderingOpening? text).bind orderingIn? := by
  unfold orderingCall? orderingOpening?
  cases word? ".orderby" text <;> rfl

theorem word?_eq_some {word text found rest : Text} (h : word? word text = some (found, rest)) :
    text = found ++ rest ∧ List.Forall₂ (fun letter c => isLetter letter c = true) word found := by
  induction word generalizing text found with
  | nil =>
    cases h
    exact ⟨rfl, .nil⟩
  | cons letter word ih =>
    cases text with
    | nil => cases h
    | cons c text =>
      unfold word? at h
      split at h
      · rename_i hc
        obtain ⟨⟨found', rest'⟩, hword, heq⟩ := Option.map_eq_some_iff.1 h
        cases heq
        obtain ⟨htext, hletters⟩ := ih hword
        exact ⟨by rw [htext, List.cons_append], .cons hc hletters⟩
      · cases h

theorem unmarked_of_letters {word found : Text}
    (h : List.Forall₂ (fun letter c => isLetter letter c = true) word found)
    (hword : ∀ letter ∈ word, ∀ m ∈ marks, isLetter letter m = false) : Unmarked found := by
  induction h with
  | nil => exact fun c hc => absurd hc List.not_mem_nil
  | @cons letter c word found hc _ ih =>
    intro d hd hmark
    rcases List.mem_cons.1 hd with rfl | hd
    · rw [hword letter List.mem_cons_self d hmark] at hc
      cases hc
    · exact ih (fun l hl => hword l (List.mem_cons_of_mem _ hl)) d hd hmark

/-- What a letter of a word becomes in lower case, however it is written: the letter in the word, but a
long s stays one. -/
def IsLowered (letter c : CodePoint) : Prop := c = letter ∨ letter = 's' ∧ c = 'ſ'

theorem lowerAt_of_isLetter {letter c : CodePoint} (hc : isLetter letter c = true)
    (hascii : Text.isAscii letter = true) (before rest : Text) :
    ∃ d, IsLowered letter d ∧ Text.lowerAt before c rest = [d] := by
  simp only [isLetter, Bool.or_eq_true, Bool.and_eq_true, decide_eq_true_eq] at hc
  rcases hc with hlower | ⟨hletter, rfl⟩
  · have hc : Text.isAscii c = true := by
      rcases toLower_eq c with heq | ⟨-, hle, -⟩
      · rw [← heq, hlower]
        exact hascii
      · exact decide_eq_true (by omega)
    refine ⟨letter, .inl rfl, ?_⟩
    rw [Text.lowerAt_of_isAscii hc, hlower]
  · have hchar : Text.lowerChar 'ſ' = 'ſ' := by decide
    refine ⟨'ſ', .inr ⟨hletter, rfl⟩, ?_⟩
    unfold Text.lowerAt
    rw [if_neg (by decide), if_neg (by decide), hchar]

/-- A word that is written in any case is put in lower case letter by letter. -/
theorem lowerAfter_of_letters {word found : Text}
    (h : List.Forall₂ (fun letter c => isLetter letter c = true) word found)
    (hword : ∀ letter ∈ word, Text.isAscii letter = true) (before : Text) :
    List.Forall₂ IsLowered word (Text.lowerAfter before found) := by
  induction h generalizing before with
  | nil => exact .nil
  | @cons letter c word found hc _ ih =>
    obtain ⟨d, hd, hlower⟩ :=
      lowerAt_of_isLetter hc (hword letter List.mem_cons_self) before found
    rw [Text.lowerAfter, hlower]
    exact .cons hd (ih (fun l hl => hword l (List.mem_cons_of_mem letter hl)) (c :: before))

/-- A second argument with a direction is a direction that is read. -/
theorem exists_direction?_of_directionArgument {text direction : Text}
    (h : (directionArgument text).1 = some direction) :
    ∃ behind rest, direction? behind = some (direction, rest) := by
  unfold directionArgument at h
  cases hcomma : Call.skipTo? ',' text with
  | none =>
    rw [hcomma] at h
    cases h
  | some behind =>
    cases hfound : direction? (skipQuote (Text.trimStart behind)) with
    | none =>
      simp only [hcomma, Option.bind_eq_bind, Option.bind_some, hfound, Option.bind_none] at h
      cases h
    | some found =>
      simp only [hcomma, Option.bind_eq_bind, Option.bind_some, hfound] at h
      cases h
      exact ⟨_, found.2, hfound⟩

theorem eq_point_of_isLetter {c : CodePoint} (h : isLetter '.' c = true) : c = '.' := by
  have hlower : c.toLower = '.' := by
    simpa [isLetter] using h
  rcases toLower_eq c with hc | ⟨hlo, -, hc⟩
  · rw [← hc, hlower]
  · rw [hlower] at hc
    have hpoint : (CodePoint.char '.').toNat = 0x2E := rfl
    omega

theorem opensCalls_orderingOpening? : OpensCalls orderingOpening? := by
  intro text inside h
  obtain ⟨⟨found, rest⟩, hword, hskip⟩ := Option.bind_eq_some_iff.1 h
  obtain ⟨blanks, rfl, hblank⟩ := Call.skipTo?_eq_some hskip
  obtain ⟨rfl, hletters⟩ := word?_eq_some hword
  cases hletters with
  | @cons _ c _ found hc hletters =>
    refine ⟨found ++ blanks, ?_, ?_⟩
    · rw [eq_point_of_isLetter hc, callText, List.cons_append, List.append_assoc]
    · exact (unmarked_of_letters hletters (by decide)).append (unmarked_of_blanks hblank)

/-- At a call of the usual name the search for an ordering succeeds. -/
theorem orderingOpening?_callText {gap : Text} (hgap : gap.all Text.isBlank = true) (inside : Text) :
    orderingOpening? (callText ("orderBy" ++ gap) inside) = some inside := by
  have hword : word? ".orderby" (callText ("orderBy" ++ gap) inside) =
      some ((".orderBy" : Text), gap ++ CodePoint.char '(' :: inside) := rfl
  unfold orderingOpening?
  rw [hword]
  exact Call.skipTo?_blanks rfl hgap inside

end Query

end FluentQuery
