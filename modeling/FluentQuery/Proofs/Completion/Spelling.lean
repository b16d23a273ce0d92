/-
  Texts that are spelled in others. The search settles on the first place of every character behind that of
  the character before (`isSpelledIn_cons_iff`), and still finds a text wherever increasing places spell it
  (`isSpelledIn_iff`). Of the ways to fit each one includes the next, from an exact match to a spelling, and
  what is typed in two or more characters has a positive score wherever it is spelled:
  `spelling_found_and_scored`.
-/
import FluentQuery.Proofs.Completion.TextScore
import FluentQuery.Proofs.Numeric.Products

namespace FluentQuery.Score

/-! ## Places that spell a text -/

/-- Places in a text, each behind the one before, whose characters are those of `needle`. -/
structure IsSpelling (needle text : Text) (places : List (Fin text.length)) : Prop where
  increasing : places.Pairwise (· < ·)
  spells : places.map (text[·]) = needle

/-- A text is found exactly if increasing places spell it. -/
theorem isSpelledIn_iff {needle text : Text} :
    isSpelledIn needle text = true ↔ ∃ places, IsSpelling needle text places := by
  rw [isSpelledIn_iff_sublist]
  constructor
  · intro h
    obtain ⟨places, hspells, hincreasing⟩ := List.sublist_eq_map_getElem h
    exact ⟨places, hincreasing, hspells.symm⟩
  · rintro ⟨places, hincreasing, rfl⟩
    exact List.map_getElem_sublist hincreasing

/-- Nothing is missed at the first place of a character: what is spelled behind a later one is spelled behind
the first. -/
theorem isSpelledIn_cons_iff {c : CodePoint} {needle text : Text} :
    isSpelledIn (c :: needle) text = true ↔
      ∃ front rest, text = front ++ c :: rest ∧ c ∉ front ∧ isSpelledIn needle rest = true := by
  simp only [isSpelledIn_iff_sublist]
  constructor
  · intro h
    obtain ⟨upTo, behind, rfl, hmem, hneedle⟩ := List.cons_sublist_iff.1 h
    obtain ⟨front, between, rfl, hfront⟩ := List.eq_append_cons_of_mem hmem
    refine ⟨front, between ++ behind, by simp, hfront, ?_⟩
    exact hneedle.trans (List.sublist_append_right between behind)
  · rintro ⟨front, rest, rfl, -, hneedle⟩
    exact (hneedle.cons_cons c).trans (List.sublist_append_right front (c :: rest))

/-! ## Scores at full weight -/

/-- The weight of a text that counts in full. -/
def fullWeight : Number := .float Binary64.one

theorem points_le (t text : Text) : points t text ≤ 360 := by
  unfold points plainPoints normalizedPoints
  dsimp only
  split_ifs <;> omega

/-- At full weight the score is the number of points. -/
theorem exists_weighted_fullWeight (t text : Text) :
    ∃ score, weighted t (some text) fullWeight = .ok score ∧ score.same (.int (points t text)) = true := by
  by_cases hempty : text = []
  · subst hempty
    exact ⟨.int 0, rfl, rfl⟩
  · have hbits : (points t text : Int).natAbs < 2 ^ 53 :=
      Nat.lt_of_le_of_lt (points_le t text) (by decide)
    obtain ⟨x, hx, hvalue⟩ := Binary64.exists_ofInt_of_lt hbits
    refine ⟨.float x, ?_, hvalue⟩
    unfold weighted fullWeight pointsOf
    rw [Option.getD_some, if_neg hempty]
    dsimp only
    rw [hx]
    show Except.ok (Number.float (x.mul Binary64.one)) = _
    rw [Binary64.mul_one]

/-- A typed text of two or more characters has points in every text that it is spelled in. -/
theorem points_pos_of_isSpelledIn {t text : Text} (hlength : 2 ≤ (Text.lower t).length)
    (h : isSpelledIn (Text.lower t) (Text.lower text) = true) : 0 < points t text := by
  have hsublist := isSpelledIn_iff_sublist.1 h
  refine points_pos_iff.2 ⟨?_, .inr (.inl ⟨hlength, hsublist⟩)⟩
  rintro rfl
  have hle := hsublist.length_le
  have hnil : (Text.lower []).length = 0 := rfl
  omega

/-- The search finds exactly what increasing places spell, though it takes the first place of a character. In
lower case an exact match is a beginning, a beginning is a part and a part is spelled, and what is typed in
two or more characters has a positive score in every text that spells it. -/
theorem spelling_found_and_scored :
    (∀ needle text : Text,
      isSpelledIn needle text = true ↔ ∃ places, IsSpelling needle text places) ∧
    (∀ (c : CodePoint) (needle text : Text), isSpelledIn (c :: needle) text = true ↔
      ∃ front rest, text = front ++ c :: rest ∧ c ∉ front ∧ isSpelledIn needle rest = true) ∧
    ∀ t text : Text,
      let typed := Text.lower t
      let offered := Text.lower text
      (offered = typed → typed.isPrefixOf offered = true) ∧
      (typed.isPrefixOf offered = true → Text.occursIn typed offered = true) ∧
      (Text.occursIn typed offered = true → isSpelledIn typed offered = true) ∧
      (2 ≤ typed.length → (∃ places, IsSpelling typed offered places) →
        0 < points t text ∧ ∃ score,
          weighted t (some text) fullWeight = .ok score ∧ score.same (.int (points t text)) = true) := by
  refine ⟨fun _ _ => isSpelledIn_iff, fun _ _ _ => isSpelledIn_cons_iff, fun t text => ?_⟩
  intro typed offered
  rw [List.isPrefixOf_iff_prefix, Text.occursIn_eq_true_iff, isSpelledIn_iff_sublist]
  refine ⟨fun hexact => hexact ▸ List.prefix_rfl, List.IsPrefix.isInfix, List.IsInfix.sublist, ?_⟩
  intro hlength hspelling
  exact ⟨points_pos_of_isSpelledIn hlength (isSpelledIn_iff.2 hspelling),
    exists_weighted_fullWeight t text⟩

/-- A dotted capital is two characters in lower case, and they need not stand side by side. -/
theorem spelling_found_and_scored_dotted_capital :
    let t : Text := "İ"
    let text : Text := "I-\u0307x"
    t.length = 1 ∧ 2 ≤ (Text.lower t).length ∧
      IsSpelling (Text.lower t) (Text.lower text) [⟨0, by decide⟩, ⟨2, by decide⟩] ∧
      isSpelledIn (Text.lower t) (Text.lower text) = true ∧ points t text = 30 ∧
      ∃ score, weighted t (some text) fullWeight = .ok score ∧ score.same (.int 30) = true := by
  intro t text
  obtain ⟨hfound, -, hscored⟩ := spelling_found_and_scored
  have hlength : 2 ≤ (Text.lower t).length := by decide
  have hspelling : IsSpelling (Text.lower t) (Text.lower text) [⟨0, by decide⟩, ⟨2, by decide⟩] :=
    ⟨by decide, by decide⟩
  have hpoints : points t text = 30 := by decide
  have hscore := ((hscored t text).2.2.2 hlength ⟨_, hspelling⟩).2
  rw [hpoints] at hscore
  exact ⟨rfl, hlength, hspelling, (hfound _ _).2 ⟨_, hspelling⟩, hpoints, hscore⟩

end FluentQuery.Score
