/-
  The scans that look for literals. The one that looks back for backslashes at every quote finds what one pass
  finds that remembers the open literal and whether the next character is escaped
  (`openLiteralLookingBack_append`). And the scan for the arguments of a call is in a literal exactly where that
  pass over the text of the call is in one (`quote_nestingAt`). `literal_scans_agree`: so neither a cut between
  arguments nor the parenthesis that closes the call stands in what the other scan takes for a literal.
-/
import FluentQuery.Proofs.Expression.Extent

namespace FluentQuery

variable {quotes : List CodePoint}

/-! ## Looking back and remembering -/

/-- Behind a text, looking back from each quote finds what a pass finds that remembers the backslashes. -/
theorem openLiteralLookingBack_append (front rest : Text) (opened : Option OpenLiteral) :
    openLiteralLookingBack quotes (front ++ rest) front.length opened rest =
      (LiteralState.run quotes front.length ⟨opened, escapedBehind false front⟩ rest).opened := by
  induction rest generalizing front opened with
  | nil => rfl
  | cons c rest ih =>
    have hnext := ih (front ++ [c]) (if c ∈ quotes && !escapedBehind false front then
      LiteralState.toggle opened c front.length else opened)
    rw [List.append_assoc, List.singleton_append, List.length_append, List.length_singleton,
      escapedBehind_append, escapedBehind_cons] at hnext
    rw [openLiteralLookingBack, escapedAt_append, hnext]
    rfl

theorem openLiteralLookingBack_eq (quotes : List CodePoint) (text : Text) :
    openLiteralLookingBack quotes text 0 none text = openLiteral quotes text :=
  openLiteralLookingBack_append [] text none

/-! ## Literals among arguments -/

/-- What a character does to the literal that a scan for arguments is in, it does to the open literal. -/
theorem Nesting.quote_step {n : Nesting} {opened : Option OpenLiteral}
    (hquote : n.quote = opened.map OpenLiteral.quote)
    (hmem : ∀ literal, opened = some literal → literal.quote ∈ quotes) (escaped : Bool) (c : CodePoint)
    (position : Nat) :
    (n.step quotes escaped c).quote =
      (if c ∈ quotes && !escaped then LiteralState.toggle opened c position else opened).map
        OpenLiteral.quote := by
  unfold step
  cases opened with
  | none =>
    rw [Option.map_none] at hquote
    rw [hquote]
    dsimp only
    split
    · rfl
    · split
      · rfl
      · split
        · rfl
        · exact hquote
  | some literal =>
    rw [Option.map_some] at hquote
    rw [hquote]
    dsimp only
    by_cases hclose : c = literal.quote ∧ escaped = false
    · obtain ⟨rfl, rfl⟩ := hclose
      simp [hmem literal rfl, LiteralState.toggle]
    · have hstays : (if c ∈ quotes && !escaped then LiteralState.toggle (some literal) c position
          else some literal) = some literal := by
        split
        · rename_i hcounts
          rw [Bool.and_eq_true, Bool.not_eq_true'] at hcounts
          exact if_neg fun heq => hclose ⟨heq.symm, hcounts.2⟩
        · rfl
      rw [hstays, if_neg (by simpa using hclose), hquote, Option.map_some]

/-- Whether a position behind the start of a call is escaped is decided by the text of the call, unless the
start is. -/
theorem escapedAt_eq_escapedBehind_drop {text : Text} {start position : Nat}
    (hstart : escapedAt text start = false) (hle : start ≤ position) :
    escapedAt text position = escapedBehind false ((text.take position).drop start) := by
  have hsplit := List.take_append_drop start (text.take position)
  rw [List.take_take, Nat.min_eq_left hle] at hsplit
  rw [escapedAt_eq] at hstart ⊢
  rw [← hsplit, escapedBehind_append, hstart, hsplit]

/-- The scan for arguments is in the literal that is open in the text of the call so far. -/
theorem quote_nestingAt {text : Text} {start position : Nat} (hstart : escapedAt text start = false)
    (hle : start ≤ position) (hlength : position ≤ text.length) :
    (nestingAt quotes text start position).quote =
      (openLiteral quotes ((text.take position).drop start)).map OpenLiteral.quote := by
  induction position, hle using Nat.le_induction with
  | base =>
    rw [nestingAt_of_le (Nat.le_refl start), List.drop_take_self]
    rfl
  | succ position hle ih =>
    have hc := List.getElem?_eq_getElem hlength
    have hslice : (text.take (position + 1)).drop start =
        (text.take position).drop start ++ [text[position]] := by
      have hstartle : start ≤ (text.take position).length := by
        rw [List.length_take]
        omega
      rw [List.take_add_one, hc, Option.toList_some, List.drop_append_of_le_length hstartle]
    rw [nestingAt_succ hle hc, hslice, openLiteral_concat, escapedAt_eq_escapedBehind_drop hstart hle]
    exact Nesting.quote_step (ih (Nat.le_of_succ_le hlength))
      (fun literal hliteral => (openLiteral_eq_some_iff.1 hliteral).quote_mem) _ _ _

/-- What stands outside all literals and brackets of a call stands in no literal of its text. -/
theorem openLiteral_eq_none_of_standsOutside {text : Text} {start position : Nat} {c : CodePoint}
    (hbackslash : start = 0 ∨ text[start - 1]? ≠ some Text.backslash) (hle : start ≤ position)
    (h : standsOutside quotes text start c position = true) :
    openLiteral quotes ((text.take position).drop start) = none := by
  unfold standsOutside Nesting.isOutside at h
  simp only [Bool.and_eq_true, decide_eq_true_eq] at h
  obtain ⟨hc, houtside, -⟩ := h
  obtain ⟨hlt, -⟩ := List.getElem?_eq_some_iff.1 hc
  have hstart : escapedAt text start = false := escapedAt_eq_false (by omega) hbackslash
  have hquote := @quote_nestingAt quotes text start position hstart hle (Nat.le_of_lt hlt)
  rw [houtside] at hquote
  exact Option.map_eq_none_iff.1 hquote.symm

/-- The arguments of a call are cut at commas outside its literals and brackets. -/
theorem standsOutside_of_mem_cutPlaces {text : Text} {start position : Nat}
    (h : position ∈ cutPlaces start (piecesFrom quotes text start).toList) :
    start ≤ position ∧ standsOutside quotes text start ',' position = true := by
  rw [(isPartition_piecesFrom quotes text start).cuts] at h
  obtain ⟨hrange, hcomma⟩ := List.mem_filter.1 h
  exact ⟨(List.mem_range'_1.1 hrange).1, hcomma⟩

/-- A call is closed outside its literals and brackets. -/
theorem standsOutside_of_closedAt {text : Text} {start position : Nat}
    (h : (argumentsFrom quotes text start).closedAt = some position) :
    start ≤ position ∧ standsOutside quotes text start ')' position = true :=
  ⟨(closedAt_bounds h).1,
    List.find?_some ((isPartition_piecesFrom quotes text start).closing.symm.trans h)⟩

/-- Looking back for backslashes at every quote finds the literal that one pass finds, and behind a text the
pass goes on from its state there. And where no backslash stands right before the text of a call, its arguments
are cut, and it is closed, where no literal is open in that text. -/
theorem literal_scans_agree (quotes : List CodePoint) :
    (∀ text, openLiteralLookingBack quotes text 0 none text = openLiteral quotes text) ∧
      (∀ a b, openLiteralLookingBack quotes (a ++ b) 0 none (a ++ b) =
        (LiteralState.run quotes a.length (LiteralState.run quotes 0 .initial a) b).opened) ∧
      ∀ text start, (start = 0 ∨ text[start - 1]? ≠ some Text.backslash) → ∀ position,
        (position ∈ cutPlaces start (piecesFrom quotes text start).toList ∨
          (argumentsFrom quotes text start).closedAt = some position) →
          openLiteral quotes ((text.take position).drop start) = none := by
  refine ⟨openLiteralLookingBack_eq quotes, ?_, ?_⟩
  · intro a b
    rw [openLiteralLookingBack_eq, openLiteral, LiteralState.run_append, Nat.zero_add]
  · intro text start hbackslash position hfound
    rcases hfound with hcut | hclosed
    · obtain ⟨hle, hstands⟩ := standsOutside_of_mem_cutPlaces hcut
      exact openLiteral_eq_none_of_standsOutside hbackslash hle hstands
    · obtain ⟨hle, hstands⟩ := standsOutside_of_closedAt hclosed
      exact openLiteral_eq_none_of_standsOutside hbackslash hle hstands

/-- Behind an escaped quote the literal goes on, also past a comma and a parenthesis, and the pass goes on in
it from half of the text. The cut and the end of the call come behind the literal. -/
theorem literal_scans_agree_escaped_quote :
    let text : Text := ("f('a\\', (b', 1) + 'c" : String)
    text[2 - 1]? ≠ some Text.backslash ∧
      openLiteralLookingBack literalQuotes (text.take 6) 0 none (text.take 6) = some ⟨Text.singleQuote, 2⟩ ∧
      openLiteralLookingBack literalQuotes text 0 none text =
        (LiteralState.run literalQuotes 6 (LiteralState.run literalQuotes 0 .initial (text.take 6))
          (text.drop 6)).opened ∧
      openLiteralLookingBack literalQuotes text 0 none text = some ⟨Text.singleQuote, 18⟩ ∧
      11 ∈ cutPlaces 2 (piecesFrom literalQuotes text 2).toList ∧
      openLiteral literalQuotes ((text.take 11).drop 2) = none ∧
      (argumentsFrom literalQuotes text 2).closedAt = some 14 ∧
      openLiteral literalQuotes ((text.take 14).drop 2) = none := by
  intro text
  have hbackslash : text[2 - 1]? ≠ some Text.backslash := by decide
  have hcut : 11 ∈ cutPlaces 2 (piecesFrom literalQuotes text 2).toList := by decide
  have hclosed : (argumentsFrom literalQuotes text 2).closedAt = some 14 := by decide
  obtain ⟨hback, hcontinued, hagree⟩ := literal_scans_agree literalQuotes
  have hopen : openLiteral literalQuotes (text.take 6) = some ⟨Text.singleQuote, 2⟩ := by decide
  have hopen' : openLiteral literalQuotes text = some ⟨Text.singleQuote, 18⟩ := by decide
  exact ⟨hbackslash, (hback _).trans hopen, hcontinued (text.take 6) (text.drop 6),
    (hback text).trans hopen', hcut, hagree text 2 (.inr hbackslash) 11 (.inl hcut), hclosed,
    hagree text 2 (.inr hbackslash) 14 (.inr hclosed)⟩

end FluentQuery
