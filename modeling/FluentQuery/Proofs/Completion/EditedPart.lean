/-
  What part of the text an edit replaces, and where it leaves the cursor. In a literal that is closed behind
  the cursor it is the content of that literal (`applyHere_of_literal`); anywhere else it is as many
  characters before the cursor as the token has, and these are the token where no blank stands before the
  cursor. `applyHere_replaces` says so for every text, cursor and completion.
-/
import FluentQuery.Proofs.Completion.EditedLines

namespace FluentQuery.Edit

/-- Where the first unescaped quote of a kind stands at or after the cursor. -/
structure IsNextQuote (quote : CodePoint) (text : Text) (cursor position : Nat) : Prop where
  le : cursor ≤ position
  unescaped : UnescapedAt quote false text position
  first : ∀ other, cursor ≤ other → UnescapedAt quote false text other → position ≤ other

/-- Whether the token before the cursor starts with a quote, and an unescaped quote of its kind stands at or
after the cursor. -/
def IsEnclosed (text : Text) (cursor : Nat) : Prop :=
  ∃ quote ∈ stringQuotes, (Cursor.trigger text cursor).head? = some quote ∧
    ∃ position, cursor ≤ position ∧ UnescapedAt quote false text position

/-- The position where the line of the cursor starts. -/
def lineStart (text : Text) (cursor : Nat) : Nat :=
  (Text.throughLast '\n' (text.take cursor)).length

/-- How an edit fills the literal around the cursor: from behind the quote that is open on the line of the
cursor up to the next quote of its kind, with the text of the completion without its quotes, and the cursor
behind that. -/
structure FillsLiteral (text : Text) (cursor : Nat) (c : Completion) (start stop : Nat) (inserted : Text)
    (newCursor : Int) : Prop where
  bounds : ∃ literal, openLiteral stringQuotes (Cursor.lineBefore text cursor) = some literal ∧
    (Cursor.trigger text cursor).head? = some literal.quote ∧
    start = lineStart text cursor + literal.start + 1 ∧ IsNextQuote literal.quote text cursor stop
  inserted_eq : inserted = withoutQuotes stringQuotes c.insertedText
  newCursor_eq : newCursor = start + inserted.length

/-- How an edit puts the text of the completion in place of as many characters before the cursor as the
token has. They are the token unless a blank stands before the cursor. -/
structure ReplacesToken (text : Text) (cursor : Nat) (c : Completion) (start stop : Nat)
    (inserted : Text) : Prop where
  inserted_eq : inserted = c.insertedText
  stop_eq : stop = cursor
  start_add_length : start + (Cursor.trigger text cursor).length = cursor
  removed_eq : Text.endsInBlank (text.take cursor) = false →
    (text.take stop).drop start = Cursor.trigger text cursor

section

variable {earlier later : Text}

/-- A quote at or after the cursor is looked for behind the text before the cursor. -/
theorem isNextQuote_of_firstUnescaped {quote : CodePoint} {closing : Nat}
    (h : firstUnescaped quote (escapedBehind false earlier) later = some closing) :
    IsNextQuote quote (earlier ++ later) earlier.length (earlier.length + closing) := by
  obtain ⟨hat, hfirst⟩ := unescapedAt_of_firstUnescaped h
  refine ⟨Nat.le_add_right _ _, UnescapedAt.append_iff.2 (.inr ⟨closing, rfl, hat⟩), ?_⟩
  intro other hle hother
  obtain ⟨behind, rfl, hbehind⟩ := hother.behind hle
  exact Nat.add_le_add_left (hfirst behind hbehind) _

theorem isEnclosed_iff : IsEnclosed (earlier ++ later) earlier.length ↔
    ∃ closing, closing? earlier later = some closing := by
  unfold closing?
  rw [escapedAt_append]
  constructor
  · rintro ⟨quote, hmem, hhead, position, hle, hat⟩
    have hquote := quoteOf?_eq_some_iff.2 ⟨hmem, hhead⟩
    obtain ⟨behind, rfl, hbehind⟩ := hat.behind hle
    obtain ⟨closing, hclosing⟩ := exists_firstUnescaped hbehind
    exact ⟨closing, by rw [hquote, Option.bind_some, hclosing]⟩
  · rintro ⟨closing, h⟩
    obtain ⟨quote, hquote, hclosing⟩ := Option.bind_eq_some_iff.1 h
    obtain ⟨hmem, hhead⟩ := quoteOf?_eq_some_iff.1 hquote
    have hnext := isNextQuote_of_firstUnescaped hclosing
    exact ⟨quote, hmem, hhead, _, hnext.le, hnext.unescaped⟩

theorem lineStart_append : lineStart (earlier ++ later) earlier.length =
    (Text.throughLast '\n' earlier).length := by
  unfold lineStart
  rw [List.take_left]

theorem fillsLiteral_applyHere {literal : OpenLiteral} {closing : Nat}
    (hopen : openLiteral stringQuotes (Text.lastLine earlier) = some literal)
    (hclosing : firstUnescaped literal.quote (escapedBehind false earlier) later = some closing)
    (c : Completion) :
    FillsLiteral (earlier ++ later) earlier.length c
      ((Text.throughLast '\n' earlier).length + literal.start + 1) (earlier.length + closing)
      (withoutQuotes stringQuotes c.insertedText)
      (applyHere (earlier ++ later) earlier.length c).cursor := by
  have hquote := quoteOf?_trigger earlier later
  rw [hopen, Option.map_some] at hquote
  refine ⟨⟨literal, ?_, (quoteOf?_eq_some_iff.1 hquote).2, ?_,
    isNextQuote_of_firstUnescaped hclosing⟩, rfl, ?_⟩
  · rw [Cursor.openLiteral_lineBefore, hopen]
  · rw [lineStart_append]
  · rw [applyHere_of_literal hopen hclosing c]
    exact Int.natCast_add _ _

theorem replacesToken_applyHere (earlier later : Text) (c : Completion) :
    ReplacesToken (earlier ++ later) earlier.length c
      (earlier.length - (Cursor.trigger (earlier ++ later) earlier.length).length) earlier.length
      c.insertedText := by
  have hle := Cursor.length_trigger_le earlier later
  refine ⟨rfl, rfl, Nat.sub_add_cancel hle, ?_⟩
  rw [List.take_left]
  intro hblank
  have hsuffix := Cursor.trigger_suffix_of_endsInBlank_eq_false later hblank
  exact (List.suffix_iff_eq_drop.1 hsuffix).symm

/-- A splice leaves the cursor in the text. -/
theorem cursor_splice_bounds {trigger : Text} (later inserted : Text) (offset : Int)
    (h : trigger.length ≤ earlier.length) :
    let edited := splice (earlier ++ later) earlier.length inserted offset trigger
    0 ≤ edited.cursor ∧ edited.cursor ≤ edited.text.length := by
  unfold splice
  rw [if_neg (by simp only [List.length_append]; omega)]
  dsimp only
  omega

end

/-- An edit replaces one part of the text, around which everything stays, and leaves the cursor in the text.
If the token before the cursor starts with a quote and another one of its kind stands behind the cursor, the
part is the content of the literal, from behind its opening quote up to its closing quote. Otherwise it ends
at the cursor and is as long as the token; it is the token unless a blank stands before the cursor. -/
theorem applyHere_replaces (text : Text) {cursor : Nat} (hcursor : cursor ≤ text.length)
    (c : Completion) :
    let edited := applyHere text cursor c
    0 ≤ edited.cursor ∧ edited.cursor ≤ edited.text.length ∧
      ∃ start stop inserted, start ≤ cursor ∧ cursor ≤ stop ∧
        edited.text = text.take start ++ inserted ++ text.drop stop ∧
        (IsEnclosed text cursor →
          FillsLiteral text cursor c start stop inserted edited.cursor) ∧
        (¬IsEnclosed text cursor → ReplacesToken text cursor c start stop inserted) := by
  intro edited
  obtain ⟨earlier, later, rfl, rfl⟩ :
      ∃ earlier later, text = earlier ++ later ∧ cursor = earlier.length :=
    ⟨text.take cursor, text.drop cursor, (List.take_append_drop _ _).symm,
      (List.length_take_of_le hcursor).symm⟩
  cases hclosing : closing? earlier later with
  | some closing =>
    obtain ⟨literal, hopen, hfirst⟩ := exists_literal_of_closing? hclosing
    have hfills := fillsLiteral_applyHere hopen hfirst c
    have hlt := (unescapedAt_of_lastUnescaped (Cursor.lastUnescaped_of_line hopen)).lt_length
    have hedited : edited = _ := applyHere_of_literal hopen hfirst c
    have henclosed := isEnclosed_iff.2 ⟨closing, hclosing⟩
    have hstart : (earlier ++ later).take ((Text.throughLast '\n' earlier).length + literal.start + 1) =
        earlier.take _ := List.take_append_of_le_length hlt
    refine ⟨?_, ?_, _, _, _, hlt, Nat.le_add_right _ closing, ?_, fun _ => hfills,
      fun hnot => absurd henclosed hnot⟩
    · rw [hedited]
      exact Int.natCast_nonneg _
    · rw [hedited]
      simp only [List.length_append, List.length_take, Nat.cast_le]
      omega
    · rw [hedited, hstart, List.drop_length_add_append]
  | none =>
    have hle := Cursor.length_trigger_le earlier later
    have hedited : edited = _ := applyHere_of_splices (splices_of_closing?_eq_none hclosing _)
    have hnot : ¬IsEnclosed (earlier ++ later) earlier.length := by
      rw [isEnclosed_iff, hclosing]
      simp
    obtain ⟨hnonneg, hbound⟩ := cursor_splice_bounds later c.insertedText c.cursorOffset hle
    refine ⟨hedited ▸ hnonneg, hedited ▸ hbound, _, _, _, Nat.sub_le _ _, Nat.le_refl _, ?_,
      fun henclosed => absurd henclosed hnot, fun _ => replacesToken_applyHere earlier later c⟩
    rw [hedited, text_splice _ _ _ hle, List.drop_left,
      List.take_append_of_le_length (Nat.sub_le _ _)]

/-- The quote behind the backslash does not close the literal, also where the cursor stands between the two,
so all of the literal is replaced. -/
theorem applyHere_replaces_escaped_quote :
    let text : Text := ("a\nx('it\\'s').y" : String)
    let c : Completion := { trigger := ("'orders" : String), suggestion := ("'" : String) }
    8 ≤ text.length ∧ IsEnclosed text 8 ∧
      applyHere text 8 c = ⟨("a\nx('orders').y" : String), 11⟩ ∧
      ∃ start stop inserted, start ≤ 8 ∧ 8 ≤ stop ∧
        (applyHere text 8 c).text = text.take start ++ inserted ++ text.drop stop ∧
        FillsLiteral text 8 c start stop inserted 11 := by
  intro text c
  have hcursor : 8 ≤ text.length := by decide
  have hat : UnescapedAt Text.singleQuote false text 10 :=
    ⟨("a\nx('it\\'s" : String), (").y" : String), by decide, by decide, by decide⟩
  have henclosed : IsEnclosed text 8 :=
    ⟨Text.singleQuote, by decide, by decide, 10, by decide, hat⟩
  have hedited : applyHere text 8 c = ⟨("a\nx('orders').y" : String), 11⟩ := by decide
  obtain ⟨-, -, start, stop, inserted, hstart, hstop, htext, hfills, -⟩ :=
    applyHere_replaces text hcursor c
  have hfills := hfills henclosed
  rw [show ((8 : Nat) : Int) = 8 from rfl, hedited] at hfills
  exact ⟨hcursor, henclosed, hedited, start, stop, inserted, hstart, hstop, htext, hfills⟩

end FluentQuery.Edit
