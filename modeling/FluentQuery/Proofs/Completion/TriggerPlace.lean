/-
  Where the token that a completion is offered for stands. It is read off the line without the blanks
  at its end, but an edit counts its characters back from the cursor. `trigger_directly_before_iff`:
  the two agree exactly if the token is empty or no blank stands before the cursor, and exactly then
  an edit that is no replacement inside quotes cuts out the token and nothing else.
-/
import FluentQuery.Completion.Edit
import FluentQuery.Proofs.Completion.TokenSearch
import FluentQuery.Proofs.Text.Trim

namespace FluentQuery

namespace Cursor

/-- The token at the end of a line is the end of the line, in a literal and outside. -/
theorem lineTrigger_suffix (line : Text) : lineTrigger line <:+ line := by
  cases hopen : openLiteral stringQuotes line with
  | some literal =>
    rw [lineTrigger_of_openLiteral hopen]
    exact List.drop_suffix _ _
  | none =>
    obtain ⟨front, token, rfl, hending⟩ := exists_ending line
    rw [lineTrigger_of_ending hending hopen]
    exact List.suffix_append _ _

theorem trigger_suffix_line (text : Text) (cursor : Int) :
    trigger text cursor <:+ lineBefore text cursor := lineTrigger_suffix _

theorem before_append (earlier later : Text) :
    before (earlier ++ later) earlier.length = earlier := by
  unfold before Text.clampCursor
  simp

/-- A cursor and the position that it stands for see the same text before them. -/
theorem before_clampCursor (text : Text) (cursor : Int) :
    before text (text.clampCursor cursor) = before text cursor := by
  unfold before
  refine congrArg text.take ?_
  have hle := text.clampCursor_le cursor
  unfold Text.clampCursor at hle ⊢
  omega

theorem trigger_clampCursor (text : Text) (cursor : Int) :
    trigger text (text.clampCursor cursor) = trigger text cursor := by
  unfold trigger lineBefore
  rw [before_clampCursor]

/-- It does not matter whether the cursor is moved into the text before the token is looked for. -/
theorem situationAt_eq (root : Text) (window : Int) (text : Text) (cursor : Int) :
    situationAt root window text cursor =
      situationWith root window text cursor (trigger text cursor) := by
  unfold situationAt situationWith lineBefore
  dsimp only
  rw [trigger_clampCursor, before_clampCursor]

/-- The token never ends in a blank: the line it is read off does not. -/
theorem endsInBlank_trigger (text : Text) (cursor : Int) :
    Text.endsInBlank (trigger text cursor) = false := by
  by_cases hne : trigger text cursor = []
  · rw [hne]; rfl
  · rw [Text.endsInBlank_of_suffix (trigger_suffix_line text cursor) hne]
    exact Text.endsInBlank_trimEnd _

theorem length_trigger_le (earlier later : Text) :
    (trigger (earlier ++ later) earlier.length).length ≤ earlier.length := by
  have h1 := (trigger_suffix_line (earlier ++ later) earlier.length).length_le
  have h2 := (Text.lastLine_suffix earlier).length_le
  have h3 := Text.length_trimEnd_le (Text.lastLine earlier)
  unfold lineBefore at h1
  rw [before_append] at h1
  omega

/-- Where no blank stands before the cursor, nothing is taken off the line. -/
theorem trigger_suffix_of_endsInBlank_eq_false {earlier : Text} (later : Text)
    (h : Text.endsInBlank earlier = false) :
    trigger (earlier ++ later) earlier.length <:+ earlier := by
  have hline := Text.lastLine_suffix earlier
  have htrim : Text.trimEnd (Text.lastLine earlier) = Text.lastLine earlier := by
    by_cases hne : Text.lastLine earlier = []
    · rw [hne]; rfl
    · apply Text.trimEnd_of_endsInBlank_eq_false
      rw [Text.endsInBlank_of_suffix hline hne, h]
  have hs := trigger_suffix_line (earlier ++ later) earlier.length
  unfold lineBefore at hs
  rw [before_append, htrim] at hs
  exact hs.trans hline

theorem trigger_suffix_iff (earlier later : Text) :
    trigger (earlier ++ later) earlier.length <:+ earlier ↔
      trigger (earlier ++ later) earlier.length = [] ∨ Text.endsInBlank earlier = false := by
  constructor
  · intro h
    by_cases hne : trigger (earlier ++ later) earlier.length = []
    · exact Or.inl hne
    · right
      rw [← Text.endsInBlank_of_suffix h hne]
      exact endsInBlank_trigger _ _
  · rintro (h | h)
    · rw [h]; exact List.nil_suffix
    · exact trigger_suffix_of_endsInBlank_eq_false later h

end Cursor

namespace Edit

/-- Whether an edit at the end of `earlier` takes `removed` out before the cursor, puts `inserted` in
its place, and leaves everything else. -/
def CutsOut (removed inserted earlier later : Text) (edited : Edited) : Prop :=
  ∃ kept, earlier = kept ++ removed ∧ edited.text = kept ++ inserted ++ later

/-- Whether accepting a completion at the end of `earlier` splices it in, with no literal around the
cursor to take it. -/
def Splices (trigger inserted earlier later : Text) : Prop :=
  (quoteOf? trigger).bind (insideQuotes? (earlier ++ later) earlier.length · inserted) = none

/-- A splice takes out as many characters as the trigger has, whatever they are. -/
theorem text_splice {trigger earlier : Text} (later inserted : Text) (offset : Int)
    (h : trigger.length ≤ earlier.length) :
    (splice (earlier ++ later) earlier.length inserted offset trigger).text =
      earlier.take (earlier.length - trigger.length) ++ inserted ++ later := by
  unfold splice
  rw [if_neg (by simp only [List.length_append]; omega)]
  simp only [Int.toNat_natCast, List.drop_left]
  rw [List.take_append_of_le_length (Nat.sub_le _ _)]

/-- So a splice cuts out the trigger iff the trigger stands right before the cursor. -/
theorem cutsOut_splice_iff {trigger earlier : Text} (later inserted : Text) (offset : Int)
    (h : trigger.length ≤ earlier.length) :
    CutsOut trigger inserted earlier later
      (splice (earlier ++ later) earlier.length inserted offset trigger) ↔ trigger <:+ earlier := by
  constructor
  · rintro ⟨kept, hkept, -⟩
    exact ⟨kept, hkept.symm⟩
  · rintro ⟨kept, rfl⟩
    refine ⟨kept, rfl, ?_⟩
    rw [text_splice later inserted offset h]
    simp

theorem applyHere_of_splices {c : Completion} {earlier later : Text}
    (h : Splices (Cursor.trigger (earlier ++ later) earlier.length) c.insertedText earlier later) :
    applyHere (earlier ++ later) earlier.length c =
      splice (earlier ++ later) earlier.length c.insertedText c.cursorOffset
        (Cursor.trigger (earlier ++ later) earlier.length) := by
  unfold Splices at h
  unfold applyHere apply
  simp only [h]

/-- The token is the text right before the cursor exactly if it is empty or no blank stands before
the cursor; and exactly then accepting a completion that is spliced in removes the token and nothing
else. -/
theorem trigger_directly_before_iff (earlier later : Text) :
    (Cursor.trigger (earlier ++ later) earlier.length <:+ earlier ↔
      Cursor.trigger (earlier ++ later) earlier.length = [] ∨ Text.endsInBlank earlier = false) ∧
    ∀ c : Completion,
      Splices (Cursor.trigger (earlier ++ later) earlier.length) c.insertedText earlier later →
      (CutsOut (Cursor.trigger (earlier ++ later) earlier.length) c.insertedText earlier later
          (applyHere (earlier ++ later) earlier.length c) ↔
        Cursor.trigger (earlier ++ later) earlier.length = [] ∨
          Text.endsInBlank earlier = false) := by
  refine ⟨Cursor.trigger_suffix_iff earlier later, ?_⟩
  intro c h
  rw [applyHere_of_splices h, cutsOut_splice_iff _ _ _ (Cursor.length_trigger_le earlier later)]
  exact Cursor.trigger_suffix_iff earlier later

/-- Inside an open literal that nothing closes, the quote and what follows it is spliced. -/
theorem trigger_directly_before_open_literal :
    Splices ("'us" : String) ("'users'" : String) ("db.collection('us" : String) [] ∧
      CutsOut ("'us" : String) ("'users'" : String) ("db.collection('us" : String) []
        (applyHere ("db.collection('us" : String) 17
          { trigger := ("'users" : String), suggestion := ("'" : String) }) := by
  have h : Splices ("'us" : String) ("'users'" : String) ("db.collection('us" : String) [] := by
    unfold Splices
    decide
  exact ⟨h, ((trigger_directly_before_iff ("db.collection('us" : String) []).2
    { trigger := ("'users" : String), suggestion := ("'" : String) } h).2 (Or.inr (by decide))⟩

/-- Behind a blank the token is not the text before the cursor, and accepting a completion for it
leaves its first character there and takes out the blank instead. -/
theorem trigger_behind_blank :
    ¬Cursor.trigger ("db.col " : String) 7 <:+ ("db.col " : String) ∧
      (applyHere ("db.col " : String) 7
        { trigger := ("db.col" : String), suggestion := ("lection" : String) }).text =
          ("ddb.collection" : String) := by
  decide

end Edit

end FluentQuery
