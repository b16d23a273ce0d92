/-
  Filling a literal. A completion that is accepted in a literal with its closing quote right behind the
  cursor replaces what is typed there (`applyHere_in_literal`). The first time the closing quote may stand
  further on; the edit leaves it right behind the cursor (`exists_filled`), in a literal that is opened where
  it was opened before. `applyHere_again`: so accepting the same completion a second time changes nothing.
-/
import FluentQuery.Proofs.Completion.EditedLines

namespace FluentQuery

open Text (backslash)

/-! ## What is typed in a literal -/

/-- What is typed so far in a literal on the line of the cursor. -/
structure IsTyped (quote : CodePoint) (content : Text) : Prop where
  quote_mem : quote ∈ stringQuotes
  quote_not_mem : quote ∉ content
  backslash_not_mem : backslash ∉ content
  break_not_mem : CodePoint.char '\n' ∉ content

namespace Cursor

/-- No backslash above the line reaches into it. -/
theorem escapedBehind_lastLine (text : Text) :
    escapedBehind false (Text.lastLine text) = escapedBehind false text := by
  conv => rhs; rw [← Text.throughLast_append_lastLine text]
  rw [escapedBehind_append, escapedBehind_throughLast]

end Cursor

namespace Edit

/-- Accepting a completion right before the closing quote of a literal replaces what is typed there, with the
cursor behind it. -/
theorem applyHere_in_literal {front content : Text} {quote : CodePoint}
    (hopen : openLiteral stringQuotes (Text.lastLine front) = none)
    (hescaped : escapedBehind false front = false) (h : IsTyped quote content) (rest : Text)
    (c : Completion) :
    applyHere (front ++ quote :: content ++ quote :: rest) (front ++ quote :: content).length c =
      ⟨front ++ quote :: withoutQuotes stringQuotes c.insertedText ++ quote :: rest,
        (front ++ quote :: withoutQuotes stringQuotes c.insertedText).length⟩ := by
  have hquotes : CodePoint.char '\n' ∉ stringQuotes := by decide
  have hline : CodePoint.char '\n' ∉ quote :: content := by
    rw [List.mem_cons, not_or]
    exact ⟨fun heq => hquotes (heq ▸ h.quote_mem), h.break_not_mem⟩
  have hlast : Text.lastLine (front ++ quote :: content) = Text.lastLine front ++ quote :: content :=
    Text.behindLast_append_of_not_mem hline front
  have hopened : openLiteral stringQuotes (Text.lastLine (front ++ quote :: content)) =
      some ⟨quote, (Text.lastLine front).length⟩ := by
    rw [hlast]
    exact openLiteral_append_cons hopen ((Cursor.escapedBehind_lastLine front).trans hescaped) h.quote_mem
      h.quote_not_mem
  have hclosing : firstUnescaped quote (escapedBehind false (front ++ quote :: content)) (quote :: rest) =
      some 0 := by
    rw [escapedBehind_append_cons false front (ne_backslash_of_mem_stringQuotes h.quote_mem),
      escapedBehind_of_not_mem h.backslash_not_mem]
    exact if_pos (by simp)
  have hlength : (Text.throughLast '\n' front).length + (Text.lastLine front).length = front.length := by
    rw [← List.length_append, Text.throughLast_append_lastLine]
  have htake : (front ++ quote :: content).take (front.length + 1) = front ++ [quote] := by
    rw [List.append_cons, List.take_left' (by simp)]
  rw [applyHere_of_literal hopened hclosing c, Text.throughLast_append_of_not_mem hline, hlength, htake,
    List.drop_zero, ← List.append_cons, List.length_append, List.length_cons]
  congr 2
  omega

/-- The text in front of the literal that is open on the line of the cursor. -/
theorem exists_front_of_literal {earlier : Text} {literal : OpenLiteral}
    (hopen : openLiteral stringQuotes (Text.lastLine earlier) = some literal) : ∃ front back,
      earlier = front ++ literal.quote :: back ∧
      front.length = (Text.throughLast '\n' earlier).length + literal.start ∧
      escapedBehind false front = false ∧ openLiteral stringQuotes (Text.lastLine front) = none := by
  obtain ⟨front, back, hline, hlength, hescaped, houtside⟩ :=
    (openLiteral_eq_some_iff.1 hopen).exists_eq
  have hnot : CodePoint.char '\n' ∉ Text.lastLine earlier := Text.not_mem_behindLast '\n' earlier
  have hbreak : CodePoint.char '\n' ∉ front := fun hmem =>
    hnot (hline ▸ List.mem_append_left _ hmem)
  refine ⟨Text.throughLast '\n' earlier ++ front, back, ?_, ?_, ?_, ?_⟩
  · rw [List.append_assoc, ← hline, Text.throughLast_append_lastLine]
  · rw [List.length_append, hlength]
  · rw [escapedBehind_append, Cursor.escapedBehind_throughLast, hescaped]
  · unfold Text.lastLine
    rw [Text.behindLast_append_of_not_mem hbreak, Text.behindLast_throughLast, List.nil_append, houtside]

/-- Filling a literal leaves it open where it was, and its closing quote right behind the cursor. -/
theorem exists_filled {earlier later : Text} {literal : OpenLiteral} {position : Nat}
    (hopen : openLiteral stringQuotes (Text.lastLine earlier) = some literal)
    (hle : earlier.length ≤ position)
    (hclosed : UnescapedAt literal.quote false (earlier ++ later) position) (c : Completion) :
    ∃ front rest, escapedBehind false front = false ∧
      openLiteral stringQuotes (Text.lastLine front) = none ∧
      applyHere (earlier ++ later) earlier.length c =
        ⟨front ++ literal.quote :: withoutQuotes stringQuotes c.insertedText ++ literal.quote :: rest,
          (front ++ literal.quote :: withoutQuotes stringQuotes c.insertedText).length⟩ := by
  obtain ⟨front, back, hearlier, hlength, hescaped, houtside⟩ := exists_front_of_literal hopen
  obtain ⟨behind, rfl, hbehind⟩ := hclosed.behind hle
  obtain ⟨closing, hclosing⟩ := exists_firstUnescaped hbehind
  obtain ⟨⟨inner, rest, hlater, hinner, -⟩, -⟩ := unescapedAt_of_firstUnescaped hclosing
  have hdrop : later.drop closing = literal.quote :: rest := by
    rw [hlater, ← hinner, List.drop_left]
  have htake : earlier.take (front.length + 1) = front ++ [literal.quote] := by
    rw [hearlier, List.append_cons, List.take_left' (by simp)]
  refine ⟨front, rest, hescaped, houtside, ?_⟩
  rw [applyHere_of_literal hopen hclosing c, ← hlength, htake, hdrop, ← List.append_cons,
    List.length_append, List.length_cons]
  congr 2
  omega

/-- Accepting a completion in a literal that is closed behind the cursor, and then accepting it again,
changes nothing the second time, if the text that is put in does not end the literal or the line itself. -/
theorem applyHere_again {text : Text} {cursor position : Nat} {literal : OpenLiteral} {c : Completion}
    (hcursor : cursor ≤ text.length)
    (hopen : openLiteral stringQuotes (Text.lastLine (text.take cursor)) = some literal)
    (hle : cursor ≤ position) (hclosed : UnescapedAt literal.quote false text position)
    (hquote : literal.quote ∉ withoutQuotes stringQuotes c.insertedText)
    (hslash : backslash ∉ withoutQuotes stringQuotes c.insertedText)
    (hbreak : CodePoint.char '\n' ∉ withoutQuotes stringQuotes c.insertedText) :
    let edited := applyHere text cursor c
    applyHere edited.text edited.cursor c = edited := by
  intro edited
  have htyped : IsTyped literal.quote (withoutQuotes stringQuotes c.insertedText) :=
    ⟨(openLiteral_eq_some_iff.1 hopen).quote_mem, hquote, hslash, hbreak⟩
  have hlength : (text.take cursor).length = cursor := List.length_take_of_le hcursor
  rw [← hlength] at hle
  rw [← List.take_append_drop cursor text] at hclosed
  obtain ⟨front, rest, hescaped, houtside, hfilled⟩ := exists_filled hopen hle hclosed c
  rw [List.take_append_drop, hlength] at hfilled
  have hedited : edited = _ := hfilled
  rw [hedited]
  exact applyHere_in_literal houtside hescaped htyped rest c

/-- The other quote and a blank at the end are put into the literal, and once more in their own place. -/
theorem applyHere_again_other_quote :
    let text : Text := ("f('it\\'s')" : String)
    let filled : Text := ("f('o\"x ')" : String)
    let c : Completion := { trigger := ("'o\"x " : String), suggestion := ("'" : String) }
    5 ≤ text.length ∧
      openLiteral stringQuotes (Text.lastLine (text.take 5)) = some ⟨Text.singleQuote, 2⟩ ∧
      UnescapedAt Text.singleQuote false text 8 ∧
      Text.singleQuote ∉ withoutQuotes stringQuotes c.insertedText ∧
      backslash ∉ withoutQuotes stringQuotes c.insertedText ∧
      CodePoint.char '\n' ∉ withoutQuotes stringQuotes c.insertedText ∧
      applyHere text 5 c = ⟨filled, 7⟩ ∧ applyHere filled 7 c = ⟨filled, 7⟩ := by
  intro text filled c
  have hcursor : 5 ≤ text.length := by decide
  have hopen : openLiteral stringQuotes (Text.lastLine (text.take 5)) = some ⟨Text.singleQuote, 2⟩ := by
    decide
  have hclosed : UnescapedAt Text.singleQuote false text 8 :=
    ⟨("f('it\\'s" : String), (")" : String), by decide, by decide, by decide⟩
  have hquote : Text.singleQuote ∉ withoutQuotes stringQuotes c.insertedText := by decide
  have hslash : backslash ∉ withoutQuotes stringQuotes c.insertedText := by decide
  have hbreak : CodePoint.char '\n' ∉ withoutQuotes stringQuotes c.insertedText := by decide
  have hfirst : applyHere text 5 c = ⟨filled, 7⟩ := by decide
  have hagain := applyHere_again hcursor hopen (by decide) hclosed hquote hslash hbreak
  rw [show ((5 : Nat) : Int) = 5 from rfl, hfirst] at hagain
  exact ⟨hcursor, hopen, hclosed, hquote, hslash, hbreak, hfirst, hagain⟩

end Edit

end FluentQuery
