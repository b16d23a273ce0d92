/-
  The token before the cursor against its specification. Outside of literals it is the longest end of the
  line that is a token, a run of identifier characters with at most one point among them
  (`isLongestToken_lineTrigger`): the exit and the searches find the end of the line that cannot be
  continued to the front, and nothing in front of that can be taken in (`IsLongestToken.of_boundary`). In a
  literal it is all that the literal holds so far, with its opening quote. `trigger_isLongestToken` says
  so for every text and cursor.
-/
import FluentQuery.Proofs.Completion.TriggerPlace
import FluentQuery.Proofs.Expression.Unescaped
import FluentQuery.Proofs.Text.Lines

namespace FluentQuery.Cursor

/-- A run of identifier characters with at most one point among them. -/
structure IsToken (text : Text) : Prop where
  chars : ∀ c ∈ text, Text.isIdentChar c = true ∨ c = '.'
  points : text.count (CodePoint.char '.') ≤ 1

/-- The longest token at the end of a line. -/
structure IsLongestToken (line token : Text) : Prop where
  suffix : token <:+ line
  isToken : IsToken token
  longest : ∀ other, other <:+ line → IsToken other → other.length ≤ token.length

theorem IsToken.of_suffix {part text : Text} (h : IsToken text) (hpart : part <:+ text) :
    IsToken part :=
  ⟨fun c hc => h.chars c (hpart.subset hc), Nat.le_trans (hpart.sublist.count_le _) h.points⟩

/-- A token that cannot take in the character before it is the longest one. -/
theorem IsLongestToken.of_boundary {front token : Text} (htoken : IsToken token)
    (hfront : ∀ c, front.getLast? = some c → ¬IsToken (c :: token)) :
    IsLongestToken (front ++ token) token := by
  refine ⟨List.suffix_append _ _, htoken, ?_⟩
  intro other hother hisToken
  by_contra hlonger
  obtain ⟨more, rfl⟩ :=
    List.suffix_of_suffix_length_le (List.suffix_append front token) hother (by omega)
  rcases List.eq_nil_or_concat more with rfl | ⟨init, c, rfl⟩
  · exact hlonger (Nat.le_refl _)
  · rw [List.concat_eq_append] at hother hisToken
    obtain ⟨earlier, hearlier⟩ := hother
    rw [← List.append_assoc, List.append_cancel_right_eq] at hearlier
    refine hfront c (by rw [← hearlier]; simp) (hisToken.of_suffix ⟨init, ?_⟩)
    rw [List.append_assoc, List.singleton_append]

theorem count_point_eq_zero {text : Text} (h : ∀ c ∈ text, Text.isIdentChar c = true) :
    text.count (CodePoint.char '.') = 0 := by
  refine List.count_eq_zero.2 fun hmem => ?_
  have hident := h _ hmem
  rw [isIdentChar_point] at hident
  cases hident

theorem isToken_word {word : Text} (h : ∀ c ∈ word, Text.isIdentChar c = true) : IsToken word :=
  ⟨fun c hc => .inl (h c hc), by rw [count_point_eq_zero h]; exact Nat.zero_le 1⟩

theorem isToken_pointed {front word : Text} (hfront : ∀ c ∈ front, Text.isIdentChar c = true)
    (hword : ∀ c ∈ word, Text.isIdentChar c = true) : IsToken (front ++ CodePoint.char '.' :: word) := by
  refine ⟨chars_pointed hfront hword, ?_⟩
  rw [List.count_append, List.count_cons_self, count_point_eq_zero hfront, count_point_eq_zero hword]

/-- The only other character that a token can take in is a point, if it has none yet. -/
theorem not_isToken_cons {c : CodePoint} {token : Text} (hident : Text.isIdentChar c = false)
    (hpoint : c = '.' → CodePoint.char '.' ∈ token) : ¬IsToken (c :: token) := by
  intro h
  rcases h.chars c List.mem_cons_self with hchar | rfl
  · rw [hident] at hchar
    cases hchar
  · have hpoints := h.points
    have hpos := List.count_pos_iff.2 (hpoint rfl)
    rw [List.count_cons_self] at hpoints
    omega

/-! ## The end of a line -/

/-- The end of a line that is read off it is the longest token there. -/
theorem Ending.isLongestToken {front token : Text} (h : Ending front token) :
    IsLongestToken (front ++ token) token := by
  have hident {word : Text} (h : EndsInWord front word) :
      ∀ c, front.getLast? = some c → Text.isIdentChar c = false := by
    intro c hc
    simpa [hc] using h.boundary
  cases h with
  | word h hpoint =>
    exact .of_boundary (isToken_word h.chars) fun c hc =>
      not_isToken_cons (hident h c hc) fun heq => absurd (heq ▸ hc) hpoint
  | pointed h hword =>
    exact .of_boundary (isToken_pointed h.chars hword) fun c hc =>
      not_isToken_cons (hident h c hc) fun _ => by simp

/-- Outside of literals the token is the longest one at the end of the line. -/
theorem isLongestToken_lineTrigger {line : Text} (h : openLiteral stringQuotes line = none) :
    IsLongestToken line (lineTrigger line) := by
  obtain ⟨front, token, rfl, hending⟩ := exists_ending line
  rw [lineTrigger_of_ending hending h]
  exact hending.isLongestToken

/-- The line of the cursor up to the cursor, without the blanks at its end: what stands above it is nothing
or ends in a line break. -/
def IsLineBefore (text : Text) (cursor : Int) (line : Text) : Prop :=
  ∃ above blanks, before text cursor = above ++ (line ++ blanks) ∧
    (above = [] ∨ ∃ front, above = front ++ [CodePoint.char '\n']) ∧
    CodePoint.char '\n' ∉ line ++ blanks ∧ blanks.all Text.isBlank = true ∧
    Text.endsInBlank line = false

theorem isLineBefore_lineBefore (text : Text) (cursor : Int) :
    IsLineBefore text cursor (lineBefore text cursor) := by
  obtain ⟨blanks, hblanks, hall⟩ := Text.trimEnd_append_blanks (Text.lastLine (before text cursor))
  have hsplit := Text.throughLast_append_lastLine (before text cursor)
  refine ⟨Text.throughLast '\n' (before text cursor), blanks, ?_, Text.throughLast_eq _ _, ?_, hall,
    Text.endsInBlank_trimEnd _⟩
  · unfold lineBefore
    rw [← hblanks, hsplit]
  · unfold lineBefore
    rw [← hblanks]
    exact Text.not_mem_behindLast _ _

/-- The token before a cursor, wherever the cursor is. In a literal that is open on the line of the cursor,
it is what the line holds from the quote on that opened the literal. Anywhere else it is the longest token
at the end of the line. -/
theorem trigger_isLongestToken (text : Text) (cursor : Int) :
    let line := lineBefore text cursor
    IsLineBefore text cursor line ∧
      (∀ literal, openLiteral stringQuotes line = some literal →
        IsOpening stringQuotes line literal ∧ trigger text cursor = line.drop literal.start) ∧
      (openLiteral stringQuotes line = none → IsLongestToken line (trigger text cursor)) := by
  refine ⟨isLineBefore_lineBefore text cursor, ?_, isLongestToken_lineTrigger⟩
  intro literal hopen
  refine ⟨openLiteral_eq_some_iff.1 hopen, ?_⟩
  exact lineTrigger_of_openLiteral hopen

/-- Of two points only the last one belongs to the token; inside a literal everything does. -/
example : trigger ("a.b.c$" : String) 99 = ("b.c$" : String) ∧
    trigger ("x\ny('a.b (" : String) 9 = ("'a.b" : String) := by
  decide

end FluentQuery.Cursor
