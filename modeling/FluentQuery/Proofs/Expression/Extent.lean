/-
  What the scan for the arguments of a call looks at. It stops at the parenthesis that closes the call, so
  what follows does not matter (`Pieces.scanFrom_take_append`); and of what stands before the call only the
  backslashes right before it can matter (`argumentsFrom_append`). `argumentsFrom_within_call`: where there are
  none, a call is read in a text as it is on its own, and it may be followed by anything.
-/
import FluentQuery.Proofs.Expression.Nesting

namespace FluentQuery

variable {quotes : List CodePoint}

/-! ## What follows -/

/-- The scan ends with the parenthesis that closes the call. -/
theorem Pieces.scanFrom_take_append {n : Nesting} {escaped : Bool} {text : Text} {distance : Nat}
    (h : (scanFrom quotes n escaped text).closing = some distance) (more : Text) :
    scanFrom quotes n escaped (text.take (distance + 1) ++ more) = scanFrom quotes n escaped text := by
  induction text generalizing n escaped distance with
  | nil => cases h
  | cons c rest ih =>
    rw [List.take_succ_cons, List.cons_append, scanFrom_cons, scanFrom_cons]
    rw [scanFrom_cons] at h
    split at h
    · rename_i hclosing
      rw [if_pos hclosing, if_pos hclosing]
    · rename_i hopen
      -- whether the character is taken or cut at, the parenthesis comes one further from it
      obtain ⟨behind, hbehind, rfl⟩ : ∃ behind, (scanFrom quotes (n.step quotes escaped c)
          (c = Text.backslash && !escaped) rest).closing = some behind ∧ behind + 1 = distance := by
        split at h <;> exact Option.map_eq_some_iff.1 h
      rw [if_neg hopen, if_neg hopen, ih hbehind]

/-! ## What stands before -/

/-- The same arguments with so many characters before the text of the call. -/
def CallArguments.behind (s : CallArguments) (position : Nat) : CallArguments :=
  ⟨s.arguments, s.closedAt.map (position + ·)⟩

theorem CallArguments.isClosed_behind (s : CallArguments) (position : Nat) :
    (s.behind position).isClosed = s.isClosed := Option.isSome_map

/-- A scan that starts where no backslash takes the meaning from a quote sees nothing of what stands before
it. -/
theorem argumentsFrom_append {front : Text} (h : escapedBehind false front = false) (rest : Text) :
    argumentsFrom quotes (front ++ rest) front.length =
      (argumentsFrom quotes rest 0).behind front.length := by
  have hstart : escapedAt rest 0 = false := rfl
  unfold argumentsFrom CallArguments.behind
  rw [escapedAt_append, h, hstart, List.drop_left, List.drop_zero]
  simp

/-- Behind its parenthesis a call is scanned in a text as it is on its own. -/
theorem argumentsFrom_behind_paren (front rest : Text) :
    argumentsFrom quotes (front ++ CodePoint.char '(' :: rest)
        ((front ++ CodePoint.char '(' :: rest).length - rest.length) =
      (argumentsFrom quotes rest 0).behind (front.length + 1) := by
  have hparen : escapedBehind false (front ++ [CodePoint.char '(']) = false :=
    escapedBehind_append_cons false front (by decide) []
  have hposition : (front ++ [CodePoint.char '('] ++ rest).length - rest.length =
      (front ++ [CodePoint.char '(']).length := by
    rw [List.length_append, Nat.add_sub_cancel]
  rw [List.append_cons, hposition, argumentsFrom_append hparen, List.length_append]
  rfl

/-- A position is not escaped unless a backslash stands right before it. -/
theorem escapedAt_eq_false {text : Text} {position : Nat} (hle : position ≤ text.length)
    (h : position = 0 ∨ text[position - 1]? ≠ some Text.backslash) : escapedAt text position = false := by
  cases position with
  | zero => rfl
  | succ position =>
    have hc := List.getElem?_eq_getElem hle
    have hne : text[position] ≠ Text.backslash := fun heq =>
      (h.resolve_left (Nat.succ_ne_zero position)) (heq ▸ hc)
    rw [escapedAt_succ hc, decide_eq_false hne, Bool.false_and]

/-- The parenthesis that closes a call stands in its text. -/
theorem closedAt_bounds {text : Text} {start position : Nat}
    (h : (argumentsFrom quotes text start).closedAt = some position) :
    start ≤ position ∧ position < text.length := by
  have hfind : (List.range' start (text.length - start)).find? (standsOutside quotes text start ')') =
      some position := (isPartition_piecesFrom quotes text start).closing.symm.trans h
  have hmem := List.mem_range'_1.1 (List.mem_of_find?_eq_some hfind)
  omega

/-- Up to the parenthesis that closes a call the text decides its arguments. -/
theorem argumentsFrom_take_append {text : Text} {start position : Nat}
    (h : (argumentsFrom quotes text start).closedAt = some position) (more : Text) :
    argumentsFrom quotes (text.take (position + 1) ++ more) start = argumentsFrom quotes text start := by
  obtain ⟨hstart, hposition⟩ := closedAt_bounds h
  obtain ⟨distance, hclosing, rfl⟩ := Option.map_eq_some_iff.1 h
  have hlength : start ≤ (text.take (start + distance + 1)).length := by
    rw [List.length_take]
    omega
  have hescaped : escapedAt (text.take (start + distance + 1) ++ more) start = escapedAt text start := by
    rw [escapedAt_eq, escapedAt_eq, List.take_append_of_le_length hlength, List.take_take,
      Nat.min_eq_left (by omega)]
  have hrest : (text.take (start + distance + 1) ++ more).drop start =
      (text.drop start).take (distance + 1) ++ more := by
    rw [List.drop_append_of_le_length hlength, List.drop_take, Nat.add_assoc, Nat.add_sub_cancel_left]
  rw [argumentsFrom_eq, argumentsFrom_eq, piecesFrom, piecesFrom, hescaped, hrest,
    Pieces.scanFrom_take_append hclosing]

/-- More text behind a closed call does not matter. -/
theorem callArguments_append {text : Text} (h : (callArguments text).isClosed = true) (more : Text) :
    callArguments (text ++ more) = callArguments text := by
  obtain ⟨position, hposition⟩ := Option.isSome_iff_exists.1 h
  have hsplit : text ++ more = text.take (position + 1) ++ (text.drop (position + 1) ++ more) := by
    rw [← List.append_assoc, List.take_append_drop]
  rw [hsplit]
  exact argumentsFrom_take_append hposition _

/-- A call whose text no backslash stands before has the arguments that its text has on its own, and is closed
if that is, as much further on. And a call that is closed has the same arguments and is closed at the same
place, whatever follows its closing parenthesis. -/
theorem argumentsFrom_within_call (quotes : List CodePoint) (text : Text) (start : Nat) :
    (start ≤ text.length → (start = 0 ∨ text[start - 1]? ≠ some Text.backslash) →
      (argumentsFrom quotes text start).arguments =
          (argumentsFrom quotes (text.drop start) 0).arguments ∧
        (argumentsFrom quotes text start).isClosed =
          (argumentsFrom quotes (text.drop start) 0).isClosed ∧
        (argumentsFrom quotes text start).closedAt =
          (argumentsFrom quotes (text.drop start) 0).closedAt.map (start + ·)) ∧
      ∀ position, (argumentsFrom quotes text start).closedAt = some position → ∀ more,
        argumentsFrom quotes (text.take (position + 1) ++ more) start =
          argumentsFrom quotes text start := by
  refine ⟨?_, fun position h more => argumentsFrom_take_append h more⟩
  intro hle hbackslash
  have hescaped := escapedAt_eq_false hle hbackslash
  rw [escapedAt_eq] at hescaped
  have happend := @argumentsFrom_append quotes _ hescaped (text.drop start)
  rw [List.take_append_drop, List.length_take_of_le hle] at happend
  rw [happend, CallArguments.isClosed, CallArguments.behind, Option.isSome_map]
  exact ⟨rfl, rfl, rfl⟩

/-- A backslash further in front, with a character behind it, does not matter, and neither does a quote that is
left open behind the call. -/
theorem argumentsFrom_within_call_quoted_name :
    let text : Text := ("\\'.f('a, b', [c)], \"d) e\") + g(" : String)
    let other : Text := (", 'h" : String)
    5 ≤ text.length ∧ text[5 - 1]? ≠ some Text.backslash ∧
      (argumentsFrom literalQuotes text 5).closedAt = some 25 ∧
      (argumentsFrom literalQuotes (text.drop 5) 0).closedAt.map (5 + ·) = some 25 ∧
      (argumentsFrom literalQuotes text 5).arguments =
        (argumentsFrom literalQuotes (text.drop 5) 0).arguments ∧
      argumentsFrom literalQuotes (text.take 26 ++ other) 5 = argumentsFrom literalQuotes text 5 := by
  intro text other
  have hle : 5 ≤ text.length := by decide
  have hbackslash : text[5 - 1]? ≠ some Text.backslash := by decide
  have hclosed : (argumentsFrom literalQuotes text 5).closedAt = some 25 := by decide
  obtain ⟨hown, hmore⟩ := argumentsFrom_within_call literalQuotes text 5
  obtain ⟨harguments, -, hclosedAt⟩ := hown hle (.inr hbackslash)
  exact ⟨hle, hbackslash, hclosed, hclosedAt.symm.trans hclosed, harguments, hmore 25 hclosed other⟩

end FluentQuery
