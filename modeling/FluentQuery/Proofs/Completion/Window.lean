/-
  The window that the enclosing call is looked for in. A call starts at a point and is scanned from its
  opening parenthesis on, so nothing that stands before it has a part in the result: not even where the
  scan runs on the whole text and looks back for backslashes (`openCallInPlace?_eq_openCall?`). The calls
  in an end of a text are the last ones of all its calls (`allPlaces_suffix`), and the search begins with
  the last one. So a larger window changes nothing once a call is found: `openCall?_of_larger_window`.
-/
import FluentQuery.Proofs.Completion.EnclosingCall
import FluentQuery.Proofs.Query.CallSites

namespace FluentQuery

/-! ## Scans in the whole text -/

namespace Cursor

/-- The argument that the end of a text is in, if the call whose arguments start at the position is still
open; quotes and backslashes are looked at where they stand in the text. -/
def openArgumentAt? (text name : Text) (position : Nat) : Option OpenCall :=
  if (argumentsFrom literalQuotes text position).isClosed then none
  else some ⟨name, countCommas (text.drop position)⟩

/-- The last call of a known method that is still open at the end of a text, where all calls are scanned in
the text as a whole. -/
def openCallInPlace? (text : Text) : Option OpenCall :=
  (allPlaces completedCall? text).reverse.findSome? fun (name, rest) =>
    openArgumentAt? text name (text.length - rest.length)

/-- The arguments of a call stand behind its parenthesis, wherever in the text the call stands. -/
theorem exists_eq_append_of_mem_calls {text name rest : Text}
    (h : (name, rest) ∈ allPlaces completedCall? text) :
    ∃ front, text = front ++ CodePoint.char '(' :: rest := by
  obtain ⟨part, ⟨earlier, rfl⟩, hcall⟩ := mem_allPlaces_iff.1 h
  obtain ⟨other, -, hfound⟩ := List.exists_of_findSome?_eq_some hcall
  obtain ⟨inside, hopen, heq⟩ := Option.map_eq_some_iff.1 hfound
  cases heq
  exact Call.exists_eq_append_of_open? hopen earlier

/-- Behind its parenthesis a call is scanned in the text as it is on its own. -/
theorem openArgumentAt?_behind_paren (front name rest : Text) :
    openArgumentAt? (front ++ CodePoint.char '(' :: rest) name
      ((front ++ CodePoint.char '(' :: rest).length - rest.length) = openArgument? name rest := by
  have hrest : (front ++ CodePoint.char '(' :: rest).drop
      ((front ++ CodePoint.char '(' :: rest).length - rest.length) = rest := by
    rw [List.append_cons, List.length_append, Nat.add_sub_cancel, List.drop_left]
  unfold openArgumentAt? openArgument?
  rw [argumentsFrom_behind_paren, CallArguments.isClosed_behind, hrest]
  rfl

theorem openCallInPlace?_eq_openCall? (text : Text) : openCallInPlace? text = openCall? text := by
  unfold openCallInPlace? openCall?
  rw [← List.head?_filterMap, ← List.head?_filterMap]
  refine congrArg List.head? (List.filterMap_congr fun call hcall => ?_)
  obtain ⟨front, hfront⟩ := exists_eq_append_of_mem_calls (List.mem_reverse.1 hcall)
  rw [hfront]
  exact openArgumentAt?_behind_paren front call.1 call.2

/-! ## More text in front -/

/-- A call that is found in a text is found with any text in front of it, too. -/
theorem openCall?_append_of_eq_some {text : Text} {call : OpenCall} (h : openCall? text = some call)
    (earlier : Text) : openCall? (earlier ++ text) = some call := by
  -- The search starts at the last call, so no call of the text in front is tried before this one.
  obtain ⟨more, hmore⟩ := allPlaces_suffix completedCall? earlier text
  unfold openCall? at h ⊢
  rw [← hmore, List.reverse_append, List.findSome?_append, h, Option.some_or]

/-- The characters in a window are the last ones of those in a larger window. -/
theorem lastChars_suffix {window window' : Int} (h : window ≤ window') (text : Text) :
    lastChars window text <:+ lastChars window' text := by
  unfold lastChars
  exact List.drop_suffix_drop_left text (by omega)

/-- The enclosing call is found by scans that may run in the whole text. A call that is found in a text is
found with any text in front of it; and where a window is large enough for a call to be found in it, the
situation is the same with any larger window, whatever token it is given. -/
theorem openCall?_of_larger_window :
    (∀ text, openCallInPlace? text = openCall? text) ∧
    (∀ earlier text call, openCall? text = some call → openCall? (earlier ++ text) = some call) ∧
    ∀ root window window' text cursor token call, window ≤ window' →
      (situationWith root window text cursor token).call = some call →
        situationWith root window' text cursor token = situationWith root window text cursor token := by
  refine ⟨openCallInPlace?_eq_openCall?, fun earlier text call h =>
    openCall?_append_of_eq_some h earlier, ?_⟩
  intro root window window' text cursor token call hle hcall
  change openCall? (lastChars window (before text cursor)) = some call at hcall
  obtain ⟨earlier, hlarger⟩ := lastChars_suffix hle (before text cursor)
  have hsame : openCall? (lastChars window' (before text cursor)) =
      openCall? (lastChars window (before text cursor)) := by
    rw [hcall, ← hlarger]
    exact openCall?_append_of_eq_some hcall earlier
  unfold situationWith
  rw [hsame]

/-- The smaller window starts between a backslash and the quote that it takes the meaning from, in a literal
that the larger one sees from its start on. -/
theorem openCall?_of_larger_window_in_escape :
    (14 : Int) ≤ 200 ∧
    (situationAt "db" 14 "f('a\\').where('b', " 19).call = some ⟨"where", 1⟩ ∧
    situationAt "db" 200 "f('a\\').where('b', " 19 =
      situationAt "db" 14 "f('a\\').where('b', " 19 := by
  have hle : (14 : Int) ≤ 200 := by decide
  have hcall : (situationAt "db" 14 "f('a\\').where('b', " 19).call = some ⟨"where", 1⟩ := by
    decide
  exact ⟨hle, hcall, openCall?_of_larger_window.2.2 "db" 14 200 _ 19 _ _ hle hcall⟩

end Cursor

end FluentQuery
