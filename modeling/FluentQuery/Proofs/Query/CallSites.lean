/-
  Calls where they stand. The parser scans the arguments of a call in the whole text and looks back for
  backslashes from there. Before the arguments of a call stands its parenthesis, so they are the same in the
  text of the call alone (`argumentsIn_of_mem_sites`); and so are the fields of a selection and the conditions
  (`parseSelect_eq`, `parseConditions_eq_sites`).
-/
import FluentQuery.Proofs.Chain.Openings
import FluentQuery.Proofs.Expression.Extent

namespace FluentQuery

/-- The text behind the parenthesis of a call ends any text that the call stands in. -/
theorem Call.exists_eq_append_of_open? {name part inside : Text} (h : Call.open? name part = some inside)
    (earlier : Text) : ∃ front, earlier ++ part = front ++ CodePoint.char '(' :: inside := by
  obtain ⟨blanks, rfl, -⟩ := Call.open?_eq_some h
  exact ⟨earlier ++ CodePoint.char '.' :: (name ++ blanks), by simp [callText]⟩

namespace Query

/-- The arguments of a call are scanned in a text as they are in the text of the call alone. -/
theorem argumentsIn_of_mem_sites {name text rest : Text} (h : rest ∈ Call.sites name text) :
    ∃ position, argumentsIn text rest = (callArguments rest).behind position := by
  obtain ⟨part, ⟨earlier, rfl⟩, hopen⟩ := mem_allPlaces_iff.1 h
  obtain ⟨front, hfront⟩ := Call.exists_eq_append_of_open? hopen earlier
  refine ⟨front.length + 1, ?_⟩
  unfold argumentsIn
  rw [hfront, argumentsFrom_behind_paren]
  rfl

/-- The fields of a selection, the arguments of which start here. -/
def selectIn? (text : Text) : Option (List Text) := some (fieldsOf (callArguments text))

theorem parseSelect_eq (text : Text) :
    parseSelect text = ((Call.sites "select" text).head?.bind selectIn?).getD [] := by
  unfold parseSelect Call.firstSite? Call.sites
  rw [firstPlace?_eq_head?]
  cases hsite : (allPlaces (Call.open? "select") text).head? with
  | none => rfl
  | some rest =>
    obtain ⟨position, hposition⟩ := argumentsIn_of_mem_sites (List.mem_of_head? hsite)
    show fieldsOf (argumentsIn text rest) = fieldsOf (callArguments rest)
    rw [hposition]
    rfl

/-- The condition of a call, the arguments of which start here. -/
def conditionAt? (rest : Text) : Option (Except Fault Condition) := conditionFrom? (callArguments rest)

theorem parseConditions_eq_sites (text : Text) :
    parseConditions text = ((Call.sites "where" text).filterMap conditionAt?).mapM id := by
  unfold parseConditions
  refine congrArg (List.mapM id) (List.filterMap_congr fun rest hrest => ?_)
  obtain ⟨position, hposition⟩ := argumentsIn_of_mem_sites hrest
  unfold conditionAt? conditionFrom?
  rw [hposition, CallArguments.isClosed_behind]
  rfl

end Query

end FluentQuery
