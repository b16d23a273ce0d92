/-
  The value operand of a condition: a quoted text, a truth value, a bracketed list of operands, a
  number, or any other text as it stands. `parse_eq` gives the reading of a list as an equation.
-/
import FluentQuery.Expression.Arguments
import FluentQuery.Numeric.Numeral
import FluentQuery.Value.Basic

namespace FluentQuery.Operand

/-- The outermost form of an operand. -/
inductive Form where
  /-- An operand without parts. -/
  | atom (value : Except Fault Value)
  /-- A list with the texts of its items. -/
  | items (texts : List Text)

/-- The number that a text is written as: an integer unless it has a point or an exponent. -/
def number? (text : Text) : Option (Except Fault Value) :=
  (Numeral.read? .plain text).map fun n =>
    if n.isInteger then .int <$> n.toInt else .ok (.float n.toBinary64)

/-- The inside of square brackets. -/
def bracketed? : Text → Option Text
  | '[' :: rest => if rest.getLast? = some ']' then some rest.dropLast else none
  | _ => none

/-- The form of an operand without blanks around it. A literal that is not closed loses only its
opening quote. -/
def formOf (text : Text) : Form :=
  match text with
  | [] => .atom (.ok (.text []))
  | c :: rest =>
    if c ∈ literalQuotes then .atom (.ok (.text ((literalContent? literalQuotes text).getD rest)))
    else if text = "true" then .atom (.ok (.bool true))
    else if text = "false" then .atom (.ok (.bool false))
    else
      match bracketed? text with
      | some inner => .items (callArguments inner).arguments
      | none => .atom ((number? text).getD (.ok (.text text)))

theorem length_lt_of_bracketed? {text inner : Text} (h : bracketed? text = some inner) :
    inner.length < text.length := by
  unfold bracketed? at h
  split at h
  · split at h
    · cases h
      simp only [List.length_dropLast, List.length_cons]
      omega
    · cases h
  · cases h

/-- The items of a list are the arguments between its brackets. -/
theorem bracketed?_of_formOf {text : Text} {items : List Text} (h : formOf text = .items items) :
    ∃ inner, bracketed? text = some inner ∧ items = (callArguments inner).arguments := by
  unfold formOf at h
  split at h
  · cases h
  · split at h
    · cases h
    · split at h
      · cases h
      · split at h
        · cases h
        · split at h
          · rename_i inner hinner
            cases h
            exact ⟨inner, hinner, rfl⟩
          · cases h

/-- The items of a list are shorter than the list. -/
theorem length_lt_of_formOf {text : Text} {texts : List Text} (h : formOf text = .items texts) :
    ∀ item ∈ texts, item.length < text.length := by
  intro item hitem
  obtain ⟨inner, hinner, rfl⟩ := bracketed?_of_formOf h
  exact Nat.lt_of_le_of_lt (length_le_of_mem_callArguments hitem) (length_lt_of_bracketed? hinner)

/-- The value that an operand stands for. -/
def parse (text : Text) : Except Fault Value :=
  match h : formOf text.trim with
  | .atom value => value
  | .items texts => do
    return .list (← texts.attach.mapM fun item =>
      have := Nat.lt_of_lt_of_le (length_lt_of_formOf h item.1 item.2) (Text.length_trim_le text)
      parse item.1)
termination_by text.length

/-- Reading an operand is finding its form and then reading its items. -/
theorem parse_eq (text : Text) :
    parse text =
      match formOf text.trim with
      | .atom value => value
      | .items texts => do return .list (← texts.mapM parse) := by
  rw [parse]
  split <;> rename_i h <;> simp only [h]
  rename_i texts
  have hm := List.mapM_map (m := Except Fault) (f := Subtype.val) (g := parse) (l := texts.attach)
  rw [List.attach_map_subtype_val] at hm
  rw [hm]
  rfl

end FluentQuery.Operand
