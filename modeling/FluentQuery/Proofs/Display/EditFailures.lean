/-
  How editing fails. A text that is no JSON stays a plain value, and a document that cannot be saved is
  reported with its place or its kind. Only an integer of more than 4300 digits that reading comes to is
  refused otherwise, by both (`editing_fails_as_announced_iff`).
-/
import FluentQuery.Proofs.Json.Refusal
import FluentQuery.Value.Display

namespace FluentQuery.Display

open Json (HasLongInteger)

/-- Whether the failure is one that is reported to the user. -/
def DocumentFailure.IsReported : DocumentFailure → Prop
  | invalidJson _ => True
  | notAnObject => True
  | tooManyDigits => False

theorem ofEditText_refusedIff (text : Text) : RefusedIff (ofEditText text) (HasLongInteger text) := by
  intro fault
  rw [← Json.read_eq_tooManyDigits_iff]
  unfold ofEditText
  cases hread : Json.read text with
  | ok v => exact iff_of_false nofun nofun
  | error failure =>
    cases failure with
    | malformed e => exact iff_of_false nofun nofun
    | tooManyDigits => simp [eq_comm]

theorem ofDocumentText_eq_tooManyDigits_iff (text : Text) :
    ofDocumentText text = .error .tooManyDigits ↔ HasLongInteger text := by
  rw [← Json.read_eq_tooManyDigits_iff]
  unfold ofDocumentText
  cases hread : Json.read text with
  | ok v =>
    refine iff_of_false (fun h => ?_) nofun
    cases v <;> cases h
  | error failure =>
    cases failure with
    | malformed e => exact iff_of_false nofun nofun
    | tooManyDigits => exact iff_of_true rfl rfl

/-- A cell yields a value for every text, and a document yields its entries or a failure that is reported,
except where reading comes to an integer of more than 4300 digits: there both fail otherwise. -/
theorem editing_fails_as_announced_iff (text : Text) :
    ((∃ v, ofEditText text = .ok v) ↔ ¬HasLongInteger text) ∧
      (((∃ entries, ofDocumentText text = .ok entries) ∨
        ∃ failure, ofDocumentText text = .error failure ∧ failure.IsReported) ↔ ¬HasLongInteger text) := by
  have hedit := ofEditText_refusedIff text
  rw [← ofDocumentText_eq_tooManyDigits_iff] at hedit ⊢
  constructor
  · cases hvalue : ofEditText text with
    | ok v => exact iff_of_true ⟨v, rfl⟩ (hedit.not_of_ok hvalue)
    | error fault => exact iff_of_false nofun (not_not_intro ((hedit fault).1 hvalue).2)
  · cases ofDocumentText text with
    | ok entries => exact iff_of_true (.inl ⟨entries, rfl⟩) nofun
    | error failure =>
      cases failure with
      | invalidJson e => exact iff_of_true (.inr ⟨_, rfl, trivial⟩) nofun
      | notAnObject => exact iff_of_true (.inr ⟨_, rfl, trivial⟩) nofun
      | tooManyDigits =>
        refine iff_of_false ?_ (not_not_intro rfl)
        rintro (⟨_, ⟨⟩⟩ | ⟨_, ⟨⟩, ⟨⟩⟩)

/-- Nines, one more than an integer may have: they are no document, but not even that is reported. -/
theorem editing_fails_nines :
    let nines := Text.filled 4301 '9'
    ofEditText nines = .error .tooManyDigits ∧ ofDocumentText nines = .error .tooManyDigits := by
  intro nines
  have hstart : Json.StartsLongInteger ([] ++ (nines ++ [])) := by
    refine .intro (.inl rfl) (fun c hc => ?_) nofun ?_ nofun
    · rw [List.eq_of_mem_replicate hc]
      rfl
    · have hlength : nines.length = 4301 := List.length_replicate
      rw [hlength]
      decide
  rw [List.nil_append, List.append_nil] at hstart
  have hlong : HasLongInteger nines := by
    have hspace : Json.skipSpace nines = nines := Json.skipSpace_cons (by decide) (Text.filled 4300 '9')
    rw [HasLongInteger, hspace]
    exact .integer hstart
  exact ⟨(ofEditText_refusedIff nines .tooManyDigits).2 ⟨rfl, hlong⟩,
    (ofDocumentText_eq_tooManyDigits_iff nines).2 hlong⟩

end FluentQuery.Display
