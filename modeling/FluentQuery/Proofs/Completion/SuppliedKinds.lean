/-
  The categories of what suppliers add. Second arguments are operators or directions, shortcuts are
  methods, fields are fields; and whatever is offered as a collection is a name in quotes
  (`exists_quotedWith_of_kind_collection`).
-/
import FluentQuery.Completion.Supplier

namespace FluentQuery.Supply

variable {c : Completion}

theorem kind_of_mem_secondArguments {situation : Situation} (h : c ∈ secondArguments situation) :
    c.kind = some .operator ∨ c.kind = some .direction := by
  have hoperators : ∀ c ∈ Catalog.operators, c.kind = some .operator := by decide
  have hdirections : ∀ c ∈ Catalog.directions, c.kind = some .direction := by decide
  unfold secondArguments at h
  split at h
  · exact .inl (hoperators c h)
  · split at h
    · exact .inr (hdirections c h)
    · cases h

theorem kind_of_mem_rootShortcuts {root path : Text} (h : c ∈ rootShortcuts root path) :
    c.kind = some .method := by
  simp only [rootShortcuts, List.mem_cons, List.not_mem_nil, or_false] at h
  rcases h with rfl | rfl | rfl | rfl | rfl <;> rfl

theorem mem_quoted_iff {name : Text} {kind : CompletionKind} {description : Text} {priority : Int}
    {hasFullForm : Bool} : c ∈ quoted name kind description priority hasFullForm ↔
      ∃ quote ∈ stringQuotes, quotedWith quote name kind description priority hasFullForm = c :=
  List.mem_map

theorem kind_of_mem_fieldCompletions {field : Text} (h : c ∈ fieldCompletions field) :
    c.kind = some .field := by
  rcases List.mem_append.1 h with h | h
  · obtain ⟨quote, -, rfl⟩ := mem_quoted_iff.1 h
    rfl
  · rw [List.mem_singleton.1 h]

/-- A name of a collection, as it is offered by a supplier. -/
def IsCollectionName (c : Completion) : Prop :=
  ∃ quote ∈ stringQuotes, ∃ name description priority hasFullForm,
    quotedWith quote name .collection description priority hasFullForm = c

theorem isCollectionName_of_mem_quoted {name description : Text} {priority : Int} {hasFullForm : Bool}
    (h : c ∈ quoted name .collection description priority hasFullForm) : IsCollectionName c := by
  obtain ⟨quote, hquote, hc⟩ := mem_quoted_iff.1 h
  exact ⟨quote, hquote, name, description, priority, hasFullForm, hc⟩

theorem isCollectionName_of_mem_flatMap {names : List Text} {hasFullForm : Bool}
    (h : c ∈ names.flatMap (namedCollection hasFullForm)) : IsCollectionName c := by
  obtain ⟨name, -, hc⟩ := List.mem_flatMap.1 h
  exact isCollectionName_of_mem_quoted hc

/-- What the editor's or the console's supplier offers as a collection is a name in quotes. -/
theorem isCollectionName_of_kind {path : Text} {fields collections : List Text} {root : Text}
    {situation : Situation}
    (h : c ∈ editor path fields collections root situation ∨ c ∈ console collections situation)
    (hkind : c.kind = some .collection) : IsCollectionName c := by
  have hsecond (hmem : c ∈ secondArguments situation) : IsCollectionName c := by
    rcases kind_of_mem_secondArguments hmem with heq | heq <;> cases hkind.symm.trans heq
  rcases h with h | h
  · simp only [editor, List.mem_append] at h
    rcases h with ((h | h) | h) | h
    · exact hsecond h
    · split at h
      · cases h
      · cases hkind.symm.trans (kind_of_mem_rootShortcuts h)
    · split at h
      · obtain ⟨field, -, hfield⟩ := List.mem_flatMap.1 h
        cases hkind.symm.trans (kind_of_mem_fieldCompletions hfield)
      · cases h
    · split at h
      · rcases List.mem_append.1 h with h | h
        · split at h
          · cases h
          · exact isCollectionName_of_mem_quoted h
        · exact isCollectionName_of_mem_flatMap h
      · cases h
  · rcases List.mem_append.1 h with h | h
    · exact hsecond h
    · split at h
      · exact isCollectionName_of_mem_flatMap h
      · cases h

end FluentQuery.Supply
