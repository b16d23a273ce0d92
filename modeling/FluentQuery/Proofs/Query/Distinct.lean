/-
  Different queries are sent as different trees. The tree of a structured query gives the query back
  (`toValue_injective`): every clause is found under its own name, and a single filter is told from a
  combination by its tag. So two queries are sent as one tree exactly if they agree in everything but
  whole floating-point numbers that stand for integers (`sent_alike_iff_agree`).
-/
import FluentQuery.Proofs.Results
import FluentQuery.Proofs.Wire.RoundTrip
import FluentQuery.Query.Structured

namespace FluentQuery

/-! ## Trees of structured queries -/

theorem record_injective : Function.Injective record := by
  intro a b h
  unfold record at h
  rw [Value.map.injEq] at h
  refine List.map_injective_iff.2 ?_ h
  rintro ⟨name, v⟩ ⟨name', v'⟩ hentry
  simpa using hentry

theorem record_singleton_inj {name name' : Text} {v v' : Value} :
    record [(name, v)] = record [(name', v')] ↔ name = name' ∧ v = v' := by
  rw [record_injective.eq_iff, List.cons.injEq, Prod.mk.injEq, and_iff_left rfl]

/-- The clauses that have a value, each with its name. -/
def present (clauses : List (Text × Option Value)) : List (Text × Value) :=
  clauses.filterMap fun clause => clause.2.map (clause.1, ·)

@[simp]
theorem present_nil : present [] = [] := rfl

@[simp]
theorem present_cons_none (name : Text) (rest : List (Text × Option Value)) :
    present ((name, none) :: rest) = present rest := rfl

@[simp]
theorem present_cons_some (name : Text) (v : Value) (rest : List (Text × Option Value)) :
    present ((name, some v) :: rest) = (name, v) :: present rest := rfl

theorem name_mem_of_mem_present {clauses : List (Text × Option Value)} {entry : Text × Value}
    (h : entry ∈ present clauses) : entry.1 ∈ clauses.map (·.1) := by
  obtain ⟨clause, hmem, hentry⟩ := List.mem_filterMap.1 h
  obtain ⟨v, -, rfl⟩ := Option.map_eq_some_iff.1 hentry
  exact List.mem_map.2 ⟨clause, hmem, rfl⟩

/-- What is left out can be told from what is present: the names of all clauses are known. -/
theorem eq_of_present_eq {a b : List (Text × Option Value)} (hnames : a.map (·.1) = b.map (·.1))
    (hnodup : (a.map (·.1)).Nodup) (h : present a = present b) : a = b := by
  induction a generalizing b with
  | nil => exact (List.map_eq_nil_iff.1 hnames.symm).symm
  | cons clause a ih =>
    obtain ⟨name, v⟩ := clause
    cases b with
    | nil => cases hnames
    | cons clause' b =>
      obtain ⟨name', v'⟩ := clause'
      rw [List.map_cons, List.map_cons, List.cons.injEq] at hnames
      obtain ⟨rfl, hnames⟩ := hnames
      rw [List.map_cons, List.nodup_cons] at hnodup
      cases v with
      | none =>
        cases v' with
        | none => rw [ih hnames hnodup.2 h]
        | some w =>
          have hmem : (name, w) ∈ present a := by
            rw [present_cons_none, present_cons_some] at h
            rw [h]
            exact List.mem_cons_self
          exact absurd (name_mem_of_mem_present hmem) hnodup.1
      | some w =>
        cases v' with
        | none =>
          have hmem : (name, w) ∈ present b := by
            rw [present_cons_none, present_cons_some] at h
            rw [← h]
            exact List.mem_cons_self
          exact absurd (hnames ▸ name_mem_of_mem_present hmem) hnodup.1
        | some w' =>
          rw [present_cons_some, present_cons_some, List.cons.injEq] at h
          cases h.1
          rw [ih hnames hnodup.2 h.2]

theorem fieldPath_injective : Function.Injective fieldPath := by
  intro a b h
  simpa using record_injective h

/-- The comparison of a name on the wire. -/
def Comparison.ofWireName? (name : Text) : Option Comparison :=
  (operators.find? fun entry => entry.2.wireName = name).map (·.2)

theorem Comparison.ofWireName?_wireName (c : Comparison) : ofWireName? c.wireName = some c := by
  cases c <;> rfl

theorem Comparison.wireName_injective : Function.Injective wireName := by
  intro a b h
  have hnames := congrArg ofWireName? h
  rw [ofWireName?_wireName, ofWireName?_wireName] at hnames
  exact Option.some.inj hnames

theorem SortOrder.wireName_injective : Function.Injective wireName := by
  intro a b h
  cases a <;> cases b <;> first | rfl | exact absurd h (by decide)

theorem FieldFilter.toValue_injective : Function.Injective toValue := by
  rintro ⟨field, comparison, v⟩ ⟨field', comparison', v'⟩ h
  unfold FieldFilter.toValue at h
  rw [record_singleton_inj] at h
  have hentries := record_injective h.2
  simp only [List.cons.injEq, Prod.mk.injEq, Value.scalar.injEq, Scalar.text.injEq, and_true,
    true_and] at hentries
  obtain ⟨hfield, hop, rfl⟩ := hentries
  rw [fieldPath_injective hfield, Comparison.wireName_injective hop]

/-- A single filter is told from a combination by its tag. -/
theorem Filter.toValue_injective : Function.Injective toValue := by
  have htags : (("fieldFilter" : String) : Text) ≠ ("compositeFilter" : String) := by decide
  intro a b h
  cases a with
  | field f =>
    cases b with
    | field g => rw [FieldFilter.toValue_injective h]
    | all gs => exact absurd (record_singleton_inj.1 h).1 htags
  | all fs =>
    cases b with
    | field g => exact absurd (record_singleton_inj.1 h).1.symm htags
    | all gs =>
      have hentries := record_injective (record_singleton_inj.1 h).2
      simp only [List.cons.injEq, Prod.mk.injEq, and_true, true_and, Value.list.injEq] at hentries
      rw [List.map_injective_iff.2 FieldFilter.toValue_injective hentries]

theorem selectValue_injective : Function.Injective fun fields : List Text =>
    record [("fields", .list (fields.map fieldPath))] := by
  intro a b h
  have hfields := (record_singleton_inj.1 h).2
  rw [Value.list.injEq] at hfields
  exact List.map_injective_iff.2 fieldPath_injective hfields

theorem orderValue_injective : Function.Injective fun order : Text × SortOrder =>
    Value.list [orderValue order.1 order.2] := by
  rintro ⟨field, order⟩ ⟨field', order'⟩ h
  simp only [Value.list.injEq, List.cons.injEq, and_true] at h
  have hentries := record_injective h
  simp only [List.cons.injEq, Prod.mk.injEq, Value.scalar.injEq, Scalar.text.injEq, and_true,
    true_and] at hentries
  rw [fieldPath_injective hentries.1, SortOrder.wireName_injective hentries.2]

namespace StructuredQuery

theorem clauses_nodup (s : StructuredQuery) : (s.clauses.map (·.1)).Nodup := by
  have hnames : ([("from" : String), "limit", "select", "where", "orderBy"].map
      fun name : String => (name : Text)).Nodup := by decide
  exact hnames

theorem clauses_injective : Function.Injective clauses := by
  rintro ⟨id, limit, select, filter, ordering⟩ ⟨id', limit', select', filter', ordering'⟩ h
  simp only [clauses, List.cons.injEq, Prod.mk.injEq, Option.some.injEq, Value.list.injEq, and_true,
    true_and] at h
  obtain ⟨hid, rfl, hselect, hfilter, hordering⟩ := h
  have hid := (record_singleton_inj.1 hid).2
  rw [Value.scalar.injEq, Scalar.text.injEq] at hid
  cases hid
  cases Option.map_injective selectValue_injective hselect
  cases Option.map_injective Filter.toValue_injective hfilter
  cases Option.map_injective orderValue_injective hordering
  rfl

/-- The tree of a structured query gives the query back. -/
theorem toValue_injective : Function.Injective toValue := fun s _ h =>
  clauses_injective (eq_of_present_eq rfl s.clauses_nodup (record_injective h))

end StructuredQuery

/-! ## Queries that agree -/

/-- The operator is one of those that the wire knows, and the value can be stored. -/
structure Condition.Sendable (c : Condition) : Prop where
  operator : c.operator ∈ Comparison.operators.map (·.1)
  value : c.value.Storable

/-- A query for a single collection, with the operators, values and directions that the wire knows. -/
structure QueryParameters.Sendable (p : QueryParameters) : Prop where
  slash_not_mem : CodePoint.char '/' ∉ p.collection
  conditions : ∀ c ∈ p.conditions, c.Sendable
  direction : ∀ o ∈ p.ordering, o.direction = "asc" ∨ o.direction = "desc"

/-- The same field is compared in the same way with the same value, where a whole floating-point number
may stand for the integer. -/
structure Condition.Agree (c d : Condition) : Prop where
  field : c.field = d.field
  operator : c.operator = d.operator
  value : c.value.settled = d.value.settled

/-- All is the same but for whole floating-point numbers that stand for integers. -/
structure QueryParameters.Agree (p q : QueryParameters) : Prop where
  collection : p.collection = q.collection
  limit : p.limit = q.limit
  select : p.select = q.select
  conditions : List.Forall₂ Condition.Agree p.conditions q.conditions
  ordering : p.ordering = q.ordering

theorem Comparison.eq_of_ofOperator_eq {a b : Text} (ha : a ∈ operators.map (·.1))
    (hb : b ∈ operators.map (·.1)) (h : ofOperator a = ofOperator b) : a = b := by
  have hall : ∀ a ∈ operators.map (·.1), ∀ b ∈ operators.map (·.1),
      ofOperator a = ofOperator b → a = b := by decide
  exact hall a ha b hb h

theorem Text.lastSegment_of_slash_not_mem {path : Text} (h : CodePoint.char '/' ∉ path) :
    Text.lastSegment path = path := by
  have hsegment : Text.behindLast '/' path = path := by
    unfold Text.behindLast
    rw [List.takeWhile_eq_self_iff.2, List.reverse_reverse]
    intro c hc
    rw [List.mem_reverse] at hc
    simpa using fun heq : c = '/' => h (heq ▸ hc)
  unfold Text.lastSegment
  rw [hsegment]
  split
  · assumption
  · rfl

theorem Wire.survives_of_storable {v : Value} (h : v.Storable) : Survives v := by
  induction h with
  | scalar hs => exact survives_scalar hs
  | list _ ih => exact survives_list ih
  | map hnodup _ ih => exact survives_map hnodup ih

/-- Stored values are written alike exactly if they are the same once they are settled. -/
theorem Wire.encode_eq_iff {v u w : Value} (hv : v.Storable) (hu : u.Storable)
    (hw : encode v = .ok w) : encode u = .ok w ↔ v.settled = u.settled := by
  obtain ⟨w', hencode, hdecode, hagain⟩ := survives_of_storable hv
  cases hw.symm.trans hencode
  obtain ⟨x, hencode', hdecode', hagain'⟩ := survives_of_storable hu
  constructor
  · intro h
    cases h.symm.trans hencode'
    exact Except.ok.inj (hdecode.symm.trans hdecode')
  · intro h
    rw [hencode', ← hagain', ← h, hagain]

/-! ## Building -/

/-- The filter that is sent for the condition. -/
structure FieldFilter.Carries (f : FieldFilter) (c : Condition) : Prop where
  field : f.field = c.field
  comparison : f.comparison = .ofOperator c.operator
  value : Wire.encode c.value = .ok f.value

theorem FieldFilter.ofCondition_eq_ok_iff {c : Condition} {f : FieldFilter} :
    ofCondition c = .ok f ↔ f.Carries c := by
  unfold ofCondition
  rw [bind_eq_ok_iff]
  constructor
  · rintro ⟨w, hw, ⟨⟩⟩
    exact ⟨rfl, rfl, hw⟩
  · obtain ⟨field, comparison, value⟩ := f
    rintro ⟨rfl, rfl, hvalue⟩
    exact ⟨value, hvalue, rfl⟩

/-- Conditions have filters if their values can be written. -/
theorem exists_filters {cs : List Condition} (h : ∀ c ∈ cs, ∃ w, Wire.encode c.value = .ok w) :
    ∃ fs, cs.mapM FieldFilter.ofCondition = .ok fs ∧ List.Forall₂ FieldFilter.Carries fs cs := by
  obtain ⟨fs, hfs⟩ : ∃ fs, cs.mapM FieldFilter.ofCondition = .ok fs := by
    refine exists_mapM_eq_ok fun c hc => ?_
    obtain ⟨w, hw⟩ := h c hc
    exact ⟨⟨c.field, .ofOperator c.operator, w⟩,
      FieldFilter.ofCondition_eq_ok_iff.2 ⟨rfl, rfl, hw⟩⟩
  have hcarries : List.Forall₂ (fun c f => f.Carries c) cs fs :=
    (mapM_eq_ok_iff.1 hfs).imp fun _ _ => FieldFilter.ofCondition_eq_ok_iff.1
  exact ⟨fs, hfs, hcarries.flip⟩

theorem Condition.Sendable.exists_encode {c : Condition} (h : c.Sendable) :
    ∃ w, Wire.encode c.value = .ok w := by
  obtain ⟨w, hencode, -, -⟩ := Wire.survives_of_storable h.value
  exact ⟨w, hencode⟩

/-- Two conditions have one filter exactly if they agree. -/
theorem FieldFilter.Carries.eq_iff_agree {f g : FieldFilter} {c d : Condition} (hf : f.Carries c)
    (hg : g.Carries d) (hc : c.Sendable) (hd : d.Sendable) : f = g ↔ c.Agree d := by
  have hvalues := Wire.encode_eq_iff hc.value hd.value hf.value
  constructor
  · rintro rfl
    exact ⟨hf.field.symm.trans hg.field, Comparison.eq_of_ofOperator_eq hc.operator hd.operator
      (hf.comparison.symm.trans hg.comparison), hvalues.1 hg.value⟩
  · intro h
    have hvalue : f.value = g.value :=
      Except.ok.inj ((hvalues.2 h.value).symm.trans hg.value)
    obtain ⟨field, comparison, v⟩ := f
    obtain ⟨field', comparison', v'⟩ := g
    have hfield := hf.field.trans (h.field.trans hg.field.symm)
    have hcomparison := hf.comparison.trans ((congrArg _ h.operator).trans hg.comparison.symm)
    dsimp only at hfield hcomparison hvalue
    rw [hfield, hcomparison, hvalue]

theorem filters_eq_iff_agree {fs gs : List FieldFilter} {cs ds : List Condition}
    (hf : List.Forall₂ FieldFilter.Carries fs cs) (hg : List.Forall₂ FieldFilter.Carries gs ds)
    (hcs : ∀ c ∈ cs, c.Sendable) (hds : ∀ d ∈ ds, d.Sendable) :
    fs = gs ↔ List.Forall₂ Condition.Agree cs ds := by
  induction hf generalizing gs ds with
  | nil =>
    cases hg with
    | nil => exact iff_of_true rfl .nil
    | cons _ _ => exact iff_of_false (by simp) (by simp)
  | @cons f c fs cs hfc _ ih =>
    cases hg with
    | nil => exact iff_of_false (by simp) (by simp)
    | @cons g d gs ds hgd hrest =>
      have hhead := hfc.eq_iff_agree hgd (hcs c List.mem_cons_self) (hds d List.mem_cons_self)
      have htail := ih hrest (fun a ha => hcs a (List.mem_cons_of_mem c ha))
        fun a ha => hds a (List.mem_cons_of_mem d ha)
      rw [List.cons.injEq, List.forall₂_cons, hhead, htail]

/-- The filter of a query for some field filters, none if there are none. -/
def Filter.combined? : List FieldFilter → Option Filter
  | [] => none
  | [single] => some (.field single)
  | filters => some (.all filters)

theorem Filter.combined?_injective : Function.Injective combined? := by
  intro fs gs h
  match fs, gs with
  | [], [] => rfl
  | [], [_] | [], _ :: _ :: _ | [_], [] | _ :: _ :: _, [] => cases h
  | [_], _ :: _ :: _ | _ :: _ :: _, [_] => cases h
  | [_], [_] | _ :: _ :: _, _ :: _ :: _ =>
    cases h
    rfl

namespace StructuredQuery

/-- The structured query of some parameters whose conditions have these filters. -/
def ofFilters (params : QueryParameters) (filters : List FieldFilter) : StructuredQuery where
  collectionId := Text.lastSegment params.collection
  limit := params.limit
  select := if params.select.isEmpty then none else some params.select
  filter := Filter.combined? filters
  ordering := params.ordering.map fun o => (o.field, .ofDirection o.direction)

theorem build_eq_ofFilters {params : QueryParameters} {fs : List FieldFilter}
    (h : params.conditions.mapM FieldFilter.ofCondition = .ok fs)
    (hcarries : List.Forall₂ FieldFilter.Carries fs params.conditions) :
    build params = .ok (ofFilters params fs) := by
  obtain ⟨collection, limit, select, conditions, ordering⟩ := params
  cases conditions with
  | nil =>
    cases h
    rfl
  | cons c rest =>
    dsimp only at h
    unfold build Filter.ofConditions
    dsimp only [List.isEmpty_cons]
    rw [if_neg (by decide), h]
    cases hcarries with
    | @cons f _ fs _ _ _ => cases fs <;> rfl

theorem selection_eq_iff {a b : List Text} :
    ((if a.isEmpty then none else some a) = if b.isEmpty then none else some b) ↔ a = b := by
  cases a <;> cases b <;> simp

/-- Of two directions that the wire knows each stands for its own order. -/
theorem ordering_eq_iff {a b : Option OrderBy}
    (ha : ∀ o ∈ a, o.direction = "asc" ∨ o.direction = "desc")
    (hb : ∀ o ∈ b, o.direction = "asc" ∨ o.direction = "desc") :
    (a.map fun o => (o.field, SortOrder.ofDirection o.direction)) =
      (b.map fun o => (o.field, SortOrder.ofDirection o.direction)) ↔ a = b := by
  have hasc : SortOrder.ofDirection "asc" = .ascending := by decide
  have hdesc : SortOrder.ofDirection "desc" = .descending := by decide
  constructor
  · intro h
    cases a with
    | none => exact (Option.map_eq_none_iff.1 h.symm).symm
    | some o =>
      cases b with
      | none => cases h
      | some o' =>
        obtain ⟨field, direction⟩ := o
        obtain ⟨field', direction'⟩ := o'
        simp only [Option.map_some, Option.some.injEq, Prod.mk.injEq] at h
        obtain ⟨rfl, horder⟩ := h
        have hdirection := ha _ rfl
        have hdirection' := hb _ rfl
        dsimp only at hdirection hdirection'
        rcases hdirection with rfl | rfl <;> rcases hdirection' with rfl | rfl
        · rfl
        · rw [hasc, hdesc] at horder
          cases horder
        · rw [hasc, hdesc] at horder
          cases horder
        · rfl
  · rintro rfl
    rfl

/-- The parameters of a query are read off its structured query, but for the conditions. -/
theorem ofFilters_eq_iff {p q : QueryParameters} {fs gs : List FieldFilter} (hp : p.Sendable)
    (hq : q.Sendable) : ofFilters p fs = ofFilters q gs ↔ p.collection = q.collection ∧
      p.limit = q.limit ∧ p.select = q.select ∧ fs = gs ∧ p.ordering = q.ordering := by
  unfold ofFilters
  rw [Text.lastSegment_of_slash_not_mem hp.slash_not_mem,
    Text.lastSegment_of_slash_not_mem hq.slash_not_mem, StructuredQuery.mk.injEq, selection_eq_iff,
    Filter.combined?_injective.eq_iff, ordering_eq_iff hp.direction hq.direction]

/-- Two queries are sent, and they are sent as one tree exactly if they agree. -/
theorem sent_alike_iff_agree {p q : QueryParameters} (hp : p.Sendable) (hq : q.Sendable) :
    ∃ s t, build p = .ok s ∧ build q = .ok t ∧ (s.toValue = t.toValue ↔ p.Agree q) := by
  obtain ⟨fs, hfs, hcarries⟩ := exists_filters fun c hc => (hp.conditions c hc).exists_encode
  obtain ⟨gs, hgs, hcarries'⟩ := exists_filters fun c hc => (hq.conditions c hc).exists_encode
  refine ⟨_, _, build_eq_ofFilters hfs hcarries, build_eq_ofFilters hgs hcarries', ?_⟩
  rw [toValue_injective.eq_iff, ofFilters_eq_iff hp hq,
    filters_eq_iff_agree hcarries hcarries' hp.conditions hq.conditions]
  constructor
  · rintro ⟨hcollection, hlimit, hselect, hconditions, hordering⟩
    exact ⟨hcollection, hlimit, hselect, hconditions, hordering⟩
  · rintro ⟨hcollection, hlimit, hselect, hconditions, hordering⟩
    exact ⟨hcollection, hlimit, hselect, hconditions, hordering⟩

/-- The floating-point 1 is sent as the integer 1 is, all else being the same. -/
theorem sent_alike_whole_number :
    ∃ s t, build ⟨"users", .int 5, ["name"], [⟨"age", ">=", .float (.finite
          ⟨false, 2 ^ 52, -52, by decide, by decide, by decide, by decide⟩)⟩,
          ⟨"tags", "in", .list [.text "a"]⟩], some ⟨"age", "desc"⟩⟩ = .ok s ∧
      build ⟨"users", .int 5, ["name"], [⟨"age", ">=", .int 1⟩,
          ⟨"tags", "in", .list [.text "a"]⟩], some ⟨"age", "desc"⟩⟩ = .ok t ∧
      s.toValue = t.toValue := by
  have htags : Condition.Sendable ⟨"tags", "in", .list [.text "a"]⟩ :=
    ⟨by decide, .list fun v hv => List.mem_singleton.1 hv ▸ .scalar trivial⟩
  have hslash : CodePoint.char '/' ∉ (("users" : String) : Text) := by decide
  have hoperator : ((">=" : String) : Text) ∈ Comparison.operators.map (·.1) := by decide
  have hsendable (v : Value) (hv : v.Storable) : QueryParameters.Sendable ⟨"users", .int 5, ["name"],
      [⟨"age", ">=", v⟩, ⟨"tags", "in", .list [.text "a"]⟩], some ⟨"age", "desc"⟩⟩ := by
    refine ⟨hslash, ?_, ?_⟩
    · rintro c (_ | ⟨_, _ | ⟨_, hc⟩⟩)
      · exact ⟨hoperator, hv⟩
      · exact htags
      · cases hc
    · rintro o ⟨⟩
      exact .inr rfl
  obtain ⟨s, t, hs, ht, hiff⟩ := sent_alike_iff_agree
    (hsendable (.float (.finite ⟨false, 2 ^ 52, -52, by decide, by decide, by decide, by decide⟩))
      (.scalar (by simp [Scalar.Storable])))
    (hsendable (.int 1) (.scalar (Decimal.lt_pow_of_le_maxDigits (by decide))))
  have hwhole : Condition.Agree ⟨"age", ">=", .float (.finite
      ⟨false, 2 ^ 52, -52, by decide, by decide, by decide, by decide⟩)⟩ ⟨"age", ">=", .int 1⟩ :=
    ⟨rfl, rfl, rfl⟩
  exact ⟨s, t, hs, ht, hiff.2 ⟨rfl, rfl, rfl, .cons hwhole (.cons ⟨rfl, rfl, rfl⟩ .nil), rfl⟩⟩

end StructuredQuery

end FluentQuery
