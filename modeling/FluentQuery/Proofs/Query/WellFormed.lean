/-
  Every query that is built is well formed, whatever the text is (`isWellFormed_of_parseAndBuild`): it has
  a positive limit, no field in it is empty, its conditions are those of the text, combined in one of three
  shapes, and the values in them are wire values. A query is built for every text and every default, unless
  an integer has more than 4300 digits (`exists_parseAndBuild_iff`).
-/
import FluentQuery.Proofs.Expression.OperandValues
import FluentQuery.Proofs.Query.Clauses
import FluentQuery.Proofs.Query.Distinct
import FluentQuery.Proofs.Wire.Tagged

namespace FluentQuery

/-! ## The parameters of an expression -/

namespace Query

theorem one_le_of_usableLimit {limit fallback : Int} (h : usableLimit limit = .ok fallback) :
    1 ≤ fallback := by
  rw [eq_of_usableLimit h]
  split
  · assumption
  · decide

theorem one_le_of_parseLimit {text : Text} {fallback limit : Int} (hfallback : 1 ≤ fallback)
    (h : parseLimit text fallback = .ok limit) : 1 ≤ limit := by
  cases hfirst : firstPlace? limitCall? text with
  | none =>
    rw [parseLimit_of_none hfirst] at h
    cases h
    exact hfallback
  | some digits =>
    obtain ⟨values, -, -, -, hparse⟩ := parseLimit_of_some hfirst fallback
    rw [hparse] at h
    obtain ⟨n, -, rfl⟩ := map_eq_ok_iff.1 h
    split
    · exact hfallback
    · omega

/-- Neither a limit of zero nor a default that is not positive gets through. -/
theorem exists_positive_limit_of_parse {text collection : Text} {limit : Int} {params : QueryParameters}
    (h : parse text collection limit = .ok params) : ∃ n : Int, 1 ≤ n ∧ params.limit = .int n := by
  obtain ⟨used, hread, hlimit⟩ := exists_limit_of_parse h
  obtain ⟨⟨fallback, hfallback, hused⟩, -, -⟩ := limitAndConditions_eq_ok_iff.1 hread
  exact ⟨used, one_le_of_parseLimit (one_le_of_usableLimit hfallback) hused, hlimit⟩

theorem ne_nil_of_nonempty? {text found : Text} (h : nonempty? text = some found) : found ≠ [] := by
  cases text with
  | nil => cases h
  | cons c text =>
    cases h
    exact List.cons_ne_nil c text

theorem ne_nil_of_mem_parseSelect {text field : Text} (h : field ∈ parseSelect text) : field ≠ [] := by
  unfold parseSelect at h
  split at h
  · cases h
  · obtain ⟨argument, -, hfield⟩ := List.mem_filterMap.1 h
    obtain ⟨content, -, hfield⟩ := Option.bind_eq_some_iff.1 hfield
    exact ne_nil_of_nonempty? hfield

theorem field_ne_nil_of_parseOrdering {text : Text} {ordering : OrderBy}
    (h : parseOrdering text = some ordering) : ordering.field ≠ [] := by
  obtain ⟨place, hplace⟩ := exists_of_firstPlace? h
  simp only [orderingCall?, Option.bind_eq_bind, Option.bind_eq_some_iff] at hplace
  obtain ⟨-, -, inside, -, ⟨field, behind⟩, hliteral, -, -, hordering⟩ := hplace
  obtain ⟨-, -, -, -, -, -, hne, -⟩ := Call.literal?_eq_some_iff.1 hliteral
  cases hordering
  exact hne

theorem field_ne_nil_of_written {text : Text} {texts : Text × Text × Text}
    (h : texts ∈ writtenConditions text) : texts.1 ≠ [] := by
  obtain ⟨inside, -, htexts⟩ := List.mem_filterMap.1 h
  unfold conditionTexts? at htexts
  split at htexts
  · simp only [Option.bind_eq_bind, Option.bind_eq_some_iff] at htexts
    obtain ⟨field, ⟨content, -, hfield⟩, operator, -, operand, -, heq⟩ := htexts
    cases heq
    exact ne_nil_of_nonempty? hfield
  · cases htexts

theorem forall₂_written_of_parse {text collection : Text} {limit : Int} {params : QueryParameters}
    (h : parse text collection limit = .ok params) :
    List.Forall₂ IsWrittenAs (writtenConditions text) params.conditions :=
  parseConditions_eq_ok_iff.1 (conditions_of_parse h)

end Query

/-- The fields that a query names: those that are selected, those of conditions and that of the order. -/
def QueryParameters.fields (params : QueryParameters) : List Text :=
  params.select ++ params.conditions.map (·.field) ++ params.ordering.toList.map (·.field)

namespace Query

theorem select_and_ordering_of_parse {text collection : Text} {limit : Int} {params : QueryParameters}
    (h : parse text collection limit = .ok params) :
    params.select = parseSelect text ∧ params.ordering = parseOrdering text := by
  rw [parse_eq] at h
  obtain ⟨read, -, rfl⟩ := map_eq_ok_iff.1 h
  exact ⟨rfl, rfl⟩

theorem ne_nil_of_mem_fields {text collection field : Text} {limit : Int} {params : QueryParameters}
    (h : parse text collection limit = .ok params) (hfield : field ∈ params.fields) : field ≠ [] := by
  obtain ⟨hselect, hordering⟩ := select_and_ordering_of_parse h
  simp only [QueryParameters.fields, List.mem_append, List.mem_map, Option.mem_toList] at hfield
  obtain (hmem | ⟨c, hc, rfl⟩) | ⟨ordering, hmem, rfl⟩ := hfield
  · exact ne_nil_of_mem_parseSelect (hselect ▸ hmem)
  · obtain ⟨texts, htexts, hwritten⟩ := forall₂_exists_of_mem_right (forall₂_written_of_parse h) hc
    rw [hwritten.1]
    exact field_ne_nil_of_written htexts
  · exact field_ne_nil_of_parseOrdering (hordering ▸ hmem)

end Query

/-! ## Building -/

namespace Query

theorem isOperand_of_parse {text collection : Text} {limit : Int} {params : QueryParameters}
    (h : parse text collection limit = .ok params) : ∀ c ∈ params.conditions, c.value.IsOperand := by
  intro c hc
  obtain ⟨texts, -, hwritten⟩ := forall₂_exists_of_mem_right (forall₂_written_of_parse h) hc
  exact Operand.isOperand_of_parse hwritten.2.2

/-- What is parsed is built, with the filters of its conditions. -/
theorem exists_built_of_parse {text collection : Text} {limit : Int} {params : QueryParameters}
    (h : parse text collection limit = .ok params) :
    ∃ fs, StructuredQuery.build params = .ok (.ofFilters params fs) ∧
      List.Forall₂ FieldFilter.Carries fs params.conditions := by
  obtain ⟨fs, hfs, hcarries⟩ := exists_filters fun c hc =>
    (isOperand_of_parse h c hc).exists_writesAs.imp fun _ hw => hw.encode
  exact ⟨fs, StructuredQuery.build_eq_ofFilters hfs hcarries, hcarries⟩

/-- A query is built for every text and every default limit, unless an integer has too many digits. -/
theorem exists_parseAndBuild_iff (text collection : Text) (limit : Int) :
    (∃ built, parseAndBuild text collection limit = .ok built) ↔ ¬HasLongInteger text limit := by
  rw [← (parse_refusedIff text collection limit).exists_ok_iff]
  constructor
  · rintro ⟨built, h⟩
    obtain ⟨params, hparams, -⟩ := bind_eq_ok_iff.1 h
    exact ⟨params, hparams⟩
  · rintro ⟨params, h⟩
    obtain ⟨fs, hbuild, -⟩ := exists_built_of_parse h
    exact ⟨(params, .ofFilters params fs),
      bind_eq_ok_iff.2 ⟨params, h, bind_eq_ok_iff.2 ⟨_, hbuild, rfl⟩⟩⟩

end Query

/-! ## The tree that is sent -/

/-- What stands in a map under the text. -/
def Value.member? (name : Text) : Value → Option Value
  | .map entries => Entries.get? name entries
  | _ => none

theorem under_record (name : Text) (entries : List (Text × Value)) : (record entries).under name =
    entries.flatMap fun e => (if name = e.1 then [e.2] else []) ++ e.2.under name :=
  Value.under_named name entries

/-- What stands under a text that names no clause, stands in the clauses. -/
theorem under_present {name : Text} {clauses : List (Text × Option Value)}
    (hname : name ∉ clauses.map (·.1)) : (record (present clauses)).under name =
      clauses.flatMap fun clause => clause.2.toList.flatMap (Value.under name) := by
  rw [under_record]
  induction clauses with
  | nil => rfl
  | cons clause rest ih =>
    obtain ⟨other, v⟩ := clause
    rw [List.map_cons, List.mem_cons, not_or] at hname
    have hrest := ih hname.2
    cases v with
    | none => exact hrest
    | some v =>
      rw [present_cons_some, List.flatMap_cons, List.flatMap_cons, hrest, if_neg hname.1,
        Option.toList_some, List.flatMap_singleton]
      rfl

theorem lookup_present {clauses : List (Text × Option Value)} (hnodup : (clauses.map (·.1)).Nodup)
    (name : Text) : (present clauses).lookup name = (clauses.lookup name).join := by
  induction clauses with
  | nil => rfl
  | cons clause rest ih =>
    obtain ⟨other, v⟩ := clause
    rw [List.map_cons, List.nodup_cons] at hnodup
    have hrest := ih hnodup.2
    by_cases hname : name = other
    · subst hname
      rw [List.lookup_cons_self, Option.join_some]
      cases v with
      | none =>
        -- The clause is left out, and no later one has its name.
        rw [present_cons_none, List.lookup_eq_none_iff]
        intro entry hentry
        have hne : name ≠ entry.1 := by
          rintro rfl
          exact hnodup.1 (name_mem_of_mem_present hentry)
        exact bne_iff_ne.2 hne
      | some v => rw [present_cons_some, List.lookup_cons_self]
    · have hne : (name == other) = false := beq_eq_false_iff_ne.2 hname
      rw [List.lookup_cons, hne]
      cases v with
      | none => rw [present_cons_none, hrest]
      | some v => rw [present_cons_some, List.lookup_cons, hne, hrest]

theorem StructuredQuery.member?_toValue (query : StructuredQuery) (name : Text) :
    query.toValue.member? name = (query.clauses.lookup name).join := by
  rw [← lookup_present query.clauses_nodup]
  exact Entries.get?_named name (present query.clauses)

/-- The filters of single fields in a filter. -/
def Filter.members : Filter → List FieldFilter
  | .field filter => [filter]
  | .all filters => filters

theorem FieldFilter.under_toValue (filter : FieldFilter) :
    filter.toValue.under "fieldPath" = .text filter.field :: filter.value.under "fieldPath" := by
  have h : filter.toValue.under "fieldPath" =
    .text filter.field :: (filter.value.under "fieldPath" ++ []) ++ [] := rfl
  rwa [List.append_nil, List.append_nil] at h

/-- The fields of filters are those of their members, and no other field stands in a filter. -/
theorem Filter.under_toValue {filter : Filter}
    (h : ∀ f ∈ filter.members, f.value.under "fieldPath" = []) :
    filter.toValue.under "fieldPath" = filter.members.map fun f => .text f.field := by
  have hmember : ∀ f ∈ filter.members, f.toValue.under "fieldPath" = [.text f.field] := by
    intro f hf
    rw [f.under_toValue, h f hf]
  cases filter with
  | field f => exact hmember f List.mem_cons_self
  | all fs =>
    have hfilters : (all fs).toValue.under "fieldPath" =
      (Value.list (fs.map FieldFilter.toValue)).under "fieldPath" ++ [] ++ [] := rfl
    rw [hfilters, List.append_nil, List.append_nil, Value.under_list, List.flatMap_map,
      List.map_eq_flatMap]
    exact List.flatMap_congr hmember

theorem under_select (fields : List Text) :
    (record [("fields", .list (fields.map fieldPath))]).under "fieldPath" = fields.map Value.text := by
  have hfields : (record [("fields", .list (fields.map fieldPath))]).under "fieldPath" =
    (Value.list (fields.map fieldPath)).under "fieldPath" ++ [] := rfl
  rw [hfields, List.append_nil, Value.under_list, List.flatMap_map, List.map_eq_flatMap]
  rfl

/-- The fields that a query names are all that stands under `fieldPath` in its tree. -/
theorem StructuredQuery.under_toValue {query : StructuredQuery}
    (hlimit : query.limit.under "fieldPath" = [])
    (hfilter : ∀ filter ∈ query.filter, ∀ f ∈ filter.members, f.value.under "fieldPath" = []) :
    query.toValue.under "fieldPath" = (query.select.getD [] ++
      (query.filter.toList.flatMap fun filter => filter.members.map (·.field)) ++
        query.ordering.toList.map (·.1)).map Value.text := by
  have hnames : (("fieldPath" : String) : Text) ∉ query.clauses.map (·.1) := by
    have hnames : (("fieldPath" : String) : Text) ∉ [("from" : String), "limit", "select", "where",
      "orderBy"].map fun name : String => (name : Text) := by decide
    exact hnames
  have hfrom : (Value.list [record [("collectionId", .text query.collectionId)]]).under "fieldPath" =
    [] := rfl
  have hselect : (query.select.toList.flatMap fun fields =>
      (record [("fields", .list (fields.map fieldPath))]).under "fieldPath") =
        (query.select.getD []).map Value.text := by
    cases query.select with
    | none => rfl
    | some fields =>
      rw [Option.toList_some, List.flatMap_singleton]
      exact under_select fields
  have hfilters : (query.filter.toList.flatMap fun filter => filter.toValue.under "fieldPath") =
      query.filter.toList.flatMap fun filter => filter.members.map fun f => Value.text f.field :=
    List.flatMap_congr fun filter hmem =>
      Filter.under_toValue (hfilter filter (Option.mem_toList.1 hmem))
  have hordering : (query.ordering.toList.flatMap fun order =>
      (Value.list [orderValue order.1 order.2]).under "fieldPath") =
        query.ordering.toList.map fun order => Value.text order.1 := by
    rw [List.map_eq_flatMap]
    rfl
  refine (under_present hnames).trans ?_
  simp only [clauses, List.flatMap_cons, List.flatMap_nil, Option.toList_map, Option.toList_some,
    List.flatMap_map, List.append_nil, hfrom, hlimit, hselect, hfilters, hordering]
  simp only [List.map_append, List.map_flatMap, List.map_map, List.nil_append, List.append_assoc]
  rfl

/-! ## Well-formed queries -/

/-- The clause for some filters: none, the bare filter, or all of them combined with AND. -/
def whereClause? : List FieldFilter → Option Value
  | [] => none
  | [filter] => some filter.toValue
  | filters => some (record [("compositeFilter", record
      [("op", .text "AND"), ("filters", .list (filters.map FieldFilter.toValue))])])

theorem whereClause?_eq (filters : List FieldFilter) :
    whereClause? filters = (Filter.combined? filters).map Filter.toValue := by
  match filters with
  | [] | [_] | _ :: _ :: _ => rfl

theorem whereClause?_eq_none_iff {filters : List FieldFilter} :
    whereClause? filters = none ↔ filters = [] := by
  match filters with
  | [] => exact iff_of_true rfl rfl
  | [_] | _ :: _ :: _ => exact iff_of_false nofun nofun

theorem whereClause?_eq_fieldFilter_iff {filters : List FieldFilter} :
    (∃ payload, whereClause? filters = some (record [("fieldFilter", payload)])) ↔
      ∃ filter, filters = [filter] := by
  have htags : (("compositeFilter" : String) : Text) ≠ ("fieldFilter" : String) := by decide
  match filters with
  | [] => exact iff_of_false (fun ⟨_, h⟩ => nomatch h) (fun ⟨_, h⟩ => nomatch h)
  | [filter] => exact iff_of_true ⟨_, rfl⟩ ⟨filter, rfl⟩
  | _ :: _ :: _ =>
    refine iff_of_false ?_ (fun ⟨_, h⟩ => nomatch h)
    rintro ⟨payload, h⟩
    exact htags (record_singleton_inj.1 (Option.some.inj h)).1

/-- A query is well formed for the parameters of a text. -/
structure IsWellFormed (text : Text) (params : QueryParameters) (query : Value) : Prop where
  /-- The limit of the parameters is sent, and it is positive. -/
  limit : ∃ n : Int, 1 ≤ n ∧ params.limit = .int n ∧ query.member? "limit" = some (.int n)
  /-- Wherever a field is named in the query, it is one of the parameters. -/
  fieldPaths : query.under "fieldPath" = params.fields.map Value.text
  fields_nonempty : ∀ field ∈ params.fields, field ≠ []
  /-- The conditions are those of the text, as many and in their order. -/
  written : List.Forall₂ Query.IsWrittenAs (Query.writtenConditions text) params.conditions
  /-- Each condition has its filter, the value of which has one tag at every level. -/
  filters : ∃ filters, List.Forall₂ FieldFilter.Carries filters params.conditions ∧
    (∀ f ∈ filters, Wire.IsTagged f.value) ∧ query.member? "where" = whereClause? filters
  absent : query.member? "where" = none ↔ params.conditions = []
  single : (∃ payload, query.member? "where" = some (record [("fieldFilter", payload)])) ↔
    ∃ c, params.conditions = [c]

namespace StructuredQuery

theorem members_combined? (filters : List FieldFilter) :
    ((Filter.combined? filters).toList.flatMap fun filter => filter.members.map (·.field)) =
      filters.map (·.field) := by
  match filters with
  | [] | [_] => rfl
  | _ :: _ :: _ => exact List.append_nil _

theorem mem_of_mem_combined? {filters : List FieldFilter} {filter : Filter}
    (h : filter ∈ Filter.combined? filters) : filter.members = filters := by
  match filters with
  | [] => cases h
  | [_] | _ :: _ :: _ =>
    cases h
    rfl

theorem selection_getD (select : List Text) :
    (if select.isEmpty then none else some select).getD [] = select := by
  cases select <;> rfl

/-- The fields of a query that is built are those of its parameters. -/
theorem under_ofFilters {params : QueryParameters} {filters : List FieldFilter} {n : Int}
    (hlimit : params.limit = .int n)
    (hcarries : List.Forall₂ FieldFilter.Carries filters params.conditions)
    (hvalues : ∀ f ∈ filters, f.value.under "fieldPath" = []) :
    (ofFilters params filters).toValue.under "fieldPath" = params.fields.map Value.text := by
  have hfields : filters.map (·.field) = params.conditions.map (·.field) := by
    rw [← List.forall₂_eq_eq_eq, List.forall₂_map_left_iff, List.forall₂_map_right_iff]
    exact hcarries.imp fun f c h => h.field
  have hlimit' : (ofFilters params filters).limit.under "fieldPath" = [] := by
    unfold ofFilters
    rw [hlimit]
    rfl
  rw [under_toValue hlimit' fun filter hfilter f hf =>
    hvalues f (mem_of_mem_combined? hfilter ▸ hf)]
  unfold ofFilters QueryParameters.fields
  dsimp only
  rw [members_combined?, hfields, selection_getD]
  cases params.ordering <;> rfl

theorem member?_limit (query : StructuredQuery) : query.toValue.member? "limit" = some query.limit :=
  query.member?_toValue "limit"

theorem member?_where (query : StructuredQuery) :
    query.toValue.member? "where" = query.filter.map Filter.toValue :=
  query.member?_toValue "where"

end StructuredQuery

/-- Filters of operands have wire values, with no field in them. -/
theorem FieldFilter.Carries.isTagged {f : FieldFilter} {c : Condition} (h : f.Carries c)
    (hc : c.value.IsOperand) : Wire.IsTagged f.value ∧ f.value.under "fieldPath" = [] := by
  refine ⟨Wire.isTagged_encode h.value, ?_⟩
  obtain ⟨w, hw⟩ := hc.exists_writesAs
  cases h.value.symm.trans hw.encode
  exact hw.under "fieldPath" (by decide)

/-- Every query that is built is well formed. -/
theorem isWellFormed_of_parseAndBuild {text collection : Text} {limit : Int}
    {params : QueryParameters} {query : StructuredQuery}
    (h : Query.parseAndBuild text collection limit = .ok (params, query)) :
    IsWellFormed text params query.toValue := by
  obtain ⟨params, hparse, h⟩ := bind_eq_ok_iff.1 h
  obtain ⟨query, hbuild, ⟨⟩⟩ := bind_eq_ok_iff.1 h
  obtain ⟨filters, hbuilt, hcarries⟩ := Query.exists_built_of_parse hparse
  cases hbuild.symm.trans hbuilt
  obtain ⟨n, hpos, hlimit⟩ := Query.exists_positive_limit_of_parse hparse
  -- A value that held a field of its own would be counted among those of the query.
  have hvalues : ∀ f ∈ filters, Wire.IsTagged f.value ∧ f.value.under "fieldPath" = [] := by
    intro f hf
    obtain ⟨c, hc, hcarry⟩ := forall₂_exists_of_mem_right hcarries.flip hf
    exact FieldFilter.Carries.isTagged hcarry (Query.isOperand_of_parse hparse c hc)
  have hwhere : (StructuredQuery.ofFilters params filters).toValue.member? "where" =
      whereClause? filters :=
    (StructuredQuery.member?_where _).trans (whereClause?_eq filters).symm
  refine ⟨⟨n, hpos, hlimit, ?_⟩, ?_, fun field => Query.ne_nil_of_mem_fields hparse,
    Query.forall₂_written_of_parse hparse,
    ⟨filters, hcarries, fun f hf => (hvalues f hf).1, hwhere⟩, ?_, ?_⟩
  · rw [← hlimit]
    exact StructuredQuery.member?_limit _
  · exact StructuredQuery.under_ofFilters hlimit hcarries fun f hf => (hvalues f hf).2
  · rw [hwhere, whereClause?_eq_none_iff, ← List.length_eq_zero_iff, ← List.length_eq_zero_iff,
      hcarries.length_eq]
  · rw [hwhere, whereClause?_eq_fieldFilter_iff, ← List.length_eq_one_iff,
      ← List.length_eq_one_iff, hcarries.length_eq]

/-- Two conditions, one of them with a list; an empty selected field is passed over, and a default that is
not positive is replaced. -/
theorem isWellFormed_two_conditions : IsWellFormed
    ".where('a', 'in', [1, 'x']).orderBy('b').select('d', '').where('c', '==', true)"
    ⟨"users", .int 50, ["d"], [⟨"a", "in", .list [.int 1, .text "x"]⟩, ⟨"c", "==", .bool true⟩],
      some ⟨"b", "asc"⟩⟩
    (StructuredQuery.mk "users" (.int 50) (some ["d"]) (some (.all
      [⟨"a", .isIn, Wire.tagged "arrayValue" (.map [(.text "values",
          .list [Wire.tagged "integerValue" (.text "1"), Wire.tagged "stringValue" (.text "x")])])⟩,
        ⟨"c", .equal, Wire.tagged "booleanValue" (.bool true)⟩]))
      (some ("b", .ascending))).toValue := by
  have hone : Operand.parse "1" = .ok (.int 1) := by
    rw [Operand.parse_eq]
    rfl
  have htext : Operand.parse "'x'" = .ok (.text "x") := by
    rw [Operand.parse_eq]
    rfl
  have hlist : Operand.parse "[1, 'x']" = .ok (.list [.int 1, .text "x"]) := by
    have hform : Operand.formOf (Text.trim "[1, 'x']") = .items ["1", "'x'"] := by rfl
    rw [Operand.parse_eq, hform]
    dsimp only
    rw [mapM_eq_ok_iff.2 (.cons hone (.cons htext .nil))]
    rfl
  have htrue : Operand.parse "true" = .ok (.bool true) := by
    rw [Operand.parse_eq]
    rfl
  have hwritten : Query.writtenConditions
      ".where('a', 'in', [1, 'x']).orderBy('b').select('d', '').where('c', '==', true)" =
        ([("a", "in", "[1, 'x']"), ("c", "==", "true")] : List (Text × Text × Text)) := rfl
  have hconditions : Query.parseConditions
      ".where('a', 'in', [1, 'x']).orderBy('b').select('d', '').where('c', '==', true)" =
        .ok [⟨"a", "in", .list [.int 1, .text "x"]⟩, ⟨"c", "==", .bool true⟩] := by
    rw [Query.parseConditions_eq_ok_iff, hwritten]
    exact .cons ⟨rfl, rfl, hlist⟩ (.cons ⟨rfl, rfl, htrue⟩ .nil)
  have hread := Query.limitAndConditions_eq_ok_iff.2
    ⟨⟨50, (rfl : Query.usableLimit (-3) = .ok 50), rfl⟩, hconditions, rfl⟩
  have hparse := Query.parse_eq
    ".where('a', 'in', [1, 'x']).orderBy('b').select('d', '').where('c', '==', true)" "users" (-3)
  rw [hread] at hparse
  exact isWellFormed_of_parseAndBuild (bind_eq_ok_iff.2 ⟨_, hparse, rfl⟩)

end FluentQuery
