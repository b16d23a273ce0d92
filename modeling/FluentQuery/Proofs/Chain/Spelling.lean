/-
  Queries as they are spelled: chains of calls, with any quotes around the literals, blanks around every
  parenthesis, bracket and comma, the clauses in any order, and calls without arguments among them.
  `SpellsQuery` says which query a chain spells. The pieces of a chain carry what makes them well
  formed, so every list of calls can be spelled.
-/
import FluentQuery.Proofs.Chain.Places
import FluentQuery.Proofs.Text.Trim
import FluentQuery.Query.Basic

namespace FluentQuery

/-- A text without quotes, backslashes and opening parentheses. -/
def Text.IsPlain (text : Text) : Prop := ∀ c ∈ text, c ∉ marks ∧ c ≠ Text.backslash

instance (text : Text) : Decidable text.IsPlain :=
  inferInstanceAs (Decidable (∀ c ∈ text, c ∉ marks ∧ c ≠ Text.backslash))

namespace Spelling

/-- Some blanks, or none. -/
structure Blanks where
  text : Text
  blank : text.all Text.isBlank = true

/-- Something with blanks around it. -/
structure Padded (α : Type) where
  front : Blanks
  item : α
  back : Blanks

/-- No blanks. -/
def Blanks.none : Blanks := ⟨[], rfl⟩

/-- Something without blanks around it. -/
def Padded.bare {α : Type} (item : α) : Padded α := ⟨.none, item, .none⟩

/-- The spelling of something and of the blanks around it. -/
def Padded.spell {α : Type} (spell : α → Text) (p : Padded α) : Text :=
  p.front.text ++ (spell p.item ++ p.back.text)

/-! ## Operands -/

/-- A plain text in quotes of any kind. -/
structure Literal where
  quote : CodePoint
  content : Text
  quote_mem : quote ∈ literalQuotes
  plain : content.IsPlain

/-- The content between its quotes. -/
def Literal.spell (l : Literal) : Text := l.quote :: (l.content ++ [l.quote])

/-- A literal with something in it. -/
structure Name extends Literal where
  nonempty : content ≠ []

/-- A truth value as a word. -/
def boolWord (b : Bool) : Text := if b then "true" else "false"

/-- Which texts spell a value: truth values, integers of at most 4300 digits, plain texts, and lists of
such values to any depth. -/
inductive Spells : Text → Value → Prop
  | bool (b : Bool) : Spells (boolWord b) (.bool b)
  | int {n : Int} : n.natAbs < 10 ^ Decimal.maxDigits → Spells (Decimal.ofInt n) (.int n)
  | text (l : Literal) : Spells l.spell (.text l.content)
  | nil (blanks : Blanks) : Spells ('[' :: (blanks.text ++ [CodePoint.char ']'])) (.list [])
  | list {items : List (Padded (Text × Value))} : items ≠ [] →
      (∀ i ∈ items, Spells i.item.1 i.item.2) →
      Spells ('[' :: (Text.join [','] (items.map (Padded.spell Prod.fst)) ++ [CodePoint.char ']']))
        (.list (items.map fun i => i.item.2))

/-- A value with a text that spells it. -/
structure SpelledValue where
  text : Text
  value : Value
  spells : Spells text value

/-! ## Calls -/

/-- A positive number of at most 4300 digits. -/
structure Count where
  number : Nat
  pos : 1 ≤ number
  bounded : number < 10 ^ Decimal.maxDigits

/-- One of the words for the two directions, each letter in any case. -/
structure Direction extends Literal where
  word : content.map CodePoint.toLower = "asc" ∨ content.map CodePoint.toLower = "desc"

/-- The name of a call that no clause is looked for in: any identifier but the one of a selection. -/
structure OtherName where
  name : Text
  identifier : ∀ c ∈ name, Text.isIdentChar c = true
  ne_select : name ≠ "select"

/-- A call with its arguments. -/
inductive Clause where
  | collection (name : Padded Name)
  | limit (count : Padded Count)
  | select (fields : List (Padded Name)) (nonempty : fields ≠ [])
  | condition (field operator : Padded Name) (value : Padded SpelledValue)
  | ordering (field : Padded Name) (direction : Option (Padded Direction))
  | other (name : OtherName) (inside : Blanks)

namespace Clause

/-- The name of the call. -/
def callName : Clause → Text
  | collection _ => "collection"
  | limit _ => "limit"
  | select _ _ => "select"
  | condition _ _ _ => "where"
  | ordering _ _ => "orderBy"
  | other name _ => name.name

/-- The arguments of the call, each with the blanks around it. -/
def arguments : Clause → List Text
  | collection name => [name.spell fun n => n.spell]
  | limit count => [count.spell fun n => Decimal.ofNat n.number]
  | select fields _ => fields.map (Padded.spell fun n => n.spell)
  | condition field operator value =>
    [field.spell fun n => n.spell, operator.spell fun n => n.spell, value.spell SpelledValue.text]
  | ordering field none => [field.spell fun n => n.spell]
  | ordering field (some direction) => [field.spell fun n => n.spell, direction.spell fun d => d.spell]
  | other _ inside => [inside.text]

/-- What stands between the parentheses of the call. -/
def inside (clause : Clause) : Text := Text.join [','] clause.arguments

/-- The collection that the call names. -/
def collection? : Clause → Option Text
  | collection name => some name.item.content
  | _ => none

/-- The limit that the call sets. -/
def limit? : Clause → Option Nat
  | limit count => some count.item.number
  | _ => none

/-- The fields that the call selects. -/
def select? : Clause → Option (List Text)
  | select fields _ => some (fields.map fun f => f.item.content)
  | _ => none

/-- The condition that the call states. -/
def condition? : Clause → Option Condition
  | condition field operator value =>
    some ⟨field.item.content, operator.item.content, value.item.value⟩
  | _ => none

/-- The ordering that the call states, ascending unless it says otherwise. -/
def ordering? : Clause → Option OrderBy
  | ordering field none => some ⟨field.item.content, "asc"⟩
  | ordering field (some direction) =>
    some ⟨field.item.content, direction.item.content.map CodePoint.toLower⟩
  | _ => none

end Clause

/-- A call in a chain, with blanks before its opening and behind its closing parenthesis. -/
structure Call where
  clause : Clause
  gap : Blanks
  behind : Blanks

namespace Call

/-- The call before its opening parenthesis. -/
def front (call : Call) : Text := call.clause.callName ++ call.gap.text

/-- The whole call. -/
def spell (call : Call) : Text :=
  callText call.front (call.clause.inside ++ CodePoint.char ')' :: call.behind.text)

end Call

/-- The calls in a row. -/
def spellChain (calls : List Call) : Text := calls.flatMap Call.spell

/-- Which query the calls spell: one call names its collection, one sets its limit, one selects its
fields if there are any, its conditions stand in order, and one call orders it if it is ordered. -/
structure SpellsQuery (calls : List Call) (query : QueryParameters) : Prop where
  collection : calls.filterMap (·.clause.collection?) = [query.collection]
  limit : (calls.filterMap (·.clause.limit?)).map (fun n : Nat => Value.int n) = [query.limit]
  select : calls.filterMap (·.clause.select?) = if query.select = [] then [] else [query.select]
  conditions : calls.filterMap (·.clause.condition?) = query.conditions
  ordering : calls.filterMap (·.clause.ordering?) = query.ordering.toList

/-! ## What can be spelled -/

/-- A plain text with something in it. -/
def IsName (text : Text) : Prop := text ≠ [] ∧ text.IsPlain

/-- The values that have a spelling. -/
inductive IsSpellable : Value → Prop
  | bool (b : Bool) : IsSpellable (.bool b)
  | int {n : Int} : n.natAbs < 10 ^ Decimal.maxDigits → IsSpellable (.int n)
  | text {s : Text} : s.IsPlain → IsSpellable (.text s)
  | list {items : List Value} : (∀ v ∈ items, IsSpellable v) → IsSpellable (.list items)

/-- The queries that have a spelling. -/
structure IsSpellableQuery (query : QueryParameters) : Prop where
  collection : IsName query.collection
  limit : ∃ n : Nat, query.limit = .int n ∧ 1 ≤ n ∧ n < 10 ^ Decimal.maxDigits
  select : ∀ field ∈ query.select, IsName field
  conditions : ∀ c ∈ query.conditions, IsName c.field ∧ IsName c.operator ∧ IsSpellable c.value
  ordering : ∀ o ∈ query.ordering, IsName o.field ∧ (o.direction = "asc" ∨ o.direction = "desc")

theorem exists_spells_items {items : List Value} (h : ∀ v ∈ items, ∃ text, Spells text v) :
    ∃ spelled : List (Padded (Text × Value)), (∀ i ∈ spelled, Spells i.item.1 i.item.2) ∧
      spelled.map (fun i => i.item.2) = items := by
  induction items with
  | nil => exact ⟨[], fun i hi => absurd hi List.not_mem_nil, rfl⟩
  | cons v rest ih =>
    obtain ⟨text, htext⟩ := h v List.mem_cons_self
    obtain ⟨spelled, hspelled, hitems⟩ := ih fun u hu => h u (List.mem_cons_of_mem v hu)
    refine ⟨.bare (text, v) :: spelled, fun i hi => ?_, ?_⟩
    · rcases List.mem_cons.1 hi with rfl | hi
      · exact htext
      · exact hspelled i hi
    · rw [List.map_cons, hitems]
      rfl

theorem IsSpellable.exists_spells {v : Value} (h : IsSpellable v) : ∃ text, Spells text v := by
  induction h with
  | bool b => exact ⟨_, .bool b⟩
  | int hn => exact ⟨_, .int hn⟩
  | @text s hs => exact ⟨_, .text ⟨Text.singleQuote, s, by decide, hs⟩⟩
  | list _ ih =>
    obtain ⟨spelled, hspelled, rfl⟩ := exists_spells_items ih
    by_cases hne : spelled = []
    · rw [hne]
      exact ⟨_, .nil .none⟩
    · exact ⟨_, .list hne hspelled⟩

/-- A name in single quotes. -/
def IsName.spelled {text : Text} (h : IsName text) : Padded Name :=
  .bare ⟨⟨Text.singleQuote, text, by decide, h.2⟩, h.1⟩

/-- A call without blanks. -/
def Call.bare (clause : Clause) : Call := ⟨clause, .none, .none⟩

section

variable {calls : List Call} {query : QueryParameters} (h : SpellsQuery calls query)

include h

theorem SpellsQuery.add_select {fields : List Text} (hquery : query.select = [])
    (hfields : ∀ field ∈ fields, IsName field) :
    ∃ calls, SpellsQuery calls { query with select := fields } := by
  obtain ⟨hcollection, hlimit, hselect, hconditions, hordering⟩ := h
  rw [if_pos hquery] at hselect
  by_cases hne : fields = []
  · refine ⟨calls, hcollection, hlimit, ?_, hconditions, hordering⟩
    rw [hselect, if_pos hne]
  · have hcontents : (fields.attach.map fun f => (hfields f.1 f.2).spelled).map
        (fun f => f.item.content) = fields := by
      rw [List.map_map]
      exact List.attach_map_subtype_val fields
    refine ⟨.bare (.select (fields.attach.map fun f => (hfields f.1 f.2).spelled) ?_) :: calls,
      hcollection, hlimit, ?_, hconditions, hordering⟩
    · simpa using hne
    · rw [if_neg hne]
      exact congrArg₂ List.cons hcontents hselect

theorem SpellsQuery.add_ordering {o : OrderBy} (hquery : query.ordering = none)
    (hfield : IsName o.field) (hdirection : o.direction = "asc" ∨ o.direction = "desc") :
    ∃ calls, SpellsQuery calls { query with ordering := some o } := by
  obtain ⟨hcollection, hlimit, hselect, hconditions, hordering⟩ := h
  rw [hquery] at hordering
  obtain ⟨field, direction⟩ := o
  have hspelled : ∃ d : Direction, d.content.map CodePoint.toLower = direction := by
    rcases hdirection with rfl | rfl
    · exact ⟨⟨⟨Text.singleQuote, "asc", by decide, by decide⟩, by decide⟩, by decide⟩
    · exact ⟨⟨⟨Text.singleQuote, "desc", by decide, by decide⟩, by decide⟩, by decide⟩
  obtain ⟨d, rfl⟩ := hspelled
  refine ⟨.bare (.ordering hfield.spelled (some (.bare d))) :: calls,
    hcollection, hlimit, hselect, hconditions, ?_⟩
  exact congrArg (_ :: ·) hordering

theorem SpellsQuery.add_conditions {conditions : List Condition} (hquery : query.conditions = [])
    (hconditions : ∀ c ∈ conditions, IsName c.field ∧ IsName c.operator ∧ IsSpellable c.value) :
    ∃ calls, SpellsQuery calls { query with conditions := conditions } := by
  induction conditions with
  | nil => exact ⟨calls, h.collection, h.limit, h.select, h.conditions.trans hquery, h.ordering⟩
  | cons c rest ih =>
    obtain ⟨hfield, hoperator, hvalue⟩ := hconditions c List.mem_cons_self
    obtain ⟨text, hspells⟩ := hvalue.exists_spells
    obtain ⟨calls, hcollection, hlimit, hselect, hrest, hordering⟩ :=
      ih fun d hd => hconditions d (List.mem_cons_of_mem c hd)
    refine ⟨.bare (.condition hfield.spelled hoperator.spelled (.bare ⟨text, _, hspells⟩)) :: calls,
      hcollection, hlimit, hselect, ?_, hordering⟩
    exact congrArg (c :: ·) hrest

end

/-- Every query over plain texts has a spelling. -/
theorem exists_spellsQuery {query : QueryParameters} (h : IsSpellableQuery query) :
    ∃ calls, SpellsQuery calls query := by
  obtain ⟨n, hn, hpos, hbounded⟩ := h.limit
  have hbase : SpellsQuery
      [.bare (.collection h.collection.spelled), .bare (.limit (.bare ⟨n, hpos, hbounded⟩))]
      ⟨query.collection, query.limit, [], [], none⟩ := by
    rw [hn]
    exact ⟨rfl, rfl, rfl, rfl, rfl⟩
  obtain ⟨calls, hselect⟩ := hbase.add_select rfl h.select
  obtain ⟨calls, hconditions⟩ := hselect.add_conditions rfl h.conditions
  cases hordering : query.ordering with
  | none =>
    refine ⟨calls, ?_⟩
    rw [← hordering] at hconditions
    exact hconditions
  | some o =>
    obtain ⟨hfield, hdirection⟩ := h.ordering o (by simp [hordering])
    obtain ⟨calls, hordered⟩ := hconditions.add_ordering rfl hfield hdirection
    refine ⟨calls, ?_⟩
    rw [← hordering] at hordered
    exact hordered

end Spelling

end FluentQuery
