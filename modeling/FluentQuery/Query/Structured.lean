/-
  Structured queries: the tree that is sent for the parameters of a query, as a type and as the value
  that travels. Conditions are combined with AND, and a single one stands on its own.
-/
import FluentQuery.Query.Parse
import FluentQuery.Wire.Encode

namespace FluentQuery

/-- A comparison of a field with a wire value. -/
structure FieldFilter where
  field : Text
  comparison : Comparison
  value : Value
  deriving Repr

/-- A single field filter, or several that must all hold. -/
inductive Filter where
  | field (filter : FieldFilter)
  | all (filters : List FieldFilter)
  deriving Repr

/-- The order of an ordering. -/
inductive SortOrder where
  | ascending
  | descending
  deriving DecidableEq, Repr

/-- A structured query. -/
structure StructuredQuery where
  collectionId : Text
  limit : Value
  /-- The selected fields, if there is a selection. -/
  select : Option (List Text)
  filter : Option Filter
  ordering : Option (Text × SortOrder)
  deriving Repr

namespace SortOrder

/-- The order that a direction stands for: descending for `desc` in any case. -/
def ofDirection (direction : Text) : SortOrder :=
  if Text.asciiUpper direction = "DESC" then descending else ascending

/-- The name of an order on the wire. -/
def wireName : SortOrder → Text
  | ascending => "ASCENDING"
  | descending => "DESCENDING"

end SortOrder

namespace FieldFilter

/-- The filter of a condition. -/
def ofCondition (condition : Condition) : Except Fault FieldFilter := do
  return ⟨condition.field, .ofOperator condition.operator, ← Wire.encode condition.value⟩

end FieldFilter

namespace Filter

/-- The filter of several conditions; a single one needs no combination. -/
def ofConditions (conditions : List Condition) : Except Fault Filter := do
  match ← conditions.mapM FieldFilter.ofCondition with
  | [single] => return .field single
  | filters => return .all filters

end Filter

namespace StructuredQuery

/-- The structured query of some parameters. -/
def build (params : QueryParameters) : Except Fault StructuredQuery := do
  let filter ← if params.conditions.isEmpty then .ok none
    else some <$> Filter.ofConditions params.conditions
  return {
    collectionId := Text.lastSegment params.collection
    limit := params.limit
    select := if params.select.isEmpty then none else some params.select
    filter
    ordering := params.ordering.map fun o => (o.field, .ofDirection o.direction) }

end StructuredQuery

/-- A map with texts as keys. -/
def record (entries : List (Text × Value)) : Value :=
  .map (entries.map fun entry => (.text entry.1, entry.2))

/-- A field on the wire. -/
def fieldPath (field : Text) : Value := record [("fieldPath", .text field)]

/-- A field filter on the wire. -/
def FieldFilter.toValue (filter : FieldFilter) : Value :=
  record [("fieldFilter", record
    [("field", fieldPath filter.field), ("op", .text filter.comparison.wireName),
      ("value", filter.value)])]

/-- A filter on the wire. -/
def Filter.toValue : Filter → Value
  | .field filter => filter.toValue
  | .all filters =>
    record [("compositeFilter", record
      [("op", .text "AND"), ("filters", .list (filters.map FieldFilter.toValue))])]

/-- An ordering on the wire. -/
def orderValue (field : Text) (order : SortOrder) : Value :=
  record [("field", fieldPath field), ("direction", .text order.wireName)]

/-- The clauses of a structured query in their order, those that it does not have without a value. -/
def StructuredQuery.clauses (query : StructuredQuery) : List (Text × Option Value) :=
  [("from", some (.list [record [("collectionId", .text query.collectionId)]])),
    ("limit", some query.limit),
    ("select", query.select.map fun fields =>
      record [("fields", .list (fields.map fieldPath))]),
    ("where", query.filter.map Filter.toValue),
    ("orderBy", query.ordering.map fun order => .list [orderValue order.1 order.2])]

/-- A structured query on the wire; clauses that the query does not have are left out. -/
def StructuredQuery.toValue (query : StructuredQuery) : Value :=
  record (query.clauses.filterMap fun clause => clause.2.map (clause.1, ·))

namespace Query

/-- The parameters of an expression and its structured query. -/
def parseAndBuild (text collection : Text) (limit : Int) :
    Except Fault (QueryParameters × StructuredQuery) := do
  let params ← parse text collection limit
  return (params, ← StructuredQuery.build params)

/-- The expression that an editor starts with for a collection. -/
def starter (collection : Text) (limit : Int) : Except Fault Text := do
  let limit ← Decimal.write limit
  return "// Query with JavaScript using the Admin SDK\nasync function run() \x7b\n" ++
    "    const query = await db.collection(" ++ [Text.doubleQuote] ++ collection ++
    [Text.doubleQuote] ++ ")\n        .limit(" ++ limit ++
    ")\n        .get();\n    return query;\n\x7d"

end Query

end FluentQuery
