/-
  Responses to a query: the documents in it, each with its id, its fields and its path.
-/
import FluentQuery.Wire.Decode

namespace FluentQuery

/-- A document of a response. -/
structure Document where
  /-- The last segment of the document's name. -/
  id : Value
  path : Text
  fields : Entries
  deriving Repr

namespace Document

/-- The last segment of a document's name, which must be a text or a reference. A segment is a text; a
name that has no last segment is the id itself. -/
def idOf : Value → Except Fault Value
  | .text name => .ok (.text (Text.lastSegment name))
  | .reference name =>
    let segment := Text.behindLast '/' name
    .ok (if segment = [] then .reference name else .text segment)
  | _ => .error .noMembers

/-- The document of one item of a response; an item without one is passed over. -/
def ofItem (collection : Text) (item : Value) : Except Fault (Option Document) :=
  match item with
  | .map entries =>
    match Wire.present? (Entries.get? "document" entries) with
    | none => .ok none
    | some (.map document) => do
      let id ← idOf ((Entries.get? "name" document).getD (.text []))
      let fields ← Wire.decodeFieldMap ((Entries.get? "fields" document).getD .null)
      return some ⟨id, collection ++ "/" ++ id.chars?.getD [], fields⟩
    | some _ => .error .noMembers
  | _ => .ok none

/-- The items of a response: a map is one item, and a text has none that holds a document. -/
def itemsOf : Value → Except Fault (List Value)
  | .map entries => .ok [.map entries]
  | .list items => .ok items
  | value => if value.chars?.isSome then .ok [] else .error .wrongKind

/-- The documents of a response, in order. -/
def ofResponse (collection : Text) (response : Value) : Except Fault (List Document) := do
  let documents ← (← itemsOf response).mapM (ofItem collection)
  return documents.filterMap fun document => document

end Document

end FluentQuery
