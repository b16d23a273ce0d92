/-
  The engine that an editor talks to: a catalog, a supplier and settings, and on them the situation at
  a cursor, the ranked completions, the edit that accepts one, and the query of the text.
-/
import FluentQuery.Completion.Edit
import FluentQuery.Completion.Ranking
import FluentQuery.Completion.Supplier
import FluentQuery.Query.Structured
import FluentQuery.Settings

namespace FluentQuery

/-- A completion engine. It holds nothing but configuration. -/
structure Engine where
  catalog : List Completion := Catalog.editor
  supplier : Supplier := fun _ => []
  settings : Settings := {}

/-- The completions for one cursor. -/
structure Offer where
  trigger : Text
  situation : Situation
  items : List Completion
  deriving DecidableEq, Repr

/-- Whether anything is offered. -/
def Offer.isActive (offer : Offer) : Bool := !offer.items.isEmpty

namespace Engine

/-- The situation at a cursor. -/
def situationAt (engine : Engine) (text : Text) (cursor : Int) : Situation :=
  Cursor.situationAt engine.settings.rootIdentifier engine.settings.contextWindow text cursor

/-- The ranked completions for a token and a situation. -/
def rank (engine : Engine) (trigger : Text) (situation : Situation) : List Ranked :=
  Ranking.rank engine.catalog engine.supplier engine.settings.rootIdentifier
    engine.settings.maxResults trigger situation

/-- The completions for a cursor, best first. -/
def complete (engine : Engine) (text : Text) (cursor : Int) : Offer :=
  let trigger := Cursor.trigger text cursor
  let situation := Cursor.situationWith engine.settings.rootIdentifier engine.settings.contextWindow
    text cursor trigger
  ⟨trigger, situation, (engine.rank trigger situation).map (·.completion)⟩

/-- The parameters and the structured query of a text. -/
def build (engine : Engine) (text : Text) (collection : Option Text) :
    Except Fault (QueryParameters × StructuredQuery) :=
  Query.parseAndBuild text (collection.getD engine.settings.defaultCollection)
    engine.settings.defaultLimit

end Engine

end FluentQuery
