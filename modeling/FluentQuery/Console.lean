/-
  The console: what a single line asks for. The console knows a few words and reads that start at the
  database root; everything else is an error with a message of its own.
-/
import FluentQuery.Expression.Call
import FluentQuery.Query.Parse

namespace FluentQuery

/-- Why a console line cannot be carried out. -/
inductive ConsoleError where
  | unknownCommand
  | invalidCollection
  | invalidDocument
  deriving DecidableEq, Repr

/-- The wording of an error. -/
def ConsoleError.message : ConsoleError → Text
  | unknownCommand => "Unknown command. Type 'help' for available commands."
  | invalidCollection => "Invalid collection path. Use: db.collection(\x22path\x22)"
  | invalidDocument => "Invalid document path. Use: db.doc(\x22collection/docId\x22)"

/-- What a console line asks for. -/
inductive ConsoleRequest where
  | empty
  | help
  | clear
  | fetchCollection (path : Text) (params : QueryParameters)
  | collectionReference (path : Text)
  | fetchDocument (path : Text)
  | error (e : ConsoleError)
  deriving Repr

namespace Console

/-- The answer to `help`. -/
def helpText : Text :=
  Text.join "\n"
    ["Available commands:",
      "• db.collection(\x22path\x22).get() - Get documents from a collection",
      "• db.collection(\x22path\x22).limit(n).get() - Get n documents",
      "• db.doc(\x22collection/docId\x22).get() - Get a single document",
      "• clear - Clear console output",
      "• help - Show this help message",
      "",
      "Examples:",
      "  db.collection(\x22users\x22).limit(10).get()",
      "  db.doc(\x22users/user123\x22).get()"]

/-- Whether a text starts with a quote and a closing parenthesis. -/
def closesCall (text : Text) : Bool :=
  match text with
  | quote :: ')' :: _ => quote ∈ stringQuotes
  | _ => false

/-- The shortest content, of one character at least and on one line, that a quote and a closing
parenthesis follow. -/
def shortestContent? : Text → Option Text
  | [] => none
  | c :: rest =>
    if c = '\n' then none
    else if closesCall rest then some [c]
    else (shortestContent? rest).map (c :: ·)

/-- The path of a call that starts with `opening`, at the start of a text. -/
def pathCall? (opening text : Text) : Option Text := do
  match ← Text.after? opening text with
  | quote :: rest => if quote ∈ stringQuotes then shortestContent? rest else none
  | [] => none

/-- The start of a call on the database root. -/
def opening (root method : Text) : Text := root ++ "." ++ method ++ "("

/-- What a read of a collection asks for: a fetch if the line gets something, or else the reference. -/
def collectionRequest (root command : Text) (limit : Int) : Except Fault ConsoleRequest :=
  match firstPlace? (pathCall? (opening root "collection")) command with
  | none => .ok (.error .invalidCollection)
  | some path =>
    if Text.occursIn ".get()" command then do
      return .fetchCollection path (← Query.parse command path limit)
    else .ok (.collectionReference path)

/-- What a read of a document asks for. -/
def documentRequest (root command : Text) : ConsoleRequest :=
  match firstPlace? (pathCall? (opening root "doc")) command with
  | none => .error .invalidDocument
  | some path => .fetchDocument path

/-- What a line asks for. -/
def requestOf (line : Text) (limit : Int) (root : Text) : Except Fault ConsoleRequest :=
  let command := Text.trim line
  if command = [] then .ok .empty
  else if command = "help" then .ok .help
  else if command = "clear" then .ok .clear
  else if (opening root "collection").isPrefixOf command then collectionRequest root command limit
  else if (opening root "doc").isPrefixOf command then .ok (documentRequest root command)
  else .ok (.error .unknownCommand)

end Console

namespace ConsoleRequest

/-- The name of what is asked for. -/
def action : ConsoleRequest → Text
  | empty => "empty"
  | help => "help"
  | clear => "clear"
  | fetchCollection _ _ => "fetch_collection"
  | collectionReference _ => "collection_reference"
  | fetchDocument _ => "fetch_document"
  | error _ => "error"

/-- The path that is asked for, empty if there is none. -/
def path : ConsoleRequest → Text
  | fetchCollection path _ => path
  | collectionReference path => path
  | fetchDocument path => path
  | _ => []

/-- The parameters of a fetch. -/
def params? : ConsoleRequest → Option QueryParameters
  | fetchCollection _ params => some params
  | _ => none

/-- The limit of a fetch. -/
def limit? (command : ConsoleRequest) : Option Value := command.params?.map (·.limit)

/-- What is told to the user, empty if nothing is. -/
def message : ConsoleRequest → Text
  | help => Console.helpText
  | collectionReference path =>
    List.append "Collection reference: " (path ++ "\nAdd .get() to fetch documents.")
  | error e => e.message
  | _ => []

end ConsoleRequest

end FluentQuery
