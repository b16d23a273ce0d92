/-
  Running a command line on the variables and files around it: the text that is printed, the exit
  status, and the line that says why a command failed.
-/
import FluentQuery.CommandLine.Command
import FluentQuery.Completion.Engine
import FluentQuery.Console
import FluentQuery.Query.Response
import FluentQuery.Text.Terminal
import FluentQuery.Value.Display

namespace FluentQuery.CommandLine

/-- What a command line finds around it. -/
structure Surroundings where
  environment : List (Text × Text)
  /-- What stands at a path. -/
  found : Text → Found

/-- How a command ends: the exit status, the printed text, and the line that tells of a failure. -/
structure Outcome where
  status : Nat
  output : Text
  failure : Text
  deriving DecidableEq, Repr

/-- Why a command breaks off without an outcome. -/
inductive Breakdown where
  | fault (f : Fault)
  | unknownLogLevel
  /-- The settings are no map with texts as keys. -/
  | settingsNotAnObject
  /-- A folder stands where a file should be. -/
  | folder
  /-- A surrogate stands in the text to print. -/
  | unprintable
  deriving DecidableEq, Repr

namespace Outcome

/-- Success with some printed lines. -/
def ofLines (lines : List Text) : Outcome :=
  ⟨0, lines.flatMap fun line => Text.withoutSequences line ++ "\n", []⟩

/-- The command line is not understood. -/
def misuse : Outcome := ⟨2, [], []⟩

/-- A failure that is told in one line. -/
def failed (status : Nat) (message : Text) : Outcome :=
  ⟨status, [], List.append "❌ " (Text.withoutSequences message)⟩

/-- Whether the printed text consists of characters. -/
def isPrintable (outcome : Outcome) : Bool := !outcome.output.any CodePoint.isSurrogate

end Outcome

/-- A value as printed JSON. -/
def printed (value : Value) : Except Fault Text := Json.print .required value

/-- The parameters of a query as a value. -/
def paramsValue (params : QueryParameters) : Value :=
  record
    [("collection", .text params.collection), ("limit", params.limit),
      ("select", .list (params.select.map .text)),
      ("where", .list (params.conditions.map fun c =>
        record [("field", .text c.field), ("operator", .text c.operator), ("value", c.value)])),
      ("order_by", (params.ordering.map fun o =>
        record [("field", .text o.field), ("direction", .text o.direction)]).getD .null)]

/-- The word for a truth value. -/
def truthWord (b : Bool) : Text := if b then "True" else "False"

/-- The line that describes the situation at the cursor. -/
def situationLine (offer : Offer) : Text :=
  let situation := offer.situation
  let call : Text :=
    match situation.call with
    | some call => call.name ++ "[" ++ Decimal.ofInt call.argument ++ "]"
    | none => "-"
  List.append "trigger=" (Text.quoted offer.trigger) ++ " in_string=" ++
    truthWord situation.inString ++ " after_dot=" ++ truthWord situation.afterDot ++
    " db_access=" ++ truthWord situation.atRoot ++ " method=" ++ call

/-- The row of a completion. -/
def completionRow (c : Completion) : List Text :=
  [Text.replaceChar '\n' '⏎' c.insertedText, (c.kind.map CompletionKind.name).getD [],
    c.description]

/-- The lines of an offer: the situation, and a table of the completions. -/
def offerLines (offer : Offer) : List Text :=
  situationLine offer ::
    if offer.isActive then
      Json.row ["Completion", "Kind", "Description"] ::
        offer.items.map fun item => Json.row (completionRow item)
    else ["No completions."]

/-- The rows of a document, one for each field. -/
def documentRows (document : Document) : Except Fault (List Text) :=
  document.fields.mapM fun (key, value) => do
    return Json.row [document.id.chars?.getD [], ← key.toText, Display.typeLabel value,
      ← Display.cell value]

/-- Whether a decoded file is a response to a query. -/
def isResponse : Value → Bool
  | .list _ => true
  | .map entries => Entries.has "document" entries
  | _ => false

/-- The field map of a file that is no response. -/
def fieldMap : Value → Value
  | .map entries => (Entries.get? "fields" entries).getD (.map entries)
  | _ => .null

/-- The lines for a decoded file: a table of the fields of a response, or a field map as JSON. -/
def decodedLines (data : Value) (collection : Text) : Except Fault (List Text) := do
  if isResponse data then
    let documents ← Document.ofResponse collection data
    let rows ← documents.mapM documentRows
    return Json.row ["id", "field", "type", "value"] :: rows.flatten
  else
    let entries ← Wire.decodeFieldMap (fieldMap data)
    let texts ← entries.mapM fun (key, value) => do return (key, .text (← Display.editText value))
    return [← printed (.map texts)]

/-- The lines for a console command. -/
def consoleLines (command : ConsoleRequest) : Except Fault (List Text) := do
  let limit ← match command.limit? with
    | some limit => do pure [List.append "limit: " (← limit.toText)]
    | none => pure []
  return [List.append "action: " command.action] ++
    (if command.path = [] then [] else [List.append "path: " command.path]) ++ limit ++
    (if command.message = [] then [] else [command.message])

/-- The engine for a completion command. -/
def engineFor (settings : Settings) (collection : Text) (fields collections : List Text)
    (console : Bool) : Engine :=
  if console then ⟨Catalog.console, Supply.console collections, settings⟩
  else ⟨Catalog.editor, Supply.editor collection fields collections settings.rootIdentifier, settings⟩

/-- Decodes a file. -/
def runDecode (around : Surroundings) (path collection : Text) : Except Fault Outcome :=
  match around.found path with
  | .nothing | .folder => .ok .misuse
  | .file text =>
    match Json.read (Text.unifyLineBreaks text) with
    | .ok data => Outcome.ofLines <$> decodedLines data collection
    | .error .tooManyDigits => .error .tooManyDigits
    | .error (.malformed e) =>
      .ok (.failed 1 (List.append "Invalid JSON in " (path ++ ": " ++ e.message)))

/-- Runs a command with settings. -/
def runCommand (around : Surroundings) (settings : Settings) : Command → Except Fault Outcome
  | .parse expression collection => do
    let params ← Query.parse expression (collection.getD settings.defaultCollection)
      settings.defaultLimit
    return .ofLines [← printed (paramsValue params)]
  | .build expression collection => do
    let engine : Engine := { settings }
    let (_, query) ← engine.build expression collection
    return .ofLines [← printed query.toValue]
  | .complete expression cursor collection fields collections console =>
    let engine := engineFor settings collection fields collections console
    .ok (.ofLines (offerLines (engine.complete expression (cursor.getD expression.length))))
  | .decode path collection => runDecode around path collection
  | .console line => do
    match ← Console.requestOf line settings.defaultLimit settings.rootIdentifier with
    | .error e => return .failed 1 e.message
    | command => return .ofLines (← consoleLines command)

/-- The levels of messages that a log can be cut off at. -/
def logLevels : List Text :=
  ["TRACE", "DEBUG", "INFO", "SUCCESS", "WARNING", "ERROR", "CRITICAL"]

/-- Where the settings of an invocation come from. -/
def settingsSource (around : Surroundings) (invocation : Invocation) : Settings.Source :=
  match invocation.config with
  | none => .environment
  | some path => .path (around.found path)

/-- Whether the log cannot be written because a folder stands at its path. -/
def logIsFolder (around : Surroundings) (invocation : Invocation) : Bool :=
  invocation.logFile.any fun path => around.found path = .folder

/-- Runs the command of a command line with settings. -/
def runWith (around : Surroundings) (settings : Settings) (invocation : Invocation) :
    Except Breakdown Outcome :=
  match Command.read? invocation.name invocation.words with
  | none => .ok .misuse
  | some command =>
    match runCommand around settings command with
    | .error fault => .error (.fault fault)
    | .ok outcome => if outcome.isPrintable then .ok outcome else .error .unprintable

/-- Runs a command line that has been read up to its command. -/
def runInvocation (around : Surroundings) (invocation : Invocation) : Except Breakdown Outcome :=
  if Text.asciiUpper invocation.logLevel ∉ logLevels then .error .unknownLogLevel
  else if logIsFolder around invocation then .error .folder
  else
    match Settings.load around.environment (settingsSource around invocation) with
    | .error .tooManyDigits => .error (.fault .tooManyDigits)
    | .error .notAnObject => .error .settingsNotAnObject
    | .error .folder => .error .folder
    | .error _ => .ok (.failed 2 "Could not load settings")
    | .ok settings => runWith around settings invocation

/-- Runs a command line. -/
def run (around : Surroundings) (words : List Text) : Except Breakdown Outcome :=
  match Invocation.read? words with
  | none => .ok .misuse
  | some invocation => runInvocation around invocation

/-- The files that a command line names. -/
def filesOf (words : List Text) : List Text :=
  match Invocation.read? words with
  | none => []
  | some invocation =>
    invocation.config.toList ++ invocation.logFile.toList ++
      match Command.read? invocation.name invocation.words with
      | some (.decode path _) => [path]
      | _ => []

end FluentQuery.CommandLine
