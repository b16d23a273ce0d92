/-
  Settings of the engine. They come from the text of a JSON file, or from environment variables on top
  of the defaults; whatever is wrong with them is reported field by field.
-/
import FluentQuery.File
import FluentQuery.Json.Reader
import FluentQuery.Numeric.Typed
import FluentQuery.Query.Basic

namespace FluentQuery

/-- The settings of the engine. -/
structure Settings where
  /-- The limit of expressions that name none. -/
  defaultLimit : Int := FluentQuery.defaultLimit
  /-- The greatest number of completions. -/
  maxResults : Int := 14
  /-- How many characters before the cursor are searched for the enclosing call. -/
  contextWindow : Int := 220
  /-- The identifier of the database root. -/
  rootIdentifier : Text := "db"
  /-- The collection of expressions that name none. -/
  defaultCollection : Text := []
  deriving DecidableEq, Repr

/-- What is wrong with a setting. -/
inductive SettingIssue where
  | notAnInteger
  | fractional
  | notFinite
  | tooLarge
  | wrongType
  | notPositive
  | notText
  | tooShort
  /-- A surrogate stands in a text that is looked into. -/
  | illFormedText
  | unknown
  deriving DecidableEq, Repr

/-- Why settings were not read. -/
inductive SettingsFailure where
  | fileNotFound
  /-- A folder stands where the file should be. -/
  | folder
  | invalidJson (e : Json.Located)
  | tooManyDigits
  /-- The settings are no map with texts as keys. -/
  | notAnObject
  | invalid (issues : List (Text × SettingIssue))
  deriving DecidableEq, Repr

namespace Settings

/-- A setting as an integer. -/
def toInteger : Value → Except SettingIssue Int
  | .int n => .ok n
  | .bool b => .ok b.toInt
  | .float (.finite x) =>
    if !x.isIntegral then .error .fractional
    else if x.truncate.natAbs < Nat.pow 2 63 then .ok x.truncate
    else .error .tooLarge
  | .float _ => .error .notFinite
  | .text s | .reference s =>
    if s.any CodePoint.isSurrogate then .error .illFormedText
    else
      match Typed.read s with
      | .ok n => .ok n
      | .error .tooLong => .error .tooLarge
      | .error .notAnInteger => .error .notAnInteger
  | _ => .error .wrongType

/-- A setting that must be a positive integer. -/
def positive (value : Value) : Except SettingIssue Int := do
  let n ← toInteger value
  if 0 < n then return n else throw .notPositive

/-- A setting that must be a text. -/
def anyText : Value → Except SettingIssue Text
  | .text s => .ok s
  | .reference s => if s.any CodePoint.isSurrogate then .error .illFormedText else .ok s
  | _ => .error .notText

/-- A setting that must be a text with something in it. -/
def nonemptyText (value : Value) : Except SettingIssue Text := do
  let s ← anyText value
  if s.any CodePoint.isSurrogate then throw .illFormedText
  else if s = [] then throw .tooShort
  else return s

/-- The names of the settings. -/
def fieldNames : List Text :=
  ["default_limit", "max_results", "context_window", "root_identifier", "default_collection"]

/-- A setting, or the default where it is not given. -/
def field {α : Type} (entries : Entries) (name : Text) (read : Value → Except SettingIssue α)
    (fallback : α) : Except SettingIssue α :=
  match entries.get? name with
  | some value => read value
  | none => .ok fallback

/-- What is wrong with the setting of a name. -/
def issueOf {α : Type} (name : Text) : Except SettingIssue α → List (Text × SettingIssue)
  | .ok _ => []
  | .error issue => [(name, issue)]

/-- The name of an entry, if its key is a text. -/
def nameOf? : Key → Option Text
  | .scalar key => key.chars?
  | .tuple _ => none

/-- The entries that are no settings. -/
def unknownFields (names : List Text) : List (Text × SettingIssue) :=
  (names.filter (· ∉ fieldNames)).map (·, .unknown)

/-- The settings of a map; all that is wrong is reported, in the order of the settings and then of the
entries that are none. A surrogate in a name stops the search for entries that are none, and is the
only thing to be reported, without a name. -/
def ofEntries (entries : Entries) : Except SettingsFailure Settings :=
  let defaults : Settings := {}
  let limit := field entries "default_limit" positive defaults.defaultLimit
  let results := field entries "max_results" positive defaults.maxResults
  let window := field entries "context_window" positive defaults.contextWindow
  let root := field entries "root_identifier" nonemptyText defaults.rootIdentifier
  let collection := field entries "default_collection" anyText defaults.defaultCollection
  let names := entries.filterMap fun entry => nameOf? entry.1
  if names.length ≠ entries.length then .error .notAnObject
  else if names.any fun name => name.any CodePoint.isSurrogate then
    .error (.invalid [([], .illFormedText)])
  else
    match limit, results, window, root, collection, unknownFields names with
    | .ok limit, .ok results, .ok window, .ok root, .ok collection, [] =>
      .ok ⟨limit, results, window, root, collection⟩
    | limit, results, window, root, collection, unknown =>
      .error (.invalid (issueOf "default_limit" limit ++ issueOf "max_results" results ++
        issueOf "context_window" window ++ issueOf "root_identifier" root ++
        issueOf "default_collection" collection ++ unknown))

/-- The environment variables that hold settings, each with the name of its setting. -/
def environmentNames : List (Text × Text) :=
  [("FIREQUERY_DEFAULT_LIMIT", "default_limit"), ("FIREQUERY_MAX_RESULTS", "max_results"),
    ("FIREQUERY_CONTEXT_WINDOW", "context_window"),
    ("FIREQUERY_ROOT_IDENTIFIER", "root_identifier"),
    ("FIREQUERY_DEFAULT_COLLECTION", "default_collection")]

/-- The settings of environment variables; an empty variable counts as not set. -/
def ofEnvironment (environment : List (Text × Text)) : Except SettingsFailure Settings :=
  ofEntries <| environmentNames.filterMap fun (name, setting) =>
    match environment.lookup name with
    | none => none
    | some [] => none
    | some value => some (.text setting, .text value)

/-- The settings of the text of a file. -/
def ofFile (text : Text) : Except SettingsFailure Settings :=
  match Json.read (Text.unifyLineBreaks text) with
  | .ok (.map entries) => ofEntries entries
  | .ok _ => .error .notAnObject
  | .error .tooManyDigits => .error .tooManyDigits
  | .error (.malformed e) => .error (.invalidJson e)

/-- Where settings come from. -/
inductive Source where
  /-- The environment and the defaults. -/
  | environment
  /-- A path, with what stands there. -/
  | path (found : Found)

/-- Loads the settings from a source. -/
def load (environment : List (Text × Text)) : Source → Except SettingsFailure Settings
  | .environment => ofEnvironment environment
  | .path .nothing => .error .fileNotFound
  | .path .folder => .error .folder
  | .path (.file text) => ofFile text

end Settings

end FluentQuery
