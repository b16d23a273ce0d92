/-
  The commands of the command line, and how they are read off its words.
-/
import FluentQuery.CommandLine.Options
import FluentQuery.Numeric.Typed

namespace FluentQuery.CommandLine

/-- A command with its arguments. -/
inductive Command where
  /-- Print the parameters of an expression. -/
  | parse (expression : Text) (collection : Option Text)
  /-- Print the structured query of an expression. -/
  | build (expression : Text) (collection : Option Text)
  /-- Print the completions for a cursor. -/
  | complete (expression : Text) (cursor : Option Int) (collection : Text)
      (fields collections : List Text) (console : Bool)
  /-- Print the decoded fields or documents of a file. -/
  | decode (path collection : Text)
  /-- Print what a console line asks for. -/
  | console (line : Text)
  deriving DecidableEq, Repr

/-- The name of a command. -/
inductive CommandName where
  | parse
  | build
  | complete
  | decode
  | console
  deriving DecidableEq, Repr

namespace CommandName

/-- The command of a word. -/
def ofWord? (word : Text) : Option CommandName :=
  [(("parse" : Text), parse), ("build", build), ("complete", complete), ("decode", decode),
    ("console", console)].lookup word

/-- The options that a command knows. -/
def options : CommandName → List OptionSpec
  | parse => [{ long := "--collection" }]
  | build => [{ long := "--collection" }]
  | complete =>
    [{ long := "--cursor" }, { long := "--collection" }, { long := "--field", short := some 'f' },
      { long := "--known-collection", short := some 'k' },
      { long := "--console", takesValue := false }]
  | decode => [{ long := "--collection" }]
  | console => []

end CommandName

namespace Command

/-- A cursor given as a word; a word that is no integer is refused. -/
def cursor? : Option Text → Option (Option Int)
  | none => some none
  | some word => (Typed.read word).toOption.map some

/-- Reads the words behind the name of a command; every command takes exactly one argument. -/
def read? (name : CommandName) (words : List Text) : Option Command := do
  let words ← readWords? name.options true words
  match words.arguments with
  | [argument] =>
    let collection := words.value? "--collection"
    match name with
    | .parse => return .parse argument collection
    | .build => return .build argument collection
    | .complete =>
      let cursor ← cursor? (words.value? "--cursor")
      return .complete argument cursor (collection.getD []) (words.values "--field")
        (words.values "--known-collection") (words.has "--console")
    | .decode => return .decode argument (collection.getD [])
    | .console => return .console argument
  | _ => none

end Command

/-- The words of a whole command line: what holds for all commands, the command, and its own words. -/
structure Invocation where
  config : Option Text
  logLevel : Text
  logFile : Option Text
  name : CommandName
  words : List Text
  deriving DecidableEq, Repr

namespace Invocation

/-- The options in front of the command. -/
def options : List OptionSpec :=
  [{ long := "--config", short := some 'c' }, { long := "--log-level" }, { long := "--log-file" }]

/-- Reads a command line up to the name of the command. -/
def read? (words : List Text) : Option Invocation := do
  let read ← readWords? options false words
  match read.arguments with
  | [] => none
  | name :: words =>
    return {
      config := read.value? "--config"
      logLevel := (read.value? "--log-level").getD "WARNING"
      logFile := read.value? "--log-file"
      name := ← CommandName.ofWord? name
      words }

end Invocation

end FluentQuery.CommandLine
