/-
  Options among the words of a command line: long ones with their value behind an equals sign or in
  the next word, short ones in clusters, and a double dash behind which every word is an argument.
-/
import FluentQuery.Text.Basic

namespace FluentQuery.CommandLine

/-- An option that a command knows. -/
structure OptionSpec where
  /-- The long name with its dashes. -/
  long : Text
  short : Option CodePoint := none
  takesValue : Bool := true

/-- A given option by its long name, with its value; that of an option without a value is empty. -/
abbrev Given := Text × Text

/-- The options and the arguments of a command line. -/
structure Words where
  options : List Given
  arguments : List Text
  deriving DecidableEq, Repr

/-- What a single word says. -/
inductive Word where
  /-- Options that need nothing more. -/
  | complete (given : List Given)
  /-- Options of which the last one has its value in the next word. -/
  | awaiting (given : List Given) (name : Text)

/-- One more option in front of a word. -/
def Word.push (option : Given) : Word → Word
  | complete given => complete (option :: given)
  | awaiting given name => awaiting (option :: given) name

/-- A cluster of short options. The first one that takes a value takes the rest of the word, or the
next word if nothing is left. -/
def cluster? (specs : List OptionSpec) : Text → Option Word
  | [] => some (.complete [])
  | c :: rest => do
    let spec ← specs.find? fun spec => spec.short = some c
    if spec.takesValue then
      if rest = [] then return .awaiting [] spec.long else return .complete [(spec.long, rest)]
    else return (← cluster? specs rest).push (spec.long, [])

/-- A word that starts with a dash. -/
def word? (specs : List OptionSpec) (word : Text) : Option Word :=
  let name := Text.upTo '=' word
  let value? : Option Text :=
    match Text.since '=' word with
    | [] => none
    | _ :: value => some value
  match specs.find? fun spec => spec.long = name with
  | some spec =>
    match spec.takesValue, value? with
    | true, some value => some (.complete [(name, value)])
    | true, none => some (.awaiting [] name)
    | false, none => some (.complete [(name, [])])
    | false, some _ => none
  | none => if Text.startsWith "--" word then none else cluster? specs (word.drop 1)

/-- Options in front of what has been read. -/
def Words.addOptions (given : List Given) (words : Words) : Words :=
  { words with options := given ++ words.options }

/-- An argument in front of what has been read. -/
def Words.addArgument (argument : Text) (words : Words) : Words :=
  { words with arguments := argument :: words.arguments }

/-- Whether a word gives options: a dash with something behind it. -/
def isOption (word : Text) : Bool := word.head? = some '-' && word.length ≠ 1

/-- Reads the words of a command line. Unless options may stand between arguments, the first argument
ends them. Nothing is read if an option is unknown or lacks its value. -/
def readWords? (specs : List OptionSpec) (interspersed : Bool) : List Text → Option Words
  | [] => some ⟨[], []⟩
  | word :: rest =>
    if word = "--" then some ⟨[], rest⟩
    else if isOption word then
      match word? specs word, rest with
      | none, _ => none
      | some (.complete given), rest =>
        (readWords? specs interspersed rest).map (Words.addOptions given)
      | some (.awaiting _ _), [] => none
      | some (.awaiting given name), value :: rest =>
        (readWords? specs interspersed rest).map (Words.addOptions (given ++ [(name, value)]))
    else if interspersed then
      (readWords? specs interspersed rest).map (Words.addArgument word)
    else some ⟨[], word :: rest⟩

namespace Words

/-- The value of an option; of several the last one counts. -/
def value? (words : Words) (name : Text) : Option Text := words.options.reverse.lookup name

/-- All values of an option in order. -/
def values (words : Words) (name : Text) : List Text :=
  words.options.filterMap fun option => if option.1 = name then some option.2 else none

/-- Whether an option is given. -/
def has (words : Words) (name : Text) : Bool := (words.value? name).isSome

end Words

end FluentQuery.CommandLine
