/-
  Suppliers for hosts that know the open collection, its fields and the other collections: operators
  and directions for second arguments, shortcuts to the open collection, and quoted names.
-/
import FluentQuery.Completion.Catalog
import FluentQuery.Completion.Fitness

namespace FluentQuery.Supply

/-- The methods whose first argument is a field. -/
def methodsOnFields : List Text := ["where", "orderBy", "select"]

/-- A name in quotes of one kind, which is typed from its opening quote on. -/
def quotedWith (quote : CodePoint) (name : Text) (kind : CompletionKind) (description : Text)
    (priority : Int) (hasFullForm : Bool) : Completion :=
  { trigger := quote :: name
    suggestion := [quote]
    description
    fullForm := if hasFullForm then some (quote :: name ++ [quote]) else none
    kind := some kind
    priority }

/-- A name in single and in double quotes. -/
def quoted (name : Text) (kind : CompletionKind) (description : Text) (priority : Int)
    (hasFullForm : Bool) : List Completion :=
  stringQuotes.map fun quote => quotedWith quote name kind description priority hasFullForm

/-- Whether the cursor is in an argument of one of the methods. -/
def isIn (methods : List Text) (situation : Situation) : Bool :=
  situation.call.any fun call => call.name ∈ methods

/-- Whether the cursor is in the given argument of one of the methods. -/
def isAt (methods : List Text) (argument : Int) (situation : Situation) : Bool :=
  situation.call.any fun call => call.name ∈ methods && call.argument = argument

/-- Whether the cursor is in a string outside any known call. -/
def inBareString (situation : Situation) : Bool := situation.call = none && situation.inString

/-- The completions for the second argument of a condition or an ordering. -/
def secondArguments (situation : Situation) : List Completion :=
  if isAt ["where"] 1 situation then Catalog.operators
  else if isAt ["orderBy"] 1 situation then Catalog.directions
  else []

/-- The call that opens a collection. -/
def collectionCall (path : Text) : Text :=
  List.append "collection('" (path ++ "')")

/-- The shortcut to the open collection, typed as the root alone. -/
def rootShortcut (root path : Text) : Completion :=
  let call := collectionCall path
  let full := root ++ "." ++ call
  { trigger := root
    suggestion := '.' :: call
    description := full
    fullForm := some full
    kind := some .method
    priority := 40 }

/-- The shortcut to the open collection, typed as the root and the start of the call. -/
def typedShortcut (root path typed : Text) (priority : Int) : Completion :=
  let call := collectionCall path
  let full := root ++ "." ++ call
  let trigger := root ++ typed
  { trigger
    suggestion := full.drop trigger.length
    description := call
    fullForm := some full
    kind := some .method
    priority }

/-- The shortcuts to the open collection. -/
def rootShortcuts (root path : Text) : List Completion :=
  [rootShortcut root path, typedShortcut root path "." 40, typedShortcut root path ".c" 36,
    typedShortcut root path ".col" 34, typedShortcut root path ".collection" 32]

/-- A field, quoted and bare. -/
def fieldCompletions (field : Text) : List Completion :=
  let description := List.append "Field: " field
  quoted field .field description 0 true ++
    [{ trigger := field, description, fullForm := some field, kind := some .field }]

/-- A collection by its quoted name. -/
def namedCollection (hasFullForm : Bool) (name : Text) : List Completion :=
  quoted name .collection (List.append "Collection: " name) 0 hasFullForm

/-- The supplier of the query editor. -/
def editor (path : Text) (fields collections : List Text) (root : Text) : Supplier := fun situation =>
  let wantsFields := isAt methodsOnFields 0 situation || inBareString situation
  let wantsCollections := isIn Fitness.methodsOnCollections situation || inBareString situation
  let others := (collections.filter (· ≠ path)).eraseDups
  secondArguments situation ++
    (if path = [] then [] else rootShortcuts root path) ++
    (if wantsFields then fields.flatMap fieldCompletions else []) ++
    (if wantsCollections then
      (if path = [] then [] else quoted path .collection "Current collection" 25 true) ++
        others.flatMap (namedCollection true)
    else [])

/-- The supplier of the console. -/
def console (collections : List Text) : Supplier := fun situation =>
  secondArguments situation ++
    (if isIn Fitness.methodsOnCollections situation || inBareString situation then
      collections.eraseDups.flatMap (namedCollection false)
    else [])

end FluentQuery.Supply
