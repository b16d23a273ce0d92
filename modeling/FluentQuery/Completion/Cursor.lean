/-
  The situation at a cursor: the token that is being typed, whether it is in an open literal, behind a
  point or behind the database root, and the innermost known call that is still open.
-/
import FluentQuery.Completion.Basic
import FluentQuery.Expression.Arguments
import FluentQuery.Expression.Call

namespace FluentQuery.Cursor

/-- The methods whose arguments are completed. -/
def completedMethods : List Text :=
  ["where", "orderBy", "select", "startAt", "startAfter", "endAt", "endBefore", "limit",
    "limitToLast", "collection", "collectionGroup", "doc"]

/-- The text before the cursor. -/
def before (text : Text) (cursor : Int) : Text := text.take (text.clampCursor cursor)

/-- The line of the cursor up to the cursor, without the blanks at its end. -/
def lineBefore (text : Text) (cursor : Int) : Text :=
  Text.trimEnd (Text.lastLine (before text cursor))

/-- Whether a text is a point and identifier characters. -/
def isPointedWord : Text → Bool
  | '.' :: word => word.all Text.isIdentChar
  | _ => false

/-- What the end of a line can be searched for. Where a pattern fits, it takes in the rest of the line. -/
inductive EndPattern where
  /-- A word, a point, and perhaps another word behind it. -/
  | scopedWord
  /-- A point, and perhaps a word behind it. -/
  | pointedWord
  | word
  /-- The given root as a word, a point, and perhaps another word behind it. -/
  | rootedWord (root : Text)
  deriving DecidableEq, Repr

namespace EndPattern

/-- Whether the pattern fits the rest of a line, behind the character `previous`. -/
def fits (previous : Option CodePoint) (rest : Text) : EndPattern → Bool
  | scopedWord =>
    !previous.any Text.isIdentChar && rest.head?.any Text.isIdentChar &&
      isPointedWord (rest.dropWhile Text.isIdentChar)
  | pointedWord => isPointedWord rest
  | word => !rest.isEmpty && rest.all Text.isIdentChar
  | rootedWord root => !previous.any Text.isIdentChar && (Text.after? root rest).any isPointedWord

/-- The rest of a text from the first place on where the pattern fits; the text stands behind the
character `previous`. -/
def search? (pattern : EndPattern) (previous : Option CodePoint) : Text → Option Text
  | [] => if pattern.fits previous [] then some [] else none
  | c :: rest =>
    if pattern.fits previous (c :: rest) then some (c :: rest) else pattern.search? (some c) rest

/-- The end of a line that the pattern finds. -/
def find? (pattern : EndPattern) (line : Text) : Option Text := pattern.search? none line

end EndPattern

/-- The patterns of a token outside literals, in the order in which they are tried. -/
def tokenPatterns : List EndPattern := [.scopedWord, .pointedWord, .word]

/-- Whether a line ends where an argument of a call starts. -/
def endsAtArgument (line : Text) : Bool := line.getLast?.any fun (c : CodePoint) => c = '(' || c = ','

/-- The unfinished token at the end of a line: the literal that is open there. Without one there is no
token at the start of an argument; anywhere else it is what the first pattern finds that finds anything. -/
def lineTrigger (line : Text) : Text :=
  match openLiteral stringQuotes line with
  | some literal => literal.quote :: line.drop (literal.start + 1)
  | none =>
    if endsAtArgument line then []
    else (tokenPatterns.findSome? (·.find? line)).getD []

/-- The unfinished token before the cursor. -/
def trigger (text : Text) (cursor : Int) : Text := lineTrigger (lineBefore text cursor)

/-- Whether a line ends in a point and identifier characters. -/
def endsAfterDot (line : Text) : Bool := (EndPattern.pointedWord.find? line).isSome

/-- Whether a line ends in the database root as a word, a point, and identifier characters. -/
def endsAtRoot (root line : Text) : Bool := ((EndPattern.rootedWord root).find? line).isSome

/-- A call of a known method at the start of a text: its name and the text of its arguments. -/
def completedCall? (text : Text) : Option (Text × Text) :=
  completedMethods.findSome? fun name => (Call.open? name text).map (name, ·)

/-- The argument that the end of a text is in, if the call whose arguments it holds is still open. -/
def openArgument? (name rest : Text) : Option OpenCall :=
  if (callArguments rest).isClosed then none else some ⟨name, countCommas rest⟩

/-- The last call of a known method that is still open at the end of a text. -/
def openCall? (text : Text) : Option OpenCall :=
  (allPlaces completedCall? text).reverse.findSome? fun (name, rest) => openArgument? name rest

/-- The last characters of a text, at most so many. -/
def lastChars (count : Int) (text : Text) : Text := text.drop (text.length - count.toNat)

/-- The situation at a cursor, with the given token before it; the enclosing call is looked for in the
last `window` characters. -/
def situationWith (root : Text) (window : Int) (text : Text) (cursor : Int) (trigger : Text) :
    Situation :=
  let line := lineBefore text cursor
  let inString := (openLiteral stringQuotes line).isSome
  { lineIsBlank := Text.isAllBlank line
    trigger
    inString
    afterDot := !inString && endsAfterDot line
    atRoot := endsAtRoot root line
    call := openCall? (lastChars window (before text cursor)) }

/-- The situation at a cursor, with the token before the position that the cursor stands for. -/
def situationAt (root : Text) (window : Int) (text : Text) (cursor : Int) : Situation :=
  let cursor : Int := text.clampCursor cursor
  situationWith root window text cursor (trigger text cursor)

end FluentQuery.Cursor
