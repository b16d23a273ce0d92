/-
  The arguments of a call: the text behind its opening parenthesis, cut at the commas that stand
  outside literals and outside nested brackets, up to the parenthesis that closes the call.
-/
import FluentQuery.Expression.Literal
import FluentQuery.Text.Blank

namespace FluentQuery

/-- The text of a call's arguments in pieces, none of them trimmed, and the distance of the closing
parenthesis from the start, if there is one. -/
structure Pieces where
  first : Text
  more : List Text
  closing : Option Nat
  deriving DecidableEq, Repr

namespace Pieces

/-- One more character in front of the first piece. -/
def push (c : CodePoint) (pieces : Pieces) : Pieces :=
  ⟨c :: pieces.first, pieces.more, pieces.closing.map (· + 1)⟩

/-- A comma in front of the first piece: an empty piece before it. -/
def cut (pieces : Pieces) : Pieces :=
  ⟨[], pieces.first :: pieces.more, pieces.closing.map (· + 1)⟩

/-- All pieces in order. -/
def toList (pieces : Pieces) : List Text := pieces.first :: pieces.more

/-- Whether the character opens a bracket. -/
def isOpener (c : CodePoint) : Bool := c = '(' || c = '[' || c = '\x7b'

/-- Whether the character closes a bracket. -/
def isCloser (c : CodePoint) : Bool := c = ')' || c = ']' || c = '\x7d'

/-- The pieces of a text that starts inside the literal `quote`, if any, at a depth of nesting, and
behind an odd run of backslashes iff `escaped`. All kinds of brackets count alike; at depth zero only a
parenthesis closes. -/
def scan (quotes : List CodePoint) (quote : Option CodePoint) (depth : Nat) (escaped : Bool) :
    Text → Pieces
  | [] => ⟨[], [], none⟩
  | c :: rest =>
    let behind := c = Text.backslash && !escaped
    match quote with
    | some q => (scan quotes (if c = q && !escaped then none else some q) depth behind rest).push c
    | none =>
      if c ∈ quotes && !escaped then (scan quotes (some c) depth behind rest).push c
      else if isOpener c then (scan quotes none (depth + 1) behind rest).push c
      else if isCloser c then
        match depth with
        | 0 => if c = ')' then ⟨[], [], some 0⟩ else (scan quotes none 0 behind rest).push c
        | outer + 1 => (scan quotes none outer behind rest).push c
      else if c = ',' && depth = 0 then (scan quotes none 0 behind rest).cut
      else (scan quotes none depth behind rest).push c

/-- The trimmed pieces; a single blank piece is no argument. -/
def arguments (pieces : Pieces) : List Text :=
  match pieces.toList.map Text.trim with
  | [[]] => []
  | arguments => arguments

theorem push_toList_sublist {c : CodePoint} {rest : Text} {pieces : Pieces}
    (h : ∀ p ∈ pieces.toList, p.Sublist rest) : ∀ p ∈ (pieces.push c).toList, p.Sublist (c :: rest) := by
  rintro p (_ | ⟨_, hp⟩)
  · exact (h _ List.mem_cons_self).cons_cons c
  · exact (h p (List.mem_cons_of_mem _ hp)).cons c

theorem cut_toList_sublist {c : CodePoint} {rest : Text} {pieces : Pieces}
    (h : ∀ p ∈ pieces.toList, p.Sublist rest) : ∀ p ∈ pieces.cut.toList, p.Sublist (c :: rest) := by
  rintro p (_ | ⟨_, hp⟩)
  · exact List.nil_sublist _
  · exact (h p hp).cons c

/-- A piece holds characters of the text, in their order. -/
theorem sublist_of_mem_scan {quotes : List CodePoint} {quote : Option CodePoint} {depth : Nat}
    {escaped : Bool} {text : Text} :
    ∀ p ∈ (scan quotes quote depth escaped text).toList, p.Sublist text := by
  induction text generalizing quote depth escaped with
  | nil =>
    intro p hp
    rw [List.mem_singleton.1 hp]
    exact List.nil_sublist _
  | cons c rest ih =>
    unfold scan
    dsimp only
    split
    · exact push_toList_sublist ih
    · split
      · exact push_toList_sublist ih
      · split
        · exact push_toList_sublist ih
        · split
          · split
            · split
              · intro p hp
                rw [List.mem_singleton.1 hp]
                exact List.nil_sublist _
              · exact push_toList_sublist ih
            · exact push_toList_sublist ih
          · split
            · exact cut_toList_sublist ih
            · exact push_toList_sublist ih

/-- Every argument is a trimmed piece. -/
theorem mem_toList_of_mem_arguments {pieces : Pieces} {argument : Text}
    (h : argument ∈ pieces.arguments) : ∃ p ∈ pieces.toList, p.trim = argument := by
  unfold arguments at h
  split at h
  · simp at h
  · exact List.mem_map.1 h

end Pieces

/-- The arguments of a call and the position of its closing parenthesis, if it is closed. -/
structure CallArguments where
  arguments : List Text
  closedAt : Option Nat
  deriving DecidableEq, Repr

namespace CallArguments

/-- Whether the call is closed. -/
def isClosed (s : CallArguments) : Bool := s.closedAt.isSome

end CallArguments

/-- The arguments of the call whose text starts at a position. -/
def argumentsFrom (quotes : List CodePoint) (text : Text) (start : Nat) : CallArguments :=
  let pieces := Pieces.scan quotes none 0 (escapedAt text start) (text.drop start)
  ⟨pieces.arguments, pieces.closing.map (start + ·)⟩

/-- The arguments of the call whose text this is. -/
def callArguments (text : Text) : CallArguments := argumentsFrom literalQuotes text 0

/-- The commas outside literals and nested brackets, as far as the call goes. -/
def countCommas (text : Text) : Nat := (callArguments text).arguments.length - 1

/-- An argument holds characters of the call, in their order. -/
theorem sublist_of_mem_callArguments {text argument : Text}
    (h : argument ∈ (callArguments text).arguments) : argument.Sublist text := by
  obtain ⟨p, hp, rfl⟩ := Pieces.mem_toList_of_mem_arguments h
  exact (Text.trim_sublist p).trans (Pieces.sublist_of_mem_scan p hp)

/-- No argument is longer than the text of the call. -/
theorem length_le_of_mem_callArguments {text argument : Text}
    (h : argument ∈ (callArguments text).arguments) : argument.length ≤ text.length :=
  (sublist_of_mem_callArguments h).length_le

end FluentQuery
