/-
  Where in the text of a call a character stands: in which literal, and how many brackets deep. The nesting
  at a position is that of one pass from the start of the call, with quotes tested by looking back for
  backslashes (`nestingAt`). The scan for arguments keeps track of it (`Pieces.scanFrom_cons`), so it stops at
  the first parenthesis outside of all literals and brackets and cuts at the commas there
  (`isPartition_scanFrom`). `argumentsFrom_isPartition`: no text of an argument is lost, doubled or cut
  elsewhere, and every argument is a part of the text, a list item a shorter one than the list.
-/
import FluentQuery.Expression.Operand
import FluentQuery.Proofs.Expression.Unescaped
import FluentQuery.Proofs.Text.Trim

namespace FluentQuery

/-! ## Nesting -/

/-- In which literal something stands, if in any, and how many brackets deep. -/
structure Nesting where
  quote : Option CodePoint
  depth : Nat
  deriving DecidableEq, Repr

namespace Nesting

/-- Outside all literals and brackets. -/
def outermost : Nesting := ⟨none, 0⟩

/-- The nesting behind a character. In a literal only its quote counts, elsewhere brackets of all kinds count
alike, and a closing one that closes nothing does not count. -/
def step (quotes : List CodePoint) (escaped : Bool) (n : Nesting) (c : CodePoint) : Nesting :=
  match n.quote with
  | some quote => if c = quote && !escaped then ⟨none, n.depth⟩ else n
  | none =>
    if c ∈ quotes && !escaped then ⟨some c, n.depth⟩
    else if Pieces.isOpener c then ⟨none, n.depth + 1⟩
    else if Pieces.isCloser c then ⟨none, n.depth - 1⟩
    else n

/-- Whether a character is outside all literals and brackets: none is open, and it opens no literal. -/
def isOutside (quotes : List CodePoint) (escaped : Bool) (n : Nesting) (c : CodePoint) : Bool :=
  n = outermost && !(c ∈ quotes && !escaped)

end Nesting

/-- The nesting at a position of a text, for a call whose arguments start at another one. -/
def nestingAt (quotes : List CodePoint) (text : Text) (start : Nat) : Nat → Nesting
  | 0 => .outermost
  | position + 1 =>
    if position < start then .outermost
    else
      match text[position]? with
      | some c =>
        (nestingAt quotes text start position).step quotes (escapedAt text position) c
      | none => nestingAt quotes text start position

/-- Whether the character stands at a position of the text, outside all literals and brackets of the call. -/
def standsOutside (quotes : List CodePoint) (text : Text) (start : Nat) (c : CodePoint)
    (position : Nat) : Bool :=
  text[position]? = some c &&
    (nestingAt quotes text start position).isOutside quotes (escapedAt text position) c

section NestingAt

variable {quotes : List CodePoint} {text : Text} {start position : Nat} {c : CodePoint}

theorem nestingAt_of_le (h : position ≤ start) : nestingAt quotes text start position = .outermost := by
  cases position with
  | zero => rfl
  | succ position => exact if_pos h

theorem nestingAt_succ (h : start ≤ position) (hc : text[position]? = some c) :
    nestingAt quotes text start (position + 1) =
      (nestingAt quotes text start position).step quotes (escapedAt text position) c := by
  rw [nestingAt, if_neg (Nat.not_lt.2 h), hc]

theorem eq_of_standsOutside {d : CodePoint} (hc : text[position]? = some c)
    (h : standsOutside quotes text start d position = true) : c = d := by
  rw [standsOutside, hc, Bool.and_eq_true, decide_eq_true_eq] at h
  exact Option.some.inj h.1

theorem standsOutside_eq {d : CodePoint} (hc : text[position]? = some c) :
    standsOutside quotes text start d position =
      ((nestingAt quotes text start position).isOutside quotes (escapedAt text position) c && c = d) := by
  unfold standsOutside
  simp only [hc, Option.some_inj]
  by_cases h : c = d
  · rw [h, Bool.and_comm]
  · simp [h]

/-- Whether a position is escaped is decided by the text before it. -/
theorem escapedAt_eq (text : Text) (position : Nat) :
    escapedAt text position = escapedBehind false (text.take position) := by
  have h := escapedAt_append (text.take position) []
  unfold escapedAt at h ⊢
  rwa [List.take_left] at h

theorem escapedAt_succ (hc : text[position]? = some c) :
    escapedAt text (position + 1) = (c = Text.backslash && !escapedAt text position) := by
  rw [escapedAt_eq, escapedAt_eq, List.take_add_one, hc, Option.toList_some, escapedBehind_append]
  rfl

end NestingAt

/-! ## The scan keeps track of the nesting -/

namespace Pieces

/-- The pieces of a text that is scanned from somewhere in the nesting. -/
abbrev scanFrom (quotes : List CodePoint) (n : Nesting) (escaped : Bool) (text : Text) : Pieces :=
  scan quotes n.quote n.depth escaped text

/-- What the scan does with a character: it stops at a parenthesis that closes nothing, cuts at a comma
outside all literals and brackets, and takes any other character as it comes. -/
theorem scanFrom_cons (quotes : List CodePoint) (n : Nesting) (escaped : Bool) (c : CodePoint)
    (rest : Text) :
    scanFrom quotes n escaped (c :: rest) =
      if n.isOutside quotes escaped c && c = ')' then ⟨[], [], some 0⟩
      else if n.isOutside quotes escaped c && c = ',' then
        (scanFrom quotes (n.step quotes escaped c) (c = Text.backslash && !escaped) rest).cut
      else (scanFrom quotes (n.step quotes escaped c) (c = Text.backslash && !escaped) rest).push c := by
  obtain ⟨quote, depth⟩ := n
  unfold scanFrom Nesting.isOutside Nesting.step
  rw [scan.eq_def]
  cases quote with
  | some q => by_cases hclose : (c = q && !escaped) = true <;> simp [Nesting.outermost, hclose]
  | none =>
    by_cases hquote : (c ∈ quotes && !escaped) = true
    · simp [hquote]
    by_cases hopen : isOpener c = true
    · have hne : c ≠ ')' ∧ c ≠ ',' := by
        constructor <;> rintro rfl <;> exact absurd hopen (by decide)
      simp [hquote, hopen, hne]
    by_cases hclose : isCloser c = true
    · have hne : c ≠ ',' := by
        rintro rfl
        exact absurd hclose (by decide)
      cases depth <;> simp [hquote, hopen, hclose, hne, Nesting.outermost]
    · have hne : c ≠ ')' := by
        rintro rfl
        exact hclose rfl
      cases depth <;> simp [hquote, hopen, hclose, hne, Nesting.outermost]

/-- Where the pieces from a position on end in a text of some length. -/
def stop (pieces : Pieces) (position length : Nat) : Nat :=
  (pieces.closing.map (position + ·)).getD length

theorem map_closing_succ (closing : Option Nat) (position : Nat) :
    (closing.map (· + 1)).map (position + ·) = closing.map (position + 1 + ·) := by
  rw [Option.map_map]
  congr 1
  funext distance
  show position + (distance + 1) = position + 1 + distance
  omega

theorem le_stop (pieces : Pieces) {position length : Nat} (h : position ≤ length) :
    position ≤ pieces.stop position length := by
  unfold stop
  cases pieces.closing with
  | none => exact h
  | some distance => exact Nat.le_add_right _ _

end Pieces

/-! ## The partition of the text -/

/-- The places between pieces in a row that start at a position and have one character between any two of
them. -/
def cutPlaces (start : Nat) : List Text → List Nat
  | [] => []
  | [_] => []
  | piece :: next :: rest =>
    (start + piece.length) :: cutPlaces (start + piece.length + 1) (next :: rest)

/-- The pieces are those of a text from a position on, for a call whose arguments start at another one. -/
structure IsPartition (quotes : List CodePoint) (text : Text) (start position : Nat) (pieces : Pieces) :
    Prop where
  /-- The call is closed by the first parenthesis outside all literals and brackets. -/
  closing : pieces.closing.map (position + ·) =
    (List.range' position (text.length - position)).find? (standsOutside quotes text start ')')
  /-- Up to there the text is cut at the commas outside all literals and brackets. -/
  cuts : cutPlaces position pieces.toList =
    (List.range' position (pieces.stop position text.length - position)).filter
      (standsOutside quotes text start ',')
  /-- The pieces with commas between them are the text. -/
  join : Text.join [','] pieces.toList = (text.take (pieces.stop position text.length)).drop position

namespace IsPartition

variable {quotes : List CodePoint} {text : Text} {start position : Nat} {pieces : Pieces} {c : CodePoint}

/-- Nothing is left at the end of the text. -/
theorem of_length_le (h : text.length ≤ position) :
    IsPartition quotes text start position ⟨[], [], none⟩ where
  closing := by
    rw [Nat.sub_eq_zero_of_le h]
    rfl
  cuts := by
    show [] = (List.range' position (text.length - position)).filter _
    rw [Nat.sub_eq_zero_of_le h]
    rfl
  join := by
    show [] = (text.take text.length).drop position
    rw [List.take_length, List.drop_eq_nil_of_le h]

end IsPartition

theorem range'_eq_cons {position stop : Nat} (h : position < stop) :
    List.range' position (stop - position) =
      position :: List.range' (position + 1) (stop - (position + 1)) := by
  rw [← List.range'_succ]
  congr 1
  omega

theorem drop_eq_cons_of_getElem? {α : Type} {l : List α} {i : Nat} {x : α} (h : l[i]? = some x) :
    l.drop i = x :: l.drop (i + 1) := by
  obtain ⟨hi, rfl⟩ := List.getElem?_eq_some_iff.1 h
  exact List.drop_eq_getElem_cons hi

theorem cutPlaces_cons_cons (start : Nat) (c : CodePoint) (first : Text) (more : List Text) :
    cutPlaces start ((c :: first) :: more) = cutPlaces (start + 1) (first :: more) := by
  have hlength : start + (c :: first).length = start + 1 + first.length := by
    rw [List.length_cons]
    omega
  cases more with
  | nil => rfl
  | cons next rest => rw [cutPlaces, cutPlaces, hlength]

theorem cutPlaces_nil_cons (start : Nat) (first : Text) (more : List Text) :
    cutPlaces start ([] :: first :: more) = start :: cutPlaces (start + 1) (first :: more) := rfl

theorem join_cons_cons (separator : Text) (c : CodePoint) (first : Text) (more : List Text) :
    Text.join separator ((c :: first) :: more) = c :: Text.join separator (first :: more) := by
  cases more <;> rfl

namespace IsPartition

variable {quotes : List CodePoint} {text : Text} {start position : Nat} {pieces : Pieces} {c : CodePoint}

/-- A parenthesis outside all literals and brackets ends the pieces. -/
theorem of_closing (hlt : position < text.length)
    (h : standsOutside quotes text start ')' position = true) :
    IsPartition quotes text start position ⟨[], [], some 0⟩ where
  closing := by
    rw [range'_eq_cons hlt, List.find?_cons_of_pos h]
    rfl
  cuts := by
    show [] = (List.range' position (position - position)).filter _
    rw [Nat.sub_self]
    rfl
  join := by
    show [] = (text.take position).drop position
    exact (List.drop_take_self ..).symm

section Step

variable (hc : text[position]? = some c)
  (hopen : standsOutside quotes text start ')' position = false)
  (h : IsPartition quotes text start (position + 1) pieces)

include hc hopen h

/-- A character in front of the pieces that does not close the call leaves the place where it is closed. -/
theorem closing_step :
    (pieces.closing.map (· + 1)).map (position + ·) =
      (List.range' position (text.length - position)).find? (standsOutside quotes text start ')') := by
  obtain ⟨hlt, -⟩ := List.getElem?_eq_some_iff.1 hc
  rw [Pieces.map_closing_succ, h.closing, range'_eq_cons hlt, List.find?_cons_of_neg (by simp [hopen])]

omit hopen in
theorem join_step : c :: Text.join [','] pieces.toList =
    (text.take (pieces.stop (position + 1) text.length)).drop position := by
  obtain ⟨hlt, -⟩ := List.getElem?_eq_some_iff.1 hc
  have hstop : position < pieces.stop (position + 1) text.length := pieces.le_stop hlt
  have htake : (text.take (pieces.stop (position + 1) text.length))[position]? = some c := by
    rw [List.getElem?_take, if_pos hstop, hc]
  rw [drop_eq_cons_of_getElem? htake, h.join]

/-- Any other character stands at the start of the first piece. -/
theorem push (hcomma : standsOutside quotes text start ',' position = false) :
    IsPartition quotes text start position (pieces.push c) := by
  obtain ⟨hlt, -⟩ := List.getElem?_eq_some_iff.1 hc
  have hle : position < pieces.stop (position + 1) text.length := pieces.le_stop hlt
  have hstop : (pieces.push c).stop position text.length = pieces.stop (position + 1) text.length :=
    congrArg (Option.getD · _) (Pieces.map_closing_succ _ _)
  refine ⟨h.closing_step hc hopen, ?_, ?_⟩
  · rw [hstop, range'_eq_cons hle, List.filter_cons_of_neg (by simp [hcomma]), ← h.cuts]
    exact cutPlaces_cons_cons position c pieces.first pieces.more
  · rw [hstop, ← h.join_step hc]
    exact join_cons_cons _ c pieces.first pieces.more

/-- A comma outside all literals and brackets stands in front of the first piece. -/
theorem cut (hcomma : standsOutside quotes text start ',' position = true) (heq : c = ',') :
    IsPartition quotes text start position pieces.cut := by
  obtain ⟨hlt, -⟩ := List.getElem?_eq_some_iff.1 hc
  have hle : position < pieces.stop (position + 1) text.length := pieces.le_stop hlt
  have hstop : pieces.cut.stop position text.length = pieces.stop (position + 1) text.length :=
    congrArg (Option.getD · _) (Pieces.map_closing_succ _ _)
  refine ⟨h.closing_step hc hopen, ?_, ?_⟩
  · rw [hstop, range'_eq_cons hle, List.filter_cons_of_pos hcomma, ← h.cuts]
    exact cutPlaces_nil_cons position pieces.first pieces.more
  · rw [hstop, ← h.join_step hc, heq]
    rfl

end Step

end IsPartition

/-- The scan finds the pieces of the text, wherever in the text it has come. -/
theorem isPartition_scanFrom {quotes : List CodePoint} {text : Text} {start position : Nat}
    (hle : start ≤ position) {rest : Text} (hrest : text.drop position = rest) :
    IsPartition quotes text start position
      (Pieces.scanFrom quotes (nestingAt quotes text start position) (escapedAt text position) rest) := by
  induction rest generalizing position with
  | nil => exact .of_length_le (List.drop_eq_nil_iff.1 hrest)
  | cons c rest ih =>
    have hc : text[position]? = some c := by rw [← List.head?_drop, hrest, List.head?_cons]
    obtain ⟨hlt, -⟩ := List.getElem?_eq_some_iff.1 hc
    have hbehind : text.drop (position + 1) = rest := by
      rw [← List.tail_drop, hrest, List.tail_cons]
    have hnext := ih (Nat.le_succ_of_le hle) hbehind
    rw [nestingAt_succ hle hc, escapedAt_succ hc] at hnext
    rw [Pieces.scanFrom_cons, ← standsOutside_eq hc, ← standsOutside_eq hc]
    split
    · rename_i hclosing
      exact .of_closing hlt hclosing
    · rename_i hopen
      rw [Bool.not_eq_true] at hopen
      split
      · rename_i hcomma
        exact hnext.cut hc hopen hcomma (eq_of_standsOutside hc hcomma)
      · rename_i hcomma
        exact hnext.push hc hopen (Bool.not_eq_true _ ▸ hcomma)

/-! ## The arguments -/

/-- The pieces that the scan for the arguments of a call finds. -/
def piecesFrom (quotes : List CodePoint) (text : Text) (start : Nat) : Pieces :=
  Pieces.scanFrom quotes .outermost (escapedAt text start) (text.drop start)

theorem argumentsFrom_eq (quotes : List CodePoint) (text : Text) (start : Nat) :
    argumentsFrom quotes text start =
      ⟨(piecesFrom quotes text start).arguments, (piecesFrom quotes text start).closing.map (start + ·)⟩ :=
  rfl

theorem isPartition_piecesFrom (quotes : List CodePoint) (text : Text) (start : Nat) :
    IsPartition quotes text start start (piecesFrom quotes text start) := by
  have h := @isPartition_scanFrom quotes text start start (Nat.le_refl start) _ rfl
  rwa [nestingAt_of_le (Nat.le_refl start)] at h

theorem Pieces.arguments_eq (pieces : Pieces) : pieces.arguments =
    if pieces.toList.map Text.trim = [[]] then [] else pieces.toList.map Text.trim := by
  unfold arguments
  split
  · rename_i hblank
    rw [if_pos hblank]
  · rename_i hblank
    rw [if_neg hblank]

theorem infix_join_of_mem {separator piece : Text} {pieces : List Text} (h : piece ∈ pieces) :
    piece <:+: Text.join separator pieces := by
  induction pieces with
  | nil => cases h
  | cons first rest ih =>
    cases rest with
    | nil =>
      rw [List.mem_singleton.1 h]
      exact List.infix_rfl
    | cons next rest =>
      rcases List.mem_cons.1 h with rfl | h
      · rw [Text.join, List.append_assoc]
        exact (List.prefix_append _ _).isInfix
      · exact (ih h).trans (List.suffix_append _ _).isInfix

/-- An argument is a part of the text that was cut. -/
theorem IsPartition.infix_of_mem_arguments {quotes : List CodePoint} {text : Text} {start position : Nat}
    {pieces : Pieces} (h : IsPartition quotes text start position pieces) {argument : Text}
    (harg : argument ∈ pieces.arguments) :
    argument <:+: (text.take (pieces.stop position text.length)).drop position := by
  obtain ⟨piece, hpiece, rfl⟩ := Pieces.mem_toList_of_mem_arguments harg
  rw [← h.join]
  exact (Text.trim_infix piece).trans (infix_join_of_mem hpiece)

namespace Operand

theorem infix_of_bracketed? {text inner : Text} (h : bracketed? text = some inner) :
    inner <:+: text := by
  unfold bracketed? at h
  split at h
  · split at h
    · cases h
      exact (List.dropLast_prefix _).isInfix.trans (List.suffix_cons _ _).isInfix
    · cases h
  · cases h

/-- An item of a list is a part of it. -/
theorem infix_of_formOf {text : Text} {items : List Text} (h : formOf text = .items items) {item : Text}
    (hitem : item ∈ items) : item <:+: text := by
  obtain ⟨inner, hinner, rfl⟩ := bracketed?_of_formOf h
  have hpart := (isPartition_piecesFrom literalQuotes inner 0).infix_of_mem_arguments hitem
  rw [List.drop_zero] at hpart
  exact hpart.trans ((List.take_prefix _ _).isInfix.trans (infix_of_bracketed? hinner))

end Operand

/-- A call is closed by the first parenthesis outside its literals and brackets. Up to there, or up to the end
of the text where there is none, the text is cut at exactly the commas outside literals and brackets: the
pieces with commas between them are the text. Its arguments are the trimmed pieces, except that a single blank
piece is no argument. So every argument is a part of the text; and the items of a list operand are parts of it
that are shorter than it. -/
theorem argumentsFrom_isPartition (quotes : List CodePoint) (text : Text) (start : Nat) :
    let call := argumentsFrom quotes text start
    let stop := call.closedAt.getD text.length
    let pieces := (piecesFrom quotes text start).toList
    call.closedAt =
        (List.range' start (text.length - start)).find? (standsOutside quotes text start ')') ∧
      cutPlaces start pieces =
        (List.range' start (stop - start)).filter (standsOutside quotes text start ',') ∧
      Text.join [','] pieces = (text.take stop).drop start ∧
      call.arguments = (if pieces.map Text.trim = [[]] then [] else pieces.map Text.trim) ∧
      (∀ argument ∈ call.arguments, argument <:+: (text.take stop).drop start) ∧
      ∀ operand items, Operand.formOf operand = .items items →
        ∀ item ∈ items, item <:+: operand ∧ item.length < operand.length := by
  intro call stop pieces
  have h := isPartition_piecesFrom quotes text start
  refine ⟨h.closing, h.cuts, h.join, Pieces.arguments_eq _, fun argument harg =>
    h.infix_of_mem_arguments harg, ?_⟩
  intro operand items hitems item hitem
  exact ⟨Operand.infix_of_formOf hitems hitem, Operand.length_lt_of_formOf hitems item hitem⟩

/-- An escaped quote does not end the literal, its comma and those in brackets do not cut, and a bracket may be
closed by one of another kind. -/
theorem argumentsFrom_isPartition_escaped_quote :
    let text : Text := ("where('it\\'s, ok', [1, 2\x7d, f(x)) y" : String)
    let call := argumentsFrom literalQuotes text 6
    let name : Text := ("'it\\'s, ok'" : String)
    let list : Text := ("[1, 2\x7d" : String)
    let last : Text := ("f(x)" : String)
    let operand : Text := ("[1, [2, 3]]" : String)
    let one : Text := ("1" : String)
    let item : Text := ("[2, 3]" : String)
    call.arguments = [name, list, last] ∧
      call.closedAt = some 31 ∧
      (List.range' 6 (text.length - 6)).find? (standsOutside literalQuotes text 6 ')') = some 31 ∧
      (List.range' 6 (31 - 6)).filter (standsOutside literalQuotes text 6 ',') = [17, 25] ∧
      last ∈ call.arguments ∧ last <:+: (text.take 31).drop 6 ∧
      Operand.formOf operand = .items [one, item] ∧ item <:+: operand ∧
      item.length < operand.length := by
  intro text call name list last operand one item
  have hargs : call.arguments = [name, list, last] := by decide
  have hclosed : call.closedAt = some 31 := by decide
  have hplaces : cutPlaces 6 (piecesFrom literalQuotes text 6).toList = [17, 25] := by decide
  have hlast : last ∈ call.arguments := by
    rw [hargs]
    simp
  have hform : Operand.formOf operand = .items [one, item] := rfl
  obtain ⟨hclosing, hcuts, -, -, hparts, hitems⟩ := argumentsFrom_isPartition literalQuotes text 6
  have hpart := hparts last hlast
  have hitem := hitems operand _ hform item (by simp)
  change call.closedAt = _ at hclosing
  change _ = (List.range' 6 (call.closedAt.getD text.length - 6)).filter _ at hcuts
  change last <:+: (text.take (call.closedAt.getD text.length)).drop 6 at hpart
  rw [hclosed] at hclosing hcuts hpart
  rw [hplaces] at hcuts
  exact ⟨hargs, hclosed, hclosing.symm, hcuts.symm, hlast, hpart, hform, hitem⟩

end FluentQuery
