/-
  Literals, arguments and calls in a text with other quotes. Every scan compares quotes with each other or
  asks whether a character is a quote, so it stops at the same places (`LiteralState.run_map`,
  `Pieces.scanFrom_map`), and the texts that it cuts out are those of the text with the quotes exchanged.
-/
import FluentQuery.Expression.Call
import FluentQuery.Proofs.Expression.Nesting
import FluentQuery.Proofs.Text.Requoting

namespace FluentQuery

open Text (backslash)

variable {s : Equiv.Perm CodePoint}

/-! ## Literals -/

/-- The open literal with its quote exchanged. -/
def OpenLiteral.requote (s : Equiv.Perm CodePoint) (literal : OpenLiteral) : OpenLiteral :=
  ⟨s literal.quote, literal.start⟩

/-- The state of a scan with the quote of the open literal exchanged. -/
def LiteralState.requote (s : Equiv.Perm CodePoint) (state : LiteralState) : LiteralState :=
  ⟨state.opened.map (OpenLiteral.requote s), state.escaped⟩

theorem LiteralState.toggle_requote (opened : Option OpenLiteral) (quote : CodePoint) (position : Nat) :
    toggle (opened.map (OpenLiteral.requote s)) (s quote) position =
      (toggle opened quote position).map (OpenLiteral.requote s) := by
  cases opened with
  | none => rfl
  | some literal =>
    unfold toggle OpenLiteral.requote
    simp only [Option.map_some, s.injective.eq_iff]
    split <;> rfl

theorem getLast?_map_eq_some_iff (text : Text) (c : CodePoint) :
    (text.map s).getLast? = some (s c) ↔ text.getLast? = some c := by
  rw [List.getLast?_map]
  exact (Option.map_injective s.injective).eq_iff (b := some c)

section

variable {quotes : List CodePoint} (hquotes : ∀ c, s c ∈ quotes ↔ c ∈ quotes)

include hquotes

theorem literalContent?_map (token : Text) :
    literalContent? quotes (token.map s) = (literalContent? quotes token).map (List.map s) := by
  cases token with
  | nil => rfl
  | cons quote rest =>
    rw [List.map_cons]
    unfold literalContent?
    simp only [hquotes, getLast?_map_eq_some_iff]
    split
    · rw [Option.map_some, List.map_dropLast]
    · rfl

theorem withoutQuotes_map (token : Text) :
    withoutQuotes quotes (token.map s) = (withoutQuotes quotes token).map s := by
  unfold withoutQuotes
  rw [literalContent?_map hquotes]
  cases literalContent? quotes token with
  | some inner => rfl
  | none =>
    cases token with
    | nil => rfl
    | cons c rest =>
      have hlast : ((s c :: rest.map s).getLast?.any fun d => d ∈ quotes) =
          ((c :: rest).getLast?.any fun d => d ∈ quotes) := by
        rw [← List.map_cons, List.getLast?_map, Option.any_map]
        simp only [hquotes]
      simp only [Option.map_none, List.map_cons, hquotes, hlast]
      split
      · rfl
      · split
        · rw [← List.map_cons, List.map_dropLast]
        · rfl

end

section

variable (h : Requotes s literalQuotes)

include h

theorem eq_backslash_iff (c : CodePoint) : s c = backslash ↔ c = backslash := h.eq_iff (by decide) c

theorem escapedAt_map (text : Text) (position : Nat) :
    escapedAt (text.map s) position = escapedAt text position := by
  have hkind (c : CodePoint) : decide (s c = backslash) = decide (c = backslash) :=
    decide_eq_decide.2 (eq_backslash_iff h c)
  unfold escapedAt
  rw [← List.map_take, ← List.map_reverse, takeWhile_map_kind hkind, List.length_map]

theorem firstUnescaped_map (quote : CodePoint) (escaped : Bool) (text : Text) :
    firstUnescaped (s quote) escaped (text.map s) = firstUnescaped quote escaped text := by
  induction text generalizing escaped with
  | nil => rfl
  | cons c rest ih =>
    rw [List.map_cons]
    unfold firstUnescaped
    simp only [ih, s.injective.eq_iff, eq_backslash_iff h]

theorem lastUnescaped_map (quote : CodePoint) (escaped : Bool) (text : Text) :
    lastUnescaped (s quote) escaped (text.map s) = lastUnescaped quote escaped text := by
  induction text generalizing escaped with
  | nil => rfl
  | cons c rest ih =>
    rw [List.map_cons]
    unfold lastUnescaped
    simp only [ih, s.injective.eq_iff, eq_backslash_iff h]

variable {quotes : List CodePoint} (hquotes : ∀ c, s c ∈ quotes ↔ c ∈ quotes)

include hquotes

theorem LiteralState.step_map (position : Nat) (state : LiteralState) (c : CodePoint) :
    (state.requote s).step quotes position (s c) = (state.step quotes position c).requote s := by
  unfold step requote
  simp only [hquotes, eq_backslash_iff h, toggle_requote]
  split <;> rfl

theorem LiteralState.run_map (position : Nat) (state : LiteralState) (text : Text) :
    run quotes position (state.requote s) (text.map s) = (run quotes position state text).requote s := by
  induction text generalizing position state with
  | nil => rfl
  | cons c rest ih => rw [List.map_cons, run, run, step_map h hquotes, ih]

theorem openLiteral_map (text : Text) :
    openLiteral quotes (text.map s) = (openLiteral quotes text).map (OpenLiteral.requote s) :=
  congrArg LiteralState.opened (LiteralState.run_map h hquotes 0 .initial text)

end

/-! ## Arguments -/

/-- The pieces with their quotes exchanged. -/
def Pieces.requote (s : Equiv.Perm CodePoint) (pieces : Pieces) : Pieces :=
  ⟨pieces.first.map s, pieces.more.map (List.map s), pieces.closing⟩

/-- The nesting with the quote of the literal exchanged. -/
def Nesting.requote (s : Equiv.Perm CodePoint) (n : Nesting) : Nesting := ⟨n.quote.map s, n.depth⟩

/-- The arguments of a call with their quotes exchanged. -/
def CallArguments.requote (s : Equiv.Perm CodePoint) (call : CallArguments) : CallArguments :=
  ⟨call.arguments.map (List.map s), call.closedAt⟩

section

variable (h : Requotes s literalQuotes)

include h

/-- What a character does to the nesting, it does with the quotes exchanged. -/
theorem Nesting.step_requote {quotes : List CodePoint} (hquotes : ∀ c, s c ∈ quotes ↔ c ∈ quotes)
    (escaped : Bool) (n : Nesting) (c : CodePoint) :
    (n.requote s).step quotes escaped (s c) = (n.step quotes escaped c).requote s := by
  have hopener : Pieces.isOpener (s c) = Pieces.isOpener c := h.apply_kind (b := false) (by decide) c
  have hcloser : Pieces.isCloser (s c) = Pieces.isCloser c := h.apply_kind (b := false) (by decide) c
  obtain ⟨quote, depth⟩ := n
  unfold step requote
  cases quote with
  | some q =>
    simp only [Option.map_some, s.injective.eq_iff]
    split <;> rfl
  | none =>
    simp only [Option.map_none, hquotes, hopener, hcloser]
    split
    · rfl
    · split
      · rfl
      · split <;> rfl

omit h in
theorem Nesting.isOutside_requote {quotes : List CodePoint} (hquotes : ∀ c, s c ∈ quotes ↔ c ∈ quotes)
    (escaped : Bool) (n : Nesting) (c : CodePoint) :
    (n.requote s).isOutside quotes escaped (s c) = n.isOutside quotes escaped c := by
  obtain ⟨quote, depth⟩ := n
  unfold isOutside requote outermost
  cases quote <;> simp [hquotes]

/-- Before and behind the exchange the scan is in the same state, but for the quote of its literal. -/
theorem Pieces.scanFrom_map {quotes : List CodePoint} (hquotes : ∀ c, s c ∈ quotes ↔ c ∈ quotes)
    (n : Nesting) (escaped : Bool) (text : Text) :
    scanFrom quotes (n.requote s) escaped (text.map s) =
      (scanFrom quotes n escaped text).requote s := by
  have hparen (c : CodePoint) : s c = ')' ↔ c = ')' := h.eq_iff (by decide) c
  have hcomma (c : CodePoint) : s c = ',' ↔ c = ',' := h.eq_iff (by decide) c
  induction text generalizing n escaped with
  | nil => rfl
  | cons c rest ih =>
    rw [List.map_cons, scanFrom_cons, scanFrom_cons, Nesting.isOutside_requote hquotes,
      Nesting.step_requote h hquotes]
    simp only [hparen, hcomma, eq_backslash_iff h, ih]
    split
    · rfl
    · split <;> rfl

theorem Pieces.arguments_requote (pieces : Pieces) :
    (pieces.requote s).arguments = pieces.arguments.map (List.map s) := by
  have htrimmed : (pieces.requote s).toList.map Text.trim =
      (pieces.toList.map Text.trim).map (List.map s) := by
    have hlist : (pieces.requote s).toList = pieces.toList.map (List.map s) := rfl
    rw [hlist, List.map_map, List.map_map]
    exact List.map_congr_left fun p _ => Text.trim_map h p
  unfold arguments
  rw [htrimmed]
  match pieces.toList.map Text.trim with
  | [] | [[]] | [_ :: _] | [] :: _ :: _ | (_ :: _) :: _ :: _ => rfl

theorem callArguments_map (text : Text) :
    callArguments (text.map s) = (callArguments text).requote s := by
  have hpieces : piecesFrom literalQuotes (text.map s) 0 = (piecesFrom literalQuotes text 0).requote s := by
    unfold piecesFrom
    rw [escapedAt_map h, ← List.map_drop]
    exact Pieces.scanFrom_map h h.mem_iff .outermost _ _
  unfold callArguments
  rw [argumentsFrom_eq, argumentsFrom_eq, hpieces, Pieces.arguments_requote h]
  rfl

theorem isClosed_callArguments_map (text : Text) :
    (callArguments (text.map s)).isClosed = (callArguments text).isClosed := by
  rw [callArguments_map h]
  rfl

theorem countCommas_map (text : Text) : countCommas (text.map s) = countCommas text := by
  unfold countCommas
  rw [callArguments_map h]
  exact congrArg (· - 1) (List.length_map _)

end

/-! ## Calls -/

section

variable {α β : Type} {find : Text → Option α} {find' : Text → Option β} {f : α → β}
  (hfind : ∀ text, find' (text.map s) = (find text).map f)

include hfind

theorem firstPlace?_map (text : Text) :
    firstPlace? find' (text.map s) = (firstPlace? find text).map f := by
  induction text with
  | nil => exact hfind []
  | cons c rest ih =>
    have hhere := hfind (c :: rest)
    rw [List.map_cons] at hhere ⊢
    rw [firstPlace?, firstPlace?, hhere, ih]
    cases find (c :: rest) <;> rfl

theorem allPlaces_map (text : Text) :
    allPlaces find' (text.map s) = (allPlaces find text).map f := by
  have htoList (found : Option α) : (found.map f).toList = found.toList.map f := by
    cases found <;> rfl
  induction text with
  | nil => exact (congrArg Option.toList (hfind [])).trans (htoList _)
  | cons c rest ih =>
    have hhere := hfind (c :: rest)
    rw [List.map_cons] at hhere ⊢
    rw [allPlaces, allPlaces, hhere, ih, htoList, List.map_append]

end

namespace Call

variable (h : Requotes s literalQuotes)

include h

theorem skipTo?_map {expected : CodePoint} (hexpected : expected ∉ literalQuotes) (text : Text) :
    skipTo? expected (text.map s) = (skipTo? expected text).map (List.map s) := by
  unfold skipTo?
  rw [Text.trimStart_map h]
  cases Text.trimStart text with
  | nil => rfl
  | cons c rest =>
    simp only [List.map_cons, h.eq_iff hexpected]
    split <;> rfl

theorem open?_map {name : Text} (hname : ∀ c ∈ name, c ∉ literalQuotes) (text : Text) :
    open? name (text.map s) = (open? name text).map (List.map s) := by
  have hstart : (CodePoint.char '.' :: name).map s = CodePoint.char '.' :: name := by
    rw [List.map_cons, h.map_eq_self hname, h.fixes '.' (by decide)]
  have hafter := Text.after?_map (s := s) (CodePoint.char '.' :: name) text
  rw [hstart] at hafter
  unfold open?
  rw [hafter]
  cases Text.after? (CodePoint.char '.' :: name) text with
  | none => rfl
  | some behind => exact skipTo?_map h (by decide) behind

/-- What a literal holds and what stands behind it. -/
theorem literal?_map (text : Text) : literal? (text.map s) =
    (literal? text).map fun found => (found.1.map s, found.2.map s) := by
  have hkind (c : CodePoint) : decide (s c ∉ literalQuotes) = decide (c ∉ literalQuotes) :=
    decide_eq_decide.2 (not_congr (h.mem_iff c))
  unfold literal?
  rw [Text.trimStart_map h]
  cases Text.trimStart text with
  | nil => rfl
  | cons quote rest =>
    have htake : (rest.map s).takeWhile (· ∉ literalQuotes) =
        (rest.takeWhile (· ∉ literalQuotes)).map s := takeWhile_map_kind hkind rest
    have hdrop : (rest.map s).dropWhile (· ∉ literalQuotes) =
        (rest.dropWhile (· ∉ literalQuotes)).map s := dropWhile_map_kind hkind rest
    simp only [List.map_cons, h.mem_iff]
    rw [htake, hdrop]
    split
    · cases rest.takeWhile fun c => decide (c ∉ literalQuotes) with
      | nil => rfl
      | cons c content =>
        cases rest.dropWhile fun c => decide (c ∉ literalQuotes) with
        | nil => rfl
        | cons closing behind => rfl
    · rfl

end Call

end FluentQuery
