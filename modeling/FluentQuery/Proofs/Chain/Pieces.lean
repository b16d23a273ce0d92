/-
  Cutting arguments that were joined by commas. A text that the scan passes at any depth (`Whole`) is
  kept in one piece, so joined texts come back as the arguments, without the blanks around them:
  `callArguments_join`. Literals without quotes and backslashes inside are whole, and so are brackets
  around whole texts and commas.
-/
import FluentQuery.Expression.Arguments
import FluentQuery.Proofs.Text.Trim

namespace FluentQuery

namespace Pieces

/-- A text in front of the first piece. -/
def prepend (text : Text) (pieces : Pieces) : Pieces := text.foldr push pieces

theorem prepend_append (a b : Text) (pieces : Pieces) :
    pieces.prepend (a ++ b) = (pieces.prepend b).prepend a := by
  unfold prepend
  rw [List.foldr_append]

theorem prepend_cons (c : CodePoint) (text : Text) (pieces : Pieces) :
    pieces.prepend (c :: text) = (pieces.prepend text).push c := rfl

theorem prepend_eq (text : Text) (pieces : Pieces) :
    pieces.prepend text =
      ⟨text ++ pieces.first, pieces.more, pieces.closing.map (· + text.length)⟩ := by
  induction text with
  | nil => cases h : pieces.closing <;> simp [prepend, ← h]
  | cons c text ih =>
    rw [prepend_cons, ih]
    cases h : pieces.closing <;> simp [push, Nat.add_assoc]

/-- The pieces of a text that is scanned from outside all literals. -/
abbrev scanAt (depth : Nat) (text : Text) : Pieces := scan literalQuotes none depth false text

/-- The characters that mean something to the scan. -/
def specials : List CodePoint :=
  [Text.backslash, Text.singleQuote, Text.doubleQuote, Text.backtick, .char '(', .char '[',
    .char '\x7b', .char ')', .char ']', .char '\x7d', .char ',']

theorem scanAt_ordinary {c : CodePoint} (h : c ∉ specials) (depth : Nat) (rest : Text) :
    scanAt depth (c :: rest) = (scanAt depth rest).push c := by
  simp only [specials, List.mem_cons, List.not_mem_nil, or_false, not_or] at h
  obtain ⟨hslash, hsingle, hdouble, hback, h1, h2, h3, h4, h5, h6, hcomma⟩ := h
  have hquote : c ∉ literalQuotes := by simp [literalQuotes, hsingle, hdouble, hback]
  have hopen : isOpener c = false := by simp [isOpener, h1, h2, h3]
  have hclose : isCloser c = false := by simp [isCloser, h4, h5, h6]
  unfold scanAt
  rw [scan.eq_def]
  simp [hquote, hopen, hclose, hcomma, hslash]

theorem scanAt_comma_nested (depth : Nat) (rest : Text) :
    scanAt (depth + 1) (',' :: rest) = (scanAt (depth + 1) rest).push ',' := rfl

theorem scanAt_comma (rest : Text) : scanAt 0 (',' :: rest) = (scanAt 0 rest).cut := rfl

theorem scanAt_open (depth : Nat) (rest : Text) :
    scanAt depth ('[' :: rest) = (scanAt (depth + 1) rest).push '[' := rfl

theorem scanAt_close (depth : Nat) (rest : Text) :
    scanAt (depth + 1) (']' :: rest) = (scanAt depth rest).push ']' := rfl

theorem ne_backslash_of_mem {quote : CodePoint} (h : quote ∈ literalQuotes) :
    quote ≠ Text.backslash := by
  rintro rfl
  exact absurd h (by decide)

theorem scanAt_quote {quote : CodePoint} (h : quote ∈ literalQuotes) (depth : Nat) (rest : Text) :
    scanAt depth (quote :: rest) = (scan literalQuotes (some quote) depth false rest).push quote := by
  unfold scanAt
  rw [scan.eq_def]
  simp [h, ne_backslash_of_mem h]

theorem scanAt_end (rest : Text) : scanAt 0 (')' :: rest) = ⟨[], [], some 0⟩ := rfl

end Pieces

open Pieces

/-! ## Texts that stay in one piece -/

/-- The scan takes the text as it comes, at any depth. -/
def Whole (text : Text) : Prop :=
  ∀ depth rest, scanAt depth (text ++ rest) = (scanAt depth rest).prepend text

/-- Within brackets the scan takes the text as it comes. -/
def WholeWithin (text : Text) : Prop :=
  ∀ depth rest, scanAt (depth + 1) (text ++ rest) = (scanAt (depth + 1) rest).prepend text

namespace Whole

theorem append {a b : Text} (ha : Whole a) (hb : Whole b) : Whole (a ++ b) := by
  intro depth rest
  rw [List.append_assoc, ha, hb, prepend_append]

theorem of_ordinary {text : Text} (h : ∀ c ∈ text, c ∉ specials) : Whole text := by
  intro depth rest
  induction text with
  | nil => rfl
  | cons c text ih =>
    rw [List.cons_append, scanAt_ordinary (h c List.mem_cons_self),
      ih fun d hd => h d (List.mem_cons_of_mem c hd), prepend_cons]

/-- A text of characters of a kind that no special character is of. -/
theorem of_kind {kind : CodePoint → Bool} (hkind : ∀ s ∈ specials, kind s = false) {text : Text}
    (h : ∀ c ∈ text, kind c = true) : Whole text := by
  refine of_ordinary fun c hc hspecial => ?_
  have hfalse := hkind c hspecial
  rw [h c hc] at hfalse
  cases hfalse

theorem of_blanks {blanks : Text} (h : blanks.all Text.isBlank = true) : Whole blanks :=
  of_kind (by decide) (List.all_eq_true.1 h)

/-- Inside a literal the scan takes what is neither its quote nor a backslash. -/
theorem scan_content {quote : CodePoint} {content : Text} (hquote : quote ∉ content)
    (hslash : Text.backslash ∉ content) (depth : Nat) (rest : Text) :
    scan literalQuotes (some quote) depth false (content ++ rest) =
      (scan literalQuotes (some quote) depth false rest).prepend content := by
  induction content with
  | nil => rfl
  | cons c content ih =>
    rw [List.mem_cons, not_or] at hquote hslash
    rw [List.cons_append, scan.eq_def]
    simp [Ne.symm hquote.1, Ne.symm hslash.1, ih hquote.2 hslash.2, prepend_cons]

theorem of_literal {quote : CodePoint} {content : Text} (hmem : quote ∈ literalQuotes)
    (hquote : quote ∉ content) (hslash : Text.backslash ∉ content) :
    Whole (quote :: (content ++ [quote])) := by
  intro depth rest
  have hclose : scan literalQuotes (some quote) depth false (quote :: rest) =
      (scanAt depth rest).push quote := by
    rw [scan.eq_def]
    simp [ne_backslash_of_mem hmem]
  rw [List.cons_append, scanAt_quote hmem, List.append_assoc, scan_content hquote hslash, List.singleton_append,
    hclose, prepend_cons, prepend_append]
  rfl

theorem within {text : Text} (h : Whole text) : WholeWithin text := fun depth rest =>
  h (depth + 1) rest

theorem join {texts : List Text} (h : ∀ t ∈ texts, Whole t) :
    WholeWithin (Text.join [','] texts) := by
  induction texts with
  | nil => exact fun _ _ => rfl
  | cons t rest ih =>
    have ht := h t List.mem_cons_self
    cases rest with
    | nil => exact ht.within
    | cons u rest =>
      have ih := ih fun v hv => h v (List.mem_cons_of_mem t hv)
      intro depth tail
      rw [Text.join, List.append_assoc, List.append_assoc, ht, List.singleton_append,
        scanAt_comma_nested, ih, List.append_assoc, prepend_append, List.singleton_append, prepend_cons]

/-- Brackets hide the commas between them. -/
theorem bracketed {text : Text} (h : WholeWithin text) : Whole ('[' :: (text ++ [CodePoint.char ']'])) := by
  intro depth rest
  rw [List.cons_append, scanAt_open, List.append_assoc, h, List.singleton_append, scanAt_close,
    prepend_cons, prepend_append]
  rfl

end Whole

/-! ## Joined texts -/

/-- The text stands for one argument: it stays in one piece, and trimming leaves something of it. -/
structure IsArgument (text argument : Text) : Prop where
  whole : Whole text
  trim : text.trim = argument
  ne_nil : argument ≠ []

theorem callArguments_eq (text : Text) : callArguments text =
    ⟨(scanAt 0 text).arguments, (scanAt 0 text).closing.map (0 + ·)⟩ := rfl

/-- One argument fewer than pieces are joined by commas, also where a blank piece is no argument. -/
theorem countCommas_eq (text : Text) : countCommas text = (scanAt 0 text).more.length := by
  unfold countCommas
  rw [callArguments_eq]
  unfold Pieces.arguments
  dsimp only
  split
  · rename_i hlist
    have hlength := congrArg List.length hlist
    rw [List.length_map, toList, List.length_cons, List.length_singleton] at hlength
    exact (Nat.succ.inj hlength).symm
  · rw [List.length_map, toList, List.length_cons, Nat.add_sub_cancel]

section

variable {texts arguments : List Text} (h : List.Forall₂ IsArgument texts arguments)

include h

/-- Joined texts come back, where the scan finds nothing more behind them. -/
theorem scanAt_join (hne : texts ≠ []) (tail : Text) (hfirst : (scanAt 0 tail).first = [])
    (hmore : (scanAt 0 tail).more = []) :
    (scanAt 0 (Text.join [','] texts ++ tail)).toList.map Text.trim = arguments ∧
      (scanAt 0 (Text.join [','] texts ++ tail)).closing.isSome = (scanAt 0 tail).closing.isSome := by
  induction h with
  | nil => exact absurd rfl hne
  | @cons t argument rest arguments ht hrest ih =>
    cases hrest with
    | nil =>
      rw [Text.join, ht.whole, prepend_eq, toList, hfirst, hmore, List.append_nil, Option.isSome_map,
        List.map_singleton, ht.trim]
      exact ⟨rfl, rfl⟩
    | cons _ _ =>
      obtain ⟨hlist, hclosed⟩ := ih (List.cons_ne_nil _ _)
      rw [Text.join, List.append_assoc, List.append_assoc, ht.whole, List.singleton_append, scanAt_comma,
        prepend_eq, cut, toList, List.append_nil, Option.isSome_map, Option.isSome_map, List.map_cons,
        ht.trim]
      exact ⟨congrArg (argument :: ·) hlist, hclosed⟩

theorem arguments_of_toList {pieces : Pieces} (hlist : pieces.toList.map Text.trim = arguments) :
    pieces.arguments = arguments := by
  unfold Pieces.arguments
  rw [hlist]
  split
  · cases h with
    | cons ht _ => exact absurd rfl ht.ne_nil
  · rfl

/-- Texts that were joined by commas up to the end are the arguments. -/
theorem callArguments_join (hne : texts ≠ []) :
    (callArguments (Text.join [','] texts)).arguments = arguments := by
  obtain ⟨hlist, -⟩ := scanAt_join h hne [] rfl rfl
  rw [List.append_nil] at hlist
  exact arguments_of_toList h hlist

/-- Texts that were joined by commas up to a closing parenthesis are the arguments of a closed call. -/
theorem callArguments_join_closed (hne : texts ≠ []) (rest : Text) :
    (callArguments (Text.join [','] texts ++ CodePoint.char ')' :: rest)).arguments = arguments ∧
      (callArguments (Text.join [','] texts ++ CodePoint.char ')' :: rest)).isClosed = true := by
  have hend := scanAt_end rest
  obtain ⟨hlist, hclosed⟩ := scanAt_join h hne (CodePoint.char ')' :: rest)
    (congrArg first hend) (congrArg more hend)
  rw [hend] at hclosed
  refine ⟨arguments_of_toList h hlist, ?_⟩
  rw [callArguments_eq, CallArguments.isClosed, Option.isSome_map]
  exact hclosed

end

/-- Blanks are no arguments. -/
theorem arguments_scanAt_blanks {blanks : Text} (h : blanks.all Text.isBlank = true) (tail : Text)
    (hfirst : (scanAt 0 tail).first = []) (hmore : (scanAt 0 tail).more = []) :
    (scanAt 0 (blanks ++ tail)).arguments = [] := by
  have htrim : Text.trim blanks = [] := by
    have hnil : Text.trim (blanks ++ ([] ++ [])) = [] := Text.trim_surrounded h ⟨rfl, rfl⟩ rfl
    rwa [List.append_nil, List.append_nil] at hnil
  rw [Whole.of_blanks h, prepend_eq, arguments, toList, hfirst, hmore, List.append_nil, List.map_cons,
    List.map_nil, htrim]

theorem callArguments_blanks {blanks : Text} (h : blanks.all Text.isBlank = true) :
    (callArguments blanks).arguments = [] := by
  have hnone := arguments_scanAt_blanks h [] rfl rfl
  rwa [List.append_nil] at hnone

theorem callArguments_blanks_closed {blanks : Text} (h : blanks.all Text.isBlank = true)
    (rest : Text) : (callArguments (blanks ++ CodePoint.char ')' :: rest)).arguments = [] :=
  arguments_scanAt_blanks h _ (congrArg first (scanAt_end rest)) (congrArg more (scanAt_end rest))

end FluentQuery
