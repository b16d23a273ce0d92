/-
  Texts in which every literal and every bracket is closed (`Balanced`), and texts that end somewhere
  within them (`Fluent`). `fluent_iff`: such an end is behind a balanced text, in a literal that is still
  open, or in a group that is still open, and there again. The scan for arguments passes a balanced text
  and counts the commas that stand directly in it (`Balanced.passes`); it finds no closing parenthesis in
  an unfinished one (`Unfinished.ends`).
-/
import FluentQuery.Proofs.Chain.Pieces

namespace FluentQuery

/-! ## The grammar -/

/-- The kinds of brackets that group. -/
inductive Bracket where
  | round
  | square
  | curly
  deriving DecidableEq, Repr

namespace Bracket

/-- The character that opens a group. -/
def opener : Bracket → CodePoint
  | round => '('
  | square => '['
  | curly => '\x7b'

/-- The character that closes a group. -/
def closer : Bracket → CodePoint
  | round => ')'
  | square => ']'
  | curly => '\x7d'

end Bracket

/-- The character is no quote, no bracket and no backslash. -/
def IsPlainChar (c : CodePoint) : Prop :=
  c ∉ literalQuotes ∧ Pieces.isOpener c = false ∧ Pieces.isCloser c = false ∧ c ≠ Text.backslash

instance (c : CodePoint) : Decidable (IsPlainChar c) := inferInstanceAs (Decidable (_ ∧ _))

/-- What may stand behind the opening quote of a literal: neither that quote nor a backslash nor an
opening parenthesis. -/
structure IsContent (quote : CodePoint) (content : Text) : Prop where
  quote_mem : quote ∈ literalQuotes
  quote_not_mem : quote ∉ content
  backslash_not_mem : Text.backslash ∉ content
  paren_not_mem : CodePoint.char '(' ∉ content

theorem IsContent.paren_not_mem_cons {quote : CodePoint} {content : Text} (h : IsContent quote content) :
    CodePoint.char '(' ∉ quote :: content := by
  rw [List.mem_cons, not_or]
  refine ⟨?_, h.paren_not_mem⟩
  rintro rfl
  exact absurd h.quote_mem (by decide)

/-- A text of plain characters, literals, and well-nested groups. -/
inductive Balanced where
  | nil
  | plain (run : Text) (h : ∀ c ∈ run, IsPlainChar c) (rest : Balanced)
  | literal (quote : CodePoint) (content : Text) (h : IsContent quote content) (rest : Balanced)
  | group (bracket : Bracket) (inside rest : Balanced)

namespace Balanced

def text : Balanced → Text
  | nil => []
  | plain run _ rest => run ++ rest.text
  | literal quote content _ rest => quote :: (content ++ [quote]) ++ rest.text
  | group bracket inside rest =>
    bracket.opener :: (inside.text ++ [bracket.closer]) ++ rest.text

/-- How many commas stand directly in the text, in no literal and no group of it. -/
def commas : Balanced → Nat
  | nil => 0
  | plain run _ rest => Text.countOf ',' run + rest.commas
  | literal _ _ _ rest => rest.commas
  | group _ _ rest => rest.commas

/-- One text behind another. -/
def append : Balanced → Balanced → Balanced
  | nil, behind => behind
  | plain run h rest, behind => plain run h (rest.append behind)
  | literal quote content h rest, behind => literal quote content h (rest.append behind)
  | group bracket inside rest, behind => group bracket inside (rest.append behind)

theorem text_append (b behind : Balanced) : (b.append behind).text = b.text ++ behind.text := by
  induction b with
  | nil => rfl
  | plain run h rest ih => rw [append, text, ih, text, List.append_assoc]
  | literal quote content h rest ih => rw [append, text, ih, text, List.append_assoc]
  | group bracket inside rest _ ih => rw [append, text, ih, text, List.append_assoc]

end Balanced

/-- A text that starts like a balanced one: behind a balanced front it is done, or it ends in a literal
or in a group. -/
inductive Unfinished where
  | done (front : Balanced)
  | inLiteral (front : Balanced) (quote : CodePoint) (content : Text) (h : IsContent quote content)
  | inGroup (front : Balanced) (bracket : Bracket) (inside : Unfinished)

namespace Unfinished

/-- What stands before the first literal or group that is still open. -/
def front : Unfinished → Balanced
  | done front => front
  | inLiteral front _ _ _ => front
  | inGroup front _ _ => front

def text : Unfinished → Text
  | done front => front.text
  | inLiteral front quote content _ => front.text ++ quote :: content
  | inGroup front bracket inside => front.text ++ bracket.opener :: inside.text

/-- How many commas stand directly in the text so far. -/
def commas (u : Unfinished) : Nat := u.front.commas

/-- The text with another front. -/
def mapFront (f : Balanced → Balanced) : Unfinished → Unfinished
  | done front => done (f front)
  | inLiteral front quote content h => inLiteral (f front) quote content h
  | inGroup front bracket inside => inGroup (f front) bracket inside

theorem text_mapFront {f : Balanced → Balanced} (start : Text)
    (hf : ∀ b, (f b).text = start ++ b.text) (u : Unfinished) :
    (u.mapFront f).text = start ++ u.text := by
  cases u <;> simp [mapFront, text, hf]

/-- The text with everything closed that is open at its end. -/
def closed : Unfinished → Balanced
  | done front => front
  | inLiteral front quote content h => front.append (.literal quote content h .nil)
  | inGroup front bracket inside => front.append (.group bracket inside.closed .nil)

theorem text_prefix_closed (u : Unfinished) : u.text <+: u.closed.text := by
  induction u with
  | done front => exact List.prefix_refl _
  | inLiteral front quote content h =>
    rw [text, closed, Balanced.text_append, Balanced.text, List.cons_append, List.append_assoc]
    exact (List.prefix_append_right_inj _).2 (List.cons_prefix_cons.2 ⟨rfl, List.prefix_append _ _⟩)
  | inGroup front bracket inside ih =>
    rw [text, closed, Balanced.text_append, Balanced.text, List.cons_append, List.append_assoc]
    exact (List.prefix_append_right_inj _).2
      (List.cons_prefix_cons.2 ⟨rfl, ih.trans (List.prefix_append _ _)⟩)

end Unfinished

/-- The text is the start of a balanced one. -/
def Fluent (text : Text) : Prop := ∃ b : Balanced, text <+: b.text

/-! ## Where a start of a balanced text ends -/

/-- A start of two texts in a row is a start of the first one, or all of it and a start of the other. -/
theorem prefix_append_cases {α : Type} {part a b : List α} (h : part <+: a ++ b) :
    part <+: a ∨ ∃ rest, part = a ++ rest ∧ rest <+: b := by
  rcases List.prefix_or_prefix_of_prefix h (List.prefix_append a b) with hpart | ⟨rest, rfl⟩
  · exact .inl hpart
  · exact .inr ⟨rest, rfl, (List.prefix_append_right_inj a).1 h⟩

/-- A start of an enclosed text stops at its first character, inside, or nowhere. -/
theorem prefix_enclosed_cases {α : Type} {part inside : List α} {a b : α}
    (h : part <+: a :: (inside ++ [b])) :
    part = [] ∨ (∃ start, part = a :: start ∧ start <+: inside) ∨ part = a :: (inside ++ [b]) := by
  rcases List.prefix_cons_iff.1 h with rfl | ⟨start, rfl, hstart⟩
  · exact .inl rfl
  · rcases List.prefix_concat_iff.1 hstart with rfl | hstart
    · exact .inr (.inr rfl)
    · exact .inr (.inl ⟨start, rfl, hstart⟩)

theorem IsContent.of_prefix {quote : CodePoint} {content part : Text} (h : IsContent quote content)
    (hpart : part <+: content) : IsContent quote part where
  quote_mem := h.quote_mem
  quote_not_mem hmem := h.quote_not_mem (hpart.subset hmem)
  backslash_not_mem hmem := h.backslash_not_mem (hpart.subset hmem)
  paren_not_mem hmem := h.paren_not_mem (hpart.subset hmem)

theorem Balanced.exists_text_eq_of_prefix (b : Balanced) {part : Text} (h : part <+: b.text) :
    ∃ u : Unfinished, u.text = part := by
  induction b generalizing part with
  | nil => exact ⟨.done .nil, (List.prefix_nil.1 h).symm⟩
  | plain run hrun rest ih =>
    rcases prefix_append_cases h with hpart | ⟨part, rfl, hpart⟩
    · exact ⟨.done (.plain part (fun c hc => hrun c (hpart.subset hc)) .nil), List.append_nil _⟩
    · obtain ⟨u, rfl⟩ := ih hpart
      exact ⟨u.mapFront (.plain run hrun), Unfinished.text_mapFront _ (fun _ => rfl) u⟩
  | literal quote content hcontent rest ih =>
    rcases prefix_append_cases h with hpart | ⟨part, rfl, hpart⟩
    · rcases prefix_enclosed_cases hpart with rfl | ⟨start, rfl, hstart⟩ | rfl
      · exact ⟨.done .nil, rfl⟩
      · exact ⟨.inLiteral .nil quote start (hcontent.of_prefix hstart), rfl⟩
      · exact ⟨.done (.literal quote content hcontent .nil), List.append_nil _⟩
    · obtain ⟨u, rfl⟩ := ih hpart
      exact ⟨u.mapFront (.literal quote content hcontent), Unfinished.text_mapFront _ (fun _ => rfl) u⟩
  | group bracket inside rest ihInside ihRest =>
    rcases prefix_append_cases h with hpart | ⟨part, rfl, hpart⟩
    · rcases prefix_enclosed_cases hpart with rfl | ⟨start, rfl, hstart⟩ | rfl
      · exact ⟨.done .nil, rfl⟩
      · obtain ⟨u, rfl⟩ := ihInside hstart
        exact ⟨.inGroup .nil bracket u, rfl⟩
      · exact ⟨.done (.group bracket inside .nil), List.append_nil _⟩
    · obtain ⟨u, rfl⟩ := ihRest hpart
      exact ⟨u.mapFront (.group bracket inside), Unfinished.text_mapFront _ (fun _ => rfl) u⟩

/-- The starts of balanced texts are the unfinished texts. -/
theorem fluent_iff {text : Text} : Fluent text ↔ ∃ u : Unfinished, u.text = text := by
  constructor
  · rintro ⟨b, hb⟩
    exact b.exists_text_eq_of_prefix hb
  · rintro ⟨u, rfl⟩
    exact ⟨u.closed, u.text_prefix_closed⟩

/-! ## What the scan for arguments makes of them -/

open Pieces

/-- The scan goes on behind the text as if nothing had been there, but for commas of its own that it
meets outside all brackets. -/
def Passes (text : Text) (commas : Nat) : Prop :=
  ∀ depth rest,
    (scanAt depth (text ++ rest)).closing.isSome = (scanAt depth rest).closing.isSome ∧
      (scanAt depth (text ++ rest)).more.length =
        (if depth = 0 then commas else 0) + (scanAt depth rest).more.length

/-- The scan ends with the text, and finds no closing parenthesis on the way, but so many commas of its
own outside all brackets. -/
def Ends (text : Text) (commas : Nat) : Prop :=
  ∀ depth, (scanAt depth text).closing = none ∧
    (scanAt depth text).more.length = if depth = 0 then commas else 0

namespace Passes

variable {a b : Text} {m n : Nat}

theorem append (ha : Passes a m) (hb : Passes b n) : Passes (a ++ b) (m + n) := by
  intro depth rest
  obtain ⟨hclosing, hmore⟩ := ha depth (b ++ rest)
  obtain ⟨hclosing', hmore'⟩ := hb depth rest
  rw [List.append_assoc, hclosing, hmore, hclosing', hmore']
  refine ⟨rfl, ?_⟩
  split <;> omega

theorem of_whole (h : Whole a) : Passes a 0 := by
  intro depth rest
  rw [h, prepend_eq, Option.isSome_map, ite_self, Nat.zero_add]
  exact ⟨rfl, rfl⟩

theorem nil : Passes [] 0 := of_whole fun _ _ => rfl

theorem comma : Passes [CodePoint.char ','] 1 := by
  intro depth rest
  cases depth with
  | zero =>
    rw [List.singleton_append, scanAt_comma]
    exact ⟨Option.isSome_map, Nat.add_comm _ _⟩
  | succ depth =>
    rw [List.singleton_append, scanAt_comma_nested]
    exact ⟨Option.isSome_map, (Nat.zero_add _).symm⟩

end Passes

/-- An opening bracket leads one level down. -/
theorem scanAt_opener (bracket : Bracket) (depth : Nat) (rest : Text) :
    scanAt depth (bracket.opener :: rest) = (scanAt (depth + 1) rest).push bracket.opener := by
  cases bracket <;> rfl

/-- A closing bracket of any kind leads one level up. -/
theorem scanAt_closer (bracket : Bracket) (depth : Nat) (rest : Text) :
    scanAt (depth + 1) (bracket.closer :: rest) = (scanAt depth rest).push bracket.closer := by
  cases bracket <;> rfl

theorem Passes.group {inside : Text} {n : Nat} (h : Passes inside n) (bracket : Bracket) :
    Passes (bracket.opener :: (inside ++ [bracket.closer])) 0 := by
  intro depth rest
  obtain ⟨hclosing, hmore⟩ := h (depth + 1) (bracket.closer :: rest)
  rw [scanAt_closer] at hclosing hmore
  rw [List.cons_append, List.append_assoc, List.singleton_append, scanAt_opener]
  simp only [push, Option.isSome_map] at hclosing hmore ⊢
  rw [hclosing, hmore]
  simp

/-- A plain character other than a comma means nothing to the scan. -/
theorem IsPlainChar.not_mem_specials {c : CodePoint} (h : IsPlainChar c) (hcomma : c ≠ ',') :
    c ∉ specials := by
  obtain ⟨hquote, hopen, hclose, hslash⟩ := h
  simp only [literalQuotes, List.mem_cons, List.not_mem_nil, or_false, not_or] at hquote
  simp only [isOpener, isCloser, Bool.or_eq_false_iff, decide_eq_false_iff_not] at hopen hclose
  simp only [specials, List.mem_cons, List.not_mem_nil, or_false, not_or]
  exact ⟨hslash, hquote.1, hquote.2.1, hquote.2.2, hopen.1.1, hopen.1.2, hopen.2, hclose.1.1,
    hclose.1.2, hclose.2, hcomma⟩

theorem IsPlainChar.passes {c : CodePoint} (h : IsPlainChar c) :
    Passes [c] (Text.countOf ',' [c]) := by
  unfold Text.countOf
  by_cases hcomma : c = ','
  · rw [hcomma, List.count_singleton_self]
    exact Passes.comma
  · rw [List.count_eq_zero_of_not_mem (by simpa using Ne.symm hcomma)]
    refine Passes.of_whole (Whole.of_ordinary fun d hd => ?_)
    rw [List.mem_singleton.1 hd]
    exact h.not_mem_specials hcomma

/-- Of plain characters the scan counts the commas. -/
theorem Passes.of_plain {run : Text} (h : ∀ c ∈ run, IsPlainChar c) :
    Passes run (Text.countOf ',' run) := by
  induction run with
  | nil => exact nil
  | cons c run ih =>
    have hfirst := (h c List.mem_cons_self).passes
    have hpasses := hfirst.append (ih fun d hd => h d (List.mem_cons_of_mem c hd))
    unfold Text.countOf at hpasses ⊢
    rwa [← List.count_append] at hpasses

theorem Balanced.passes (b : Balanced) : Passes b.text b.commas := by
  induction b with
  | nil => exact Passes.nil
  | plain run h rest ih => exact (Passes.of_plain h).append ih
  | literal quote content h rest ih =>
    have hwhole := Whole.of_literal h.quote_mem h.quote_not_mem h.backslash_not_mem
    have hpasses := (Passes.of_whole hwhole).append ih
    rwa [Nat.zero_add] at hpasses
  | group bracket inside rest ihInside ihRest =>
    have hpasses := (ihInside.group bracket).append ihRest
    rwa [Nat.zero_add] at hpasses

theorem Passes.ends {a b : Text} {n : Nat} (ha : Passes a n) (hb : Ends b 0) : Ends (a ++ b) n := by
  intro depth
  obtain ⟨hclosing, hmore⟩ := ha depth b
  obtain ⟨hclosing', hmore'⟩ := hb depth
  rw [hclosing'] at hclosing
  rw [hmore', ite_self, Nat.add_zero] at hmore
  exact ⟨Option.isNone_iff_eq_none.1 (by simpa using hclosing), hmore⟩

namespace Ends

theorem nil : Ends [] 0 := fun _ => ⟨rfl, (ite_self _).symm⟩

/-- A literal that is still open hides what is in it. -/
theorem literal {quote : CodePoint} {content : Text} (h : IsContent quote content) :
    Ends (quote :: content) 0 := by
  intro depth
  have hcontent := Whole.scan_content h.quote_not_mem h.backslash_not_mem depth []
  rw [List.append_nil] at hcontent
  rw [scanAt_quote h.quote_mem, hcontent, prepend_eq]
  exact ⟨rfl, (ite_self _).symm⟩

/-- A group that is still open hides what is in it. -/
theorem group {inside : Text} {n : Nat} (h : Ends inside n) (bracket : Bracket) :
    Ends (bracket.opener :: inside) 0 := by
  intro depth
  obtain ⟨hclosing, hmore⟩ := h (depth + 1)
  rw [scanAt_opener, ite_self]
  refine ⟨?_, hmore.trans (if_neg (Nat.succ_ne_zero depth))⟩
  simp only [push, hclosing, Option.map_none]

end Ends

theorem Unfinished.ends (u : Unfinished) : Ends u.text u.commas := by
  induction u with
  | done front =>
    have hends := front.passes.ends Ends.nil
    rwa [List.append_nil] at hends
  | inLiteral front quote content h => exact front.passes.ends (Ends.literal h)
  | inGroup front bracket inside ih => exact front.passes.ends (ih.group bracket)

end FluentQuery
