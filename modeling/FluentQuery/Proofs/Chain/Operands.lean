/-
  Spelled operands are read back: `Spells.parse`. A spelled text has no blank at its ends, the scan for
  arguments passes it in one piece, and no search for calls stops in it; so the items of a list are
  found again, and the reading goes by induction on the spelling.
-/
import FluentQuery.Proofs.Chain.Pieces
import FluentQuery.Proofs.Chain.Spelling
import FluentQuery.Proofs.Numeric.DecimalText
import FluentQuery.Proofs.Results

namespace FluentQuery

/-- Two lists that are made item by item are related if the items are. -/
theorem forall₂_map {α β γ : Type} {r : β → γ → Prop} {f : α → β} {g : α → γ} {items : List α}
    (h : ∀ i ∈ items, r (f i) (g i)) : List.Forall₂ r (items.map f) (items.map g) := by
  rw [List.forall₂_map_left_iff, List.forall₂_map_right_iff, List.forall₂_same]
  exact h

/-! ## Texts in quotes -/

theorem isBlank_of_mem_literalQuotes {quote : CodePoint} (h : quote ∈ literalQuotes) :
    Text.isBlank quote = false := by
  revert quote
  decide

theorem tight_quoted {quote : CodePoint} (h : Text.isBlank quote = false) (content : Text) :
    Text.Tight (quote :: (content ++ [quote])) := by
  refine ⟨h, ?_⟩
  unfold Text.endsInBlank
  rw [← List.cons_append, List.getLast?_concat]
  exact h

theorem literalContent?_quoted {quotes : List CodePoint} {quote : CodePoint} (h : quote ∈ quotes)
    (content : Text) : literalContent? quotes (quote :: (content ++ [quote])) = some content := by
  unfold literalContent?
  dsimp only
  rw [List.getLast?_concat, List.dropLast_concat]
  simp [h]

theorem formOf_quoted {quote : CodePoint} (h : quote ∈ literalQuotes) (content : Text) :
    Operand.formOf (quote :: (content ++ [quote])) = .atom (.ok (.text content)) := by
  unfold Operand.formOf
  dsimp only
  rw [if_pos h, literalContent?_quoted h]
  rfl

theorem Operand.bracketed?_open (rest : Text) : bracketed? ('[' :: rest) =
    if rest.getLast? = some (CodePoint.char ']') then some rest.dropLast else none := rfl

/-- A text in quotes is the text, whatever stands in it. -/
theorem parse_quoted {quote : CodePoint} (h : quote ∈ literalQuotes) (content : Text) :
    Operand.parse (quote :: (content ++ [quote])) = .ok (.text content) := by
  rw [Operand.parse_eq, (tight_quoted (isBlank_of_mem_literalQuotes h) content).trim,
    formOf_quoted h]

namespace Spelling

/-! ## Literals and blanks -/

theorem Blanks.silent (b : Blanks) : Silent b.text := by
  refine Silent.of_not_mem fun hpoint => ?_
  exact absurd (List.all_eq_true.1 b.blank _ hpoint) (by decide)

theorem Blanks.whole (b : Blanks) : Whole b.text := Whole.of_blanks b.blank

namespace Literal

variable (l : Literal)

theorem unmarked_content : Unmarked l.content := fun c hc => (l.plain c hc).1

theorem quote_not_mem : l.quote ∉ l.content := by
  intro hmem
  exact l.unmarked_content _ hmem (List.mem_cons_of_mem _ l.quote_mem)

theorem isBlank_quote : Text.isBlank l.quote = false := isBlank_of_mem_literalQuotes l.quote_mem

theorem tight : Text.Tight l.spell := tight_quoted l.isBlank_quote l.content

theorem ne_nil : l.spell ≠ [] := List.cons_ne_nil _ _

theorem whole : Whole l.spell :=
  Whole.of_literal l.quote_mem l.quote_not_mem fun hmem => (l.plain _ hmem).2 rfl

theorem silent : Silent l.spell := by
  have hpoint : ∀ q ∈ literalQuotes, q ≠ '.' := by decide
  exact Silent.cons (hpoint _ l.quote_mem) (Silent.content l.unmarked_content l.quote_mem)

/-- The inside of a literal is its content. -/
theorem literalContent?_spell : literalContent? literalQuotes l.spell = some l.content :=
  literalContent?_quoted l.quote_mem l.content

end Literal

namespace Padded

variable {α : Type} {spell : α → Text} (p : Padded α)

theorem trim_spell (h : Text.Tight (spell p.item)) : (p.spell spell).trim = spell p.item :=
  Text.trim_surrounded p.front.blank h p.back.blank

theorem whole (h : Whole (spell p.item)) : Whole (p.spell spell) :=
  p.front.whole.append (h.append p.back.whole)

theorem isArgument (hwhole : Whole (spell p.item)) (htight : Text.Tight (spell p.item))
    (hne : spell p.item ≠ []) : IsArgument (p.spell spell) (spell p.item) :=
  ⟨p.whole hwhole, p.trim_spell htight, hne⟩

theorem silent (h : Silent (spell p.item)) : Silent (p.spell spell) :=
  p.front.silent.append (h.append p.back.silent)

end Padded

/-! ## Operands -/

theorem tight_of_forall {text : Text} (h : ∀ c ∈ text, Text.isBlank c = false) :
    Text.Tight text := by
  constructor
  · cases text with
    | nil => rfl
    | cons c rest => exact h c List.mem_cons_self
  · unfold Text.endsInBlank
    cases hlast : text.getLast? with
    | none => rfl
    | some c => exact h c (List.mem_of_getLast? hlast)

theorem tight_bracketed (inside : Text) : Text.Tight ('[' :: (inside ++ [CodePoint.char ']'])) := by
  refine ⟨rfl, ?_⟩
  unfold Text.endsInBlank
  rw [← List.cons_append, List.getLast?_concat]
  decide

theorem Spells.tight {text : Text} {v : Value} (h : Spells text v) : Text.Tight text := by
  cases h with
  | bool b => cases b <;> exact ⟨by decide, by decide⟩
  | int _ => exact tight_of_forall fun c hc => Decimal.isBlank_of_mem_ofInt hc
  | text l => exact l.tight
  | nil blanks => exact tight_bracketed _
  | list _ _ => exact tight_bracketed _

theorem ofInt_ne_nil (n : Int) : Decimal.ofInt n ≠ [] := by
  unfold Decimal.ofInt
  split
  · exact List.cons_ne_nil _ _
  · exact Decimal.ofNat_ne_nil _

theorem Spells.ne_nil {text : Text} {v : Value} (h : Spells text v) : text ≠ [] := by
  cases h with
  | bool b => cases b <;> decide
  | int _ => exact ofInt_ne_nil _
  | text l => exact l.ne_nil
  | nil blanks => exact List.cons_ne_nil _ _
  | list _ _ => exact List.cons_ne_nil _ _

/-- What integers are written with: a minus sign and digits. -/
def isNumeralChar (c : CodePoint) : Bool := c = '-' || c.isDigit

theorem isNumeralChar_of_mem_ofInt {n : Int} {c : CodePoint} (h : c ∈ Decimal.ofInt n) :
    isNumeralChar c = true := by
  unfold Decimal.ofInt at h
  unfold isNumeralChar
  split at h
  · rcases List.mem_cons.1 h with rfl | h
    · rfl
    · simp [Decimal.isDigit_of_mem_ofNat h]
  · simp [Decimal.isDigit_of_mem_ofNat h]

theorem Spells.whole {text : Text} {v : Value} (h : Spells text v) : Whole text := by
  induction h with
  | bool b => cases b <;> exact Whole.of_ordinary (by decide)
  | int _ => exact Whole.of_kind (by decide) fun c hc => isNumeralChar_of_mem_ofInt hc
  | text l => exact l.whole
  | nil blanks => exact Whole.bracketed blanks.whole.within
  | list _ _ ih =>
    refine Whole.bracketed (Whole.join fun t ht => ?_)
    obtain ⟨i, hi, rfl⟩ := List.mem_map.1 ht
    exact i.whole (ih i hi)

theorem Spells.silent {text : Text} {v : Value} (h : Spells text v) : Silent text := by
  induction h with
  | bool b => cases b <;> exact Silent.of_not_mem (by decide)
  | int _ =>
    refine Silent.of_not_mem fun hpoint => ?_
    exact absurd (isNumeralChar_of_mem_ofInt hpoint) (by decide)
  | text l => exact l.silent
  | nil blanks =>
    exact Silent.cons (by decide) (blanks.silent.append (Silent.of_not_mem (by decide)))
  | list _ _ ih =>
    refine Silent.cons (by decide) (Silent.append (Silent.join fun t ht => ?_)
      (Silent.of_not_mem (by decide)))
    obtain ⟨i, hi, rfl⟩ := List.mem_map.1 ht
    exact i.silent (ih i hi)

/-- The form of bracketed text: its arguments are the items. -/
theorem formOf_bracketed (inside : Text) :
    Operand.formOf ('[' :: (inside ++ [CodePoint.char ']'])) =
      .items (callArguments inside).arguments := by
  have hbracketed : Operand.bracketed? ('[' :: (inside ++ [CodePoint.char ']'])) = some inside := by
    rw [Operand.bracketed?_open, List.getLast?_concat, List.dropLast_concat, if_pos rfl]
  unfold Operand.formOf
  dsimp only
  rw [if_neg (by decide), if_neg (by simp), if_neg (by simp), hbracketed]

theorem formOf_ofInt {n : Int} (h : n.natAbs < 10 ^ Decimal.maxDigits) :
    Operand.formOf (Decimal.ofInt n) = .atom (.ok (.int n)) := by
  cases htext : Decimal.ofInt n with
  | nil => exact absurd htext (ofInt_ne_nil n)
  | cons c rest =>
    have hc : isNumeralChar c = true := isNumeralChar_of_mem_ofInt (n := n) (by simp [htext])
    have hquote : c ∉ literalQuotes := fun hmem => by
      have hquotes : ∀ q ∈ literalQuotes, isNumeralChar q = false := by decide
      rw [hquotes c hmem] at hc
      cases hc
    have hword : ∀ word : Text, (∀ d ∈ word.head?, isNumeralChar d = false) → c :: rest ≠ word := by
      rintro word hword rfl
      rw [hword c rfl] at hc
      cases hc
    have hbracket : Operand.bracketed? (c :: rest) = none := by
      unfold Operand.bracketed?
      split
      · rename_i heq
        cases heq
        cases hc
      · rfl
    unfold Operand.formOf
    dsimp only
    rw [if_neg hquote, if_neg (hword _ (by decide)), if_neg (hword _ (by decide)), hbracket, ← htext,
      Decimal.number?_ofInt h]
    rfl

theorem formOf_literal (l : Literal) :
    Operand.formOf l.spell = .atom (.ok (.text l.content)) := formOf_quoted l.quote_mem l.content

/-- A spelled operand is read as the value that it spells. -/
theorem Spells.parse {text : Text} {v : Value} (h : Spells text v) : Operand.parse text = .ok v := by
  have htight := h.tight
  induction h with
  | bool b =>
    rw [Operand.parse_eq, htight.trim]
    cases b <;> rfl
  | int hn => rw [Operand.parse_eq, htight.trim, formOf_ofInt hn]
  | text l => rw [Operand.parse_eq, htight.trim, formOf_literal]
  | nil blanks =>
    rw [Operand.parse_eq, htight.trim, formOf_bracketed, callArguments_blanks blanks.blank]
    rfl
  | @list items hne hitems ih =>
    have harguments : List.Forall₂ IsArgument (items.map (Padded.spell Prod.fst))
        (items.map fun i => i.item.1) := forall₂_map fun i hi =>
      i.isArgument (hitems i hi).whole (hitems i hi).tight (hitems i hi).ne_nil
    have hnonempty : items.map (Padded.spell Prod.fst) ≠ [] := by simpa using hne
    rw [Operand.parse_eq, htight.trim, formOf_bracketed, callArguments_join harguments hnonempty]
    dsimp only
    rw [mapM_map_eq_ok fun i hi => ih i hi (hitems i hi).tight]
    rfl

end Spelling

end FluentQuery
