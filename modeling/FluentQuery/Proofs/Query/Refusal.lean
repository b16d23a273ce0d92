/-
  When an expression is refused. Whatever stands in a text, its parameters are read, unless an integer
  of more than 4300 digits has to be read or written: the first limit, an operand, or a default limit
  that is made use of. `parse_succeeds_iff` names these four causes and shows that there is no other.
  Each part of the parser has its own cause (`RefusedIff`), and the causes add up along the parser.
-/
import FluentQuery.Proofs.Numeric.DecimalText
import FluentQuery.Proofs.Query.CallSites
import FluentQuery.Query.Parse

namespace FluentQuery

/-! ## Operands -/

namespace Numeral

/-- Whether a numeral can start with the character: a sign, a digit or a point. -/
def isStart (c : CodePoint) : Bool := c = '-' || c = '+' || c = '.' || isRunChar c

theorem splitSign_of_ne {c : CodePoint} (hminus : c ≠ '-') (hplus : c ≠ '+') (rest : Text) :
    splitSign (c :: rest) = (false, c :: rest) := by
  unfold splitSign
  split
  · rename_i heq
    cases heq
    exact absurd rfl hminus
  · rename_i heq
    cases heq
    exact absurd rfl hplus
  · rfl

theorem isStart_of_read? {c : CodePoint} {rest : Text} {n : Numeral}
    (h : read? .plain (c :: rest) = some n) : isStart c = true := by
  by_contra hstart
  simp only [isStart, Bool.or_eq_true, decide_eq_true_eq, not_or] at hstart
  obtain ⟨⟨⟨hminus, hplus⟩, hpoint⟩, hrun⟩ := hstart
  unfold read? at h
  rw [splitSign_of_ne hminus hplus] at h
  dsimp only at h
  rw [List.takeWhile_cons_of_neg hrun, List.dropWhile_cons_of_neg hrun] at h
  simp only [Grouping.someDigits?, if_true, Option.bind_eq_bind, Option.bind_some] at h
  split at h
  · rename_i heq
    cases heq
    exact absurd rfl hpoint
  · simp at h

end Numeral

namespace Operand

/-- An operand with an integer of too many digits in it: the operand itself, or an item of a list at any
depth. -/
inductive Overlong : Text → Prop
  | integer {text : Text} {n : Numeral} : Numeral.read? .plain text.trim = some n →
      n.isInteger = true → Decimal.maxDigits < n.whole.length → Overlong text
  | item {text inner item : Text} : bracketed? text.trim = some inner →
      item ∈ (callArguments inner).arguments → Overlong item → Overlong text

theorem number?_refusedIff {text : Text} {n : Numeral} (h : Numeral.read? .plain text = some n) :
    RefusedIff ((number? text).getD (.ok (.text text)))
      (n.isInteger = true ∧ Decimal.maxDigits < n.whole.length) := by
  unfold number?
  rw [h, Option.map_some, Option.getD_some]
  by_cases hinteger : n.isInteger = true
  · rw [if_pos hinteger]
    exact ((Decimal.readSigned_refusedIff n.negative n.whole).map Value.int).of_iff (by simp [hinteger])
  · rw [if_neg hinteger]
    exact (RefusedIff.ok _).of_iff (by simp [hinteger])

theorem eq_of_bracketed? {text inner : Text} (h : bracketed? text = some inner) :
    ∃ rest, text = CodePoint.char '[' :: rest := by
  unfold bracketed? at h
  split at h
  · exact ⟨_, rfl⟩
  · cases h

/-- A numeral is no literal, no word and no list. -/
theorem formOf_of_read? {text : Text} {n : Numeral} (h : Numeral.read? .plain text = some n) :
    formOf text = .atom ((number? text).getD (.ok (.text text))) ∧ bracketed? text = none := by
  cases text with
  | nil => cases h
  | cons c rest =>
    have hstart := Numeral.isStart_of_read? h
    have hquotes : ∀ q ∈ literalQuotes, Numeral.isStart q = false := by decide
    have hquote : c ∉ literalQuotes := by
      intro hmem
      rw [hquotes c hmem] at hstart
      cases hstart
    have htrue : c :: rest ≠ ("true" : String) := by
      rintro ⟨⟩
      cases hstart
    have hfalse : c :: rest ≠ ("false" : String) := by
      rintro ⟨⟩
      cases hstart
    have hbracketed : bracketed? (c :: rest) = none := by
      cases hinner : bracketed? (c :: rest) with
      | none => rfl
      | some inner =>
        obtain ⟨_, heq⟩ := eq_of_bracketed? hinner
        cases heq
        cases hstart
    refine ⟨?_, hbracketed⟩
    rw [formOf, if_neg hquote, if_neg htrue, if_neg hfalse, hbracketed]

theorem formOf_of_bracketed? {text inner : Text} (h : bracketed? text = some inner) :
    formOf text = .items (callArguments inner).arguments := by
  obtain ⟨rest, rfl⟩ := eq_of_bracketed? h
  have hquote : CodePoint.char '[' ∉ literalQuotes := by decide
  have htrue : CodePoint.char '[' :: rest ≠ ("true" : String) := nofun
  have hfalse : CodePoint.char '[' :: rest ≠ ("false" : String) := nofun
  rw [formOf, if_neg hquote, if_neg htrue, if_neg hfalse, h]

theorem exists_formOf {text : Text} (hread : Numeral.read? .plain text = none)
    (hbracketed : bracketed? text = none) : ∃ v, formOf text = .atom (.ok v) := by
  unfold formOf
  split
  · exact ⟨_, rfl⟩
  · split
    · exact ⟨_, rfl⟩
    · split
      · exact ⟨_, rfl⟩
      · split
        · exact ⟨_, rfl⟩
        · rw [hbracketed, number?, hread]
          exact ⟨_, rfl⟩

theorem overlong_iff_of_read? {text : Text} {n : Numeral}
    (h : Numeral.read? .plain text.trim = some n) (hbracketed : bracketed? text.trim = none) :
    Overlong text ↔ n.isInteger = true ∧ Decimal.maxDigits < n.whole.length := by
  constructor
  · intro hlong
    cases hlong with
    | integer hread hinteger hlength =>
      cases h.symm.trans hread
      exact ⟨hinteger, hlength⟩
    | item hinner _ _ => cases hbracketed.symm.trans hinner
  · rintro ⟨hinteger, hlength⟩
    exact .integer h hinteger hlength

theorem overlong_iff_of_bracketed? {text inner : Text} (hread : Numeral.read? .plain text.trim = none)
    (h : bracketed? text.trim = some inner) :
    Overlong text ↔ ∃ item ∈ (callArguments inner).arguments, Overlong item := by
  constructor
  · intro hlong
    cases hlong with
    | integer hnumeral _ _ => cases hread.symm.trans hnumeral
    | item hinner hmem hitem =>
      cases h.symm.trans hinner
      exact ⟨_, hmem, hitem⟩
  · rintro ⟨item, hmem, hitem⟩
    exact .item h hmem hitem

/-- An operand is refused exactly if an integer in it has too many digits. -/
theorem parse_refusedIff (text : Text) : RefusedIff (parse text) (Overlong text) := by
  induction hlength : text.length using Nat.strongRecOn generalizing text with
  | ind length ih =>
    rw [parse_eq]
    cases hread : Numeral.read? .plain text.trim with
    | some n =>
      obtain ⟨hform, hbracketed⟩ := formOf_of_read? hread
      rw [hform]
      exact (number?_refusedIff hread).of_iff (overlong_iff_of_read? hread hbracketed).symm
    | none =>
      cases hbracketed : bracketed? text.trim with
      | some inner =>
        have hform := formOf_of_bracketed? hbracketed
        have hitems : ∀ item ∈ (callArguments inner).arguments,
            RefusedIff (parse item) (Overlong item) := by
          intro item hitem
          refine ih item.length ?_ item rfl
          have hitem := length_lt_of_formOf hform item hitem
          have htrim := Text.length_trim_le text
          omega
        rw [hform]
        exact ((RefusedIff.mapM hitems).map Value.list).of_iff
          (overlong_iff_of_bracketed? hread hbracketed).symm
      | none =>
        obtain ⟨v, hform⟩ := exists_formOf hread hbracketed
        rw [hform]
        refine (RefusedIff.ok v).of_iff (iff_of_false id ?_)
        intro hlong
        cases hlong with
        | integer hnumeral _ _ => cases hread.symm.trans hnumeral
        | item hinner _ _ => cases hbracketed.symm.trans hinner

end Operand

namespace Query

/-! ## Limits -/

/-- What the first place yields is what some place yields. -/
theorem exists_of_firstPlace? {α : Type} {find : Text → Option α} {text : Text} {a : α}
    (h : firstPlace? find text = some a) : ∃ t, find t = some a := by
  induction text with
  | nil => exact ⟨[], h⟩
  | cons c rest ih =>
    unfold firstPlace? at h
    split at h
    · rename_i found hfound
      cases h
      exact ⟨_, hfound⟩
    · exact ih h

theorem isDecimal_of_limitCall? {text digits : Text} (h : limitCall? text = some digits) :
    ∀ c ∈ digits, Text.isDecimal c = true := by
  simp only [limitCall?, Option.bind_eq_bind, Option.bind_eq_some_iff] at h
  obtain ⟨inside, -, behind, -, h⟩ := h
  split at h
  · cases h
  · cases h
    exact List.all_eq_true.1 List.all_takeWhile

/-- The first limit of the text is a positive number. -/
def HasPositiveLimit (text : Text) : Prop :=
  ∃ digits values, firstPlace? limitCall? text = some digits ∧
    Decimal.digitValues? digits = some values ∧ Decimal.readDigits values ≠ 0

theorem parseLimit_of_none {text : Text} (h : firstPlace? limitCall? text = none) (fallback : Int) :
    parseLimit text fallback = .ok fallback := by
  unfold parseLimit
  rw [h]

theorem parseLimit_of_some {text digits : Text} (h : firstPlace? limitCall? text = some digits)
    (fallback : Int) : ∃ values, Decimal.digitValues? digits = some values ∧
      values.length = digits.length ∧ Decimal.readDigits values < 10 ^ digits.length ∧
      parseLimit text fallback = (fun limit : Nat => if limit = 0 then fallback else limit) <$>
        Decimal.readBounded values := by
  obtain ⟨t, ht⟩ := exists_of_firstPlace? h
  obtain ⟨values, hvalues, hlength, hlt⟩ := Decimal.exists_digitValues (isDecimal_of_limitCall? ht)
  refine ⟨values, hvalues, hlength, hlt, ?_⟩
  unfold parseLimit
  rw [h]
  dsimp only
  rw [hvalues]
  rfl

/-- The digits of a positive number are read as this number. -/
theorem parseLimit_ofNat {text : Text} {n : Nat}
    (h : firstPlace? limitCall? text = some (Decimal.ofNat n)) (hpos : 1 ≤ n)
    (hbound : n < 10 ^ Decimal.maxDigits) (fallback : Int) : parseLimit text fallback = .ok (n : Int) := by
  obtain ⟨digits, hvalues, hlength, hread⟩ := Decimal.readDigits_toDigits n
  unfold parseLimit
  rw [h]
  dsimp only
  rw [hvalues]
  dsimp only
  rw [Decimal.readBounded, if_pos (hlength ▸ (Decimal.length_ofNat_le_maxDigits_iff n).2 hbound),
    hread]
  exact congrArg Except.ok (if_neg (by omega))

theorem parseLimit_refusedIff (text : Text) (fallback : Int) :
    RefusedIff (parseLimit text fallback)
      (∃ digits, firstPlace? limitCall? text = some digits ∧ Decimal.maxDigits < digits.length) := by
  cases h : firstPlace? limitCall? text with
  | none =>
    rw [parseLimit_of_none h]
    exact (RefusedIff.ok _).of_iff (by simp)
  | some digits =>
    obtain ⟨values, -, hlength, -, hparse⟩ := parseLimit_of_some h fallback
    rw [hparse]
    exact ((Decimal.readBounded_refusedIff values).map _).of_iff (by simp [hlength])

/-- A limit of the text can be written, so only a default that is made use of can be too long. -/
theorem le_of_parseLimit {text : Text} {fallback limit : Int}
    (h : parseLimit text fallback = .ok limit) :
    10 ^ Decimal.maxDigits ≤ limit.natAbs ↔
      10 ^ Decimal.maxDigits ≤ fallback.natAbs ∧ ¬HasPositiveLimit text := by
  cases hfirst : firstPlace? limitCall? text with
  | none =>
    have hnone : ¬HasPositiveLimit text := by
      rintro ⟨digits, _, hdigits, -⟩
      cases hfirst.symm.trans hdigits
    rw [parseLimit_of_none hfirst] at h
    cases h
    rw [and_iff_left hnone]
  | some digits =>
    obtain ⟨values, hvalues, hlength, hlt, hparse⟩ := parseLimit_of_some hfirst fallback
    have hshort : digits.length ≤ Decimal.maxDigits := by
      refine Nat.not_lt.1 fun hlong => ?_
      exact (parseLimit_refusedIff text fallback).not_of_ok h ⟨digits, hfirst, hlong⟩
    rw [hparse, Decimal.readBounded, if_pos (hlength ▸ hshort)] at h
    have hpositive : HasPositiveLimit text ↔ Decimal.readDigits values ≠ 0 := by
      constructor
      · rintro ⟨digits', values', hdigits', hvalues', hne⟩
        cases hfirst.symm.trans hdigits'
        cases hvalues.symm.trans hvalues'
        exact hne
      · exact fun hne => ⟨digits, values, hfirst, hvalues, hne⟩
    have hlimit : limit = if Decimal.readDigits values = 0 then fallback
        else (Decimal.readDigits values : Int) := (Except.ok.inj h).symm
    rw [hpositive, Ne, not_not, hlimit]
    by_cases hzero : Decimal.readDigits values = 0
    · rw [if_pos hzero, and_iff_left hzero]
    · rw [if_neg hzero, Int.natAbs_natCast]
      refine iff_of_false (Nat.not_le.2 (Nat.lt_of_lt_of_le hlt ?_)) fun hand => hzero hand.2
      exact Nat.pow_le_pow_right (by decide) hshort

theorem writable_refusedIff (limit : Int) :
    RefusedIff (writable limit) (10 ^ Decimal.maxDigits ≤ limit.natAbs) :=
  (Decimal.write_refusedIff limit).map _

theorem writable_eq {limit : Int} (h : limit.natAbs < 10 ^ Decimal.maxDigits) :
    writable limit = .ok limit := by
  unfold writable
  rw [Decimal.write_eq h]
  rfl

theorem eq_of_writable {limit used : Int} (h : writable limit = .ok used) : used = limit := by
  unfold writable at h
  cases hwrite : Decimal.write limit with
  | error fault =>
    rw [hwrite] at h
    cases h
  | ok text =>
    rw [hwrite] at h
    cases h
    rfl

/-- The bound on the digits of an integer as a bound on either side of zero. -/
theorem le_natAbs_iff (limit : Int) : 10 ^ Decimal.maxDigits ≤ limit.natAbs ↔
    limit ≤ -10 ^ Decimal.maxDigits ∨ 10 ^ Decimal.maxDigits ≤ limit := by
  have hcast : ((10 ^ Decimal.maxDigits : Nat) : Int) = 10 ^ Decimal.maxDigits := Int.natCast_pow _ _
  rw [← hcast]
  generalize 10 ^ Decimal.maxDigits = bound
  omega

theorem defaultLimit_lt : defaultLimit < 10 ^ Decimal.maxDigits := by
  have hlt : 50 < 10 ^ Decimal.maxDigits := Decimal.lt_pow_of_le_maxDigits (by decide)
  have hcast : ((10 ^ Decimal.maxDigits : Nat) : Int) = 10 ^ Decimal.maxDigits := Int.natCast_pow _ _
  rw [← hcast]
  exact Int.ofNat_lt.2 hlt

theorem usableLimit_refusedIff (limit : Int) :
    RefusedIff (usableLimit limit) (limit ≤ -10 ^ Decimal.maxDigits) := by
  have hbound := defaultLimit_lt
  unfold defaultLimit at hbound
  unfold usableLimit
  split
  · refine (RefusedIff.ok limit).of_iff (iff_of_false id ?_)
    generalize (10 : Int) ^ Decimal.maxDigits = bound at hbound ⊢
    omega
  · refine ((writable_refusedIff limit).map fun _ => defaultLimit).of_iff ?_
    rw [le_natAbs_iff]
    generalize (10 : Int) ^ Decimal.maxDigits = bound at hbound ⊢
    omega

theorem eq_of_usableLimit {limit fallback : Int} (h : usableLimit limit = .ok fallback) :
    fallback = if 1 ≤ limit then limit else defaultLimit := by
  unfold usableLimit at h
  split
  · rw [if_pos ‹_›] at h
    exact (Except.ok.inj h).symm
  · rw [if_neg ‹_›] at h
    cases hwritable : writable limit with
    | error fault =>
      rw [hwritable] at h
      cases h
    | ok used =>
      rw [hwritable] at h
      exact (Except.ok.inj h).symm

theorem le_of_usableLimit {limit fallback : Int} (h : usableLimit limit = .ok fallback) :
    10 ^ Decimal.maxDigits ≤ fallback.natAbs ↔ 10 ^ Decimal.maxDigits ≤ limit := by
  have hbound := defaultLimit_lt
  have hrefused := (usableLimit_refusedIff limit).not_of_ok h
  rw [le_natAbs_iff, eq_of_usableLimit h]
  unfold defaultLimit at hbound ⊢
  generalize (10 : Int) ^ Decimal.maxDigits = bound at hbound hrefused ⊢
  split <;> omega

/-! ## Conditions -/

/-- Field, operator and operand of the call whose arguments start here, as they are written. -/
def conditionTexts? (rest : Text) : Option (Text × Text × Text) :=
  match (callArguments rest).isClosed, (callArguments rest).arguments with
  | true, field :: operator :: operand :: _ => do
    let field ← (literalContent? literalQuotes field).bind nonempty?
    let operator ← (literalContent? literalQuotes operator).bind nonempty?
    let operand ← nonempty? operand
    return (field, operator, operand)
  | _, _ => none

/-- The condition that is written like this. -/
def conditionOf (texts : Text × Text × Text) : Except Fault Condition :=
  (fun value => ⟨texts.1, texts.2.1, value⟩) <$> Operand.parse texts.2.2

theorem conditionAt?_eq (rest : Text) :
    conditionAt? rest = (conditionTexts? rest).map conditionOf := by
  unfold conditionAt? conditionFrom? conditionTexts?
  generalize (callArguments rest).isClosed = closed
  generalize (callArguments rest).arguments = arguments
  match closed, arguments with
  | true, field :: operator :: operand :: _ =>
    cases hfield : (literalContent? literalQuotes field).bind nonempty? <;>
      cases hoperator : (literalContent? literalQuotes operator).bind nonempty? <;>
        cases hoperand : nonempty? operand <;> simp [hfield, hoperator, hoperand, conditionOf]
  | true, [] | true, [_] | true, [_, _] | false, _ => rfl

theorem parseConditions_eq (text : Text) :
    parseConditions text = ((Call.sites "where" text).filterMap conditionTexts?).mapM conditionOf := by
  rw [parseConditions_eq_sites, funext conditionAt?_eq, ← List.map_filterMap, List.mapM_map]
  rfl

theorem parseConditions_refusedIff (text : Text) :
    RefusedIff (parseConditions text) (∃ texts ∈ (Call.sites "where" text).filterMap conditionTexts?,
      Operand.Overlong texts.2.2) := by
  rw [parseConditions_eq]
  exact RefusedIff.mapM fun texts _ => (Operand.parse_refusedIff texts.2.2).map _

/-! ## Expressions -/

/-- An integer of more than 4300 digits has to be read or written for a text and a default limit. -/
inductive HasLongInteger (text : Text) (limit : Int) : Prop
  /-- The first limit of the text has too many digits. -/
  | firstLimit {digits : Text} : firstPlace? limitCall? text = some digits →
      Decimal.maxDigits < digits.length → HasLongInteger text limit
  /-- The operand of a condition has an integer of too many digits. -/
  | operand {field operator operand : Text} :
      (field, operator, operand) ∈ (Call.sites "where" text).filterMap conditionTexts? →
      Operand.Overlong operand → HasLongInteger text limit
  /-- A negative default is written to say that it is not used. -/
  | negativeDefault : limit ≤ -10 ^ Decimal.maxDigits → HasLongInteger text limit
  /-- A positive default is used, since the text has no positive limit. -/
  | usedDefault : 10 ^ Decimal.maxDigits ≤ limit → ¬HasPositiveLimit text → HasLongInteger text limit

theorem hasLongInteger_iff (text : Text) (limit : Int) : HasLongInteger text limit ↔
    limit ≤ -10 ^ Decimal.maxDigits ∨
    (∃ digits, firstPlace? limitCall? text = some digits ∧ Decimal.maxDigits < digits.length) ∨
    (∃ texts ∈ (Call.sites "where" text).filterMap conditionTexts?, Operand.Overlong texts.2.2) ∨
    (10 ^ Decimal.maxDigits ≤ limit ∧ ¬HasPositiveLimit text) := by
  constructor
  · rintro (⟨hfirst, hlength⟩ | ⟨hmem, hlong⟩ | hle | ⟨hle, hnone⟩)
    · exact .inr (.inl ⟨_, hfirst, hlength⟩)
    · exact .inr (.inr (.inl ⟨_, hmem, hlong⟩))
    · exact .inl hle
    · exact .inr (.inr (.inr ⟨hle, hnone⟩))
  · rintro (hle | ⟨digits, hfirst, hlength⟩ | ⟨texts, hmem, hlong⟩ | ⟨hle, hnone⟩)
    · exact .negativeDefault hle
    · exact .firstLimit hfirst hlength
    · exact .operand hmem hlong
    · exact .usedDefault hle hnone

/-- The causes add up along the parser. -/
theorem parse_refusedIff (text collection : Text) (limit : Int) :
    RefusedIff (parse text collection limit) (HasLongInteger text limit) := by
  refine RefusedIff.of_iff ?_ (hasLongInteger_iff text limit).symm
  unfold parse
  refine (usableLimit_refusedIff limit).bind fun fallback hfallback => ?_
  refine (parseLimit_refusedIff text fallback).bind fun used hused => ?_
  refine (parseConditions_refusedIff text).bind fun conditions _ => ?_
  refine ((writable_refusedIff used).map _).of_iff ?_
  rw [le_of_parseLimit hused, le_of_usableLimit hfallback]

/-- The parameters of an expression are read unless an integer has more than 4300 digits, and there is
no other cause for a refusal. -/
theorem parse_succeeds_iff (text collection : Text) (limit : Int) :
    ((∃ params, parse text collection limit = .ok params) ↔ ¬HasLongInteger text limit) ∧
      ∀ fault, parse text collection limit = .error fault ↔
        fault = .tooManyDigits ∧ HasLongInteger text limit := by
  have hrefused := parse_refusedIff text collection limit
  exact ⟨hrefused.exists_ok_iff, hrefused⟩

theorem firstPlace?_of_find {α : Type} {find : Text → Option α} {text : Text} {a : α}
    (h : find text = some a) : firstPlace? find text = some a := by
  cases text with
  | nil => exact h
  | cons c rest =>
    unfold firstPlace?
    rw [h]

/-- A call `.limit` with digits in it. -/
theorem limitCall?_digits {digits : Text} (h : ∀ c ∈ digits, Text.isDecimal c = true)
    (hne : digits ≠ []) (rest : Text) :
    limitCall? (".limit(" ++ digits ++ CodePoint.char ')' :: rest) = some digits := by
  have hopen : Call.open? "limit" (".limit(" ++ digits ++ CodePoint.char ')' :: rest) =
      some (digits ++ CodePoint.char ')' :: rest) := rfl
  have hblank : List.all [] Text.isBlank = true := rfl
  obtain ⟨htake, hdrop⟩ := Text.span_digits h hblank rest
  rw [List.nil_append] at htake hdrop
  unfold limitCall?
  rw [hopen, Option.bind_eq_bind, Option.bind_some]
  dsimp only
  rw [Text.trimStart_digits h hne, htake, hdrop, if_neg hne]
  rfl

theorem firstLimit_of_digits {digits : Text} (h : ∀ c ∈ digits, Text.isDecimal c = true)
    (hne : digits ≠ []) : firstPlace? limitCall? (".limit(" ++ digits ++ ")") = some digits :=
  firstPlace?_of_find (limitCall?_digits h hne [])

/-- However many digits a limit has, beyond 4300 it is refused. -/
theorem parse_of_long_limit {digits : Text} (h : ∀ c ∈ digits, Text.isDecimal c = true)
    (hlong : Decimal.maxDigits < digits.length) :
    parse (".limit(" ++ digits ++ ")") [] 50 = .error .tooManyDigits := by
  have hne : digits ≠ [] := by
    rintro rfl
    cases hlong
  have hlimit : parseLimit (".limit(" ++ digits ++ ")") 50 = .error .tooManyDigits :=
    (parseLimit_refusedIff _ 50 _).2 ⟨rfl, digits, firstLimit_of_digits h hne, hlong⟩
  have husable : usableLimit 50 = .ok 50 := rfl
  unfold parse
  rw [husable]
  dsimp only [bind, Except.bind]
  rw [hlimit]

/-- A limit of 4301 digits is refused. -/
theorem parse_limit_of_4301_digits :
    parse (".limit(" ++ Text.filled 4301 '9' ++ ")") [] 50 = .error .tooManyDigits := by
  have hnine : Text.isDecimal '9' = true := by decide
  refine parse_of_long_limit (fun c hc => List.eq_of_mem_replicate hc ▸ hnine) ?_
  rw [Text.filled, List.length_replicate]
  decide

end Query

end FluentQuery
