/-
  Expressions with other quotes. Numerals have no quotes in them and literals may have any, so operands
  keep their form (`Operand.formOf_map`), and every search finds what it finds, with the quotes exchanged
  in it. `parse_map`: so the parameters of an expression are those of the other one with the quotes
  exchanged in every text, and one is refused if the other is.
-/
import FluentQuery.Proofs.Expression.Requoting
import FluentQuery.Proofs.Query.Clauses

namespace FluentQuery

variable {s : Equiv.Perm CodePoint}

/-! ## The texts of values and parameters -/

/-- The value with its text replaced, if it has one. -/
def Scalar.mapTexts (f : Text → Text) : Scalar → Scalar
  | .text t => .text (f t)
  | .reference path => .reference (f path)
  | v => v

mutual

/-- The key with all texts in it replaced. -/
def Key.mapTexts (f : Text → Text) : Key → Key
  | .scalar v => .scalar (v.mapTexts f)
  | .tuple items => .tuple (Key.mapTextsAll f items)

/-- The keys with all texts in them replaced. -/
def Key.mapTextsAll (f : Text → Text) : List Key → List Key
  | [] => []
  | key :: rest => key.mapTexts f :: Key.mapTextsAll f rest

end

mutual

/-- The value with all texts in it replaced. -/
def Value.mapTexts (f : Text → Text) : Value → Value
  | .scalar v => .scalar (v.mapTexts f)
  | .list items => .list (Value.mapTextsItems f items)
  | .map entries => .map (Value.mapTextsEntries f entries)

/-- The items with all texts in them replaced. -/
def Value.mapTextsItems (f : Text → Text) : List Value → List Value
  | [] => []
  | item :: rest => item.mapTexts f :: Value.mapTextsItems f rest

/-- The entries with all texts in them replaced, those of the keys as well. -/
def Value.mapTextsEntries (f : Text → Text) : List (Key × Value) → List (Key × Value)
  | [] => []
  | (key, value) :: rest => (key.mapTexts f, value.mapTexts f) :: Value.mapTextsEntries f rest

end

theorem Value.mapTextsItems_eq (f : Text → Text) (items : List Value) :
    Value.mapTextsItems f items = items.map (Value.mapTexts f) := by
  induction items with
  | nil => rfl
  | cons item rest ih => rw [Value.mapTextsItems, ih, List.map_cons]

/-- The condition with all texts in it replaced. -/
def Condition.mapTexts (f : Text → Text) (condition : Condition) : Condition :=
  ⟨f condition.field, f condition.operator, condition.value.mapTexts f⟩

/-- The ordering with its texts replaced. -/
def OrderBy.mapTexts (f : Text → Text) (ordering : OrderBy) : OrderBy :=
  ⟨f ordering.field, f ordering.direction⟩

/-- The parameters with all texts in them replaced. -/
def QueryParameters.mapTexts (f : Text → Text) (params : QueryParameters) : QueryParameters :=
  ⟨f params.collection, params.limit.mapTexts f, params.select.map f,
    params.conditions.map (Condition.mapTexts f), params.ordering.map (OrderBy.mapTexts f)⟩

/-! ## Numerals -/

section

variable (h : Requotes s literalQuotes)

include h

theorem Text.isDecimal_requoted (c : CodePoint) : Text.isDecimal (s c) = Text.isDecimal c :=
  h.apply_kind (b := false) (by decide) c

theorem Decimal.digitValues?_map (text : Text) : digitValues? (text.map s) = digitValues? text := by
  have hdigit (c : CodePoint) : Text.digitValue? (s c) = Text.digitValue? c :=
    h.apply_kind (b := none) (by decide) c
  induction text with
  | nil => rfl
  | cons c rest ih => rw [List.map_cons, digitValues?, digitValues?, hdigit, ih]

namespace Numeral

theorem isRunChar_requoted (c : CodePoint) : isRunChar (s c) = isRunChar c :=
  h.apply_kind (b := false) (by decide) c

theorem splitSign_map (text : Text) :
    splitSign (text.map s) = ((splitSign text).1, (splitSign text).2.map s) := by
  cases text with
  | nil => rfl
  | cons c rest =>
    by_cases hminus : c = '-'
    · rw [hminus, List.map_cons, h.fixes '-' (by decide)]
      rfl
    · by_cases hplus : c = '+'
      · rw [hplus, List.map_cons, h.fixes '+' (by decide)]
        rfl
      · have hminus' := mt (h.eq_iff (by decide) c).1 hminus
        have hplus' := mt (h.eq_iff (by decide) c).1 hplus
        rw [List.map_cons, splitSign_of_ne hminus' hplus', splitSign_of_ne hminus hplus]
        rfl

theorem digits?_map (run : Text) :
    Grouping.plain.digits? (run.map s) = Grouping.plain.digits? run := by
  cases run with
  | nil => rfl
  | cons c rest => exact Decimal.digitValues?_map h (c :: rest)

theorem someDigits?_map (run : Text) :
    Grouping.plain.someDigits? (run.map s) = Grouping.plain.someDigits? run := by
  cases run with
  | nil => rfl
  | cons c rest => exact digits?_map h (c :: rest)

theorem readExponent?_map (text : Text) :
    readExponent? .plain (text.map s) = readExponent? .plain text := by
  cases text with
  | nil => rfl
  | cons e rest =>
    rw [List.map_cons]
    unfold readExponent?
    simp only [h.eq_iff (d := CodePoint.char 'e') (by decide),
      h.eq_iff (d := CodePoint.char 'E') (by decide), splitSign_map h, digits?_map h]

/-- A numeral is the same numeral in the other text: it has no quotes in it. -/
theorem read?_map (text : Text) : read? .plain (text.map s) = read? .plain text := by
  unfold read?
  rw [splitSign_map h]
  dsimp only
  rw [takeWhile_map_kind (isRunChar_requoted h), dropWhile_map_kind (isRunChar_requoted h),
    someDigits?_map h]
  cases Grouping.plain.someDigits? ((splitSign text).2.takeWhile isRunChar) with
  | none => rfl
  | some whole =>
    cases (splitSign text).2.dropWhile isRunChar with
    | nil => rfl
    | cons c rest =>
      rw [List.map_cons]
      by_cases hpoint : c = '.'
      · rw [hpoint, h.fixes '.' (by decide)]
        simp only [takeWhile_map_kind (isRunChar_requoted h), dropWhile_map_kind (isRunChar_requoted h),
          someDigits?_map h, readExponent?_map h]
      · have hpoint' := mt (h.eq_iff (by decide) c).1 hpoint
        have hexponent := readExponent?_map h (c :: rest)
        rw [List.map_cons] at hexponent
        simp [hpoint, hpoint', hexponent]

end Numeral

/-! ## Operands -/

namespace Operand

theorem number?_map (text : Text) : number? (text.map s) = number? text := by
  unfold number?
  rw [Numeral.read?_map h]

omit h in
/-- A number has no text in it. -/
theorem mapTexts_number? {text : Text} {number : Except Fault Value} (hnumber : number? text = some number)
    (f : Text → Text) : Value.mapTexts f <$> number = number := by
  obtain ⟨n, -, rfl⟩ := Option.map_eq_some_iff.1 hnumber
  split
  · cases n.toInt <;> rfl
  · rfl

theorem bracketed?_map (text : Text) :
    bracketed? (text.map s) = (bracketed? text).map (List.map s) := by
  cases text with
  | nil => rfl
  | cons c rest =>
    rw [List.map_cons]
    by_cases hc : c = '['
    · have hclosing := getLast?_map_eq_some_iff (s := s) rest (CodePoint.char ']')
      rw [h.fixes ']' (by decide)] at hclosing
      rw [hc, h.fixes '[' (by decide), bracketed?_open, bracketed?_open]
      simp only [hclosing]
      split
      · rw [Option.map_some, List.map_dropLast]
      · rfl
    · have hc' := mt (h.eq_iff (by decide) c).1 hc
      simp [bracketed?, hc, hc']

/-- The form with the quotes exchanged in its texts. -/
def Form.requote (s : Equiv.Perm CodePoint) : Form → Form
  | .atom value => .atom (Value.mapTexts (List.map s) <$> value)
  | .items texts => .items (texts.map (List.map s))

/-- An operand has the same form in the other text. -/
theorem formOf_map (text : Text) : formOf (text.map s) = (formOf text).requote s := by
  cases text with
  | nil => rfl
  | cons c rest =>
    have hcontent := literalContent?_map h.mem_iff (c :: rest)
    have htrue := h.map_eq_iff ("true" : String) (by decide) (c :: rest)
    have hfalse := h.map_eq_iff ("false" : String) (by decide) (c :: rest)
    have hbracketed := bracketed?_map h (c :: rest)
    have hnumber := number?_map h (c :: rest)
    rw [List.map_cons] at hcontent htrue hfalse hbracketed hnumber ⊢
    unfold formOf
    simp only [h.mem_iff, hcontent, htrue, hfalse, hbracketed, hnumber]
    by_cases hquote : c ∈ literalQuotes
    · rw [if_pos hquote, if_pos hquote]
      cases literalContent? literalQuotes (c :: rest) <;> rfl
    · rw [if_neg hquote, if_neg hquote]
      by_cases hword : c :: rest = ("true" : String)
      · rw [if_pos hword, if_pos hword]
        rfl
      · rw [if_neg hword, if_neg hword]
        by_cases hword : c :: rest = ("false" : String)
        · rw [if_pos hword, if_pos hword]
          rfl
        · rw [if_neg hword, if_neg hword]
          cases bracketed? (c :: rest) with
          | some inner => exact congrArg (fun call => Form.items call.arguments) (callArguments_map h inner)
          | none =>
            cases hatom : number? (c :: rest) with
            | none => rfl
            | some number => exact congrArg Form.atom (mapTexts_number? hatom _).symm

/-- An operand of the other text stands for the value with the quotes exchanged. -/
theorem parse_map (text : Text) : parse (text.map s) = Value.mapTexts (List.map s) <$> parse text := by
  induction hlength : text.length using Nat.strongRecOn generalizing text with
  | ind length ih =>
    rw [parse_eq, parse_eq, Text.trim_map h, formOf_map h]
    cases hform : formOf text.trim with
    | atom value => rfl
    | items texts =>
      have hitems : ∀ item ∈ texts,
          parse (item.map s) = Value.mapTexts (List.map s) <$> parse item := by
        intro item hitem
        have hitem := length_lt_of_formOf hform item hitem
        have htrim := Text.length_trim_le text
        exact ih item.length (by omega) item rfl
      unfold Form.requote
      dsimp only
      rw [mapM_map_of_forall hitems]
      cases texts.mapM parse with
      | error fault => rfl
      | ok values =>
        exact congrArg (fun items => Except.ok (Value.list items)) (Value.mapTextsItems_eq _ values).symm

end Operand

/-! ## Clauses -/

namespace Query

theorem skipTo?_paren_map (text : Text) :
    Call.skipTo? ')' (text.map s) = (Call.skipTo? ')' text).map (List.map s) :=
  Call.skipTo?_map h (by decide) text

theorem collectionCall?_map (text : Text) :
    collectionCall? (text.map s) = (collectionCall? text).map (List.map s) := by
  unfold collectionCall?
  rw [Call.open?_map h (by decide)]
  cases Call.open? "collection" text with
  | none => rfl
  | some inside =>
    simp only [Option.map_some, Option.bind_eq_bind, Option.bind_some, Call.literal?_map h]
    cases Call.literal? inside with
    | none => rfl
    | some found =>
      simp only [Option.map_some, Option.bind_some, skipTo?_paren_map h]
      cases Call.skipTo? ')' found.2 <;> rfl

/-- The digits of a limit are the same ones. -/
theorem limitCall?_map (text : Text) : limitCall? (text.map s) = limitCall? text := by
  unfold limitCall?
  rw [Call.open?_map h (by decide)]
  cases Call.open? "limit" text with
  | none => rfl
  | some inside =>
    have hdigits : ∀ c ∈ (Text.trimStart inside).takeWhile Text.isDecimal, c ∉ literalQuotes := by
      intro c hc hquote
      have hnot : ∀ q ∈ literalQuotes, Text.isDecimal q = false := by decide
      have hdecimal := List.all_eq_true.1 List.all_takeWhile c hc
      rw [hnot c hquote] at hdecimal
      cases hdecimal
    simp only [Option.map_some, Option.bind_eq_bind, Option.bind_some, Text.trimStart_map h,
      takeWhile_map_kind (Text.isDecimal_requoted h), dropWhile_map_kind (Text.isDecimal_requoted h),
      h.map_eq_self hdigits, skipTo?_paren_map h]
    cases Call.skipTo? ')' ((Text.trimStart inside).dropWhile Text.isDecimal) <;> rfl

/-- A word without quotes is written with the same characters. -/
theorem word?_map {word : Text} (hword : ∀ letter ∈ word, ∀ m ∈ marks, isLetter letter m = false)
    (text : Text) :
    word? word (text.map s) = (word? word text).map fun found => (found.1, found.2.map s) := by
  induction word generalizing text with
  | nil => rfl
  | cons letter word ih =>
    have ih := ih fun l hl => hword l (List.mem_cons_of_mem letter hl)
    cases text with
    | nil => rfl
    | cons c text =>
      have hquotes : ∀ q ∈ literalQuotes, isLetter letter q = false := fun q hq =>
        hword letter List.mem_cons_self q (List.mem_cons_of_mem _ hq)
      rw [List.map_cons, word?, word?, h.apply_kind hquotes, ih]
      split
      · rename_i hc
        have hfixed : s c = c := h.fixes c fun hmem => by
          rw [hquotes c hmem] at hc
          cases hc
        rw [hfixed]
        cases word? word text <;> rfl
      · rfl

theorem skipQuote_map (text : Text) : skipQuote (text.map s) = (skipQuote text).map s := by
  cases text with
  | nil => rfl
  | cons c rest =>
    rw [List.map_cons]
    unfold skipQuote
    simp only [h.mem_iff]
    split <;> rfl

theorem direction?_map (text : Text) :
    direction? (text.map s) = (direction? text).map fun found => (found.1, found.2.map s) := by
  unfold direction?
  rw [word?_map h (by decide), word?_map h (by decide), Option.map_or]

theorem directionArgument_map (text : Text) : directionArgument (text.map s) =
    ((directionArgument text).1, (directionArgument text).2.map s) := by
  unfold directionArgument
  rw [Call.skipTo?_map h (by decide)]
  cases Call.skipTo? ',' text with
  | none => rfl
  | some behind =>
    simp only [Option.map_some, Option.bind_eq_bind, Option.bind_some, Text.trimStart_map h,
      skipQuote_map h, direction?_map h]
    cases direction? (skipQuote (Text.trimStart behind)) with
    | none => rfl
    | some found => simp only [Option.map_some, Option.bind_some, skipQuote_map h]; rfl

omit h in
/-- No quote comes up in the lower case of a word. -/
theorem unquoted_lower_of_letters {word found : Text}
    (hfound : List.Forall₂ (fun letter c => isLetter letter c = true) word found)
    (hword : ∀ letter ∈ word, Text.isAscii letter = true ∧ letter ∉ literalQuotes) :
    ∀ c ∈ Text.lower found, c ∉ literalQuotes := by
  have hlowered : List.Forall₂ IsLowered word (Text.lower found) :=
    lowerAfter_of_letters hfound (fun letter hletter => (hword letter hletter).1) []
  have hlong : CodePoint.char 'ſ' ∉ literalQuotes := by decide
  intro c hc
  obtain ⟨letter, hletter, heq | ⟨-, heq⟩⟩ := forall₂_exists_of_mem_right hlowered hc
  · exact heq ▸ (hword letter hletter).2
  · exact heq ▸ hlong

omit h in
theorem unquoted_lower_of_directionArgument (text : Text) :
    ∀ c ∈ Text.lower ((directionArgument text).1.getD "asc"), c ∉ literalQuotes := by
  have hdefault : ∀ c ∈ Text.lower ("asc" : String), c ∉ literalQuotes := by decide
  cases hargument : (directionArgument text).1 with
  | none => exact hdefault
  | some direction =>
    obtain ⟨behind, rest, hfound⟩ := exists_direction?_of_directionArgument hargument
    rcases Option.or_eq_some_iff.1 hfound with hword | ⟨-, hword⟩
    · exact unquoted_lower_of_letters (word?_eq_some hword).2 (by decide)
    · exact unquoted_lower_of_letters (word?_eq_some hword).2 (by decide)

/-- An ordering has the field with its quotes exchanged, and the same direction. -/
theorem orderingCall?_map (text : Text) :
    orderingCall? (text.map s) = (orderingCall? text).map (OrderBy.mapTexts (List.map s)) := by
  have hopening (t : Text) : Call.skipTo? '(' (t.map s) = (Call.skipTo? '(' t).map (List.map s) :=
    Call.skipTo?_map h (by decide) t
  unfold orderingCall?
  rw [word?_map h (by decide)]
  cases word? ".orderby" text with
  | none => rfl
  | some found =>
    simp only [Option.map_some, Option.bind_eq_bind, Option.bind_some, hopening]
    cases Call.skipTo? '(' found.2 with
    | none => rfl
    | some inside =>
      simp only [Option.map_some, Option.bind_some, Call.literal?_map h]
      cases Call.literal? inside with
      | none => rfl
      | some literal =>
        have hdirection := h.map_eq_self (unquoted_lower_of_directionArgument literal.2)
        simp only [Option.map_some, Option.bind_some, directionArgument_map h, skipTo?_paren_map h]
        cases Call.skipTo? ')' (directionArgument literal.2).2 with
        | none => rfl
        | some rest => exact congrArg some (congrArg (OrderBy.mk (literal.1.map s)) hdirection.symm)

theorem parseLimit_map (text : Text) (fallback : Int) :
    parseLimit (text.map s) fallback = parseLimit text fallback := by
  have hlimit : firstPlace? limitCall? (text.map s) = (firstPlace? limitCall? text).map id := by
    refine firstPlace?_map (fun t => ?_) text
    rw [limitCall?_map h, Option.map_id]
    rfl
  rw [Option.map_id] at hlimit
  unfold parseLimit
  rw [hlimit]
  rfl

omit h in
theorem nonempty?_map (text : Text) : nonempty? (text.map s) = (nonempty? text).map (List.map s) := by
  cases text <;> rfl

/-- The inside of a literal that holds something. -/
theorem nonemptyContent_map (token : Text) :
    (literalContent? literalQuotes (token.map s)).bind nonempty? =
      ((literalContent? literalQuotes token).bind nonempty?).map (List.map s) := by
  rw [literalContent?_map h.mem_iff]
  cases literalContent? literalQuotes token with
  | none => rfl
  | some content => exact nonempty?_map content

theorem parseSelect_map (text : Text) : parseSelect (text.map s) = (parseSelect text).map (List.map s) := by
  have hsites : Call.sites "select" (text.map s) = (Call.sites "select" text).map (List.map s) :=
    allPlaces_map (Call.open?_map h (by decide)) text
  rw [parseSelect_eq, parseSelect_eq, hsites, List.head?_map]
  cases (Call.sites "select" text).head? with
  | none => rfl
  | some rest =>
    show fieldsOf (callArguments (rest.map s)) = (fieldsOf (callArguments rest)).map (List.map s)
    unfold fieldsOf
    rw [callArguments_map h, CallArguments.requote, List.filterMap_map, List.map_filterMap]
    exact List.filterMap_congr fun argument _ => nonemptyContent_map h argument

theorem conditionTexts?_map (rest : Text) : conditionTexts? (rest.map s) =
    (conditionTexts? rest).map fun texts => (texts.1.map s, texts.2.1.map s, texts.2.2.map s) := by
  unfold conditionTexts?
  rw [isClosed_callArguments_map h, callArguments_map h]
  unfold CallArguments.requote
  dsimp only
  match (callArguments rest).isClosed, (callArguments rest).arguments with
  | false, _ => rfl
  | true, [] | true, [_] | true, [_, _] => rfl
  | true, field :: operator :: operand :: _ =>
    simp only [List.map_cons, nonemptyContent_map h, nonempty?_map]
    cases (literalContent? literalQuotes field).bind nonempty? with
    | none => rfl
    | some field =>
      cases (literalContent? literalQuotes operator).bind nonempty? with
      | none => rfl
      | some operator => cases nonempty? operand <;> rfl

theorem conditionOf_map (texts : Text × Text × Text) :
    conditionOf (texts.1.map s, texts.2.1.map s, texts.2.2.map s) =
      Condition.mapTexts (List.map s) <$> conditionOf texts := by
  unfold conditionOf
  dsimp only
  rw [Operand.parse_map h]
  cases Operand.parse texts.2.2 <;> rfl

theorem parseConditions_map (text : Text) : parseConditions (text.map s) =
    List.map (Condition.mapTexts (List.map s)) <$> parseConditions text := by
  have hsites : Call.sites "where" (text.map s) = (Call.sites "where" text).map (List.map s) :=
    allPlaces_map (Call.open?_map h (by decide)) text
  have htexts : ((Call.sites "where" text).map (List.map s)).filterMap conditionTexts? =
      ((Call.sites "where" text).filterMap conditionTexts?).map
        fun texts => (texts.1.map s, texts.2.1.map s, texts.2.2.map s) := by
    rw [List.filterMap_map, List.map_filterMap]
    exact List.filterMap_congr fun rest _ => conditionTexts?_map h rest
  rw [parseConditions_eq, parseConditions_eq, hsites, htexts]
  exact mapM_map_of_forall fun texts _ => conditionOf_map h texts

theorem limitAndConditions_map (text : Text) (limit : Int) : limitAndConditions (text.map s) limit =
    (fun read => (read.1, read.2.map (Condition.mapTexts (List.map s)))) <$>
      limitAndConditions text limit := by
  unfold limitAndConditions
  simp only [parseLimit_map h, parseConditions_map h, map_bind, bind_map_left, map_pure]

/-- The parameters of the text with its quotes exchanged are the parameters of the text with the quotes
exchanged in all of their texts, and they are refused alike. -/
theorem parse_map (text collection : Text) (limit : Int) :
    parse (text.map s) (collection.map s) limit =
      QueryParameters.mapTexts (List.map s) <$> parse text collection limit := by
  have hcollection : firstPlace? collectionCall? (text.map s) =
      (firstPlace? collectionCall? text).map (List.map s) := firstPlace?_map (collectionCall?_map h) text
  have hordering : parseOrdering (text.map s) =
      (parseOrdering text).map (OrderBy.mapTexts (List.map s)) :=
    firstPlace?_map (orderingCall?_map h) text
  rw [parse_eq, parse_eq, hcollection, parseSelect_map h, hordering, limitAndConditions_map h]
  cases limitAndConditions text limit with
  | error fault => rfl
  | ok read => cases firstPlace? collectionCall? text <;> rfl

end Query

end

end FluentQuery
