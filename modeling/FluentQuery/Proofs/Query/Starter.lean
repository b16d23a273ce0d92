/-
  The expression that an editor starts with, read back. Up to the content of its literal the expression
  has one call, that of the collection, so every other search finds what it finds behind the opening quote
  (`allPlaces_starterText`). A path without quotes leaves a single quote there, and neither an argument nor
  an ordering can be read with less than two. `parse_starter_iff`: the collection and the limit come
  back exactly for a path without quotes that holds no other limit.
-/
import FluentQuery.Proofs.Query.Opacity
import FluentQuery.Query.Structured

namespace FluentQuery

/-! ## Quotes in arguments -/

theorem quotesIn_le_of_sublist {a b : Text} (h : a.Sublist b) : quotesIn a ≤ quotesIn b := h.countP_le

theorem quotesIn_le_of_mem_callArguments {text argument : Text}
    (h : argument ∈ (callArguments text).arguments) : quotesIn argument ≤ quotesIn text :=
  quotesIn_le_of_sublist (sublist_of_mem_callArguments h)

/-- A quoted text has a quote at either end. -/
theorem literalContent?_of_quotesIn {text : Text} (h : quotesIn text ≤ 1) :
    literalContent? literalQuotes text = none := by
  cases text with
  | nil => rfl
  | cons quote rest =>
    unfold literalContent?
    dsimp only
    split
    · rename_i hends
      simp only [Bool.and_eq_true, decide_eq_true_eq] at hends
      obtain ⟨hquote, hlast⟩ := hends
      obtain ⟨content, rfl⟩ := List.getLast?_eq_some_iff.1 hlast
      rw [quotesIn_cons_of_mem hquote, quotesIn_append, quotesIn_cons_of_mem hquote] at h
      omega
    · rfl

theorem Call.literal?_of_quotesIn {text : Text} (h : quotesIn text ≤ 1) : literal? text = none := by
  cases hliteral : literal? text with
  | none => rfl
  | some found =>
    obtain ⟨blanks, opening, closing, -, hopening, hclosing, -, -, rfl⟩ :=
      literal?_eq_some_iff.1 hliteral
    rw [quotesIn_append, quotesIn_cons_of_mem hopening, quotesIn_append,
      quotesIn_cons_of_mem hclosing] at h
    omega

namespace Query

theorem selectIn?_of_quotesIn {inside : Text} (h : quotesIn inside ≤ 1) : selectIn? inside = some [] := by
  refine congrArg some (List.filterMap_eq_nil_iff.2 fun argument hargument => ?_)
  have hle := Nat.le_trans (quotesIn_le_of_mem_callArguments hargument) h
  rw [literalContent?_of_quotesIn hle]
  rfl

theorem conditionTexts?_of_quotesIn {inside : Text} (h : quotesIn inside ≤ 1) :
    conditionTexts? inside = none := by
  unfold conditionTexts?
  split
  · rename_i field operator operand more _ harguments
    have hfield : field ∈ (callArguments inside).arguments := by
      rw [harguments]
      exact List.mem_cons_self
    have hle := Nat.le_trans (quotesIn_le_of_mem_callArguments hfield) h
    rw [literalContent?_of_quotesIn hle]
    rfl
  · rfl

theorem orderingIn?_of_quotesIn {inside : Text} (h : quotesIn inside ≤ 1) : orderingIn? inside = none := by
  unfold orderingIn?
  rw [Call.literal?_of_quotesIn h]
  rfl

/-! ## The expression -/

/-- The expression up to the call of the collection. -/
def starterFront : Text :=
  "// Query with JavaScript using the Admin SDK\nasync function run() \x7b\n" ++
    "    const query = await db"

/-- What stands behind the call of the collection. -/
def starterBack (digits : Text) : Text :=
  "\n        " ++ callText "limit" (digits ++ CodePoint.char ')' ::
    "\n        .get();\n    return query;\n\x7d")

/-- The expression for a path and the digits of a limit. -/
def starterText (path digits : Text) : Text :=
  starterFront ++ callText "collection" (Text.doubleQuote :: path) ++
    Text.doubleQuote :: CodePoint.char ')' :: starterBack digits

theorem starter_eq {n : Nat} (h : n < 10 ^ Decimal.maxDigits) (path : Text) :
    starter path n = .ok (starterText path (Decimal.ofNat n)) := by
  have hwrite : Decimal.write n = .ok (Decimal.ofNat n) := by
    rw [Decimal.write_eq (by simpa using h), Decimal.ofInt, if_neg (by omega), Int.natAbs_natCast]
  unfold starter
  rw [hwrite]
  refine congrArg Except.ok ?_
  have hfront : ("    const query = await db.collection(" : Text) =
      "    const query = await db" ++ callText "collection" [] := rfl
  have hmiddle : (")\n        .limit(" : Text) =
      CodePoint.char ')' :: ("\n        " ++ callText "limit" []) := rfl
  have hback : (")\n        .get();\n    return query;\n\x7d" : Text) =
      CodePoint.char ')' :: "\n        .get();\n    return query;\n\x7d" := rfl
  rw [hfront, hmiddle, hback]
  simp only [starterText, starterFront, starterBack, callText, List.append_assoc, List.cons_append,
    List.nil_append]

/-- The first call is that of the collection, and there is no other one up to the opening quote. -/
theorem allPlaces_starterText {α : Type} {find : Text → Option α} (hfind : FindsCalls find)
    (hcall : ∀ inside, find (callText "collection" inside) = none) (path digits : Text) :
    allPlaces find (starterText path digits) =
      allPlaces find (path ++ Text.doubleQuote :: CodePoint.char ')' :: starterBack digits) := by
  have hfront : Silent starterFront := Silent.of_not_mem (by decide)
  have hopening : Silent ("collection" ++ CodePoint.char '(' :: [Text.doubleQuote]) :=
    Silent.of_not_mem (by decide)
  have hplaces := hopening.allPlaces_callText hfind
    (path ++ Text.doubleQuote :: CodePoint.char ')' :: starterBack digits)
  rw [hcall, Option.toList_none, List.nil_append] at hplaces
  unfold starterText
  rw [List.append_assoc, hfront hfind, ← callText_append]
  exact hplaces

section

variable {path digits : Text}

theorem quotesIn_starterBack (h : ∀ c ∈ digits, Text.isDecimal c = true) :
    quotesIn (starterBack digits) = 0 := by
  have hdigits : Unmarked digits := Unmarked.of_kind (by decide) h
  have hname : Unmarked ("limit" : Text) := by unfold Unmarked; decide
  have hgap : quotesIn ("\n        " : Text) = 0 := by decide
  have hend : quotesIn ("\n        .get();\n    return query;\n\x7d" : Text) = 0 := by decide
  unfold starterBack
  rw [quotesIn_append, hgap, quotesIn_callText hname, quotesIn_append, quotesIn_of_unmarked hdigits,
    quotesIn_cons_of_not_mem (by decide), hend]

/-- Behind the opening quote stands one quote, the closing one. -/
theorem quotesIn_content (hpath : ∀ c ∈ path, c ∉ literalQuotes)
    (hdigits : ∀ c ∈ digits, Text.isDecimal c = true) :
    quotesIn (path ++ Text.doubleQuote :: CodePoint.char ')' :: starterBack digits) = 1 := by
  rw [quotesIn_append, quotesIn_eq_zero hpath, quotesIn_cons_of_mem (by decide),
    quotesIn_cons_of_not_mem (by decide), quotesIn_starterBack hdigits]

/-- So the text of no call holds a literal, but for the collection. -/
theorem quotesIn_of_mem_allPlaces {opens : Text → Option Text} (hopens : OpensCalls opens)
    (hcall : ∀ inside, opens (callText "collection" inside) = none)
    (hpath : ∀ c ∈ path, c ∉ literalQuotes) (hdigits : ∀ c ∈ digits, Text.isDecimal c = true)
    {inside : Text} (h : inside ∈ allPlaces opens (starterText path digits)) : quotesIn inside ≤ 1 := by
  rw [allPlaces_starterText hopens.findsCalls hcall] at h
  obtain ⟨part, hpart, hinside⟩ := mem_allPlaces_iff.1 h
  obtain ⟨front, rfl, -⟩ := hopens part inside hinside
  have hsuffix : inside <:+ callText front inside :=
    ⟨CodePoint.char '.' :: (front ++ [CodePoint.char '(']), by simp [callText]⟩
  rw [← quotesIn_content hpath hdigits]
  exact quotesIn_le_of_sublist (hsuffix.trans hpart).sublist

theorem open?_collection {name : Text} (hname : ∀ c ∈ name, Text.isIdentChar c = true)
    (hne : ("collection" : Text) ≠ name) (inside : Text) :
    Call.open? name (callText "collection" inside) = none :=
  Call.open?_callText_of_ne hname (isIdentChar_method "collection" (by decide)) hne inside

theorem limitCall?_collection (inside : Text) : limitCall? (callText "collection" inside) = none := by
  unfold limitCall?
  rw [open?_collection (isIdentChar_method "limit" (by decide)) (by decide)]
  rfl

theorem parseSelect_starterText (hpath : ∀ c ∈ path, c ∉ literalQuotes)
    (hdigits : ∀ c ∈ digits, Text.isDecimal c = true) : parseSelect (starterText path digits) = [] := by
  rw [parseSelect_eq]
  cases hfirst : (Call.sites "select" (starterText path digits)).head? with
  | none => rfl
  | some inside =>
    have hselect := isIdentChar_method "select" (by decide)
    have hquotes := quotesIn_of_mem_allPlaces (Call.opensCalls_open? hselect)
      (open?_collection hselect (by decide)) hpath hdigits (List.mem_of_head? hfirst)
    rw [Option.bind_some, selectIn?_of_quotesIn hquotes]
    rfl

theorem parseConditions_starterText (hpath : ∀ c ∈ path, c ∉ literalQuotes)
    (hdigits : ∀ c ∈ digits, Text.isDecimal c = true) :
    parseConditions (starterText path digits) = .ok [] := by
  have hwhere := isIdentChar_method "where" (by decide)
  have hnone : (Call.sites "where" (starterText path digits)).filterMap conditionTexts? = [] := by
    refine List.filterMap_eq_nil_iff.2 fun inside hinside => ?_
    exact conditionTexts?_of_quotesIn (quotesIn_of_mem_allPlaces (Call.opensCalls_open? hwhere)
      (open?_collection hwhere (by decide)) hpath hdigits hinside)
  rw [parseConditions_eq, hnone]
  rfl

theorem parseOrdering_starterText (hpath : ∀ c ∈ path, c ∉ literalQuotes)
    (hdigits : ∀ c ∈ digits, Text.isDecimal c = true) : parseOrdering (starterText path digits) = none := by
  have hfind : orderingCall? = fun t => (orderingOpening? t).bind orderingIn? :=
    funext orderingCall?_eq
  have hnone : (allPlaces orderingOpening? (starterText path digits)).filterMap orderingIn? = [] := by
    refine List.filterMap_eq_nil_iff.2 fun inside hinside => ?_
    exact orderingIn?_of_quotesIn
      (quotesIn_of_mem_allPlaces opensCalls_orderingOpening? (fun _ => rfl) hpath hdigits hinside)
  rw [parseOrdering, firstPlace?_eq_head?, hfind, ← filterMap_allPlaces, hnone]
  rfl

/-- The limit is that of the expression, unless a limit stands in the path. -/
theorem firstLimit_starterText (path : Text) (hdigits : ∀ c ∈ digits, Text.isDecimal c = true)
    (hne : digits ≠ []) :
    firstPlace? limitCall? (starterText path digits) =
      (firstPlace? limitCall? path).or (some digits) := by
  have hgap : Silent (Text.doubleQuote :: CodePoint.char ')' :: ("\n        " : Text)) :=
    Silent.of_not_mem (by decide)
  have hback : firstPlace? limitCall? (Text.doubleQuote :: CodePoint.char ')' :: starterBack digits) =
      some digits := by
    rw [firstPlace?_eq_head?]
    refine (congrArg List.head? (hgap findsCalls_limitCall? _)).trans ?_
    rw [← firstPlace?_eq_head?]
    exact firstPlace?_of_find (limitCall?_digits hdigits hne _)
  have hpart (part : Text) (_ : part ≠ []) :
      limitCall? (part ++ Text.doubleQuote :: CodePoint.char ')' :: starterBack digits) =
        limitCall? part :=
    readsWithin_limitCall?.find_append_quote (by decide) part _
  rw [firstPlace?_eq_head?, allPlaces_starterText findsCalls_limitCall? limitCall?_collection,
    findsCalls_limitCall?.allPlaces_append hpart, List.head?_append,
    ← firstPlace?_eq_head?, ← firstPlace?_eq_head?, hback]

theorem firstCollection_starterText (hne : path ≠ []) (hpath : ∀ c ∈ path, c ∉ literalQuotes) :
    firstPlace? collectionCall? (starterText path digits) = some path := by
  have hpoint : CodePoint.char '.' ∉ starterFront := by decide
  have hfront : ¬(".collection" : Text) <:+: starterFront := fun hin =>
    hpoint (hin.subset List.mem_cons_self)
  exact firstPlace?_collectionCall? hfront (by decide) hne hpath _

end

theorem parseLimit_starterText (path : Text) {n : Nat} (hpos : 1 ≤ n)
    (hbound : n < 10 ^ Decimal.maxDigits) (fallback : Int) :
    parseLimit (starterText path (Decimal.ofNat n)) fallback = .ok (n : Int) ↔
      firstPlace? limitCall? path = none ∨ parseLimit path fallback = .ok (n : Int) := by
  have hdigits : ∀ c ∈ Decimal.ofNat n, Text.isDecimal c = true := fun _ hc =>
    Decimal.isDecimal_of_mem_ofNat hc
  have hfirst := firstLimit_starterText path hdigits (Decimal.ofNat_ne_nil n)
  cases hpath : firstPlace? limitCall? path with
  | none =>
    rw [hpath, Option.none_or] at hfirst
    exact iff_of_true (parseLimit_ofNat hfirst hpos hbound fallback) (.inl rfl)
  | some digits =>
    rw [hpath, Option.some_or] at hfirst
    have hsame : parseLimit (starterText path (Decimal.ofNat n)) fallback = parseLimit path fallback := by
      unfold parseLimit
      rw [hfirst, hpath]
    rw [hsame, or_iff_right (Option.some_ne_none digits)]

/-- The expression for a path and a limit is always written. Read back, it gives this path as the
collection and this limit, and nothing else, exactly if no quote of any kind stands in the path and no
limit does but the same one. -/
theorem parse_starter_iff {path : Text} (hne : path ≠ []) {n : Nat} (hpos : 1 ≤ n)
    (hbound : n < 10 ^ Decimal.maxDigits) :
    ∃ text, starter path n = .ok text ∧
      (parse text [] defaultLimit = .ok ⟨path, .int n, [], [], none⟩ ↔
        (∀ c ∈ path, c ∉ literalQuotes) ∧
          (firstPlace? limitCall? path = none ∨ parseLimit path defaultLimit = .ok (n : Int))) := by
  refine ⟨starterText path (Decimal.ofNat n), starter_eq hbound path, ?_⟩
  rw [← parseLimit_starterText path hpos hbound]
  constructor
  · intro hparse
    obtain ⟨used, hread, hvalue⟩ := exists_limit_of_parse hparse
    cases hvalue
    obtain ⟨⟨fallback, ⟨⟩, hused⟩, -, -⟩ := limitAndConditions_eq_ok_iff.1 hread
    refine ⟨?_, hused⟩
    have hcollection := collection_of_parse hparse
    cases hname : firstPlace? collectionCall? (starterText path (Decimal.ofNat n)) with
    | none =>
      rw [hname] at hcollection
      exact absurd hcollection hne
    | some name =>
      rw [hname] at hcollection
      cases hcollection
      exact unquoted_of_firstPlace?_collectionCall? hname
  · rintro ⟨hpath, hlimit⟩
    have hdigits : ∀ c ∈ Decimal.ofNat n, Text.isDecimal c = true := fun _ hc =>
      Decimal.isDecimal_of_mem_ofNat hc
    have hread : limitAndConditions (starterText path (Decimal.ofNat n)) defaultLimit =
        .ok ((n : Int), []) :=
      limitAndConditions_eq_ok_iff.2 ⟨⟨defaultLimit, rfl, hlimit⟩,
        parseConditions_starterText hpath hdigits, writable_eq (by simpa using hbound)⟩
    rw [parse_eq, hread, firstCollection_starterText hne hpath, parseSelect_starterText hpath hdigits,
      parseOrdering_starterText hpath hdigits]
    rfl

/-- Names of clauses, commas and parentheses in a path do no harm, nor does the limit of the expression. -/
theorem parse_starter_path_like_calls :
    ∃ text, starter ("a.where(b, c, d).select(e).limit(15)" : String) 15 = .ok text ∧
      parse text [] defaultLimit =
        .ok ⟨("a.where(b, c, d).select(e).limit(15)" : String), .int 15, [], [], none⟩ := by
  have hne : (("a.where(b, c, d).select(e).limit(15)" : String) : Text) ≠ [] := by decide
  have hpos : 1 ≤ 15 := by decide
  have hbound : 15 < 10 ^ Decimal.maxDigits := Decimal.lt_pow_of_le_maxDigits (by decide)
  obtain ⟨text, htext, hparse⟩ := parse_starter_iff hne hpos hbound
  exact ⟨text, htext, hparse.2 ⟨by decide, .inr rfl⟩⟩

/-- The collection of a path with an apostrophe is not found, although nothing in the path would end or
escape the literal that it is put in. -/
theorem parse_starter_apostrophe :
    (∀ c ∈ (("it's" : String) : Text),
        c ≠ Text.doubleQuote ∧ c ≠ Text.backslash ∧ c ≠ CodePoint.char '\n') ∧
      ∃ text, starter ("it's" : String) 5 = .ok text ∧
        parse text [] defaultLimit = .ok ⟨[], .int 5, [], [], none⟩ := by
  let text := starterText ("it's" : String) (Decimal.ofNat 5)
  have hbound : 5 < 10 ^ Decimal.maxDigits := Decimal.lt_pow_of_le_maxDigits (by decide)
  have hcollection : firstPlace? collectionCall? text = none := rfl
  have hsites : Call.sites "where" text = [] :=
    (allPlaces_starterText findsCalls_open?_where
      (open?_collection (isIdentChar_method "where" (by decide)) (by decide)) _ _).trans rfl
  have hlimit : parseLimit text defaultLimit = .ok 5 := rfl
  have hconditions : parseConditions text = .ok [] := by
    rw [parseConditions_eq_sites, hsites]
    rfl
  have hread : limitAndConditions text defaultLimit = .ok (5, []) :=
    limitAndConditions_eq_ok_iff.2 ⟨⟨defaultLimit, rfl, hlimit⟩, hconditions, rfl⟩
  refine ⟨by decide, text, starter_eq hbound _, ?_⟩
  rw [parse_eq, hread, hcollection]
  rfl

end Query

end FluentQuery
