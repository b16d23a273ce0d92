/-
  The shortcuts to the open collection, carried out by the console. However much of the call has been
  typed, the text that is inserted is the root and the whole call (`insertedText_of_mem_rootShortcuts`).
  With a limit and a read behind it, a line of three calls comes out, and where the path holds no quote and
  no parenthesis a search finds at most these three (`allPlaces_limitedRead`). `requestOf_rootShortcut`:
  the console fetches the collection with that limit, unless the default limit cannot be written.
-/
import FluentQuery.Completion.Supplier
import FluentQuery.Proofs.Console.PathLiteral
import FluentQuery.Proofs.Query.Starter

namespace FluentQuery

/-! ## What is inserted -/

namespace Supply

theorem insertedText_typedShortcut {root path typed : Text} {priority : Int}
    (h : typed <+: "." ++ collectionCall path) :
    (typedShortcut root path typed priority).insertedText = root ++ "." ++ collectionCall path := by
  have hprefix : root ++ typed <+: root ++ "." ++ collectionCall path := by
    rw [List.append_assoc]
    exact (List.prefix_append_right_inj root).2 h
  exact (List.prefix_iff_eq_append.1 hprefix)

/-- Every shortcut becomes the root and the call. -/
theorem insertedText_of_mem_rootShortcuts {root path : Text} {shortcut : Completion}
    (h : shortcut ∈ rootShortcuts root path) :
    shortcut.insertedText = root ++ "." ++ collectionCall path := by
  have htyped {typed : Text} (h : typed <+: ".collection") : typed <+: "." ++ collectionCall path :=
    h.trans ⟨"('" ++ (path ++ "')"), rfl⟩
  simp only [rootShortcuts, List.mem_cons, List.not_mem_nil, or_false] at h
  rcases h with rfl | rfl | rfl | rfl | rfl
  · exact (List.append_assoc root "." (collectionCall path)).symm
  · exact insertedText_typedShortcut (htyped (by decide))
  · exact insertedText_typedShortcut (htyped (by decide))
  · exact insertedText_typedShortcut (htyped (by decide))
  · exact insertedText_typedShortcut (htyped (by decide))

/-- The editor offers the shortcuts of an open collection in every situation. -/
theorem mem_editor_of_mem_rootShortcuts {root path : Text} (hpath : path ≠ [])
    (fields collections : List Text) (situation : Situation) {shortcut : Completion}
    (h : shortcut ∈ rootShortcuts root path) :
    shortcut ∈ editor path fields collections root situation := by
  unfold editor
  dsimp only
  rw [if_neg hpath, List.mem_append, List.mem_append, List.mem_append]
  exact .inl (.inl (.inr h))

end Supply

/-! ## The line -/

namespace Console

open Query

/-- A limit and a read, as they are called on a collection. -/
def limitedCalls (digits : Text) : Text :=
  callText "limit" (digits ++ CodePoint.char ')' :: callText "get" ")")

/-- A read of a collection with a limit. -/
def limitedRead (root path digits : Text) : Text :=
  root ++ callText "collection" (Text.singleQuote :: (path ++ Text.singleQuote :: CodePoint.char ')' ::
    limitedCalls digits))

theorem limitedRead_eq (root path digits : Text) :
    root ++ "." ++ Supply.collectionCall path ++ ".limit(" ++ digits ++ ").get()" =
      limitedRead root path digits := by
  have hget : (").get()" : Text) = CodePoint.char ')' :: callText "get" ")" := rfl
  have hlimit : (".limit(" : Text) = callText "limit" [] := rfl
  have hopening : ("." ++ "collection('" : Text) = callText "collection" [Text.singleQuote] := rfl
  have hclosing : ("')" : Text) = [Text.singleQuote, CodePoint.char ')'] := rfl
  have hcall : ("." : Text) ++ Supply.collectionCall path =
      callText "collection" [Text.singleQuote] ++ (path ++ [Text.singleQuote, CodePoint.char ')']) := by
    rw [← hopening, ← hclosing]
    rfl
  rw [List.append_assoc root, hcall, hlimit, hget]
  simp only [limitedRead, limitedCalls, callText, List.append_assoc, List.cons_append,
    List.nil_append]

section

variable {root path digits : Text}

/-- A search for calls finds what it finds at the three calls of the line. -/
theorem allPlaces_limitedRead {α : Type} {find : Text → Option α} (hfind : FindsCalls find)
    (hroot : CodePoint.char '.' ∉ root) (hpath : Unmarked path) (hdigits : CodePoint.char '.' ∉ digits) :
    allPlaces find (limitedRead root path digits) =
      (find (callText "collection" (Text.singleQuote :: (path ++ Text.singleQuote ::
        CodePoint.char ')' :: limitedCalls digits)))).toList ++
      ((find (limitedCalls digits)).toList ++ (find (callText "get" ")")).toList) := by
  have hget : Silent ("get" ++ CodePoint.char '(' :: ")") := Silent.of_not_mem (by decide)
  have hlimit : Silent ("limit" ++ CodePoint.char '(' :: (digits ++ [CodePoint.char ')'])) := by
    have hname : Silent ("limit(" : Text) := Silent.of_not_mem (by decide)
    exact hname.append ((Silent.of_not_mem hdigits).append (Silent.of_not_mem (by decide)))
  have hcollection : Silent ("collection" ++ CodePoint.char '(' ::
      (Text.singleQuote :: (path ++ [Text.singleQuote] ++ [CodePoint.char ')']))) := by
    have hname : Silent ("collection('" : Text) := Silent.of_not_mem (by decide)
    exact hname.append ((Silent.content hpath (by decide)).append (Silent.of_not_mem (by decide)))
  have hread := hget.allPlaces_callText hfind []
  have hcalls := hlimit.allPlaces_callText hfind (callText "get" ")")
  have hline := hcollection.allPlaces_callText hfind (limitedCalls digits)
  rw [List.append_nil, allPlaces, hfind.nil, Option.toList_none, List.append_nil] at hread
  rw [hread, List.append_assoc, List.singleton_append, ← limitedCalls] at hcalls
  simp only [hcalls, List.cons_append, List.append_assoc, List.nil_append] at hline
  rw [limitedRead, Silent.of_not_mem hroot hfind, hline]

/-- The calls of the line have no other names. -/
theorem sites_limitedRead (hroot : CodePoint.char '.' ∉ root) (hpath : Unmarked path)
    (hdigits : CodePoint.char '.' ∉ digits) {name : Text} (hname : ∀ c ∈ name, Text.isIdentChar c = true)
    (hne : name ∉ (["collection", "limit", "get"] : List Text)) :
    Call.sites name (limitedRead root path digits) = [] := by
  simp only [List.mem_cons, List.not_mem_nil, or_false, not_or] at hne
  obtain ⟨hcollection, hlimit, hget⟩ := hne
  unfold Call.sites
  rw [allPlaces_limitedRead (Call.opensCalls_open? hname).findsCalls hroot hpath hdigits,
    open?_collection hname (Ne.symm hcollection), limitedCalls,
    Call.open?_callText_of_ne hname (isIdentChar_method "limit" (by decide)) (Ne.symm hlimit),
    Call.open?_callText_of_ne hname (by decide) (Ne.symm hget)]
  rfl

theorem parseOrdering_limitedRead (hroot : CodePoint.char '.' ∉ root) (hpath : Unmarked path)
    (hdigits : CodePoint.char '.' ∉ digits) : parseOrdering (limitedRead root path digits) = none := by
  rw [parseOrdering, firstPlace?_eq_head?,
    allPlaces_limitedRead findsCalls_orderingCall? hroot hpath hdigits]
  rfl

theorem firstLimit_limitedRead (hroot : CodePoint.char '.' ∉ root) (hpath : Unmarked path)
    (hdigits : ∀ c ∈ digits, Text.isDecimal c = true) (hne : digits ≠ []) :
    firstPlace? limitCall? (limitedRead root path digits) = some digits := by
  have hpoint : CodePoint.char '.' ∉ digits := fun hmem => absurd (hdigits _ hmem) (by decide)
  have hlimit : limitCall? (limitedCalls digits) = some digits :=
    limitCall?_digits hdigits hne (callText "get" ")")
  rw [firstPlace?_eq_head?, allPlaces_limitedRead findsCalls_limitCall? hroot hpath hpoint,
    limitCall?_collection, hlimit]
  rfl

theorem firstCollection_limitedRead (hroot : CodePoint.char '.' ∉ root) (hne : path ≠ [])
    (hpath : Unmarked path) :
    firstPlace? collectionCall? (limitedRead root path digits) = some path := by
  have hname : ¬(".collection" : Text) <:+: root := fun hin => hroot (hin.subset List.mem_cons_self)
  have hcontent : ∀ c ∈ path, c ∉ literalQuotes := fun c hc hquote =>
    hpath c hc (List.mem_cons_of_mem _ hquote)
  have hquote : Text.singleQuote ∈ literalQuotes := by decide
  have hfound := firstPlace?_collectionCall? hname hquote hne hcontent (limitedCalls digits)
  rwa [List.append_assoc, ← callText_append, List.cons_append] at hfound

end

/-- The line has no other clauses than the collection and the limit, and it is refused for the default
limit only. -/
theorem parse_limitedRead {root path : Text} (hroot : CodePoint.char '.' ∉ root) (hne : path ≠ [])
    (hpath : Unmarked path) {n : Nat} (hpos : 1 ≤ n) (hbound : n < 10 ^ Decimal.maxDigits)
    (collection : Text) (limit : Int) :
    parse (limitedRead root path (Decimal.ofNat n)) collection limit =
      (fun _ => ⟨path, .int n, [], [], none⟩) <$> usableLimit limit := by
  have hdigits : ∀ c ∈ Decimal.ofNat n, Text.isDecimal c = true := fun _ hc =>
    Decimal.isDecimal_of_mem_ofNat hc
  have hpoint : CodePoint.char '.' ∉ Decimal.ofNat n := fun hmem => absurd (hdigits _ hmem) (by decide)
  have hlimit (fallback : Int) :
      parseLimit (limitedRead root path (Decimal.ofNat n)) fallback = .ok (n : Int) :=
    parseLimit_ofNat (firstLimit_limitedRead hroot hpath hdigits (Decimal.ofNat_ne_nil n)) hpos hbound
      fallback
  have hconditions : parseConditions (limitedRead root path (Decimal.ofNat n)) = .ok [] := by
    rw [parseConditions_eq_sites,
      sites_limitedRead hroot hpath hpoint (isIdentChar_method "where" (by decide)) (by decide)]
    rfl
  have hselect : parseSelect (limitedRead root path (Decimal.ofNat n)) = [] := by
    rw [parseSelect_eq,
      sites_limitedRead hroot hpath hpoint (isIdentChar_method "select" (by decide)) (by decide)]
    rfl
  have hread : limitAndConditions (limitedRead root path (Decimal.ofNat n)) limit =
      (fun _ => ((n : Int), [])) <$> usableLimit limit := by
    cases hfallback : usableLimit limit with
    | error fault =>
      rw [limitAndConditions, hfallback]
      rfl
    | ok fallback =>
      exact limitAndConditions_eq_ok_iff.2
        ⟨⟨fallback, hfallback, hlimit fallback⟩, hconditions, writable_eq (by simpa using hbound)⟩
  rw [parse_eq, hread, firstCollection_limitedRead hroot hne hpath, hselect,
    parseOrdering_limitedRead hroot hpath hpoint]
  cases usableLimit limit <;> rfl

theorem usableLimit_map {α : Type} (limit : Int) (a : α) :
    (fun _ => a) <$> usableLimit limit =
      if -10 ^ Decimal.maxDigits < limit then .ok a else .error .tooManyDigits := by
  have hrefused := usableLimit_refusedIff limit
  cases hfallback : usableLimit limit with
  | error fault =>
    obtain ⟨rfl, hlong⟩ := (hrefused fault).1 hfallback
    rw [if_neg (Int.not_lt.2 hlong)]
    rfl
  | ok fallback =>
    rw [if_pos (Int.not_le.1 (hrefused.not_of_ok hfallback))]
    rfl

/-! ## The request -/

/-- The line is no word, it starts with the call on the root, and the path there is the whole content. -/
theorem requestOf_limitedRead {root path : Text} (hne : root ≠ [])
    (hroot : ∀ c ∈ root, Text.isIdentChar c = true) (hpath : path ≠ []) (hunmarked : Unmarked path)
    (hbreak : CodePoint.char '\n' ∉ path) {n : Nat} (hpos : 1 ≤ n) (hbound : n < 10 ^ Decimal.maxDigits)
    (limit : Int) :
    requestOf (limitedRead root path (Decimal.ofNat n)) limit root =
      if -10 ^ Decimal.maxDigits < limit then
        .ok (.fetchCollection path ⟨path, .int n, [], [], none⟩)
      else .error .tooManyDigits := by
  let command := limitedRead root path (Decimal.ofNat n)
  have hpoint : CodePoint.char '.' ∉ root := fun hmem => absurd (hroot _ hmem) (by decide)
  have hparen : CodePoint.char '(' ∈ command := by simp [command, limitedRead, callText]
  have hunlike {word : Text} (hword : CodePoint.char '(' ∉ word) : command ≠ word := by
    rintro rfl
    exact hword hparen
  have htight : Text.Tight command := by
    constructor
    · obtain ⟨c, root, rfl⟩ := List.exists_cons_of_ne_nil hne
      exact isBlank_of_isIdentChar (hroot c List.mem_cons_self)
    · have hend : (")" : Text) <:+ command :=
        ⟨root ++ callText "collection" (Text.singleQuote :: (path ++ Text.singleQuote ::
          CodePoint.char ')' :: callText "limit" (Decimal.ofNat n ++ CodePoint.char ')' ::
            ".get("))), by simp [command, limitedRead, limitedCalls, callText]⟩
      rw [← Text.endsInBlank_of_suffix hend (by decide)]
      rfl
  have hopening : command = opening root "collection" ++ Text.singleQuote ::
      (path ++ Text.singleQuote :: CodePoint.char ')' :: limitedCalls (Decimal.ofNat n)) := by
    simp [command, limitedRead, opening, callText]
  have hstart : (opening root "collection").isPrefixOf command = true :=
    List.isPrefixOf_iff_prefix.2 ⟨_, hopening.symm⟩
  have hliteral : IsLiteralCall (opening root "collection") Text.singleQuote path
      (limitedCalls (Decimal.ofNat n)) command :=
    hopening ▸ .of_unquoted (by decide) hpath hbreak fun c hc hquote =>
      hunmarked c hc (List.mem_cons_of_mem _ (literalQuotes_of_stringQuotes hquote))
  have hget : Text.occursIn ".get()" command = true := by
    have hread : (".get()" : Text) = callText "get" ")" := rfl
    have hend : (".get()" : Text) <:+: command :=
      ⟨root ++ callText "collection" (Text.singleQuote :: (path ++ Text.singleQuote ::
        CodePoint.char ')' :: callText "limit" (Decimal.ofNat n ++ [CodePoint.char ')']))), [], by
          rw [hread]
          simp [command, limitedRead, limitedCalls, callText]⟩
    exact Text.occursIn_eq_true_iff.2 hend
  unfold requestOf
  rw [htight.trim]
  dsimp only
  rw [if_neg (hunlike (by decide)), if_neg (hunlike (by decide)), if_neg (hunlike (by decide)),
    if_pos hstart, collectionRequest, firstPlace?_of_find hliteral.pathCall?]
  dsimp only
  rw [if_pos hget, parse_limitedRead hpoint hpath hunmarked hpos hbound, usableLimit_map]
  split <;> rfl

/-- Every shortcut that the editor offers for a path without quotes, breaks and opening parentheses is
readable by the console: with a limit and a read behind it, the line fetches the collection of this path
with this limit, whatever the default limit, as long as that can be written. -/
theorem requestOf_rootShortcut {root path : Text} (hne : root ≠ [])
    (hroot : ∀ c ∈ root, Text.isIdentChar c = true) (hpath : path ≠ []) (hunmarked : Unmarked path)
    (hbreak : CodePoint.char '\n' ∉ path) {n : Nat} (hpos : 1 ≤ n) (hbound : n < 10 ^ Decimal.maxDigits)
    (fields collections : List Text) (situation : Situation) (limit : Int) :
    ∀ shortcut ∈ Supply.rootShortcuts root path,
      shortcut ∈ Supply.editor path fields collections root situation ∧
        requestOf (shortcut.insertedText ++ ".limit(" ++ Decimal.ofNat n ++ ").get()") limit root =
          if -10 ^ Decimal.maxDigits < limit then
            .ok (.fetchCollection path ⟨path, .int n, [], [], none⟩)
          else .error .tooManyDigits := by
  intro shortcut hshortcut
  refine ⟨Supply.mem_editor_of_mem_rootShortcuts hpath fields collections situation hshortcut, ?_⟩
  rw [Supply.insertedText_of_mem_rootShortcuts hshortcut, limitedRead_eq]
  exact requestOf_limitedRead hne hroot hpath hunmarked hbreak hpos hbound limit

/-- Names of clauses, points and brackets in a path do no harm, and a default limit of zero is not used. -/
theorem requestOf_rootShortcut_names_in_path :
    let root : Text := "$db_1"
    let path : Text := "shops/a.limit/[b.where"
    let shortcut := Supply.typedShortcut root path ".col" 34
    shortcut ∈ Supply.editor path ["name"] ["orders"] root ⟨false, "$db_1.col", false, false, true, none⟩ ∧
      shortcut.insertedText ++ ".limit(25).get()" =
          "$db_1.collection('shops/a.limit/[b.where').limit(25).get()" ∧
        requestOf (shortcut.insertedText ++ ".limit(25).get()") 0 root =
          .ok (.fetchCollection path ⟨path, .int 25, [], [], none⟩) := by
  intro root path shortcut
  have hne : root ≠ [] := by decide
  have hroot : ∀ c ∈ root, Text.isIdentChar c = true := by decide
  have hpath : path ≠ [] := by decide
  have hunmarked : Unmarked path := by
    unfold Unmarked
    decide
  have hbreak : CodePoint.char '\n' ∉ path := by decide
  have hshortcut : shortcut ∈ Supply.rootShortcuts root path := by
    simp [Supply.rootShortcuts, shortcut]
  have hbound : 25 < 10 ^ Decimal.maxDigits := Decimal.lt_pow_of_le_maxDigits (by decide)
  have hlimit : -10 ^ Decimal.maxDigits < (0 : Int) := Int.neg_neg_of_pos (Int.pow_pos (by decide))
  obtain ⟨hoffered, hrequest⟩ := requestOf_rootShortcut hne hroot hpath hunmarked hbreak (by decide)
    hbound ["name"] ["orders"] ⟨false, "$db_1.col", false, false, true, none⟩ 0 shortcut hshortcut
  rw [if_pos hlimit, List.append_assoc, List.append_assoc] at hrequest
  exact ⟨hoffered, rfl, hrequest⟩

/-- A negative default limit of more digits than can be written is refused, although the line has a limit
of its own. -/
theorem requestOf_rootShortcut_unwritable_limit :
    let shortcut := Supply.rootShortcut "db" "users"
    shortcut ∈ Supply.editor "users" [] [] "db" ⟨false, "db", false, false, false, none⟩ ∧
      requestOf (shortcut.insertedText ++ ".limit(" ++ Decimal.ofNat 1 ++ ").get()")
        (-10 ^ Decimal.maxDigits) "db" = .error .tooManyDigits := by
  intro shortcut
  have hshortcut : shortcut ∈ Supply.rootShortcuts "db" "users" := List.mem_cons_self
  have hbound : 1 < 10 ^ Decimal.maxDigits := Decimal.lt_pow_of_le_maxDigits (by decide)
  have hunmarked : Unmarked ("users" : Text) := by
    unfold Unmarked
    decide
  refine ⟨Supply.mem_editor_of_mem_rootShortcuts (by decide) [] [] _ hshortcut, ?_⟩
  rw [Supply.insertedText_of_mem_rootShortcuts hshortcut, limitedRead_eq,
    requestOf_limitedRead (by decide) (by decide) (by decide) hunmarked (by decide) (by decide) hbound,
    if_neg (Int.lt_irrefl _)]

end Console

end FluentQuery
