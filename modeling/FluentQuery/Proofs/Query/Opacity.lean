/-
  What the content of a literal can do to the parameters. The value of a condition is put between a text
  in front and a text behind. No search reads five quotes, so what is found in front of the value does not
  depend on its content (`allPlaces_withLiteral`), and the arguments of a call that is closed in front are
  not read that far (`parseSelect_withLiteral`, `parseConditions_withLiteral`). `parse_literal_opaque`:
  where the calls in front are closed, as in every balanced text (`ClosesCalls.of_balanced`), and no clause
  is found in the content, as in none without parentheses (`IsInert.of_unmarked`), the content is the value
  of its condition and changes nothing else. Both are needed (`parse_literal_not_opaque`).
-/
import FluentQuery.Proofs.Completion.EnclosingCall
import FluentQuery.Proofs.Query.Reach

namespace FluentQuery

/-! ## Searches in a text in three parts -/

section

variable {α : Type} {find : Text → Option α}

/-- The search succeeds at no place of the content, with the given text behind it. -/
def NowhereIn (find : Text → Option α) (content behind : Text) : Prop :=
  ∀ part ∈ content.tails, part ≠ [] → find (part ++ behind) = none

instance (find : Text → Option α) (content behind : Text) : Decidable (NowhereIn find content behind) :=
  decidable_of_iff (∀ part ∈ content.tails, part ≠ [] → (find (part ++ behind)).isNone = true)
    (by simp only [NowhereIn, Option.isNone_iff_eq_none])

theorem NowhereIn.allPlaces {content behind : Text} (h : NowhereIn find content behind) :
    allPlaces find (content ++ behind) = FluentQuery.allPlaces find behind :=
  allPlaces_append_of_none fun part hne hpart => h part ((List.mem_tails part content).2 hpart) hne

/-- Nothing is found in a content without quotes and opening parentheses. -/
theorem FindsCalls.nowhereIn (hfind : FindsCalls find) {content : Text} (hcontent : Unmarked content)
    {quote : CodePoint} (hquote : quote ∈ literalQuotes) (behind : Text) :
    NowhereIn find content (quote :: behind) := by
  intro part hpart hne
  have hunmarked : Unmarked part := fun c hc =>
    hcontent c (((List.mem_tails part content).1 hpart).subset hc)
  cases part with
  | nil => exact absurd rfl hne
  | cons c part =>
    by_cases hc : c = '.'
    · rw [hc]
      exact hfind.in_literal (fun d hd => hunmarked d (List.mem_cons_of_mem c hd)) hquote behind
    · exact hfind.of_ne_point hc _

end

/-- The call of a known method is found as such. -/
theorem Cursor.completedCall?_of_open? {name text inside : Text} (hname : name ∈ completedMethods)
    (h : Call.open? name text = some inside) : completedCall? text = some (name, inside) := by
  have hident := isIdentChar_method _ hname
  cases hcall : completedCall? text with
  | none =>
    have hnone := List.findSome?_eq_none_iff.1 hcall name hname
    rw [h] at hnone
    cases hnone
  | some found =>
    obtain ⟨other, hother, hfound⟩ := List.exists_of_findSome?_eq_some hcall
    obtain ⟨behind, hopen, rfl⟩ := Option.map_eq_some_iff.1 hfound
    obtain ⟨blanks, rfl, hblank⟩ := Call.open?_eq_some h
    rw [Call.open?_callText (isIdentChar_method _ hother) hident hblank] at hopen
    split at hopen
    · rename_i heq
      cases hopen
      rw [heq]
    · cases hopen

namespace Call

/-- A call in front of a point is read up to the point, and the calls from there on are read as such. -/
theorem sites_append_point {name : Text} (hname : ∀ c ∈ name, Text.isIdentChar c = true)
    (front rest : Text) : sites name (front ++ CodePoint.char '.' :: rest) =
      (sites name front).map (· ++ CodePoint.char '.' :: rest) ++
        sites name (CodePoint.char '.' :: rest) := by
  unfold sites
  induction front with
  | nil => rfl
  | cons c front ih =>
    have hopen := open?_append_point hname (List.cons_ne_nil c front) rest
    rw [List.cons_append] at hopen ⊢
    rw [allPlaces, allPlaces, hopen, ih, List.map_append, List.append_assoc]
    cases open? name (c :: front) <;> rfl

end Call

namespace Query

/-! ## A literal between two texts -/

/-- The call of a condition up to the content of its value. -/
def valueOpening : Text := ".where('f', '==', '"

/-- What stands behind the content. -/
def behindValue (back : Text) : Text := "')" ++ back

/-- A condition with a literal as its value, between two texts. -/
def withLiteral (front content back : Text) : Text :=
  front ++ (valueOpening ++ (content ++ behindValue back))

/-- The condition of the literal. -/
def literalCondition (content : Text) : Condition := ⟨"f", "==", .text content⟩

/-- Every call of the name in the text is closed in it, also one that stands in a literal. -/
def ClosesCalls (name text : Text) : Prop :=
  ∀ inside ∈ Call.sites name text, (callArguments inside).isClosed = true

instance (name text : Text) : Decidable (ClosesCalls name text) :=
  inferInstanceAs (Decidable (∀ inside ∈ Call.sites name text, _))

/-- No quote and no backslash stands in the text. -/
structure IsPlain (text : Text) : Prop where
  unquoted : ∀ c ∈ text, c ∉ literalQuotes
  backslash_not_mem : Text.backslash ∉ text

instance (text : Text) : Decidable (IsPlain text) :=
  decidable_of_iff ((∀ c ∈ text, c ∉ literalQuotes) ∧ Text.backslash ∉ text)
    ⟨fun ⟨h, h'⟩ => ⟨h, h'⟩, fun ⟨h, h'⟩ => ⟨h, h'⟩⟩

/-- No clause starts in the content of the literal, whose closing quote and parenthesis `back` follows. -/
structure IsInert (content back : Text) : Prop extends IsPlain content where
  collection : NowhereIn collectionCall? content (behindValue back)
  limit : NowhereIn limitCall? content (behindValue back)
  ordering : NowhereIn orderingCall? content (behindValue back)
  condition : NowhereIn (Call.open? "where") content (behindValue back)
  selection : NowhereIn (Call.open? "select") content (behindValue back)

instance (content back : Text) : Decidable (IsInert content back) :=
  decidable_of_iff
    (IsPlain content ∧ NowhereIn collectionCall? content (behindValue back) ∧
      NowhereIn limitCall? content (behindValue back) ∧
      NowhereIn orderingCall? content (behindValue back) ∧
      NowhereIn (Call.open? "where") content (behindValue back) ∧
      NowhereIn (Call.open? "select") content (behindValue back))
    ⟨fun ⟨h, h1, h2, h3, h4, h5⟩ => ⟨h, h1, h2, h3, h4, h5⟩,
      fun ⟨h, h1, h2, h3, h4, h5⟩ => ⟨h, h1, h2, h3, h4, h5⟩⟩

/-- In a balanced text every call is closed. -/
theorem ClosesCalls.of_balanced {name : Text} (hname : name ∈ Cursor.completedMethods) (b : Balanced) :
    ClosesCalls name b.text := by
  have hnone : Cursor.openCall? b.text = none := by
    have hfrom := Cursor.openCallFrom_balanced b [] []
    rw [List.append_nil] at hfrom
    exact (Cursor.openCall?_eq_openCallFrom b.text).trans hfrom
  intro inside hinside
  obtain ⟨part, hpart, hopen⟩ := mem_allPlaces_iff.1 hinside
  have hcall := mem_allPlaces_iff.2 ⟨part, hpart, Cursor.completedCall?_of_open? hname hopen⟩
  have hclosed : Cursor.openArgument? name inside = none :=
    List.findSome?_eq_none_iff.1 hnone _ (List.mem_reverse.2 hcall)
  unfold Cursor.openArgument? at hclosed
  by_contra hopened
  rw [if_neg hopened] at hclosed
  cases hclosed

theorem findsCalls_collectionCall? : FindsCalls collectionCall? :=
  (Call.opensCalls_open? (isIdentChar_method "collection" (by decide))).findsCalls.bind _

theorem findsCalls_limitCall? : FindsCalls limitCall? :=
  (Call.opensCalls_open? (isIdentChar_method "limit" (by decide))).findsCalls.bind _

theorem findsCalls_orderingCall? : FindsCalls orderingCall? := by
  rw [funext orderingCall?_eq]
  exact opensCalls_orderingOpening?.findsCalls.bind _

theorem findsCalls_open?_where : FindsCalls (Call.open? "where") :=
  (Call.opensCalls_open? (isIdentChar_method "where" (by decide))).findsCalls

theorem findsCalls_open?_select : FindsCalls (Call.open? "select") :=
  (Call.opensCalls_open? (isIdentChar_method "select" (by decide))).findsCalls

/-- Without parentheses a content is inert, whatever stands behind the literal. -/
theorem IsInert.of_unmarked {content : Text} (h : Unmarked content)
    (hslash : Text.backslash ∉ content) (back : Text) : IsInert content back where
  unquoted c hc hquote := h c hc (List.mem_cons_of_mem _ hquote)
  backslash_not_mem := hslash
  collection := findsCalls_collectionCall?.nowhereIn h (by decide) _
  limit := findsCalls_limitCall?.nowhereIn h (by decide) _
  ordering := findsCalls_orderingCall?.nowhereIn h (by decide) _
  condition := findsCalls_open?_where.nowhereIn h (by decide) _
  selection := findsCalls_open?_select.nowhereIn h (by decide) _

/-- Nothing can be found in no content. -/
theorem IsInert.nil (back : Text) : IsInert [] back :=
  .of_unmarked (fun _ hc => absurd hc List.not_mem_nil) List.not_mem_nil back

/-! ## The searches that read a few quotes -/

theorem quotesIn_valueOpening : quotesIn valueOpening = 5 := by decide

/-- Behind its point the opening holds no other one. -/
theorem allPlaces_valueOpening {α : Type} {find : Text → Option α} (hfind : FindsCalls find)
    (rest : Text) : allPlaces find (valueOpening ++ rest) =
      (find (valueOpening ++ rest)).toList ++ allPlaces find rest := by
  have hopening : Silent ("where" ++ CodePoint.char '(' :: "'f', '==', '") :=
    Silent.of_not_mem (by decide)
  exact hopening.allPlaces_callText hfind rest

/-- From in front of the value no search gets as far as its content. -/
theorem allPlaces_withLiteral {α : Type} {find : Text → Option α} {quotes : Nat}
    (hfind : FindsCalls find) (hreads : ReadsWithin find quotes) (hquotes : quotes < 5)
    {content back : Text} (hcontent : NowhereIn find content (behindValue back)) (front : Text) :
    allPlaces find (withLiteral front content back) = allPlaces find (withLiteral front [] back) := by
  have hpart (part : Text) : find (part ++ (valueOpening ++ (content ++ behindValue back))) =
      find (part ++ (valueOpening ++ behindValue back)) := by
    rw [← List.append_assoc part, ← List.append_assoc part]
    refine hreads.find_append_eq ?_ _ _
    rw [quotesIn_append, quotesIn_valueOpening]
    omega
  refine allPlaces_append_congr (fun part _ _ => hpart part) ?_
  have hopening := hpart []
  rw [List.nil_append, List.nil_append] at hopening
  rw [List.nil_append, allPlaces_valueOpening hfind, allPlaces_valueOpening hfind, hopening,
    hcontent.allPlaces]

theorem firstPlace?_withLiteral {α : Type} {find : Text → Option α} {quotes : Nat}
    (hfind : FindsCalls find) (hreads : ReadsWithin find quotes) (hquotes : quotes < 5)
    {content back : Text} (hcontent : NowhereIn find content (behindValue back)) (front : Text) :
    firstPlace? find (withLiteral front content back) =
      firstPlace? find (withLiteral front [] back) := by
  rw [firstPlace?_eq_head?, firstPlace?_eq_head?,
    allPlaces_withLiteral hfind hreads hquotes hcontent front]

/-! ## The calls whose arguments are cut -/

/-- From the opening on there is perhaps the condition itself, and then the calls behind the value. -/
theorem sites_valueOpening {name : Text} (hname : ∀ c ∈ name, Text.isIdentChar c = true)
    {content back : Text} (hcontent : NowhereIn (Call.open? name) content (behindValue back)) :
    Call.sites name (valueOpening ++ (content ++ behindValue back)) =
      (Call.open? name (valueOpening ++ (content ++ behindValue back))).toList ++
        Call.sites name (behindValue back) := by
  unfold Call.sites
  rw [allPlaces_valueOpening (Call.opensCalls_open? hname).findsCalls, hcontent.allPlaces]

/-- The calls of a name: those in front, which go on behind it, perhaps the condition itself, and those
behind the value. -/
theorem sites_withLiteral {name : Text} (hname : ∀ c ∈ name, Text.isIdentChar c = true)
    {content back : Text} (hcontent : NowhereIn (Call.open? name) content (behindValue back))
    (front : Text) : Call.sites name (withLiteral front content back) =
      (Call.sites name front).map (· ++ (valueOpening ++ (content ++ behindValue back))) ++
        ((Call.open? name (valueOpening ++ (content ++ behindValue back))).toList ++
          Call.sites name (behindValue back)) := by
  rw [← sites_valueOpening hname hcontent]
  exact Call.sites_append_point hname front _

theorem open?_valueOpening {name : Text} (hname : ∀ c ∈ name, Text.isIdentChar c = true)
    (rest : Text) : Call.open? name (valueOpening ++ rest) =
      if ("where" : Text) = name then some ("'f', '==', '" ++ rest) else none := by
  have hgap : AllBlank [] := rfl
  exact Call.open?_callText hname (isIdentChar_method "where" (by decide)) hgap ("'f', '==', '" ++ rest)

theorem selectIn?_append {inside : Text} (h : (callArguments inside).isClosed = true) (more : Text) :
    selectIn? (inside ++ more) = selectIn? inside := by
  unfold selectIn?
  rw [callArguments_append h]

theorem conditionAt?_append {inside : Text} (h : (callArguments inside).isClosed = true) (more : Text) :
    conditionAt? (inside ++ more) = conditionAt? inside := by
  unfold conditionAt?
  rw [callArguments_append h]

/-- The conditions in front of a point, if the calls there are closed, and those from the point on. -/
theorem parseConditions_append_point {front : Text} (hfront : ClosesCalls "where" front) (rest : Text) :
    parseConditions (front ++ CodePoint.char '.' :: rest) = do
      let before ← parseConditions front
      let after ← parseConditions (CodePoint.char '.' :: rest)
      return before ++ after := by
  have hbefore : ((Call.sites "where" front).map (· ++ CodePoint.char '.' :: rest)).filterMap
      conditionAt? = (Call.sites "where" front).filterMap conditionAt? := by
    rw [List.filterMap_map]
    exact List.filterMap_congr fun inside hinside => conditionAt?_append (hfront inside hinside) _
  rw [parseConditions_eq_sites, parseConditions_eq_sites, parseConditions_eq_sites,
    Call.sites_append_point (isIdentChar_method "where" (by decide)), List.filterMap_append, hbefore,
    List.mapM_append]

section

variable {front content back : Text}

/-- The first selection stands in front or behind. -/
theorem parseSelect_withLiteral (hfront : ClosesCalls "select" front) (h : IsInert content back) :
    parseSelect (withLiteral front content back) =
      (((Call.sites "select" front).head?.or (Call.sites "select" (behindValue back)).head?).bind
        selectIn?).getD [] := by
  have hselect := isIdentChar_method "select" (by decide)
  rw [parseSelect_eq, sites_withLiteral hselect h.selection, open?_valueOpening hselect,
    if_neg (by decide), Option.toList_none, List.nil_append, List.head?_append, List.head?_map]
  cases hsites : Call.sites "select" front with
  | nil => rfl
  | cons inside more =>
    have hclosed := hfront inside (by rw [hsites]; exact List.mem_cons_self)
    exact congrArg (Option.getD · []) (selectIn?_append hclosed _)

/-- The arguments of the condition are its field, its operator and the literal. -/
theorem conditionAt?_literal (h : IsPlain content) (back : Text) :
    conditionAt? ("'f', '==', '" ++ (content ++ behindValue back)) =
      some (.ok (literalCondition content)) := by
  let value : Text := Text.singleQuote :: (content ++ [Text.singleQuote])
  have hquote : Text.singleQuote ∈ literalQuotes := by decide
  have hmark : Text.singleQuote ∉ content := fun hmem => h.unquoted _ hmem hquote
  have hblanks : AllBlank " " := rfl
  have hblank : Whole " " := Whole.of_blanks hblanks
  have hwhole {inside : Text} (hmark : Text.singleQuote ∉ inside) (hslash : Text.backslash ∉ inside) :
      Whole (Text.singleQuote :: (inside ++ [Text.singleQuote])) :=
    Whole.of_literal hquote hmark hslash
  have hf : Whole "'f'" := @hwhole "f" (by decide) (by decide)
  have hequal : Whole "'=='" := @hwhole "==" (by decide) (by decide)
  have hfield : IsArgument "'f'" "'f'" := ⟨hf, by decide, by decide⟩
  have hoperator : IsArgument " '=='" "'=='" := ⟨hblank.append hequal, by decide, by decide⟩
  have hvalue : IsArgument (CodePoint.char ' ' :: value) value := by
    refine ⟨hblank.append (hwhole hmark h.backslash_not_mem), ?_, List.cons_ne_nil _ _⟩
    have htight : Text.Tight value := tight_quoted (isBlank_of_mem_literalQuotes hquote) content
    have hnone : AllBlank [] := rfl
    have htrim := Text.trim_surrounded hblanks htight hnone
    rwa [List.append_nil] at htrim
  -- the text is the three arguments, joined by commas and closed
  have htext : "'f', '==', '" ++ (content ++ behindValue back) =
      Text.join [','] ["'f'", " '=='", CodePoint.char ' ' :: value] ++ CodePoint.char ')' :: back := by
    have hclosing : content ++ behindValue back =
        content ++ [Text.singleQuote] ++ CodePoint.char ')' :: back :=
      List.append_cons content Text.singleQuote _
    rw [hclosing]
    rfl
  obtain ⟨harguments, hclosed⟩ := callArguments_join_closed
    (.cons hfield (.cons hoperator (.cons hvalue .nil))) (List.cons_ne_nil _ _) back
  rw [← htext] at harguments hclosed
  have hname : (literalContent? literalQuotes "'f'").bind nonempty? = some "f" := rfl
  have hsign : (literalContent? literalQuotes "'=='").bind nonempty? = some "==" := rfl
  unfold conditionAt? conditionFrom?
  rw [harguments, hclosed]
  dsimp only
  rw [hname, hsign, nonempty?_eq_some hvalue.ne_nil]
  dsimp only [bind, Option.bind]
  rw [parse_quoted hquote]
  rfl

/-- The condition of the literal and the conditions behind. -/
theorem parseConditions_valueOpening (h : IsPlain content)
    (hcontent : NowhereIn (Call.open? "where") content (behindValue back)) :
    parseConditions (valueOpening ++ (content ++ behindValue back)) =
      (literalCondition content :: ·) <$> parseConditions (behindValue back) := by
  have hwhere := isIdentChar_method "where" (by decide)
  rw [parseConditions_eq_sites, parseConditions_eq_sites, sites_valueOpening hwhere hcontent,
    open?_valueOpening hwhere, if_pos rfl, Option.toList_some, List.singleton_append,
    List.filterMap_cons_some (conditionAt?_literal h back), List.mapM_cons]
  rfl

/-- The conditions in front, the condition of the literal, and the conditions behind. -/
theorem parseConditions_withLiteral (hfront : ClosesCalls "where" front) (h : IsPlain content)
    (hcontent : NowhereIn (Call.open? "where") content (behindValue back)) :
    parseConditions (withLiteral front content back) = do
      let before ← parseConditions front
      let after ← parseConditions (behindValue back)
      return before ++ literalCondition content :: after := by
  have hsplit : parseConditions (withLiteral front content back) = do
      let before ← parseConditions front
      let after ← parseConditions (valueOpening ++ (content ++ behindValue back))
      return before ++ after := parseConditions_append_point hfront _
  rw [hsplit, parseConditions_valueOpening h hcontent]
  simp only [bind_map_left]

/-! ## The parameters -/

/-- What the texts around a value say: the parameters without conditions, and the conditions in front of
and behind that of the value. -/
def surroundings (front back collection : Text) (limit : Int) :
    Except Fault (QueryParameters × List Condition × List Condition) := do
  let text := withLiteral front [] back
  let fallback ← usableLimit limit
  let used ← parseLimit text fallback
  let before ← parseConditions front
  let after ← parseConditions (behindValue back)
  let used ← writable used
  return ({
    collection := (firstPlace? collectionCall? text).getD collection
    limit := .int used
    select := parseSelect text
    conditions := []
    ordering := parseOrdering text }, before, after)

/-- An inert content is the value of its condition, and nothing else depends on it. -/
theorem parse_withLiteral (hwhere : ClosesCalls "where" front) (hselect : ClosesCalls "select" front)
    (h : IsInert content back) (collection : Text) (limit : Int) : parse (withLiteral front content back) collection limit =
      (fun around => { around.1 with
        conditions := around.2.1 ++ literalCondition content :: around.2.2 }) <$>
        surroundings front back collection limit := by
  have hcollection := firstPlace?_withLiteral findsCalls_collectionCall? readsWithin_collectionCall?
    (by decide) h.collection front
  have hlimit := firstPlace?_withLiteral findsCalls_limitCall? readsWithin_limitCall? (by decide)
    h.limit front
  have hordering := firstPlace?_withLiteral findsCalls_orderingCall? readsWithin_orderingCall?
    (by decide) h.ordering front
  have hselection := (parseSelect_withLiteral hselect h).trans
    (parseSelect_withLiteral hselect (.nil back)).symm
  unfold parse surroundings parseLimit parseOrdering
  rw [hcollection, hlimit, hordering, hselection,
    parseConditions_withLiteral hwhere h.toIsPlain h.condition]
  simp only [map_bind, map_pure, bind_assoc, pure_bind]

/-- Two inert contents at the same place lead to the same parameters, but for the value of the condition
that they stand in, or both to the same refusal. -/
theorem parse_literal_opaque {content' : Text} (hwhere : ClosesCalls "where" front)
    (hselect : ClosesCalls "select" front) (h : IsInert content back) (h' : IsInert content' back)
    (collection : Text) (limit : Int) :
    (∃ fault, parse (withLiteral front content back) collection limit = .error fault ∧
      parse (withLiteral front content' back) collection limit = .error fault) ∨
    ∃ (params : QueryParameters) (before after : List Condition),
      parse (withLiteral front content back) collection limit =
        .ok { params with conditions := before ++ literalCondition content :: after } ∧
      parse (withLiteral front content' back) collection limit =
        .ok { params with conditions := before ++ literalCondition content' :: after } := by
  rw [parse_withLiteral hwhere hselect h, parse_withLiteral hwhere hselect h']
  cases surroundings front back collection limit with
  | error fault => exact .inl ⟨fault, rfl, rfl⟩
  | ok around => exact .inr ⟨around.1, around.2.1, around.2.2, rfl, rfl⟩

end

/-- A text whose only condition is that of a literal, found there by its name alone. -/
theorem parseConditions_alone {front content : Text} (hfront : Call.sites "where" front = [])
    (h : IsPlain content) (hcontent : NowhereIn (Call.open? "where") content (behindValue [])) :
    parseConditions (withLiteral front content []) = .ok [literalCondition content] := by
  have hclosed : ClosesCalls "where" front := by
    unfold ClosesCalls
    rw [hfront]
    exact fun inside hinside => absurd hinside List.not_mem_nil
  rw [parseConditions_withLiteral hclosed h hcontent, parseConditions_eq_sites front, hfront]
  rfl

/-- A comma, parentheses and the name of a clause in a value, behind a selection. -/
theorem parse_literal_opaque_parentheses :
    ∃ (params : QueryParameters) (before after : List Condition),
      parse (withLiteral ".collection('users').select('a')" "a, (b).limit" []) [] 50 =
        .ok { params with conditions := before ++ literalCondition "a, (b).limit" :: after } ∧
      parse (withLiteral ".collection('users').select('a')" "c" []) [] 50 =
        .ok { params with conditions := before ++ literalCondition "c" :: after } := by
  have hwhere : ClosesCalls "where" ".collection('users').select('a')" := by decide
  have hselect : ClosesCalls "select" ".collection('users').select('a')" := by decide
  have h : IsInert "a, (b).limit" [] := by decide
  have h' : IsInert "c" [] := by decide
  rcases parse_literal_opaque hwhere hselect h h' [] 50 with ⟨fault, -, hfault⟩ | hparams
  · have hsites : Call.sites "where" ".collection('users').select('a')" = [] := rfl
    have hconditions := parseConditions_alone hsites h'.toIsPlain h'.condition
    unfold parse at hfault
    rw [hconditions] at hfault
    cases hfault
  · exact hparams

/-- A limit in the value is the limit of the expression; and where a literal in front opens a selection, a
comma in the value cuts a field off. -/
theorem parse_literal_not_opaque :
    (parse (withLiteral [] ".limit(5)" []) [] 50 =
        .ok ⟨[], .int 5, [], [literalCondition ".limit(5)"], none⟩ ∧
      parse (withLiteral [] [] []) [] 50 = .ok ⟨[], .int 50, [], [literalCondition []], none⟩) ∧
    (parse (withLiteral ".f('.select(')" "," []) [] 50 =
        .ok ⟨[], .int 50, [").where('f', '==', "], [literalCondition ","], none⟩ ∧
      parse (withLiteral ".f('.select(')" [] []) [] 50 =
        .ok ⟨[], .int 50, [], [literalCondition []], none⟩) := by
  have hlimit : parseConditions (withLiteral [] ".limit(5)" []) =
      .ok [literalCondition ".limit(5)"] := parseConditions_alone rfl (by decide) (by decide)
  have hempty : parseConditions (withLiteral [] [] []) = .ok [literalCondition []] :=
    parseConditions_alone rfl (by decide) (by decide)
  have hcomma : parseConditions (withLiteral ".f('.select(')" "," []) = .ok [literalCondition ","] :=
    parseConditions_alone rfl (by decide) (by decide)
  have hbehind : parseConditions (withLiteral ".f('.select(')" [] []) = .ok [literalCondition []] :=
    parseConditions_alone rfl (by decide) (by decide)
  unfold parse
  rw [hlimit, hempty, hcomma, hbehind]
  exact ⟨⟨rfl, rfl⟩, rfl, rfl⟩

end Query

end FluentQuery
