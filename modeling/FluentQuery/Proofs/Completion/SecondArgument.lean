/-
  The second argument of a condition or an ordering, where nothing is typed yet. Behind the comma no
  literal is open, no token is left, and the call just opened is the innermost one
  (`openCall?_append_call`). Of the static catalog and of whatever the editor's supplier adds, the words
  of that argument alone have a positive score, and all have the same (`qualify?_of_mem_words`,
  `qualify?_of_kind_ne`); so the whole offer is the words, longer ones first and else as in the catalog:
  `complete_secondArgument`.
-/
import FluentQuery.Completion.Engine
import FluentQuery.Completion.Lookup
import FluentQuery.Proofs.Completion.Choices
import FluentQuery.Proofs.Completion.EnclosingCall
import FluentQuery.Proofs.Completion.SuppliedKinds
import FluentQuery.Proofs.Completion.TopResults
import FluentQuery.Proofs.Completion.TypedCall

namespace FluentQuery

/-! ## Methods with words -/

/-- A method whose second argument is one of a few words. -/
inductive WordedMethod where
  | condition
  | ordering
  deriving DecidableEq, Repr

namespace WordedMethod

def name : WordedMethod → Text
  | condition => "where"
  | ordering => "orderBy"

/-- The category of the words. -/
def kind : WordedMethod → CompletionKind
  | condition => .operator
  | ordering => .direction

/-- The words, in the order of the catalog. -/
def words : WordedMethod → List Completion
  | condition => Catalog.operators
  | ordering => Catalog.directions

/-- The words as they are typed, longer ones first. -/
def typed : WordedMethod → List Text
  | condition => ["array-contains-any", "array-contains", "not-in", "==", "!=", ">=", "<=", "in",
      ">", "<"]
  | ordering => ["desc", "asc"]

/-- The situation behind the first comma of the call. -/
def situation (m : WordedMethod) : Situation := ⟨false, [], false, false, false, some ⟨m.name, 1⟩⟩

/-- The call up to its second argument: the first argument is a literal, and nothing but blanks stands
behind the comma. -/
def callUpTo (m : WordedMethod) (quote : CodePoint) (field blanks : Text) : Text :=
  callText m.name (quote :: (field ++ [quote]) ++ CodePoint.char ',' :: blanks)

theorem name_mem (m : WordedMethod) : m.name ∈ Cursor.completedMethods := by
  cases m <;> decide

end WordedMethod

/-! ## The end of the line -/

namespace Cursor

section

variable {line : Text}

/-- Behind a comma outside literals there is no token, and no point. -/
theorem lineTrigger_comma (h : openLiteral stringQuotes (line ++ [CodePoint.char ',']) = none) :
    lineTrigger (line ++ [CodePoint.char ',']) = [] := by
  have hargument : endsAtArgument (line ++ [CodePoint.char ',']) = true := by simp [endsAtArgument]
  unfold lineTrigger
  rw [h]
  exact if_pos hargument

theorem endsInWord_comma (line : Text) : EndsInWord (line ++ [CodePoint.char ',']) [] := by
  refine ⟨nofun, ?_⟩
  rw [List.getLast?_concat]
  decide

theorem endsAfterDot_comma (line : Text) : endsAfterDot (line ++ [CodePoint.char ',']) = false := by
  rw [← List.append_nil (line ++ [CodePoint.char ','])]
  exact endsAfterDot_of_word (endsInWord_comma line) (by simp)

theorem endsAtRoot_comma (root line : Text) :
    endsAtRoot root (line ++ [CodePoint.char ',']) = false := by
  rw [← List.append_nil (line ++ [CodePoint.char ','])]
  exact endsAtRoot_of_word root (endsInWord_comma line) (by simp)

end

/-! ## The call just opened -/

/-- A call that is found from some place on is found from the start on. -/
theorem openCallFrom_append_eq_some {front text before : Text} {call : OpenCall}
    (h : openCallFrom (before ++ front) text = some call) :
    openCallFrom before (front ++ text) = some call := by
  induction front generalizing before with
  | nil => rwa [List.append_nil] at h
  | cons c front ih =>
    have hlater : openCallFrom (before ++ [c]) (front ++ text) = some call :=
      ih (by rwa [List.append_assoc, List.singleton_append])
    rw [List.cons_append, openCallFrom, hlater]
    rfl

theorem calledName?_append_pointed {name : Text} (hname : name ∈ completedMethods) (front : Text) :
    calledName? (front ++ CodePoint.char '.' :: name) = some name := by
  have hpoint : Text.isBlank '.' = false := by decide
  have htrim : Text.trimEnd (CodePoint.char '.' :: name ++ []) = CodePoint.char '.' :: name :=
    trimEnd_pointed hname rfl
  have halone := Text.trimEnd_append_cons hpoint [] name
  rw [List.append_nil] at htrim
  rw [List.nil_append, htrim, List.nil_append] at halone
  refine calledName?_eq_some_iff.2 ⟨hname, ?_⟩
  rw [Text.trimEnd_append_cons hpoint, ← halone]
  exact List.suffix_append _ _

/-- A call of a known method whose arguments no other call stands in encloses the end of the text,
whatever stands before it. -/
theorem openCall?_append_call {name : Text} (hname : name ∈ completedMethods) {u : Unfinished}
    (hparen : CodePoint.char '(' ∉ u.text) (front : Text) :
    openCall? (front ++ callText name u.text) = some ⟨name, u.commas⟩ := by
  have hinside : openCallFrom (front ++ CodePoint.char '.' :: name ++ [CodePoint.char '(']) u.text =
      none := by
    have hnone := openCallFrom_append_of_not_mem hparen
      (front ++ CodePoint.char '.' :: name ++ [CodePoint.char '(']) []
    rwa [List.append_nil] at hnone
  have hcall : openCallFrom (front ++ CodePoint.char '.' :: name) (CodePoint.char '(' :: u.text) =
      some ⟨name, u.commas⟩ := by
    rw [openCallFrom, hinside, Option.none_or, if_pos rfl, calledName?_append_pointed hname front]
    exact openArgument?_unfinished u name
  have htext : front ++ callText name u.text =
      (front ++ CodePoint.char '.' :: name) ++ CodePoint.char '(' :: u.text := by
    unfold callText
    rw [List.append_assoc, List.cons_append]
  rw [openCall?_eq_openCallFrom, htext]
  exact openCallFrom_append_eq_some hcall

/-- A window that takes in the end of a text cuts off nothing but its start. -/
theorem exists_lastChars_eq {window : Int} {text : Text} (h : text.length ≤ window) (earlier : Text) :
    ∃ seen, lastChars window (earlier ++ text) = seen ++ text := by
  refine ⟨earlier.drop ((earlier ++ text).length - window.toNat), ?_⟩
  have hle : (earlier ++ text).length - window.toNat ≤ earlier.length := by
    rw [List.length_append]
    omega
  unfold lastChars
  exact List.drop_append_of_le_length hle

end Cursor

/-! ## Candidates of one score -/

/-- Sorting by a measure of the members sorts the members. -/
theorem stableSort_map {α β : Type} {f : α → β} {above : α → α → Bool} {above' : β → β → Bool}
    (h : ∀ a b, above' (f a) (f b) = above a b) (l : List α) :
    stableSort above' (l.map f) = (stableSort above l).map f := by
  have hinsert (x : α) (l : List α) :
      insertBy above' (f x) (l.map f) = (insertBy above x l).map f := by
    induction l with
    | nil => rfl
    | cons y ys ih =>
      rw [List.map_cons, insertBy, insertBy, h, ih]
      split <;> rfl
  induction l with
  | nil => rfl
  | cons x xs ih => rw [List.map_cons, stableSort, ih, hinsert, stableSort]

namespace Ranking

theorem bestByKey_of_nodup {entries : List Ranked} (h : (entries.map (·.completion.key)).Nodup) :
    bestByKey entries = entries := by
  induction entries using List.reverseRecOn with
  | nil => rfl
  | append_singleton entries e ih =>
    rw [List.map_append, List.nodup_append] at h
    obtain ⟨hnodup, -, hdisjoint⟩ := h
    have hne : ∀ r ∈ entries, r.completion.key ≠ e.completion.key := fun r hr =>
      hdisjoint _ (List.mem_map_of_mem hr) _ (by simp)
    rw [bestByKey_append, ih hnodup, enter_of_new hne]

/-- Of candidates with one score and keys of their own, all are ranked, those with longer triggers
first. -/
theorem stableSort_bestByKey_level {candidates : List Completion}
    (h : (candidates.map Completion.key).Nodup) (score : Int) :
    stableSort above (bestByKey (candidates.map fun c => ⟨c, score⟩)) =
      (stableSort Lookup.isLonger candidates).map fun c => ⟨c, score⟩ := by
  have hkeys : ((candidates.map fun c => Ranked.mk c score).map (·.completion.key)).Nodup := by
    rwa [List.map_map]
  have habove (a b : Completion) : above ⟨a, score⟩ ⟨b, score⟩ = Lookup.isLonger a b := by
    simp [above, Lookup.isLonger]
  rw [bestByKey_of_nodup hkeys, stableSort_map habove]

theorem firstResults_of_length_le {α : Type} {maxResults : Int} {results : List α}
    (h : results.length ≤ maxResults) : firstResults maxResults results = results := by
  unfold firstResults
  rw [if_pos (by omega), List.take_of_length_le (by omega)]

end Ranking

/-! ## The first argument -/

/-- The first argument of a call as a literal, and the blanks behind the comma after it. -/
structure IsFirstArgument (quote : CodePoint) (field blanks : Text) : Prop where
  quote_mem : quote ∈ stringQuotes
  quote_not_mem : quote ∉ field
  backslash_not_mem : Text.backslash ∉ field
  paren_not_mem : CodePoint.char '(' ∉ field
  break_not_mem : CodePoint.char '\n' ∉ field
  blanks : ∀ c ∈ blanks, c = CodePoint.char ' ' ∨ c = CodePoint.char '\t'

namespace IsFirstArgument

variable {quote : CodePoint} {field blanks : Text} (h : IsFirstArgument quote field blanks)

include h

theorem isContent : IsContent quote field where
  quote_mem := List.mem_append_left [Text.backtick] h.quote_mem
  quote_not_mem := h.quote_not_mem
  backslash_not_mem := h.backslash_not_mem
  paren_not_mem := h.paren_not_mem

theorem ne_quote {c : CodePoint} (hc : c ∉ stringQuotes) : c ≠ quote :=
  fun heq => hc (heq ▸ h.quote_mem)

theorem not_mem_blanks {c : CodePoint} (hspace : c ≠ CodePoint.char ' ')
    (htab : c ≠ CodePoint.char '\t') : c ∉ blanks := by
  intro hmem
  rcases h.blanks c hmem with heq | heq
  · exact hspace heq
  · exact htab heq

theorem all_isBlank : blanks.all Text.isBlank = true := by
  rw [List.all_eq_true]
  intro c hc
  rcases h.blanks c hc with rfl | rfl <;> decide

theorem isPlainChar : ∀ c ∈ CodePoint.char ',' :: blanks, IsPlainChar c := by
  intro c hc
  rcases List.mem_cons.1 hc with rfl | hc
  · decide
  · rcases h.blanks c hc with rfl | rfl <;> decide

/-- What is typed behind the parenthesis reads as an unfinished text with one comma, in which no other
call is opened. -/
theorem exists_unfinished : ∃ u : Unfinished,
    u.text = quote :: (field ++ [quote]) ++ CodePoint.char ',' :: blanks ∧ u.commas = 1 ∧
      CodePoint.char '(' ∉ u.text := by
  let u : Unfinished := .done (.literal quote field h.isContent (.plain _ h.isPlainChar .nil))
  have htext : u.text = quote :: (field ++ [quote]) ++ CodePoint.char ',' :: blanks := by
    simp [u, Unfinished.text, Balanced.text]
  have hcomma := h.not_mem_blanks (c := CodePoint.char ',') (by decide) (by decide)
  have hquote := h.ne_quote (c := CodePoint.char '(') (by decide)
  have hparen := h.not_mem_blanks (c := CodePoint.char '(') (by decide) (by decide)
  refine ⟨u, htext, ?_, ?_⟩
  · simp [u, Unfinished.commas, Unfinished.front, Balanced.commas, Text.countOf,
      List.count_eq_zero_of_not_mem hcomma]
  · rw [htext]
    simp [hquote, h.paren_not_mem, hparen]

end IsFirstArgument

namespace WordedMethod

variable {m : WordedMethod} {quote : CodePoint} {field blanks : Text}

theorem isIdentChar_name (m : WordedMethod) : ∀ c ∈ m.name, Text.isIdentChar c = true :=
  isIdentChar_method _ m.name_mem

theorem openCall?_append_callUpTo (h : IsFirstArgument quote field blanks) (front : Text) :
    Cursor.openCall? (front ++ m.callUpTo quote field blanks) = some ⟨m.name, 1⟩ := by
  obtain ⟨u, htext, hcommas, hparen⟩ := h.exists_unfinished
  have hcall := Cursor.openCall?_append_call m.name_mem hparen front
  rwa [htext, hcommas] at hcall

/-- The line is read up to the comma. -/
theorem lineBefore_callUpTo (h : IsFirstArgument quote field blanks) (earlier : Text) :
    Cursor.lineBefore (earlier ++ m.callUpTo quote field blanks)
        (earlier ++ m.callUpTo quote field blanks).length =
      Text.lastLine earlier ++ callText m.name (quote :: (field ++ [quote])) ++
        [CodePoint.char ','] := by
  have hname : CodePoint.char '\n' ∉ m.name := fun hmem =>
    absurd (m.isIdentChar_name _ hmem) (by decide)
  have hquote := h.ne_quote (c := CodePoint.char '\n') (by decide)
  have hblanks := h.not_mem_blanks (c := CodePoint.char '\n') (by decide) (by decide)
  have hbreak : CodePoint.char '\n' ∉ m.callUpTo quote field blanks := by
    simp [callUpTo, callText, hname, hquote, h.break_not_mem, hblanks]
  have hline := Cursor.lineBefore_append hbreak earlier []
  rw [List.append_nil] at hline
  rw [hline, callUpTo, callText_append, ← List.append_assoc, Text.trimEnd_append_cons (by decide),
    Text.trimEnd_eq_nil h.all_isBlank]

/-- No literal is open behind the comma, if none is open before the call. -/
theorem openLiteral_callUpTo (h : IsFirstArgument quote field blanks) {line : Text}
    (hline : openLiteral stringQuotes line = none) :
    openLiteral stringQuotes
      (line ++ callText m.name (quote :: (field ++ [quote])) ++ [CodePoint.char ',']) = none := by
  have hopen := openLiteral_callText m.name line m.isIdentChar_name
  have hclosed := openLiteral_append_closed (hopen.trans hline) (escapedBehind_callText m.name line)
    h.quote_mem h.quote_not_mem h.backslash_not_mem (ne_backslash_of_mem_stringQuotes h.quote_mem)
  rw [List.append_assoc, ← callText_append, List.nil_append] at hclosed
  rw [openLiteral_append_of_not_mem (by decide)]
  exact hclosed

/-- The situation behind the comma is the same whatever stands before the call, as long as no literal is
open there. -/
theorem situationAt_callUpTo (h : IsFirstArgument quote field blanks) {earlier : Text}
    (hearlier : openLiteral stringQuotes (Text.lastLine earlier) = none) (root : Text) {window : Int}
    (hwindow : (m.callUpTo quote field blanks).length ≤ window) :
    Cursor.situationAt root window (earlier ++ m.callUpTo quote field blanks)
      (earlier ++ m.callUpTo quote field blanks).length = m.situation := by
  have hline := m.lineBefore_callUpTo h earlier
  have hopen := m.openLiteral_callUpTo h hearlier
  obtain ⟨seen, hseen⟩ := Cursor.exists_lastChars_eq hwindow earlier
  have hcall := m.openCall?_append_callUpTo h seen
  have hbefore := Cursor.before_append (earlier ++ m.callUpTo quote field blanks) []
  have hnotBlank (line : Text) : Text.isAllBlank (line ++ [CodePoint.char ',']) = false := by
    unfold Text.isAllBlank
    rw [List.all_append, Bool.and_eq_false_iff]
    exact .inr (by decide)
  rw [List.append_nil] at hbefore
  rw [Cursor.situationAt_eq]
  unfold Cursor.situationWith Cursor.trigger situation
  simp only [hbefore, hseen, hcall, hline, Cursor.lineTrigger_comma hopen, hopen,
    Cursor.endsAfterDot_comma, Cursor.endsAtRoot_comma, hnotBlank, Option.isSome_none, Bool.and_false]

/-! ## Scores -/

/-- Only the words fit where they are expected. -/
theorem situationScore_eq (kind : Option CompletionKind) (c : Completion) :
    Fitness.situationScore kind c m.situation = if kind = some m.kind then 24 else 0 := by
  split
  · rename_i hkind
    subst hkind
    cases m <;> rfl
  · rename_i hkind
    cases m <;> simp_all [Fitness.situationScore, situation, Fitness.argumentPoints, name,
      WordedMethod.kind]

theorem adjustment_eq (root : Text) (kind : Option CompletionKind) (c : Completion) :
    Fitness.adjustment root kind c [] m.situation =
      c.priority + (if kind = some m.kind then 45 else 0) +
        (Fitness.methodStanding.lookup c.key).getD 0 := by
  have hdot : Fitness.dotAdjustment kind c [] m.situation = 0 := if_neg (by cases m <;> decide)
  have hroot : Fitness.rootAdjustment root c m.situation = 0 := if_neg fun h => nomatch h.1
  have hstring : Fitness.stringAdjustment kind c m.situation = 0 := rfl
  have hsnippet : Fitness.snippetAdjustment kind m.situation = 0 := by
    unfold Fitness.snippetAdjustment
    split <;> rfl
  have hquote : Fitness.quoteAdjustment c m.situation = 0 := by
    cases m <;> rfl
  have hargument : Fitness.argumentAdjustment kind m.situation =
      if kind = some m.kind then 45 else 0 := by
    split
    · rename_i hkind
      subst hkind
      cases m <;> rfl
    · rename_i hkind
      cases m <;> simp_all [Fitness.argumentAdjustment, situation, name, WordedMethod.kind]
  unfold Fitness.adjustment
  rw [hdot, hroot, hsnippet, hstring, hquote, hargument]
  omega

theorem baseScore_eq (root : Text) (c : Completion) :
    Ranking.baseScore root [] m.situation c =
      if Fitness.likelyKind root c = some m.kind then 24 else 0 := by
  unfold Ranking.baseScore
  rw [if_pos (by decide), situationScore_eq]

/-- The words are declared as what they are, and stand in no other order of their own. -/
theorem of_mem_words {c : Completion} (hc : c ∈ m.words) :
    c.kind = some m.kind ∧ c.priority = 0 ∧ Fitness.methodStanding.lookup c.key = none := by
  revert c
  cases m <;> decide

theorem qualify?_of_mem_words (root : Text) {c : Completion} (hc : c ∈ m.words) :
    Ranking.qualify? root [] m.situation c = some ⟨c, 69⟩ := by
  obtain ⟨hkind, hpriority, hstanding⟩ := m.of_mem_words hc
  have hlikely : Fitness.likelyKind root c = some m.kind := by
    unfold Fitness.likelyKind
    rw [hkind]
  have hbase : Ranking.baseScore root [] m.situation c = 24 := by
    rw [baseScore_eq, if_pos hlikely]
  have hfinal : Ranking.finalScore root [] m.situation c = 69 := by
    unfold Ranking.finalScore
    rw [hbase, adjustment_eq, hpriority, if_pos hlikely, hstanding]
    rfl
  unfold Ranking.qualify?
  simp only [hbase, hfinal]
  exact if_pos (by decide)

/-- No trigger suggests the category of the words. -/
theorem likelyKind_ne {root : Text} {c : Completion} (hc : c.kind ≠ some m.kind) :
    Fitness.likelyKind root c ≠ some m.kind := by
  unfold Fitness.likelyKind
  split
  · rename_i kind hkind
    rwa [← hkind]
  · split_ifs <;> cases m <;> decide

theorem qualify?_of_kind_ne (root : Text) {c : Completion} (hc : c.kind ≠ some m.kind) :
    Ranking.qualify? root [] m.situation c = none := by
  have hbase : Ranking.baseScore root [] m.situation c = 0 := by
    rw [baseScore_eq, if_neg (likelyKind_ne hc)]
  unfold Ranking.qualify?
  rw [hbase]
  exact if_neg fun h => absurd h.1 (by decide)

/-! ## The offer -/

theorem kind_ne_of_mem_editor {c : Completion} (hc : c ∈ Catalog.editor) : c.kind ≠ some m.kind := by
  revert c
  cases m <;> decide

theorem kind_ne_of_mem_rootShortcuts {root path : Text} {c : Completion}
    (hc : c ∈ Supply.rootShortcuts root path) : c.kind ≠ some m.kind := by
  rw [Supply.kind_of_mem_rootShortcuts hc]
  cases m <;> decide

/-- The supplier adds the words, and at most the shortcuts to the open collection. -/
theorem editor_situation (path : Text) (fields collections : List Text) (root : Text) :
    Supply.editor path fields collections root m.situation =
      m.words ++ if path = [] then [] else Supply.rootShortcuts root path := by
  have hwords : Supply.secondArguments m.situation = m.words := by
    cases m <;> rfl
  have hfields : (Supply.isAt Supply.methodsOnFields 0 m.situation ||
      Supply.inBareString m.situation) = false := by
    cases m <;> decide
  have hcollections : (Supply.isIn Fitness.methodsOnCollections m.situation ||
      Supply.inBareString m.situation) = false := by
    cases m <;> decide
  unfold Supply.editor
  simp only [hwords, hfields, hcollections, Bool.false_eq_true, if_false, List.append_nil]

theorem filterMap_qualify? (path : Text) (fields collections : List Text) (root own : Text) :
    (Catalog.editor ++ Supply.editor path fields collections own m.situation).filterMap
        (Ranking.qualify? root [] m.situation) =
      m.words.map fun c => ⟨c, 69⟩ := by
  have hcatalog : Catalog.editor.filterMap (Ranking.qualify? root [] m.situation) = [] :=
    List.filterMap_eq_nil_iff.2 fun c hc => qualify?_of_kind_ne root (kind_ne_of_mem_editor hc)
  have hshortcuts : (if path = [] then [] else Supply.rootShortcuts own path).filterMap
      (Ranking.qualify? root [] m.situation) = [] := by
    split
    · rfl
    · exact List.filterMap_eq_nil_iff.2 fun c hc =>
        qualify?_of_kind_ne root (kind_ne_of_mem_rootShortcuts hc)
  have hwords : m.words.filterMap (Ranking.qualify? root [] m.situation) =
      m.words.map fun c => ⟨c, 69⟩ := by
    rw [← List.filterMap_eq_map]
    exact List.filterMap_congr fun c hc => qualify?_of_mem_words root hc
  rw [editor_situation, List.filterMap_append, List.filterMap_append, hcatalog, hwords, hshortcuts,
    List.append_nil, List.nil_append]

theorem rank_situation (path : Text) (fields collections : List Text) (own root : Text)
    {maxResults : Int} (hmax : 10 ≤ maxResults) :
    Ranking.rank Catalog.editor (Supply.editor path fields collections own) root maxResults []
        m.situation =
      (stableSort Lookup.isLonger m.words).map fun c => ⟨c, 69⟩ := by
  have hkeys : (m.words.map Completion.key).Nodup := by
    cases m <;> decide
  have hlength : m.words.length ≤ 10 := by
    cases m <;> decide
  have hsorted : ((stableSort Lookup.isLonger m.words).map fun c => Ranked.mk c 69).length ≤
      maxResults := by
    rw [List.length_map, (stableSort_perm _ _).length_eq]
    omega
  rw [Ranking.rank_of_wanted (Ranking.isWanted_of (.inr (.inl rfl))), Ranking.rankAll, filterMap_qualify?,
    Ranking.stableSort_bestByKey_level hkeys, Ranking.firstResults_of_length_le hsorted]

/-- The words in the order in which they are offered. -/
theorem triggers_stableSort (m : WordedMethod) :
    (stableSort Lookup.isLonger m.words).map (·.trigger) = m.typed := by
  cases m <;> decide

end WordedMethod

/-- Behind the first comma of a condition, the editor offers the ten operators and nothing else, and
behind that of an ordering the two directions: longer ones first, else as in the catalog. It does so with
any names to supply, any root and any text before the call that leaves no literal open on its last
line. -/
theorem complete_secondArgument (m : WordedMethod) {quote : CodePoint} {field blanks : Text}
    (h : IsFirstArgument quote field blanks) {earlier : Text}
    (hearlier : openLiteral stringQuotes (Text.lastLine earlier) = none) (path : Text)
    (fields collections : List Text) (root : Text) {settings : Settings}
    (hmax : 10 ≤ settings.maxResults)
    (hwindow : (m.callUpTo quote field blanks).length ≤ settings.contextWindow) :
    let engine : Engine := ⟨Catalog.editor, Supply.editor path fields collections root, settings⟩
    let offer := engine.complete (earlier ++ m.callUpTo quote field blanks)
      (earlier ++ m.callUpTo quote field blanks).length
    offer.trigger = [] ∧ offer.items = stableSort Lookup.isLonger m.words ∧
      offer.items.map (·.trigger) = m.typed := by
  intro engine offer
  have hsituation : engine.situationAt (earlier ++ m.callUpTo quote field blanks)
      (earlier ++ m.callUpTo quote field blanks).length = m.situation :=
    m.situationAt_callUpTo h hearlier settings.rootIdentifier hwindow
  have hrank : engine.rank [] m.situation =
      (stableSort Lookup.isLonger m.words).map fun c => ⟨c, 69⟩ :=
    m.rank_situation path fields collections root settings.rootIdentifier hmax
  have hoffer : offer = ⟨[], m.situation, (engine.rank [] m.situation).map (·.completion)⟩ := by
    have hcomplete := engine.complete_eq (earlier ++ m.callUpTo quote field blanks)
      (earlier ++ m.callUpTo quote field blanks).length
    rwa [hsituation] at hcomplete
  have hitems : offer.items = stableSort Lookup.isLonger m.words := by
    rw [hoffer, hrank, List.map_map]
    exact List.map_id _
  exact ⟨by rw [hoffer], hitems, by rw [hitems, m.triggers_stableSort]⟩

/-- With another literal in front, a double quote in the field, and a tab behind the comma. -/
theorem complete_secondArgument_behind_literal :
    let text : Text := "db.collection('a').where('b\"', \t"
    let engine : Engine := ⟨Catalog.editor, Supply.editor "users" ["age"] ["users", "jobs"] "db", {}⟩
    let offer := engine.complete text text.length
    offer.trigger = [] ∧ offer.items.map (·.trigger) = WordedMethod.typed .condition := by
  intro text engine offer
  have h : IsFirstArgument Text.singleQuote ("b\"" : String) (" \t" : String) :=
    ⟨by decide, by decide, by decide, by decide, by decide, by decide⟩
  have hearlier : openLiteral stringQuotes (Text.lastLine ("db.collection('a')" : String)) = none := by
    decide
  have hmax : (10 : Int) ≤ ({} : Settings).maxResults := by decide
  have hwindow : (WordedMethod.callUpTo .condition Text.singleQuote ("b\"" : String)
      (" \t" : String)).length ≤ ({} : Settings).contextWindow := by decide
  have hoffer := complete_secondArgument .condition h hearlier ("users" : String) [("age" : String)]
    [("users" : String), ("jobs" : String)] ("db" : String) hmax hwindow
  exact ⟨hoffer.1, hoffer.2.2⟩

end FluentQuery
