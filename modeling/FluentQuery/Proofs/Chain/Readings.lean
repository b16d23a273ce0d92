/-
  What the searches of the parser read off a spelled call: its name, its number, its fields, its condition
  or its ordering, and nothing off a call without arguments (`collectionIn?_inside` and its siblings).
  `allPlaces_spellChain`: in a chain a search reads the calls one by one.
-/
import FluentQuery.Proofs.Query.CallSites

namespace FluentQuery

open Spelling

namespace Spelling

/-! ## Calls in a chain -/

theorem Clause.isIdentChar_callName (clause : Clause) :
    ∀ c ∈ clause.callName, Text.isIdentChar c = true := by
  cases clause with
  | other name inside => exact name.identifier
  | _ =>
    simp only [Clause.callName]
    decide

theorem Clause.silent_inside (clause : Clause) : Silent clause.inside := by
  refine Silent.join fun t ht => ?_
  cases clause with
  | collection name =>
    rw [List.mem_singleton.1 ht]
    exact name.silent name.item.silent
  | limit count =>
    rw [List.mem_singleton.1 ht]
    refine count.silent (Silent.of_not_mem fun hpoint => ?_)
    exact absurd (Decimal.isDigit_of_mem_ofNat hpoint) (by decide)
  | select fields _ =>
    obtain ⟨field, -, rfl⟩ := List.mem_map.1 ht
    exact field.silent field.item.silent
  | condition field operator value =>
    simp only [Clause.arguments, List.mem_cons, List.not_mem_nil, or_false] at ht
    rcases ht with rfl | rfl | rfl
    · exact field.silent field.item.silent
    · exact operator.silent operator.item.silent
    · exact value.silent value.item.spells.silent
  | ordering field direction =>
    cases direction with
    | none =>
      rw [List.mem_singleton.1 ht]
      exact field.silent field.item.silent
    | some direction =>
      simp only [Clause.arguments, List.mem_cons, List.not_mem_nil, or_false] at ht
      rcases ht with rfl | rfl
      · exact field.silent field.item.silent
      · exact direction.silent direction.item.silent
  | other name inside =>
    rw [List.mem_singleton.1 ht]
    exact inside.silent

theorem silent_of_identifier {name : Text} (h : ∀ c ∈ name, Text.isIdentChar c = true) :
    Silent name :=
  Silent.of_not_mem fun hpoint => absurd (h _ hpoint) (by decide)

/-- A search that reads every call off its opening reads a chain call by call. -/
theorem allPlaces_spellChain {α : Type} {opens : Text → Option Text} (hopens : OpensCalls opens)
    {next : Text → Option α} {reading : Clause → Option α}
    (hreading : ∀ (clause : Clause) (gap : Blanks) (rest : Text),
      (opens (callText (clause.callName ++ gap.text)
        (clause.inside ++ CodePoint.char ')' :: rest))).bind next = reading clause)
    {receiver : Text} (hreceiver : CodePoint.char '.' ∉ receiver) (calls : List Call) :
    allPlaces (fun t => (opens t).bind next) (receiver ++ spellChain calls) =
      calls.filterMap fun call => reading call.clause := by
  have hfinds := hopens.findsCalls.bind next
  rw [Silent.of_not_mem hreceiver hfinds]
  refine allPlaces_chain hfinds (fun call => call.front ++ CodePoint.char '(' ::
    (call.clause.inside ++ CodePoint.char ')' :: call.behind.text)) ?_ _ ?_ calls
  · intro call
    have hname := silent_of_identifier call.clause.isIdentChar_callName
    have hend := Silent.cons (c := CodePoint.char ')') (by decide) call.behind.silent
    exact (hname.append call.gap.silent).append
      (Silent.cons (by decide) (call.clause.silent_inside.append hend))
  · intro call rest
    rw [← hreading call.clause call.gap (call.behind.text ++ rest)]
    unfold callText Call.front
    simp only [List.append_assoc, List.cons_append]

/-- A search for a name reads the calls of that name. -/
theorem allPlaces_open?_spellChain {α : Type} {name : Text}
    (hname : ∀ c ∈ name, Text.isIdentChar c = true) {next : Text → Option α}
    {reading : Clause → Option α}
    (hnext : ∀ clause rest, Clause.callName clause = name →
      next (clause.inside ++ CodePoint.char ')' :: rest) = reading clause)
    (hother : ∀ clause, Clause.callName clause ≠ name → reading clause = none)
    {receiver : Text} (hreceiver : CodePoint.char '.' ∉ receiver) (calls : List Call) :
    allPlaces (fun t => (Call.open? name t).bind next) (receiver ++ spellChain calls) =
      calls.filterMap fun call => reading call.clause := by
  refine allPlaces_spellChain (Call.opensCalls_open? hname) (fun clause gap rest => ?_) hreceiver calls
  rw [Call.open?_callText hname clause.isIdentChar_callName gap.blank]
  by_cases h : clause.callName = name
  · rw [if_pos h]
    exact hnext clause rest h
  · rw [if_neg h, hother clause h]
    rfl

theorem Clause.limit?_bounds {clause : Clause} {n : Nat} (h : clause.limit? = some n) :
    1 ≤ n ∧ n < 10 ^ Decimal.maxDigits := by
  cases clause with
  | limit count =>
    cases h
    exact ⟨count.item.pos, count.item.bounded⟩
  | _ => cases h

/-! ## Arguments -/

theorem skipTo?_of_ne {expected c : CodePoint} (hc : Text.isBlank c = false) (hne : c ≠ expected)
    (b : Blanks) (rest : Text) : Call.skipTo? expected (b.text ++ c :: rest) = none := by
  have hstart : Text.startsInBlank (c :: rest) = false := hc
  unfold Call.skipTo?
  rw [Text.trimStart_append b.blank, Text.trimStart_of_startsInBlank_eq_false hstart]
  dsimp only
  rw [if_neg hne]

/-- The content of a literal ends at its closing quote. -/
theorem span_content (l : Literal) (rest : Text) :
    (l.content ++ l.quote :: rest).takeWhile (· ∉ literalQuotes) = l.content ∧
      (l.content ++ l.quote :: rest).dropWhile (· ∉ literalQuotes) = l.quote :: rest := by
  have hcontent : ∀ c ∈ l.content, c ∉ literalQuotes := fun c hc => by
    have hmark := l.unmarked_content c hc
    simp only [marks, List.mem_cons, not_or] at hmark
    exact by simpa [literalQuotes] using hmark.2
  exact Call.span_unquoted hcontent l.quote_mem rest

/-- A literal is read with its content, up to the blanks behind it. -/
theorem literal?_spell (p : Padded Name) (rest : Text) :
    Call.literal? (p.spell (fun n => n.spell) ++ rest) =
      some (p.item.content, p.back.text ++ rest) := by
  have hstart : Text.startsInBlank (p.item.spell ++ (p.back.text ++ rest)) = false :=
    p.item.isBlank_quote
  obtain ⟨htake, hdrop⟩ := span_content p.item.toLiteral (p.back.text ++ rest)
  unfold Call.literal? Padded.spell
  rw [List.append_assoc, Text.trimStart_append p.front.blank, List.append_assoc,
    Text.trimStart_of_startsInBlank_eq_false hstart]
  unfold Literal.spell
  rw [List.cons_append]
  dsimp only
  rw [if_pos p.item.quote_mem, List.append_assoc, List.singleton_append, htake, hdrop]
  cases hcontent : p.item.content with
  | nil => exact absurd hcontent p.item.nonempty
  | cons c content => rfl

/-- Where a parenthesis closes at once no literal is read. -/
theorem literal?_blanks (b : Blanks) (rest : Text) :
    Call.literal? (b.text ++ CodePoint.char ')' :: rest) = none := by
  have hstart : Text.startsInBlank (CodePoint.char ')' :: rest) = false := rfl
  unfold Call.literal?
  rw [Text.trimStart_append b.blank, Text.trimStart_of_startsInBlank_eq_false hstart]
  rfl

theorem Padded.isName (p : Padded Name) : IsArgument (p.spell fun n => n.spell) p.item.spell :=
  p.isArgument p.item.whole p.item.tight p.item.ne_nil

theorem Padded.isOperand (p : Padded SpelledValue) :
    IsArgument (p.spell SpelledValue.text) p.item.text :=
  p.isArgument p.item.spells.whole p.item.spells.tight p.item.spells.ne_nil

/-- The inside of a name is its content. -/
theorem Name.nonempty_content (n : Name) :
    (literalContent? literalQuotes n.spell).bind Query.nonempty? = some n.content := by
  rw [n.literalContent?_spell]
  cases hcontent : n.content with
  | nil => exact absurd hcontent n.nonempty
  | cons c content => rw [Option.bind_some, Query.nonempty?]; simp

end Spelling

namespace Query

/-! ## What the searches read off a call -/

/-- The name between the parentheses of a call `.collection`. -/
def collectionIn? (text : Text) : Option Text := do
  let (name, rest) ← Call.literal? text
  let _ ← Call.skipTo? ')' rest
  return name

theorem collectionIn?_inside (clause : Clause) (rest : Text) (h : clause.callName = "collection") :
    collectionIn? (clause.inside ++ CodePoint.char ')' :: rest) = clause.collection? := by
  cases clause with
  | collection name =>
    unfold collectionIn? Clause.inside Clause.arguments
    rw [Text.join, literal?_spell, Option.bind_eq_bind, Option.bind_some]
    dsimp only
    rw [Call.skipTo?_blanks rfl name.back.blank]
    rfl
  | other name inside =>
    unfold collectionIn? Clause.inside Clause.arguments
    rw [Text.join, literal?_blanks]
    rfl
  | _ => exact absurd h (by simp only [Clause.callName]; decide)

/-- The digits between the parentheses of a call `.limit`. -/
def limitIn? (text : Text) : Option Text := do
  let arguments := Text.trimStart text
  let digits := arguments.takeWhile Text.isDecimal
  let _ ← Call.skipTo? ')' (arguments.dropWhile Text.isDecimal)
  if digits = [] then none else return digits

theorem limitIn?_inside (clause : Clause) (rest : Text) (h : clause.callName = "limit") :
    limitIn? (clause.inside ++ CodePoint.char ')' :: rest) = clause.limit?.map Decimal.ofNat := by
  cases clause with
  | limit count =>
    have hdigits : ∀ c ∈ Decimal.ofNat count.item.number, Text.isDecimal c = true :=
      fun _ hc => Decimal.isDecimal_of_mem_ofNat hc
    obtain ⟨htake, hdrop⟩ := Text.span_digits hdigits count.back.blank rest
    unfold limitIn? Clause.inside Clause.arguments Padded.spell
    rw [Text.join, List.append_assoc, Text.trimStart_append count.front.blank, List.append_assoc,
      Text.trimStart_digits hdigits (Decimal.ofNat_ne_nil _)]
    dsimp only
    rw [htake, hdrop, Call.skipTo?_blanks rfl count.back.blank]
    exact if_neg (Decimal.ofNat_ne_nil _)
  | other name inside =>
    have hstart : Text.startsInBlank (CodePoint.char ')' :: rest) = false := rfl
    unfold limitIn? Clause.inside Clause.arguments
    rw [Text.join, Text.trimStart_append inside.blank, Text.trimStart_of_startsInBlank_eq_false hstart]
    rfl
  | _ => exact absurd h (by simp only [Clause.callName]; decide)

theorem filterMap_names (fields : List (Padded Name)) :
    (fields.map fun f => f.item.spell).filterMap
        (fun a => (literalContent? literalQuotes a).bind nonempty?) =
      fields.map fun f => f.item.content := by
  rw [List.filterMap_map, ← List.filterMap_eq_map]
  refine List.filterMap_congr fun f _ => ?_
  exact f.item.nonempty_content

theorem selectIn?_inside (clause : Clause) (rest : Text) (h : clause.callName = "select") :
    selectIn? (clause.inside ++ CodePoint.char ')' :: rest) = clause.select? := by
  cases clause with
  | select fields hne =>
    have hfields : List.Forall₂ IsArgument (fields.map (Padded.spell fun n => n.spell))
        (fields.map fun f => f.item.spell) := forall₂_map fun f _ => f.isName
    have hnonempty : fields.map (Padded.spell fun n => n.spell) ≠ [] := by simpa using hne
    unfold selectIn? fieldsOf Clause.inside Clause.arguments
    rw [(callArguments_join_closed hfields hnonempty rest).1, filterMap_names]
    rfl
  | other name inside => exact absurd h name.ne_select
  | _ => exact absurd h (by simp only [Clause.callName]; decide)

theorem nonempty?_eq_some {text : Text} (h : text ≠ []) : nonempty? text = some text := by
  cases text with
  | nil => exact absurd rfl h
  | cons c rest => rfl

theorem conditionAt?_inside (clause : Clause) (rest : Text) (h : clause.callName = "where") :
    conditionAt? (clause.inside ++ CodePoint.char ')' :: rest) =
      clause.condition?.map Except.ok := by
  cases clause with
  | condition field operator value =>
    obtain ⟨harguments, hclosed⟩ := callArguments_join_closed
      (.cons field.isName (.cons operator.isName (.cons value.isOperand .nil)))
      (List.cons_ne_nil _ _) rest
    unfold conditionAt? conditionFrom? Clause.inside Clause.arguments
    rw [harguments, hclosed]
    dsimp only
    rw [field.item.nonempty_content, operator.item.nonempty_content,
      nonempty?_eq_some value.item.spells.ne_nil]
    dsimp only [bind, Option.bind]
    rw [value.item.spells.parse]
    rfl
  | other name inside =>
    unfold conditionAt? conditionFrom? Clause.inside Clause.arguments
    rw [Text.join, callArguments_blanks_closed inside.blank]
    split
    · rename_i heq
      cases heq
    · rfl
  | _ => exact absurd h (by simp only [Clause.callName]; decide)

/-! ## Orderings -/

theorem isLetter_of_toLower {letter c : CodePoint} (h : c.toLower = letter) :
    isLetter letter c = true := by
  simp [isLetter, h]

theorem word?_append {found word : Text} (h : found.map CodePoint.toLower = word) (rest : Text) :
    word? word (found ++ rest) = some (found, rest) := by
  induction found generalizing word with
  | nil =>
    cases h
    rfl
  | cons c found ih =>
    cases h
    rw [List.map_cons, List.cons_append, word?, if_pos (isLetter_of_toLower rfl), ih rfl]
    rfl

/-- A direction is read as it is written, up to its closing quote. -/
theorem direction?_content (d : Direction) (rest : Text) :
    direction? (d.content ++ rest) = some (d.content, rest) := by
  unfold direction?
  rcases d.word with h | h
  · rw [word?_append h]
    rfl
  · rw [word?_append h]
    cases hcontent : d.content with
    | nil =>
      rw [hcontent] at h
      cases h
    | cons c content =>
      rw [hcontent, List.map_cons] at h
      have hc : c.toLower = 'd' := (List.cons.inj h).1
      have hletter : isLetter 'a' c = false := by
        unfold isLetter
        rw [hc]
        rfl
      have hasc : word? "asc" (c :: content ++ rest) = none := by
        change word? ('a' :: "sc") (c :: (content ++ rest)) = none
        rw [word?, if_neg (by simp [hletter])]
      rw [hasc]
      rfl

theorem lower_content (d : Direction) :
    Text.lower d.content = d.content.map CodePoint.toLower := by
  refine Text.lower_of_isAscii (List.all_eq_true.2 fun c hc => ?_)
  have hmem : c.toLower ∈ d.content.map CodePoint.toLower := List.mem_map_of_mem hc
  have hlower : Text.isAscii c.toLower = true := by
    have hasc : ∀ letter ∈ ("asc" : Text), Text.isAscii letter = true := by decide
    have hdesc : ∀ letter ∈ ("desc" : Text), Text.isAscii letter = true := by decide
    rcases d.word with h | h
    · exact hasc _ (h ▸ hmem)
    · exact hdesc _ (h ▸ hmem)
  unfold Text.isAscii at hlower ⊢
  rw [decide_eq_true_eq] at hlower ⊢
  rcases toLower_eq c with heq | ⟨-, hhi, -⟩
  · rwa [heq] at hlower
  · omega

/-- Without a second argument there is no direction. -/
theorem directionArgument_blanks (b : Blanks) (rest : Text) :
    directionArgument (b.text ++ CodePoint.char ')' :: rest) =
      (none, b.text ++ CodePoint.char ')' :: rest) := by
  unfold directionArgument
  rw [skipTo?_of_ne (by decide) (by decide)]
  rfl

theorem skipQuote_of_mem {c : CodePoint} (h : c ∈ literalQuotes) (rest : Text) :
    skipQuote (c :: rest) = rest := if_pos h

/-- The second argument is read with its quotes left out. -/
theorem directionArgument_spell (b : Blanks) (d : Padded Direction) (rest : Text) :
    directionArgument (b.text ++ CodePoint.char ',' :: (d.spell (fun n => n.spell) ++ rest)) =
      (some d.item.content, d.back.text ++ rest) := by
  have hstart (behind : Text) : Text.startsInBlank (d.item.quote :: behind) = false :=
    d.item.isBlank_quote
  have hspell : d.spell (fun n => n.spell) ++ rest = d.front.text ++
      (d.item.quote :: (d.item.content ++ d.item.quote :: (d.back.text ++ rest))) := by
    simp only [Padded.spell, Literal.spell, List.append_assoc, List.cons_append, List.nil_append]
  unfold directionArgument
  rw [Call.skipTo?_blanks rfl b.blank, hspell]
  dsimp only [bind, Option.bind]
  rw [Text.trimStart_append d.front.blank, Text.trimStart_of_startsInBlank_eq_false (hstart _),
    skipQuote_of_mem d.item.quote_mem, direction?_content]
  dsimp only
  rw [skipQuote_of_mem d.item.quote_mem]
  rfl

theorem orderingIn?_inside (field : Padded Name) (direction : Option (Padded Direction)) (rest : Text) :
    orderingIn? ((Clause.ordering field direction).inside ++ CodePoint.char ')' :: rest) =
      (Clause.ordering field direction).ordering? := by
  cases direction with
  | none =>
    unfold orderingIn? Clause.inside Clause.arguments
    rw [Text.join, literal?_spell]
    dsimp only [bind, Option.bind]
    rw [directionArgument_blanks]
    dsimp only
    rw [Call.skipTo?_blanks rfl field.back.blank]
    rfl
  | some direction =>
    unfold orderingIn? Clause.inside Clause.arguments
    rw [Text.join, Text.join, List.append_assoc, List.append_assoc, literal?_spell]
    dsimp only [bind, Option.bind]
    rw [List.singleton_append, directionArgument_spell]
    dsimp only
    rw [Call.skipTo?_blanks rfl direction.back.blank, Option.getD_some, lower_content]
    rfl

/-- The search for an ordering reads the calls `.orderBy` with arguments, and no others. -/
theorem orderingOpening?_bind (clause : Clause) (gap : Blanks) (rest : Text) :
    (orderingOpening? (callText (clause.callName ++ gap.text)
      (clause.inside ++ CodePoint.char ')' :: rest))).bind orderingIn? = clause.ordering? := by
  cases clause with
  | ordering field direction =>
    rw [Clause.callName, orderingOpening?_callText gap.blank, Option.bind_some]
    exact orderingIn?_inside field direction rest
  | other name inside =>
    cases hopens : orderingOpening? (callText ((Clause.other name inside).callName ++ gap.text)
        ((Clause.other name inside).inside ++ CodePoint.char ')' :: rest)) with
    | none => rfl
    | some arguments =>
      rw [opensCalls_orderingOpening?.eq_of_call
        (unmarked_of_name (Clause.isIdentChar_callName _) gap.blank) hopens, Option.bind_some]
      unfold orderingIn? Clause.inside Clause.arguments
      rw [Text.join, literal?_blanks]
      rfl
  | _ => rfl

end Query

end FluentQuery
