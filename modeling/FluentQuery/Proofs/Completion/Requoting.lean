/-
  Completion with other quotes. Plain string literals have two kinds of quotes, and the situation at a
  cursor and the edit that accepts a completion treat them alike (`Cursor.situationAt_map`,
  `Edit.apply_map`); the parser treats all three kinds alike. `quotes_interchangeable` puts the three
  together.
-/
import FluentQuery.Completion.Edit
import FluentQuery.Proofs.Query.Requoting

namespace FluentQuery

variable {s : Equiv.Perm CodePoint}

/-- The enclosing call with its name replaced. -/
def OpenCall.mapTexts (f : Text → Text) (call : OpenCall) : OpenCall := ⟨f call.name, call.argument⟩

/-- The situation with all texts in it replaced. -/
def Situation.mapTexts (f : Text → Text) (situation : Situation) : Situation :=
  { situation with
    trigger := f situation.trigger
    call := situation.call.map (OpenCall.mapTexts f) }

/-- The pattern with the root in it replaced. -/
def Cursor.EndPattern.mapTexts (f : Text → Text) : EndPattern → EndPattern
  | rootedWord root => rootedWord (f root)
  | pattern => pattern

/-- The completion with all texts in it replaced. -/
def Completion.mapTexts (f : Text → Text) (c : Completion) : Completion :=
  { c with
    trigger := f c.trigger
    suggestion := f c.suggestion
    description := f c.description
    fullForm := c.fullForm.map f
    keywords := c.keywords.map f
    replacement := c.replacement.map f }

/-- The edited text replaced, with the cursor where it was. -/
def Edited.mapTexts (f : Text → Text) (edited : Edited) : Edited := ⟨f edited.text, edited.cursor⟩

theorem Completion.insertedText_map (c : Completion) :
    (c.mapTexts (List.map s)).insertedText = c.insertedText.map s := by
  unfold insertedText mapTexts
  cases c.replacement with
  | none => exact List.map_append.symm
  | some text => rfl

theorem clampCursor_map (text : Text) (cursor : Int) :
    Text.clampCursor (text.map s) cursor = Text.clampCursor text cursor := by
  unfold Text.clampCursor
  rw [List.length_map]

/-! ## The situation at a cursor -/

namespace Cursor

theorem before_map (text : Text) (cursor : Int) :
    before (text.map s) cursor = (before text cursor).map s := by
  unfold before
  rw [clampCursor_map, List.map_take]

theorem lastChars_map (count : Int) (text : Text) :
    lastChars count (text.map s) = (lastChars count text).map s := by
  unfold lastChars
  rw [List.length_map, List.map_drop]

theorem findSome?_map_of_forall {α β γ : Type} {f : α → Option β} {f' : α → Option γ} {g : β → γ}
    {items : List α} (h : ∀ a ∈ items, f' a = (f a).map g) :
    items.findSome? f' = (items.findSome? f).map g := by
  induction items with
  | nil => rfl
  | cons a rest ih =>
    rw [List.findSome?_cons, List.findSome?_cons, h a List.mem_cons_self,
      ih fun b hb => h b (List.mem_cons_of_mem a hb)]
    cases f a <;> rfl

theorem any_map_of_forall {α β : Type} {f : α → β} {p' : β → Bool} {p : α → Bool}
    (h : ∀ a, p' (f a) = p a) (found : Option α) : (found.map f).any p' = found.any p := by
  cases found with
  | none => rfl
  | some a => exact h a

section

variable (h : Requotes s literalQuotes)

include h

theorem lineBefore_map (text : Text) (cursor : Int) :
    lineBefore (text.map s) cursor = (lineBefore text cursor).map s := by
  unfold lineBefore
  rw [before_map, Text.lastLine_map h, Text.trimEnd_map h]

/-! ### The searches at the end of the line -/

theorem isPointedWord_map (text : Text) : isPointedWord (text.map s) = isPointedWord text := by
  cases text with
  | nil => rfl
  | cons c word =>
    rw [List.map_cons]
    by_cases hpoint : c = '.'
    · rw [hpoint, h.fixes '.' (by decide)]
      change (word.map s).all Text.isIdentChar = word.all Text.isIdentChar
      rw [List.all_map]
      exact congrArg (word.all ·) (funext (Text.isIdentChar_requoted h))
    · have hpoint' := mt (h.eq_iff (by decide) c).1 hpoint
      simp [isPointedWord, hpoint, hpoint']

namespace EndPattern

theorem fits_map (pattern : EndPattern) (previous : Option CodePoint) (rest : Text) :
    (pattern.mapTexts (List.map s)).fits (previous.map s) (rest.map s) = pattern.fits previous rest := by
  have hident := Text.isIdentChar_requoted h
  cases pattern with
  | scopedWord =>
    change (_ && _ && _) = (_ && _ && _)
    rw [List.head?_map, any_map_of_forall hident, any_map_of_forall hident, dropWhile_map_kind hident,
      isPointedWord_map h]
  | pointedWord => exact isPointedWord_map h rest
  | word =>
    change (_ && _) = (_ && _)
    rw [List.isEmpty_map, List.all_map]
    exact congrArg (!rest.isEmpty && rest.all ·) (funext hident)
  | rootedWord root =>
    change (_ && (Text.after? (root.map s) _).any _) = (_ && _)
    rw [Text.after?_map, any_map_of_forall hident, any_map_of_forall (isPointedWord_map h)]

theorem search?_map (pattern : EndPattern) (previous : Option CodePoint) (text : Text) :
    (pattern.mapTexts (List.map s)).search? (previous.map s) (text.map s) =
      (pattern.search? previous text).map (List.map s) := by
  induction text generalizing previous with
  | nil =>
    have hfits := fits_map h pattern previous []
    rw [List.map_nil] at hfits ⊢
    rw [search?, search?, hfits]
    split <;> rfl
  | cons c text ih =>
    have hfits := fits_map h pattern previous (c :: text)
    rw [List.map_cons] at hfits ⊢
    rw [search?, search?, hfits]
    split
    · rfl
    · exact ih (some c)

theorem find?_map (pattern : EndPattern) (line : Text) :
    (pattern.mapTexts (List.map s)).find? (line.map s) = (pattern.find? line).map (List.map s) :=
  search?_map h pattern none line

end EndPattern

theorem endsAfterDot_map (line : Text) : endsAfterDot (line.map s) = endsAfterDot line :=
  (congrArg Option.isSome (EndPattern.pointedWord.find?_map h line)).trans Option.isSome_map

theorem endsAtRoot_map (root line : Text) : endsAtRoot (root.map s) (line.map s) = endsAtRoot root line :=
  (congrArg Option.isSome ((EndPattern.rootedWord root).find?_map h line)).trans Option.isSome_map

theorem endsAtArgument_map (line : Text) : endsAtArgument (line.map s) = endsAtArgument line := by
  have hkind (c : CodePoint) : (decide (s c = '(') || decide (s c = ',')) =
      (decide (c = '(') || decide (c = ',')) :=
    congrArg₂ or (decide_eq_decide.2 (h.eq_iff (by decide) c)) (decide_eq_decide.2 (h.eq_iff (by decide) c))
  unfold endsAtArgument
  rw [List.getLast?_map, any_map_of_forall hkind]

theorem completedCall?_map (text : Text) : completedCall? (text.map s) =
    (completedCall? text).map fun call => (call.1.map s, call.2.map s) := by
  refine findSome?_map_of_forall fun name hname => ?_
  have hunquoted : ∀ name ∈ completedMethods, ∀ c ∈ name, c ∉ literalQuotes := by decide
  rw [Call.open?_map h (hunquoted name hname)]
  cases Call.open? name text with
  | none => rfl
  | some inside =>
    have hfixed := h.map_eq_self (hunquoted name hname)
    exact congrArg (fun n => some (n, inside.map s)) hfixed.symm

theorem openArgument?_map (name rest : Text) : openArgument? (name.map s) (rest.map s) =
    (openArgument? name rest).map (OpenCall.mapTexts (List.map s)) := by
  unfold openArgument?
  rw [isClosed_callArguments_map h, countCommas_map h]
  split <;> rfl

/-- The enclosing call is the same one, and the cursor is in the same argument. -/
theorem openCall?_map (text : Text) :
    openCall? (text.map s) = (openCall? text).map (OpenCall.mapTexts (List.map s)) := by
  unfold openCall?
  rw [allPlaces_map (completedCall?_map h), ← List.map_reverse, List.findSome?_map]
  exact findSome?_map_of_forall fun call _ => openArgument?_map h call.1 call.2

end

section

variable (h : Requotes s stringQuotes)

include h

/-- The token that is being typed. -/
theorem lineTrigger_map (line : Text) : lineTrigger (line.map s) = (lineTrigger line).map s := by
  have hall := h.toLiteralQuotes
  unfold lineTrigger
  rw [openLiteral_map hall h.mem_iff]
  cases openLiteral stringQuotes line with
  | some literal => exact congrArg (s literal.quote :: ·) List.map_drop.symm
  | none =>
    dsimp only [Option.map_none]
    rw [endsAtArgument_map hall]
    split
    · rfl
    · have hfixed : ∀ pattern ∈ tokenPatterns, pattern.mapTexts (List.map s) = pattern := by
        simp [tokenPatterns, EndPattern.mapTexts]
      have hfound : tokenPatterns.findSome? (·.find? (line.map s)) =
          (tokenPatterns.findSome? (·.find? line)).map (List.map s) :=
        findSome?_map_of_forall fun pattern hpattern => by
          rw [← pattern.find?_map hall, hfixed pattern hpattern]
      rw [hfound]
      exact Option.getD_map (List.map s) [] _

theorem trigger_map (text : Text) (cursor : Int) :
    trigger (text.map s) cursor = (trigger text cursor).map s := by
  unfold trigger
  rw [lineBefore_map h.toLiteralQuotes, lineTrigger_map h]

theorem situationWith_map (root : Text) (window : Int) (text : Text) (cursor : Int) (trigger : Text) :
    situationWith (root.map s) window (text.map s) cursor (trigger.map s) =
      (situationWith root window text cursor trigger).mapTexts (List.map s) := by
  have hall := h.toLiteralQuotes
  unfold situationWith
  dsimp only
  rw [lineBefore_map hall, Text.isAllBlank_map hall, openLiteral_map hall h.mem_iff, Option.isSome_map,
    endsAfterDot_map hall, endsAtRoot_map hall, before_map, lastChars_map, openCall?_map hall]
  rfl

/-- The situation in the text with its quotes exchanged. -/
theorem situationAt_map (root : Text) (window : Int) (text : Text) (cursor : Int) :
    situationAt (root.map s) window (text.map s) cursor =
      (situationAt root window text cursor).mapTexts (List.map s) := by
  unfold situationAt
  dsimp only
  rw [clampCursor_map, trigger_map h, situationWith_map h]

end

end Cursor

/-! ## Accepting a completion -/

namespace Edit

theorem splice_map (text : Text) (cursor : Int) (inserted : Text) (offset : Int) (trigger : Text) :
    splice (text.map s) cursor (inserted.map s) offset (trigger.map s) =
      (splice text cursor inserted offset trigger).mapTexts (List.map s) := by
  unfold splice
  simp only [List.length_map, ← List.map_take, ← List.map_drop, ← List.map_append]
  split <;> rfl

section

variable (h : Requotes s stringQuotes)

include h

theorem quoteOf?_map (trigger : Text) : quoteOf? (trigger.map s) = (quoteOf? trigger).map s := by
  cases trigger with
  | nil => rfl
  | cons c rest =>
    rw [List.map_cons]
    unfold quoteOf?
    simp only [h.mem_iff]
    split <;> rfl

theorem insideQuotes?_map (text : Text) (cursor : Int) (quote : CodePoint) (inserted : Text) :
    insideQuotes? (text.map s) cursor (s quote) (inserted.map s) =
      (insideQuotes? text cursor quote inserted).map (Edited.mapTexts (List.map s)) := by
  have hall := h.toLiteralQuotes
  unfold insideQuotes?
  split
  · rfl
  · dsimp only
    rw [← List.map_take, ← List.map_drop, lastUnescaped_map hall, escapedAt_map hall,
      firstUnescaped_map hall, withoutQuotes_map h.mem_iff]
    cases lastUnescaped quote false (text.take cursor.toNat) with
    | none => rfl
    | some start =>
      cases firstUnescaped quote (escapedAt text cursor.toNat) (text.drop cursor.toNat) with
      | none => rfl
      | some closing =>
        simp only [Option.bind_eq_bind, Option.bind_some, Option.pure_def, Option.map_some,
          List.length_map, ← List.map_take, ← List.map_drop, ← List.map_append]
        rfl

/-- Accepting the completion with its quotes exchanged, in the text with its quotes exchanged. -/
theorem apply_map (text : Text) (cursor : Int) (c : Completion) (trigger : Text) :
    apply (text.map s) cursor (c.mapTexts (List.map s)) (trigger.map s) =
      (apply text cursor c trigger).mapTexts (List.map s) := by
  unfold apply
  dsimp only
  rw [c.insertedText_map, quoteOf?_map h]
  cases quoteOf? trigger with
  | none => exact splice_map text cursor c.insertedText c.cursorOffset trigger
  | some quote =>
    rw [Option.map_some, Option.bind_some, Option.bind_some, insideQuotes?_map h]
    cases insideQuotes? text cursor quote c.insertedText with
    | none => exact splice_map text cursor c.insertedText c.cursorOffset trigger
    | some edited => rfl

end

end Edit

/-- Quotes of different kinds are interchangeable. For every permutation of the three quotes the parameters
of an expression are permuted with it, and so is whether it is refused; and where the two quotes of plain
string literals change places, so they do in the situation at a cursor and in the text that accepting a
completion leads to, and the cursor stays where it is. -/
theorem quotes_interchangeable :
    (∀ s : Equiv.Perm CodePoint, Requotes s literalQuotes → ∀ (text collection : Text) (limit : Int),
      Query.parse (text.map s) (collection.map s) limit =
        QueryParameters.mapTexts (List.map s) <$> Query.parse text collection limit) ∧
      let swap := List.map (Equiv.swap Text.singleQuote Text.doubleQuote)
      (∀ (root : Text) (window : Int) (text : Text) (cursor : Int),
        Cursor.situationAt (swap root) window (swap text) cursor =
          (Cursor.situationAt root window text cursor).mapTexts swap) ∧
      ∀ (text : Text) (cursor : Int) (c : Completion) (trigger : Text),
        Edit.apply (swap text) cursor (c.mapTexts swap) (swap trigger) =
          (Edit.apply text cursor c trigger).mapTexts swap := by
  have hswap : Requotes (Equiv.swap Text.singleQuote Text.doubleQuote) stringQuotes :=
    Requotes.swap (by decide) (by decide)
  exact ⟨fun _ h => Query.parse_map h, Cursor.situationAt_map hswap, Edit.apply_map hswap⟩

/-- The three quotes in a circle: the single quote becomes a double one, the double one a backtick. What
was an apostrophe in the name of a field is a double quote in it. -/
theorem quotes_interchangeable_circle :
    let circle := Equiv.swap Text.singleQuote Text.doubleQuote * Equiv.swap Text.doubleQuote Text.backtick
    Requotes circle literalQuotes ∧
      Query.parse ("db.collection('users').select(\"it's\")" : String) [] 50 =
        .ok ⟨("users" : String), .int 50, [Text.ofChars "it's".toList], [], none⟩ ∧
      Query.parse ("db.collection(\"users\").select(`it\"s`)" : String) [] 50 =
        .ok ⟨("users" : String), .int 50, [Text.ofChars "it\"s".toList], [], none⟩ := by
  intro circle
  have hcircle : Requotes circle literalQuotes :=
    (Requotes.swap (by decide) (by decide)).mul (Requotes.swap (by decide) (by decide))
  have hparse : Query.parse ("db.collection('users').select(\"it's\")" : String) [] 50 =
      .ok ⟨("users" : String), .int 50, [Text.ofChars "it's".toList], [], none⟩ := rfl
  have htext : (("db.collection('users').select(\"it's\")" : String) : Text).map circle =
      ("db.collection(\"users\").select(`it\"s`)" : String) := by decide
  have hfield : (("it's" : String) : Text).map circle = ("it\"s" : String) := by decide
  have hcollection : (("users" : String) : Text).map circle = ("users" : String) := by decide
  have hparams := quotes_interchangeable.1 circle hcircle
    ("db.collection('users').select(\"it's\")" : String) [] 50
  rw [htext, hparse] at hparams
  refine ⟨hcircle, hparse, hparams.trans ?_⟩
  change Except.ok (⟨(("users" : String) : Text).map circle, .int 50,
    [(("it's" : String) : Text).map circle], [], none⟩ : QueryParameters) = _
  rw [hfield, hcollection]

end FluentQuery
