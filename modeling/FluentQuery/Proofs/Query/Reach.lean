/-
  How far the parser looks. A reader takes a start of a text and does not look at what follows
  (`Reader.Cuts`); the searches for a collection, a limit and an ordering are made of such readers, and so
  each is decided by a text with at most four quotes (`ReadsWithin`).
-/
import FluentQuery.Proofs.Chain.Readings
import FluentQuery.Proofs.Expression.Extent
import FluentQuery.Proofs.Query.Clauses

namespace FluentQuery

/-- How many quotes stand in a text. -/
def quotesIn (text : Text) : Nat := text.countP (· ∈ literalQuotes)

theorem quotesIn_append (a b : Text) : quotesIn (a ++ b) = quotesIn a + quotesIn b :=
  List.countP_append

theorem quotesIn_cons_of_mem {c : CodePoint} (h : c ∈ literalQuotes) (text : Text) :
    quotesIn (c :: text) = quotesIn text + 1 :=
  List.countP_cons_of_pos (by simpa using h)

theorem quotesIn_cons_of_not_mem {c : CodePoint} (h : c ∉ literalQuotes) (text : Text) :
    quotesIn (c :: text) = quotesIn text :=
  List.countP_cons_of_neg (by simpa using h)

theorem quotesIn_eq_zero {text : Text} (h : ∀ c ∈ text, c ∉ literalQuotes) : quotesIn text = 0 :=
  List.countP_eq_zero.2 (by simpa using h)

theorem quotesIn_of_unmarked {text : Text} (h : Unmarked text) : quotesIn text = 0 :=
  quotesIn_eq_zero fun c hc hquote => h c hc (List.mem_cons_of_mem _ hquote)

/-- The quotes of a call stand behind its opening parenthesis. -/
theorem quotesIn_callText {front : Text} (h : Unmarked front) (inside : Text) :
    quotesIn (callText front inside) = quotesIn inside := by
  unfold callText
  rw [quotesIn_cons_of_not_mem (by decide), quotesIn_append, quotesIn_of_unmarked h,
    quotesIn_cons_of_not_mem (by decide), Nat.zero_add]

/-! ## Readers -/

/-- Reads a start of a text: what it stands for, and what is left of the text. -/
def Reader (α : Type) : Type := Text → Option (α × Text)

namespace Reader

variable {α β : Type} {m n : Nat}

/-- Passes over a start of a text. -/
def skipping (skip : Text → Option Text) : Reader Unit := fun text => (skip text).map ((), ·)

/-- Reads on behind what was read. -/
def andThen (read : Reader α) (next : α → Reader β) : Reader β := fun text =>
  (read text).bind fun found => next found.1 found.2

def map (f : α → β) (read : Reader α) : Reader β := fun text =>
  (read text).map fun found => (f found.1, found.2)

/-- Reads in one way or else in another. -/
def orElse (read other : Reader α) : Reader α := fun text => (read text).or (other text)

/-- The reader takes a start of the text with at most so many quotes, and what follows does not
matter. -/
def Cuts (read : Reader α) (quotes : Nat) : Prop :=
  ∀ ⦃text a rest⦄, read text = some (a, rest) → ∃ seen, seen ≠ [] ∧ text = seen ++ rest ∧
    quotesIn seen ≤ quotes ∧ ∀ other, read (seen ++ other) = some (a, other)

namespace Cuts

variable {read other : Reader α}

theorem andThen {next : α → Reader β} (h : Cuts read m) (hnext : ∀ a, Cuts (next a) n) :
    Cuts (read.andThen next) (m + n) := by
  intro text b rest hread
  obtain ⟨⟨a, behind⟩, ha, hb⟩ := Option.bind_eq_some_iff.1 hread
  obtain ⟨seen, hne, rfl, hquotes, hseen⟩ := h ha
  obtain ⟨seen', -, rfl, hquotes', hseen'⟩ := hnext a hb
  refine ⟨seen ++ seen', by simp [hne], (List.append_assoc _ _ _).symm, ?_, ?_⟩
  · rw [quotesIn_append]
    omega
  · intro other
    unfold Reader.andThen
    rw [List.append_assoc, hseen, Option.bind_some, hseen']

theorem mono (h : Cuts read m) (hle : m ≤ n) : Cuts read n := by
  intro text a rest hread
  obtain ⟨seen, hne, htext, hquotes, hseen⟩ := h hread
  exact ⟨seen, hne, htext, Nat.le_trans hquotes hle, hseen⟩

theorem map (f : α → β) (h : Cuts read n) : Cuts (read.map f) n := by
  intro text b rest hread
  obtain ⟨⟨a, behind⟩, ha, hb⟩ := Option.map_eq_some_iff.1 hread
  cases hb
  obtain ⟨seen, hne, rfl, hquotes, hseen⟩ := h ha
  refine ⟨seen, hne, rfl, hquotes, fun other => ?_⟩
  unfold Reader.map
  rw [hseen]
  rfl

/-- Two ways to read, where a text can be read in one of them only. -/
theorem orElse (h : Cuts read n) (hother : Cuts other n)
    (hone : ∀ text, (other text).isSome = true → read text = none) : Cuts (read.orElse other) n := by
  intro text a rest hread
  rcases Option.or_eq_some_iff.1 hread with ha | ⟨-, ha⟩
  · obtain ⟨seen, hne, rfl, hquotes, hseen⟩ := h ha
    refine ⟨seen, hne, rfl, hquotes, fun other => ?_⟩
    unfold Reader.orElse
    rw [hseen]
    rfl
  · obtain ⟨seen, hne, rfl, hquotes, hseen⟩ := hother ha
    refine ⟨seen, hne, rfl, hquotes, fun behind => ?_⟩
    unfold Reader.orElse
    rw [hone _ (by rw [hseen]; rfl), hseen]
    rfl

end Cuts

/-- Something is left out at the start of a text, with at most so many quotes, and the first character
behind it decides how much. -/
def Peeks (skip : Text → Text) (quotes : Nat) : Prop :=
  ∀ ⦃text seen rest⦄, skip text = seen ++ rest → seen ≠ [] → ∃ front, text = front ++ seen ++ rest ∧
    quotesIn front ≤ quotes ∧ ∀ other, skip (front ++ seen ++ other) = seen ++ other

theorem Cuts.behind {read : Reader α} {skip : Text → Text} (hread : Cuts read n) (hskip : Peeks skip m) :
    Cuts (fun text => read (skip text)) (m + n) := by
  intro text a rest h
  obtain ⟨seen, hne, htext, hquotes, hseen⟩ := hread h
  obtain ⟨front, rfl, hquotes', hfront⟩ := hskip htext hne
  refine ⟨front ++ seen, by simp [hne], rfl, ?_, ?_⟩
  · rw [quotesIn_append]
    omega
  · intro other
    dsimp only
    rw [hfront, hseen]

end Reader

open Reader

/-! ## The readers of the parser -/

theorem quotesIn_of_allBlank {blanks : Text} (h : AllBlank blanks) : quotesIn blanks = 0 :=
  quotesIn_of_unmarked (unmarked_of_blanks h)

theorem peeks_trimStart : Peeks Text.trimStart 0 := by
  intro text seen rest htrim hne
  have hsplit : text.takeWhile Text.isBlank ++ Text.trimStart text = text :=
    List.takeWhile_append_dropWhile
  have hblank : AllBlank (text.takeWhile Text.isBlank) := List.all_takeWhile
  have hstart : Text.startsInBlank (Text.trimStart text) = false := Text.startsInBlank_dropWhile text
  rw [htrim] at hsplit hstart
  refine ⟨text.takeWhile Text.isBlank, ?_, ?_, ?_⟩
  · rw [List.append_assoc, hsplit]
  · rw [quotesIn_of_allBlank hblank]
  · intro other
    have hother : Text.startsInBlank (seen ++ other) = false := by
      cases seen with
      | nil => exact absurd rfl hne
      | cons c seen => exact hstart
    rw [List.append_assoc, Text.trimStart_append hblank,
      Text.trimStart_of_startsInBlank_eq_false hother]

namespace Call

theorem cuts_open? {name : Text} (hname : ∀ c ∈ name, Text.isIdentChar c = true) :
    Cuts (skipping (open? name)) 0 := by
  intro text a rest h
  obtain ⟨inside, hopen, heq⟩ := Option.map_eq_some_iff.1 h
  cases heq
  obtain ⟨blanks, hblank, rfl⟩ := (open?_eq_some_iff hname).1 hopen
  have hunmarked := unmarked_of_name hname hblank
  refine ⟨callText (name ++ blanks) [], List.cons_ne_nil _ _, ?_, ?_, ?_⟩
  · rw [← callText_append, List.nil_append]
  · rw [quotesIn_callText hunmarked]
    decide
  · intro other
    unfold skipping
    rw [← callText_append, List.nil_append, (open?_eq_some_iff hname).2 ⟨blanks, hblank, rfl⟩]
    rfl

theorem cuts_skipTo? {expected : CodePoint} (hblank : Text.isBlank expected = false)
    (hquote : expected ∉ literalQuotes) : Cuts (skipping (skipTo? expected)) 0 := by
  intro text a rest h
  obtain ⟨behind, hskip, heq⟩ := Option.map_eq_some_iff.1 h
  cases heq
  obtain ⟨blanks, hblanks, rfl⟩ := (skipTo?_eq_some_iff hblank).1 hskip
  refine ⟨blanks ++ [expected], by simp, by simp, ?_, ?_⟩
  · rw [quotesIn_append, quotesIn_of_allBlank hblanks, quotesIn_eq_zero (by simpa using hquote)]
  · intro other
    unfold skipping
    rw [List.append_assoc, List.singleton_append,
      (skipTo?_eq_some_iff hblank).2 ⟨blanks, hblanks, rfl⟩]
    rfl

theorem cuts_literal? : Cuts literal? 2 := by
  intro text content rest h
  obtain ⟨blanks, opening, closing, hblank, hopening, hclosing, hne, hcontent, rfl⟩ :=
    literal?_eq_some_iff.1 h
  refine ⟨blanks ++ opening :: (content ++ [closing]), by simp, by simp, ?_, ?_⟩
  · rw [quotesIn_append, quotesIn_of_allBlank hblank, quotesIn_cons_of_mem hopening, quotesIn_append,
      quotesIn_eq_zero hcontent, quotesIn_cons_of_mem hclosing]
    decide
  · intro other
    refine literal?_eq_some_iff.2
      ⟨blanks, opening, closing, hblank, hopening, hclosing, hne, hcontent, ?_⟩
    simp

end Call

namespace Query

/-- The digits and the parenthesis behind them. -/
def closedDigits : Reader Text := fun text =>
  (Call.skipTo? ')' (text.dropWhile Text.isDecimal)).bind fun rest =>
    if text.takeWhile Text.isDecimal = [] then none else some (text.takeWhile Text.isDecimal, rest)

/-- Digits, and blanks between them and the parenthesis. -/
theorem closedDigits_eq_some_iff {text digits rest : Text} :
    closedDigits text = some (digits, rest) ↔ digits ≠ [] ∧
      (∀ c ∈ digits, Text.isDecimal c = true) ∧
      ∃ blanks, AllBlank blanks ∧ text = digits ++ (blanks ++ CodePoint.char ')' :: rest) := by
  constructor
  · intro h
    obtain ⟨behind, hskip, hdigits⟩ := Option.bind_eq_some_iff.1 h
    split at hdigits
    · cases hdigits
    · rename_i hne
      cases hdigits
      obtain ⟨blanks, hblank, hdrop⟩ := (Call.skipTo?_eq_some_iff rfl).1 hskip
      refine ⟨hne, List.all_eq_true.1 List.all_takeWhile, blanks, hblank, ?_⟩
      rw [← hdrop, List.takeWhile_append_dropWhile]
  · rintro ⟨hne, hdigits, blanks, hblank, rfl⟩
    obtain ⟨htake, hdrop⟩ := Text.span_digits hdigits hblank rest
    unfold closedDigits
    rw [htake, hdrop, (Call.skipTo?_eq_some_iff rfl).2 ⟨blanks, hblank, rfl⟩, Option.bind_some,
      if_neg hne]

theorem cuts_closedDigits : Cuts closedDigits 0 := by
  intro text digits rest h
  obtain ⟨hne, hdigits, blanks, hblank, rfl⟩ := closedDigits_eq_some_iff.1 h
  refine ⟨digits ++ (blanks ++ [CodePoint.char ')']), by simp, by simp, ?_, fun other => ?_⟩
  · have hunmarked : Unmarked digits := Unmarked.of_kind (by decide) hdigits
    rw [quotesIn_append, quotesIn_append, quotesIn_of_unmarked hunmarked, quotesIn_of_allBlank hblank]
    decide
  · exact closedDigits_eq_some_iff.2 ⟨hne, hdigits, blanks, hblank, by simp⟩

/-- The digits of a limit are read behind blanks. -/
theorem limitIn?_eq (text : Text) : limitIn? text = (closedDigits (Text.trimStart text)).map Prod.fst := by
  unfold limitIn? closedDigits
  dsimp only
  cases Call.skipTo? ')' ((Text.trimStart text).dropWhile Text.isDecimal) with
  | none => rfl
  | some rest =>
    dsimp only [bind, Option.bind]
    split <;> rfl

theorem limitCall?_eq_bind (text : Text) :
    limitCall? text = (Call.open? "limit" text).bind limitIn? := rfl

/-- A word without quotes in it. -/
theorem cuts_word? {word : Text} (hne : word ≠ [])
    (hquotes : ∀ letter ∈ word, ∀ m ∈ marks, isLetter letter m = false) : Cuts (word? word) 0 := by
  have hagain {word text found rest : Text} (h : word? word text = some (found, rest)) (other : Text) :
      word? word (found ++ other) = some (found, other) := by
    induction word generalizing text found with
    | nil =>
      cases h
      rfl
    | cons letter word ih =>
      cases text with
      | nil => cases h
      | cons c text =>
        unfold word? at h
        split at h
        · rename_i hc
          obtain ⟨⟨found', rest'⟩, hword, heq⟩ := Option.map_eq_some_iff.1 h
          cases heq
          rw [List.cons_append, word?, if_pos hc, ih hword]
          rfl
        · cases h
  intro text found rest h
  obtain ⟨htext, hletters⟩ := word?_eq_some h
  refine ⟨found, ?_, htext, ?_, hagain h⟩
  · rintro rfl
    cases hletters
    exact hne rfl
  · rw [quotesIn_of_unmarked (unmarked_of_letters hletters hquotes)]

theorem peeks_skipQuote : Peeks skipQuote 1 := by
  intro text seen rest hskip hne
  cases text with
  | nil => exact absurd (List.append_eq_nil_iff.1 hskip.symm).1 hne
  | cons c text =>
    change (if c ∈ literalQuotes then text else c :: text) = seen ++ rest at hskip
    split at hskip
    · rename_i hc
      refine ⟨[c], by rw [hskip]; rfl, ?_, fun other => if_pos hc⟩
      rw [quotesIn_cons_of_mem hc]
      exact Nat.le_refl 1
    · rename_i hc
      refine ⟨[], hskip, Nat.zero_le 1, fun other => ?_⟩
      cases seen with
      | nil => exact absurd rfl hne
      | cons d seen =>
        obtain ⟨rfl, -⟩ := List.cons.inj hskip
        exact if_neg hc

/-- No text starts with both directions. -/
theorem cuts_direction? : Cuts direction? 0 := by
  have hone (text : Text) (h : (word? "desc" text).isSome = true) : word? "asc" text = none := by
    cases text with
    | nil => cases h
    | cons c text =>
      have hd : isLetter 'd' c = true := by
        by_contra hc
        change (word? ('d' :: "esc") (c :: text)).isSome = true at h
        rw [word?, if_neg hc] at h
        cases h
      have hlower : c.toLower = 'd' := by simpa [isLetter] using hd
      have ha : isLetter 'a' c = false := by
        unfold isLetter
        rw [hlower]
        rfl
      change word? ('a' :: "sc") (c :: text) = none
      rw [word?, if_neg (by simp [ha])]
  have hasc : Cuts (word? "asc") 0 := cuts_word? (by decide) (by decide)
  have hdesc : Cuts (word? "desc") 0 := cuts_word? (by decide) (by decide)
  exact hasc.orElse hdesc hone

/-- A second argument with a direction, and the parenthesis. -/
def directed : Reader (Option Text) :=
  (skipping (Call.skipTo? ',')).andThen fun _ =>
    Reader.andThen (fun text => direction? (skipQuote (Text.trimStart text))) fun direction =>
      Reader.map (fun _ => some direction) fun text => skipping (Call.skipTo? ')') (skipQuote text)

/-- The parenthesis with no second argument before it. -/
def undirected : Reader (Option Text) := (skipping (Call.skipTo? ')')).map fun _ => none

theorem cuts_directed : Cuts directed 2 := by
  have hcomma : Cuts (skipping (Call.skipTo? ',')) 0 := Call.cuts_skipTo? rfl (by decide)
  have hparen : Cuts (skipping (Call.skipTo? ')')) 0 := Call.cuts_skipTo? rfl (by decide)
  have hdirection := (cuts_direction?.behind peeks_skipQuote).behind peeks_trimStart
  exact hcomma.andThen fun _ => hdirection.andThen fun _ => (hparen.behind peeks_skipQuote).map _

theorem cuts_undirected : Cuts undirected 0 := (Call.cuts_skipTo? rfl (by decide)).map _

/-- Where the parenthesis stands there is no comma. -/
theorem skipTo?_eq_none {a b : CodePoint} {text : Text} (hne : a ≠ b)
    (h : (Call.skipTo? a text).isSome = true) : Call.skipTo? b text = none := by
  unfold Call.skipTo? at h ⊢
  cases htrim : Text.trimStart text with
  | nil => rfl
  | cons c rest =>
    rw [htrim] at h
    dsimp only at h ⊢
    split at h
    · rename_i hc
      rw [if_neg (by rw [hc]; exact hne)]
    · cases h

theorem directed_eq_none {text : Text} (h : (undirected text).isSome = true) :
    directed text = none := by
  have hparen : (Call.skipTo? ')' text).isSome = true := by
    simpa [undirected, Reader.map, skipping] using h
  have hcomma : Call.skipTo? ',' text = none := skipTo?_eq_none (by decide) hparen
  unfold directed andThen skipping
  rw [hcomma]
  rfl

theorem cuts_closedDirection : Cuts (directed.orElse undirected) 2 :=
  cuts_directed.orElse (cuts_undirected.mono (Nat.zero_le 2)) fun _ => directed_eq_none

/-- The second argument and the parenthesis are read in one of the two ways. -/
theorem closedDirection_eq (text : Text) :
    (Call.skipTo? ')' (directionArgument text).2).map (fun rest => ((directionArgument text).1, rest)) =
      directed.orElse undirected text := by
  unfold orElse directed undirected andThen Reader.map skipping directionArgument
  cases hcomma : Call.skipTo? ',' text with
  | none => cases hparen : Call.skipTo? ')' text <;> simp [hparen]
  | some behind =>
    have hparen : Call.skipTo? ')' text = none :=
      skipTo?_eq_none (a := CodePoint.char ',') (by decide) (by rw [hcomma]; rfl)
    cases hdirection : direction? (skipQuote (Text.trimStart behind)) with
    | none => simp [hdirection, hparen]
    | some found => cases hclosed : Call.skipTo? ')' (skipQuote found.2) <;>
        simp [hdirection, hparen, hclosed]

/-! ## The searches of the parser -/

end Query

/-- The search reads a start of the text with at most so many quotes. -/
def ReadsWithin {α : Type} (find : Text → Option α) (quotes : Nat) : Prop :=
  ∃ read : Reader α, Cuts read quotes ∧ ∀ text, find text = (read text).map Prod.fst

/-- Behind more quotes than the search can read nothing matters. -/
theorem ReadsWithin.find_append_eq {α : Type} {find : Text → Option α} {quotes : Nat}
    (h : ReadsWithin find quotes) {front : Text} (hfront : quotes < quotesIn front) (a b : Text) :
    find (front ++ a) = find (front ++ b) := by
  obtain ⟨read, hread, hfind⟩ := h
  have hsame {a b : Text} {found : α} (ha : find (front ++ a) = some found) :
      find (front ++ b) = some found := by
    rw [hfind] at ha ⊢
    obtain ⟨⟨found, rest⟩, hfound, rfl⟩ := Option.map_eq_some_iff.1 ha
    obtain ⟨seen, -, htext, hquotes, hseen⟩ := hread hfound
    rcases List.append_eq_append_iff.1 htext with ⟨more, rfl, -⟩ | ⟨more, rfl, -⟩
    · rw [quotesIn_append] at hquotes
      omega
    · rw [List.append_assoc, hseen]
      rfl
  ext found
  exact ⟨hsame, hsame⟩

/-- A search that reads no quotes does not look behind the next one. -/
theorem ReadsWithin.find_append_quote {α : Type} {find : Text → Option α} (h : ReadsWithin find 0)
    {quote : CodePoint} (hquote : quote ∈ literalQuotes) (part rest : Text) :
    find (part ++ quote :: rest) = find part := by
  obtain ⟨read, hread, hfind⟩ := h
  ext found
  rw [hfind, hfind, Option.map_eq_some_iff, Option.map_eq_some_iff]
  constructor
  · rintro ⟨⟨found, left⟩, hfound, rfl⟩
    obtain ⟨seen, -, htext, hquotes, hseen⟩ := hread hfound
    have hnot : quote ∉ seen := fun hmem =>
      List.countP_eq_zero.1 (Nat.le_zero.1 hquotes) quote hmem (decide_eq_true hquote)
    obtain ⟨more, rfl, -⟩ := exists_eq_append_of_not_mem hnot htext
    exact ⟨_, hseen more, rfl⟩
  · rintro ⟨⟨found, left⟩, hfound, rfl⟩
    obtain ⟨seen, -, rfl, -, hseen⟩ := hread hfound
    refine ⟨(found, left ++ quote :: rest), ?_, rfl⟩
    rw [List.append_assoc]
    exact hseen _

namespace Query

theorem readsWithin_collectionCall? : ReadsWithin collectionCall? 2 := by
  have hopen : Cuts (skipping (Call.open? "collection")) 0 :=
    Call.cuts_open? (isIdentChar_method "collection" (by decide))
  have hparen : Cuts (skipping (Call.skipTo? ')')) 0 := Call.cuts_skipTo? rfl (by decide)
  refine ⟨_, hopen.andThen fun _ => Call.cuts_literal?.andThen fun name => hparen.map fun _ => name, ?_⟩
  intro text
  unfold collectionCall? andThen Reader.map skipping
  cases hinside : Call.open? "collection" text with
  | none => rfl
  | some inside =>
    cases hliteral : Call.literal? inside with
    | none => simp [hliteral]
    | some found => cases hclosed : Call.skipTo? ')' found.2 <;> simp [hliteral, hclosed]

theorem readsWithin_limitCall? : ReadsWithin limitCall? 0 := by
  have hopen : Cuts (skipping (Call.open? "limit")) 0 := Call.cuts_open? (by decide)
  refine ⟨_, hopen.andThen fun _ => cuts_closedDigits.behind peeks_trimStart, ?_⟩
  intro text
  unfold andThen skipping
  rw [limitCall?_eq_bind]
  cases Call.open? "limit" text with
  | none => rfl
  | some inside => exact limitIn?_eq inside

theorem readsWithin_orderingCall? : ReadsWithin orderingCall? 4 := by
  have hword : Cuts (word? ".orderby") 0 := cuts_word? (by decide) (by decide)
  have hparen : Cuts (skipping (Call.skipTo? '(')) 0 := Call.cuts_skipTo? rfl (by decide)
  refine ⟨_, hword.andThen fun _ => hparen.andThen fun _ => Call.cuts_literal?.andThen fun field =>
    cuts_closedDirection.map fun direction => ⟨field, Text.lower (direction.getD "asc")⟩, ?_⟩
  intro text
  unfold orderingCall? andThen Reader.map skipping
  cases hfound : word? ".orderby" text with
  | none => rfl
  | some found =>
    cases hinside : Call.skipTo? '(' found.2 with
    | none => simp [hinside]
    | some inside =>
      cases hliteral : Call.literal? inside with
      | none => simp [hinside, hliteral]
      | some literal =>
        have hclosed := closedDirection_eq literal.2
        cases hparen : Call.skipTo? ')' (directionArgument literal.2).2 <;>
          simp [hinside, hliteral, ← hclosed, hparen]

end Query

end FluentQuery
