/-
  Which lines an edit leaves alone. An edit either splices its text in before the cursor or fills the literal
  that is open on the cursor's line, up to the quote that closes it (`applyHere_of_literal`), so what stands
  above the cursor's line is always kept. What stands below is kept unless the literal before the cursor is
  closed only there: then an edit replaces everything up to that closing quote, the lines in between
  included. `keeps_other_lines_iff` says that this is the only case.
-/
import FluentQuery.Proofs.Completion.LongestToken

namespace FluentQuery

namespace Cursor

/-- The line of the cursor begins behind a line break, which is no backslash. -/
theorem escapedBehind_throughLast (text : Text) :
    escapedBehind false (Text.throughLast '\n' text) = false := by
  rcases Text.throughLast_eq '\n' text with h | ⟨front, h⟩
  · rw [h]
    rfl
  · rw [h, escapedBehind_append_cons false front (by decide)]
    rfl

theorem exists_blanks_lineBefore (earlier later : Text) : ∃ blanks : Text,
    Text.lastLine earlier = lineBefore (earlier ++ later) earlier.length ++ blanks ∧
      blanks.all Text.isBlank = true := by
  obtain ⟨blanks, hblanks, hall⟩ := Text.trimEnd_append_blanks (Text.lastLine earlier)
  unfold lineBefore
  rw [before_append]
  exact ⟨blanks, hblanks, hall⟩

theorem length_trigger_le_lastLine (earlier later : Text) :
    (trigger (earlier ++ later) earlier.length).length ≤ (Text.lastLine earlier).length := by
  obtain ⟨blanks, hblanks, -⟩ := exists_blanks_lineBefore earlier later
  have hline := (trigger_suffix_line (earlier ++ later) earlier.length).length_le
  rw [hblanks, List.length_append]
  omega

/-- The blanks at the end of the line open and close nothing. -/
theorem openLiteral_lineBefore (earlier later : Text) :
    openLiteral stringQuotes (lineBefore (earlier ++ later) earlier.length) =
      openLiteral stringQuotes (Text.lastLine earlier) := by
  have hquotes : ∀ quote ∈ stringQuotes, Text.isBlank quote = false := by decide
  obtain ⟨blanks, hblanks, hall⟩ := exists_blanks_lineBefore earlier later
  rw [hblanks, openLiteral_append_of_not_mem]
  intro c hc hquote
  have hblank := hquotes c hquote
  rw [List.all_eq_true.1 hall c hc] at hblank
  cases hblank

/-- The quote of the literal that is open on the line is the last unescaped one of its kind before the
cursor. -/
theorem lastUnescaped_of_line {earlier : Text} {literal : OpenLiteral}
    (h : openLiteral stringQuotes (Text.lastLine earlier) = some literal) :
    lastUnescaped literal.quote false earlier =
      some ((Text.throughLast '\n' earlier).length + literal.start) := by
  have hopening := openLiteral_eq_some_iff.1 h
  have habove := escapedBehind_throughLast earlier
  conv => lhs; rw [← Text.throughLast_append_lastLine earlier]
  refine lastUnescaped_eq_some (hopening.unescaped.append habove) fun other hother => ?_
  rcases UnescapedAt.append_iff.1 hother with hother | ⟨behind, rfl, hbehind⟩
  · exact Nat.le_trans (Nat.le_of_lt hother.lt_length) (Nat.le_add_right _ _)
  · rw [habove] at hbehind
    exact Nat.add_le_add_left (hopening.last behind hbehind) _

end Cursor

namespace Edit

theorem quoteOf?_eq_some_iff {trigger : Text} {quote : CodePoint} :
    quoteOf? trigger = some quote ↔ quote ∈ stringQuotes ∧ trigger.head? = some quote := by
  cases trigger with
  | nil => exact ⟨nofun, fun h => by cases h.2⟩
  | cons c rest =>
    change (if c ∈ stringQuotes then some c else none) = some quote ↔ _
    rw [Option.ite_none_right_eq_some, List.head?_cons]
    exact and_congr_left fun heq => by rw [Option.some.inj heq]

/-- A token that starts with a quote is the literal that is open at the end of the line. -/
theorem quoteOf?_lineTrigger (line : Text) :
    quoteOf? (Cursor.lineTrigger line) = (openLiteral stringQuotes line).map (·.quote) := by
  cases hopen : openLiteral stringQuotes line with
  | none =>
    have hplain : ∀ q ∈ stringQuotes, ¬(Text.isIdentChar q = true ∨ q = '.') := by decide
    cases hquote : quoteOf? (Cursor.lineTrigger line) with
    | none => rfl
    | some quote =>
      obtain ⟨hmem, hhead⟩ := quoteOf?_eq_some_iff.1 hquote
      have htoken := (Cursor.isLongestToken_lineTrigger hopen).isToken
      exact absurd (htoken.chars quote (List.mem_of_mem_head? hhead)) (hplain quote hmem)
  | some literal =>
    have hopening := openLiteral_eq_some_iff.1 hopen
    obtain ⟨front, back, hline, hlength, -⟩ := hopening.exists_eq
    rw [Option.map_some, quoteOf?_eq_some_iff]
    refine ⟨hopening.quote_mem, ?_⟩
    rw [Cursor.lineTrigger_of_openLiteral hopen, ← hlength, hline, List.drop_left, List.head?_cons]

theorem quoteOf?_trigger (earlier later : Text) :
    quoteOf? (Cursor.trigger (earlier ++ later) earlier.length) =
      (openLiteral stringQuotes (Text.lastLine earlier)).map (·.quote) := by
  unfold Cursor.trigger
  rw [quoteOf?_lineTrigger, Cursor.openLiteral_lineBefore]

/-- Where the literal of the token before the cursor is closed behind the cursor, counted from there. -/
def closing? (earlier later : Text) : Option Nat :=
  (quoteOf? (Cursor.trigger (earlier ++ later) earlier.length)).bind fun quote =>
    firstUnescaped quote (escapedAt (earlier ++ later) earlier.length) later

/-- The literal of the token before the cursor is closed, but only below the line of the cursor. -/
def ClosedBelow (earlier later : Text) : Prop :=
  ∃ closing, closing? earlier later = some closing ∧ CodePoint.char '\n' ∈ later.take closing

section

variable {earlier later : Text}

theorem splices_of_closing?_eq_none (h : closing? earlier later = none) (inserted : Text) :
    Splices (Cursor.trigger (earlier ++ later) earlier.length) inserted earlier later := by
  unfold Splices
  unfold closing? at h
  cases hquote : quoteOf? (Cursor.trigger (earlier ++ later) earlier.length) with
  | none => rfl
  | some quote =>
    rw [hquote, Option.bind_some] at h
    unfold insideQuotes?
    simp [h]

theorem insideQuotes?_of_bounds {quote : CodePoint} {opening closing : Nat}
    (hopening : lastUnescaped quote false earlier = some opening)
    (hclosing : firstUnescaped quote (escapedBehind false earlier) later = some closing)
    (inserted : Text) :
    insideQuotes? (earlier ++ later) earlier.length quote inserted = some
      ⟨earlier.take (opening + 1) ++ withoutQuotes stringQuotes inserted ++ later.drop closing,
        (opening + 1 + (withoutQuotes stringQuotes inserted).length : Nat)⟩ := by
  have hlt := (unescapedAt_of_lastUnescaped hopening).lt_length
  unfold insideQuotes?
  rw [if_neg (by omega)]
  simp only [Int.toNat_natCast, List.take_left, List.drop_left, hopening, escapedAt_append, hclosing,
    List.drop_length_add_append, List.take_append_of_le_length hlt, Option.bind_eq_bind,
    Option.bind_some, Option.pure_def]

/-- The literal that is open on the line and closed behind the cursor gets a new content, from behind its
opening quote up to its closing quote. -/
theorem applyHere_of_literal {literal : OpenLiteral} {closing : Nat}
    (hopen : openLiteral stringQuotes (Text.lastLine earlier) = some literal)
    (hclosing : firstUnescaped literal.quote (escapedBehind false earlier) later = some closing)
    (c : Completion) :
    let start := (Text.throughLast '\n' earlier).length + literal.start + 1
    let content := withoutQuotes stringQuotes c.insertedText
    applyHere (earlier ++ later) earlier.length c =
      ⟨earlier.take start ++ content ++ later.drop closing, (start + content.length : Nat)⟩ := by
  intro start content
  have hquote := quoteOf?_trigger earlier later
  rw [hopen, Option.map_some] at hquote
  unfold applyHere apply
  simp only [hquote, Option.bind_some,
    insideQuotes?_of_bounds (Cursor.lastUnescaped_of_line hopen) hclosing]
  rfl

theorem exists_literal_of_closing? {closing : Nat} (h : closing? earlier later = some closing) :
    ∃ literal, openLiteral stringQuotes (Text.lastLine earlier) = some literal ∧
      firstUnescaped literal.quote (escapedBehind false earlier) later = some closing := by
  unfold closing? at h
  rw [quoteOf?_trigger, escapedAt_append] at h
  obtain ⟨quote, hquote, hclosing⟩ := Option.bind_eq_some_iff.1 h
  obtain ⟨literal, hopen, rfl⟩ := Option.map_eq_some_iff.1 hquote
  exact ⟨literal, hopen, hclosing⟩

/-- So an edit of a literal replaces nothing outside it. -/
theorem text_applyHere_of_closing? {closing : Nat} (h : closing? earlier later = some closing)
    (c : Completion) :
    ∃ quote opening, quote ∈ stringQuotes ∧ UnescapedAt quote false earlier opening ∧
      (Text.throughLast '\n' earlier).length ≤ opening ∧
      firstUnescaped quote (escapedBehind false earlier) later = some closing ∧
      (applyHere (earlier ++ later) earlier.length c).text =
        earlier.take (opening + 1) ++ withoutQuotes stringQuotes c.insertedText ++
          later.drop closing := by
  obtain ⟨literal, hopen, hclosing⟩ := exists_literal_of_closing? h
  have hquote := (openLiteral_eq_some_iff.1 hopen).quote_mem
  have hopened := unescapedAt_of_lastUnescaped (Cursor.lastUnescaped_of_line hopen)
  refine ⟨literal.quote, _, hquote, hopened, Nat.le_add_right _ _, hclosing, ?_⟩
  rw [applyHere_of_literal hopen hclosing c]

/-- The lines above the cursor stay as they are. -/
theorem throughLast_prefix_applyHere (earlier later : Text) (c : Completion) :
    Text.throughLast '\n' earlier <+: (applyHere (earlier ++ later) earlier.length c).text := by
  have habove := Text.throughLast_append_behindLast '\n' earlier
  have hstart : Text.throughLast '\n' earlier <+: earlier := ⟨_, habove⟩
  cases hclosing : closing? earlier later with
  | some closing =>
    obtain ⟨-, opening, -, -, hle, -, htext⟩ := text_applyHere_of_closing? hclosing c
    rw [htext, List.append_assoc]
    exact (List.prefix_take_iff.2 ⟨hstart, by omega⟩).trans (List.prefix_append _ _)
  | none =>
    have htrigger := Cursor.length_trigger_le_lastLine earlier later
    rw [applyHere_of_splices (splices_of_closing?_eq_none hclosing _),
      text_splice _ _ _ (Cursor.length_trigger_le earlier later), List.append_assoc]
    refine (List.prefix_take_iff.2 ⟨hstart, ?_⟩).trans (List.prefix_append _ _)
    have hlength := congrArg List.length habove
    rw [List.length_append] at hlength
    unfold Text.lastLine at htrigger
    omega

/-- The lines below the cursor stay as they are unless the literal before the cursor is closed only
there. -/
theorem since_suffix_applyHere (h : ¬ClosedBelow earlier later) (c : Completion) :
    Text.since '\n' later <:+ (applyHere (earlier ++ later) earlier.length c).text := by
  cases hclosing : closing? earlier later with
  | some closing =>
    obtain ⟨-, opening, -, -, -, -, htext⟩ := text_applyHere_of_closing? hclosing c
    have hnot : CodePoint.char '\n' ∉ later.take closing := fun hmem => h ⟨closing, hclosing, hmem⟩
    rw [htext]
    exact (Text.since_suffix_drop hnot).trans (List.suffix_append _ _)
  | none =>
    rw [applyHere_of_splices (splices_of_closing?_eq_none hclosing _),
      text_splice _ _ _ (Cursor.length_trigger_le earlier later)]
    exact (List.dropWhile_suffix _).trans (List.suffix_append _ _)

/-- Where the closing quote stands only below, an edit that inserts nothing takes the end of the line
out. -/
theorem not_since_suffix_applyHere (h : ClosedBelow earlier later) :
    ¬Text.since '\n' later <:+
      (applyHere (earlier ++ later) earlier.length { trigger := [] }).text := by
  obtain ⟨closing, hclosing, hmem⟩ := h
  obtain ⟨quote, opening, hquote, ⟨front, back, rfl, rfl, hopened⟩, -, hfirst, htext⟩ :=
    text_applyHere_of_closing? hclosing { trigger := [] }
  obtain ⟨line, rest, hline, hsince⟩ := Text.exists_since_eq hmem (later.drop closing)
  rw [List.take_append_drop] at hsince
  have htake : (front ++ quote :: back).take (front.length + 1) = front ++ [quote] := by
    rw [List.append_cons, List.take_left' (by simp)]
  have hempty : withoutQuotes stringQuotes ({ trigger := [] } : Completion).insertedText = [] := rfl
  rw [hsince, htext, htake, hempty, List.append_nil, List.suffix_append_self_iff]
  rintro ⟨kept, hkept⟩
  rcases List.eq_nil_or_concat rest with rfl | ⟨inner, last, rfl⟩
  · obtain ⟨-, hbreak⟩ := List.append_inj' hkept rfl
    cases hbreak
    exact absurd hquote (by decide)
  -- the line breaks in front of the two quotes make them escaped alike, so the second one would close
  · rw [List.concat_eq_append, ← List.cons_append, ← List.append_assoc] at hkept hline
    obtain ⟨rfl, hlast⟩ := List.append_inj' hkept rfl
    cases hlast
    rw [escapedBehind_append_cons _ _ (by decide)] at hopened
    have hlater : later = line ++ CodePoint.char '\n' :: inner ++ quote :: later.drop closing :=
      (List.take_append_drop closing later).symm.trans (by
        rw [hline, List.append_assoc, List.singleton_append])
    have hle := (unescapedAt_of_firstUnescaped hfirst).2 _
      ⟨line ++ CodePoint.char '\n' :: inner, _, hlater, rfl, by
        rw [escapedBehind_append_cons _ _ (by decide), hopened]⟩
    have hlength := List.length_take_le closing later
    rw [hline, List.length_append, List.length_singleton] at hlength
    omega

end

/-- An edit keeps everything up to the line break above the cursor. It keeps everything from the line
break below the cursor on, whatever the completion, exactly if the literal before the cursor is not one
that is closed only below that line break. -/
theorem keeps_other_lines_iff (earlier later : Text) :
    (∀ c, Text.throughLast '\n' earlier <+: (applyHere (earlier ++ later) earlier.length c).text) ∧
      ((∀ c, Text.since '\n' later <:+ (applyHere (earlier ++ later) earlier.length c).text) ↔
        ¬ClosedBelow earlier later) := by
  refine ⟨throughLast_prefix_applyHere earlier later, ?_⟩
  constructor
  · intro h hbelow
    exact not_since_suffix_applyHere hbelow (h _)
  · intro h c
    exact since_suffix_applyHere h c

/-- The literal `'or` is not closed on its line. The quote that opens the next literal, a line below,
is taken for its end, and the line break and `x(` are lost. -/
theorem next_line_lost :
    ¬Text.since '\n' ("\nx('a')" : String) <:+
        (applyHere ("db.collection('or\nx('a')" : String) 17
          { trigger := ("'orders" : String), suggestion := ("'" : String) }).text ∧
      (applyHere ("db.collection('or\nx('a')" : String) 17
        { trigger := ("'orders" : String), suggestion := ("'" : String) }).text =
          ("db.collection('orders'a')" : String) := by
  decide

end Edit

end FluentQuery
