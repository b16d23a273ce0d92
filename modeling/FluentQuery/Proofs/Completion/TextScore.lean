/-
  Scores for what has been typed. A text has points exactly if it fits what is typed in one of three ways
  (`points_pos_iff`), and the score of a completion is the greatest among its texts (`textScore_le_iff`).
  A text that begins with what is typed has points for its normalized form only if what is typed begins with
  a point or a quote, and then an exact match has them too. So an exact match is 80 points ahead of any other
  text (`points_add_le_of_ne`), and its completion goes first as long as the adjustments favour another one
  by less than 60 (`exact_match_leads`). What fits with one more character typed fits without it:
  `textScore_pos_of_typed_on`.
-/
import FluentQuery.Proofs.Chain.Openings
import FluentQuery.Proofs.Completion.TopResults
import FluentQuery.Proofs.Text.Trim

namespace FluentQuery

/-- The texts of a completion that count in full: trigger, full form and keywords. -/
def Completion.names (c : Completion) : List Text := c.trigger :: (c.fullForm.toList ++ c.keywords)

/-! ## ASCII texts in lower case -/

namespace Text

theorem isAscii_toLower {c : CodePoint} (h : isAscii c = true) : isAscii c.toLower = true := by
  have hc : c.toNat < 0x80 := of_decide_eq_true h
  rcases toLower_eq c with heq | ⟨-, hle, heq⟩
  · rw [heq]
    exact h
  · exact decide_eq_true (by omega)

theorem toLower_toLower (c : CodePoint) : c.toLower.toLower = c.toLower := by
  rcases toLower_eq c with heq | ⟨hlo, -, heq⟩
  · rw [heq, heq]
  · rcases toLower_eq c.toLower with heq' | ⟨-, hle, -⟩
    · exact heq'
    · omega

theorem all_isAscii_lower {text : Text} (h : text.all isAscii = true) :
    (lower text).all isAscii = true := by
  rw [lower_of_isAscii h, List.all_map, List.all_eq_true]
  exact fun c hc => isAscii_toLower (List.all_eq_true.1 h c hc)

theorem lower_lower {text : Text} (h : text.all isAscii = true) : lower (lower text) = lower text := by
  rw [lower_of_isAscii (all_isAscii_lower h), lower_of_isAscii h, List.map_map]
  exact List.map_congr_left fun c _ => toLower_toLower c

theorem lower_eq_nil {text : Text} (h : lower text = []) : text = [] := by
  cases text with
  | nil => rfl
  | cons c rest =>
    have hat : lowerAt [] c rest = [] := (List.append_eq_nil_iff.1 h).1
    unfold lowerAt at hat
    split_ifs at hat

end Text

namespace Score

/-! ## Normalized forms -/

theorem isDecoration_toLower {c : CodePoint} (h : isDecoration c = false) :
    isDecoration c.toLower = false := by
  rcases toLower_eq c with heq | ⟨hlo, hhi, heq⟩
  · rw [heq]
    exact h
  · have hblank : Text.isBlank c.toLower = false := by
      unfold Text.isBlank
      simp only [Bool.or_eq_false_iff, Bool.and_eq_false_iff, decide_eq_false_iff_not]
      omega
    have hmarks : ∀ m ∈ (CodePoint.char '.' :: literalQuotes), m.toNat < 0x61 := by decide
    have hmark : c.toLower ∉ CodePoint.char '.' :: literalQuotes := fun hmem => by
      have hlt := hmarks _ hmem
      omega
    rw [List.mem_cons, not_or] at hmark
    simp [isDecoration, hblank, hmark.1, hmark.2]

theorem normalize_lower {text : Text} (h : text.all Text.isAscii = true) :
    normalize (Text.lower text) = (Text.lower text).dropWhile isDecoration := by
  rw [normalize, Text.lower_lower h]

/-- A text that begins with no decoration is a normalized one, and so is every text that begins with it. -/
theorem normalize_of_prefix {typed offered : Text} (hne : typed ≠ []) (htyped : normalize typed = typed)
    (hbegins : typed <+: Text.lower offered) (hoffered : offered.all Text.isAscii = true) :
    normalize (Text.lower offered) = Text.lower offered := by
  rw [normalize_lower hoffered]
  have hhead := List.head?_dropWhile_not isDecoration (Text.lower typed)
  rw [normalize] at htyped
  rw [htyped] at hhead
  obtain ⟨rest, hrest⟩ := hbegins
  rw [← hrest]
  cases typed with
  | nil => exact absurd rfl hne
  | cons c typed => exact List.dropWhile_cons_of_neg (by simpa using hhead)

/-! ## Points -/

theorem isSpelledIn_iff_sublist {needle text : Text} :
    isSpelledIn needle text = true ↔ needle.Sublist text := List.isSublist_iff_sublist

/-- The points of an exact match with a text in lower case. -/
def exactPoints (typed : Text) : Nat :=
  230 + (if 2 ≤ typed.length then 30 else 0) +
    if normalize typed ≠ [] ∧ normalize typed ≠ typed then 100 else 0

theorem points_of_exact {t text : Text} (hne : t ≠ []) (h : Text.lower text = Text.lower t) :
    points t text = exactPoints (Text.lower t) := by
  have htext : text ≠ [] := by
    rintro rfl
    exact hne (Text.lower_eq_nil h.symm)
  unfold points
  rw [if_neg htext, h]
  have hbegins : (Text.lower t).isPrefixOf (Text.lower t) = true :=
    List.isPrefixOf_iff_prefix.2 List.prefix_rfl
  have hinside : Text.occursIn (Text.lower t) (Text.lower t) = true :=
    Text.occursIn_eq_true_iff.2 List.infix_rfl
  have hsublist : isSpelledIn (Text.lower t) (Text.lower t) = true :=
    isSpelledIn_iff_sublist.2 (List.Sublist.refl _)
  have hnormalized : (normalize (Text.lower t)).isPrefixOf (normalize (Text.lower t)) = true :=
    List.isPrefixOf_iff_prefix.2 List.prefix_rfl
  simp [plainPoints, normalizedPoints, exactPoints, hbegins, hinside, hsublist, hnormalized]

theorem plainPoints_le_of_ne {typed offered : Text} (h : offered ≠ typed) :
    plainPoints typed offered ≤
      (if typed <+: offered then 80 else 0) + 50 + if 2 ≤ typed.length then 30 else 0 := by
  unfold plainPoints
  simp only [h, if_false, List.isPrefixOf_iff_prefix, Bool.and_eq_true, decide_eq_true_eq]
  split_ifs <;> omega

theorem normalizedPoints_le (typed offered : Text) : normalizedPoints typed offered ≤
    if normalize typed ≠ [] ∧ normalize offered ≠ offered then 100 else 0 := by
  unfold normalizedPoints
  dsimp only
  split_ifs <;> omega

/-- Whatever is no exact match is 80 points behind one. -/
theorem points_add_le_of_ne {t text : Text} (hne : t ≠ []) (hascii : text.all Text.isAscii = true)
    (h : Text.lower text ≠ Text.lower t) : points t text + 80 ≤ exactPoints (Text.lower t) := by
  have hplain := plainPoints_le_of_ne h
  have hnormalized := normalizedPoints_le (Text.lower t) (Text.lower text)
  have hpoints : points t text ≤ plainPoints (Text.lower t) (Text.lower text) +
      normalizedPoints (Text.lower t) (Text.lower text) := by
    unfold points
    split_ifs
    · exact Nat.zero_le _
    · exact Nat.le_refl _
  unfold exactPoints
  generalize (if 2 ≤ (Text.lower t).length then 30 else 0) = spelled at *
  by_cases hsame : normalize (Text.lower t) = Text.lower t
  · simp only [hsame, ne_eq, not_true, and_false, if_false]
    by_cases hbegins : Text.lower t <+: Text.lower text
    · -- A text that begins with the typed one has no other normalized form then.
      have htext : normalize (Text.lower text) = Text.lower text :=
        normalize_of_prefix (fun hnil => hne (Text.lower_eq_nil hnil)) hsame hbegins hascii
      simp only [hbegins, htext, ne_eq, not_true, and_false, if_true, if_false] at hplain hnormalized
      omega
    · simp only [hbegins, if_false] at hplain
      split_ifs at hnormalized <;> omega
  · by_cases hnil : normalize (Text.lower t) = []
    · simp only [hnil, ne_eq, not_true, false_and, if_false] at hnormalized ⊢
      split_ifs at hplain <;> omega
    · simp only [hnil, hsame, ne_eq, not_false_eq_true, and_self, if_true]
      split_ifs at hplain hnormalized <;> omega

/-! ## The three ways to fit -/

/-- Whether a text in lower case fits what is typed: it holds the typed text, or its characters in their
order if there are two or more, or its other normalized form begins with that of the typed text. -/
def Fits (typed offered : Text) : Prop :=
  typed <:+: offered ∨ 2 ≤ typed.length ∧ typed.Sublist offered ∨
    normalize typed ≠ [] ∧ normalize offered ≠ offered ∧ normalize typed <+: normalize offered

theorem plainPoints_pos_iff {typed offered : Text} : 0 < plainPoints typed offered ↔
    typed <:+: offered ∨ 2 ≤ typed.length ∧ typed.Sublist offered := by
  unfold plainPoints
  simp only [List.isPrefixOf_iff_prefix, Text.occursIn_eq_true_iff, isSpelledIn_iff_sublist,
    Bool.and_eq_true, decide_eq_true_eq]
  constructor
  · intro h
    by_cases hinside : typed <:+: offered
    · exact .inl hinside
    · -- An exact match and a beginning are parts of the text, too.
      have hexact : offered ≠ typed := fun heq => hinside (heq ▸ List.infix_rfl)
      have hbegins : ¬typed <+: offered := fun h => hinside h.isInfix
      by_cases hspelled : 2 ≤ typed.length ∧ typed.Sublist offered
      · exact .inr hspelled
      · simp [hinside, hexact, hbegins, hspelled] at h
  · rintro (h | h)
    · rw [if_pos h]
      omega
    · rw [if_pos h]
      omega

theorem normalizedPoints_pos_iff {typed offered : Text} : 0 < normalizedPoints typed offered ↔
    normalize typed ≠ [] ∧ normalize offered ≠ offered ∧ normalize typed <+: normalize offered := by
  unfold normalizedPoints
  dsimp only
  simp only [List.isPrefixOf_iff_prefix]
  by_cases hother : normalize typed ≠ [] ∧ normalize offered ≠ offered
  · rw [if_pos hother, ← and_assoc, and_iff_right hother]
    constructor
    · intro h
      by_contra hbegins
      have hexact : normalize offered ≠ normalize typed := fun heq => hbegins (heq ▸ List.prefix_rfl)
      simp [hexact, hbegins] at h
    · intro h
      rw [if_pos h]
      omega
  · rw [if_neg hother, ← and_assoc]
    exact iff_of_false (Nat.lt_irrefl 0) fun h => hother h.1

theorem points_pos_iff {t text : Text} :
    0 < points t text ↔ text ≠ [] ∧ Fits (Text.lower t) (Text.lower text) := by
  unfold points Fits
  by_cases htext : text = []
  · simp [htext]
  · rw [if_neg htext, and_iff_right htext]
    dsimp only
    rw [Nat.add_pos_iff_pos_or_pos, plainPoints_pos_iff, normalizedPoints_pos_iff, or_assoc]

/-- What fits with one more character typed fits without it. -/
theorem Fits.of_append {t offered : Text} {x : CodePoint} (ht : t.all Text.isAscii = true)
    (hx : Text.isAscii x = true) (hcore : ∃ c ∈ t, isDecoration c = false)
    (h : Fits (Text.lower (t ++ [x])) offered) : Fits (Text.lower t) offered := by
  have htx : (t ++ [x]).all Text.isAscii = true := by simp [ht, hx]
  have happend : Text.lower (t ++ [x]) = Text.lower t ++ [x.toLower] := by
    rw [Text.lower_of_isAscii htx, Text.lower_of_isAscii ht, List.map_append]
    rfl
  have hcore : (Text.lower t).dropWhile isDecoration ≠ [] := by
    obtain ⟨c, hc, hdecoration⟩ := hcore
    intro hnil
    have hall := List.dropWhile_eq_nil_iff.1 hnil c.toLower
      (Text.lower_of_isAscii ht ▸ List.mem_map_of_mem hc)
    rw [isDecoration_toLower hdecoration] at hall
    cases hall
  have hnormalize : normalize (Text.lower (t ++ [x])) = normalize (Text.lower t) ++ [x.toLower] := by
    rw [normalize_lower htx, normalize_lower ht, happend, List.dropWhile_append,
      if_neg (by simpa using hcore)]
  rcases h with hinside | ⟨-, hsublist⟩ | ⟨-, hother, hbegins⟩
  · rw [happend] at hinside
    exact .inl ((List.prefix_append _ _).isInfix.trans hinside)
  · rw [happend] at hsublist
    have hsublist := (List.sublist_append_left (Text.lower t) [x.toLower]).trans hsublist
    by_cases hlength : 2 ≤ (Text.lower t).length
    · exact .inr (.inl ⟨hlength, hsublist⟩)
    · -- A single character that is spelled in the text is a part of it.
      obtain ⟨c, hsingle⟩ : ∃ c, Text.lower t = [c] := by
        have hne : Text.lower t ≠ [] := fun hnil => hcore (by rw [hnil]; rfl)
        have hpos := List.length_pos_iff.2 hne
        exact List.length_eq_one_iff.1 (by omega)
      rw [hsingle, List.singleton_sublist] at hsublist
      rw [hsingle]
      exact .inl ((List.singleton_infix_iff _ _).2 hsublist)
  · rw [hnormalize] at hbegins
    refine .inr (.inr ⟨?_, hother, (List.prefix_append _ _).trans hbegins⟩)
    rw [normalize_lower ht]
    exact hcore

/-! ## Completions -/

theorem foldl_max_le_iff {scores : List Nat} {first bound : Nat} :
    scores.foldl max first ≤ bound ↔ first ≤ bound ∧ ∀ s ∈ scores, s ≤ bound := by
  induction scores generalizing first with
  | nil => simp
  | cons s scores ih => rw [List.foldl_cons, ih, List.forall_mem_cons, max_le_iff, and_assoc]

/-- The score of a completion is the greatest among its texts. -/
theorem textScore_le_iff {t : Text} {c : Completion} {bound : Nat} :
    textScore t c ≤ bound ↔
      (∀ text ∈ c.names, points t text ≤ bound) ∧ descriptionPoints t c.description ≤ bound := by
  have hfull : pointsOf t c.fullForm ≤ bound ↔ ∀ text ∈ c.fullForm.toList, points t text ≤ bound := by
    cases c.fullForm with
    | none => simp [pointsOf, points]
    | some full => simp [pointsOf]
  unfold textScore Completion.names
  rw [foldl_max_le_iff, max_le_iff, max_le_iff, hfull, List.forall_mem_map, List.forall_mem_cons,
    List.forall_mem_append]
  tauto

theorem points_le_textScore {t text : Text} {c : Completion} (h : text ∈ c.names) :
    points t text ≤ textScore t c :=
  (textScore_le_iff.1 (Nat.le_refl _)).1 text h

theorem descriptionPoints_le (t description : Text) :
    descriptionPoints t description ≤ points t description := by
  unfold descriptionPoints
  omega

/-- A completion has a score as soon as one of its texts has points, be it the description. -/
theorem textScore_pos_iff {t : Text} {c : Completion} :
    0 < textScore t c ↔ ∃ text ∈ c.description :: c.names, 0 < points t text := by
  have hdescription := Ranking.descriptionPoints_mul_five t c.description
  rw [← not_iff_not, Nat.not_lt, textScore_le_iff]
  simp only [List.mem_cons, exists_eq_or_imp, not_or, not_exists, not_and, Nat.not_lt]
  rw [and_comm]
  refine and_congr_left' ⟨fun h => ?_, fun h => ?_⟩ <;> omega

/-- A completion with a text that matches exactly is 80 points ahead of one with no such text. -/
theorem textScore_add_le_of_exact {t : Text} {c d : Completion} (hne : t ≠ [])
    (hc : ∃ text ∈ c.names, Text.lower text = Text.lower t)
    (hd : ∀ text ∈ d.description :: d.names,
      text.all Text.isAscii = true ∧ Text.lower text ≠ Text.lower t) :
    textScore t d + 80 ≤ textScore t c := by
  obtain ⟨text, htext, hexact⟩ := hc
  have hwinner : exactPoints (Text.lower t) ≤ textScore t c :=
    points_of_exact hne hexact ▸ points_le_textScore htext
  have hbehind : ∀ text ∈ d.description :: d.names,
      points t text + 80 ≤ exactPoints (Text.lower t) :=
    fun text hmem => points_add_le_of_ne hne (hd text hmem).1 (hd text hmem).2
  have hloser : textScore t d ≤ exactPoints (Text.lower t) - 80 := by
    refine textScore_le_iff.2 ⟨fun text hmem => ?_, ?_⟩
    · have hpoints := hbehind text (List.mem_cons_of_mem _ hmem)
      omega
    · have hpoints := hbehind d.description List.mem_cons_self
      have hthree := descriptionPoints_le t d.description
      omega
  have hlarge : 80 ≤ exactPoints (Text.lower t) := by
    unfold exactPoints
    omega
  omega

/-- An exact match goes first: it has at least 60 points more than a completion that matches exactly
nowhere, and it stays ahead as long as the adjustments favour the other one by less than 60. -/
theorem exact_match_leads {t : Text} {c d : Completion} (hne : t ≠ []) (htight : Text.Tight t)
    (hc : ∃ text ∈ c.names, Text.lower text = Text.lower t)
    (hd : ∀ text ∈ d.description :: d.names,
      text.all Text.isAscii = true ∧ Text.lower text ≠ Text.lower t) :
    textScore t d + 60 ≤ textScore t c ∧
      ∀ (root : Text) (situation : Situation),
        Fitness.adjustment root (Fitness.likelyKind root d) d t situation <
          Fitness.adjustment root (Fitness.likelyKind root c) c t situation + 60 →
        Ranking.finalScore root t situation d < Ranking.finalScore root t situation c := by
  have hmargin := textScore_add_le_of_exact hne hc hd
  refine ⟨by omega, fun root situation hadjustment => ?_⟩
  have hbase (e : Completion) : Ranking.baseScore root t situation e = textScore t e := by
    unfold Ranking.baseScore
    rw [htight.trim]
    exact if_neg hne
  unfold Ranking.finalScore
  rw [hbase, hbase]
  omega

/-- An exact keyword against a quoted name with the same letters, which is favoured by 59. -/
theorem exact_keyword_leads_quoted :
    let c : Completion := { trigger := "users", keywords := ["US"] }
    let d : Completion := { trigger := "'us", description := "about us", priority := 77 }
    let situation : Situation := ⟨false, "us", false, false, false, none⟩
    textScore "us" d = 180 ∧ textScore "us" c = 260 ∧
      Fitness.adjustment "db" (Fitness.likelyKind "db" d) d "us" situation = 59 ∧
      textScore "us" d + 60 ≤ textScore "us" c ∧
      Ranking.finalScore "db" "us" situation d < Ranking.finalScore "db" "us" situation c := by
  intro c d situation
  have hleads := exact_match_leads (t := "us") (c := c) (d := d) (by decide) ⟨by decide, by decide⟩
    ⟨"US", by decide, by decide⟩ (by decide)
  exact ⟨by decide, by decide, by decide, hleads.1, hleads.2 "db" situation (by decide)⟩

/-- What has no score does not get one by typing on. -/
theorem textScore_pos_of_typed_on {t : Text} {x : CodePoint} {c : Completion}
    (ht : t.all Text.isAscii = true) (hx : Text.isAscii x = true)
    (hcore : ∃ ch ∈ t, isDecoration ch = false) (h : 0 < textScore (t ++ [x]) c) :
    0 < textScore t c := by
  obtain ⟨text, htext, hpoints⟩ := textScore_pos_iff.1 h
  obtain ⟨hne, hfits⟩ := points_pos_iff.1 hpoints
  exact textScore_pos_iff.2 ⟨text, htext, points_pos_iff.2 ⟨hne, hfits.of_append ht hx hcore⟩⟩

/-- A point and two letters fit a quoted name without its quote, and so do a point and one letter. -/
theorem textScore_pos_of_point_typed_on :
    let c : Completion := { trigger := "'users'" }
    textScore (".u" ++ ("s" : String)) c = 40 ∧ 0 < textScore ".u" c := by
  intro c
  have hlonger : textScore (".u" ++ ("s" : String)) c = 40 := by decide
  have hcore : ∃ ch ∈ ((".u" : String) : Text), isDecoration ch = false := ⟨'u', by decide, by decide⟩
  have hpos : 0 < textScore (".u" ++ ("s" : String)) c := by omega
  exact ⟨hlonger, textScore_pos_of_typed_on (by decide) (by decide : Text.isAscii 's' = true) hcore hpos⟩

end Score

end FluentQuery
