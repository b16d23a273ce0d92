/-
  Integers that are too long. A word or a number at the start of a text is refused for its digits exactly if
  it is an integer of more than 4300 of them (`readAtom_eq_tooManyDigits_iff`); a fraction or an exponent
  behind the digits makes it a floating-point number, however many digits there are.
-/
import FluentQuery.Proofs.Json.RoundTrip

namespace FluentQuery.Json

/-! ## The end of an integer -/

/-- The text goes on with the number in front of it: with a digit, with a fraction or with an exponent. -/
inductive ContinuesNumber : Text → Prop
  | digit {d : CodePoint} (more : Text) : d.isDigit = true → ContinuesNumber (d :: more)
  | fraction {d : CodePoint} (more : Text) : d.isDigit = true →
      ContinuesNumber (CodePoint.char '.' :: d :: more)
  | exponent {e d : CodePoint} {sign : Text} (more : Text) : e = 'e' ∨ e = 'E' →
      sign = [] ∨ sign = "+" ∨ sign = "-" → d.isDigit = true → ContinuesNumber (e :: (sign ++ d :: more))

/-- The sign in front of an exponent, and what follows it. -/
def splitExponentSign : Text → Bool × Text
  | '-' :: body => (true, body)
  | '+' :: body => (false, body)
  | body => (false, body)

theorem splitExponentSign_eq (text : Text) : ∃ sign : Text, (sign = [] ∨ sign = "+" ∨ sign = "-") ∧
    text = sign ++ (splitExponentSign text).2 := by
  unfold splitExponentSign
  split
  · exact ⟨_, .inr (.inr rfl), rfl⟩
  · exact ⟨_, .inr (.inl rfl), rfl⟩
  · exact ⟨_, .inl rfl, rfl⟩

theorem splitExponentSign_append {sign : Text} (hsign : sign = [] ∨ sign = "+" ∨ sign = "-") {d : CodePoint}
    (hd : d.isDigit = true) (more : Text) : (splitExponentSign (sign ++ d :: more)).2 = d :: more := by
  rcases hsign with rfl | rfl | rfl
  · rw [List.nil_append]
    unfold splitExponentSign
    split
    · rename_i heq
      obtain ⟨rfl, -⟩ := List.cons.inj heq
      cases hd
    · rename_i heq
      obtain ⟨rfl, -⟩ := List.cons.inj heq
      cases hd
    · rfl
  · rfl
  · rfl

theorem spanExponent_cons_eq {e : CodePoint} (he : e = 'e' ∨ e = 'E') (rest : Text) :
    spanExponent (e :: rest) =
      match spanDigits (splitExponentSign rest).2 with
      | ([], _) => (none, e :: rest)
      | (digits, behind) => (some ((splitExponentSign rest).1, digits), behind) := by
  unfold spanExponent
  dsimp only
  rw [if_pos (by rcases he with rfl | rfl <;> rfl)]
  rfl

/-- There is no fraction without a digit behind the point. -/
theorem spanFraction_eq_none {text : Text} (h : ¬ContinuesNumber text) : spanFraction text = (none, text) := by
  unfold spanFraction
  split
  · rename_i d rest
    rw [if_neg fun hd => h (.fraction rest hd)]
  · rfl

/-- There is no exponent without a digit behind its letter and its sign. -/
theorem spanExponent_eq_none {text : Text} (h : ¬ContinuesNumber text) : spanExponent text = (none, text) := by
  cases text with
  | nil => rfl
  | cons e rest =>
    by_cases he : e = 'e' ∨ e = 'E'
    · obtain ⟨sign, hsign, hrest⟩ := splitExponentSign_eq rest
      have hdigits : spanDigits ([] ++ (splitExponentSign rest).2) = ([], (splitExponentSign rest).2) := by
        refine spanDigits_append (List.forall_mem_nil _) fun d hd => ?_
        obtain ⟨more, hmore⟩ := List.head?_eq_some_iff.1 hd
        rw [hmore] at hrest
        by_contra hdigit
        rw [hrest] at h
        exact h (.exponent more he hsign (Bool.of_not_eq_false hdigit))
      rw [spanExponent_cons_eq he, ← List.nil_append (splitExponentSign rest).2, hdigits]
    · rw [not_or] at he
      exact spanExponent_cons he.1 he.2 rest

theorem spanFraction_snd_of_none {text : Text} (h : (spanFraction text).1 = none) :
    (spanFraction text).2 = text := by
  unfold spanFraction at h ⊢
  split at h
  · split at h
    · cases h
    · rename_i hd
      rw [if_neg hd]
  · rfl

/-- An integer ends where neither a digit nor a fraction nor an exponent is found. -/
theorem not_continuesNumber_iff (text : Text) : ¬ContinuesNumber text ↔
    (∀ c, text.head? = some c → c.isDigit = false) ∧ (spanFraction text).1 = none ∧
      (spanExponent text).1 = none := by
  constructor
  · intro h
    refine ⟨fun c hc => ?_, by rw [spanFraction_eq_none h], by rw [spanExponent_eq_none h]⟩
    obtain ⟨more, rfl⟩ := List.head?_eq_some_iff.1 hc
    exact Bool.eq_false_iff.2 fun hdigit => h (.digit more hdigit)
  · rintro ⟨hhead, hfraction, hexponent⟩ h
    cases h with
    | digit more hd =>
      rw [hhead _ rfl] at hd
      cases hd
    | fraction more hd =>
      rw [spanFraction, if_pos hd] at hfraction
      cases hfraction
    | exponent more he hsign hd =>
      rw [spanExponent_cons_eq he, splitExponentSign_append hsign hd, spanDigits,
        List.takeWhile_cons_of_pos hd] at hexponent
      cases hexponent

/-! ## Long integers -/

/-- An integer of more digits than an integer may have stands at the start of the text. Digits that start
with a zero are no such integer, since a number ends behind this zero. -/
inductive StartsLongInteger : Text → Prop
  | intro {sign whole rest : Text} : sign = [] ∨ sign = "-" → (∀ c ∈ whole, c.isDigit = true) →
      whole.head? ≠ some (CodePoint.char '0') → Decimal.maxDigits < whole.length → ¬ContinuesNumber rest →
        StartsLongInteger (sign ++ (whole ++ rest))

theorem splitMinus_eq (text : Text) : ∃ sign : Text, (sign = [] ∨ sign = "-") ∧
    text = sign ++ (splitMinus text).2 := by
  unfold splitMinus
  split
  · exact ⟨_, .inr rfl, rfl⟩
  · exact ⟨_, .inl rfl, rfl⟩

/-- The digits before the point are a single zero, or all digits that stand there. -/
theorem spanWhole_eq_some {body whole rest : Text} (h : spanWhole body = some (whole, rest)) :
    body = whole ++ rest ∧ (whole = [CodePoint.char '0'] ∨ (∀ c ∈ whole, c.isDigit = true) ∧ whole ≠ [] ∧
      whole.head? ≠ some (CodePoint.char '0') ∧ ∀ c, rest.head? = some c → c.isDigit = false) := by
  unfold spanWhole at h
  split at h
  · cases h
    exact ⟨rfl, .inl rfl⟩
  · rename_i d more hzero
    split at h
    · rename_i hd
      cases h
      have hsplit := List.takeWhile_append_dropWhile (p := CodePoint.isDigit) (l := d :: more)
      refine ⟨hsplit.symm, .inr ⟨?_, ?_, ?_, ?_⟩⟩
      · exact fun c hc => List.mem_takeWhile_imp hc
      · rw [List.takeWhile_cons_of_pos hd]
        exact List.cons_ne_nil _ _
      · rw [List.takeWhile_cons_of_pos hd]
        exact fun heq => hzero (Option.some.inj heq)
      · intro c hc
        have hnot := List.head?_dropWhile_not CodePoint.isDigit (d :: more)
        rw [hc] at hnot
        exact hnot
    · cases h
  · cases h

theorem numberOf_eq_tooManyDigits_iff (negative : Bool) (whole : Text) (fraction : Option Text)
    (exponent : Option (Bool × Text)) : numberOf negative whole fraction exponent = .error .tooManyDigits ↔
      fraction = none ∧ exponent = none ∧ Decimal.maxDigits < whole.length := by
  cases fraction with
  | some fraction => exact iff_of_false (by rintro ⟨⟩) (by rintro ⟨⟨⟩, -⟩)
  | none =>
    cases exponent with
    | some exponent => exact iff_of_false (by rintro ⟨⟩) (by rintro ⟨-, ⟨⟩, -⟩)
    | none =>
      have hrefused := Decimal.readSigned_refusedIff negative (digitValues whole)
      have hlength : (digitValues whole).length = whole.length := List.length_map _
      rw [hlength] at hrefused
      rw [numberOf]
      cases hread : Decimal.readSigned negative (digitValues whole) with
      | ok n => exact iff_of_false (by rintro ⟨⟩) fun h => hrefused.not_of_ok hread h.2.2
      | error fault => exact iff_of_true rfl ⟨rfl, rfl, ((hrefused fault).1 hread).2⟩

theorem readNumber_eq_tooManyDigits_iff (text : Text) :
    readNumber text = .error .tooManyDigits ↔ StartsLongInteger text := by
  constructor
  · intro h
    cases hwhole : spanWhole (splitMinus text).2 with
    | none =>
      rw [readNumber_of_spanWhole_eq_none hwhole] at h
      cases h
    | some parts =>
      obtain ⟨whole, rest⟩ := parts
      rw [readNumber_of_spanWhole hwhole] at h
      cases hnumber : numberOf (splitMinus text).1 whole (spanFraction rest).1
          (spanExponent (spanFraction rest).2).1 with
      | ok v =>
        rw [hnumber] at h
        cases h
      | error stop =>
        rw [hnumber] at h
        cases h
        obtain ⟨hfraction, hexponent, hlong⟩ := (numberOf_eq_tooManyDigits_iff ..).1 hnumber
        rw [spanFraction_snd_of_none hfraction] at hexponent
        obtain ⟨sign, hsign, htext⟩ := splitMinus_eq text
        obtain ⟨hbody, rfl | ⟨hdigits, -, hzero, hhead⟩⟩ := spanWhole_eq_some hwhole
        · exact absurd hlong (by decide)
        · rw [htext, hbody]
          have hend := (not_continuesNumber_iff rest).2 ⟨hhead, hfraction, hexponent⟩
          exact .intro hsign hdigits hzero hlong hend
  · rintro ⟨hsign, hdigits, hzero, hlong, hend⟩
    rename_i sign whole rest
    have hne : whole ≠ [] := List.ne_nil_of_length_pos (Nat.zero_lt_of_lt hlong)
    obtain ⟨hhead, -, -⟩ := (not_continuesNumber_iff rest).1 hend
    have hbody : (splitMinus (sign ++ (whole ++ rest))).2 = whole ++ rest := by
      rcases hsign with rfl | rfl
      · obtain ⟨d, more, rfl⟩ := List.exists_cons_of_ne_nil hne
        rw [List.nil_append, List.cons_append, splitMinus_of_isDigit (hdigits d List.mem_cons_self)]
      · rfl
    have hwhole := spanWhole_append hdigits hne hzero hhead
    rw [← hbody] at hwhole
    rw [readNumber_of_spanWhole hwhole, spanFraction_eq_none hend]
    dsimp only
    rw [spanExponent_eq_none hend, (numberOf_eq_tooManyDigits_iff ..).2 ⟨rfl, rfl, hlong⟩]
    rfl

theorem StartsLongInteger.startsNumber {text : Text} (h : StartsLongInteger text) :
    Json.startsNumber text = true := by
  obtain ⟨hsign, hdigits, -, hlong, -⟩ := h
  rename_i sign whole rest
  obtain ⟨d, more, rfl⟩ := List.exists_cons_of_ne_nil (List.ne_nil_of_length_pos (Nat.zero_lt_of_lt hlong))
  have hd := hdigits d List.mem_cons_self
  rcases hsign with rfl | rfl
  · exact startsNumber_of_isDigit hd _
  · exact hd

/-- A word or a number at the start of a text is refused for its digits exactly if it is such an integer. -/
theorem readAtom_eq_tooManyDigits_iff (text : Text) :
    readAtom text = .error .tooManyDigits ↔ StartsLongInteger text := by
  rw [← readNumber_eq_tooManyDigits_iff]
  constructor
  · intro h
    unfold readAtom at h
    split at h
    · cases h
    · exact h
  · intro h
    rw [readAtom_of_startsNumber ((readNumber_eq_tooManyDigits_iff text).1 h).startsNumber]
    exact h

end FluentQuery.Json
