/-
  JSON strings read back. Four hexadecimal digits are read as the number that they were written for
  (`hexNumber?_hex`), so an escape is read as its character, and two escapes as the one character that
  needs a pair (`readUnicode_pair`). `readString_stringChar`: a character takes one step, however it is
  written; `readString_flatMap`: a text without surrogates is read up to its closing quote.
-/
import FluentQuery.Json.Printer
import FluentQuery.Json.Reader
import Mathlib

namespace FluentQuery

/-- The text is one of characters: no surrogate stands in it on its own. -/
abbrev Text.NoSurrogates (s : Text) : Prop := ∀ c ∈ s, c.isSurrogate = false

/-! ## Hexadecimal digits -/

namespace Text

theorem hex_one {d : Nat} (h : d < 16) : hex 1 d = [CodePoint.char d.digitChar] := by
  rw [hex, Nat.toDigits_of_lt_base h]
  rfl

/-- The last digit is the rest of a division, the digits before it are those of the quotient. -/
theorem hex_succ {width : Nat} (h : 0 < width) (n : Nat) :
    hex (width + 1) n = hex width (n / 16) ++ [CodePoint.char (n % 16).digitChar] := by
  unfold hex padLeft filled
  by_cases hn : n < 16
  · rw [Nat.div_eq_of_lt hn, Nat.mod_eq_of_lt hn, Nat.toDigits_of_lt_base hn,
      Nat.toDigits_of_lt_base (by decide)]
    have hzero : ofChars [Nat.digitChar 0] = [CodePoint.char '0'] := rfl
    have hwidth : width - 1 + 1 = width := by omega
    rw [hzero, List.length_singleton, ← List.replicate_succ', hwidth]
    rfl
  · rw [Nat.toDigits_of_base_le (by decide) (Nat.not_lt.1 hn), ofChars_append, List.length_append,
      ← List.append_assoc]
    have hlength : (ofChars [(n % 16).digitChar]).length = 1 := rfl
    rw [hlength, Nat.add_sub_add_right]
    rfl

theorem hex_four {n : Nat} (h : n < 0x10000) : hex 4 n =
    [CodePoint.char (n / 0x1000).digitChar, CodePoint.char (n / 0x100 % 16).digitChar,
      CodePoint.char (n / 0x10 % 16).digitChar, CodePoint.char (n % 16).digitChar] := by
  have hsecond : n / 16 / 16 = n / 0x100 := Nat.div_div_eq_div_mul n 16 16
  have hfirst : n / 0x100 / 16 = n / 0x1000 := Nat.div_div_eq_div_mul n 0x100 16
  rw [hex_succ (by decide), hex_succ (by decide), hex_succ (by decide), hsecond, hfirst,
    hex_one (by omega)]
  rfl

end Text

theorem CodePoint.ofNat_toNat_char (c : Char) : CodePoint.ofNat c.toNat = .char c := by
  have hvalid := c.valid
  have hval : c.val.toNat = c.toNat := rfl
  rw [UInt32.isValidChar, Nat.isValidChar, hval] at hvalid
  rw [CodePoint.ofNat, dif_neg (by omega), Char.ofNat_toNat]

namespace Json

theorem hexValue?_digitChar {d : Nat} (h : d < 16) : hexValue? d.digitChar = some d := by
  have : ∀ d < 16, hexValue? (Nat.digitChar d) = some d := by decide
  exact this d h

theorem hexNumber?_hex {n : Nat} (h : n < 0x10000) : hexNumber? (Text.hex 4 n) = some n := by
  rw [Text.hex_four h, hexNumber?, hexValue?_digitChar (by omega), hexValue?_digitChar (by omega),
    hexValue?_digitChar (by omega), hexValue?_digitChar (by omega)]
  refine congrArg some ?_
  omega

theorem length_hex {n : Nat} (h : n < 0x10000) : (Text.hex 4 n).length = 4 := by
  rw [Text.hex_four h]
  rfl

theorem readHex_hex {n : Nat} (h : n < 0x10000) {rest : Text} (hne : rest ≠ []) :
    readHex (Text.hex 4 n ++ rest) = .ok (n, rest) := by
  have hlength := length_hex h
  have hpos := List.length_pos_of_ne_nil hne
  unfold readHex
  dsimp only
  rw [if_neg (by rw [List.length_append]; omega), List.take_left' hlength, List.drop_left' hlength,
    hexNumber?_hex h]

/-! ## Escapes -/

theorem unicodeEscape_append (n : Nat) (rest : Text) : unicodeEscape n ++ rest =
    Text.backslash :: CodePoint.char 'u' :: (Text.hex 4 n ++ rest) := rfl

/-- What is no first half of a pair stands on its own, whatever escape follows. -/
theorem readUnicode_hex {n : Nat} (h : n < 0x10000) (hhigh : isHighSurrogate n = false) {rest : Text}
    (hne : rest ≠ []) : readUnicode (Text.hex 4 n ++ rest) = .ok (CodePoint.ofNat n, rest) := by
  unfold readUnicode
  rw [readHex_hex h hne]
  dsimp only [bind, Except.bind]
  split
  · rw [hhigh, Bool.false_and, if_neg Bool.false_ne_true]
    rfl
  · rfl

/-- The two halves of a pair are read as one character. -/
theorem readUnicode_pair {n : Nat} (h : n < 0x100000) {rest : Text} (hne : rest ≠ []) :
    readUnicode (Text.hex 4 (0xD800 + n / 0x400) ++ (unicodeEscape (0xDC00 + n % 0x400) ++ rest)) =
      .ok (CodePoint.ofNat (0x10000 + n), rest) := by
  have hhigh : isHighSurrogate (0xD800 + n / 0x400) = true := by
    simp only [isHighSurrogate, Bool.and_eq_true, decide_eq_true_eq]
    omega
  have hlow : isLowSurrogate (0xDC00 + n % 0x400) = true := by
    simp only [isLowSurrogate, Bool.and_eq_true, decide_eq_true_eq]
    omega
  have hpos := List.length_pos_of_ne_nil hne
  have hlength : 4 < (Text.hex 4 (0xDC00 + n % 0x400) ++ rest).length := by
    rw [List.length_append, length_hex (by omega)]
    omega
  have hnumber : 0x10000 + (0xD800 + n / 0x400 - 0xD800) * 0x400 + (0xDC00 + n % 0x400 - 0xDC00) =
      0x10000 + n := by omega
  unfold readUnicode
  rw [readHex_hex (by omega) (by simp [unicodeEscape])]
  dsimp only [bind, Except.bind]
  split
  · rename_i more hmore
    obtain ⟨rfl⟩ : Text.hex 4 (0xDC00 + n % 0x400) ++ rest = more :=
      (List.cons.inj (List.cons.inj hmore).2).2
    rw [hhigh, Bool.true_and, if_pos (decide_eq_true hlength), readHex_hex (by omega) hne]
    dsimp only
    rw [if_pos hlow, hnumber]
    rfl
  · rename_i hother
    exact absurd rfl (hother (Text.hex 4 (0xDC00 + n % 0x400) ++ rest))

/-! ## Strings -/

section

variable {opening steps : Nat}

/-- What a step reads of the rest, with its own character in front. -/
theorem readString_escape {d : CodePoint} {text rest : Text} (h : readUnicode text = .ok (d, rest)) :
    readString opening (steps + 1) (Text.backslash :: CodePoint.char 'u' :: text) =
      (fun found : Text × Text => (d :: found.1, found.2)) <$> readString opening steps rest := by
  rw [readString, if_neg (by decide), if_pos (by decide), h]
  dsimp only [bind, Except.bind]
  cases readString opening steps rest <;> rfl

theorem shortEscape_of_escapeLetters :
    ∀ p ∈ escapeLetters, shortEscape? p.2 = some p.1 ∧ p.2 ≠ 'u' := by decide

theorem readString_letter {c letter : CodePoint} (h : escapeLetters.lookup c = some letter) (rest : Text) :
    readString opening (steps + 1) (Text.backslash :: letter :: rest) =
      (fun found : Text × Text => (c :: found.1, found.2)) <$> readString opening steps rest := by
  obtain ⟨front, back, hletters, -⟩ := List.lookup_eq_some_iff.1 h
  obtain ⟨hshort, hu⟩ := shortEscape_of_escapeLetters (c, letter) (by rw [hletters]; simp)
  rw [readString, if_neg (by decide), if_pos (by decide), hshort]
  · dsimp only [bind, Except.bind]
    cases readString opening steps rest <;> rfl
  · exact hu

theorem readString_plain {c : CodePoint} (h : escapeLetters.lookup c = none) (hcontrol : 0x20 ≤ c.toNat)
    (rest : Text) : readString opening (steps + 1) (c :: rest) =
      (fun found : Text × Text => (c :: found.1, found.2)) <$> readString opening steps rest := by
  have hquote : c ≠ '\x22' := by
    rintro rfl
    exact absurd h (by decide)
  have hslash : c ≠ '\x5c' := by
    rintro rfl
    exact absurd h (by decide)
  conv_lhs => unfold readString
  rw [if_neg hquote, if_neg hslash, if_neg (Nat.not_lt.2 hcontrol)]
  dsimp only [bind, Except.bind]
  cases readString opening steps rest <;> rfl

/-- A character is read in one step, as itself, by a letter, by its number, or by a pair. -/
theorem readString_stringChar (escaping : Escaping) (c : Char) {rest : Text} (hne : rest ≠ []) :
    readString opening (steps + 1) (stringChar escaping (.char c) ++ rest) =
      (fun found : Text × Text => (.char c :: found.1, found.2)) <$> readString opening steps rest := by
  have hvalid := c.valid
  have hval : c.val.toNat = c.toNat := rfl
  rw [UInt32.isValidChar, Nat.isValidChar, hval] at hvalid
  -- an escape of its own is no first half of a pair, for a character is no surrogate
  have hescape (hshort : c.toNat < 0x10000) : readString opening (steps + 1)
      (unicodeEscape c.toNat ++ rest) =
        (fun found : Text × Text => (.char c :: found.1, found.2)) <$> readString opening steps rest := by
    have hhigh : isHighSurrogate c.toNat = false := by
      simp only [isHighSurrogate, Bool.and_eq_false_iff, decide_eq_false_iff_not]
      omega
    rw [unicodeEscape_append]
    refine readString_escape ?_
    rw [readUnicode_hex hshort hhigh hne, CodePoint.ofNat_toNat_char]
  unfold stringChar
  split
  · rename_i letter hletter
    exact readString_letter hletter rest
  · rename_i hnone
    rw [CodePoint.toNat_char]
    split
    · exact hescape (by omega)
    · split
      · exact readString_plain hnone (by rw [CodePoint.toNat_char]; omega) rest
      · split
        · exact hescape (by assumption)
        · dsimp only
          rw [List.append_assoc, unicodeEscape_append]
          refine readString_escape ?_
          rw [readUnicode_pair (by omega) hne, Nat.add_sub_cancel' (by omega),
            CodePoint.ofNat_toNat_char]

theorem stringChar_ne_nil (escaping : Escaping) (c : CodePoint) : stringChar escaping c ≠ [] := by
  unfold stringChar
  split
  · exact List.cons_ne_nil _ _
  · repeat' split
    all_goals exact List.cons_ne_nil _ _

end

/-- A text without surrogates is read up to the quote that closes it. -/
theorem readString_flatMap (escaping : Escaping) {s : Text} (h : s.NoSurrogates)
    {opening steps : Nat} (hsteps : s.length < steps) (rest : Text) :
    readString opening steps (s.flatMap (stringChar escaping) ++ CodePoint.char '\x22' :: rest) =
      .ok (s, rest) := by
  induction s generalizing steps with
  | nil =>
    obtain ⟨steps, rfl⟩ := Nat.exists_eq_add_one_of_ne_zero (Nat.ne_of_gt hsteps)
    rw [List.flatMap_nil, List.nil_append]
    unfold readString
    rw [if_pos rfl]
  | cons c s ih =>
    obtain ⟨steps, rfl⟩ := Nat.exists_eq_add_one_of_ne_zero (Nat.ne_of_gt (Nat.zero_lt_of_lt hsteps))
    have hrest := ih (fun d hd => h d (List.mem_cons_of_mem c hd)) (Nat.lt_of_succ_lt_succ hsteps)
    cases c with
    | surrogate offset => cases h _ List.mem_cons_self
    | char c =>
      rw [List.flatMap_cons, List.append_assoc, readString_stringChar escaping c (by simp), hrest]
      rfl

/-- What stands behind the opening quote of a string. -/
def closedString (escaping : Escaping) (s : Text) : Text :=
  s.flatMap (stringChar escaping) ++ [CodePoint.char '\x22']

theorem string_eq (escaping : Escaping) (s : Text) :
    string escaping s = CodePoint.char '\x22' :: closedString escaping s := rfl

/-- A printed string is read back with as many steps as there are characters left. -/
theorem readString_closedString (escaping : Escaping) {s : Text} (h : s.NoSurrogates) (opening : Nat)
    (rest : Text) : readString opening (closedString escaping s ++ rest).length
      (closedString escaping s ++ rest) = .ok (s, rest) := by
  have hlength : s.length ≤ (s.flatMap (stringChar escaping)).length := by
    have hsum := List.length_le_sum_of_one_le (s.map fun c => (stringChar escaping c).length) fun i hi => by
      obtain ⟨c, -, rfl⟩ := List.mem_map.1 hi
      exact List.length_pos_of_ne_nil (stringChar_ne_nil escaping c)
    rwa [List.length_map, ← List.length_flatMap] at hsum
  rw [closedString, List.append_assoc, List.singleton_append]
  refine readString_flatMap escaping h ?_ rest
  rw [List.length_append, List.length_cons]
  omega

end Json

end FluentQuery
