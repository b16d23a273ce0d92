/-
  The values of operands. An operand stands for a text, a truth value, a number or a list of such values,
  with integers of at most 4300 digits (`Operand.isOperand_of_parse`). So it can always be written for the
  wire, and no key stands in what is written but the tags of these values (`IsOperand.exists_writesAs`).
-/
import FluentQuery.Proofs.Query.Refusal
import FluentQuery.Proofs.Results
import FluentQuery.Proofs.Wire.RoundTrip

namespace FluentQuery

/-- A value that an operand can stand for. -/
inductive Value.IsOperand : Value → Prop
  | text (s : Text) : IsOperand (.text s)
  | bool (b : Bool) : IsOperand (.bool b)
  | int {n : Int} : n.natAbs < 10 ^ Decimal.maxDigits → IsOperand (.int n)
  | float (x : Binary64) : IsOperand (.float x)
  | list {items : List Value} : (∀ v ∈ items, IsOperand v) → IsOperand (.list items)

/-! ## Reading -/

namespace Numeral

theorem readDigits_lt_of_someDigits? {run : Text} {digits : List Nat}
    (h : Grouping.plain.someDigits? run = some digits) :
    Decimal.readDigits digits < 10 ^ digits.length := by
  unfold Grouping.someDigits? at h
  split at h
  · cases h
    decide
  · cases run with
    | nil => cases h
    | cons c run => exact Decimal.readDigits_lt_of_digitValues? h

/-- The digits before the point stand for a number of as many digits. -/
theorem readDigits_whole_lt {text : Text} {n : Numeral} (h : read? .plain text = some n) :
    Decimal.readDigits n.whole < 10 ^ n.whole.length := by
  simp only [read?, Option.bind_eq_bind, Option.bind_eq_some_iff] at h
  obtain ⟨whole, hwhole, h⟩ := h
  split at h
  · simp only [Option.bind_eq_some_iff] at h
    obtain ⟨fraction, -, exponent, -, h⟩ := h
    split at h
    · cases h
    · cases h
      exact readDigits_lt_of_someDigits? hwhole
  · simp only [Option.bind_eq_some_iff] at h
    obtain ⟨exponent, -, h⟩ := h
    split at h
    · cases h
    · cases h
      exact readDigits_lt_of_someDigits? hwhole

/-- An integer that is read can be written. -/
theorem natAbs_lt_of_toInt {text : Text} {n : Numeral} {i : Int} (h : read? .plain text = some n)
    (hi : n.toInt = .ok i) : i.natAbs < 10 ^ Decimal.maxDigits := by
  obtain ⟨m, hm, ⟨⟩⟩ := bind_eq_ok_iff.1 hi
  unfold Decimal.readBounded at hm
  split at hm
  · rename_i hlength
    cases hm
    have hlt : Decimal.readDigits n.whole < 10 ^ Decimal.maxDigits :=
      Nat.lt_of_lt_of_le (readDigits_whole_lt h) (Nat.pow_le_pow_right (by decide) hlength)
    split
    · rwa [Int.natAbs_neg, Int.natAbs_natCast]
    · rwa [Int.natAbs_natCast]
  · cases hm

end Numeral

namespace Operand

theorem isOperand_of_number? {text : Text} {result : Except Fault Value} {v : Value}
    (h : number? text = some result) (hv : result = .ok v) : v.IsOperand := by
  obtain ⟨n, hn, rfl⟩ := Option.map_eq_some_iff.1 h
  split at hv
  · obtain ⟨i, hi, rfl⟩ := map_eq_ok_iff.1 hv
    exact .int (Numeral.natAbs_lt_of_toInt hn hi)
  · cases hv
    exact .float _

theorem isOperand_of_atom {text : Text} {v : Value} (h : formOf text = .atom (.ok v)) :
    v.IsOperand := by
  unfold formOf at h
  split at h
  · cases h
    exact .text _
  · split at h
    · cases h
      exact .text _
    · split at h
      · cases h
        exact .bool true
      · split at h
        · cases h
          exact .bool false
        · split at h
          · cases h
          · rename_i c rest _ _ _ _ _
            cases hnumber : number? (c :: rest) with
            | none =>
              rw [hnumber] at h
              cases h
              exact .text _
            | some result =>
              rw [hnumber] at h
              exact isOperand_of_number? hnumber (Form.atom.inj h)

/-- Items are shorter than their list, so every operand stands for such a value. -/
theorem isOperand_of_parse {text : Text} {v : Value} (h : parse text = .ok v) : v.IsOperand := by
  induction hlength : text.length using Nat.strongRecOn generalizing text v with
  | ind length ih =>
    rw [parse_eq] at h
    cases hform : formOf text.trim with
    | atom result =>
      rw [hform] at h
      dsimp only at h
      rw [h] at hform
      exact isOperand_of_atom hform
    | items texts =>
      rw [hform] at h
      obtain ⟨values, hvalues, ⟨⟩⟩ := bind_eq_ok_iff.1 h
      refine .list fun v hv => ?_
      obtain ⟨item, hitem, hread⟩ := forall₂_exists_of_mem_right (mapM_eq_ok_iff.1 hvalues) hv
      have hshorter := length_lt_of_formOf hform item hitem
      have htrim := Text.length_trim_le text
      exact ih item.length (by omega) hread rfl

end Operand

/-! ## Writing -/

namespace Wire

/-- The keys in what is written for an operand. -/
def operandKeys : List Text :=
  ["stringValue", "booleanValue", "integerValue", "doubleValue", "arrayValue", "values"]

theorem under_tagged (name tag : Text) (payload : Value) : (tagged tag payload).under name =
    (if name = tag then [payload] else []) ++ payload.under name := by
  have hentries := Value.under_named name [(tag, payload)]
  rwa [List.flatMap_singleton] at hentries

theorem under_tagged_eq_nil {name tag : Text} {payload : Value} (htag : tag ∈ operandKeys)
    (hname : name ∉ operandKeys) (hpayload : payload.under name = []) :
    (tagged tag payload).under name = [] := by
  have hne : name ≠ tag := by
    rintro rfl
    exact hname htag
  rw [under_tagged, if_neg hne, hpayload]
  rfl

theorem encodeItems_eq (items : List Value) : encodeItems items = items.mapM encode := by
  induction items with
  | nil => rfl
  | cons item rest ih => rw [encodeItems, ih, List.mapM_cons]

end Wire

namespace Value

/-- The wire value is written for the value, and no key stands in it but those of operands. -/
structure WritesAs (v w : Value) : Prop where
  encode : Wire.encode v = .ok w
  under : ∀ name ∉ Wire.operandKeys, w.under name = []

theorem WritesAs.int {n : Int} (h : n.natAbs < 10 ^ Decimal.maxDigits) :
    WritesAs (.int n) (Wire.tagged "integerValue" (.text (Decimal.ofInt n))) where
  encode := (Wire.survives_int h).1
  under _ hname := Wire.under_tagged_eq_nil (by decide) hname rfl

theorem WritesAs.of_scalar {s t : Scalar} {tag : Text}
    (h : Wire.encodeScalar s = .ok (Wire.tagged tag (.scalar t))) (htag : tag ∈ Wire.operandKeys) :
    WritesAs (.scalar s) (Wire.tagged tag (.scalar t)) where
  encode := h
  under _ hname := Wire.under_tagged_eq_nil htag hname rfl

/-- Whole numbers are written as integers, and they are never too long for that. -/
theorem WritesAs.exists_float (x : Binary64) : ∃ w, WritesAs (.float x) w := by
  cases x with
  | nan => exact ⟨_, .of_scalar rfl (by decide)⟩
  | infinite negative => exact ⟨_, .of_scalar rfl (by decide)⟩
  | finite x =>
    by_cases hwhole : x.isIntegral = true
    · have hint := WritesAs.int (Wire.natAbs_truncate_lt_maxDigits x)
      refine ⟨_, ?_, hint.under⟩
      rw [Wire.encode, Wire.encodeScalar, if_pos hwhole]
      exact hint.encode
    · have hdouble : Wire.encodeScalar (.float (.finite x)) =
          .ok (Wire.tagged "doubleValue" (.float (.finite x))) := by
        rw [Wire.encodeScalar, if_neg hwhole]
      exact ⟨_, .of_scalar hdouble (by decide)⟩

theorem WritesAs.exists_list {items : List Value} (h : ∀ v ∈ items, ∃ w, WritesAs v w) :
    ∃ w, WritesAs (.list items) w := by
  obtain ⟨ws, hws⟩ : ∃ ws, items.mapM Wire.encode = .ok ws :=
    exists_mapM_eq_ok fun v hv => (h v hv).imp fun _ hw => hw.encode
  refine ⟨Wire.tagged "arrayValue" (Wire.tagged "values" (.list ws)), ?_, fun name hname => ?_⟩
  · rw [Wire.encode, Wire.encodeItems_eq, hws]
    rfl
  · have hitems : ∀ w ∈ ws, w.under name = [] := by
      intro w hw
      obtain ⟨v, hv, hencode⟩ := forall₂_exists_of_mem_right (mapM_eq_ok_iff.1 hws) hw
      obtain ⟨w', hw'⟩ := h v hv
      cases hencode.symm.trans hw'.encode
      exact hw'.under name hname
    refine Wire.under_tagged_eq_nil (by decide) hname
      (Wire.under_tagged_eq_nil (by decide) hname ?_)
    rw [under_list, List.flatMap_eq_nil_iff]
    exact hitems

/-- Every operand is written. -/
theorem IsOperand.exists_writesAs {v : Value} (h : v.IsOperand) : ∃ w, WritesAs v w := by
  induction h with
  | text s => exact ⟨_, .of_scalar rfl (by decide)⟩
  | bool b => exact ⟨_, .of_scalar rfl (by decide)⟩
  | int h => exact ⟨_, .int h⟩
  | float x => exact WritesAs.exists_float x
  | list _ ih => exact WritesAs.exists_list ih

end Value

end FluentQuery
