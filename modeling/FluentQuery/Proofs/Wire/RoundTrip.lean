/-
  Values survive the wire. Every value that documents can hold is written and read back as itself, but
  for whole floating-point numbers, which come back as integers; and what was read is written as
  before (`decode_encode`). Values without parts are settled by the reader of their tag (`read_tagged`),
  lists and maps by induction on the value.
-/
import FluentQuery.Proofs.Numeric.DecimalText
import FluentQuery.Proofs.Time.TimestampText
import FluentQuery.Proofs.Value.Entries
import FluentQuery.Wire.Decode
import FluentQuery.Wire.Encode

namespace FluentQuery

/-! ## The values that documents can hold -/

/-- A floating-point number that is no NaN. -/
def Number.IsProperFloat (x : Number) : Prop := ∃ y, y ≠ Binary64.nan ∧ x = .float y

/-- Whether a value without parts can be stored: integers have at most 4300 digits, floating-point
numbers are no NaN, points in time lie in the years 1000 to 9999. -/
def Scalar.Storable : Scalar → Prop
  | .null | .bool _ | .text _ | .reference _ => True
  | .int n => n.natAbs < 10 ^ Decimal.maxDigits
  | .float x => x ≠ .nan
  | .timestamp t => (CivilTime.firstSecond 1000 ≤ t.seconds ∧ t.seconds < CivilTime.firstSecond 10000) ∧
      0 ≤ t.nanoseconds ∧ t.nanoseconds < 10 ^ 9
  | .geoPoint p => p.latitude.IsProperFloat ∧ p.longitude.IsProperFloat
  | .foreign _ _ => False

/-- Whether a value can be stored; the keys of a map are texts, and each stands once. -/
inductive Value.Storable : Value → Prop
  | scalar {s : Scalar} : s.Storable → Storable (.scalar s)
  | list {items : List Value} : (∀ v ∈ items, Storable v) → Storable (.list items)
  | map {entries : List (Text × Value)} : (entries.map (·.1)).Nodup →
      (∀ e ∈ entries, Storable e.2) → Storable (.map (Entries.named entries))

/-- A whole floating-point number as an integer, anything else as it is. -/
def Scalar.settled : Scalar → Scalar
  | .float (.finite x) => if x.isIntegral then .int x.truncate else .float (.finite x)
  | s => s

mutual

/-- The value with every whole floating-point number as an integer, but for coordinates. -/
def Value.settled : Value → Value
  | .scalar s => .scalar s.settled
  | .list items => .list (settledItems items)
  | .map entries => .map (settledEntries entries)

/-- Several values with whole numbers as integers. -/
def Value.settledItems : List Value → List Value
  | [] => []
  | item :: rest => item.settled :: settledItems rest

/-- Entries with whole numbers as integers, each under its own key. -/
def Value.settledEntries : List (Key × Value) → List (Key × Value)
  | [] => []
  | (key, item) :: rest => (key, item.settled) :: settledEntries rest

end

namespace Wire

/-! ## One tag -/

theorem get?_singleton (name tag : Text) (payload : Value) :
    Entries.get? name [(.text tag, payload)] = if name = tag then some payload else none := by
  by_cases h : name = tag <;> simp [Entries.get?, Key.isText, Key.same, Scalar.sameKey, h]

theorem readFirst_tagged {tag : Text} {payload : Value}
    {rs : List (Text × (Value → Except Fault Reading))} {reader : Value → Except Fault Reading}
    (hmem : (tag, reader) ∈ rs) (hnodup : (rs.map (·.1)).Nodup) :
    readFirst [(.text tag, payload)] rs = reader payload := by
  induction rs with
  | nil => cases hmem
  | cons r rest ih =>
    obtain ⟨name, other⟩ := r
    rw [List.map_cons, List.nodup_cons] at hnodup
    unfold readFirst
    rw [get?_singleton]
    rcases List.mem_cons.1 hmem with heq | hrest
    · cases heq
      rw [if_pos rfl]
    · have hne : name ≠ tag := by
        rintro rfl
        exact hnodup.1 (List.mem_map.2 ⟨_, hrest, rfl⟩)
      rw [if_neg hne]
      exact ih hrest hnodup.2

theorem readers_nodup : (readers.map (·.1)).Nodup := by
  decide

/-- A map of one tag is read by the reader of that tag. -/
theorem read_tagged {tag : Text} {reader : Value → Except Fault Reading}
    (h : (tag, reader) ∈ readers) (payload : Value) : read (tagged tag payload) = reader payload :=
  readFirst_tagged h readers_nodup

/-- A payload without parts decodes to what the reader of its tag makes of it. -/
theorem decode_tagged {tag : Text} {reader : Value → Except Fault Reading} {payload v : Value}
    (i : Nat) (h : readers[i]? = some (tag, reader)) (hv : reader payload = .ok (.done v)) :
    decode (tagged tag payload) = .ok v := by
  rw [decode_eq, read_tagged (List.mem_of_getElem? h), hv]

/-! ## Values without parts -/

/-- A value that is written, is read back settled, and is written the same once it is settled. -/
def Survives (v : Value) : Prop :=
  ∃ w, encode v = .ok w ∧ decode w = .ok v.settled ∧ encode v.settled = .ok w

theorem survives_int {n : Int} (h : n.natAbs < 10 ^ Decimal.maxDigits) :
    encode (.int n) = .ok (tagged "integerValue" (.text (Decimal.ofInt n))) ∧
      decode (tagged "integerValue" (.text (Decimal.ofInt n))) = .ok (.int n) := by
  refine ⟨?_, decode_tagged 1 rfl ?_⟩
  · rw [encode, encodeScalar, integer, Decimal.write_eq h]
    rfl
  · unfold decodeInteger
    dsimp only
    rw [Decimal.readInt_ofInt h]
    rfl

theorem natAbs_truncate (x : FiniteBinary64) : x.truncate.natAbs = x.ratio.1 / x.ratio.2 := by
  unfold FiniteBinary64.truncate
  dsimp only
  rw [← Int.natCast_ediv]
  split
  · rw [Int.natAbs_neg, Int.natAbs_natCast]
  · rw [Int.natAbs_natCast]

theorem ratio_fst_le (x : FiniteBinary64) {scale : Nat} (h : x.exponent ≤ scale) :
    x.ratio.1 ≤ x.significand * 2 ^ scale := by
  unfold FiniteBinary64.ratio
  split
  · refine Nat.mul_le_mul_left _ (Nat.pow_le_pow_right (by decide) ?_)
    omega
  · exact Nat.le_mul_of_pos_right _ (Nat.two_pow_pos _)

theorem natAbs_truncate_lt (x : FiniteBinary64) {scale digits : Nat} (h : x.exponent ≤ scale)
    (hdigits : 53 + scale ≤ digits) : x.truncate.natAbs < 10 ^ digits := by
  rw [natAbs_truncate]
  calc x.ratio.1 / x.ratio.2 ≤ x.ratio.1 := Nat.div_le_self _ _
    _ ≤ x.significand * 2 ^ scale := ratio_fst_le x h
    _ < 2 ^ 53 * 2 ^ scale := Nat.mul_lt_mul_of_pos_right x.significand_lt (Nat.two_pow_pos _)
    _ = 2 ^ (53 + scale) := (Nat.pow_add 2 53 scale).symm
    _ ≤ 10 ^ (53 + scale) := Nat.pow_le_pow_left (by decide) _
    _ ≤ 10 ^ digits := Nat.pow_le_pow_right (by decide) hdigits

/-- Even the greatest floating-point number is an integer that can be written. -/
theorem natAbs_truncate_lt_maxDigits (x : FiniteBinary64) :
    x.truncate.natAbs < 10 ^ Decimal.maxDigits :=
  natAbs_truncate_lt x x.exponent_le (by decide)

theorem survives_float {x : Binary64} (hx : x ≠ .nan) : Survives (.float x) := by
  have hself (h : encode (.float x) = .ok (tagged "doubleValue" (.float x)))
      (hs : (Value.float x).settled = .float x) : Survives (.float x) := by
    refine ⟨_, h, ?_, hs.symm ▸ h⟩
    rw [hs]
    exact decode_tagged 2 rfl rfl
  cases x with
  | nan => exact absurd rfl hx
  | infinite negative => exact hself rfl rfl
  | finite x =>
    by_cases hwhole : x.isIntegral = true
    · obtain ⟨hencode, hdecode⟩ := survives_int (natAbs_truncate_lt_maxDigits x)
      have hs : (Value.float (.finite x)).settled = .int x.truncate := by
        rw [Value.settled, Scalar.settled, if_pos hwhole]
      refine ⟨_, ?_, hs.symm ▸ hdecode, hs.symm ▸ hencode⟩
      rw [← hencode, encode, encodeScalar, if_pos hwhole]
      rfl
    · refine hself ?_ ?_
      · rw [encode, encodeScalar, if_neg hwhole]
      · rw [Value.settled, Scalar.settled, if_neg hwhole]

theorem survives_timestamp {t : Timestamp} (hlo : CivilTime.firstSecond 1000 ≤ t.seconds)
    (hhi : t.seconds < CivilTime.firstSecond 10000) (hn : 0 ≤ t.nanoseconds)
    (hn' : t.nanoseconds < 10 ^ 9) : Survives (.timestamp t) := by
  obtain ⟨text, hformat, hparse⟩ := Timestamp.parse?_format hlo hhi hn hn'
  have hencode : encode (.timestamp t) = .ok (tagged "timestampValue" (.text text)) := by
    rw [encode, encodeScalar, hformat]
    rfl
  refine ⟨_, hencode, decode_tagged 5 rfl ?_, hencode⟩
  unfold decodeTimestamp Value.chars? Scalar.chars?
  dsimp only
  rw [Option.bind_some, hparse]
  rfl

theorem survives_geoPoint {p : GeoPoint} (hlat : p.latitude.IsProperFloat)
    (hlon : p.longitude.IsProperFloat) : Survives (.geoPoint p) := by
  obtain ⟨latitude, longitude⟩ := p
  obtain ⟨x, -, rfl⟩ := hlat
  obtain ⟨y, -, rfl⟩ := hlon
  exact ⟨_, rfl, decode_tagged 6 rfl rfl, rfl⟩

theorem survives_scalar {s : Scalar} (h : s.Storable) : Survives (.scalar s) := by
  cases s with
  | null => exact ⟨_, rfl, decode_tagged 4 rfl rfl, rfl⟩
  | bool b => exact ⟨_, rfl, decode_tagged 3 rfl rfl, rfl⟩
  | int n =>
    obtain ⟨hencode, hdecode⟩ := survives_int h
    exact ⟨_, hencode, hdecode, hencode⟩
  | float x => exact survives_float h
  | text s => exact ⟨_, rfl, decode_tagged 0 rfl rfl, rfl⟩
  | reference path => exact ⟨_, rfl, decode_tagged 9 rfl rfl, rfl⟩
  | timestamp t => exact survives_timestamp h.1.1 h.1.2 h.2.1 h.2.2
  | geoPoint p => exact survives_geoPoint h.1 h.2
  | foreign kind s => exact h.elim

/-! ## Lists and maps -/

theorem survives_items {items : List Value} (h : ∀ v ∈ items, Survives v) :
    ∃ ws, encodeItems items = .ok ws ∧ decodeAll ws = .ok (Value.settledItems items) ∧
      encodeItems (Value.settledItems items) = .ok ws := by
  induction items with
  | nil => exact ⟨[], rfl, rfl, rfl⟩
  | cons v rest ih =>
    obtain ⟨w, hencode, hdecode, hagain⟩ := h v (by simp)
    obtain ⟨ws, hencodes, hdecodes, hagains⟩ := ih fun u hu => h u (List.mem_cons_of_mem v hu)
    refine ⟨w :: ws, ?_, ?_, ?_⟩
    · rw [encodeItems, hencode, hencodes]
      rfl
    · unfold decodeAll at hdecodes ⊢
      rw [List.mapM_cons, hdecode, hdecodes]
      rfl
    · rw [Value.settledItems, encodeItems, hagain, hagains]
      rfl

/-- A list of wire values is read by reading them one by one; an empty one counts as absent. -/
theorem decode_array (ws : List Value) :
    decode (tagged "arrayValue" (.map [(.text "values", .list ws)])) =
      do return .list (← decodeAll ws) := by
  have hmem : (("arrayValue" : Text), readArray) ∈ readers := List.mem_of_getElem? (i := 7) rfl
  rw [decode_eq, read_tagged hmem]
  cases ws with
  | nil => rfl
  | cons w rest => rfl

theorem survives_list {items : List Value} (h : ∀ v ∈ items, Survives v) :
    Survives (.list items) := by
  obtain ⟨ws, hencode, hdecode, hagain⟩ := survives_items h
  refine ⟨tagged "arrayValue" (.map [(.text "values", .list ws)]), ?_, ?_, ?_⟩
  · rw [encode, hencode]
    rfl
  · rw [decode_array, hdecode]
    rfl
  · rw [Value.settled, encode, hagain]
    rfl

theorem survives_entries {entries : List (Text × Value)} (h : ∀ e ∈ entries, Survives e.2) :
    ∃ ws : List (Text × Value), ws.map (·.1) = entries.map (·.1) ∧
      encodeEntries (Entries.named entries) = .ok (Entries.named ws) ∧
      decodeEntries (Entries.named ws) = .ok (Value.settledEntries (Entries.named entries)) ∧
      encodeEntries (Value.settledEntries (Entries.named entries)) = .ok (Entries.named ws) := by
  induction entries with
  | nil => exact ⟨[], rfl, rfl, rfl, rfl⟩
  | cons e rest ih =>
    obtain ⟨name, v⟩ := e
    obtain ⟨w, hencode, hdecode, hagain⟩ := h (name, v) (by simp)
    obtain ⟨ws, hnames, hencodes, hdecodes, hagains⟩ :=
      ih fun u hu => h u (List.mem_cons_of_mem (name, v) hu)
    unfold Entries.named at hencodes hdecodes hagains ⊢
    refine ⟨(name, w) :: ws, ?_, ?_, ?_, ?_⟩
    · rw [List.map_cons, List.map_cons, hnames]
    · rw [List.map_cons, encodeEntries, hencode, hencodes]
      rfl
    · unfold decodeEntries at hdecodes ⊢
      rw [List.map_cons, List.mapM_cons, hdecodes]
      dsimp only
      rw [hdecode]
      rfl
    · rw [List.map_cons, Value.settledEntries, encodeEntries, hagain, hagains]
      rfl

/-- A map of wire values is read by reading the values, each under its own key. -/
theorem decode_map (es : Entries) :
    decode (tagged "mapValue" (.map [(.text "fields", .map es)])) =
      do return .map (← decodeEntries es) := by
  have hmem : (("mapValue" : Text), readMap) ∈ readers := List.mem_of_getElem? (i := 8) rfl
  rw [decode_eq, read_tagged hmem]
  rfl

theorem survives_map {entries : List (Text × Value)} (hnodup : (entries.map (·.1)).Nodup)
    (h : ∀ e ∈ entries, Survives e.2) : Survives (.map (Entries.named entries)) := by
  obtain ⟨ws, hnames, hencode, hdecode, hagain⟩ := survives_entries h
  have hlist := Entries.ofList_named (hnames.symm ▸ hnodup)
  refine ⟨tagged "mapValue" (.map [(.text "fields", .map (Entries.named ws))]), ?_, ?_, ?_⟩
  · rw [encode, hencode]
    exact congrArg (fun es => Except.ok (tagged "mapValue" (.map [(.text "fields", .map es)]))) hlist
  · rw [decode_map, hdecode]
    rfl
  · rw [Value.settled, encode, hagain]
    exact congrArg (fun es => Except.ok (tagged "mapValue" (.map [(.text "fields", .map es)]))) hlist

/-! ## Every value -/

/-- Every value that documents can hold is written, what is written is read as the value with its
whole floating-point numbers as integers, and what was read is written as before. -/
theorem decode_encode {v : Value} (h : v.Storable) :
    ∃ w, encode v = .ok w ∧ decode w = .ok v.settled ∧ encode v.settled = .ok w := by
  induction h with
  | scalar hs => exact survives_scalar hs
  | list _ ih => exact survives_list ih
  | map hnodup _ ih => exact survives_map hnodup ih

/-- A map with a list in it: the floating-point 1 becomes an integer, the path stays a reference. -/
theorem decode_encode_visit :
    ∃ w, encode (.map [(.text "scores", .list [.float (.finite
          ⟨false, 2 ^ 52, -52, by decide, by decide, by decide, by decide⟩), .null]),
        (.text "by", .reference "users/ann"), (.text "at", .timestamp ⟨1705314600, 500⟩)]) = .ok w ∧
      decode w = .ok (.map [(.text "scores", .list [.int 1, .null]),
        (.text "by", .reference "users/ann"), (.text "at", .timestamp ⟨1705314600, 500⟩)]) ∧
      encode (.map [(.text "scores", .list [.int 1, .null]), (.text "by", .reference "users/ann"),
        (.text "at", .timestamp ⟨1705314600, 500⟩)]) = .ok w := by
  refine decode_encode (v := .map (Entries.named [("scores", .list [_, .null]),
    ("by", .reference "users/ann"), ("at", .timestamp ⟨1705314600, 500⟩)])) ?_
  refine .map (by decide) fun e he => ?_
  simp only [List.mem_cons, List.not_mem_nil, or_false] at he
  rcases he with rfl | rfl | rfl
  · refine .list fun v hv => ?_
    simp only [List.mem_cons, List.not_mem_nil, or_false] at hv
    rcases hv with rfl | rfl
    · exact .scalar (by simp [Scalar.Storable])
    · exact .scalar trivial
  · exact .scalar trivial
  · exact .scalar ⟨⟨by decide, by decide⟩, by decide, by decide⟩

end Wire

end FluentQuery
