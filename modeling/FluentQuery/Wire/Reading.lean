/-
  Reading the outermost level of a wire value: the reader of the first tag of a fixed order, and the
  wire values that it leaves to be read. `sizeOf_lt_of_read`: they are smaller than what was read, so
  reading level by level ends.
-/
import FluentQuery.Wire.Payload

namespace FluentQuery.Wire

/-- What has been read off a wire value before its parts are read. -/
inductive Reading where
  /-- The decoded value. -/
  | done (value : Value)
  /-- A list of wire values. -/
  | items (values : List Value)
  /-- A map with wire values under its keys. -/
  | entries (entries : Entries)

/-- A value that is present, or nothing. -/
def present? (value : Option Value) : Option Value := value.filter Value.isTruthy

/-- The members of an array payload. Texts and maps have members too, but none that carries a tag. -/
def readArray (payload : Value) : Except Fault Reading := do
  let array ← entriesOf payload
  match present? (array.get? "values") with
  | none => return .done (.list [])
  | some (.list items) => return .items items
  | some (.map members) => return .done (.list (members.map fun _ => .null))
  | some value =>
    match value.chars? with
    | some chars => return .done (.list (chars.map fun _ => .null))
    | none => throw .wrongKind

/-- The entries of a field map; one that counts as absent has none. -/
def readFields (fields : Value) : Except Fault Reading := do
  return .entries (← entriesOf fields)

/-- The entries of a map payload. -/
def readMap (payload : Value) : Except Fault Reading := do
  let map ← entriesOf payload
  match map.get? "fields" with
  | none => return .done (.map [])
  | some fields => readFields fields

mutual

/-- Whether two keys have an order. -/
def comparable : Key → Key → Bool
  | .scalar s, .scalar t =>
    match s, t with
    | .bool _, t | .int _, t | .float _, t =>
      match t with
      | .bool _ | .int _ | .float _ => true
      | _ => false
    | s, t => s.chars?.isSome && t.chars?.isSome
  | .tuple items, .tuple others => comparableAll items others
  | _, _ => false

/-- Whether the first difference of two lists of keys has an order. -/
def comparableAll : List Key → List Key → Bool
  | key :: rest, other :: others =>
    if key.same other then comparableAll rest others else comparable key other
  | _, _ => true

end

/-- Whether the keys can be brought into order. -/
def sortable : List Key → Bool
  | [] => true
  | key :: rest => rest.all (comparable key) && sortable rest

/-- The answer to a map without a tag: nothing, and the keys must have an order to be listed. -/
def untagged (entries : Entries) : Except Fault Reading :=
  if sortable (entries.map (·.1)) then .ok (.done .null) else .error .wrongKind

/-- The tags in the order in which they are looked for, each with the reader of its payload. -/
def readers : List (Text × (Value → Except Fault Reading)) :=
  [("stringValue", fun payload => .ok (.done payload)),
    ("integerValue", fun payload => .done <$> decodeInteger payload),
    ("doubleValue", fun payload => .done <$> decodeDouble payload),
    ("booleanValue", fun payload => .ok (.done (.bool payload.isTruthy))),
    ("nullValue", fun _ => .ok (.done .null)),
    ("timestampValue", fun payload => .done <$> decodeTimestamp payload),
    ("geoPointValue", fun payload => .done <$> decodeGeoPoint payload),
    ("arrayValue", readArray),
    ("mapValue", readMap),
    ("referenceValue", fun payload => do return .done (.reference (← payload.toText)))]

/-- Reads the payload of the first tag that the entries have. -/
def readFirst (entries : Entries) :
    List (Text × (Value → Except Fault Reading)) → Except Fault Reading
  | [] => untagged entries
  | (tag, reader) :: rest =>
    match entries.get? tag with
    | some payload => reader payload
    | none => readFirst entries rest

/-- Reads the outermost level of a wire value. What is no map, or has no entries, is nothing. -/
def read : Value → Except Fault Reading
  | .map (entry :: rest) => readFirst (entry :: rest) readers
  | _ => .ok (.done .null)

/-- The parts that are still to be read. -/
def Reading.parts : Reading → List Value
  | done _ => []
  | items values => values
  | entries es => es.map (·.2)

theorem sizeOf_lt_of_get? {name : Text} {entries : Entries} {v : Value}
    (h : entries.get? name = some v) : sizeOf v < sizeOf entries := by
  obtain ⟨k, hk⟩ := Entries.mem_of_get? h
  have h1 := List.sizeOf_lt_of_mem hk
  have h2 : sizeOf (k, v) = 1 + sizeOf k + sizeOf v := rfl
  omega

theorem sizeOf_entriesOf_le {value : Value} {entries : Entries}
    (h : entriesOf value = .ok entries) : sizeOf entries ≤ sizeOf value := by
  unfold entriesOf at h
  split at h
  · cases h
    simp only [Value.map.sizeOf_spec]
    omega
  · split at h
    · cases h
    · cases h
      cases value <;> simp

theorem sizeOf_lt_of_mem_parts_entries {es : Entries} {w : Value}
    (h : w ∈ (Reading.entries es).parts) : sizeOf w < sizeOf es := by
  obtain ⟨⟨k, v⟩, hk, rfl⟩ := List.mem_map.1 h
  have h1 := List.sizeOf_lt_of_mem hk
  have h2 : sizeOf (k, v) = 1 + sizeOf k + sizeOf v := rfl
  simp only
  omega

/-- The parts that a reader leaves are smaller than its payload. -/
def Shrinks (reader : Value → Except Fault Reading) : Prop :=
  ∀ payload r, reader payload = .ok r → ∀ w ∈ r.parts, sizeOf w < sizeOf payload

theorem shrinks_of_done {reader : Value → Except Fault Reading}
    (h : ∀ payload r, reader payload = .ok r → ∃ v, r = .done v) : Shrinks reader := by
  intro payload r hr w hw
  obtain ⟨v, rfl⟩ := h payload r hr
  simp [Reading.parts] at hw

theorem exists_done_of_map {decoded : Except Fault Value} {r : Reading}
    (h : Reading.done <$> decoded = .ok r) : ∃ v, r = .done v := by
  cases decoded with
  | error fault => cases h
  | ok v => cases h; exact ⟨v, rfl⟩

theorem shrinks_readArray : Shrinks readArray := by
  intro payload r hr w hw
  unfold readArray at hr
  cases he : entriesOf payload with
  | error fault => rw [he] at hr; cases hr
  | ok array =>
    rw [he] at hr
    have hle := sizeOf_entriesOf_le he
    simp only [bind, Except.bind, pure, Except.pure] at hr
    split at hr
    · cases hr; simp [Reading.parts] at hw
    · rename_i items hitems
      cases hr
      simp only [Reading.parts] at hw
      have hget : array.get? "values" = some (.list items) := by
        simpa [present?] using (Option.filter_eq_some_iff.1 hitems).1
      have h1 := sizeOf_lt_of_get? hget
      have h2 := List.sizeOf_lt_of_mem hw
      have h3 : sizeOf (Value.list items) = 1 + sizeOf items := Value.list.sizeOf_spec items
      omega
    · cases hr; simp [Reading.parts] at hw
    · split at hr
      · cases hr; simp [Reading.parts] at hw
      · cases hr

theorem shrinks_readFields : Shrinks readFields := by
  intro payload r hr w hw
  unfold readFields at hr
  cases he : entriesOf payload with
  | error fault => rw [he] at hr; cases hr
  | ok es =>
    rw [he] at hr
    cases hr
    exact Nat.lt_of_lt_of_le (sizeOf_lt_of_mem_parts_entries hw) (sizeOf_entriesOf_le he)

theorem shrinks_readMap : Shrinks readMap := by
  intro payload r hr w hw
  unfold readMap at hr
  cases he : entriesOf payload with
  | error fault => rw [he] at hr; cases hr
  | ok map =>
    rw [he] at hr
    simp only [bind, Except.bind, pure, Except.pure] at hr
    split at hr
    · cases hr; simp [Reading.parts] at hw
    · rename_i fields hfields
      have h1 := sizeOf_lt_of_get? hfields
      have h2 := sizeOf_entriesOf_le he
      have h3 := shrinks_readFields _ _ hr _ hw
      omega

theorem shrinks_of_mem_readers {tag : Text} {reader : Value → Except Fault Reading}
    (h : (tag, reader) ∈ readers) : Shrinks reader := by
  simp only [readers, List.mem_cons, List.not_mem_nil, or_false, Prod.mk.injEq] at h
  rcases h with h | h | h | h | h | h | h | h | h | h <;> obtain ⟨-, rfl⟩ := h
  · exact shrinks_of_done fun _ _ hr => by cases hr; exact ⟨_, rfl⟩
  · exact shrinks_of_done fun _ _ hr => exists_done_of_map hr
  · exact shrinks_of_done fun _ _ hr => exists_done_of_map hr
  · exact shrinks_of_done fun _ _ hr => by cases hr; exact ⟨_, rfl⟩
  · exact shrinks_of_done fun _ _ hr => by cases hr; exact ⟨_, rfl⟩
  · exact shrinks_of_done fun _ _ hr => exists_done_of_map hr
  · exact shrinks_of_done fun _ _ hr => exists_done_of_map hr
  · exact shrinks_readArray
  · exact shrinks_readMap
  · refine shrinks_of_done fun payload r hr => ?_
    cases ht : payload.toText with
    | error fault => simp only [ht] at hr; cases hr
    | ok path => simp only [ht] at hr; cases hr; exact ⟨_, rfl⟩

theorem sizeOf_lt_of_readFirst {entries : Entries}
    {rs : List (Text × (Value → Except Fault Reading))} (hrs : ∀ r ∈ rs, Shrinks r.2)
    {r : Reading} (h : readFirst entries rs = .ok r) :
    ∀ w ∈ r.parts, sizeOf w < sizeOf entries := by
  induction rs with
  | nil =>
    intro w hw
    unfold readFirst untagged at h
    split at h
    · cases h; simp [Reading.parts] at hw
    · cases h
  | cons reader rest ih =>
    unfold readFirst at h
    split at h
    · rename_i payload hget
      intro w hw
      have h1 := hrs reader (by simp) _ _ h w hw
      have h2 := sizeOf_lt_of_get? hget
      omega
    · exact ih (fun r hr => hrs r (List.mem_cons_of_mem _ hr)) h

/-- What is left to be read of a wire value is smaller than the wire value. -/
theorem sizeOf_lt_of_read {value : Value} {r : Reading} (h : read value = .ok r) :
    ∀ w ∈ r.parts, sizeOf w < sizeOf value := by
  intro w hw
  unfold read at h
  split at h
  · rename_i entry rest
    have h1 := sizeOf_lt_of_readFirst (fun r hr => @shrinks_of_mem_readers r.1 r.2 hr) h w hw
    have h2 := Value.map.sizeOf_spec (entry :: rest)
    omega
  · cases h; simp [Reading.parts] at hw

end FluentQuery.Wire
