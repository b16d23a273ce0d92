/-
  Dynamic values: what a document field can hold, what a filter compares with, and what the wire
  carries. Maps keep their entries in insertion order; writing to a key that is there replaces the
  value and leaves the entry in place.
-/
import FluentQuery.Numeric.Binary64
import FluentQuery.Text.Basic
import FluentQuery.Time.Timestamp

namespace FluentQuery

/-- An integer of any size or a floating-point number. -/
inductive Number where
  | int (n : Int)
  | float (x : Binary64)
  deriving DecidableEq, Repr

/-- Whether two numbers are the same number, in whatever form. -/
def Number.same : Number → Number → Bool
  | int m, int n => m = n
  | int n, float x | float x, int n => x.eqInt n
  | float x, float y => x.numEq y

/-- A place on the globe. -/
structure GeoPoint where
  latitude : Number
  longitude : Number
  deriving DecidableEq, Repr

/-- A value without parts. -/
inductive Scalar where
  | null
  | bool (b : Bool)
  | int (n : Int)
  | float (x : Binary64)
  | text (s : Text)
  /-- The path of another document. -/
  | reference (path : Text)
  | timestamp (t : Timestamp)
  | geoPoint (p : GeoPoint)
  /-- An object from outside the value domain, known by its kind and its text. -/
  | foreign (kind text : Text)
  deriving DecidableEq, Repr

/-- What can be the key of a map entry. -/
inductive Key where
  | scalar (s : Scalar)
  | tuple (items : List Key)
  deriving Repr

/-- A dynamic value. -/
inductive Value where
  | scalar (s : Scalar)
  | list (items : List Value)
  | map (entries : List (Key × Value))
  deriving Repr

/-- The entries of a map in insertion order. -/
abbrev Entries := List (Key × Value)

namespace Scalar

/-- Equality of keys without parts: truth values count as the numbers 0 and 1, numbers are compared
as numbers, and a reference equals the text of its path. -/
def sameKey : Scalar → Scalar → Bool
  | text s, text t | text s, reference t | reference s, text t | reference s, reference t => s = t
  | bool a, bool b => a = b
  | bool a, int n | int n, bool a => n = a.toInt
  | bool a, float x | float x, bool a => x.eqInt a.toInt
  | int m, int n => m = n
  | int n, float x | float x, int n => x.eqInt n
  | float x, float y => x.numEq y
  | null, null => true
  | timestamp s, timestamp t => s = t
  | geoPoint p, geoPoint q =>
    p.latitude.same q.latitude && p.longitude.same q.longitude
  | foreign kind s, foreign kind' t => kind = kind' && s = t
  | _, _ => false

/-- Whether the value counts as present: nulls, `false`, zeros and empty texts do not. -/
def isTruthy : Scalar → Bool
  | null => false
  | bool b => b
  | int n => n ≠ 0
  | float x => !x.isZero
  | text s => s ≠ []
  | reference s => s ≠ []
  | timestamp _ => true
  | geoPoint _ => true
  | foreign _ _ => true

/-- The characters of a text or of the path of a reference. -/
def chars? : Scalar → Option Text
  | text s => some s
  | reference s => some s
  | _ => none

end Scalar

namespace Key

/-- The key that is a text. -/
@[match_pattern] abbrev text (s : Text) : Key := .scalar (.text s)

mutual

/-- Whether two keys name the same entry. -/
def same : Key → Key → Bool
  | scalar s, scalar t => s.sameKey t
  | tuple items, tuple others => sameAll items others
  | _, _ => false

/-- Whether two lists of keys agree place by place. -/
def sameAll : List Key → List Key → Bool
  | [], [] => true
  | k :: ks, l :: ls => same k l && sameAll ks ls
  | _, _ => false

end

/-- Whether the key is this text, or a reference with this path. -/
def isText (name : Text) (key : Key) : Bool := same (text name) key

end Key

namespace Value

@[match_pattern] abbrev null : Value := .scalar .null
@[match_pattern] abbrev bool (b : Bool) : Value := .scalar (.bool b)
@[match_pattern] abbrev int (n : Int) : Value := .scalar (.int n)
@[match_pattern] abbrev float (x : Binary64) : Value := .scalar (.float x)
@[match_pattern] abbrev text (s : Text) : Value := .scalar (.text s)
@[match_pattern] abbrev reference (path : Text) : Value := .scalar (.reference path)
@[match_pattern] abbrev timestamp (t : Timestamp) : Value := .scalar (.timestamp t)
@[match_pattern] abbrev geoPoint (p : GeoPoint) : Value := .scalar (.geoPoint p)
@[match_pattern] abbrev foreign (kind s : Text) : Value := .scalar (.foreign kind s)

/-- Whether the value counts as present; empty lists and maps do not. -/
def isTruthy : Value → Bool
  | scalar s => s.isTruthy
  | list items => !items.isEmpty
  | map entries => !entries.isEmpty

/-- The characters of a text or of the path of a reference. -/
def chars? : Value → Option Text
  | scalar s => s.chars?
  | _ => none

end Value

/-- The value as a number-valued scalar. -/
def Number.toScalar : Number → Scalar
  | .int n => .int n
  | .float x => .float x

namespace Entries

/-- Writes a value under a key: in place of the old value, or behind all other entries. -/
def insert (key : Key) (value : Value) : Entries → Entries
  | [] => [(key, value)]
  | (k, v) :: rest => if k.same key then (k, value) :: rest else (k, v) :: insert key value rest

/-- The map that arises when the entries are written one after the other. -/
def ofList (entries : List (Key × Value)) : Entries :=
  entries.foldl (fun map (entry : Key × Value) => insert entry.1 entry.2 map) []

/-- The value under a text. -/
def get? (name : Text) : Entries → Option Value
  | [] => none
  | (k, v) :: rest => if k.isText name then some v else get? name rest

theorem mem_of_get? {name : Text} {entries : Entries} {v : Value}
    (h : get? name entries = some v) : ∃ k, (k, v) ∈ entries := by
  induction entries with
  | nil => simp [get?] at h
  | cons entry rest ih =>
    obtain ⟨k, w⟩ := entry
    unfold get? at h
    split at h
    · exact ⟨k, by simp_all⟩
    · obtain ⟨k', hk'⟩ := ih h
      exact ⟨k', List.mem_cons_of_mem _ hk'⟩

/-- Whether an entry stands under a text. -/
def has (name : Text) (entries : Entries) : Bool := (get? name entries).isSome

end Entries

end FluentQuery
