/-
JSON values.

A value is a scalar, an array or an object. Objects keep the order of their
members. Integers have any size; numbers with a fraction or an exponent are
binary64 values.

* `Scalar`, `Json` — the values;
* `Json.field?` — a member of an object;
* `Json.isBlank` — the values that count as nothing: null, false, zero, and
  whatever is empty;
* `Scalar.same`, `Json.same` — equality of values: numbers and truth values by
  their number, objects without regard to order;
* `Json.Kind` — the kind of a value, with the name used in messages.
-/
import UtilityCss.Number.Binary64

namespace UtilityCss

open Number (Binary64)

/-- A value without parts. -/
inductive Scalar where
  | null
  | bool (b : Bool)
  | int (n : Int)
  | float (x : Binary64)
  | text (s : Text)

/-- A JSON value. -/
inductive Json where
  | scalar (s : Scalar)
  | array (items : List Json)
  | object (fields : List (Text × Json))

namespace Json

/-- The value `null`. -/
@[match_pattern] abbrev null : Json := .scalar .null

/-- A text as a value. -/
@[match_pattern] abbrev text (s : Text) : Json := .scalar (.text s)

/-! ### Members -/

/-- The member of a list of fields with the given key. -/
def lookup (key : Text) (fields : List (Text × Json)) : Option Json :=
  List.lookup key fields

/-- A member of an object; other values have no members. -/
def field? (key : Text) : Json → Option Json
  | object fields => lookup key fields
  | _ => none

/-- Sets a member: in its place if the key is there, at the end otherwise. -/
def setField (key : Text) (value : Json) : List (Text × Json) → List (Text × Json)
  | [] => [(key, value)]
  | (k, v) :: fields =>
    if k = key then (k, value) :: fields else (k, v) :: setField key value fields

/-! ### Kinds -/

/-- The kinds of values. -/
inductive Kind where
  | null | bool | int | float | text | array | object
  deriving DecidableEq

/-- The name of a kind in messages. -/
def Kind.name : Kind → Text
  | null => "NoneType"
  | bool => "bool"
  | int => "int"
  | float => "float"
  | text => "str"
  | array => "list"
  | object => "dict"

end Json

/-- The kind of a scalar. -/
def Scalar.kind : Scalar → Json.Kind
  | null => .null
  | bool _ => .bool
  | int _ => .int
  | float _ => .float
  | text _ => .text

/-- The kind of a value. -/
def Json.kind : Json → Json.Kind
  | scalar s => s.kind
  | array _ => .array
  | object _ => .object

/-! ### Blank values -/

/-- Whether a scalar counts as nothing. -/
def Scalar.isBlank : Scalar → Bool
  | null => true
  | bool b => !b
  | int n => n = 0
  | float x => x.isZero
  | text s => s.isEmpty

/-- Whether a value counts as nothing. -/
def Json.isBlank : Json → Bool
  | scalar s => s.isBlank
  | array items => items.isEmpty
  | object fields => fields.isEmpty

/-! ### Equality of values -/

namespace Scalar

/-- What decides whether two scalars are the same. -/
inductive Measure where
  | null
  | number (q : Rat)
  | infinite (negative : Bool)
  | nan
  | text (s : Text)
  deriving DecidableEq

/-- Truth values count as zero and one; the sign of zero does not matter. -/
def measure : Scalar → Measure
  | null => .null
  | bool b => .number (mkRat (if b then 1 else 0) 1)
  | int n => .number (mkRat n 1)
  | float (.finite negative q) => .number (if negative then -q else q)
  | float (.infinite negative) => .infinite negative
  | float .nan => .nan
  | text s => .text s

/-- Whether two scalars are equal as values. -/
def same (a b : Scalar) : Bool :=
  a.measure = b.measure

/-- Scalars are compared as values. -/
instance : BEq Scalar := ⟨same⟩

theorem same_refl (a : Scalar) : a.same a = true := by simp [same]

end Scalar

namespace Json

mutual

/-- Whether two values are equal: arrays item by item, objects member by member
without regard to order. -/
def same : Json → Json → Bool
  | scalar a, scalar b => a.same b
  | array as, array bs => sameItems as bs
  | object as, object bs => as.length = bs.length && sameFields as bs
  | _, _ => false

/-- Whether two lists hold the same values in the same order. -/
def sameItems : List Json → List Json → Bool
  | [], [] => true
  | a :: as, b :: bs => same a b && sameItems as bs
  | _, _ => false

/-- Whether every field of the first list is in the second. -/
def sameFields : List (Text × Json) → List (Text × Json) → Bool
  | [], _ => true
  | (key, a) :: as, bs =>
    (match lookup key bs with
      | some b => same a b
      | none => false) && sameFields as bs

end

end Json

end UtilityCss
