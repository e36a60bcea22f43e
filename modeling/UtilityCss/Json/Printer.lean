/-
Writing JSON.

The written form is ASCII: a code point outside of the visible range is an
escape, and one beyond the first plane a surrogate pair of escapes.

* `Json.compact` — a value on one line;
* `Json.indented` — a value with one item a line, two spaces deeper inside.
-/
import UtilityCss.Json.Basic
import UtilityCss.Text.Digit

namespace UtilityCss

open Number (Binary64)

namespace Json

/-! ### Strings -/

/-- A UTF-16 unit as an escape. -/
def unitEscape (n : Nat) : Text :=
  '\\' :: 'u' :: Text.hex 4 n

/-- One code point of a written string. -/
def escapeChar (c : CodePoint) : Text :=
  let n := c.toNat
  if c = '"' then "\\\""
  else if c = '\\' then "\\\\"
  else if c = '\n' then "\\n"
  else if c = '\r' then "\\r"
  else if c = '\t' then "\\t"
  else if c = '\x0c' then "\\f"
  else if c = '\x08' then "\\b"
  else if 0x20 ≤ n ∧ n ≤ 0x7E then [c]
  else if n < 0x10000 then unitEscape n
  else unitEscape (0xD800 + (n - 0x10000) / 0x400) ++ unitEscape (0xDC00 + (n - 0x10000) % 0x400)

/-- The written form of a string. -/
def quote (s : Text) : Text :=
  '"' :: (s.flatMap escapeChar ++ "\"")

end Json

/-! ### Scalars -/

/-- The written form of a number that is no integer. -/
def Number.Binary64.written : Binary64 → Text
  | .nan => "NaN"
  | .infinite negative => if negative then "-Infinity" else "Infinity"
  | x => x.display

/-- The written form of a scalar other than a string; it also serves as the
name of a field. -/
def Scalar.name : Scalar → Text
  | .null => "null"
  | .bool b => if b then "true" else "false"
  | .int n => Text.integer n
  | .float x => x.written
  | .text s => s

/-- The written form of a scalar. -/
def Scalar.written : Scalar → Text
  | .text s => Json.quote s
  | s => s.name

namespace Json

/-! ### Values on one line -/

mutual

/-- The written form of a value, on one line. -/
def compact : Json → Text
  | .scalar s => s.written
  | .array items => '[' :: (Text.join ", " (compactItems items) ++ "]")
  | .object fields => '\x7b' :: (Text.join ", " (compactFields fields) ++ "\x7d")

/-- The written form of each item. -/
def compactItems : List Json → List Text
  | [] => []
  | item :: items => compact item :: compactItems items

/-- The written form of each field. -/
def compactFields : List (Text × Json) → List Text
  | [] => []
  | (name, item) :: fields => (quote name ++ ": " ++ compact item) :: compactFields fields

end

/-! ### Values on several lines -/

/-- The beginning of a line at a depth. -/
def newline (depth : Nat) : Text :=
  '\n' :: List.replicate (2 * depth) (.char ' ')

/-- Written parts between brackets, one a line. -/
def bracketed (depth : Nat) (opening closing : CodePoint) : List Text → Text
  | [] => [opening, closing]
  | parts =>
    opening :: (newline (depth + 1) ++ Text.join ("," ++ newline (depth + 1)) parts ++
      newline depth ++ [closing])

mutual

/-- The written form of a value inside `depth` brackets. -/
def indentedAt (depth : Nat) : Json → Text
  | .scalar s => s.written
  | .array items => bracketed depth '[' ']' (indentedItems (depth + 1) items)
  | .object fields => bracketed depth '\x7b' '\x7d' (indentedFields (depth + 1) fields)

/-- The written form of each item. -/
def indentedItems (depth : Nat) : List Json → List Text
  | [] => []
  | item :: items => indentedAt depth item :: indentedItems depth items

/-- The written form of each field. -/
def indentedFields (depth : Nat) : List (Text × Json) → List Text
  | [] => []
  | (name, item) :: fields =>
    (quote name ++ ": " ++ indentedAt depth item) :: indentedFields depth fields

end

/-- The written form of a value, one item a line. -/
def indented (json : Json) : Text :=
  indentedAt 0 json

end Json

end UtilityCss
