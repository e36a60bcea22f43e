/-
Values inside of other text.

A text is shown as it is; any other value is shown in literal notation, where
texts are quoted and the named values are written with a capital letter.

* `Json.literal` — the literal notation of a value;
* `Json.display` — a value as part of a text.
-/
import UtilityCss.Json.Basic
import UtilityCss.Text.Quoted

namespace UtilityCss

/-- The literal notation of a scalar. -/
def Scalar.literal : Scalar → Text
  | null => "None"
  | bool b => if b then "True" else "False"
  | int n => Text.integer n
  | float x => x.display
  | text s => Text.quote s

namespace Json

mutual

/-- The literal notation of a value. -/
def literal : Json → Text
  | .scalar s => s.literal
  | .array items => '[' :: (Text.join ", " (literalItems items) ++ "]")
  | .object fields => '\x7b' :: (Text.join ", " (literalFields fields) ++ "\x7d")

/-- The literal notation of each item. -/
def literalItems : List Json → List Text
  | [] => []
  | item :: items => literal item :: literalItems items

/-- The literal notation of each field. -/
def literalFields : List (Text × Json) → List Text
  | [] => []
  | (name, item) :: fields =>
    (Text.quote name ++ ": " ++ literal item) :: literalFields fields

end

end Json

/-- A scalar as part of a text. -/
def Scalar.display : Scalar → Text
  | text s => s
  | s => s.literal

/-- A value as part of a text. -/
def Json.display : Json → Text
  | .scalar s => s.display
  | json => json.literal

end UtilityCss
