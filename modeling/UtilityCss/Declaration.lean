/-
Declarations: a property and its value.

* `Declaration.text` — `property: value`;
* `declarationText` — the declarations of a rule, `; ` between neighbours.
-/
import UtilityCss.Text.Basic

namespace UtilityCss

/-- One property and its value. -/
structure Declaration where
  property : Text
  value : Text
  deriving DecidableEq

/-- The written form of one declaration. -/
def Declaration.text (d : Declaration) : Text :=
  d.property ++ ": " ++ d.value

/-- The written form of a list of declarations. -/
def declarationText (declarations : List Declaration) : Text :=
  Text.join "; " (declarations.map Declaration.text)

theorem declarationText_singleton (d : Declaration) : declarationText [d] = d.text := by
  rw [declarationText, List.map_singleton, Text.join, List.intercalate_singleton]

end UtilityCss
