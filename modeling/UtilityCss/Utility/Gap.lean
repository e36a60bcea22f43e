/-
Utilities for the space between children: `gap-4`, `gap-x-2`, `space-y-1`.

* `Gap.ofToken?` — the gap of a grid or a flex box;
* `SpaceBetween.ofToken?` — a margin before every child but the first.
-/
import UtilityCss.Declaration
import UtilityCss.Utility.Side
import UtilityCss.Utility.Value

namespace UtilityCss

/-- A direction and the hyphen after it. -/
def readAxis? : Text → Option (Axis × Text)
  | c :: '-' :: rest => (Axis.ofLetter? c).map (·, rest)
  | _ => none

/-- A gap, in one direction or in both. -/
structure Gap where
  axis : Option Axis
  value : Text
  deriving DecidableEq

namespace Gap

/-- The gap utility a token spells. -/
def ofToken? (token : Text) : Option Gap := do
  let rest ← Text.consume? "gap-" token
  match readAxis? rest with
  | some (axis, raw) => (spacingValue? raw).map (⟨some axis, ·⟩)
  | none => (spacingValue? rest).map (⟨none, ·⟩)

/-- The property of a gap. -/
def property : Option Axis → Text
  | none => "gap"
  | some .x => "column-gap"
  | some .y => "row-gap"

/-- The declaration of a gap utility. -/
def declarations (g : Gap) : List Declaration :=
  [⟨property g.axis, g.value⟩]

end Gap

/-- A margin before every child but the first. -/
structure SpaceBetween where
  axis : Axis
  value : Text
  deriving DecidableEq

namespace SpaceBetween

/-- The utility for space between children that a token spells. -/
def ofToken? (token : Text) : Option SpaceBetween := do
  let rest ← Text.consume? "space-" token
  let (axis, raw) ← readAxis? rest
  let value ← spacingValue? raw
  some ⟨axis, value⟩

/-- The property that makes room in a direction. -/
def property : Axis → Text
  | .x => "margin-left"
  | .y => "margin-top"

/-- The declaration for each child but the first. -/
def declarations (s : SpaceBetween) : List Declaration :=
  [⟨property s.axis, s.value⟩]

end SpaceBetween

end UtilityCss
