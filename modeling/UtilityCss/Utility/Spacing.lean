/-
Padding and margin utilities: `p-4`, `mx-auto`, `-mt-[3px]`.

* `Spacing.ofToken?` — the padding or margin a token spells;
* `signed` — the value under a minus sign.
-/
import UtilityCss.Declaration
import UtilityCss.Utility.Side
import UtilityCss.Utility.Value

namespace UtilityCss

/-- What a spacing is put around. -/
inductive SpacingKind where
  | padding | margin
  deriving DecidableEq

namespace SpacingKind

/-- The kind a letter names. -/
def ofLetter? : CodePoint → Option SpacingKind
  | 'p' => some padding
  | 'm' => some margin
  | _ => none

/-- The property of the whole box. -/
def property : SpacingKind → Text
  | padding => "padding"
  | margin => "margin"

end SpacingKind

/-- A padding or a margin. -/
structure Spacing where
  kind : SpacingKind
  side : Side
  value : Text
  deriving DecidableEq

namespace Spacing

/-- The value under a minus sign; zero and `auto` have no sign. -/
def signed (negative : Bool) (value : Text) : Text :=
  if negative = true ∧ value ≠ "0px" ∧ value ≠ "auto" then '-' :: value else value

/-- A side letter and a hyphen, or the hyphen alone. -/
def readSide? : Text → Option (Side × Text)
  | '-' :: rest => some (.all, rest)
  | c :: '-' :: rest => (Side.ofLetter? c).map (·, rest)
  | _ => none

/-- What follows the sign: the kind, the side and the value. -/
def read? (negative : Bool) : Text → Option Spacing
  | [] => none
  | c :: rest => do
    let kind ← SpacingKind.ofLetter? c
    if negative = true ∧ kind = .padding then none
    else
      let (side, raw) ← readSide? rest
      let value ← spacingValue? raw
      some ⟨kind, side, signed negative value⟩

/-- The spacing utility a token spells. A padding has no sign. -/
def ofToken? : Text → Option Spacing
  | '-' :: rest => read? true rest
  | token => read? false token

/-- The declarations of a spacing utility, one for each edge of an axis. -/
def declarations (s : Spacing) : List Declaration :=
  (s.side.properties s.kind.property "").map (⟨·, s.value⟩)

end Spacing

end UtilityCss
