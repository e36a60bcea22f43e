/-
Width and height utilities: `w-1/2`, `h-screen`, and `max-w-prose`.

* `Extent.ofToken?` — the width or height a token spells;
* `MaxWidth.ofToken?` — the maximal width a token spells.
-/
import UtilityCss.Declaration
import UtilityCss.Utility.Value

namespace UtilityCss

/-- The two extents of a box. -/
inductive Dimension where
  | width | height
  deriving DecidableEq

namespace Dimension

/-- The dimension a letter names. -/
def ofLetter? : CodePoint → Option Dimension
  | 'w' => some width
  | 'h' => some height
  | _ => none

/-- The property of a dimension. -/
def property : Dimension → Text
  | width => "width"
  | height => "height"

/-- The extent of the whole screen. -/
def screen : Dimension → Text
  | width => "100vw"
  | height => "100vh"

/-- The extent a text stands for: a spacing key, `screen`, a fraction or a
bracket value. -/
def value? (d : Dimension) (raw : Text) : Option Text :=
  spacingScale.lookup raw <|> (if raw = "screen" then some d.screen else none) <|>
    fraction? raw <|> bracketValue? raw

end Dimension

/-- A width or a height. -/
structure Extent where
  dimension : Dimension
  value : Text
  deriving DecidableEq

namespace Extent

/-- The width or height utility a token spells. -/
def ofToken? : Text → Option Extent
  | c :: '-' :: raw => do
    let dimension ← Dimension.ofLetter? c
    let value ← dimension.value? raw
    some ⟨dimension, value⟩
  | _ => none

/-- The declaration of an extent utility. -/
def declarations (e : Extent) : List Declaration :=
  [⟨e.dimension.property, e.value⟩]

end Extent

/-- A maximal width. -/
structure MaxWidth where
  value : Text
  deriving DecidableEq

namespace MaxWidth

/-- The maximal width utility a token spells. -/
def ofToken? (token : Text) : Option MaxWidth := do
  let raw ← Text.consume? "max-w-" token
  let value ← maxWidthScale.lookup raw <|> bracketValue? raw
  some ⟨value⟩

/-- The declaration of a maximal width utility. -/
def declarations (m : MaxWidth) : List Declaration :=
  [⟨"max-width", m.value⟩]

end MaxWidth

end UtilityCss
