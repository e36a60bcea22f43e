/-
Utilities: what a token without prefixes may spell.

A utility belongs to one of ten families; each family has a reader of its own.

* `Utility` — a utility of any family;
* `Family.read?` — the reader of one family;
* `Utility.ofToken?` — the utility a token spells, the families in their order;
* `Utility.declarations` — what the utility declares.
-/
import UtilityCss.Utility.Color
import UtilityCss.Utility.FontSize
import UtilityCss.Utility.Spacing
import UtilityCss.Utility.Extent
import UtilityCss.Utility.Border
import UtilityCss.Utility.Gap
import UtilityCss.Utility.Literal

namespace UtilityCss

/-- A utility of any family. -/
inductive Utility where
  | color (u : Color)
  | fontSize (u : FontSize)
  | spacing (u : Spacing)
  | extent (u : Extent)
  | maxWidth (u : MaxWidth)
  | radius (u : Radius)
  | borderWidth (u : BorderWidth)
  | gap (u : Gap)
  | spaceBetween (u : SpaceBetween)
  | literal (u : Literal)
  deriving DecidableEq

/-- The families of utilities. -/
inductive Family where
  | color | fontSize | spacing | extent | maxWidth | radius | borderWidth | gap | spaceBetween
  | literal
  deriving DecidableEq

namespace Family

/-- All families, in the order in which they are asked. -/
def all : List Family :=
  [color, fontSize, spacing, extent, maxWidth, radius, borderWidth, gap, spaceBetween, literal]

/-- The utility of this family that a token spells. -/
def read? (token : Text) : Family → Option Utility
  | color => (Color.ofToken? token).map .color
  | fontSize => (FontSize.ofToken? token).map .fontSize
  | spacing => (Spacing.ofToken? token).map .spacing
  | extent => (Extent.ofToken? token).map .extent
  | maxWidth => (MaxWidth.ofToken? token).map .maxWidth
  | radius => (Radius.ofToken? token).map .radius
  | borderWidth => (BorderWidth.ofToken? token).map .borderWidth
  | gap => (Gap.ofToken? token).map .gap
  | spaceBetween => (SpaceBetween.ofToken? token).map .spaceBetween
  | literal => (Literal.ofToken? token).map .literal

end Family

namespace Utility

/-- The utility a token spells: that of the first family that reads it. -/
def ofToken? (token : Text) : Option Utility :=
  Family.all.findSome? (Family.read? token)

/-- What a utility declares. -/
def declarations : Utility → List Declaration
  | color u => u.declarations
  | fontSize u => u.declarations
  | spacing u => u.declarations
  | extent u => u.declarations
  | maxWidth u => u.declarations
  | radius u => u.declarations
  | borderWidth u => u.declarations
  | gap u => u.declarations
  | spaceBetween u => u.declarations
  | literal u => u.declarations

/-- Whether the declarations are for each child but the first, and not for the
element itself. -/
def isBetweenChildren : Utility → Bool
  | spaceBetween _ => true
  | _ => false

end Utility

end UtilityCss
