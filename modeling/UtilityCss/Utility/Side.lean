/-
Sides and corners of a box.

* `Side` — the whole box, an axis or one edge, with the letter that names it;
* `Side.properties` — the properties that a side stands for;
* `Corners` — one corner, or the two corners of an edge.
-/
import UtilityCss.Text.Basic

namespace UtilityCss

/-- The two directions. -/
inductive Axis where
  | x | y
  deriving DecidableEq

/-- The direction a letter names. -/
def Axis.ofLetter? : CodePoint → Option Axis
  | 'x' => some .x
  | 'y' => some .y
  | _ => none

/-- An edge of a box. -/
inductive Edge where
  | top | right | bottom | left
  deriving DecidableEq

/-- The name of an edge in a property. -/
def Edge.name : Edge → Text
  | top => "top"
  | right => "right"
  | bottom => "bottom"
  | left => "left"

/-- The edge a letter names. -/
def Edge.ofLetter? : CodePoint → Option Edge
  | 't' => some .top
  | 'r' => some .right
  | 'b' => some .bottom
  | 'l' => some .left
  | _ => none

/-- A part of a box: all of it, the two edges of an axis, or one edge. -/
inductive Side where
  | all
  | axis (a : Axis)
  | edge (e : Edge)
  deriving DecidableEq

namespace Side

/-- The side a letter names. -/
def ofLetter? (c : CodePoint) : Option Side :=
  (Axis.ofLetter? c).map axis <|> (Edge.ofLetter? c).map edge

/-- The edges of a side, in the order of their declarations; the whole box
has no single edges. -/
def edges : Side → List Edge
  | all => []
  | axis .x => [.left, .right]
  | axis .y => [.top, .bottom]
  | edge e => [e]

/-- The properties of a side: `stem` and `tail` around the name of each edge,
or around nothing for the whole box. -/
def properties (stem tail : Text) : Side → List Text
  | all => [stem ++ tail]
  | side => side.edges.map fun e => stem ++ "-" ++ e.name ++ tail

end Side

/-- A corner of a box. -/
inductive Corner where
  | topLeft | topRight | bottomLeft | bottomRight
  deriving DecidableEq

/-- The name of a corner in a property. -/
def Corner.name : Corner → Text
  | topLeft => "top-left"
  | topRight => "top-right"
  | bottomLeft => "bottom-left"
  | bottomRight => "bottom-right"

/-- One corner, or both corners of an edge. -/
inductive Corners where
  | one (c : Corner)
  | along (e : Edge)
  deriving DecidableEq

namespace Corners

/-- The corners a keyword names: two letters for a corner, one for an edge. -/
def ofText? : Text → Option Corners
  | ['t', 'l'] => some (.one .topLeft)
  | ['t', 'r'] => some (.one .topRight)
  | ['b', 'l'] => some (.one .bottomLeft)
  | ['b', 'r'] => some (.one .bottomRight)
  | [c] => (Edge.ofLetter? c).map along
  | _ => none

/-- The corners meant, in the order of their declarations. -/
def toList : Corners → List Corner
  | one c => [c]
  | along .top => [.topLeft, .topRight]
  | along .right => [.topRight, .bottomRight]
  | along .bottom => [.bottomLeft, .bottomRight]
  | along .left => [.topLeft, .bottomLeft]

end Corners

end UtilityCss
