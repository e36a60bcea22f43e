/-
Border utilities: corner radius and border width.

* `Radius.ofToken?` — `rounded[-size][-corners]`;
* `BorderWidth.ofToken?` — `border[-side][-pixels]`.
-/
import UtilityCss.Scale.Length
import UtilityCss.Declaration
import UtilityCss.Utility.Side
import UtilityCss.Utility.Value

namespace UtilityCss

/-- A corner radius, for some corners or for all. -/
structure Radius where
  corners : Option Corners
  value : Text
  deriving DecidableEq

namespace Radius

/-- The size and the corners named by the parts after `rounded`. A single part
that names corners is not a size, and `DEFAULT` is never written out. -/
def readParts? (parts : List Text) : Option (Text × Option Corners) :=
  if parts.contains "DEFAULT" then none
  else
    match parts with
    | [] => some ("DEFAULT", none)
    | [part] =>
      match Corners.ofText? part with
      | some corners => some ("DEFAULT", some corners)
      | none => some (part, none)
    | [size, part] => (Corners.ofText? part).map fun corners => (size, some corners)
    | _ => none

/-- The parts after `rounded`, if the token begins with it. -/
def parts? (token : Text) : Option (List Text) :=
  match Text.consume? "rounded" token with
  | some [] => some []
  | some ('-' :: rest) => some (Text.segments '-' rest)
  | _ => none

/-- The radius utility a token spells. -/
def ofToken? (token : Text) : Option Radius := do
  let parts ← parts? token
  let (size, corners) ← readParts? parts
  let value ← radiusScale.lookup size
  some ⟨corners, value⟩

/-- The declarations of a radius utility, one for each corner named. -/
def declarations (r : Radius) : List Declaration :=
  match r.corners with
  | none => [⟨"border-radius", r.value⟩]
  | some corners => corners.toList.map fun c => ⟨"border-" ++ c.name ++ "-radius", r.value⟩

end Radius

/-- A border width. -/
structure BorderWidth where
  side : Side
  value : Text
  deriving DecidableEq

namespace BorderWidth

/-- A side letter after a hyphen, or nothing; a longer word is not a side. -/
def readSide (s : Text) : Side × Text :=
  match s with
  | ['-', c] =>
    match Side.ofLetter? c with
    | some side => (side, [])
    | none => (.all, s)
  | '-' :: c :: '-' :: rest =>
    match Side.ofLetter? c with
    | some side => (side, '-' :: rest)
    | none => (.all, s)
  | _ => (.all, s)

/-- A hyphen and one to four digits, or nothing: one pixel. -/
def readWidth? : Text → Option Text
  | [] => some "1px"
  | '-' :: digits => if isDigits 1 4 digits then some (digits ++ "px") else none
  | _ => none

/-- The border width utility a token spells. -/
def ofToken? (token : Text) : Option BorderWidth := do
  let rest ← Text.consume? "border" token
  let (side, rest) := readSide rest
  let value ← readWidth? rest
  some ⟨side, value⟩

/-- The declarations of a border width utility: a width for each edge, then
the style. -/
def declarations (b : BorderWidth) : List Declaration :=
  (b.side.properties "border" "-width").map (⟨·, b.value⟩) ++ [⟨"border-style", "solid"⟩]

end BorderWidth

end UtilityCss
