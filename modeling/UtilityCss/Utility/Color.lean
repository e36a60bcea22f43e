/-
Colour utilities: `bg-`, `text-` and `border-` with a colour.

The colour is a name of the palette with an optional shade and an optional
opacity (`bg-red-500/50`), or a hexadecimal value in brackets (`text-[#fff]`).

* `PaletteRef.read?` — the shape `name[-shade][/opacity]`;
* `hexColor?` — the bracket form, of three, four, six or eight digits;
* `Color.ofToken?` — the colour utility a token spells.
-/
import UtilityCss.Scale.Palette
import UtilityCss.Scale.Length
import UtilityCss.Declaration
import UtilityCss.Utility.Value
import UtilityCss.Utility.HexColor

namespace UtilityCss

/-- What a colour is given to. -/
inductive ColorTarget where
  | background | text | border
  deriving DecidableEq

namespace ColorTarget

/-- The beginning of the utility. -/
def keyword : ColorTarget → Text
  | background => "bg-"
  | text => "text-"
  | border => "border-"

/-- The property that takes the colour. -/
def property : ColorTarget → Text
  | background => "background-color"
  | text => "color"
  | border => "border-color"

/-- All targets. -/
def all : List ColorTarget :=
  [background, text, border]

/-- The target a token begins with, and what follows its keyword. -/
def read? (token : Text) : Option (ColorTarget × Text) :=
  all.findSome? fun target => (Text.consume? target.keyword token).map (target, ·)

end ColorTarget

/-- A colour of the palette with an opacity in percent. -/
structure PaletteRef where
  name : Text
  shade : Option Text
  opacity : Option Nat
  deriving DecidableEq

namespace PaletteRef

/-- A hyphen and at least one digit, or nothing. -/
def readShade (s : Text) : Option Text × Text :=
  match s with
  | '-' :: rest =>
    let (digits, tail) := rest.span CodePoint.isDigit
    if digits = [] then (none, s) else (some digits, tail)
  | _ => (none, s)

/-- A slash and one to three digits, or nothing; no more text may follow. -/
def readOpacity? : Text → Option (Option Nat)
  | [] => some none
  | '/' :: digits => if isDigits 1 3 digits then some (some (Text.digitsValue digits)) else none
  | _ => none

/-- `name[-shade][/opacity]`. -/
def read? (s : Text) : Option PaletteRef := do
  let (name, rest) := s.span CodePoint.isLower
  if name = [] then none
  else
    let (shade, rest) := readShade rest
    let opacity ← readOpacity? rest
    some ⟨name, shade, opacity⟩

/-- The value of the colour. Opacities reach from zero to one hundred. -/
def value? (ref : PaletteRef) : Option Text := do
  let value ← paletteColor? ref.name ref.shade
  match ref.opacity with
  | none => some value
  | some percent =>
    if 100 < percent then none
    else (rgba value (.real (.ofMagnitude false (mkRat percent 100)))).toOption

end PaletteRef

/-- The hexadecimal colour in brackets, written as it is. -/
def hexColor? (raw : Text) : Option Text :=
  match raw with
  | '[' :: '#' :: rest =>
    let (digits, tail) := rest.span Text.isHexDigit
    if digits.length ∈ [3, 4, 6, 8] ∧ tail = "]" then some ('#' :: digits) else none
  | _ => none

/-- A colour utility. -/
structure Color where
  target : ColorTarget
  value : Text
  deriving DecidableEq

namespace Color

/-- Whether the name after `text-` is a type size or an alignment. -/
def isTextStyle (name : Text) : Bool :=
  (fontSizes.lookup name).isSome || textAlignments.contains name

/-- The colour utility a token spells. -/
def ofToken? (token : Text) : Option Color := do
  let (target, rest) ← ColorTarget.read? token
  match PaletteRef.read? rest with
  | some ref =>
    if target = .text ∧ isTextStyle ref.name then none
    else ref.value?.map (⟨target, ·⟩)
  | none => (hexColor? rest).map (⟨target, ·⟩)

/-- The declaration of a colour utility. -/
def declarations (c : Color) : List Declaration :=
  [⟨c.target.property, c.value⟩]

end Color

example : Color.ofToken? "bg-white/05" =
    some ⟨.background, "rgba(255, 255, 255, 0.05)"⟩ := by decide +kernel

end UtilityCss
