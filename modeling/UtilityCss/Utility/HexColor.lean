/-
Hexadecimal colours with an opacity.

* `hexPair?` — the number that two characters of a colour stand for;
* `Opacity` — an opacity and its numeral;
* `rgba` — `#rrggbb` with an opacity in functional notation; a text of any
  other shape is kept;
* `ColorFault` — why a colour has no such notation.
-/
import UtilityCss.Text.Blank
import UtilityCss.Text.Quoted
import UtilityCss.Number.Binary64

namespace UtilityCss

/-- Why a colour cannot be written in functional notation. -/
inductive ColorFault where
  /-- A pair of characters that is no hexadecimal number. -/
  | badPair (pair : Text)
  /-- An integer opacity beyond the finite binary64 values. -/
  | opacityTooLarge
  deriving DecidableEq

/-- The wording of a fault. -/
def ColorFault.message : ColorFault → Text
  | badPair pair => "invalid literal for int() with base 16: " ++ Text.quote pair
  | opacityTooLarge => "int too large to convert to float"

/-! ### Components -/

/-- Whether a numeral may be surrounded by a character: every blank but the
four ASCII separators. -/
def surroundsNumeral (c : CodePoint) : Bool :=
  Text.isBlank c && !(0x1C ≤ c.toNat && c.toNat ≤ 0x1F)

/-- The value of a hexadecimal digit, which may be a decimal digit of any
script. -/
def hexValue? (c : CodePoint) : Option Nat :=
  Text.hexDigit? c <|> Text.decimalDigit? c

/-- The value of a non-empty row of hexadecimal digits. -/
def hexNumeral? : Text → Option Nat
  | [] => none
  | digits => digits.foldl
      (fun value? c => do
        let value ← value?
        let digit ← hexValue? c
        some (16 * value + digit))
      (some 0)

/-- The number a pair of characters stands for: blanks around it are dropped
and a sign may precede the digits. -/
def hexPair? (pair : Text) : Option Int :=
  let trimmed := ((pair.dropWhile surroundsNumeral).reverse.dropWhile surroundsNumeral).reverse
  match trimmed with
  | '+' :: digits => (hexNumeral? digits).map Int.ofNat
  | '-' :: digits => (hexNumeral? digits).map fun n => -Int.ofNat n
  | digits => (hexNumeral? digits).map Int.ofNat

/-- One component of a colour. -/
def component (pair : Text) : Except ColorFault Text :=
  match hexPair? pair with
  | some n => .ok (Text.integer n)
  | none => .error (.badPair pair)

/-! ### Opacities -/

/-- An opacity: an integer of any size, or a binary64 value. -/
inductive Opacity where
  | whole (n : Int)
  | real (x : Number.Binary64)
  deriving DecidableEq

/-- The numeral of an opacity, with six significant digits at most. -/
def Opacity.numeral : Opacity → Except ColorFault Text
  | whole n =>
    match Number.Binary64.ofInt? n with
    | some x => .ok x.general
    | none => .error .opacityTooLarge
  | real x => .ok x.general

/-! ### Colours -/

/-- `#rrggbb` with an opacity in functional notation; any other text is kept. -/
def rgba (value : Text) (opacity : Opacity) : Except ColorFault Text :=
  match value with
  | ['#', r₁, r₂, g₁, g₂, b₁, b₂] => do
    let red ← component [r₁, r₂]
    let green ← component [g₁, g₂]
    let blue ← component [b₁, b₂]
    let alpha ← opacity.numeral
    .ok ("rgba(" ++ Text.join ", " [red, green, blue, alpha] ++ ")")
  | _ => .ok value

example : hexPair? "-f" = some (-15) := by decide +kernel
example : hexPair? "gg" = none := by decide +kernel

end UtilityCss
