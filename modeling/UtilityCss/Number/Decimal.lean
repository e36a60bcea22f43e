/-
Decimal numerals of exact rationals.

* `Decimal` — significant digits and the exponent of the first of them;
* `Decimal.rounded count q` — `q` to `count` significant digits;
* `Decimal.render style` — the numeral: positional from `10 ^ -4` up to the
  style's limit, scientific outside of that range;
* `fixed places q` — `q` with a fixed number of decimal places.
-/
import UtilityCss.Number.Rounding

namespace UtilityCss.Number

/-- A positive decimal number `d₀.d₁d₂… × 10 ^ exponent`. -/
structure Decimal where
  /-- The significant digits, without zeros at the end. -/
  digits : Text
  /-- The exponent of the first digit. -/
  exponent : Int
  deriving DecidableEq

namespace Decimal

/-- The number `n × 10 ^ shift`. -/
def ofScaled (n : Nat) (shift : Int) : Decimal :=
  let digits := Text.decimal n
  ⟨(digits.reverse.dropWhile (· = .char '0')).reverse, shift + digits.length - 1⟩

/-- A positive `q` to `count` significant digits, a half to the even digit. -/
def rounded (count : Nat) (q : Rat) : Decimal :=
  let shift := decimalExponent q + 1 - count
  ofScaled (roundHalfEven (q * power 10 (-shift))).toNat shift

/-- How a numeral is written down. -/
structure Style where
  /-- The first exponent that is written scientifically. -/
  positionalLimit : Int
  /-- What ends a positional numeral without fraction. -/
  wholeMark : Text

/-- Sign and at least two digits, after the letter `e`. -/
def exponentMark (e : Int) : Text :=
  let sign := if e < 0 then '-' else '+'
  'e' :: sign :: Text.padded 2 (Text.decimal e.natAbs)

/-- All digits with the point at its place. -/
def positional (style : Style) (d : Decimal) : Text :=
  if d.exponent < 0 then
    "0." ++ Text.zeros (-d.exponent - 1).toNat ++ d.digits
  else
    let places := d.exponent.toNat + 1
    let whole := d.digits.take places
    let whole := whole ++ Text.zeros (places - whole.length)
    match d.digits.drop places with
    | [] => whole ++ style.wholeMark
    | fraction => whole ++ "." ++ fraction

/-- One digit, the point, the other digits, the exponent. -/
def scientific (d : Decimal) : Text :=
  match d.digits with
  | [] => []
  | [digit] => digit :: exponentMark d.exponent
  | digit :: fraction => digit :: '.' :: (fraction ++ exponentMark d.exponent)

/-- The numeral of a positive decimal number. -/
def render (style : Style) (d : Decimal) : Text :=
  if -4 ≤ d.exponent ∧ d.exponent < style.positionalLimit then positional style d
  else scientific d

/-- Six significant digits at most, no mark on whole numbers. -/
def Style.general : Style := ⟨6, ""⟩

/-- Positional below `10 ^ 16`, whole numbers marked by `.0`. -/
def Style.marked : Style := ⟨16, ".0"⟩

example : render .general (rounded 6 (mkRat 1 20)) = ("0.05" : Text) := by decide +kernel
example : render .general (rounded 6 (mkRat 1234567 1)) = ("1.23457e+06" : Text) := by
  decide +kernel
example : render .marked (ofScaled 1 16) = ("1e+16" : Text) := by decide +kernel
example : render .marked (ofScaled 1 5) = ("100000.0" : Text) := by decide +kernel

end Decimal

/-- A non-negative `q` with `places` decimal places, a half to the even digit. -/
def fixed (places : Nat) (q : Rat) : Text :=
  let scale := Nat.pow 10 places
  let n := (roundHalfEven (q * mkRat scale 1)).toNat
  Text.decimal (n / scale) ++ "." ++ Text.padded places (Text.decimal (n % scale))

example : fixed 6 (mkRat 100 3) = ("33.333333" : Text) := by decide +kernel

end UtilityCss.Number
