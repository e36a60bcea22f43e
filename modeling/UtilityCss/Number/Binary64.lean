/-
Binary64 values as exact rationals.

A finite value is a sign and a magnitude; the sign is kept apart because zero
has two of them.

* `Binary64.ofMagnitude` — the value nearest to a rational, half to even, with
  53 significant bits, the least exponent `2 ^ -1074` and overflow at `2 ^ 1024`;
* `Binary64.ofDecimal` — the value nearest to a decimal numeral;
* `Binary64.shortest` — the fewest digits that read back as the magnitude;
* `Binary64.display`, `Binary64.general` — the numerals in use.
-/
import UtilityCss.Number.Decimal

namespace UtilityCss.Number

/-- A binary64 value. -/
inductive Binary64 where
  | finite (negative : Bool) (magnitude : Rat)
  | infinite (negative : Bool)
  | nan
  deriving DecidableEq

namespace Binary64

/-- The binary64 number nearest to a non-negative `q`, before overflow: 53
significant bits, and never finer than `2 ^ -1074`. -/
def nearest (q : Rat) : Rat :=
  roundTo (power 2 (max (binaryExponent q - 52) (-1074))) q

/-- The value nearest to `q`, with the given sign. -/
def ofMagnitude (negative : Bool) (q : Rat) : Binary64 :=
  if power 2 1024 ≤ nearest q then infinite negative else finite negative (nearest q)

/-- The value nearest to an integer; `none` if it is beyond all finite values. -/
def ofInt? (n : Int) : Option Binary64 :=
  match ofMagnitude (decide (n < 0)) (mkRat n.natAbs 1) with
  | finite negative q => some (finite negative q)
  | _ => none

/-- The value nearest to `digits × 10 ^ shift`. Far outside of the range the
power of ten is not computed. -/
def ofDecimal (negative : Bool) (digits : Nat) (shift : Int) : Binary64 :=
  let leading := shift + (Text.decimal digits).length
  if digits = 0 ∨ leading < -400 then finite negative (mkRat 0 1)
  else if 400 < leading then infinite negative
  else ofMagnitude negative (mkRat digits 1 * power 10 shift)

/-- With `count` significant digits: the decimal that reads back as `q`, the
nearer one if both neighbours of `q` do. -/
def readsBack? (q : Rat) (count : Nat) : Option Decimal :=
  let shift := decimalExponent q + 1 - count
  let scaled := q * power 10 (-shift)
  let low := scaled.floor
  let reads (n : Int) : Bool := nearest (mkRat n 1 * power 10 shift) = q
  let chosen? :=
    if reads low then
      if reads (low + 1) then some (roundHalfEven scaled) else some low
    else if reads (low + 1) then some (low + 1)
    else none
  chosen?.map fun n => Decimal.ofScaled n.toNat shift

/-- The fewest digits that read back as the positive binary64 number `q`. -/
def shortest (q : Rat) : Decimal :=
  ((List.range' 1 17).findSome? (readsBack? q)).getD (Decimal.rounded 17 q)

/-- The numeral of a value, its digits chosen by `digits`. -/
def render (style : Decimal.Style) (digits : Rat → Decimal) : Binary64 → Text
  | nan => "nan"
  | infinite negative => (if negative then "-" else "") ++ ("inf" : Text)
  | finite negative q =>
    (if negative then "-" else "") ++
      (if q = mkRat 0 1 then "0" ++ style.wholeMark else (digits q).render style)

/-- The shortest numeral that reads back; whole numbers end in `.0`. -/
def display : Binary64 → Text :=
  render .marked shortest

/-- Six significant digits at most, without zeros at the end. -/
def general : Binary64 → Text :=
  render .general (Decimal.rounded 6)

/-- Zero of either sign. -/
def isZero : Binary64 → Bool
  | finite _ q => q = mkRat 0 1
  | _ => false

example : display (ofDecimal false 1 (-1)) = ("0.1" : Text) := by decide +kernel
example : display (ofDecimal true 5 (-324)) = ("-5e-324" : Text) := by decide +kernel
example : display (ofDecimal false 3 (-324)) = ("5e-324" : Text) := by decide +kernel
example : display (ofDecimal false 1 309) = ("inf" : Text) := by decide +kernel
example : display (.finite false (power 2 (-44))) = ("5.684341886080802e-14" : Text) := by
  decide +kernel

end Binary64

end UtilityCss.Number
