/-
Exact rounding of rationals.

Every rounded value of this library is computed from the exact rational, so no
machine float takes part:

* `roundHalfEven q` — the integer nearest to `q`, a half going to the even
  neighbour;
* `roundTo unit q` — the multiple of `unit` nearest to `q`, by the same rule;
* `binaryExponent q`, `decimalExponent q` — the exponent of the leading digit
  of a positive `q` in base two and in base ten;
* `roundToBits bits q` — `q` to that many significant binary digits.
-/
import UtilityCss.Text.Basic

namespace UtilityCss.Number

/-- `base ^ k` for an integer exponent. -/
def power (base : Nat) : Int → Rat
  | .ofNat k => mkRat (Nat.pow base k) 1
  | .negSucc k => mkRat 1 (Nat.pow base (k + 1))

/-- The integer nearest to `q`; a half goes to the even neighbour. -/
def roundHalfEven (q : Rat) : Int :=
  let low := q.floor
  -- twice the distance from `low` up to `q`, in units of `1 / q.den`
  let excess := 2 * (q.num % q.den)
  if excess < q.den then low
  else if q.den < excess then low + 1
  else if low % 2 = 0 then low
  else low + 1

/-- The multiple of `unit` nearest to `q`; a half goes to the even multiple. -/
def roundTo (unit q : Rat) : Rat :=
  roundHalfEven (q / unit) * unit

/-- The `e` with `2 ^ e ≤ q < 2 ^ (e + 1)`, for a positive `q`. -/
def binaryExponent (q : Rat) : Int :=
  let guess : Int := (Nat.log2 q.num.natAbs : Int) - (Nat.log2 q.den : Int)
  if power 2 guess ≤ q then guess else guess - 1

/-- The `e` with `10 ^ e ≤ q < 10 ^ (e + 1)`, for a positive `q`. -/
def decimalExponent (q : Rat) : Int :=
  let guess : Int :=
    ((Text.decimal q.num.natAbs).length : Int) - ((Text.decimal q.den).length : Int)
  if power 10 guess ≤ q then guess else guess - 1

/-- `q` to `bits` significant binary digits. -/
def roundToBits (bits : Nat) (q : Rat) : Rat :=
  roundTo (power 2 (binaryExponent q + 1 - bits)) q

example : roundHalfEven (mkRat 5 2) = 2 := by decide +kernel
example : roundHalfEven (mkRat 7 2) = 4 := by decide +kernel
example : roundHalfEven (mkRat (-5) 2) = -2 := by decide +kernel
example : binaryExponent (mkRat 1 3) = -2 := by decide +kernel

end UtilityCss.Number
