/-
The values a utility may carry after its keyword.

* `bracketValue?` — the free-form value between square brackets;
* `spacingValue?` — a key of the spacing scale, or a bracket value;
* `fraction?` — `n/m` as a percentage.
-/
import UtilityCss.Scale.Length
import UtilityCss.Number.Decimal

namespace UtilityCss

/-- The characters a bracket value consists of: none of them ends a
declaration, a block or a quotation. -/
def isBracketChar (c : CodePoint) : Bool :=
  c.isAlphanum || (".%#(),+*/_-" : Text).contains c

/-- The value between square brackets, an underscore read as a space. -/
def bracketValue? (raw : Text) : Option Text :=
  match raw with
  | '[' :: rest =>
    let (body, tail) := rest.span isBracketChar
    if body ≠ [] ∧ tail = "]" then
      some (body.map fun c => if c = .char '_' then .char ' ' else c)
    else none
  | _ => none

/-- The length of a key of the spacing scale, or a bracket value. -/
def spacingValue? (raw : Text) : Option Text :=
  spacingScale.lookup raw <|> bracketValue? raw

/-- Whether a text is a row of `low` to `high` ASCII digits. -/
def isDigits (low high : Nat) (s : Text) : Bool :=
  low ≤ s.length && s.length ≤ high && s.all CodePoint.isDigit

/-- The quotient as a percentage: quotient and product are each rounded to 53
significant bits before six decimals are written. -/
def percentage (numerator denominator : Nat) : Text :=
  let quotient := Number.roundToBits 53 (mkRat numerator denominator)
  Number.fixed 6 (Number.roundToBits 53 (quotient * mkRat 100 1)) ++ "%"

/-- `n/m` with one to four digits on both sides and a denominator other than
zero. -/
def fraction? (raw : Text) : Option Text := do
  let (numerator, denominator) ← Text.cut? '/' raw
  if isDigits 1 4 numerator && isDigits 1 4 denominator then
    let m := Text.digitsValue denominator
    if m = 0 then none else some (percentage (Text.digitsValue numerator) m)
  else none

example : bracketValue? "[calc(1px_+_2px)]" = some ("calc(1px + 2px)" : Text) := by decide +kernel
example : fraction? "1/3" = some ("33.333333%" : Text) := by decide +kernel

end UtilityCss
