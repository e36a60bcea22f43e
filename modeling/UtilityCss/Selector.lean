/-
Selectors of utility rules.

A class name written in a selector keeps only letters, digits, hyphens and
underscores as they are; other ASCII punctuation is escaped by a backslash, and
a digit at the beginning by its code point, because an identifier does not
begin with a digit.

* `escape` — a class name as an identifier;
* `Selector` — a selector by its parts: the class, the variant, and whether it
  picks the children of the element;
* `Selector.text` — the written form.
-/
import UtilityCss.Prefix

namespace UtilityCss

/-! ### Class names -/

/-- ASCII punctuation other than hyphen and underscore. -/
def isSelectorSpecial (c : CodePoint) : Bool :=
  let n := c.toNat
  c ≠ '-' && c ≠ '_' &&
    ((0x21 ≤ n && n ≤ 0x2F) || (0x3A ≤ n && n ≤ 0x40) || (0x5B ≤ n && n ≤ 0x60) ||
      (0x7B ≤ n && n ≤ 0x7E))

/-- One character of an identifier. -/
def escapeChar (c : CodePoint) : Text :=
  if isSelectorSpecial c then ['\\', c] else [c]

/-- A class name as an identifier. -/
def escape (token : Text) : Text :=
  match token with
  | [] => []
  | c :: rest =>
    if c.isDigit then '\\' :: '3' :: c :: ' ' :: rest.flatMap escapeChar
    else (c :: rest).flatMap escapeChar

/-- The selector of a class. -/
def classSelector (token : Text) : Text :=
  '.' :: escape token

example : escape "2xl:p-0.5" = ("\\32 xl\\:p-0\\.5" : Text) := by decide +kernel

/-! ### Selectors -/

/-- A selector by its parts. -/
structure Selector where
  /-- The class: the whole token. -/
  token : Text
  /-- The condition on the element or on what is around it. -/
  variant : Option Variant
  /-- Whether every child but the first is meant, and not the element. -/
  betweenChildren : Bool
  deriving DecidableEq

namespace Selector

/-- What stands before the class: an ancestor the element must have. -/
def ancestor : Option Variant → Text
  | some .groupHover => ".group:hover "
  | some .dark => ".dark "
  | _ => ""

/-- What stands after the class: a state of the element. -/
def pseudoClass : Option Variant → Text
  | some (.state s) => ':' :: s.name
  | _ => ""

/-- The step from the element to its children, the first of the visible ones
left out. -/
def childStep : Text :=
  " > :not([hidden]) ~ :not([hidden])"

/-- The written form of a selector. -/
def text (s : Selector) : Text :=
  ancestor s.variant ++ classSelector s.token ++ pseudoClass s.variant ++
    (if s.betweenChildren then childStep else "")

end Selector

end UtilityCss
