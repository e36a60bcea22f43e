/-
From tokens to a sheet.

* `resolveAll` — each distinct token that stands for a rule, with its rule;
* `compile` — the sheet of a list of tokens;
* `pageSheet` — the sheet of a page tree, after the baseline if wanted.
-/
import UtilityCss.Baseline
import UtilityCss.Sheet
import UtilityCss.Tree

namespace UtilityCss

/-- Each distinct token that stands for a rule, with its rule, in the order in
which the tokens first occur. -/
def resolveAll (tokens : List Text) : List (Text × Rule) :=
  (TokenSet.ofList tokens).items.filterMap fun token => (resolve? token).map (token, ·)

/-- The distinct tokens that stand for no rule, in the order in which they first
occur. -/
def unresolved (tokens : List Text) : List Text :=
  (TokenSet.ofList tokens).items.filter fun token => (resolve? token).isNone

/-- The sheet of a list of tokens. A token that comes again, or stands for no
rule, adds nothing. -/
def compile (tokens : List Text) : Text :=
  Rule.sheet ((resolveAll tokens).map Prod.snd)

/-- The sheet of a page tree, after the baseline if `withBaseline`. -/
def pageSheet (tree : Json) (withBaseline : Bool) : Text :=
  (if withBaseline then baseline else []) ++ compile (Tree.extract tree).tokens.items

end UtilityCss
