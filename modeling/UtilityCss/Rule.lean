/-
Rules and the tokens that stand for them.

A token is a utility behind at most one breakpoint and at most one variant, in
that order: `[breakpoint:][variant:]utility`.

* `Rule` — a selector, declarations and a media query;
* `resolveUtility?`, `resolveVariant?`, `resolveBreakpoint?` — the rule of a
  token of one shape: no prefix, a variant, a breakpoint with or without a
  variant;
* `resolve?` — the rule of a token of any shape.
-/
import UtilityCss.Selector
import UtilityCss.Utility.Basic

namespace UtilityCss

/-- The rule of one token. -/
structure Rule where
  selector : Selector
  declarations : List Declaration
  /-- The media query the rule depends on; `none` for a global rule. -/
  media : Option Media
  deriving DecidableEq

namespace Rule

/-- The rule of a utility for the class `token`. -/
def ofUtility (token : Text) (u : Utility) : Rule where
  selector := ⟨token, none, u.isBetweenChildren⟩
  declarations := u.declarations
  media := none

/-- The rule for another class, under the same conditions. -/
def withToken (token : Text) (r : Rule) : Rule :=
  { r with selector := { r.selector with token } }

end Rule

/-- The rule of a token without prefixes. -/
def resolveUtility? (token : Text) : Option Rule :=
  (Utility.ofToken? token).map (Rule.ofUtility token)

/-- The rule of a variant before a token without prefixes. -/
def resolveVariant? (token : Text) : Option Rule := do
  let (name, rest) ← Text.cut? ':' token
  let variant ← Variant.ofName? name
  let rule ← resolveUtility? rest
  some
    { rule with
      selector := { rule.selector with token, variant := some variant }
      media := variant.media? }

/-- The rule of a breakpoint before a token without breakpoint. Its media query
takes the place of the one the variant has. -/
def resolveBreakpoint? (token : Text) : Option Rule := do
  let (name, rest) ← Text.cut? ':' token
  let breakpoint ← Breakpoint.ofName? name
  let rule ← resolveVariant? rest <|> resolveUtility? rest
  some { rule.withToken token with media := some (.minWidth breakpoint) }

/-- The rule of a token; `none` if it stands for no rule. -/
def resolve? (token : Text) : Option Rule :=
  resolveBreakpoint? token <|> resolveVariant? token <|> resolveUtility? token

end UtilityCss
