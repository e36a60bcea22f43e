/-
Manifests: rules computed in advance.

A manifest holds the rules of a set of tokens, so that a page can be served
without resolving its tokens again. It comes back from a file whose fields are
not checked, so a field may hold any JSON value; such a value is shown as it is
displayed.

* `StoredRule` — a rule with fields of any kind;
* `StoredRule.sheet` — the sheet of stored rules, unless a media query is an
  array or an object;
* `Manifest`, `Manifest.build` — the manifest of a list of tokens;
* `Manifest.cssFor` — the sheet of the stored rules of some tokens;
* `Manifest.same` — equality of manifests as values.
-/
import UtilityCss.Compile
import UtilityCss.Json.Display

namespace UtilityCss

/-! ### Stored rules -/

/-- A rule whose fields may hold any value. -/
structure StoredRule where
  selector : Json
  declarations : Json
  media : Json

/-- A value that cannot stand where values are looked up by: an array or an
object. -/
structure Unhashable where
  kind : Json.Kind
  deriving DecidableEq

/-- The wording of the failure. -/
def Unhashable.message (u : Unhashable) : Text :=
  "unhashable type: '" ++ u.kind.name ++ "'"

/-- A rule with its fields written out. -/
def Rule.stored (r : Rule) : StoredRule where
  selector := .text r.selector.text
  declarations := .text (declarationText r.declarations)
  media := r.media.elim .null fun media => .text media.query

namespace StoredRule

/-- The text of a stored rule. -/
def text (r : StoredRule) : Text :=
  ruleText r.selector.display r.declarations.display

/-- The media query of a stored rule; one that counts as nothing is none. -/
def mediaKey (r : StoredRule) : Except Unhashable (Option Scalar) :=
  if r.media.isBlank then .ok none
  else
    match r.media with
    | .scalar key => .ok (some key)
    | json => .error ⟨json.kind⟩

/-- The entry of a stored rule in a sheet. -/
def entry (r : StoredRule) : Except Unhashable (Sheet.Entry Scalar) :=
  r.mediaKey.map fun media => ⟨media, r.text⟩

/-- The sheet of a list of stored rules. Media queries that are equal as values
share a block, which shows the first of them. -/
def sheet (rules : List StoredRule) : Except Unhashable Text :=
  (rules.mapM entry).map (Sheet.render Scalar.display)

/-- Whether two stored rules are equal as values. -/
def same (a b : StoredRule) : Bool :=
  a.selector.same b.selector && a.declarations.same b.declarations && a.media.same b.media

/-- Whether two lists of stored rules are equal as values. -/
def sameList : List StoredRule → List StoredRule → Bool
  | [], [] => true
  | a :: as, b :: bs => a.same b && sameList as bs
  | _, _ => false

end StoredRule

/-! ### Variants -/

/-- Named conditions; a name may be any scalar, and no two names are equal as
values. -/
abbrev Variants := List (Scalar × Json)

namespace Variants

/-- The value of a name. -/
def find? (name : Scalar) : Variants → Option Json
  | [] => none
  | (key, value) :: variants => if key.same name then some value else find? name variants

/-- Sets the value of a name: in its place if an equal name is there, at the end
otherwise. -/
def set (name : Scalar) (value : Json) : Variants → Variants
  | [] => [(name, value)]
  | (key, old) :: variants =>
    if key.same name then (key, value) :: variants else (key, old) :: set name value variants

/-- Whether two lists of variants are equal, without regard to order. -/
def same (a b : Variants) : Bool :=
  a.length = b.length &&
    a.all fun (name, value) =>
      match find? name b with
      | some other => value.same other
      | none => false

end Variants

/-! ### Manifests -/

/-- The stored rules of a set of tokens. -/
structure Manifest where
  version : Json
  generatedAt : Json
  /-- The rules of each token. -/
  rules : List (Text × List StoredRule)
  variants : Variants
  /-- The baseline at the time of writing. -/
  critical : Json

namespace Manifest

/-- The version of a manifest for which none is given. -/
def defaultVersion : Text := "1.0.0"

/-- The manifest of a list of tokens, marked with a version and a time. -/
def build (tokens : List Text) (version : Json) (generatedAt : Text) : Manifest where
  version := version
  generatedAt := .text generatedAt
  rules := (resolveAll tokens).map fun (token, rule) => (token, [rule.stored])
  variants := Breakpoint.all.map fun b => (.text b.name, .text b.query)
  critical := .text baseline

/-- The stored rules of a token. -/
def rulesOf (m : Manifest) (token : Text) : List StoredRule :=
  (m.rules.lookup token).getD []

/-- The sheet of the stored rules of some tokens. A token that comes again, or
is not stored, adds nothing. -/
def cssFor (m : Manifest) (tokens : List Text) : Except Unhashable Text :=
  StoredRule.sheet ((TokenSet.ofList tokens).items.flatMap m.rulesOf)

/-- Whether the same tokens have the same rules, without regard to the order of
the tokens. -/
def sameRules (a b : List (Text × List StoredRule)) : Bool :=
  a.length = b.length &&
    a.all fun (token, rules) =>
      match b.lookup token with
      | some others => StoredRule.sameList rules others
      | none => false

/-- Whether two manifests are equal as values. -/
def same (a b : Manifest) : Bool :=
  a.version.same b.version && a.generatedAt.same b.generatedAt && sameRules a.rules b.rules &&
    a.variants.same b.variants && a.critical.same b.critical

end Manifest

end UtilityCss
