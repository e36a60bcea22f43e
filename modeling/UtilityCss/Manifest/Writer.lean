/-
Writing manifests.

* `StoredRule.toFields` — the fields of a rule; a media query that counts as
  nothing is left out;
* `Manifest.toJson`, `Manifest.save` — a manifest as a value, and as the text of
  a file;
* `Manifest.reread?` — a manifest from its own fields, without a file between.
-/
import UtilityCss.Manifest.Reader
import UtilityCss.Json.Printer

namespace UtilityCss

/-- The fields of a stored rule. -/
def StoredRule.toFields (r : StoredRule) : List (Text × Json) :=
  let fields : List (Text × Json) := [("selector", r.selector), ("declarations", r.declarations)]
  let media : List (Text × Json) := [("mediaQuery", r.media)]
  if r.media.isBlank then fields else fields ++ media

namespace Manifest

/-- The rules of all tokens as a value. -/
def rulesJson (m : Manifest) : Json :=
  .object (m.rules.map fun (token, rules) => (token, .array (rules.map (.object ·.toFields))))

/-- The fields of a manifest other than its variants. -/
def toFields (m : Manifest) : List (Text × Json) :=
  [("version", m.version), ("generatedAt", m.generatedAt), ("rules", m.rulesJson),
   ("critical", m.critical)]

/-- A manifest as a value. Names of variants are written as texts. -/
def toJson (m : Manifest) : Json :=
  .object
    [("version", m.version), ("generatedAt", m.generatedAt), ("rules", m.rulesJson),
     ("variants", .object (m.variants.map fun (name, value) => (name.name, value))),
     ("critical", m.critical)]

/-- A manifest as the text of a file. -/
def save (m : Manifest) : Text :=
  m.toJson.indented

/-- The manifest read from the fields of a manifest. Its variants keep their
names, which a file would turn into texts. -/
def reread? (m : Manifest) : Except Offence Manifest :=
  ofFields m.toFields (.ok m.variants)

/-- Whether a manifest is equal to the one read from its fields. -/
def survivesRereading (m : Manifest) : Bool :=
  match m.reread? with
  | .ok m' => m'.same m
  | .error _ => false

end Manifest

end UtilityCss
