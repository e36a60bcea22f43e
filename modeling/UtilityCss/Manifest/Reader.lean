/-
Reading manifests.

The reader takes the fields of an object in a fixed order, the rules first, and
reports the first offence.

* `Offence` — what is wrong with a value, and its wording;
* `StoredRule.ofJson` — a rule;
* `Manifest.ofJson` — a manifest;
* `Manifest.load` — a manifest from the text of a file.
-/
import UtilityCss.Manifest.Basic
import UtilityCss.Json.Parser

namespace UtilityCss

/-! ### Offences -/

/-- What is wrong with a value. -/
inductive Offence where
  /-- The rules are no object. -/
  | notAnObject (kind : Json.Kind)
  /-- A value that should have items has none. -/
  | notIterable (kind : Json.Kind)
  /-- A rule is a text. -/
  | textRule
  /-- A rule is an array. -/
  | arrayRule
  /-- A rule is a scalar other than a text. -/
  | scalarRule (kind : Json.Kind)
  /-- A field is missing. -/
  | missing (name : Text)
  /-- An item of the variants has no parts. -/
  | noParts (index : Nat)
  /-- An item of the variants has not two parts. -/
  | partCount (index count : Nat)
  /-- A name is an array or an object. -/
  | unhashable (u : Unhashable)
  deriving DecidableEq

namespace Offence

/-- The classes of offences. -/
inductive Class where
  | key | type | member | value
  deriving DecidableEq

/-- The name of a class. -/
def Class.name : Class → Text
  | key => "KeyError"
  | type => "TypeError"
  | member => "AttributeError"
  | value => "ValueError"

/-- The class of an offence. -/
def cls : Offence → Class
  | notAnObject _ => .member
  | missing _ => .key
  | partCount .. => .value
  | _ => .type

/-- What an offence tells about. -/
def detail : Offence → Text
  | notAnObject kind => "'" ++ kind.name ++ "' object has no attribute 'items'"
  | notIterable kind => "'" ++ kind.name ++ "' object is not iterable"
  | textRule => "string indices must be integers, not 'str'"
  | arrayRule => "list indices must be integers or slices, not str"
  | scalarRule kind => "'" ++ kind.name ++ "' object is not subscriptable"
  | missing name => name
  | noParts index =>
    "cannot convert dictionary update sequence element #" ++ Text.decimal index ++
      " to a sequence"
  | partCount index count =>
    "dictionary update sequence element #" ++ Text.decimal index ++ " has length " ++
      Text.decimal count ++ "; 2 is required"
  | unhashable u => u.message

/-- The wording of an offence by itself; a missing name is quoted. -/
def message (o : Offence) : Text :=
  match o.cls with
  | .key => Text.quote o.detail
  | _ => o.detail

/-- The wording of an offence together with its class. -/
def classified (o : Offence) : Text :=
  o.cls.name ++ "(" ++ Text.quote o.detail ++ ")"

end Offence

/-! ### Rules -/

/-- A field that must be there. -/
def require (name : Text) (fields : List (Text × Json)) : Except Offence Json :=
  match Json.lookup name fields with
  | some json => .ok json
  | none => .error (.missing name)

/-- The items of a value: those of an array, the characters of a text, the names
of an object. -/
def Json.iterate : Json → Except Offence (List Json)
  | .array items => .ok items
  | .text s => .ok (s.map fun c => .text [c])
  | .object fields => .ok (fields.map fun (name, _) => .text name)
  | json => .error (.notIterable json.kind)

namespace StoredRule

/-- The rule a value describes. -/
def ofJson : Json → Except Offence StoredRule
  | .object fields => do
    let selector ← require "selector" fields
    let declarations ← require "declarations" fields
    .ok ⟨selector, declarations, (Json.lookup "mediaQuery" fields).getD .null⟩
  | .text _ => .error .textRule
  | .array _ => .error .arrayRule
  | .scalar s => .error (.scalarRule s.kind)

/-- The rules a value lists. -/
def listOfJson (json : Json) : Except Offence (List StoredRule) := do
  let items ← json.iterate
  items.mapM ofJson

end StoredRule

namespace Manifest

/-- The rules of all tokens; none if the field is left out. -/
def readRules : Option Json → Except Offence (List (Text × List StoredRule))
  | none => .ok []
  | some (.object fields) => fields.mapM fun (token, json) => do
      let rules ← StoredRule.listOfJson json
      .ok (token, rules)
  | some json => .error (.notAnObject json.kind)

/-! ### Variants -/

/-- The name and the value that an item of the variants consists of. -/
def readVariant (index : Nat) (item : Json) : Except Offence (Scalar × Json) := do
  let parts ← item.iterate.mapError fun _ => .noParts index
  match parts with
  | [.scalar name, value] => .ok (name, value)
  | [name, _] => .error (.unhashable ⟨name.kind⟩)
  | _ => .error (.partCount index parts.length)

/-- The variants: the fields of an object, or items of two parts each. -/
def readVariants : Option Json → Except Offence Variants
  | none => .ok []
  | some (.object fields) => .ok (fields.map fun (name, value) => (.text name, value))
  | some json => do
    let items ← json.iterate
    let entries ← items.zipIdx.mapM fun (item, index) => readVariant index item
    .ok (entries.foldl (fun variants (name, value) => variants.set name value) [])

/-! ### Manifests -/

/-- A manifest from its fields and its variants, which are read last. -/
def ofFields (fields : List (Text × Json)) (variants : Except Offence Variants) :
    Except Offence Manifest := do
  let rules ← readRules (Json.lookup "rules" fields)
  let version ← require "version" fields
  let generatedAt ← require "generatedAt" fields
  let variants ← variants
  .ok ⟨version, generatedAt, rules, variants, (Json.lookup "critical" fields).getD (.text [])⟩

/-- Why a value is not a manifest. -/
inductive ReadError where
  | notAnObject
  | invalidJson (e : Json.ParseError)
  | offence (o : Offence)
  deriving DecidableEq

namespace ReadError

/-- Whether the failure is reported as that of a manifest. An item of the
variants with a wrong number of parts, and a text beyond the limits of the
reader, are reported by themselves. -/
def isManifestError : ReadError → Bool
  | notAnObject => true
  | invalidJson e => e.isSyntax
  | offence o => o.cls ≠ .value

/-- The wording of a failure. -/
def message : ReadError → Text
  | notAnObject => "manifest must be a JSON object"
  | invalidJson e => if e.isSyntax then "invalid JSON: " ++ e.message else e.message
  | offence o => if o.cls = .value then o.message else "malformed manifest: " ++ o.classified

/-- The wording of a failure with the path of the file. -/
def messageAt (path : Text) (e : ReadError) : Text :=
  if e.isManifestError then path ++ ": " ++ e.message else e.message

end ReadError

/-- The manifest a value describes. -/
def ofJson : Json → Except ReadError Manifest
  | .object fields =>
    (ofFields fields (readVariants (Json.lookup "variants" fields))).mapError .offence
  | _ => .error .notAnObject

/-- The manifest in the text of a file. -/
def load (text : Text) : Except ReadError Manifest :=
  match Json.parse (Text.unifyNewlines text) with
  | .ok json => ofJson json
  | .error e => .error (.invalidJson e)

end Manifest

end UtilityCss
