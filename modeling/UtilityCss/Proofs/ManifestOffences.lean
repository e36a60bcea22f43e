/-
All that is wrong with a manifest.

A value is read as a manifest unless something is wrong with it, and then the first of its
offences is reported: those of its rules come first, in the order of the text, then a missing
version, a missing time, and those of its variants, item by item.

* `Reports` — a reader that fails with the first of some offences, and only if there is one;
* `Reports.bind`, `Reports.mapM` — offences of one step after another, and of the items of a list;
* `StoredRule.offences`, `Manifest.ruleOffences`, `Manifest.variantOffences`, `Manifest.offences` —
  all offences of a rule, of the rules, of the variants and of a value, in their order;
* `Manifest.reports_ofJson` — the reader of manifests goes through the offences of a value;
* `Json.IsManifest`, `Manifest.offences_eq_nil_iff` — the values without an offence;
* `StoredRule.IsReadFrom`, `Manifest.isReadFrom_ofJson` — what has been read;
* `Manifest.first_offence` — all of this together.
-/
import UtilityCss.Proofs.ManifestRestorable

namespace UtilityCss

/-! ### Readers that report the first offence -/

/-- A reader that fails with the first of some offences, and only if there is one. -/
def Reports {ε α : Type} (x : Except ε α) (offences : List ε) : Prop :=
  ∀ e, x = .error e ↔ offences.head? = some e

section Reports

variable {ε ε' α β : Type} {x : Except ε α} {offences : List ε}

theorem reports_ok (a : α) : Reports (.ok a : Except ε α) [] := by
  intro e
  simp

theorem reports_error (e : ε) : Reports (.error e : Except ε α) [e] := by
  intro e'
  simp

/-- Without an offence there is a result, and with one there is none. -/
theorem Reports.exists_ok_iff (h : Reports x offences) : (∃ a, x = .ok a) ↔ offences = [] := by
  cases x with
  | ok a =>
    have hnone : offences.head? = none := by
      refine Option.eq_none_iff_forall_ne_some.mpr fun e he => ?_
      exact absurd ((h e).mpr he) (by simp)
    simpa using List.head?_eq_none_iff.mp hnone
  | error e =>
    have hsome : offences.head? = some e := (h e).mp rfl
    have hne : offences ≠ [] := by
      rintro rfl
      exact absurd hsome (by simp)
    simp [hne]

/-- The offences of a step stand before those of the next. -/
theorem Reports.bind {f : α → Except ε β} {later : List ε} (hx : Reports x offences)
    (hf : ∀ a, x = .ok a → Reports (f a) later) : Reports (x >>= f) (offences ++ later) := by
  cases x with
  | ok a =>
    rw [hx.exists_ok_iff.mp ⟨a, rfl⟩, List.nil_append]
    exact hf a rfl
  | error e =>
    intro e'
    have hhead : offences.head? = some e := (hx e).mp rfl
    show (Except.error e : Except ε β) = .error e' ↔ _
    rw [List.head?_append, hhead, Option.some_or, Except.error.injEq, Option.some.injEq]

/-- A step that cannot fail has no offences. -/
theorem Reports.bind_ok (hx : Reports x offences) (f : α → β) :
    Reports (x >>= fun a => .ok (f a)) offences := by
  have hstep := hx.bind (f := fun a => (.ok (f a) : Except ε β)) fun a _ => reports_ok (f a)
  rwa [List.append_nil] at hstep

theorem Reports.mapError (hx : Reports x offences) (f : ε → ε') :
    Reports (x.mapError f) (offences.map f) := by
  intro e
  have hhead : (offences.map f).head? = some e ↔ ∃ e', x = .error e' ∧ f e' = e := by
    rw [List.head?_map, Option.map_eq_some_iff]
    exact exists_congr fun e' => and_congr_left fun _ => (hx e').symm
  rw [hhead]
  cases x <;> simp [Except.mapError]

/-- The offences of the items of a list, one item after the other. -/
theorem Reports.mapM {read : α → Except ε β} {itemOffences : α → List ε} {l : List α}
    (h : ∀ a ∈ l, Reports (read a) (itemOffences a)) :
    Reports (l.mapM read) (l.flatMap itemOffences) := by
  induction l with
  | nil => exact reports_ok []
  | cons a l ih =>
    obtain ⟨ha, hl⟩ := List.forall_mem_cons.mp h
    rw [List.mapM_cons, List.flatMap_cons]
    exact ha.bind fun b _ => (ih hl).bind_ok (b :: ·)

end Reports

/-! ### Rules -/

/-- The offence of fields among which a name is missing. -/
def missingField (name : Text) (fields : List (Text × Json)) : List Offence :=
  match Json.lookup name fields with
  | some _ => []
  | none => [.missing name]

theorem reports_require (name : Text) (fields : List (Text × Json)) :
    Reports (require name fields) (missingField name fields) := by
  rw [require.eq_def, missingField.eq_def]
  cases Json.lookup name fields with
  | some json => exact reports_ok json
  | none => exact reports_error _

theorem missingField_eq_nil_iff {name : Text} {fields : List (Text × Json)} :
    missingField name fields = [] ↔ Json.lookup name fields ≠ none := by
  rw [missingField.eq_def]
  cases Json.lookup name fields <;> simp

namespace StoredRule

/-- What is wrong with a value that stands for a rule. -/
def offences : Json → List Offence
  | .object fields => missingField "selector" fields ++ missingField "declarations" fields
  | .text _ => [.textRule]
  | .array _ => [.arrayRule]
  | .scalar s => [.scalarRule s.kind]

/-- What is wrong with a value that lists rules.  A text lists its characters, and an object its
names, none of which is a rule. -/
def listOffences : Json → List Offence
  | .array items => items.flatMap offences
  | .object fields => fields.map fun _ => .textRule
  | .text s => s.map fun _ => .textRule
  | .scalar s => [.notIterable s.kind]

theorem reports_ofJson (json : Json) : Reports (ofJson json) (offences json) := by
  cases json with
  | object fields =>
    exact (reports_require _ _).bind fun _ _ => (reports_require _ _).bind_ok _
  | array items => exact reports_error _
  | scalar s => cases s <;> exact reports_error _

theorem reports_listOfJson (json : Json) : Reports (listOfJson json) (listOffences json) := by
  have hitems (items : List Json) : Reports (items.mapM ofJson) (items.flatMap offences) :=
    Reports.mapM fun item _ => reports_ofJson item
  cases json with
  | array items => exact hitems items
  | object fields =>
    have hnames : (fields.map fun f => Json.text f.1).flatMap offences =
        listOffences (.object fields) := by
      rw [List.flatMap_map, listOffences, List.map_eq_flatMap]
      rfl
    rw [← hnames]
    exact hitems _
  | scalar s =>
    cases s with
    | text t =>
      have hcharacters : (t.map fun c => Json.text [c]).flatMap offences =
          listOffences (.text t) := by
        rw [List.flatMap_map, listOffences, List.map_eq_flatMap]
        rfl
      rw [← hcharacters]
      exact hitems _
    | _ => exact reports_error _

end StoredRule

/-! ### Manifests -/

namespace Manifest

/-- What is wrong with the rules of all tokens. -/
def ruleOffences : Option Json → List Offence
  | none => []
  | some (.object fields) => fields.flatMap fun f => StoredRule.listOffences f.2
  | some json => [.notAnObject json.kind]

/-- What is wrong with the parts of a variant, which should be a name and a value. -/
def partOffences (index : Nat) (parts : List Json) : List Offence :=
  match parts with
  | [.scalar _, _] => []
  | [name, _] => [.unhashable ⟨name.kind⟩]
  | _ => [.partCount index parts.length]

/-- What is wrong with an item of the variants.  The parts of a text are its characters, and those
of an object its names. -/
def itemOffences (index : Nat) : Json → List Offence
  | .array items => partOffences index items
  | .object fields => if fields.length = 2 then [] else [.partCount index fields.length]
  | .text s => if s.length = 2 then [] else [.partCount index s.length]
  | .scalar _ => [.noParts index]

/-- What is wrong with the variants.  A text has its characters as items, none of which has two
parts. -/
def variantOffences : Option Json → List Offence
  | none => []
  | some (.object _) => []
  | some (.array items) => items.zipIdx.flatMap fun (item, index) => itemOffences index item
  | some (.text s) => s.zipIdx.map fun (_, index) => .partCount index 1
  | some (.scalar s) => [.notIterable s.kind]

/-- All that is wrong with a value that stands for a manifest: its rules in the order of the text,
its version, its time and its variants. -/
def offences : Json → List ReadError
  | .object fields =>
    (ruleOffences (Json.lookup "rules" fields) ++ missingField "version" fields ++
      missingField "generatedAt" fields ++
      variantOffences (Json.lookup "variants" fields)).map .offence
  | _ => [.notAnObject]

theorem reports_readRules (json : Option Json) : Reports (readRules json) (ruleOffences json) := by
  rcases json with _ | json
  · exact reports_ok []
  · cases json with
    | object fields =>
      exact Reports.mapM fun f _ => (StoredRule.reports_listOfJson f.2).bind_ok (f.1, ·)
    | array items => exact reports_error _
    | scalar s => exact reports_error _

theorem partOffences_of_length_ne {parts : List Json} (h : parts.length ≠ 2) (index : Nat) :
    partOffences index parts = [.partCount index parts.length] := by
  rw [partOffences.eq_def]
  split
  · exact absurd rfl h
  · exact absurd rfl h
  · rfl

/-- A wrong number of parts is the only offence of an item. -/
theorem reports_partCount {item : Json} {parts : List Json} (hparts : item.iterate = .ok parts)
    (hlength : parts.length ≠ 2) (index : Nat) :
    Reports (readVariant index item) [.partCount index parts.length] := by
  have hread : readVariant index item = .error (.partCount index parts.length) :=
    (readVariant_eq_error_iff rfl).mpr ⟨parts, hparts, hlength, rfl⟩
  rw [hread]
  exact reports_error _

theorem reports_readVariant (index : Nat) (item : Json) :
    Reports (readVariant index item) (itemOffences index item) := by
  cases item with
  | array items =>
    rw [itemOffences]
    by_cases hlength : items.length = 2
    · obtain ⟨name, value, rfl⟩ := List.length_eq_two.mp hlength
      cases name with
      | scalar s => exact reports_ok (s, value)
      | array _ => exact reports_error _
      | object _ => exact reports_error _
    · rw [partOffences_of_length_ne hlength]
      exact reports_partCount rfl hlength index
  | object fields =>
    rw [itemOffences]
    by_cases hlength : fields.length = 2
    · obtain ⟨first, second, rfl⟩ := List.length_eq_two.mp hlength
      exact reports_ok (Scalar.text first.1, Json.text second.1)
    · have hparts : (Json.object fields).iterate = .ok (fields.map fun f => .text f.1) := rfl
      have hcount := reports_partCount hparts (by rwa [List.length_map]) index
      rw [if_neg hlength]
      rwa [List.length_map] at hcount
  | scalar s =>
    cases s with
    | text t =>
      rw [itemOffences]
      by_cases hlength : t.length = 2
      · obtain ⟨c, d, rfl⟩ := List.length_eq_two.mp hlength
        exact reports_ok (Scalar.text [c], Json.text [d])
      · have hparts : (Json.text t).iterate = .ok (t.map fun c => .text [c]) := rfl
        have hcount := reports_partCount hparts (by rwa [List.length_map]) index
        rw [if_neg hlength]
        rwa [List.length_map] at hcount
    | _ => exact reports_error _

theorem reports_readVariants (json : Option Json) :
    Reports (readVariants json) (variantOffences json) := by
  have hitems (items : List Json) :
      Reports (items.zipIdx.mapM fun e => readVariant e.2 e.1)
        (items.zipIdx.flatMap fun e => itemOffences e.2 e.1) :=
    Reports.mapM fun e _ => reports_readVariant e.2 e.1
  rcases json with _ | json
  · exact reports_ok []
  · cases json with
    | object fields => exact reports_ok _
    | array items => exact (hitems items).bind_ok _
    | scalar s =>
      cases s with
      | text t =>
        have hcharacters : ((t.map fun c => Json.text [c]).zipIdx.flatMap fun e =>
            itemOffences e.2 e.1) = variantOffences (some (.text t)) := by
          rw [List.zipIdx_map, List.flatMap_map, variantOffences, List.map_eq_flatMap]
          rfl
        rw [← hcharacters]
        exact (hitems _).bind_ok _
      | _ => exact reports_error _

theorem reports_ofJson (json : Json) : Reports (ofJson json) (offences json) := by
  cases json with
  | object fields =>
    have hfields : Reports (ofFields fields (readVariants (Json.lookup "variants" fields)))
        (ruleOffences (Json.lookup "rules" fields) ++ (missingField "version" fields ++
          (missingField "generatedAt" fields ++
            variantOffences (Json.lookup "variants" fields)))) :=
      (reports_readRules _).bind fun _ _ => (reports_require _ _).bind fun _ _ =>
        (reports_require _ _).bind fun _ _ => (reports_readVariants _).bind_ok _
    rw [offences, List.append_assoc, List.append_assoc]
    exact hfields.mapError ReadError.offence
  | array items => exact reports_error _
  | scalar s => exact reports_error _

end Manifest

/-! ### Values without an offence -/

namespace Json

/-- An object with a selector and declarations. -/
def IsRule (json : Json) : Prop :=
  ∃ fields, json = .object fields ∧ lookup "selector" fields ≠ none ∧
    lookup "declarations" fields ≠ none

/-- An array of rules, or an empty text or object. -/
def IsRuleList (json : Json) : Prop :=
  json = .text [] ∨ json = .object [] ∨
    ∃ items, json = .array items ∧ ∀ item ∈ items, item.IsRule

/-- A name and a value: two items the first of which is neither an array nor an object, two
characters, or the two names of an object. -/
def IsPair (json : Json) : Prop :=
  (∃ name value, json = .array [name, value] ∧ name.kind ≠ .array ∧ name.kind ≠ .object) ∨
    (∃ c d, json = .text [c, d]) ∨ ∃ first second, json = .object [first, second]

/-- An object with lists of rules and with pairs as variants, either of which may be left out, with
a version and with a time. -/
structure IsManifest (json : Json) : Prop where
  object : json.kind = .object
  rules : ∀ rules, json.field? "rules" = some rules →
    ∃ entries, rules = .object entries ∧ ∀ e ∈ entries, e.2.IsRuleList
  version : json.field? "version" ≠ none
  generatedAt : json.field? "generatedAt" ≠ none
  variants : ∀ variants, json.field? "variants" = some variants →
    variants.kind = .object ∨ variants = .text [] ∨
      ∃ items, variants = .array items ∧ ∀ item ∈ items, item.IsPair

theorem kind_scalar_ne (s : Scalar) : s.kind ≠ .array ∧ s.kind ≠ .object := by
  cases s <;> exact ⟨by simp [Scalar.kind], by simp [Scalar.kind]⟩

end Json

namespace StoredRule

theorem offences_eq_nil_iff {json : Json} : offences json = [] ↔ json.IsRule := by
  cases json with
  | object fields => simp [offences, missingField_eq_nil_iff, Json.IsRule]
  | array items => simp [offences, Json.IsRule]
  | scalar s => cases s <;> simp [offences, Json.IsRule]

theorem listOffences_eq_nil_iff {json : Json} : listOffences json = [] ↔ json.IsRuleList := by
  cases json with
  | object fields => simp [listOffences, Json.IsRuleList]
  | array items => simp [listOffences, Json.IsRuleList, offences_eq_nil_iff]
  | scalar s => cases s <;> simp [listOffences, Json.IsRuleList]

end StoredRule

namespace Manifest

theorem ruleOffences_eq_nil_iff {json : Option Json} :
    ruleOffences json = [] ↔ ∀ rules, json = some rules →
      ∃ entries, rules = .object entries ∧ ∀ e ∈ entries, e.2.IsRuleList := by
  rcases json with _ | json
  · simp [ruleOffences]
  · cases json <;> simp [ruleOffences, StoredRule.listOffences_eq_nil_iff]

theorem itemOffences_eq_nil_iff {index : Nat} {item : Json} :
    itemOffences index item = [] ↔ item.IsPair := by
  cases item with
  | array items =>
    rw [itemOffences, partOffences.eq_def]
    split
    · rename_i s value
      simp [Json.IsPair, Json.kind, Json.kind_scalar_ne s]
    · rename_i name value hscalar
      cases name with
      | scalar s => exact absurd rfl (hscalar s)
      | array _ => simp [Json.IsPair, Json.kind]
      | object _ => simp [Json.IsPair, Json.kind]
    · rename_i hscalar hpair
      simp only [Json.IsPair, List.cons_ne_nil, false_iff, not_or, not_exists, not_and]
      refine ⟨fun name value heq => absurd (Json.array.inj heq) (hpair name value), ?_, ?_⟩
      · simp
      · simp
  | object fields =>
    rw [itemOffences, Json.IsPair]
    simp [List.length_eq_two]
  | scalar s =>
    cases s with
    | text t =>
      rw [itemOffences, Json.IsPair]
      simp [List.length_eq_two]
    | _ => simp [itemOffences, Json.IsPair]

theorem variantOffences_eq_nil_iff {json : Option Json} :
    variantOffences json = [] ↔ ∀ variants, json = some variants →
      variants.kind = .object ∨ variants = .text [] ∨
        ∃ items, variants = .array items ∧ ∀ item ∈ items, item.IsPair := by
  rcases json with _ | json
  · simp [variantOffences]
  · cases json with
    | object fields => simp [variantOffences, Json.kind]
    | array items =>
      have hitems : (∀ item index, (item, index) ∈ items.zipIdx → itemOffences index item = []) ↔
          ∀ item ∈ items, item.IsPair := by
        simp only [itemOffences_eq_nil_iff]
        constructor
        · intro h item hitem
          obtain ⟨i, hi, rfl⟩ := List.mem_iff_getElem.mp hitem
          exact h _ i (List.mk_mem_zipIdx_iff_getElem?.mpr (List.getElem?_eq_getElem hi))
        · intro h item index hmem
          exact h item (List.fst_mem_of_mem_zipIdx hmem)
      simp [variantOffences, Json.kind, hitems]
    | scalar s => cases s <;> simp [variantOffences, Json.kind, Scalar.kind]

theorem offences_eq_nil_iff {json : Json} : offences json = [] ↔ json.IsManifest := by
  cases json with
  | object fields =>
    simp only [offences, List.map_eq_nil_iff, List.append_eq_nil_iff, ruleOffences_eq_nil_iff,
      missingField_eq_nil_iff, variantOffences_eq_nil_iff]
    constructor
    · rintro ⟨⟨⟨hrules, hversion⟩, hgenerated⟩, hvariants⟩
      exact ⟨rfl, hrules, hversion, hgenerated, hvariants⟩
    · intro h
      exact ⟨⟨⟨h.rules, h.version⟩, h.generatedAt⟩, h.variants⟩
  | array items =>
    constructor
    · intro h
      exact absurd h (by simp [offences])
    · intro h
      exact absurd h.object (by simp [Json.kind])
  | scalar s =>
    constructor
    · intro h
      exact absurd h (by simp [offences])
    · intro h
      exact absurd h.object (Json.kind_scalar_ne s).2

end Manifest

/-! ### What is read -/

/-- The items of an array. -/
def Json.elements : Json → List Json
  | .array items => items
  | _ => []

/-- The fields of an object. -/
def Json.members : Json → List (Text × Json)
  | .object fields => fields
  | _ => []

/-- A rule with the fields of an object; a media query that is left out is null. -/
structure StoredRule.IsReadFrom (json : Json) (r : StoredRule) : Prop where
  selector : json.field? "selector" = some r.selector
  declarations : json.field? "declarations" = some r.declarations
  media : r.media = (json.field? "mediaQuery").getD .null

theorem StoredRule.isReadFrom_ofJson {json : Json} {r : StoredRule} (h : ofJson json = .ok r) :
    r.IsReadFrom json := by
  cases json with
  | object fields =>
    simp only [ofJson, bind_eq_ok_iff, require_eq_ok_iff] at h
    obtain ⟨selector, hselector, declarations, hdeclarations, hr⟩ := h
    obtain rfl := Except.ok.inj hr
    exact ⟨hselector, hdeclarations, rfl⟩
  | array items => exact absurd h (by simp [ofJson])
  | scalar s => cases s <;> exact absurd h (by simp [ofJson])

/-- The rules of a list are read item by item. -/
theorem StoredRule.isReadFrom_listOfJson {json : Json} {rules : List StoredRule}
    (h : listOfJson json = .ok rules) : List.Forall₂ IsReadFrom json.elements rules := by
  have hlist : json.IsRuleList :=
    listOffences_eq_nil_iff.mp ((reports_listOfJson json).exists_ok_iff.mp ⟨rules, h⟩)
  rcases hlist with rfl | rfl | ⟨items, rfl, -⟩
  · obtain rfl := Except.ok.inj h
    exact List.Forall₂.nil
  · obtain rfl := Except.ok.inj h
    exact List.Forall₂.nil
  · have hitems : items.mapM ofJson = .ok rules := h
    exact (mapM_eq_ok_iff.mp hitems).imp fun _ _ hr => isReadFrom_ofJson hr

namespace Manifest

/-- The tokens are read in their order, each with the rules of its list. -/
theorem isReadFrom_readRules {json : Option Json} {rules : List (Text × List StoredRule)}
    (h : readRules json = .ok rules) :
    List.Forall₂ (fun f e => e.1 = f.1 ∧ List.Forall₂ StoredRule.IsReadFrom f.2.elements e.2)
      (json.elim [] Json.members) rules := by
  rcases json with _ | json
  · obtain rfl := Except.ok.inj h
    exact List.Forall₂.nil
  · cases json with
    | object fields =>
      refine (mapM_eq_ok_iff.mp h).imp fun f e he => ?_
      obtain ⟨list, hlist, he⟩ := bind_eq_ok_iff.mp he
      obtain rfl := Except.ok.inj he
      exact ⟨rfl, StoredRule.isReadFrom_listOfJson hlist⟩
    | array items => exact absurd h (by simp [readRules])
    | scalar s => exact absurd h (by simp [readRules])

theorem isReadFrom_ofJson {json : Json} {m : Manifest} (h : ofJson json = .ok m) :
    List.Forall₂ (fun f e => e.1 = f.1 ∧ List.Forall₂ StoredRule.IsReadFrom f.2.elements e.2)
      ((json.field? "rules").elim [] Json.members) m.rules := by
  cases json with
  | object fields =>
    cases hfields : ofFields fields (readVariants (Json.lookup "variants" fields)) with
    | error o =>
      rw [ofJson, hfields] at h
      exact absurd h (by simp [Except.mapError])
    | ok other =>
      rw [ofJson, hfields] at h
      obtain rfl := Except.ok.inj h
      simp only [ofFields, bind_eq_ok_iff] at hfields
      obtain ⟨rules, hrules, version, -, generatedAt, -, variants, -, hok⟩ := hfields
      obtain rfl := Except.ok.inj hok
      exact isReadFrom_readRules hrules
  | array items => exact absurd h (by simp [ofJson])
  | scalar s => exact absurd h (by simp [ofJson])

/-- A value is read as a manifest exactly if it is an object with lists of rules, a version, a time
and pairs as variants; rules and variants may be left out.  Otherwise the first of its offences is
reported: the rules come first, in the order of the text, then the version, the time and the
variants, item by item.  The manifest has the tokens of the value in their order, and for each of
them the rules of its list. -/
theorem first_offence (json : Json) :
    ((∃ m, ofJson json = .ok m) ↔ json.IsManifest) ∧
    (∀ e, ofJson json = .error e ↔ (offences json).head? = some e) ∧
    ∀ m, ofJson json = .ok m →
      List.Forall₂ (fun f e => e.1 = f.1 ∧ List.Forall₂ StoredRule.IsReadFrom f.2.elements e.2)
        ((json.field? "rules").elim [] Json.members) m.rules := by
  refine ⟨?_, reports_ofJson json, fun m => isReadFrom_ofJson⟩
  rw [(reports_ofJson json).exists_ok_iff, offences_eq_nil_iff]

/-- A value with rules in each of the forms they may have, and a variant in each. -/
def variedJson : Json :=
  .object
    [("variants", .array [.text "ab", .array [.null, .array []],
       .object [("x", .null), ("y", .null)]]),
     ("rules", .object [("t", .text []), ("u", .array [.object [("declarations", .text "d"),
       ("selector", .text "s")]]), ("v", .object [])]),
     ("version", .scalar (.int 1)), ("generatedAt", .null)]

/-- The manifest of `variedJson`. -/
def variedManifest : Manifest where
  version := .scalar (.int 1)
  generatedAt := .null
  rules := [("t", []), ("u", [⟨.text "s", .text "d", .null⟩]), ("v", [])]
  variants := [(.text "a", .text "b"), (.null, .array []), (.text "x", .text "y")]
  critical := .text []

/-- A value with an offence of each part of a manifest. -/
def flawedJson : Json :=
  .object
    [("variants", .array [.text "abc"]),
     ("rules", .object [("t", .array [.object [("selector", .text "s")], .null])])]

theorem first_offence_varied :
    ofJson variedJson = .ok variedManifest ∧ variedJson.IsManifest ∧
    List.Forall₂ (fun f e => e.1 = f.1 ∧ List.Forall₂ StoredRule.IsReadFrom f.2.elements e.2)
      ((variedJson.field? "rules").elim [] Json.members) variedManifest.rules ∧
    offences flawedJson = [.offence (.missing "declarations"), .offence (.scalarRule .null),
      .offence (.missing "version"), .offence (.missing "generatedAt"),
      .offence (.partCount 0 3)] ∧
    ofJson flawedJson = .error (.offence (.missing "declarations")) := by
  have hread : ofJson variedJson = .ok variedManifest := rfl
  have hoffences : offences flawedJson = [.offence (.missing "declarations"),
      .offence (.scalarRule .null), .offence (.missing "version"),
      .offence (.missing "generatedAt"), .offence (.partCount 0 3)] := rfl
  refine ⟨hread, (first_offence variedJson).1.mp ⟨_, hread⟩,
    (first_offence variedJson).2.2 _ hread, hoffences, ?_⟩
  exact ((first_offence flawedJson).2.1 _).mpr (congrArg List.head? hoffences)

end Manifest

end UtilityCss
