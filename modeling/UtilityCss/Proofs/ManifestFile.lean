/-
Files of manifests.

The file of a manifest leaves out the media queries that count as nothing, and has texts as the
names of all variants, so that two names may become one.

* `StoredRule.cleared`, `Manifest.cleared` — what is read from the fields of a rule and of a
  manifest;
* `Manifest.reloaded` — what is loaded from the file of a manifest;
* `StoredRule.ofJson_toFields`, `Manifest.reread?_eq_cleared` — nothing else is read from the
  fields;
* `Manifest.IsRestorable.load_eq_reloaded` — a restorable manifest is saved and loaded;
* `Manifest.HasPlainQueries`, `Manifest.HasTextNames` — what a file keeps as it is;
* `Manifest.IsRestorable.reloaded_eq` — manifests with these are loaded as they were.
-/
import UtilityCss.Manifest.Writer
import UtilityCss.Proofs.ManifestRestorable

namespace UtilityCss

/-! ### Lines of files -/

theorem Text.unifyNewlines_of_forall {s : Text} (h : ∀ c ∈ s, c ≠ '\r') : s.unifyNewlines = s := by
  induction s with
  | nil => rfl
  | cons c s ih =>
    obtain ⟨hc, hs⟩ := List.forall_mem_cons.mp h
    rw [unifyNewlines.eq_def]
    split
    · rename_i heq; exact absurd heq (by simp)
    · rename_i heq; exact absurd (List.cons.inj heq).1 hc
    · rename_i heq
      obtain ⟨rfl, rfl⟩ := List.cons.inj heq
      rw [if_neg hc, ih hs]

/-! ### What is read back -/

/-- A rule as it is read from its fields: a media query that counts as nothing is null. -/
def StoredRule.cleared (r : StoredRule) : StoredRule :=
  { r with media := if r.media.isBlank then .null else r.media }

namespace Manifest

/-- A manifest as it is read from its fields. -/
def cleared (m : Manifest) : Manifest :=
  { m with rules := m.rules.map fun e => (e.1, e.2.map StoredRule.cleared) }

/-- The variants with their names as texts. -/
def variantFields (m : Manifest) : List (Text × Json) :=
  m.variants.map fun v => (v.1.name, v.2)

/-- The variants as they are read from a file. -/
def reloadedVariants (m : Manifest) : Variants :=
  (Json.settledFields [] m.variantFields).map fun f => (.text f.1, f.2)

/-- A manifest as it is loaded from its file. -/
def reloaded (m : Manifest) : Manifest :=
  { m.cleared with variants := m.reloadedVariants }

/-- No media query counts as nothing, except for null. -/
def HasPlainQueries (m : Manifest) : Prop :=
  ∀ e ∈ m.rules, ∀ r ∈ e.2, r.media.isBlank = true → r.media = .null

/-- All names of variants are texts. -/
def HasTextNames (m : Manifest) : Prop :=
  ∀ v ∈ m.variants, ∃ s : Text, v.1 = .text s

end Manifest

/-! ### Rules -/

namespace StoredRule

/-- The names of the fields of a rule. -/
def fieldNames : List Text :=
  ["selector", "declarations", "mediaQuery"]

theorem fieldNames_wellFormed :
    fieldNames.Nodup ∧ ∀ name ∈ fieldNames, ∀ c ∈ name, c.isSurrogate = false := by
  decide +kernel

theorem map_fst_toFields_sublist (r : StoredRule) :
    (r.toFields.map Prod.fst).Sublist fieldNames := by
  rw [toFields]
  split
  · exact List.take_sublist 2 fieldNames
  · exact List.Sublist.refl fieldNames

theorem ofJson_toFields (r : StoredRule) : ofJson (.object r.toFields) = .ok r.cleared := by
  rw [toFields, cleared]
  cases r.media.isBlank <;> rfl

theorem cleared_of_isBlank {r : StoredRule} (h : r.media.isBlank = true) :
    r.cleared = { r with media := .null } := by
  rw [cleared, h]
  rfl

theorem cleared_of_not_isBlank {r : StoredRule} (h : r.media.isBlank = false) : r.cleared = r := by
  rw [cleared, h]
  rfl

theorem media_cleared {r : StoredRule} (h : r.cleared.media.isBlank = true) :
    r.cleared.media = .null := by
  cases hblank : r.media.isBlank with
  | true => rw [cleared_of_isBlank hblank]
  | false =>
    rw [cleared_of_not_isBlank hblank, hblank] at h
    exact absurd h Bool.false_ne_true

theorem cleared_eq_self {r : StoredRule} (hmedia : r.media.isBlank = true → r.media = .null) :
    r.cleared = r := by
  cases h : r.media.isBlank with
  | true => rw [cleared_of_isBlank h, ← hmedia h]
  | false => exact cleared_of_not_isBlank h

theorem IsRestorable.toFields {depth : Nat} {r : StoredRule} (h : r.IsRestorable depth) :
    Json.Restorable (depth + 1) (.object r.toFields) := by
  have hnames := r.map_fst_toFields_sublist
  refine .object (fun f hf => ?_) (fieldNames_wellFormed.1.sublist hnames) (fun f hf => ?_)
  · exact Text.isJoined_of_forall
      (fieldNames_wellFormed.2 f.1 (hnames.subset (List.mem_map_of_mem hf)))
  · rw [StoredRule.toFields] at hf
    split at hf
    · simp only [List.mem_cons, List.not_mem_nil, or_false] at hf
      rcases hf with rfl | rfl
      · exact h.selector
      · exact h.declarations
    · simp only [List.mem_append, List.mem_cons, List.not_mem_nil, or_false] at hf
      rcases hf with (rfl | rfl) | rfl
      · exact h.selector
      · exact h.declarations
      · exact h.media

end StoredRule

namespace Manifest

/-! ### Fields -/

/-- The names of the fields of a manifest. -/
def fieldNames : List Text :=
  ["version", "generatedAt", "rules", "variants", "critical"]

theorem fieldNames_wellFormed :
    fieldNames.Nodup ∧ ∀ name ∈ fieldNames, ∀ c ∈ name, c.isSurrogate = false := by
  decide +kernel

theorem readRules_rulesJson (m : Manifest) :
    readRules (some m.rulesJson) = .ok m.cleared.rules := by
  refine mapM_eq_ok_iff.mpr ?_
  simp only [List.forall₂_map_left_iff, cleared, List.forall₂_map_right_iff, List.forall₂_same]
  intro e _
  have hrules : StoredRule.listOfJson (.array (e.2.map fun r => .object r.toFields)) =
      .ok (e.2.map StoredRule.cleared) := by
    refine mapM_eq_ok_iff.mpr ?_
    simp only [List.forall₂_map_left_iff, List.forall₂_map_right_iff, List.forall₂_same]
    exact fun r _ => r.ofJson_toFields
  rw [hrules]
  rfl

/-- The fields of any manifest are those of a manifest. -/
theorem reread?_eq_cleared (m : Manifest) : m.reread? = .ok m.cleared := by
  show (readRules (some m.rulesJson)).bind _ = _
  rw [m.readRules_rulesJson]
  rfl

theorem IsRestorable.rulesJson {depth : Nat} {m : Manifest} (h : m.IsRestorable depth) :
    Json.Restorable (depth + 3) m.rulesJson := by
  refine .object (List.forall_mem_map.mpr h.tokens) ?_ ?_
  · rw [List.map_map]
    exact h.tokens_nodup
  · refine List.forall_mem_map.mpr fun e he => .array ?_
    exact List.forall_mem_map.mpr fun r hr => (h.rules e he r hr).toFields

theorem IsRestorable.legible {depth : Nat} {m : Manifest} (h : m.IsRestorable depth) :
    Json.Legible (depth + 4) m.toJson := by
  refine .object (fun f hf => ?_) ?_
  · exact Text.isJoined_of_forall (fieldNames_wellFormed.2 f.1 (List.mem_map_of_mem hf))
  · have hvariants : Json.Legible (depth + 3) (.object m.variantFields) :=
      .object (List.forall_mem_map.mpr h.variants.names)
        (List.forall_mem_map.mpr fun v hv => (h.variants.values v hv).legible)
    simp only [List.forall_mem_cons]
    exact ⟨h.version.legible, h.generatedAt.legible, h.rulesJson.legible, hvariants,
      h.critical.legible, List.forall_mem_nil _⟩

/-- The fields in the file of a manifest, with any value for the variants. -/
def fileFields (m : Manifest) (variants : Json) : List (Text × Json) :=
  [("version", m.version), ("generatedAt", m.generatedAt), ("rules", m.rulesJson),
   ("variants", variants), ("critical", m.critical)]

/-- The names of the variants are settled in the file of a manifest. -/
theorem IsRestorable.settled_toJson {depth : Nat} {m : Manifest} (h : m.IsRestorable depth) :
    m.toJson.settled =
      .object (m.fileFields (.object (Json.settledFields [] m.variantFields))) := by
  have hnodup : ((m.fileFields (.object m.variantFields)).map Prod.fst).Nodup :=
    fieldNames_wellFormed.1
  refine (Json.settled_object_of_nodup hnodup).trans ?_
  simp only [fileFields, List.map_cons, List.map_nil, h.version.settled_eq,
    h.generatedAt.settled_eq, h.rulesJson.settled_eq, h.critical.settled_eq, Json.settled]

/-! ### Texts -/

theorem ne_return_of_mem_save (m : Manifest) : ∀ c ∈ m.save, c ≠ '\r' :=
  fun _ => Json.ne_return_of_mem_indented

/-- A restorable manifest is saved and loaded. -/
theorem IsRestorable.load_eq_reloaded {m : Manifest} (h : m.IsRestorable 986) :
    load m.save = .ok m.reloaded := by
  have hparse : Json.parse m.save = .ok m.toJson.settled := Json.parse_indented_of_legible h.legible
  rw [load, Text.unifyNewlines_of_forall m.ne_return_of_mem_save, hparse, h.settled_toJson]
  show ((readRules (some m.rulesJson)).bind _).mapError _ = _
  rw [m.readRules_rulesJson]
  rfl

/-! ### What is kept -/

theorem HasPlainQueries.cleared_eq {m : Manifest} (h : m.HasPlainQueries) : m.cleared = m := by
  have hrules : (m.rules.map fun e => (e.1, e.2.map StoredRule.cleared)) = m.rules := by
    refine (List.map_congr_left fun e he => ?_).trans (List.map_id' m.rules)
    have hlist : e.2.map StoredRule.cleared = e.2 :=
      (List.map_congr_left fun r hr => StoredRule.cleared_eq_self (h e he r hr)).trans
        (List.map_id' e.2)
    rw [hlist]
  rw [cleared, hrules]

/-- Names that are texts stay what they are when they are written. -/
theorem HasTextNames.map_variantFields {m : Manifest} (h : m.HasTextNames) :
    (m.variantFields.map fun f => (Scalar.text f.1, f.2)) = m.variants := by
  rw [variantFields, List.map_map]
  refine (List.map_congr_left fun v hv => ?_).trans (List.map_id _)
  obtain ⟨s, hname⟩ := h v hv
  show (Scalar.text v.1.name, v.2) = v
  rw [hname]
  exact congrArg (·, v.2) hname.symm

/-- Names that are texts are different texts. -/
theorem HasTextNames.nodup {m : Manifest} (h : m.HasTextNames) (hdistinct : m.variants.IsDistinct) :
    (m.variantFields.map Prod.fst).Nodup := by
  rw [variantFields, List.map_map]
  refine List.pairwise_map.mpr (hdistinct.imp_of_mem fun {v w} hv hw hsame heq => ?_)
  obtain ⟨s, hs⟩ := h v hv
  obtain ⟨t, ht⟩ := h w hw
  have hst : s = t := by
    have hnames : v.1.name = w.1.name := heq
    rwa [hs, ht] at hnames
  rw [hs, ht, hst, Scalar.same_refl] at hsame
  exact Bool.noConfusion hsame

theorem HasTextNames.reloadedVariants_eq {depth : Nat} {m : Manifest} (h : m.HasTextNames)
    (hvariants : m.variants.IsRestorable depth) : m.reloadedVariants = m.variants := by
  have hobject : Json.Restorable (depth + 1) (.object m.variantFields) :=
    .object (List.forall_mem_map.mpr hvariants.names) (h.nodup hvariants.distinct)
      (List.forall_mem_map.mpr hvariants.values)
  have hsettled : Json.settledFields [] m.variantFields = m.variantFields :=
    Json.object.inj hobject.settled_eq
  rw [reloadedVariants, hsettled, h.map_variantFields]

/-- A manifest with plain media queries, and texts as names of variants, is loaded as it was. -/
theorem IsRestorable.reloaded_eq {depth : Nat} {m : Manifest} (h : m.IsRestorable depth)
    (hqueries : m.HasPlainQueries) (hnames : m.HasTextNames) : m.reloaded = m := by
  rw [reloaded, hqueries.cleared_eq, hnames.reloadedVariants_eq h.variants]

end Manifest

end UtilityCss
