/-
Manifests that are saved and loaded once more.

What is loaded from the file of a manifest is settled: it is loaded again from its own file, and
gives the same sheets.

* `Manifest.cssFor_cleared`, `Manifest.cssFor_reloaded` — no sheet changes;
* `Manifest.IsRestorable.reloaded_reloaded` — what has been loaded does not change any more;
* `Manifest.IsRestorable.same_cleared_iff`, `Manifest.IsRestorable.same_reloaded_iff` — the
  manifests that are equal to what is read back;
* `Manifest.reload_fixpoint` — all of this for the manifests that are read from values.
-/
import UtilityCss.Proofs.ManifestFile
import UtilityCss.Proofs.ManifestSheet

namespace UtilityCss

/-! ### Sheets -/

namespace StoredRule

/-- A rule has the same entry, whatever its media query is that counts as nothing. -/
theorem entry_cleared (r : StoredRule) : r.cleared.entry = r.entry := by
  cases h : r.media.isBlank with
  | true =>
    have hkey : r.mediaKey = .ok none := by rw [mediaKey, if_pos h]
    rw [cleared_of_isBlank h, entry, entry, hkey]
    rfl
  | false => rw [cleared_of_not_isBlank h]

theorem sheet_map_cleared (rules : List StoredRule) :
    sheet (rules.map cleared) = sheet rules := by
  have hentry : (entry ∘ cleared) = entry := funext entry_cleared
  rw [sheet, sheet, List.mapM_map, hentry]

end StoredRule

namespace Manifest

theorem rulesOf_cleared (m : Manifest) (token : Text) :
    m.cleared.rulesOf token = (m.rulesOf token).map StoredRule.cleared := by
  rw [rulesOf, rulesOf, cleared, lookup_map_snd]
  cases m.rules.lookup token <;> rfl

theorem cssFor_cleared (m : Manifest) (tokens : List Text) :
    m.cleared.cssFor tokens = m.cssFor tokens := by
  rw [cssFor, cssFor, ← StoredRule.sheet_map_cleared (List.flatMap m.rulesOf _), List.map_flatMap]
  simp only [← rulesOf_cleared]

/-- Sheets do not depend on variants. -/
theorem cssFor_reloaded (m : Manifest) (tokens : List Text) :
    m.reloaded.cssFor tokens = m.cssFor tokens :=
  m.cssFor_cleared tokens

end Manifest

/-! ### What has been loaded -/

theorem StoredRule.IsRestorable.cleared {depth : Nat} {r : StoredRule} (h : r.IsRestorable depth) :
    r.cleared.IsRestorable depth := by
  cases hblank : r.media.isBlank with
  | true =>
    rw [cleared_of_isBlank hblank]
    exact ⟨h.selector, h.declarations, .scalar trivial⟩
  | false => rwa [cleared_of_not_isBlank hblank]

namespace Manifest

theorem IsRestorable.cleared {depth : Nat} {m : Manifest} (h : m.IsRestorable depth) :
    m.cleared.IsRestorable depth := by
  refine ⟨h.version, h.generatedAt, h.critical, List.forall_mem_map.mpr h.tokens, ?_, ?_,
    h.variants⟩
  · show ((m.rules.map _).map Prod.fst).Nodup
    rw [List.map_map]
    exact h.tokens_nodup
  · refine List.forall_mem_map.mpr fun e he => List.forall_mem_map.mpr fun r hr => ?_
    exact (h.rules e he r hr).cleared

/-- The variants in the file of a manifest, with their names settled. -/
theorem IsRestorable.settledVariants {depth : Nat} {m : Manifest} (h : m.IsRestorable depth) :
    Json.Restorable (depth + 3) (.object (Json.settledFields [] m.variantFields)) := by
  have hfield (f : Text × Json) (hf : f ∈ Json.settledFields [] m.variantFields) :
      f.1.IsJoined ∧ Json.Restorable (depth + 2) f.2 := by
    rcases Json.mem_settledFields hf with hf | ⟨g, hg, rfl⟩
    · exact absurd hf List.not_mem_nil
    · obtain ⟨v, hv, rfl⟩ := List.mem_map.mp hg
      have hvalue := h.variants.values v hv
      refine ⟨h.variants.names v hv, ?_⟩
      show Json.Restorable _ v.2.settled
      rwa [hvalue.settled_eq]
  exact .object (fun f hf => (hfield f hf).1) (Json.nodup_settledFields List.nodup_nil)
    fun f hf => (hfield f hf).2

theorem IsRestorable.reloaded {depth : Nat} {m : Manifest} (h : m.IsRestorable depth) :
    m.reloaded.IsRestorable depth :=
  { h.cleared with variants := Variants.isRestorable_of_fields h.settledVariants }

theorem hasPlainQueries_cleared (m : Manifest) : m.cleared.HasPlainQueries :=
  List.forall_mem_map.mpr fun _ _ => List.forall_mem_map.mpr fun _ _ => StoredRule.media_cleared

theorem hasTextNames_reloaded (m : Manifest) : m.reloaded.HasTextNames :=
  List.forall_mem_map.mpr fun f _ => ⟨f.1, rfl⟩

/-- What has been loaded does not change any more. -/
theorem IsRestorable.reloaded_reloaded {depth : Nat} {m : Manifest} (h : m.IsRestorable depth) :
    m.reloaded.reloaded = m.reloaded :=
  h.reloaded.reloaded_eq m.hasPlainQueries_cleared m.hasTextNames_reloaded

end Manifest

/-! ### Equality with what is read back -/

/-- A rule is equal to the cleared one only if its media query does not count as nothing. -/
theorem StoredRule.IsRestorable.same_cleared_iff {depth : Nat} {r : StoredRule}
    (h : r.IsRestorable depth) :
    r.cleared.same r = true ↔ (r.media.isBlank = true → r.media = .null) := by
  constructor
  · intro hsame hblank
    rw [cleared_of_isBlank hblank, same, Bool.and_eq_true] at hsame
    exact Json.null_same_iff.mp hsame.2
  · intro hmedia
    rw [cleared_eq_self hmedia, same, h.selector.same_self, h.declarations.same_self,
      h.media.same_self]
    rfl

namespace Manifest

/-- A manifest is equal to the one read from its fields only if it has plain media queries. -/
theorem IsRestorable.same_cleared_iff {depth : Nat} {m : Manifest} (h : m.IsRestorable depth) :
    m.cleared.same m = true ↔ m.HasPlainQueries := by
  have hvariants : m.cleared.variants.same m.variants = true := h.variants.same_self
  rw [same_iff]
  simp only [Manifest.cleared, h.version.same_self, h.generatedAt.same_self, h.critical.same_self,
    sameRules_map_iff h.tokens_nodup, true_and, and_true]
  constructor
  · rintro ⟨hrules, -⟩ e he r hr
    exact (h.rules e he r hr).same_cleared_iff.mp (hrules e he r hr)
  · exact fun hqueries => ⟨fun e he r hr =>
      (h.rules e he r hr).same_cleared_iff.mpr (hqueries e he r hr), hvariants⟩

/-- The variants are equal to what is loaded only if their names are texts: another name is either
missing in the file, or stands there for two. -/
theorem same_reloadedVariants_iff {depth : Nat} {m : Manifest}
    (h : m.variants.IsRestorable depth) :
    m.reloadedVariants.same m.variants = true ↔ m.HasTextNames := by
  constructor
  · intro hsame v hv
    obtain ⟨hlength, hfound⟩ := Variants.same_iff.mp hsame
    have hnodup : (([] ++ m.variantFields).map Prod.fst).Nodup := by
      refine Json.nodup_of_length_settledFields List.nodup_nil ?_
      rw [reloadedVariants, List.length_map] at hlength
      rw [hlength, List.length_nil, Nat.zero_add, variantFields, List.length_map]
    -- the name is found as a text, so the variant of that text has the name
    have hname : v.1.name ∈ (Json.settledFields [] m.variantFields).map Prod.fst :=
      Json.mem_map_fst_settledFields (.inr (List.mem_map_of_mem (List.mem_map_of_mem hv)))
    obtain ⟨f, hf, hfname⟩ := List.mem_map.mp hname
    obtain ⟨other, hother, -⟩ := hfound (.text f.1, f.2) (List.mem_map_of_mem hf)
    obtain ⟨w, hw, hwname⟩ := Variants.exists_mem_of_find? hother
    have hwtext : w.1 = .text f.1 := Scalar.eq_text_of_same hwname
    rw [List.nil_append, variantFields, List.map_map] at hnodup
    have hnames : v.1.name = w.1.name := by
      rw [hwtext]
      exact hfname.symm
    have hvw : v = w := List.inj_on_of_nodup_map hnodup hv hw hnames
    exact ⟨f.1, hvw ▸ hwtext⟩
  · intro hnames
    rw [hnames.reloadedVariants_eq h]
    exact h.same_self

/-- A manifest is equal to the one loaded from its file only if it has plain media queries, and
texts as names of variants. -/
theorem IsRestorable.same_reloaded_iff {depth : Nat} {m : Manifest} (h : m.IsRestorable depth) :
    m.reloaded.same m = true ↔ m.HasPlainQueries ∧ m.HasTextNames := by
  have hvariants : m.cleared.variants.same m.variants = true := h.variants.same_self
  rw [← h.same_cleared_iff, ← same_reloadedVariants_iff h.variants, same_iff, same_iff]
  simp only [hvariants, Manifest.reloaded]
  tauto

/-! ### Manifests of values -/

/-- One file settles a manifest.  A manifest that is read from a value without fractional numbers
is saved and loaded.  What is loaded gives the same sheets, or fails in the same way, and is loaded
again from its own file.  It is equal to the manifest exactly if no media query counts as nothing
but null, and all names of variants are texts; for the manifest that is read from the fields,
without a file, the media queries alone decide. -/
theorem reload_fixpoint {json : Json} (hread : json.IsReadable) (hfree : json.FloatFree)
    {m : Manifest} (hm : ofJson json = .ok m) :
    (∃ m', load m.save = .ok m' ∧
      (∀ tokens, m'.cssFor tokens = m.cssFor tokens) ∧
      load m'.save = .ok m' ∧ m'.same m' = true ∧
      (m'.same m = true ↔ m.HasPlainQueries ∧ m.HasTextNames)) ∧
    (∃ m', m.reread? = .ok m' ∧ (m'.same m = true ↔ m.HasPlainQueries)) ∧
    (m.survivesRereading = true ↔ m.HasPlainQueries) := by
  have h : m.IsRestorable 986 := isRestorable_ofJson (Json.isReadable_iff.mp ⟨hread, hfree⟩) hm
  refine ⟨⟨m.reloaded, h.load_eq_reloaded, m.cssFor_reloaded, ?_, ?_, h.same_reloaded_iff⟩,
    ⟨m.cleared, m.reread?_eq_cleared, h.same_cleared_iff⟩, ?_⟩
  · rw [h.reloaded.load_eq_reloaded, h.reloaded_reloaded]
  · have hsame := h.reloaded.same_reloaded_iff.mpr
      ⟨m.hasPlainQueries_cleared, m.hasTextNames_reloaded⟩
    rwa [h.reloaded_reloaded] at hsame
  · rw [survivesRereading, m.reread?_eq_cleared]
    exact h.same_cleared_iff

/-- A value with an empty media query, and a number and a text that are the same name in a file. -/
def crampedJson : Json :=
  .object
    [("version", .null), ("generatedAt", .array []),
     ("rules", .object [("t", .array [.object [("selector", .text "s"),
       ("declarations", .text "d"), ("mediaQuery", .text "")]])]),
     ("variants", .array [.array [.scalar (.int 1), .text "a"], .array [.text "1", .text "b"]])]

/-- The manifest of `crampedJson`. -/
def crampedManifest : Manifest where
  version := .null
  generatedAt := .array []
  rules := [("t", [⟨.text "s", .text "d", .text ""⟩])]
  variants := [(.int 1, .text "a"), (.text "1", .text "b")]
  critical := .text []

theorem restorable_crampedJson : Json.Restorable Json.maxDepth crampedJson := by
  have hname (s : String) : Text.IsJoined s := Text.isJoined_of_forall (isEncodable_ofString s)
  have htext (s : String) (depth : Nat) : Json.Restorable depth (.text s) :=
    Json.restorable_text (hname s) depth
  have hone : Scalar.Restorable (.int 1) := by
    show (Text.decimal 1).length ≤ 4300
    decide
  have hrule : Json.Restorable 987 (.object [("selector", .text "s"), ("declarations", .text "d"),
      ("mediaQuery", .text "")]) := by
    refine .object ?_ (by decide +kernel) ?_
    · simp [hname]
    · simp [htext]
  have hrules : Json.Restorable 989 (.object [("t", .array [.object [("selector", .text "s"),
      ("declarations", .text "d"), ("mediaQuery", .text "")]])]) := by
    refine .object ?_ (List.nodup_singleton _) ?_
    · simp [hname]
    · exact List.forall_mem_singleton.mpr (.array (List.forall_mem_singleton.mpr hrule))
  have hvariants : Json.Restorable 989 (.array [.array [.scalar (.int 1), .text "a"],
      .array [.text "1", .text "b"]]) := by
    refine .array (List.forall_mem_cons.mpr ⟨.array ?_, List.forall_mem_singleton.mpr (.array ?_)⟩)
    · exact List.forall_mem_cons.mpr ⟨.scalar hone, List.forall_mem_singleton.mpr (htext _ _)⟩
    · exact List.forall_mem_cons.mpr ⟨htext _ _, List.forall_mem_singleton.mpr (htext _ _)⟩
  refine .object ?_ (by decide +kernel) ?_
  · simp [hname]
  · simp only [List.forall_mem_cons]
    exact ⟨.scalar trivial, .array (List.forall_mem_nil _), hrules, hvariants,
      List.forall_mem_nil _⟩

theorem reload_fixpoint_cramped :
    crampedJson.IsReadable ∧ crampedJson.FloatFree ∧ ofJson crampedJson = .ok crampedManifest ∧
      crampedManifest.survivesRereading = false ∧
      ∃ m', load crampedManifest.save = .ok m' ∧ load m'.save = .ok m' ∧
        m'.same crampedManifest = false := by
  obtain ⟨hread, hfree⟩ := Json.isReadable_iff.mpr restorable_crampedJson
  have hm : ofJson crampedJson = .ok crampedManifest := rfl
  obtain ⟨⟨m', hload, -, hagain, -, hsame⟩, -, hsurvives⟩ := reload_fixpoint hread hfree hm
  have hqueries : ¬crampedManifest.HasPlainQueries := by
    intro h
    have hmedia := h _ List.mem_cons_self _ List.mem_cons_self rfl
    exact absurd hmedia (by simp)
  refine ⟨hread, hfree, hm, ?_, m', hload, hagain, ?_⟩
  · exact Bool.eq_false_iff.mpr fun h => hqueries (hsurvives.mp h)
  · exact Bool.eq_false_iff.mpr fun h => hqueries (hsame.mp h).1

end Manifest

end UtilityCss
