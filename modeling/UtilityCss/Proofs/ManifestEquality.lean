/-
Equality of manifests as values.

Equality looks each field of an object up in the other one, so a value is equal to itself only if
no name hides another.

* `lookup_of_mem` — each entry of a table is found, if no key comes twice;
* `Json.Restorable.same_self` — a restorable value is equal to itself;
* `Variants.find?_of_mem`, `Variants.same_self` — so are variants no two names of which are equal;
* `Manifest.sameRules_map_iff` — rules that are changed one by one are equal to what they were, if
  each of them is.
-/
import UtilityCss.Manifest.Basic
import UtilityCss.Proofs.JsonRoundTrip

namespace UtilityCss

theorem lookup_of_mem {β : Type} {entries : List (Text × β)} (hnodup : (entries.map Prod.fst).Nodup)
    {e : Text × β} (he : e ∈ entries) : entries.lookup e.1 = some e.2 := by
  induction entries with
  | nil => exact absurd he List.not_mem_nil
  | cons f entries ih =>
    obtain ⟨hnew, hnodup⟩ := List.nodup_cons.mp hnodup
    rcases List.mem_cons.mp he with rfl | he
    · exact List.lookup_cons_self
    · have hne : (e.1 == f.1) = false :=
        beq_eq_false_iff_ne.mpr fun h => hnew (h ▸ List.mem_map_of_mem he)
      rw [List.lookup_cons, hne]
      exact ih hnodup he

/-! ### Values -/

namespace Json

theorem sameItems_self {items : List Json} (h : ∀ item ∈ items, item.same item = true) :
    sameItems items items = true := by
  induction items with
  | nil => rw [sameItems]
  | cons item items ih =>
    obtain ⟨hitem, hitems⟩ := List.forall_mem_cons.mp h
    rw [sameItems, hitem, ih hitems]
    rfl

theorem sameFields_of_forall {as bs : List (Text × Json)}
    (h : ∀ f ∈ as, lookup f.1 bs = some f.2 ∧ f.2.same f.2 = true) : sameFields as bs = true := by
  induction as with
  | nil => rw [sameFields]
  | cons f as ih =>
    obtain ⟨⟨hlookup, hsame⟩, has⟩ := List.forall_mem_cons.mp h
    rw [sameFields, hlookup, ih has]
    simpa using hsame

theorem Restorable.same_self {depth : Nat} {json : Json} (h : Restorable depth json) :
    json.same json = true := by
  induction h with
  | scalar _ => rw [same, Scalar.same_refl]
  | array _ ih => rw [same, sameItems_self ih]
  | object _ hnodup _ ih =>
    rw [same, sameFields_of_forall fun f hf => ⟨lookup_of_mem hnodup hf, ih f hf⟩]
    simp

theorem null_same_iff {json : Json} : Json.null.same json = true ↔ json = .null := by
  constructor
  · intro h
    cases json with
    | scalar s =>
      rw [same, Scalar.same, decide_eq_true_eq] at h
      cases s with
      | null => rfl
      | float x => cases x <;> exact absurd h (by simp [Scalar.measure])
      | _ => exact absurd h (by simp [Scalar.measure])
    | array items => exact absurd h (by simp [same])
    | object fields => exact absurd h (by simp [same])
  · rintro rfl
    rw [same, Scalar.same_refl]

end Json

/-- Only a text is equal to a text. -/
theorem Scalar.eq_text_of_same {a : Scalar} {s : Text} (h : a.same (.text s) = true) :
    a = .text s := by
  rw [same, decide_eq_true_eq] at h
  cases a with
  | text t => exact congrArg text (Measure.text.inj h)
  | float x => cases x <;> exact absurd h (by simp [measure])
  | _ => exact absurd h (by simp [measure])

/-! ### Variants -/

namespace Variants

/-- No two names are equal as values. -/
def IsDistinct (variants : Variants) : Prop :=
  variants.Pairwise fun v w => v.1.same w.1 = false

/-- Each name finds its own value, if no two names are equal. -/
theorem find?_of_mem {variants : Variants} (hdistinct : variants.IsDistinct) {v : Scalar × Json}
    (h : v ∈ variants) : variants.find? v.1 = some v.2 := by
  induction variants with
  | nil => exact absurd h List.not_mem_nil
  | cons w variants ih =>
    obtain ⟨hfirst, hdistinct⟩ := List.pairwise_cons.mp hdistinct
    rcases List.mem_cons.mp h with rfl | h
    · rw [find?, if_pos (Scalar.same_refl _)]
    · rw [find?, if_neg (by rw [hfirst v h]; exact Bool.false_ne_true), ih hdistinct h]

/-- A name that is found is equal to one of the names. -/
theorem exists_mem_of_find? {variants : Variants} {name : Scalar} {value : Json}
    (h : variants.find? name = some value) : ∃ v ∈ variants, v.1.same name = true := by
  induction variants with
  | nil => exact absurd h (by simp [find?])
  | cons v variants ih =>
    rw [find?] at h
    split at h
    · exact ⟨v, List.mem_cons_self, ‹_›⟩
    · obtain ⟨w, hw, hsame⟩ := ih h
      exact ⟨w, List.mem_cons_of_mem _ hw, hsame⟩

theorem same_iff {a b : Variants} :
    a.same b = true ↔ a.length = b.length ∧
      ∀ v ∈ a, ∃ other, b.find? v.1 = some other ∧ v.2.same other = true := by
  simp only [same, Bool.and_eq_true, decide_eq_true_eq, List.all_eq_true]
  refine and_congr_right fun _ => forall₂_congr fun v _ => ?_
  cases hfind : b.find? v.1 with
  | none => simp
  | some other => simp

theorem same_self {variants : Variants} (hdistinct : variants.IsDistinct)
    (hvalues : ∀ v ∈ variants, v.2.same v.2 = true) : variants.same variants = true :=
  same_iff.mpr ⟨rfl, fun v hv => ⟨v.2, find?_of_mem hdistinct hv, hvalues v hv⟩⟩

end Variants

/-! ### Rules -/

theorem StoredRule.sameList_map_iff {change : StoredRule → StoredRule} {rules : List StoredRule} :
    sameList (rules.map change) rules = true ↔ ∀ r ∈ rules, (change r).same r = true := by
  induction rules with
  | nil => simp [sameList]
  | cons r rules ih => rw [List.map_cons, sameList, Bool.and_eq_true, ih, List.forall_mem_cons]

namespace Manifest

theorem sameRules_map_iff {change : StoredRule → StoredRule}
    {rules : List (Text × List StoredRule)} (hnodup : (rules.map Prod.fst).Nodup) :
    sameRules (rules.map fun e => (e.1, e.2.map change)) rules = true ↔
      ∀ e ∈ rules, ∀ r ∈ e.2, (change r).same r = true := by
  simp only [sameRules, List.length_map, decide_true, Bool.true_and, List.all_eq_true,
    List.forall_mem_map]
  refine forall₂_congr fun e he => ?_
  rw [lookup_of_mem hnodup he]
  exact StoredRule.sameList_map_iff

theorem same_iff {a b : Manifest} :
    a.same b = true ↔ a.version.same b.version = true ∧ a.generatedAt.same b.generatedAt = true ∧
      sameRules a.rules b.rules = true ∧ a.variants.same b.variants = true ∧
      a.critical.same b.critical = true := by
  simp only [same, Bool.and_eq_true, and_assoc]

end Manifest

end UtilityCss
