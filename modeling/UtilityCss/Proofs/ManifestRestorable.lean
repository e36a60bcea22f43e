/-
Manifests that are read from values.

Nothing is checked when a manifest is read, but what it is read from was a value: its parts are
restorable, no token comes twice, and no two names of variants are equal.

* `Manifest.IsRestorable` — manifests of this kind, where `depth` brackets may be opened in a field
  of a rule;
* `mapM_eq_ok_iff` — a list is read item by item;
* `Json.Restorable.iterate`, `Json.Restorable.field` — the parts of a value, read as it may be;
* `StoredRule.isRestorable_listOfJson`, `Manifest.isRestorable_readRules` — the rules of a value;
* `Variants.IsDistinct.set`, `Variants.mem_set` — one name more;
* `Manifest.isRestorable_readVariants` — the variants, in each of the forms they may have;
* `Manifest.isRestorable_ofJson` — every manifest that is read from a restorable value.
-/
import Mathlib.Data.List.Forall2
import UtilityCss.Proofs.JsonReadable
import UtilityCss.Proofs.ManifestEquality
import UtilityCss.Proofs.ManifestFailure

namespace UtilityCss

/-- A stored rule whose fields are restorable. -/
structure StoredRule.IsRestorable (depth : Nat) (r : StoredRule) : Prop where
  selector : Json.Restorable depth r.selector
  declarations : Json.Restorable depth r.declarations
  media : Json.Restorable depth r.media

/-- Variants whose values are restorable; no two names are equal, and each is a joined text where
it is written. -/
structure Variants.IsRestorable (depth : Nat) (variants : Variants) : Prop where
  names : ∀ v ∈ variants, v.1.name.IsJoined
  distinct : variants.IsDistinct
  values : ∀ v ∈ variants, Json.Restorable depth v.2

/-- A manifest whose parts are restorable, each token in it once. -/
structure Manifest.IsRestorable (depth : Nat) (m : Manifest) : Prop where
  version : Json.Restorable (depth + 3) m.version
  generatedAt : Json.Restorable (depth + 3) m.generatedAt
  critical : Json.Restorable (depth + 3) m.critical
  tokens : ∀ e ∈ m.rules, e.1.IsJoined
  tokens_nodup : (m.rules.map Prod.fst).Nodup
  rules : ∀ e ∈ m.rules, ∀ r ∈ e.2, r.IsRestorable depth
  variants : m.variants.IsRestorable (depth + 2)

/-! ### Lists of items -/

/-- A list is read if its items are, one after the other. -/
theorem mapM_eq_ok_iff {α β ε : Type} {read : α → Except ε β} {l : List α} {bs : List β} :
    l.mapM read = .ok bs ↔ List.Forall₂ (fun a b => read a = .ok b) l bs := by
  induction l generalizing bs with
  | nil =>
    rw [List.forall₂_nil_left_iff, List.mapM_nil]
    simp [pure, Except.pure, eq_comm]
  | cons a l ih =>
    simp only [List.mapM_cons, bind_eq_ok_iff, ih, List.forall₂_cons_left_iff, pure, Except.pure,
      Except.ok.injEq]
    constructor
    · rintro ⟨b, hb, cs, hcs, rfl⟩
      exact ⟨b, cs, hb, hcs, rfl⟩
    · rintro ⟨b, cs, hb, hcs, rfl⟩
      exact ⟨b, hb, cs, hcs, rfl⟩

/-- What holds of each item that is read holds of the whole list. -/
theorem forall_of_mapM {α β ε : Type} {read : α → Except ε β} {l : List α} {bs : List β}
    {p : β → Prop} (h : l.mapM read = .ok bs) (hread : ∀ a ∈ l, ∀ b, read a = .ok b → p b) :
    ∀ b ∈ bs, p b := by
  have hall := mapM_eq_ok_iff.mp h
  clear h
  induction hall with
  | nil => exact List.forall_mem_nil _
  | cons hab _ ih =>
    obtain ⟨ha, hread⟩ := List.forall_mem_cons.mp hread
    exact List.forall_mem_cons.mpr ⟨ha _ hab, ih hread⟩

/-! ### Parts of a value -/

namespace Json

theorem Restorable.succ {depth : Nat} {json : Json} (h : Restorable depth json) :
    Restorable (depth + 1) json := by
  induction h with
  | scalar h => exact .scalar h
  | array _ ih => exact .array ih
  | object hnames hnodup _ ih => exact .object hnames hnodup ih

theorem restorable_text {s : Text} (hs : s.IsJoined) (depth : Nat) : Restorable depth (.text s) :=
  .scalar hs

/-- The items of a value: those of an array, characters or names. -/
theorem Restorable.iterate {depth : Nat} {json : Json} (h : Restorable (depth + 1) json)
    {items : List Json} (hitems : json.iterate = .ok items) :
    ∀ item ∈ items, Restorable depth item := by
  cases h with
  | @scalar _ s hs =>
    cases s with
    | text t =>
      obtain rfl := Except.ok.inj hitems
      exact List.forall_mem_map.mpr fun c _ => restorable_text (List.isChain_singleton c) depth
    | _ => exact absurd hitems (by simp [iterate.eq_def])
  | array hall =>
    obtain rfl := Except.ok.inj hitems
    exact hall
  | object hnames _ _ =>
    obtain rfl := Except.ok.inj hitems
    exact List.forall_mem_map.mpr fun f hf => restorable_text (hnames f hf) depth

theorem Restorable.field {depth : Nat} {fields : List (Text × Json)} {key : Text} {json : Json}
    (h : Restorable (depth + 1) (.object fields)) (hjson : lookup key fields = some json) :
    Restorable depth json := by
  cases h with
  | object _ _ hitems => exact hitems _ (mem_of_lookup hjson)

/-- A field that may be missing. -/
theorem Restorable.field_getD {depth : Nat} {fields : List (Text × Json)} {key : Text}
    {default : Json} (h : Restorable (depth + 1) (.object fields))
    (hdefault : Restorable depth default) :
    Restorable depth ((lookup key fields).getD default) := by
  cases hjson : lookup key fields with
  | none => exact hdefault
  | some json => exact h.field hjson

end Json

/-! ### Rules -/

namespace StoredRule

theorem isRestorable_ofJson {depth : Nat} {json : Json} (h : Json.Restorable (depth + 1) json)
    {r : StoredRule} (hr : ofJson json = .ok r) : r.IsRestorable depth := by
  rw [ofJson.eq_def] at hr
  split at hr
  · simp only [bind_eq_ok_iff, require_eq_ok_iff] at hr
    obtain ⟨selector, hselector, declarations, hdeclarations, hr⟩ := hr
    obtain rfl := Except.ok.inj hr
    exact ⟨h.field hselector, h.field hdeclarations, h.field_getD (.scalar trivial)⟩
  · exact absurd hr (by simp)
  · exact absurd hr (by simp)
  · exact absurd hr (by simp)

theorem isRestorable_listOfJson {depth : Nat} {json : Json}
    (h : Json.Restorable (depth + 2) json) {rules : List StoredRule}
    (hrules : listOfJson json = .ok rules) : ∀ r ∈ rules, r.IsRestorable depth := by
  obtain ⟨items, hitems, hread⟩ := bind_eq_ok_iff.mp hrules
  exact forall_of_mapM hread fun item hitem _ => isRestorable_ofJson (h.iterate hitems item hitem)

end StoredRule

namespace Manifest

theorem isRestorable_readRules {depth : Nat} {fields : List (Text × Json)} {key : Text}
    (h : Json.Restorable (depth + 4) (.object fields)) {rules : List (Text × List StoredRule)}
    (hrules : readRules (Json.lookup key fields) = .ok rules) :
    (∀ e ∈ rules, e.1.IsJoined) ∧ (rules.map Prod.fst).Nodup ∧
      ∀ e ∈ rules, ∀ r ∈ e.2, r.IsRestorable depth := by
  cases hjson : Json.lookup key fields with
  | none =>
    rw [hjson] at hrules
    obtain rfl := Except.ok.inj hrules
    simp
  | some json =>
    rw [hjson, readRules.eq_def] at hrules
    have hjson := h.field hjson
    split at hrules
    · exact absurd ‹some json = none› (by simp)
    · -- the tokens are the names of the fields, and a list of rules is read from each value
      rename_i entries heq
      obtain rfl := Option.some.inj heq
      obtain ⟨hnames, hnodup, hvalues⟩ : (∀ f ∈ entries, f.1.IsJoined) ∧
          (entries.map Prod.fst).Nodup ∧ ∀ f ∈ entries, Json.Restorable (depth + 2) f.2 := by
        cases hjson with
        | object hnames hnodup hvalues => exact ⟨hnames, hnodup, hvalues⟩
      have hentry (f : Text × Json) (e : Text × List StoredRule)
          (he : (StoredRule.listOfJson f.2 >>= fun rules => .ok (f.1, rules)) = .ok e) :
          e.1 = f.1 ∧ StoredRule.listOfJson f.2 = .ok e.2 := by
        obtain ⟨rules, hread, heq⟩ := bind_eq_ok_iff.mp he
        obtain rfl := Except.ok.inj heq
        exact ⟨rfl, hread⟩
      have htokens : rules.map Prod.fst = entries.map Prod.fst := by
        have hforall := (mapM_eq_ok_iff.mp hrules).imp fun f e he => (hentry f e he).1
        rw [← List.forall₂_eq_eq_eq, List.forall₂_map_left_iff, List.forall₂_map_right_iff]
        exact hforall.flip
      refine ⟨forall_of_mapM hrules fun f hf e he => ?_, htokens ▸ hnodup,
        forall_of_mapM hrules fun f hf e he => ?_⟩
      · rw [(hentry f e he).1]
        exact hnames f hf
      · exact StoredRule.isRestorable_listOfJson (hvalues f hf) (hentry f e he).2
    · exact absurd hrules (by simp)

end Manifest

/-! ### Variants -/

/-- A name of a variant is a joined text where it is written. -/
theorem Scalar.Restorable.isJoined_name {s : Scalar} (h : s.Restorable) : s.name.IsJoined := by
  cases s with
  | null => exact Json.isJoined_of_forall_isVisible (Json.forall_mem_scalar .null)
  | bool b => exact Json.isJoined_of_forall_isVisible (Json.forall_mem_scalar (.bool b))
  | int n => exact Json.isJoined_of_forall_isVisible (Json.forall_mem_scalar (.int n))
  | float x => exact absurd h id
  | text t => exact h

namespace Variants

theorem mem_set {name : Scalar} {value : Json} {variants : Variants} {v : Scalar × Json}
    (h : v ∈ variants.set name value) :
    v ∈ variants ∨ v.2 = value ∧ (v.1 = name ∨ ∃ w ∈ variants, w.1 = v.1) := by
  induction variants with
  | nil =>
    obtain rfl := List.mem_singleton.mp h
    exact .inr ⟨rfl, .inl rfl⟩
  | cons w variants ih =>
    rw [set] at h
    split at h
    · rcases List.mem_cons.mp h with rfl | h
      · exact .inr ⟨rfl, .inr ⟨w, List.mem_cons_self, rfl⟩⟩
      · exact .inl (List.mem_cons_of_mem _ h)
    · rcases List.mem_cons.mp h with rfl | h
      · exact .inl List.mem_cons_self
      · rcases ih h with h | ⟨hvalue, hname | ⟨u, hu, hname⟩⟩
        · exact .inl (List.mem_cons_of_mem _ h)
        · exact .inr ⟨hvalue, .inl hname⟩
        · exact .inr ⟨hvalue, .inr ⟨u, List.mem_cons_of_mem _ hu, hname⟩⟩

/-- A name that is set is equal to none of the others. -/
theorem IsDistinct.set {variants : Variants} (h : variants.IsDistinct) (name : Scalar)
    (value : Json) : (variants.set name value).IsDistinct := by
  induction variants with
  | nil => exact List.pairwise_singleton _ _
  | cons w variants ih =>
    obtain ⟨hfirst, hrest⟩ := List.pairwise_cons.mp h
    rw [Variants.set]
    split
    · exact List.pairwise_cons.mpr ⟨hfirst, hrest⟩
    · rename_i hname
      refine List.pairwise_cons.mpr ⟨fun v hv => ?_, ih hrest⟩
      rcases mem_set hv with hv | ⟨-, hv | ⟨u, hu, hv⟩⟩
      · exact hfirst v hv
      · rw [hv]
        exact Bool.eq_false_iff.mpr hname
      · rw [← hv]
        exact hfirst u hu

theorem IsRestorable.set {depth : Nat} {variants : Variants} (h : variants.IsRestorable depth)
    {name : Scalar} (hname : name.name.IsJoined) {value : Json}
    (hvalue : Json.Restorable depth value) : (variants.set name value).IsRestorable depth where
  names v hv := by
    rcases mem_set hv with hv | ⟨-, hv | ⟨u, hu, hv⟩⟩
    · exact h.names v hv
    · rwa [hv]
    · rw [← hv]
      exact h.names u hu
  distinct := h.distinct.set name value
  values v hv := by
    rcases mem_set hv with hv | ⟨hv, -⟩
    · exact h.values v hv
    · rwa [hv]

theorem IsRestorable.foldl_set {depth : Nat} {entries : List (Scalar × Json)}
    (hentries : ∀ e ∈ entries, e.1.name.IsJoined ∧ Json.Restorable depth e.2)
    {variants : Variants} (h : variants.IsRestorable depth) :
    (entries.foldl (fun variants e => variants.set e.1 e.2) variants).IsRestorable depth := by
  induction entries generalizing variants with
  | nil => exact h
  | cons e entries ih =>
    obtain ⟨⟨hname, hvalue⟩, hentries⟩ := List.forall_mem_cons.mp hentries
    exact ih hentries (h.set hname hvalue)

theorem IsRestorable.same_self {depth : Nat} {variants : Variants}
    (h : variants.IsRestorable depth) : variants.same variants = true :=
  Variants.same_self h.distinct fun v hv => (h.values v hv).same_self

theorem IsRestorable.nil (depth : Nat) : IsRestorable depth [] :=
  ⟨List.forall_mem_nil _, List.Pairwise.nil, List.forall_mem_nil _⟩

/-- The fields of an object as variants. -/
theorem isRestorable_of_fields {depth : Nat} {fields : List (Text × Json)}
    (h : Json.Restorable (depth + 1) (.object fields)) :
    IsRestorable depth (fields.map fun f => (.text f.1, f.2)) := by
  cases h with
  | object hnames hnodup hvalues =>
    refine ⟨List.forall_mem_map.mpr hnames, ?_, List.forall_mem_map.mpr hvalues⟩
    refine List.pairwise_map.mpr ((List.pairwise_map.mp hnodup).imp fun {f g} hne => ?_)
    rw [Scalar.same, decide_eq_false_iff_not]
    exact fun heq => hne (Scalar.Measure.text.inj heq)

end Variants

namespace Manifest

theorem readVariant_eq_ok_iff {index : Nat} {item : Json} {v : Scalar × Json} :
    readVariant index item = .ok v ↔ item.iterate = .ok [.scalar v.1, v.2] := by
  cases hparts : item.iterate with
  | error o => simp [readVariant, hparts, Except.mapError, bind, Except.bind]
  | ok parts =>
    simp only [readVariant, hparts, Except.mapError, bind, Except.bind, Except.ok.injEq]
    split
    · simp [Prod.ext_iff]
    · rename_i hscalar
      simp only [reduceCtorEq, List.cons.injEq, and_true, false_iff, not_and]
      exact fun hname => absurd hname (hscalar _)
    · rename_i hpair
      simp only [reduceCtorEq, false_iff]
      exact fun heq => hpair _ _ heq

theorem isRestorable_readVariants {depth : Nat} {fields : List (Text × Json)} {key : Text}
    (h : Json.Restorable (depth + 4) (.object fields)) {variants : Variants}
    (hvariants : readVariants (Json.lookup key fields) = .ok variants) :
    variants.IsRestorable (depth + 2) := by
  cases hjson : Json.lookup key fields with
  | none =>
    rw [hjson] at hvariants
    obtain rfl := Except.ok.inj hvariants
    exact .nil _
  | some json =>
    rw [hjson, readVariants.eq_def] at hvariants
    have hjson := h.field hjson
    split at hvariants
    · exact absurd ‹some json = none› (by simp)
    · rename_i heq
      obtain rfl := Option.some.inj heq
      obtain rfl := Except.ok.inj hvariants
      exact Variants.isRestorable_of_fields hjson
    · -- items of two parts each, which are set one after the other
      rename_i heq
      obtain rfl := Option.some.inj heq
      obtain ⟨items, hitems, hvariants⟩ := bind_eq_ok_iff.mp hvariants
      obtain ⟨entries, hentries, hvariants⟩ := bind_eq_ok_iff.mp hvariants
      obtain rfl := Except.ok.inj hvariants
      refine .foldl_set (forall_of_mapM hentries fun e he v hv => ?_) (.nil _)
      have hitem := hjson.iterate hitems e.1 (List.fst_mem_of_mem_zipIdx he)
      have hparts := hitem.iterate (readVariant_eq_ok_iff.mp hv)
      have hname := hparts (.scalar v.1) List.mem_cons_self
      refine ⟨?_, (hparts v.2 (by simp)).succ⟩
      cases hname with
      | scalar hname => exact hname.isJoined_name

/-! ### Manifests -/

/-- Every manifest that is read from a restorable value. -/
theorem isRestorable_ofJson {depth : Nat} {json : Json} (h : Json.Restorable (depth + 4) json)
    {m : Manifest} (hm : ofJson json = .ok m) : m.IsRestorable depth := by
  rw [ofJson.eq_def] at hm
  split at hm
  · rename_i fields
    cases hfields : ofFields fields (readVariants (Json.lookup "variants" fields)) with
    | error o =>
      rw [hfields] at hm
      exact absurd hm (by simp [Except.mapError])
    | ok other =>
      rw [hfields] at hm
      obtain rfl := Except.ok.inj hm
      simp only [ofFields, bind_eq_ok_iff, require_eq_ok_iff] at hfields
      obtain ⟨rules, hrules, version, hversion, generatedAt, hgenerated, variants, hvariants,
        hok⟩ := hfields
      obtain rfl := Except.ok.inj hok
      obtain ⟨htokens, hnodup, hrules⟩ := isRestorable_readRules h hrules
      exact ⟨h.field hversion, h.field hgenerated,
        h.field_getD (Json.restorable_text List.isChain_nil _), htokens, hnodup, hrules,
        isRestorable_readVariants h hvariants⟩
  · exact absurd hm (by simp)

end Manifest

end UtilityCss
