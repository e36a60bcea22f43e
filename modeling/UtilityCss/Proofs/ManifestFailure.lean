/-
Failures of reading a manifest.

A value that is no manifest is reported as such, with one exception: an item of the variants
that has parts, but not two, is reported by itself.  A file may also go beyond the limits of
the JSON reader.

* `bind_eq_error_iff` — the failures of one step after another;
* `IsReported` — a reader all of whose offences are those of a manifest;
* `isReported_readRules`, … — which readers are of this kind;
* `IsRagged`, `HasRaggedVariants` — what the exception looks like;
* `Manifest.readItems_eq_error_iff` — the items of the variants, read from any index on;
* `Manifest.escaping_failures` — the failures that are not reported as those of a manifest.
-/
import Mathlib.Data.List.Basic
import UtilityCss.Manifest.Reader

namespace UtilityCss

/-! ### Steps that may fail -/

section Steps

variable {ε α β : Type} {x : Except ε α} {f : α → Except ε β}

theorem bind_eq_error_iff {e : ε} :
    (x >>= f) = .error e ↔ x = .error e ∨ ∃ a, x = .ok a ∧ f a = .error e := by
  cases x <;> simp [bind, Except.bind]

end Steps

/-! ### Offences that are reported as those of a manifest -/

/-- A reader all of whose offences are reported as those of a manifest. -/
def IsReported {α : Type} (x : Except Offence α) : Prop :=
  ∀ o, x = .error o → o.cls ≠ .value

section Reported

variable {α β : Type} {x : Except Offence α} {f : α → Except Offence β}

theorem isReported_ok (a : α) : IsReported (.ok a : Except Offence α) := by
  intro o h
  exact absurd h (by simp)

theorem isReported_error {o : Offence} (ho : o.cls ≠ .value) :
    IsReported (.error o : Except Offence α) := by
  intro o' h
  rw [← Except.error.inj h]
  exact ho

theorem IsReported.bind (hx : IsReported x) (hf : ∀ a, IsReported (f a)) :
    IsReported (x >>= f) := by
  intro o h
  rcases bind_eq_error_iff.mp h with h | ⟨a, -, h⟩
  · exact hx o h
  · exact hf a o h

theorem isReported_mapM {f : α → Except Offence β} (hf : ∀ a, IsReported (f a)) (l : List α) :
    IsReported (l.mapM f) := by
  induction l with
  | nil => exact isReported_ok []
  | cons a l ih =>
    rw [List.mapM_cons]
    exact (hf a).bind fun b => ih.bind fun bs => isReported_ok (b :: bs)

/-- An offence that is not reported comes from the step after a reader of this kind. -/
theorem IsReported.bind_eq_error_iff {o : Offence} (hx : IsReported x) (ho : o.cls = .value) :
    (x >>= f) = .error o ↔ ∃ a, x = .ok a ∧ f a = .error o := by
  rw [UtilityCss.bind_eq_error_iff]
  constructor
  · rintro (h | h)
    · exact absurd ho (hx o h)
    · exact h
  · exact .inr

end Reported

/-! ### Rules and fields -/

theorem isReported_require (name : Text) (fields : List (Text × Json)) :
    IsReported (require name fields) := by
  rw [require.eq_def]
  split
  · exact isReported_ok _
  · exact isReported_error (by simp [Offence.cls])

theorem require_eq_ok_iff {name : Text} {fields : List (Text × Json)} {json : Json} :
    require name fields = .ok json ↔ Json.lookup name fields = some json := by
  rw [require.eq_def]
  split
  · rename_i h
    rw [h, Except.ok.injEq, Option.some.injEq]
  · rename_i h
    simp [h]

theorem isReported_iterate (json : Json) : IsReported json.iterate := by
  rw [Json.iterate.eq_def]
  split
  · exact isReported_ok _
  · exact isReported_ok _
  · exact isReported_ok _
  · exact isReported_error (by simp [Offence.cls])

theorem StoredRule.isReported_ofJson (json : Json) : IsReported (StoredRule.ofJson json) := by
  rw [StoredRule.ofJson.eq_def]
  split
  · exact (isReported_require _ _).bind fun _ =>
      (isReported_require _ _).bind fun _ => isReported_ok _
  · exact isReported_error (by simp [Offence.cls])
  · exact isReported_error (by simp [Offence.cls])
  · exact isReported_error (by simp [Offence.cls])

theorem StoredRule.isReported_listOfJson (json : Json) :
    IsReported (StoredRule.listOfJson json) :=
  (isReported_iterate json).bind (isReported_mapM isReported_ofJson)

namespace Manifest

theorem isReported_readRules (json : Option Json) : IsReported (readRules json) := by
  rw [readRules.eq_def]
  split
  · exact isReported_ok _
  · refine isReported_mapM (fun e => ?_) _
    exact (StoredRule.isReported_listOfJson e.2).bind fun _ => isReported_ok _
  · exact isReported_error (by simp [Offence.cls])

/-! ### Variants -/

/-- An item that is a name and a value. -/
def IsVariant (item : Json) : Prop :=
  ∃ name value, item.iterate = .ok [.scalar name, value]

/-- Items the first of which that is no name and value has parts, but not two: `index` of them
come before it, and it has `count` parts. -/
def IsRagged (items : List Json) (index count : Nat) : Prop :=
  ∃ before item after parts, items = before ++ item :: after ∧ before.length = index ∧
    (∀ other ∈ before, IsVariant other) ∧ item.iterate = .ok parts ∧ parts.length = count ∧
    count ≠ 2

theorem isRagged_nil (index count : Nat) : ¬IsRagged [] index count := by
  rintro ⟨before, item, after, parts, h, -⟩
  exact absurd h (by simp)

/-- The first item decides, or it is a variant and the others do. -/
theorem isRagged_cons_iff {item : Json} {items : List Json} {index count : Nat} :
    IsRagged (item :: items) index count ↔
      (index = 0 ∧ ∃ parts, item.iterate = .ok parts ∧ parts.length = count ∧ count ≠ 2) ∨
      ∃ k, index = k + 1 ∧ IsVariant item ∧ IsRagged items k count := by
  constructor
  · rintro ⟨before, last, after, parts, h, hindex, hbefore, hparts, hcount, hne⟩
    rcases before with _ | ⟨first, before⟩
    · obtain ⟨rfl, rfl⟩ := List.cons.inj h
      exact .inl ⟨hindex.symm, parts, hparts, hcount, hne⟩
    · obtain ⟨rfl, rfl⟩ := List.cons.inj h
      obtain ⟨hitem, hbefore⟩ := List.forall_mem_cons.mp hbefore
      exact .inr ⟨before.length, hindex.symm, hitem,
        before, last, after, parts, rfl, rfl, hbefore, hparts, hcount, hne⟩
  · rintro (⟨rfl, parts, hparts, hcount, hne⟩ | ⟨k, rfl, hitem, hragged⟩)
    · exact ⟨[], item, items, parts, rfl, rfl, by simp, hparts, hcount, hne⟩
    · obtain ⟨before, last, after, parts, rfl, rfl, hbefore, hparts, hcount, hne⟩ := hragged
      exact ⟨item :: before, last, after, parts, rfl, rfl,
        List.forall_mem_cons.mpr ⟨hitem, hbefore⟩, hparts, hcount, hne⟩

theorem exists_readVariant_eq_ok_iff {index : Nat} {item : Json} :
    (∃ v, readVariant index item = .ok v) ↔ IsVariant item := by
  cases hparts : item.iterate with
  | error o => simp [readVariant, IsVariant, hparts, Except.mapError, bind, Except.bind]
  | ok parts =>
    simp only [readVariant, IsVariant, hparts, Except.mapError, bind, Except.bind,
      Except.ok.injEq]
    constructor
    · rintro ⟨v, hv⟩
      split at hv
      · exact ⟨_, _, rfl⟩
      · exact absurd hv (by simp)
      · exact absurd hv (by simp)
    · rintro ⟨name, value, rfl⟩
      exact ⟨(name, value), rfl⟩

/-- The offence that is not reported is a wrong number of parts. -/
theorem readVariant_eq_error_iff {index : Nat} {item : Json} {o : Offence} (ho : o.cls = .value) :
    readVariant index item = .error o ↔
      ∃ parts, item.iterate = .ok parts ∧ parts.length ≠ 2 ∧ o = .partCount index parts.length := by
  have hcls {o' : Offence} (h : o'.cls ≠ .value) : o' ≠ o := fun heq => h (heq ▸ ho)
  cases hparts : item.iterate with
  | error e =>
    have hne : Offence.noParts index ≠ o := hcls (by simp [Offence.cls])
    simp [readVariant, hparts, Except.mapError, bind, Except.bind, hne]
  | ok parts =>
    simp only [readVariant, hparts, Except.mapError, bind, Except.bind, Except.ok.injEq,
      exists_eq_left']
    -- two parts are a variant, or a name of the wrong kind
    split
    · simp
    · rename_i name value _
      have hne : Offence.unhashable ⟨name.kind⟩ ≠ o := hcls (by simp [Offence.cls])
      simp [hne]
    · rename_i hscalar hpair
      have hlength : parts.length ≠ 2 := by
        intro h
        obtain ⟨name, value, rfl⟩ := List.length_eq_two.mp h
        exact hpair name value rfl
      simp [hlength, eq_comm]

/-- The items of the variants, read from an index on, fail in this way exactly if they are
ragged. -/
theorem readItems_eq_error_iff {items : List Json} {start : Nat} {o : Offence}
    (ho : o.cls = .value) :
    (items.zipIdx start).mapM (fun e => readVariant e.2 e.1) = .error o ↔
      ∃ index count, IsRagged items index count ∧ o = .partCount (start + index) count := by
  induction items generalizing start with
  | nil => simp [isRagged_nil, pure, Except.pure]
  | cons item items ih =>
    rw [List.zipIdx_cons, List.mapM_cons, bind_eq_error_iff, readVariant_eq_error_iff ho]
    have hrest (v : Scalar × Json) :
        ((items.zipIdx (start + 1)).mapM (fun e => readVariant e.2 e.1) >>=
          fun vs => (pure (v :: vs) : Except Offence Variants)) = .error o ↔
        ∃ index count, IsRagged items index count ∧ o = .partCount (start + 1 + index) count := by
      rw [bind_eq_error_iff, ih]
      simp [pure, Except.pure]
    simp only [hrest, isRagged_cons_iff]
    constructor
    · rintro (⟨parts, hparts, hne, rfl⟩ | ⟨v, hv, index, count, hragged, rfl⟩)
      · exact ⟨0, parts.length, .inl ⟨rfl, parts, hparts, rfl, hne⟩, rfl⟩
      · refine ⟨index + 1, count, .inr ⟨index, rfl, ?_, hragged⟩, ?_⟩
        · exact exists_readVariant_eq_ok_iff.mp ⟨v, hv⟩
        · rw [Nat.add_assoc, Nat.add_comm 1 index]
    · rintro ⟨_, count, ⟨rfl, parts, hparts, rfl, hne⟩ | ⟨index, rfl, hitem, hragged⟩, rfl⟩
      · exact .inl ⟨parts, hparts, hne, rfl⟩
      · obtain ⟨v, hv⟩ := exists_readVariant_eq_ok_iff.mpr hitem
        refine .inr ⟨v, hv, index, count, hragged, ?_⟩
        rw [Nat.add_assoc, Nat.add_comm 1 index]

theorem readVariants_eq_error_iff {json : Option Json} {o : Offence} (ho : o.cls = .value) :
    readVariants json = .error o ↔
      ∃ value items index count, json = some value ∧ value.kind ≠ .object ∧
        value.iterate = .ok items ∧ IsRagged items index count ∧ o = .partCount index count := by
  rw [readVariants.eq_def]
  split
  · simp
  · simp [Json.kind]
  · rename_i value hobject
    have hkind : value.kind ≠ .object := by
      cases value with
      | object fields => exact absurd rfl (hobject fields)
      | scalar s => cases s <;> simp [Json.kind, Scalar.kind]
      | array items => simp [Json.kind]
    rw [(isReported_iterate value).bind_eq_error_iff ho]
    have hitems (items : List Json) :
        ((items.zipIdx.mapM fun e => readVariant e.2 e.1) >>= fun entries =>
          (.ok (entries.foldl (fun variants e => variants.set e.1 e.2) []) :
            Except Offence Variants)) = .error o ↔
        ∃ index count, IsRagged items index count ∧ o = .partCount index count := by
      rw [bind_eq_error_iff, readItems_eq_error_iff ho]
      simp
    constructor
    · rintro ⟨items, hiterate, h⟩
      obtain ⟨index, count, hragged, rfl⟩ := (hitems items).mp h
      exact ⟨value, items, index, count, rfl, hkind, hiterate, hragged, rfl⟩
    · rintro ⟨other, items, index, count, hother, -, hiterate, hragged, rfl⟩
      obtain rfl := Option.some.inj hother
      exact ⟨items, hiterate, (hitems items).mpr ⟨index, count, hragged, rfl⟩⟩

/-! ### Manifests -/

/-- Fields that would be those of a manifest, but for variants that are ragged. -/
structure HasRaggedVariants (fields : List (Text × Json)) (index count : Nat) : Prop where
  rules : ∃ rules, readRules (Json.lookup "rules" fields) = .ok rules
  version : ∃ version, Json.lookup "version" fields = some version
  generatedAt : ∃ generatedAt, Json.lookup "generatedAt" fields = some generatedAt
  variants : ∃ value items, Json.lookup "variants" fields = some value ∧ value.kind ≠ .object ∧
    value.iterate = .ok items ∧ IsRagged items index count

theorem ofFields_eq_error_iff {fields : List (Text × Json)} {o : Offence} (ho : o.cls = .value) :
    ofFields fields (readVariants (Json.lookup "variants" fields)) = .error o ↔
      ∃ index count, HasRaggedVariants fields index count ∧ o = .partCount index count := by
  simp only [ofFields, (isReported_readRules _).bind_eq_error_iff ho,
    (isReported_require _ _).bind_eq_error_iff ho, require_eq_ok_iff, bind_eq_error_iff,
    readVariants_eq_error_iff ho, reduceCtorEq, and_false, exists_false, or_false]
  constructor
  · rintro ⟨rules, hrules, version, hversion, generatedAt, hgenerated,
      value, items, index, count, hvalue, hkind, hitems, hragged, rfl⟩
    exact ⟨index, count, ⟨⟨rules, hrules⟩, ⟨version, hversion⟩, ⟨generatedAt, hgenerated⟩,
      value, items, hvalue, hkind, hitems, hragged⟩, rfl⟩
  · rintro ⟨index, count, h, rfl⟩
    obtain ⟨rules, hrules⟩ := h.rules
    obtain ⟨version, hversion⟩ := h.version
    obtain ⟨generatedAt, hgenerated⟩ := h.generatedAt
    obtain ⟨value, items, hvalue, hkind, hitems, hragged⟩ := h.variants
    exact ⟨rules, hrules, version, hversion, generatedAt, hgenerated,
      value, items, index, count, hvalue, hkind, hitems, hragged, rfl⟩

/-- A value fails by itself exactly if its variants are ragged. -/
theorem ofJson_escapes_iff {json : Json} {e : ReadError} :
    ofJson json = .error e ∧ e.isManifestError = false ↔
      ∃ fields index count, json = .object fields ∧ HasRaggedVariants fields index count ∧
        e = .offence (.partCount index count) := by
  cases json with
  | object fields =>
    simp only [ofJson]
    cases hfields : ofFields fields (readVariants (Json.lookup "variants" fields)) with
    | ok m =>
      have hnot (index count : Nat) : ¬HasRaggedVariants fields index count := fun h => by
        have herror := (ofFields_eq_error_iff rfl).mpr ⟨index, count, h, rfl⟩
        exact absurd (hfields.symm.trans herror) (by simp)
      simp [Except.mapError, hnot]
    | error o =>
      constructor
      · rintro ⟨he, hescapes⟩
        obtain rfl := Except.error.inj he
        have ho : o.cls = .value := by simpa [ReadError.isManifestError] using hescapes
        obtain ⟨index, count, h, rfl⟩ := (ofFields_eq_error_iff ho).mp hfields
        exact ⟨fields, index, count, rfl, h, rfl⟩
      · rintro ⟨_, index, count, heq, h, rfl⟩
        obtain rfl := Json.object.inj heq
        have herror := (ofFields_eq_error_iff rfl).mpr ⟨index, count, h, rfl⟩
        rw [hfields, Except.error.injEq] at herror
        rw [herror]
        exact ⟨rfl, rfl⟩
  | scalar s =>
    constructor
    · rintro ⟨he, hescapes⟩
      obtain rfl := Except.error.inj he
      exact absurd hescapes (by decide)
    · rintro ⟨fields, index, count, heq, -⟩
      exact absurd heq (by simp)
  | array items =>
    constructor
    · rintro ⟨he, hescapes⟩
      obtain rfl := Except.error.inj he
      exact absurd hescapes (by decide)
    · rintro ⟨fields, index, count, heq, -⟩
      exact absurd heq (by simp)

/-- The failures that are not reported as those of a manifest: a value fails by itself exactly
if it has the fields of a manifest, but variants one item of which has parts, and not two; a
text does if it goes beyond a limit of the reader, or holds such a value.  All others are
reported with the path of the file. -/
theorem escaping_failures (json : Json) (text path : Text) (e : ReadError) :
    ((∃ e, ofJson json = .error e ∧ e.isManifestError = false) ↔
      ∃ fields index count, json = .object fields ∧ HasRaggedVariants fields index count) ∧
    ((∃ e, load text = .error e ∧ e.isManifestError = false) ↔
      (∃ l, Json.parse (Text.unifyNewlines text) = .error (.limit l)) ∨
      ∃ fields index count, Json.parse (Text.unifyNewlines text) = .ok (.object fields) ∧
        HasRaggedVariants fields index count) ∧
    e.messageAt path = (if e.isManifestError then path ++ ": " else []) ++ e.message := by
  refine ⟨?_, ?_, ?_⟩
  · simp only [ofJson_escapes_iff]
    constructor
    · rintro ⟨e, fields, index, count, hjson, h, -⟩
      exact ⟨fields, index, count, hjson, h⟩
    · rintro ⟨fields, index, count, hjson, h⟩
      exact ⟨_, fields, index, count, hjson, h, rfl⟩
  · rw [load]
    cases hparse : Json.parse (Text.unifyNewlines text) with
    | ok json =>
      simp only [ofJson_escapes_iff, reduceCtorEq, exists_false, false_or, Except.ok.injEq]
      constructor
      · rintro ⟨e, fields, index, count, hjson, h, -⟩
        exact ⟨fields, index, count, hjson, h⟩
      · rintro ⟨fields, index, count, hjson, h⟩
        exact ⟨_, fields, index, count, hjson, h, rfl⟩
    | error e =>
      cases e with
      | grammar fault location => simp [ReadError.isManifestError, Json.ParseError.isSyntax]
      | limit l => simp [ReadError.isManifestError, Json.ParseError.isSyntax]
  · rw [ReadError.messageAt]
    split <;> rfl

/-- An item of three parts is not reported as an offence of a manifest. -/
theorem ofJson_three_parts :
    ofJson (.object [("version", .text "1"), ("generatedAt", .text "now"),
      ("variants", .array [.text "abc"])]) = .error (.offence (.partCount 0 3)) ∧
    (ReadError.offence (.partCount 0 3)).isManifestError = false :=
  ⟨rfl, rfl⟩

end Manifest

end UtilityCss
