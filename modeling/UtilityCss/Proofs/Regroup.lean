/-
Lists regrouped by a key.

Elements without a key come first, then, for each key in the order in which the keys
are first met, the elements with that key; the order is kept otherwise.  This is the
order in which a sheet writes its rules.

* `keysOf`, `regroup` — the keys of a list, and the list regrouped;
* `filter_regroup_none`, `filter_regroup_some`, `keysOf_regroup` — regrouping moves no
  element past another of the same key and meets the keys in the same order;
* `Sheet.groups_eq` — the groups that one pass gathers are the keys with their
  elements;
* `Sheet.render_regroup` — a sheet does not change if its entries are regrouped.
-/
import Mathlib.Data.List.Induction
import Mathlib.Data.List.Nodup
import UtilityCss.Sheet

namespace UtilityCss

/-! ### First occurrences -/

section FirstOccurrences

variable {α : Type} [BEq α] [LawfulBEq α]

theorem eraseDups_concat (l : List α) (a : α) :
    (l ++ [a]).eraseDups = if a ∈ l then l.eraseDups else l.eraseDups ++ [a] := by
  rw [List.eraseDups_append]
  split
  · simp [List.removeAll, *]
  · simp [List.removeAll, List.eraseDups_cons, *]

theorem nodup_eraseDups (l : List α) : l.eraseDups.Nodup := by
  induction l using List.reverseRecOn with
  | nil => exact List.nodup_nil
  | append_singleton l a ih =>
    rw [eraseDups_concat]
    split
    · exact ih
    · rename_i ha
      refine List.nodup_append.mpr ⟨ih, List.nodup_singleton a, fun b hb c hc hbc => ?_⟩
      rw [List.mem_singleton.mp hc] at hbc
      exact ha (List.mem_eraseDups.mp (hbc ▸ hb))

theorem eraseDups_of_nodup {l : List α} (h : l.Nodup) : l.eraseDups = l := by
  induction l using List.reverseRecOn with
  | nil => rfl
  | append_singleton l a ih =>
    obtain ⟨hl, -, hdisjoint⟩ := List.nodup_append.mp h
    have ha : a ∉ l := fun hmem => hdisjoint a hmem a (List.mem_singleton_self a) rfl
    rw [eraseDups_concat, if_neg ha, ih hl]

theorem eraseDups_eraseDups (l : List α) : l.eraseDups.eraseDups = l.eraseDups :=
  eraseDups_of_nodup (nodup_eraseDups l)

theorem eraseDups_filter (p : α → Bool) (l : List α) :
    (l.filter p).eraseDups = l.eraseDups.filter p := by
  induction l using List.reverseRecOn with
  | nil => rfl
  | append_singleton l a ih =>
    rw [List.filter_append, eraseDups_concat]
    cases hp : p a with
    | false =>
      -- the last element is left out on both sides
      rw [List.filter_singleton, hp, Bool.cond_false, List.append_nil, ih]
      split
      · rfl
      · rw [List.filter_append, List.filter_singleton, hp, Bool.cond_false, List.append_nil]
    | true =>
      rw [List.filter_singleton, hp, Bool.cond_true, eraseDups_concat, ih]
      by_cases ha : a ∈ l
      · rw [if_pos ha, if_pos (List.mem_filter.mpr ⟨ha, hp⟩)]
      · have hfilter : a ∉ l.filter p := fun h => ha (List.mem_filter.mp h).1
        rw [if_neg ha, if_neg hfilter, List.filter_append, List.filter_singleton, hp,
          Bool.cond_true]

theorem eraseDups_of_forall_eq {l : List α} {a : α} (hne : l ≠ []) (h : ∀ b ∈ l, b = a) :
    l.eraseDups = [a] := by
  obtain ⟨b, l, rfl⟩ := List.exists_cons_of_ne_nil hne
  obtain ⟨rfl, hl⟩ := List.forall_mem_cons.mp h
  have hnil : l.filter (fun c => !c == b) = [] := by
    rw [List.filter_eq_nil_iff]
    intro c hc
    simp [hl c hc]
  rw [List.eraseDups_cons, hnil, List.eraseDups_nil]

theorem eraseDups_map {β : Type} [BEq β] [LawfulBEq β] {f : α → β} (hf : f.Injective) (l : List α) :
    (l.map f).eraseDups = l.eraseDups.map f := by
  induction l using List.reverseRecOn with
  | nil => rfl
  | append_singleton l a ih =>
    rw [List.map_append, List.map_singleton, eraseDups_concat, eraseDups_concat, ih]
    by_cases ha : a ∈ l
    · rw [if_pos ha, if_pos (List.mem_map_of_mem ha)]
    · have hfa : f a ∉ l.map f := by rwa [List.mem_map_of_injective hf]
      rw [if_neg ha, if_neg hfa, List.map_append, List.map_singleton]

/-- Blocks of equal elements, one for each element of a list without repeats. -/
theorem eraseDups_flatMap {keys : List α} {block : α → List α} (hkeys : keys.Nodup)
    (hne : ∀ k ∈ keys, block k ≠ []) (hblock : ∀ k, ∀ a ∈ block k, a = k) :
    (keys.flatMap block).eraseDups = keys := by
  induction keys with
  | nil => rfl
  | cons k keys ih =>
    obtain ⟨hk, hkeys⟩ := List.nodup_cons.mp hkeys
    obtain ⟨hnek, hne⟩ := List.forall_mem_cons.mp hne
    -- the later blocks have other elements
    have hrest : (keys.flatMap block).removeAll (block k) = keys.flatMap block := by
      refine List.filter_eq_self.mpr fun a ha => ?_
      obtain ⟨k', hk', hak'⟩ := List.mem_flatMap.mp ha
      have hnot : a ∉ block k := by
        intro hak
        rw [hblock k' a hak'] at hak
        exact hk (hblock k k' hak ▸ hk')
      simpa using hnot
    rw [List.flatMap_cons, List.eraseDups_append, hrest, ih hkeys hne,
      eraseDups_of_forall_eq hnek (hblock k)]
    rfl

end FirstOccurrences

/-! ### Regrouping -/

section Regroup

variable {α β κ : Type} [DecidableEq κ]

/-- The keys of a list, in the order in which they are first met. -/
def keysOf (key : α → Option κ) (l : List α) : List κ :=
  (l.filterMap key).eraseDups

/-- The elements without a key, then those of each key. -/
def regroup (key : α → Option κ) (l : List α) : List α :=
  l.filter (fun a => key a = none) ++
    (keysOf key l).flatMap fun k => l.filter fun a => key a = some k

theorem nodup_keysOf (key : α → Option κ) (l : List α) : (keysOf key l).Nodup :=
  nodup_eraseDups _

theorem mem_keysOf {key : α → Option κ} {l : List α} {k : κ} :
    k ∈ keysOf key l ↔ ∃ a ∈ l, key a = some k := by
  rw [keysOf, List.mem_eraseDups, List.mem_filterMap]

theorem mem_regroup {key : α → Option κ} {l : List α} {a : α} : a ∈ regroup key l ↔ a ∈ l := by
  rw [regroup, List.mem_append, List.mem_filter, List.mem_flatMap]
  constructor
  · rintro (⟨ha, -⟩ | ⟨k, -, ha⟩)
    · exact ha
    · exact (List.mem_filter.mp ha).1
  · intro ha
    cases hkey : key a with
    | none => exact .inl ⟨ha, by simp⟩
    | some k => exact .inr ⟨k, mem_keysOf.mpr ⟨a, ha, hkey⟩, List.mem_filter.mpr ⟨ha, by simp [hkey]⟩⟩

theorem regroup_map (f : α → β) (key : β → Option κ) (l : List α) :
    regroup key (l.map f) = (regroup (fun a => key (f a)) l).map f := by
  have hkeys : keysOf key (l.map f) = keysOf (fun a => key (f a)) l := by
    rw [keysOf, List.filterMap_map]
    rfl
  rw [regroup, regroup, hkeys, List.map_append, List.map_flatMap, List.filter_map]
  congr 2
  funext k
  rw [List.filter_map]
  rfl

theorem regroup_congr {key key' : α → Option κ} {l : List α} (h : ∀ a ∈ l, key a = key' a) :
    regroup key l = regroup key' l := by
  have hkeys : keysOf key l = keysOf key' l := by
    rw [keysOf, keysOf, List.filterMap_congr h]
  have hfilter (k : Option κ) :
      l.filter (fun a => key a = k) = l.filter fun a => key' a = k :=
    List.filter_congr fun a ha => by rw [h a ha]
  rw [regroup, regroup, hkeys, hfilter none]
  simp only [hfilter]

/-- Keys that are told apart by their images may stand for them. -/
theorem regroup_map_key {κ' : Type} [DecidableEq κ'] {f : κ → κ'} (hf : f.Injective)
    (key : α → Option κ) (l : List α) :
    regroup (fun a => (key a).map f) l = regroup key l := by
  have hkeys : keysOf (fun a => (key a).map f) l = (keysOf key l).map f := by
    rw [keysOf, ← List.map_filterMap, eraseDups_map hf]
    rfl
  have hfilter (k : κ) : l.filter (fun a => (key a).map f = some (f k)) =
      l.filter fun a => key a = some k := by
    refine List.filter_congr fun a _ => decide_eq_decide.mpr ?_
    rw [Option.map_eq_some_iff]
    simp [hf.eq_iff]
  rw [regroup, regroup, hkeys, List.flatMap_map]
  simp only [hfilter, Option.map_eq_none_iff]

/-! ### What regrouping keeps -/

theorem filter_regroup_none (key : α → Option κ) (l : List α) :
    (regroup key l).filter (fun a => key a = none) = l.filter fun a => key a = none := by
  have hblocks : ((keysOf key l).flatMap fun k => l.filter fun a => key a = some k).filter
      (fun a => key a = none) = [] := by
    rw [List.filter_eq_nil_iff]
    intro a ha
    obtain ⟨k, -, hk⟩ := List.mem_flatMap.mp ha
    simp [of_decide_eq_true (List.mem_filter.mp hk).2]
  rw [regroup, List.filter_append, List.filter_filter, hblocks, List.append_nil]
  simp

theorem flatMap_ite_eq {keys : List κ} (hkeys : keys.Nodup) (k : κ) (block : List α) :
    (keys.flatMap fun k' => if k' = k then block else []) = if k ∈ keys then block else [] := by
  induction keys with
  | nil => rfl
  | cons k' keys ih =>
    obtain ⟨hk', hkeys⟩ := List.nodup_cons.mp hkeys
    rw [List.flatMap_cons, ih hkeys]
    by_cases h : k' = k
    · subst h
      simp [hk']
    · simp [h, Ne.symm h]

theorem filter_regroup_some (key : α → Option κ) (l : List α) (k : κ) :
    (regroup key l).filter (fun a => key a = some k) = l.filter fun a => key a = some k := by
  have hglobals : (l.filter (fun a => key a = none)).filter (fun a => key a = some k) = [] := by
    rw [List.filter_eq_nil_iff]
    intro a ha
    simp [of_decide_eq_true (List.mem_filter.mp ha).2]
  -- of the blocks, only that of `k` has elements with this key
  have hblock (k' : κ) : (l.filter (fun a => key a = some k')).filter (fun a => key a = some k) =
      if k' = k then l.filter (fun a => key a = some k) else [] := by
    split
    · rename_i h
      rw [h, List.filter_filter]
      simp
    · rename_i h
      rw [List.filter_eq_nil_iff]
      intro a ha
      simp [of_decide_eq_true (List.mem_filter.mp ha).2, h]
  rw [regroup, List.filter_append, hglobals, List.nil_append, List.filter_flatMap]
  simp only [hblock]
  rw [flatMap_ite_eq (nodup_keysOf key l)]
  split
  · rfl
  · rename_i hk
    symm
    rw [List.filter_eq_nil_iff]
    intro a ha hkey
    exact hk (mem_keysOf.mpr ⟨a, ha, of_decide_eq_true hkey⟩)

theorem keysOf_regroup (key : α → Option κ) (l : List α) :
    keysOf key (regroup key l) = keysOf key l := by
  have hglobals : (l.filter (fun a => key a = none)).filterMap key = [] := by
    rw [List.filterMap_eq_nil_iff]
    intro a ha
    exact of_decide_eq_true (List.mem_filter.mp ha).2
  rw [keysOf, regroup, List.filterMap_append, hglobals, List.nil_append, List.filterMap_flatMap]
  -- every block has an element, and all elements of a block have its key
  refine eraseDups_flatMap (nodup_keysOf key l) (fun k hk => ?_) fun k k' hk' => ?_
  · obtain ⟨a, ha, hkey⟩ := mem_keysOf.mp hk
    refine List.ne_nil_of_mem (List.mem_filterMap.mpr ⟨a, ?_, hkey⟩)
    exact List.mem_filter.mpr ⟨ha, by simp [hkey]⟩
  · obtain ⟨a, ha, hkey⟩ := List.mem_filterMap.mp hk'
    have hkey' := of_decide_eq_true (List.mem_filter.mp ha).2
    exact Option.some.inj (hkey.symm.trans hkey')

end Regroup

/-! ### Sheets -/

namespace Sheet

theorem groups_concat {κ : Type} [BEq κ] (entries : List (Entry κ)) (e : Entry κ) :
    groups (entries ++ [e]) =
      match e.media with
      | none => groups entries
      | some key => (groups entries).insert key e.text := by
  rw [groups, List.foldl_append]
  rfl

variable {κ : Type} [DecidableEq κ]

/-- A text for a key that has a group goes to the end of that group. -/
theorem Groups.insert_of_mem {keys : List κ} {key : κ} (hkeys : keys.Nodup) (hkey : key ∈ keys)
    (text : Text) (texts : κ → List Text) :
    Groups.insert key text (keys.map fun k => (k, texts k)) =
      keys.map fun k => (k, if k = key then texts k ++ [text] else texts k) := by
  induction keys with
  | nil => exact absurd hkey (by simp)
  | cons k keys ih =>
    obtain ⟨hk, hkeys⟩ := List.nodup_cons.mp hkeys
    rw [List.map_cons, Groups.insert, List.map_cons]
    by_cases h : k = key
    · subst h
      have hrest : (keys.map fun k' => (k', if k' = k then texts k' ++ [text] else texts k')) =
          keys.map fun k' => (k', texts k') := by
        refine List.map_congr_left fun k' hk' => ?_
        rw [if_neg fun h : k' = k => hk (h ▸ hk')]
      simp [hrest]
    · have hmem : key ∈ keys := (List.mem_cons.mp hkey).resolve_left (Ne.symm h)
      simp [h, ih hkeys hmem]

/-- A text for another key opens a group at the end. -/
theorem Groups.insert_of_not_mem {keys : List κ} {key : κ} (hkey : key ∉ keys) (text : Text)
    (texts : κ → List Text) :
    Groups.insert key text (keys.map fun k => (k, texts k)) =
      (keys.map fun k => (k, texts k)) ++ [(key, [text])] := by
  induction keys with
  | nil => rfl
  | cons k keys ih =>
    obtain ⟨hk, hkeys⟩ := not_or.mp (fun h => hkey (List.mem_cons.mpr h))
    rw [List.map_cons, Groups.insert, ih hkeys]
    simp [Ne.symm hk]

/-- The texts of the entries with a key. -/
def textsOf (entries : List (Entry κ)) (k : κ) : List Text :=
  (entries.filter fun e => e.media = some k).map Entry.text

theorem textsOf_concat (entries : List (Entry κ)) (e : Entry κ) (k : κ) :
    textsOf (entries ++ [e]) k =
      if e.media = some k then textsOf entries k ++ [e.text] else textsOf entries k := by
  rw [textsOf, List.filter_append]
  split
  · simp [textsOf, *]
  · simp [textsOf, *]

theorem keysOf_concat (entries : List (Entry κ)) (e : Entry κ) :
    keysOf Entry.media (entries ++ [e]) =
      match e.media with
      | none => keysOf Entry.media entries
      | some k =>
        if k ∈ keysOf Entry.media entries then keysOf Entry.media entries
        else keysOf Entry.media entries ++ [k] := by
  rw [keysOf, List.filterMap_append, List.filterMap_cons, List.filterMap_nil]
  cases e.media with
  | none => rw [List.append_nil, keysOf]
  | some k =>
    simp only [eraseDups_concat, keysOf, List.mem_eraseDups]

/-- The groups that one pass gathers are the keys, each with its texts. -/
theorem groups_eq (entries : List (Entry κ)) :
    groups entries = (keysOf Entry.media entries).map fun k => (k, textsOf entries k) := by
  induction entries using List.reverseRecOn with
  | nil => rfl
  | append_singleton entries e ih =>
    rw [groups_concat, ih, keysOf_concat]
    simp only [textsOf_concat]
    -- the last entry opens a group exactly if its key was not met before
    cases hmedia : e.media with
    | none => simp
    | some key =>
      simp only [Option.some.injEq]
      split
      · rename_i hkey
        rw [Groups.insert_of_mem (nodup_keysOf _ _) hkey]
        simp only [eq_comm]
      · rename_i hkey
        have htexts : textsOf entries key = [] := by
          rw [textsOf, List.map_eq_nil_iff, List.filter_eq_nil_iff]
          intro a ha hmem
          exact hkey (mem_keysOf.mpr ⟨a, ha, of_decide_eq_true hmem⟩)
        have hother : ∀ k ∈ keysOf Entry.media entries, key ≠ k := fun k hk h => hkey (h ▸ hk)
        rw [Groups.insert_of_not_mem hkey, List.map_append, List.map_singleton, if_pos rfl, htexts]
        congr 1
        refine List.map_congr_left fun k hk => ?_
        rw [if_neg (hother k hk)]

omit [DecidableEq κ] in
theorem globals_eq (entries : List (Entry κ)) :
    globals entries = (entries.filter fun e => e.media = none).map Entry.text := by
  rw [globals]
  congr 2
  funext e
  cases e.media <;> rfl

/-- A sheet by its keys: the entries without a key, then a block for each key. -/
theorem render_eq (query : κ → Text) (entries : List (Entry κ)) :
    render query entries = Text.unlines
      (globals entries ++ (keysOf Entry.media entries).flatMap fun k =>
        blockLines (query k) (textsOf entries k)) := by
  rw [render, groups_eq, List.flatMap_map]

/-- A sheet does not change if its entries are regrouped. -/
theorem render_regroup (query : κ → Text) (entries : List (Entry κ)) :
    render query (regroup Entry.media entries) = render query entries := by
  rw [render_eq, render_eq, keysOf_regroup, globals_eq, globals_eq, filter_regroup_none]
  simp only [textsOf, filter_regroup_some]

end Sheet

end UtilityCss
