/-
The items of a token set after each operation.

An operation keeps some of the items where they are and puts others after them.

* `TokenSet.items_insertAll`, `TokenSet.items_eraseAll`, `TokenSet.items_foldl_flip` — insertions,
  removals and flips one after the other;
* `TokenSet.items_ofList` — the members of a list are its first occurrences;
* `TokenSet.items_toggle`, `TokenSet.toggle_self` — flips of the members of a set;
* `TokenSet.drain` — removing the first item until there is none;
* `TokenSet.diff_eq_eraseAll`, `TokenSet.retain_eq_eraseAll`, `TokenSet.drain_eq_empty` — the
  operations that filter are runs of single removals.
-/
import UtilityCss.Proofs.Regroup
import UtilityCss.TokenSet

namespace UtilityCss

namespace TokenSet

/-! ### One token after the other -/

/-- Takes all tokens of a list out, one after the other. -/
def eraseAll (s : TokenSet) (tokens : List Text) : TokenSet :=
  tokens.foldl erase s

theorem items_erase (s : TokenSet) (t : Text) : (s.erase t).items = s.items.filter (· ≠ t) :=
  rfl

theorem mem_erase {s : TokenSet} {t u : Text} : u ∈ s.erase t ↔ u ∈ s ∧ u ≠ t := by
  rw [erase, mem_filter, decide_eq_true_eq]

theorem items_insert_of_mem {s : TokenSet} {t : Text} (h : t ∈ s) : (s.insert t).items = s.items := by
  rw [insert, dif_pos (mem_def.mp h)]

theorem items_insert_of_notMem {s : TokenSet} {t : Text} (h : t ∉ s) :
    (s.insert t).items = s.items ++ [t] := by
  rw [insert, dif_neg fun hmem => h (mem_def.mpr hmem)]

/-- New tokens come after all items, each where it is first met. -/
theorem items_insertAll (s : TokenSet) (tokens : List Text) :
    (s.insertAll tokens).items = s.items ++ (tokens.filter (· ∉ s)).eraseDups := by
  induction tokens generalizing s with
  | nil => exact (List.append_nil _).symm
  | cons t tokens ih =>
    show ((s.insert t).insertAll tokens).items = _
    rw [ih]
    by_cases ht : t ∈ s
    · have hrest : tokens.filter (· ∉ s.insert t) = tokens.filter (· ∉ s) := by
        refine List.filter_congr fun u _ => decide_eq_decide.mpr (not_congr ?_)
        rw [mem_def, mem_def, items_insert_of_mem ht]
      rw [items_insert_of_mem ht, hrest, List.filter_cons_of_neg (by simp [ht])]
    · have hrest : tokens.filter (· ∉ s.insert t) = (tokens.filter (· ∉ s)).filter (!· == t) := by
        rw [List.filter_filter]
        refine List.filter_congr fun u _ => ?_
        simp [mem_insert, Bool.and_comm, beq_eq_decide]
      rw [items_insert_of_notMem ht, hrest, List.filter_cons_of_pos (by simp [ht]),
        List.eraseDups_cons, List.append_assoc]
      rfl

theorem items_eraseAll (s : TokenSet) (tokens : List Text) :
    (s.eraseAll tokens).items = s.items.filter (· ∉ tokens) := by
  induction tokens generalizing s with
  | nil => simp [eraseAll]
  | cons t tokens ih =>
    show ((s.erase t).eraseAll tokens).items = _
    rw [ih, items_erase, List.filter_filter]
    refine List.filter_congr fun u _ => ?_
    simp [Bool.and_comm]

/-- Flips of different tokens: the items that are not flipped, then those that were not there. -/
theorem items_foldl_flip (s : TokenSet) {tokens : List Text} (h : tokens.Nodup) :
    (tokens.foldl flip s).items = s.items.filter (· ∉ tokens) ++ tokens.filter (· ∉ s) := by
  induction tokens generalizing s with
  | nil => simp
  | cons t tokens ih =>
    obtain ⟨ht, htokens⟩ := List.nodup_cons.mp h
    have hne : ∀ u ∈ tokens, u ≠ t := fun u hu heq => ht (heq ▸ hu)
    rw [List.foldl_cons, ih _ htokens, flip]
    by_cases hmem : t ∈ s
    · -- a member is taken out, which changes nothing for the other tokens
      have hrest : tokens.filter (· ∉ s.erase t) = tokens.filter (· ∉ s) := by
        refine List.filter_congr fun u hu => decide_eq_decide.mpr (not_congr ?_)
        rw [mem_erase, and_iff_left (hne u hu)]
      rw [if_pos hmem, hrest, items_erase, List.filter_filter,
        List.filter_cons_of_neg (by simp [hmem])]
      congr 1
      refine List.filter_congr fun u _ => ?_
      simp [Bool.and_comm]
    · have hrest : tokens.filter (· ∉ s.insert t) = tokens.filter (· ∉ s) := by
        refine List.filter_congr fun u hu => decide_eq_decide.mpr (not_congr ?_)
        rw [mem_insert, or_iff_left (hne u hu)]
      have hkept : s.items.filter (· ∉ t :: tokens) = s.items.filter (· ∉ tokens) := by
        refine List.filter_congr fun u hu => decide_eq_decide.mpr (not_congr ?_)
        have hut : u ≠ t := fun heq => hmem (mem_def.mpr (heq ▸ hu))
        rw [List.mem_cons, or_iff_right hut]
      rw [if_neg hmem, hrest, hkept, items_insert_of_notMem hmem, List.filter_append,
        List.filter_cons_of_pos (by simpa using ht), List.filter_nil, List.append_assoc,
        List.filter_cons_of_pos (by simpa using hmem)]
      rfl

/-! ### Two sets -/

theorem items_ofList (tokens : List Text) : (ofList tokens).items = tokens.eraseDups := by
  have hall : tokens.filter (· ∉ empty) = tokens :=
    List.filter_eq_self.mpr fun _ _ => by simp [mem_def, empty]
  rw [ofList, items_insertAll, hall]
  rfl

theorem insertAll_eraseDups (s : TokenSet) (tokens : List Text) :
    s.insertAll tokens.eraseDups = s.insertAll tokens := by
  refine ext_items ?_
  rw [items_insertAll, items_insertAll, ← eraseDups_filter, eraseDups_eraseDups]

theorem items_toggle (a b : TokenSet) :
    (a.toggle b).items = a.items.filter (· ∉ b) ++ b.items.filter (· ∉ a) :=
  items_foldl_flip a b.nodup

theorem diff_self (s : TokenSet) : s.diff s = empty :=
  ext_items (List.filter_eq_nil_iff.mpr fun _ hu => by simpa using mem_def.mpr hu)

theorem toggle_self (s : TokenSet) : s.toggle s = empty := by
  refine ext_items ?_
  have hnone : s.items.filter (· ∉ s) = [] := congrArg items s.diff_self
  rw [items_toggle, hnone]
  rfl

/-! ### Runs of single removals -/

theorem pop?_eq_none_iff {s : TokenSet} : s.pop? = none ↔ s.items = [] := by
  rw [pop?, Option.map_eq_none_iff, List.head?_eq_none_iff]

theorem pop?_eq_some_iff {s rest : TokenSet} {t : Text} :
    s.pop? = some (t, rest) ↔ s.items = t :: rest.items := by
  rw [pop?, Option.map_eq_some_iff]
  constructor
  · rintro ⟨u, hu, hpair⟩
    obtain ⟨rfl, rfl⟩ := Prod.mk.inj hpair
    obtain ⟨tail, htail⟩ := List.head?_eq_some_iff.mp hu
    simp only [htail, List.tail_cons]
  · intro h
    refine ⟨t, by rw [h]; rfl, Prod.ext rfl (ext_items ?_)⟩
    show s.items.tail = rest.items
    rw [h]
    rfl

theorem size_of_pop? {s rest : TokenSet} {t : Text} (h : s.pop? = some (t, rest)) :
    s.size = rest.size + 1 := by
  rw [size, pop?_eq_some_iff.mp h]
  rfl

/-- Removes the first item until there is none. -/
def drain (s : TokenSet) : TokenSet :=
  match h : s.pop? with
  | none => s
  | some (_, rest) =>
    have : rest.size < s.size := by rw [size_of_pop? h]; exact Nat.lt_succ_self _
    drain rest
termination_by s.size

/-- The set without its first item is what is left when that item is taken out. -/
theorem erase_of_pop? {s rest : TokenSet} {t : Text} (h : s.pop? = some (t, rest)) :
    s.erase t = rest := by
  have hitems := pop?_eq_some_iff.mp h
  have hnodup := s.nodup
  rw [hitems, List.nodup_cons] at hnodup
  refine ext_items ?_
  rw [items_erase, hitems, List.filter_cons_of_neg (by simp), List.filter_eq_self]
  exact fun u hu => decide_eq_true fun heq => hnodup.1 (heq ▸ hu)

theorem drain_eq_empty (s : TokenSet) : s.drain = empty := by
  fun_induction drain s with
  | case1 s h => exact ext_items (pop?_eq_none_iff.mp h)
  | case2 s t rest h _ ih => exact ih

theorem diff_eq_eraseAll (a : TokenSet) (tokens : List Text) :
    a.diff (ofList tokens) = a.eraseAll tokens := by
  refine ext_items ?_
  rw [items_eraseAll, diff]
  refine List.filter_congr fun u _ => decide_eq_decide.mpr (not_congr ?_)
  exact mem_ofList

/-- The common members are left when all others are taken out. -/
theorem retain_eq_eraseAll (a b : TokenSet) : a.retain b = a.eraseAll (a.diff b).items := by
  refine ext_items ?_
  rw [items_eraseAll, retain]
  refine List.filter_congr fun u hu => decide_eq_decide.mpr ?_
  rw [← mem_def, diff, mem_filter, decide_eq_true_eq, not_and, not_not]
  exact ⟨fun h _ => h, fun h => h (mem_def.mpr hu)⟩

end TokenSet

end UtilityCss
