/-
The algebra of token sets.

Comparisons count the items and look for those of one set in the other.  As no item is there
twice, this tells which members the sets have.  Every operator on two sets either makes a new set
or changes the first one; but for the common members both give the same items in the same order.

* `TokenSet.Comparison.holds_iff` — what each comparison says of the members;
* `TokenSet.Operator.returned`, `TokenSet.Operator.inPlace` — the two forms of an operator;
* `TokenSet.Operator.returned_eq_collected`, `TokenSet.Operator.inPlace_eq_singly` — the first
  collects the items that it goes through, and the second changes one token after the other;
* `TokenSet.toggle_eq_symmDiff` — flips leave what the symmetric difference returns;
* `TokenSet.set_algebra` — the comparisons, the two forms of the operators, and the laws that
  connect the operators.
-/
import Mathlib.Data.List.Perm.Subperm
import UtilityCss.Proofs.TokenSetHistory

namespace UtilityCss

namespace TokenSet

/-! ### Comparisons -/

/-- The comparisons of two sets. -/
inductive Comparison where
  | subset
  | properSubset
  | superset
  | properSuperset
  | same
  | different
  | disjoint

/-- Whether a comparison holds, as it is computed. -/
def Comparison.holds (a b : TokenSet) : Comparison → Bool
  | subset => a.subset b
  | properSubset => a.properSubset b
  | superset => b.subset a
  | properSuperset => b.properSubset a
  | same => a.sameMembers b
  | different => !a.sameMembers b
  | disjoint => a.disjoint b

/-- What a comparison says of the members. -/
def Comparison.means (a b : TokenSet) : Comparison → Prop
  | subset => ∀ t ∈ a, t ∈ b
  | properSubset => (∀ t ∈ a, t ∈ b) ∧ ∃ t ∈ b, t ∉ a
  | superset => ∀ t ∈ b, t ∈ a
  | properSuperset => (∀ t ∈ b, t ∈ a) ∧ ∃ t ∈ a, t ∉ b
  | same => ∀ t, t ∈ a ↔ t ∈ b
  | different => ¬∀ t, t ∈ a ↔ t ∈ b
  | disjoint => ¬∃ t, t ∈ a ∧ t ∈ b

variable {a b : TokenSet}

/-- Items that are not there twice do not outnumber those of a larger set. -/
theorem size_le (h : ∀ t ∈ a, t ∈ b) : a.size ≤ b.size :=
  (List.subperm_of_subset a.nodup h).length_le

/-- A set of as many items as a subset of it has no other ones. -/
theorem mem_of_size_le (h : ∀ t ∈ a, t ∈ b) (hsize : b.size ≤ a.size) : ∀ t ∈ b, t ∈ a :=
  fun _ ht => ((List.subperm_of_subset a.nodup h).perm_of_length_le hsize).mem_iff.mpr ht

theorem subset_iff : a.subset b = true ↔ ∀ t ∈ a, t ∈ b := by
  simp only [subset, Bool.and_eq_true, decide_eq_true_eq, List.all_eq_true]
  exact ⟨fun h => h.2, fun h => ⟨size_le h, h⟩⟩

theorem properSubset_iff :
    a.properSubset b = true ↔ (∀ t ∈ a, t ∈ b) ∧ ∃ t ∈ b, t ∉ a := by
  rw [properSubset, Bool.and_eq_true, decide_eq_true_eq, subset_iff, and_comm]
  -- among subsets, fewer items and a missing member are the same
  refine and_congr_right fun h => ⟨fun hlt => ?_, ?_⟩
  · by_contra hnone
    simp only [not_exists, not_and, not_not] at hnone
    exact absurd (size_le hnone) (Nat.not_le.mpr hlt)
  · rintro ⟨t, ht, hnot⟩
    by_contra hge
    exact hnot (mem_of_size_le h (Nat.not_lt.mp hge) t ht)

theorem sameMembers_iff : a.sameMembers b = true ↔ ∀ t, t ∈ a ↔ t ∈ b := by
  rw [sameMembers, Bool.and_eq_true, decide_eq_true_eq, subset_iff]
  constructor
  · rintro ⟨hsize, h⟩ t
    exact ⟨h t, mem_of_size_le h hsize.ge t⟩
  · intro h
    have hsub : ∀ t ∈ a, t ∈ b := fun t => (h t).mp
    exact ⟨(size_le hsub).antisymm (size_le fun t => (h t).mpr), hsub⟩

theorem disjoint_iff : a.disjoint b = true ↔ ¬∃ t, t ∈ a ∧ t ∈ b := by
  simp only [disjoint, List.all_eq_true, decide_eq_true_eq, not_exists, not_and]
  exact forall_congr' fun t => imp_not_comm

theorem Comparison.holds_iff (c : Comparison) (a b : TokenSet) :
    c.holds a b = true ↔ c.means a b := by
  cases c with
  | subset => exact subset_iff
  | properSubset => exact properSubset_iff
  | superset => exact subset_iff
  | properSuperset => exact properSubset_iff
  | same => exact sameMembers_iff
  | different => rw [holds, Bool.not_eq_true', ← Bool.not_eq_true, sameMembers_iff]; rfl
  | disjoint => exact disjoint_iff

/-- Sets that are subsets of each other have the same members. -/
theorem subset_antisymm_iff :
    (a.subset b = true ∧ b.subset a = true) ↔ a.sameMembers b = true := by
  rw [subset_iff, subset_iff, sameMembers_iff]
  exact ⟨fun h t => ⟨h.1 t, h.2 t⟩, fun h => ⟨fun t => (h t).mp, fun t => (h t).mpr⟩⟩

/-! ### Operators -/

/-- The operators on two sets. -/
inductive Operator where
  | union
  | inter
  | diff
  | symmDiff
  deriving DecidableEq

namespace Operator

/-- The new set that an operator returns. -/
def returned (a b : TokenSet) : Operator → TokenSet
  | union => a.union b
  | inter => a.inter b
  | diff => a.diff b
  | symmDiff => a.symmDiff b

/-- What an operator leaves in the first set when it changes it. -/
def inPlace (a b : TokenSet) : Operator → TokenSet
  | union => a.union b
  | inter => a.retain b
  | diff => a.diff b
  | symmDiff => a.toggle b

/-- What an operator returns, collected from the items that it goes through. -/
def collected (a b : TokenSet) : Operator → TokenSet
  | union => ofList (a.items ++ b.items)
  | inter => ofList (b.items.filter (· ∈ a))
  | diff => ofList (a.items.filter (· ∉ b))
  | symmDiff => ofList
      ((ofList (a.items.filter (· ∉ b))).items ++ (ofList (b.items.filter (· ∉ a))).items)

/-- The step that changes a set by an operator. -/
def step (o : Operand) : Operator → Step
  | union => .unite o
  | inter => .intersect o
  | diff => .subtract o
  | symmDiff => .toggle o

end Operator

theorem ofList_of_nodup {tokens : List Text} (h : tokens.Nodup) : (ofList tokens).items = tokens := by
  rw [items_ofList, eraseDups_of_nodup h]

theorem ofList_items (s : TokenSet) : ofList s.items = s :=
  ext_items (ofList_of_nodup s.nodup)

theorem ofList_append (a b : TokenSet) : ofList (a.items ++ b.items) = a.union b := by
  have hfirst : insertAll empty a.items = a := ofList_items a
  rw [ofList, insertAll, List.foldl_append]
  show insertAll (insertAll empty a.items) b.items = _
  rw [hfirst, union]

theorem ofList_filter (s : TokenSet) (keep : Text → Bool) :
    ofList (s.items.filter keep) = s.filter keep :=
  ofList_items (s.filter keep)

/-- An operator goes through the items of both sets and keeps what it meets first. -/
theorem Operator.returned_eq_collected (op : Operator) (a b : TokenSet) :
    op.returned a b = op.collected a b := by
  cases op with
  | union => exact (ofList_append a b).symm
  | inter => exact (ofList_filter b _).symm
  | diff => exact (ofList_filter a _).symm
  | symmDiff =>
    rw [collected, ofList_filter, ofList_filter, ofList_append]
    rfl

/-- A set is changed by one token after the other, whether the other operand is the set itself or
not. -/
theorem Operator.inPlace_eq_singly (op : Operator) (a b : TokenSet) :
    op.inPlace a b = (a.performSingly (op.step (.list b.items))).2 ∧
      op.inPlace a a = (a.performSingly (op.step .itself)).2 := by
  have hperform (o : Operand) : op.inPlace a (o.set a) = (a.perform (op.step o)).2 := by
    cases op <;> rfl
  rw [← perform_eq_performSingly, ← perform_eq_performSingly, ← hperform, ← hperform]
  exact ⟨congrArg (op.inPlace a ·) (ofList_items b).symm, rfl⟩

/-! ### Members -/

theorem mem_union {t : Text} : t ∈ a.union b ↔ t ∈ a ∨ t ∈ b :=
  mem_insertAll

theorem mem_inter {t : Text} : t ∈ a.inter b ↔ t ∈ b ∧ t ∈ a := by
  rw [inter, mem_filter, decide_eq_true_eq]

theorem mem_retain {t : Text} : t ∈ a.retain b ↔ t ∈ a ∧ t ∈ b := by
  rw [retain, mem_filter, decide_eq_true_eq]

theorem mem_diff {t : Text} : t ∈ a.diff b ↔ t ∈ a ∧ t ∉ b := by
  rw [diff, mem_filter, decide_eq_true_eq]

theorem mem_symmDiff {t : Text} : t ∈ a.symmDiff b ↔ (t ∈ a ∧ t ∉ b) ∨ (t ∈ b ∧ t ∉ a) := by
  rw [symmDiff, mem_union, mem_diff, mem_diff]

/-! ### Both forms of an operator -/

/-- Flipping the members of a set leaves what the symmetric difference returns. -/
theorem toggle_eq_symmDiff (a b : TokenSet) : a.toggle b = a.symmDiff b := by
  refine ext_items ?_
  -- the second difference has nothing in common with the first
  have hnew : (b.diff a).items.filter (· ∉ a.diff b) = (b.diff a).items :=
    List.filter_eq_self.mpr fun t ht => decide_eq_true fun hmem =>
      (mem_diff.mp (mem_def.mpr ht)).2 (mem_diff.mp hmem).1
  rw [items_toggle, symmDiff, union, items_insertAll, hnew, eraseDups_of_nodup (b.diff a).nodup]
  rfl

/-- But for the common members, an operator leaves what it returns. -/
theorem Operator.inPlace_eq_returned {op : Operator} (h : op ≠ .inter) (a b : TokenSet) :
    op.inPlace a b = op.returned a b := by
  cases op with
  | union => rfl
  | inter => exact absurd rfl h
  | diff => rfl
  | symmDiff => exact toggle_eq_symmDiff a b

/-- Comparisons are told by the members alone.  An operator collects what it returns, and leaves
the same items in place, in the same order; only the common members are in the order of the second
set when they are returned and in that of the first when they are left.  The symmetric difference
is the union without the common members, and a set is put together from what it has alone and what
it has in common with another one. -/
theorem set_algebra :
    (∀ (c : Comparison) (a b : TokenSet), c.holds a b = true ↔ c.means a b) ∧
    (∀ a b : TokenSet, (a.subset b = true ∧ b.subset a = true) ↔ a.sameMembers b = true) ∧
    (∀ (op : Operator) (a b : TokenSet), op.returned a b = op.collected a b ∧
      op.inPlace a b = (a.performSingly (op.step (.list b.items))).2 ∧
      op.inPlace a a = (a.performSingly (op.step .itself)).2) ∧
    (∀ op : Operator, op ≠ .inter → ∀ a b : TokenSet,
      (op.inPlace a b).items = (op.returned a b).items ∧
      compile (op.inPlace a b).items = compile (op.returned a b).items) ∧
    (∀ a b : TokenSet, (a.retain b).sameMembers (a.inter b) = true ∧
      (a.inter b).items = b.items.filter (· ∈ a) ∧ (a.retain b).items = a.items.filter (· ∈ b)) ∧
    (∀ a b : TokenSet, (a.symmDiff b).sameMembers ((a.union b).diff (a.inter b)) = true ∧
      a.sameMembers ((a.diff b).union (a.inter b)) = true) := by
  refine ⟨Comparison.holds_iff, fun a b => subset_antisymm_iff,
    fun op a b => ⟨op.returned_eq_collected a b, op.inPlace_eq_singly a b⟩,
    fun op h a b => ?_, fun a b => ⟨sameMembers_iff.mpr fun t => ?_, rfl, rfl⟩,
    fun a b => ⟨sameMembers_iff.mpr fun t => ?_, sameMembers_iff.mpr fun t => ?_⟩⟩
  · rw [Operator.inPlace_eq_returned h]
    exact ⟨rfl, rfl⟩
  · rw [mem_retain, mem_inter, and_comm]
  · rw [mem_symmDiff, mem_diff, mem_union, mem_inter]
    tauto
  · rw [mem_union, mem_diff, mem_inter]
    tauto

/-- A symmetric difference in place, and common members in two orders. -/
theorem set_algebra_sheet :
    (Operator.inPlace (ofList ["p-4", "m-2"]) (ofList ["m-2", "flex"]) .symmDiff).items =
        ["p-4", "flex"] ∧
      compile (Operator.inPlace (ofList ["p-4", "m-2"]) (ofList ["m-2", "flex"]) .symmDiff).items =
        compile ["p-4", "flex"] ∧
      ((ofList ["p-4", "m-2"]).inter (ofList ["m-2", "p-4"])).items = ["m-2", "p-4"] ∧
      ((ofList ["p-4", "m-2"]).retain (ofList ["m-2", "p-4"])).items = ["p-4", "m-2"] := by
  obtain ⟨-, -, -, hforms, hcommon, -⟩ := set_algebra
  have hreturned : (Operator.returned (ofList ["p-4", "m-2"]) (ofList ["m-2", "flex"])
      .symmDiff).items = ["p-4", "flex"] := by decide +kernel
  obtain ⟨hitems, hsheet⟩ := hforms .symmDiff (by decide) (ofList ["p-4", "m-2"])
    (ofList ["m-2", "flex"])
  rw [hreturned] at hitems hsheet
  obtain ⟨-, hinter, hretain⟩ := hcommon (ofList ["p-4", "m-2"]) (ofList ["m-2", "p-4"])
  refine ⟨hitems, hsheet, hinter.trans ?_, hretain.trans ?_⟩
  · decide +kernel
  · decide +kernel

end TokenSet

end UtilityCss
