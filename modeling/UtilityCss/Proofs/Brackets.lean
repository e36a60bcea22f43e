/-
Round brackets and comment signs in texts.

* `Text.roundDepth?` — how many round brackets are open after a text;
* `Text.IsBalanced` — every bracket is closed, and none that was not opened;
* `Text.roundDepth?_append`, `Text.roundDepth?_add` — texts side by side, and more brackets
  open around a text;
* `Text.pair_infix_append_cons` — two characters side by side in a text that is put together;
* `Text.pair_infix_map` — and in a text whose other characters are changed.
-/
import Mathlib.Data.List.Infix
import UtilityCss.Proofs.Text

namespace UtilityCss

namespace Text

/-! ### Round brackets -/

/-- How many round brackets are open after a character; none if it closes one that is not
open. -/
def roundStep? (depth : Nat) (c : CodePoint) : Option Nat :=
  if c = '(' then some (depth + 1)
  else if c = ')' then
    if depth = 0 then none else some (depth - 1)
  else some depth

/-- How many round brackets are open after a text with `depth` of them open before it; none if
one is closed that is not open. -/
def roundDepth? (depth : Nat) (s : Text) : Option Nat :=
  s.foldlM roundStep? depth

/-- All round brackets are closed, and none is closed that was not opened. -/
def IsBalanced (s : Text) : Prop :=
  roundDepth? 0 s = some 0

instance (s : Text) : Decidable s.IsBalanced :=
  inferInstanceAs (Decidable (_ = _))

theorem roundDepth?_cons (depth : Nat) (c : CodePoint) (s : Text) :
    roundDepth? depth (c :: s) = (roundStep? depth c).bind (roundDepth? · s) :=
  rfl

theorem roundDepth?_append (depth : Nat) (s t : Text) :
    roundDepth? depth (s ++ t) = (roundDepth? depth s).bind (roundDepth? · t) :=
  List.foldlM_append

theorem eq_sub_one_of_roundStep? {depth after : Nat} (h : roundStep? depth ')' = some after) :
    after = depth - 1 := by
  rw [roundStep?, if_neg (by decide), if_pos rfl, Option.ite_none_left_eq_some] at h
  exact (Option.some.inj h.2).symm

theorem roundStep?_of_ne {c : CodePoint} (h : c ≠ '(' ∧ c ≠ ')') (depth : Nat) :
    roundStep? depth c = some depth := by
  rw [roundStep?, if_neg h.1, if_neg h.2]

theorem roundDepth?_of_forall {s : Text} (h : ∀ c ∈ s, c ≠ '(' ∧ c ≠ ')') (depth : Nat) :
    roundDepth? depth s = some depth := by
  induction s with
  | nil => rfl
  | cons c s ih =>
    obtain ⟨hc, hs⟩ := List.forall_mem_cons.mp h
    rw [roundDepth?_cons, roundStep?_of_ne hc, Option.bind_some, ih hs]

theorem roundStep?_add {depth after : Nat} {c : CodePoint} (h : roundStep? depth c = some after)
    (more : Nat) : roundStep? (depth + more) c = some (after + more) := by
  rw [roundStep?] at h ⊢
  grind

/-- Brackets that are open around a text stay open. -/
theorem roundDepth?_add {depth after : Nat} {s : Text} (h : roundDepth? depth s = some after)
    (more : Nat) : roundDepth? (depth + more) s = some (after + more) := by
  induction s generalizing depth with
  | nil => rw [← Option.some.inj h]; rfl
  | cons c s ih =>
    rw [roundDepth?_cons, Option.bind_eq_some_iff] at h
    obtain ⟨between, hstep, hrest⟩ := h
    rw [roundDepth?_cons, roundStep?_add hstep, Option.bind_some, ih hrest]

theorem isBalanced_of_forall {s : Text} (h : ∀ c ∈ s, c ≠ '(' ∧ c ≠ ')') : s.IsBalanced :=
  roundDepth?_of_forall h 0

theorem IsBalanced.append {s t : Text} (hs : s.IsBalanced) (ht : t.IsBalanced) :
    (s ++ t).IsBalanced := by
  rw [IsBalanced, roundDepth?_append, hs]
  exact ht

/-! ### Pairs of characters -/

section Pairs

variable {a b : CodePoint}

theorem pair_prefix_append_cons {c : CodePoint} (hc : c ≠ a ∧ c ≠ b) (s t : Text) :
    [a, b] <+: s ++ c :: t ↔ [a, b] <+: s := by
  match s with
  | [] => simp [List.cons_prefix_cons, Ne.symm hc.1]
  | [d] => simp [List.cons_prefix_cons, Ne.symm hc.2]
  | d :: e :: s => simp [List.cons_prefix_cons]

/-- A pair stands on one side of a character that does not belong to it. -/
theorem pair_infix_append_cons {c : CodePoint} (hc : c ≠ a ∧ c ≠ b) (s t : Text) :
    [a, b] <:+: s ++ c :: t ↔ [a, b] <:+: s ∨ [a, b] <:+: t := by
  induction s with
  | nil =>
    have hfront := pair_prefix_append_cons hc [] t
    rw [List.nil_append] at hfront ⊢
    rw [List.infix_cons_iff, hfront]
    simp
  | cons d s ih =>
    rw [List.cons_append, List.infix_cons_iff, List.infix_cons_iff, ih, or_assoc,
      ← List.cons_append, pair_prefix_append_cons hc]

/-- A pair in a text does not touch the front of it, where its characters do not stand. -/
theorem pair_infix_append {s : Text} (h : ∀ c ∈ s, c ≠ a ∧ c ≠ b) (t : Text) :
    [a, b] <:+: s ++ t ↔ [a, b] <:+: t := by
  induction s with
  | nil => rfl
  | cons c s ih =>
    obtain ⟨hc, hs⟩ := List.forall_mem_cons.mp h
    have hcons := pair_infix_append_cons hc [] (s ++ t)
    rw [List.nil_append] at hcons
    rw [List.cons_append, hcons, ih hs]
    simp

/-- A pair stays where it was if only other characters are changed. -/
theorem pair_infix_map {f : CodePoint → CodePoint} (ha : ∀ c, a = f c ↔ a = c)
    (hb : ∀ c, b = f c ↔ b = c) (s : Text) : [a, b] <:+: s.map f ↔ [a, b] <:+: s := by
  induction s with
  | nil => rfl
  | cons c s ih =>
    rw [List.map_cons, List.infix_cons_iff, List.infix_cons_iff, ih]
    refine or_congr_left ?_
    cases s with
    | nil => simp [List.cons_prefix_cons]
    | cons d s => simp [List.cons_prefix_cons, ha, hb]

end Pairs

end Text

end UtilityCss
