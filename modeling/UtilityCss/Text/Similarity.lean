/-
Similarity of two texts.

Two texts are compared by their matching blocks: the longest common block is
taken first (the earliest in the first text, then the earliest in the second),
then the parts on its left and on its right are treated in the same way.

* `longestBlock a b` — the block that is taken first;
* `matched a b` — the length of all blocks together;
* `similarity a b` — twice that length over the sum of both lengths;
* `closest? names word` — the name most similar to `word`.
-/
import UtilityCss.Text.Basic

namespace UtilityCss.Text

/-- The length of the longest common beginning. -/
def commonHead : Text → Text → Nat
  | c :: a, d :: b => if c = d then commonHead a b + 1 else 0
  | _, _ => 0

/-- A common block: where it starts in both texts, and its length. -/
structure Block where
  left : Nat
  right : Nat
  size : Nat
  deriving DecidableEq

/-- The longest block that starts at each pair of places, the places of `a`
first. -/
def blocks (a b : Text) : List Block :=
  (List.range a.length).flatMap fun i =>
    (List.range b.length).map fun j => ⟨i, j, commonHead (a.drop i) (b.drop j)⟩

/-- The longest common block, the earliest of equally long ones. -/
def longestBlock (a b : Text) : Block :=
  (blocks a b).foldl (fun best block => if best.size < block.size then block else best) ⟨0, 0, 0⟩

/-- The length of all matching blocks together. -/
def matched (a b : Text) : Nat :=
  let block := longestBlock a b
  -- a block of positive length lies inside of `a`
  if h : 0 < block.size ∧ block.left + block.size ≤ a.length then
    have : 0 < (longestBlock a b).size := h.1
    have : (longestBlock a b).left + (longestBlock a b).size ≤ a.length := h.2
    matched (a.take block.left) (b.take block.right) + block.size +
      matched (a.drop (block.left + block.size)) (b.drop (block.right + block.size))
  else 0
termination_by a.length
decreasing_by
  · simp only [List.length_take]; omega
  · simp only [List.length_drop]; omega

/-- Twice the matched length over the sum of the lengths; one for two empty
texts. -/
def similarity (a b : Text) : Rat :=
  if a.length + b.length = 0 then mkRat 1 1
  else mkRat (2 * matched a b) (a.length + b.length)

/-- The name most similar to `word`, if one reaches three fifths; of equally
similar names the last one. -/
def closest? (names : List Text) (word : Text) : Option Text :=
  let scored := names.map fun name => (similarity name word, name)
  let close := scored.filter fun (score, _) => mkRat 3 5 ≤ score
  let best? := close.foldl
    (fun best? (candidate : Rat × Text) =>
      match best? with
      | none => some candidate
      | some best => if candidate.1 < best.1 then some best else some candidate)
    none
  best?.map Prod.snd

example : matched "hover" "hovr" = 4 := by decide +kernel
example : closest? ["focus", "hover", "md"] "hovr" = some ("hover" : Text) := by decide +kernel

end UtilityCss.Text
