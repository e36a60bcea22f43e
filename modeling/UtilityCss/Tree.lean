/-
Page trees and the tokens they use.

A page tree is a JSON value. Its nodes are objects with a type, properties and
children; everything else is content without classes. The classes of a node are
the words of its property `className` or, failing that, `class`.

* `Tree.classText?`, `Tree.ownTokens` — the classes of one node;
* `Tree.children` — the values below a node;
* `Tree.extract` — the tokens of all nodes, in document order, and the number of
  nodes.

Design notes: the walk keeps the values still to be visited in a list, the next
one first, so the depth of a tree is not bounded.
-/
import UtilityCss.Json.Basic
import UtilityCss.Text.Blank
import UtilityCss.TokenSet

namespace UtilityCss

namespace Tree

/-! ### One node -/

/-- The properties that may hold classes, the first one first. -/
def classProperties : List Text :=
  ["className", "class"]

/-- The text of a property, if it is not empty. -/
def property? (properties : Json) (name : Text) : Option Text :=
  match properties.field? name with
  | some (.text (c :: s)) => some (c :: s)
  | _ => none

/-- The class text of a node: the first property that holds a text other than
the empty one. -/
def classText? (node : Json) : Option Text := do
  let properties ← node.field? "props"
  classProperties.findSome? (property? properties)

/-- The words of the class text of a node. -/
def ownTokens (node : Json) : List Text :=
  match classText? node with
  | some s => Text.words s
  | none => []

/-- The values below a node. -/
def children (node : Json) : List Json :=
  match node.field? "children" with
  | some (.array items) => items
  | _ => []

/-! ### The walk -/

/-- What a walk has found: the tokens, and how many nodes it has visited. -/
structure Extraction where
  tokens : TokenSet
  nodes : Nat

/-- The tokens and the count after one more value. -/
def Extraction.visit (found : Extraction) (node : Json) : Extraction where
  tokens := found.tokens.insertAll (ownTokens node)
  nodes := if node.kind = .object then found.nodes + 1 else found.nodes

theorem sizeOf_lt_of_lookup {key : Text} {fields : List (Text × Json)} {item : Json}
    (h : Json.lookup key fields = some item) : sizeOf item < sizeOf fields := by
  induction fields with
  | nil => simp [Json.lookup] at h
  | cons field fields ih =>
    obtain ⟨name, value⟩ := field
    simp only [Json.lookup, List.lookup_cons] at h
    simp only [List.cons.sizeOf_spec, Prod.mk.sizeOf_spec]
    split at h
    · simp only [Option.some.injEq] at h
      subst h
      omega
    · have := ih h
      omega

theorem sizeOf_children_le (node : Json) : sizeOf (children node) ≤ sizeOf node := by
  unfold children
  split
  · rename_i items h
    cases node with
    | object fields =>
      have hlt := sizeOf_lt_of_lookup h
      simp only [Json.array.sizeOf_spec] at hlt
      simp only [Json.object.sizeOf_spec]
      omega
    | _ => simp [Json.field?] at h
  · cases node <;> simp

theorem sizeOf_append (xs ys : List Json) : sizeOf (xs ++ ys) + 1 = sizeOf xs + sizeOf ys := by
  induction xs with
  | nil => simp; omega
  | cons x xs ih =>
    simp only [List.cons_append, List.cons.sizeOf_spec]
    omega

theorem sizeOf_children_append_lt (node : Json) (rest : List Json) :
    sizeOf (children node ++ rest) < sizeOf (node :: rest) := by
  have hc := sizeOf_children_le node
  have ha := sizeOf_append (children node) rest
  simp only [List.cons.sizeOf_spec]
  omega

/-- Visits the pending values in order, the children of each before the rest. -/
def walk (pending : List Json) (found : Extraction) : Extraction :=
  match pending with
  | [] => found
  | node :: rest => walk (children node ++ rest) (found.visit node)
termination_by sizeOf pending
decreasing_by exact sizeOf_children_append_lt node rest

/-- The tokens of a tree in document order, and the number of its nodes. -/
def extract (tree : Json) : Extraction :=
  walk [tree] ⟨.empty, 0⟩

end Tree

end UtilityCss
