/-
Page trees in document order.

The tokens of a tree are those of its root, then those of the trees below it, one after the
other.  The walk, which has no recursion but a stack of the values still to be visited, finds
them in this order.

* `Tree.tokens` — the tokens of a tree, by recursion;
* `Tree.tokens_walk` — a walk adds the tokens of all pending trees, in their order;
* `Tree.Loop` — the walk round by round, on a stack whose top is its last value;
* `Tree.Loop.exists_rounds?` — after some rounds the stack is empty, and what was found is what
  the walk finds;
* `Tree.extract_documentOrder` — so the tokens of a tree are found in document order, each where
  it first occurs, and the sheet of a page is that of the tokens of its tree.
-/
import UtilityCss.Proofs.CompiledTokens
import UtilityCss.Tree

namespace UtilityCss

/-- A word is not empty, and no blank is in it. -/
theorem Text.not_isBlank_of_mem_words {s word : Text} (h : word ∈ words s) :
    word ≠ [] ∧ ∀ c ∈ word, isBlank c = false :=
  ⟨ne_nil_of_mem_words h, not_sep_of_mem_segmentsBy (List.mem_filter.mp h).1⟩

theorem TokenSet.insertAll_append (s : TokenSet) (tokens tokens' : List Text) :
    s.insertAll (tokens ++ tokens') = (s.insertAll tokens).insertAll tokens' :=
  List.foldl_append

theorem compile_eraseDups (tokens : List Text) : compile tokens.eraseDups = compile tokens := by
  simp only [compile, resolveAll, TokenSet.items_ofList, eraseDups_eraseDups]

namespace Tree

/-! ### The tokens of a tree -/

/-- The text of a property; `other` if there is no such property, or no text in it but the
empty one. -/
def textOr (other : Text) : Option Json → Text
  | some (.text (c :: s)) => c :: s
  | _ => other

/-- The class string of a node. -/
def classString (fields : List (Text × Json)) : Text :=
  match Json.lookup "props" fields with
  | some (.object properties) =>
    textOr (textOr [] (Json.lookup "class" properties)) (Json.lookup "className" properties)
  | _ => []

/-- The values in the list of children of a node. -/
def childList (fields : List (Text × Json)) : List Json :=
  match Json.lookup "children" fields with
  | some (.array items) => items
  | _ => []

theorem children_object (fields : List (Text × Json)) :
    children (.object fields) = childList fields := by
  rw [children, childList]
  rfl

/-- The tokens of a tree in document order, repeats included: the words of the class string of
its root, then the tokens of the trees below it. -/
def tokens : Json → List Text
  | .object fields =>
    Text.words (classString fields) ++
      (childList fields).attach.flatMap fun ⟨child, _⟩ => tokens child
  | _ => []
termination_by node => sizeOf node
decreasing_by
  rename_i hchild
  have hlt := List.sizeOf_lt_of_mem hchild
  have hle := sizeOf_children_le (.object fields)
  rw [children_object] at hle
  omega

theorem tokens_object (fields : List (Text × Json)) :
    tokens (.object fields) = Text.words (classString fields) ++ (childList fields).flatMap tokens := by
  rw [tokens]
  simp

theorem getD_property? (properties : List (Text × Json)) (name other : Text) :
    (property? (.object properties) name).getD other =
      textOr other (Json.lookup name properties) := by
  rw [property?, Json.field?]
  split
  · rename_i hlookup
    rw [hlookup]
    rfl
  · rename_i hother
    rw [Option.getD_none, textOr]
    exact hother

theorem getD_classText? (fields : List (Text × Json)) :
    (classText? (.object fields)).getD [] = classString fields := by
  have hbind : classText? (.object fields) =
      (Json.lookup "props" fields).bind fun properties =>
        (property? properties "className").or (property? properties "class") := by
    rw [classText?]
    refine Option.bind_congr fun properties _ => ?_
    rw [classProperties, List.findSome?_cons, List.findSome?_cons, List.findSome?_nil]
    cases property? properties "className" <;> cases property? properties "class" <;> rfl
  rw [hbind, classString]
  rcases Json.lookup "props" fields with _ | (s | items | properties)
  case some.object =>
    rw [Option.bind_some, Option.getD_or, getD_property?, getD_property?]
  all_goals rfl

/-- The words of one node are those of its class string. -/
theorem ownTokens_object (fields : List (Text × Json)) :
    ownTokens (.object fields) = Text.words (classString fields) := by
  rw [ownTokens, ← getD_classText?]
  cases classText? (.object fields) <;> rfl

/-- The tokens of a tree as one visit sees them. -/
theorem tokens_eq (node : Json) : tokens node = ownTokens node ++ (children node).flatMap tokens := by
  cases node with
  | object fields => rw [tokens_object, ownTokens_object, children_object]
  | scalar s => simp [tokens, ownTokens, classText?, children, Json.field?]
  | array items => simp [tokens, ownTokens, classText?, children, Json.field?]

/-- The tokens of a tree are words. -/
theorem exists_mem_words {tree : Json} {token : Text} (h : token ∈ tokens tree) :
    ∃ s, token ∈ Text.words s := by
  induction tree using tokens.induct with
  | case1 fields ih =>
    rw [tokens_object, List.mem_append, List.mem_flatMap] at h
    rcases h with h | ⟨child, hchild, h⟩
    · exact ⟨_, h⟩
    · exact ih child hchild h
  | case2 node hnode =>
    rw [tokens] at h
    · exact absurd h (by simp)
    · exact hnode

/-! ### The walk -/

/-- A walk adds the tokens of all pending trees to what was found before it. -/
theorem tokens_walk (pending : List Json) (found : Extraction) :
    (walk pending found).tokens = found.tokens.insertAll (pending.flatMap tokens) := by
  fun_induction walk pending found with
  | case1 found => rfl
  | case2 found node rest ih =>
    rw [ih, Extraction.visit, List.flatMap_append, List.flatMap_cons, tokens_eq node,
      ← TokenSet.insertAll_append, List.append_assoc]

/-- The walk finds the tokens of a tree in document order, each where it first occurs. -/
theorem items_extract (tree : Json) : (extract tree).tokens.items = (tokens tree).eraseDups := by
  rw [extract, tokens_walk, List.flatMap_singleton, ← TokenSet.items_ofList, TokenSet.ofList]

/-! ### The walk round by round -/

/-- The state of a walk: the stack of the values still to be visited, the next one last, and what
was found so far. -/
structure Loop where
  stack : List Json
  found : Extraction

namespace Loop

/-- One round: the top of the stack is visited, and the values below it are put on the stack, the
last one first.  There is no round with an empty stack. -/
def round? (s : Loop) : Option Loop :=
  s.stack.getLast?.map fun node =>
    ⟨s.stack.dropLast ++ (children node).reverse, s.found.visit node⟩

/-- Some rounds, one after the other. -/
def rounds? : Nat → Loop → Option Loop
  | 0, s => some s
  | n + 1, s => s.round?.bind (rounds? n)

/-- The state of a walk whose pending values are on the stack, the next one last. -/
def ofPending (pending : List Json) (found : Extraction) : Loop :=
  ⟨pending.reverse, found⟩

theorem round?_ofPending (node : Json) (rest : List Json) (found : Extraction) :
    (ofPending (node :: rest) found).round? =
      some (ofPending (children node ++ rest) (found.visit node)) := by
  simp [round?, ofPending]

/-- After some rounds no value is left on the stack, and the walk has ended. -/
theorem exists_rounds? (pending : List Json) (found : Extraction) :
    ∃ n, rounds? n (ofPending pending found) = some ⟨[], walk pending found⟩ := by
  fun_induction walk pending found with
  | case1 found => exact ⟨0, rfl⟩
  | case2 found node rest ih =>
    obtain ⟨n, hn⟩ := ih
    refine ⟨n + 1, ?_⟩
    rw [rounds?, round?_ofPending, Option.bind_some, hn]

end Loop

/-! ### Document order -/

/-- The walk of a tree comes to an end, and finds the tokens of the tree in document order, each
where it first occurs.  They are words without blanks, and the sheet of a page is that of the
tokens of its tree, after the baseline if it is wanted. -/
theorem extract_documentOrder (tree : Json) :
    (∃ n, Loop.rounds? n ⟨[tree], ⟨.empty, 0⟩⟩ = some ⟨[], extract tree⟩) ∧
    (extract tree).tokens.items = (tokens tree).eraseDups ∧
    (∀ token ∈ (extract tree).tokens.items,
      token ≠ [] ∧ ∀ c ∈ token, Text.isBlank c = false) ∧
    ∀ withBaseline, pageSheet tree withBaseline =
      (if withBaseline then baseline else []) ++ compile (tokens tree) := by
  refine ⟨Loop.exists_rounds? [tree] _, items_extract tree, fun token htoken => ?_, fun _ => ?_⟩
  · rw [items_extract, List.mem_eraseDups] at htoken
    obtain ⟨s, hword⟩ := exists_mem_words htoken
    exact Text.not_isBlank_of_mem_words hword
  · rw [pageSheet, items_extract, compile_eraseDups]

/-- A node whose property `className` is empty, so that its classes are those of `class`. -/
def element (classes : Text) (below : List Json) : Json :=
  .object [("props", .object [("className", .text ""), ("class", .text classes)]),
    ("children", .array below)]

theorem tokens_element (classes : Text) (below : List Json) :
    tokens (element classes below) = Text.words classes ++ below.flatMap tokens := by
  rw [element, tokens_object]
  cases classes <;> rfl

/-- Content of all kinds between the nodes: a list among the children is not entered. -/
theorem extract_documentOrder_mixed :
    let page := element " b\t a" [.text "b", element "a c" [],
      .array [element "d" []], .null, element "b" [element "e" []]]
    ↑"c" ∈ (extract page).tokens.items ∧ (∀ c ∈ Text.ofString "c", Text.isBlank c = false) ∧
      (extract page).tokens.items = [↑"b", ↑"a", ↑"c", ↑"e"] := by
  intro page
  obtain ⟨-, hitems, hwords, -⟩ := extract_documentOrder page
  have htokens : tokens page = [↑"b", ↑"a", ↑"a", ↑"c", ↑"b", ↑"e"] := by
    simp only [page, tokens_element]
    simp only [tokens, tokens_element, List.flatMap_cons, List.flatMap_nil, List.nil_append,
      List.append_nil]
    decide +kernel
  have hmem : ↑"c" ∈ (extract page).tokens.items := by
    rw [hitems, htokens]
    decide
  refine ⟨hmem, (hwords _ hmem).2, ?_⟩
  rw [hitems, htokens]
  decide +kernel

end Tree

end UtilityCss
