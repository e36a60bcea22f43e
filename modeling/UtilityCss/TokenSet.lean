/-
Sets of tokens in the order of their insertion.

A sheet follows the order of its tokens, so a set of tokens is the list of its
members without repeats.

* `TokenSet` — the members and the proof that none comes twice;
* `insert`, `erase`, `pop?` — one member;
* `union`, `inter`, `retain`, `diff`, `symmDiff`, `toggle` — two sets;
* `subset`, `properSubset`, `sameMembers`, `disjoint` — comparisons, which do
  not look at the order.
-/
import UtilityCss.Text.Quoted

namespace UtilityCss

/-- A set of tokens; the order of `items` is that of insertion. -/
structure TokenSet where
  items : List Text
  nodup : items.Nodup

namespace TokenSet

theorem ext_items {a b : TokenSet} (h : a.items = b.items) : a = b := by
  cases a; cases b; cases h; rfl

instance : Membership Text TokenSet := ⟨fun s t => t ∈ s.items⟩

instance (t : Text) (s : TokenSet) : Decidable (t ∈ s) :=
  inferInstanceAs (Decidable (t ∈ s.items))

theorem mem_def {t : Text} {s : TokenSet} : t ∈ s ↔ t ∈ s.items := Iff.rfl

/-! ### One member -/

/-- The set without members. -/
def empty : TokenSet := ⟨[], List.nodup_nil⟩

/-- The number of members. -/
def size (s : TokenSet) : Nat := s.items.length

/-- Adds a token at the end, unless it is a member. -/
def insert (s : TokenSet) (t : Text) : TokenSet :=
  if h : t ∈ s.items then s
  else ⟨s.items ++ [t], by
    rw [List.nodup_append]
    refine ⟨s.nodup, by simp, ?_⟩
    intro a ha b hb
    simp only [List.mem_singleton] at hb
    exact fun hab => h (by rwa [← hb, ← hab])⟩

/-- The members that `keep` picks, in their order. -/
def filter (keep : Text → Bool) (s : TokenSet) : TokenSet :=
  ⟨s.items.filter keep, s.nodup.sublist List.filter_sublist⟩

/-- Takes a token out, if it is a member. -/
def erase (s : TokenSet) (t : Text) : TokenSet :=
  s.filter (· ≠ t)

/-- The first member and the set of the others. -/
def pop? (s : TokenSet) : Option (Text × TokenSet) :=
  s.items.head?.map fun t => (t, ⟨s.items.tail, s.nodup.sublist (List.tail_sublist _)⟩)

/-- Adds all tokens of a list, in its order. -/
def insertAll (s : TokenSet) (tokens : List Text) : TokenSet :=
  tokens.foldl insert s

/-- The tokens of a list, each where it first occurs. -/
def ofList (tokens : List Text) : TokenSet :=
  insertAll empty tokens

/-! ### Two sets -/

/-- The members of `a`, then the other members of `b`. -/
def union (a b : TokenSet) : TokenSet :=
  a.insertAll b.items

/-- The common members, in the order of `b`. -/
def inter (a b : TokenSet) : TokenSet :=
  b.filter (· ∈ a)

/-- The common members, in the order of `a`. -/
def retain (a b : TokenSet) : TokenSet :=
  a.filter (· ∈ b)

/-- The members of `a` that are not in `b`. -/
def diff (a b : TokenSet) : TokenSet :=
  a.filter (· ∉ b)

/-- The members of `a` alone, then those of `b` alone. -/
def symmDiff (a b : TokenSet) : TokenSet :=
  (a.diff b).union (b.diff a)

/-- Takes a member out, and adds a token that is no member. -/
def flip (s : TokenSet) (t : Text) : TokenSet :=
  if t ∈ s then s.erase t else s.insert t

/-- Flips the members of `b` in `a`, one after the other. -/
def toggle (a b : TokenSet) : TokenSet :=
  b.items.foldl flip a

/-! ### Comparisons -/

/-- Whether every member of `a` is in `b`. -/
def subset (a b : TokenSet) : Bool :=
  a.size ≤ b.size && a.items.all (· ∈ b)

/-- Whether every member of `a` is in `b`, and `b` has more members. -/
def properSubset (a b : TokenSet) : Bool :=
  a.size < b.size && a.subset b

/-- Whether both sets have the same members. -/
def sameMembers (a b : TokenSet) : Bool :=
  a.size = b.size && a.subset b

/-- Whether there is no common member. -/
def disjoint (a b : TokenSet) : Bool :=
  b.items.all (· ∉ a)

/-! ### Text -/

/-- The set as a text, its members quoted. -/
def display (s : TokenSet) : Text :=
  "TokenSet([" ++ Text.join ", " (s.items.map Text.quote) ++ "])"

/-! ### Members after an operation -/

theorem mem_insert {s : TokenSet} {t u : Text} : u ∈ s.insert t ↔ u ∈ s ∨ u = t := by
  unfold insert
  split
  · rename_i h
    constructor
    · exact Or.inl
    · rintro (hu | rfl)
      · exact hu
      · exact h
  · simp [mem_def]

theorem mem_filter {s : TokenSet} {keep : Text → Bool} {u : Text} :
    u ∈ s.filter keep ↔ u ∈ s ∧ keep u = true := by
  simp [filter, mem_def]

theorem mem_insertAll {s : TokenSet} {tokens : List Text} {u : Text} :
    u ∈ s.insertAll tokens ↔ u ∈ s ∨ u ∈ tokens := by
  induction tokens generalizing s with
  | nil => simp [insertAll]
  | cons t tokens ih =>
    show u ∈ (s.insert t).insertAll tokens ↔ _
    rw [ih, mem_insert, List.mem_cons, or_assoc]

theorem mem_ofList {tokens : List Text} {u : Text} : u ∈ ofList tokens ↔ u ∈ tokens := by
  rw [ofList, mem_insertAll]
  simp [empty, mem_def]

end TokenSet

end UtilityCss
