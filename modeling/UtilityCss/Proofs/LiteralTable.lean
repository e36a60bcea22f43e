/-
The rows of the literal table.

A row is in order if its key is in order and if it has declarations, all of them
well formed.  A key is in order if it begins like a name, and like no token of another
family; the keys for the alignment of texts alone begin like a colour or a type size.

* `Literal.KeyWellFormed`, `Literal.RowsWellFormed` — keys and rows in order;
* `Literal.literalTable_wellFormed` — the rows of the literal table are.

Design notes: rows and declarations are added one by one, so that each literal
is checked as a list of characters and the proof grows with the table.
-/
import UtilityCss.Proofs.Alphabet
import UtilityCss.Proofs.FamilyHeads

namespace UtilityCss

namespace Literal

/-! ### Rows -/

/-- A property and its value, as they stand in the table. -/
abbrev Pair := String × String

/-- Declarations that are well formed, at least one of them. -/
def PairsWellFormed (pairs : List Pair) : Prop :=
  pairs ≠ [] ∧ ∀ d ∈ pairs, IsProperty d.1 ∧ IsTame d.2

/-- The keys for the alignment of texts. -/
def alignmentKeys : List (List Char) :=
  [['l', 'e', 'f', 't'], ['c', 'e', 'n', 't', 'e', 'r'], ['r', 'i', 'g', 'h', 't'],
   ['j', 'u', 's', 't', 'i', 'f', 'y'], ['s', 't', 'a', 'r', 't'], ['e', 'n', 'd']].map
    (['t', 'e', 'x', 't', '-'] ++ ·)

/-- A key that begins like a name, and not like a token of another family. -/
structure KeyWellFormed (key : Text) : Prop where
  beginsName : beginsName key = true
  isKey : IsKey key
  free : (∃ cs ∈ alignmentKeys, key = cs.map .char) ∨
    ∀ f : Family, ∀ head ∈ f.heads, ¬ Begins head key

/-- Whether the characters of a key are apart from all beginnings. -/
def isFreeKey (key : List Char) : Bool :=
  Family.all.all fun f => f.heads.all fun head => apart head key

/-- What is checked of the characters of a key. -/
def isRowKey (key : List Char) : Bool :=
  isKeywordLiteral key && (alignmentKeys.contains key || isFreeKey key)

/-- Rows whose keys and declarations are well formed. -/
def RowsWellFormed (rows : List (String × List Pair)) : Prop :=
  ∀ row ∈ rows, KeyWellFormed row.1 ∧ PairsWellFormed row.2

theorem not_begins_of_isFreeKey {key : List Char} (h : isFreeKey key = true) (rest : Text) :
    ∀ f : Family, ∀ head ∈ f.heads, ¬ Begins head (key.map .char ++ rest) := fun f head hhead =>
  not_begins_of_apart
    (List.all_eq_true.mp (List.all_eq_true.mp h f f.mem_all) head hhead) rest

theorem KeyWellFormed.literal {key : List Char} (h : isRowKey key = true) :
    KeyWellFormed (String.ofList key) := by
  rw [isRowKey, Bool.and_eq_true, Bool.or_eq_true, List.contains_iff_mem] at h
  obtain ⟨hkeyword, hfree⟩ := h
  refine ⟨(keyword_ofString hkeyword).1, (keyword_ofString hkeyword).2, ?_⟩
  rw [Text.ofString_ofList]
  rcases hfree with halignment | hfree
  · exact .inl ⟨key, halignment, rfl⟩
  · have hnot := not_begins_of_isFreeKey hfree []
    rw [List.append_nil] at hnot
    exact .inr hnot

/-- A key that goes on after a keyword. -/
theorem KeyWellFormed.append {keyword : List Char} {rest : Text}
    (hkeyword : isKeywordLiteral keyword = true) (hfree : isFreeKey keyword = true)
    (hrest : IsKey rest) : KeyWellFormed (Text.ofString (String.ofList keyword) ++ rest) where
  beginsName := beginsName_append rest (keyword_ofString hkeyword).1
  isKey := (keyword_ofString hkeyword).2.append hrest
  free := by
    rw [Text.ofString_ofList]
    exact .inr (not_begins_of_isFreeKey hfree rest)

theorem PairsWellFormed.one {property value : String} (hp : IsProperty property)
    (hv : IsTame value) : PairsWellFormed [(property, value)] := by
  refine ⟨by simp, fun d hd => ?_⟩
  rw [List.mem_singleton] at hd
  subst hd
  exact ⟨hp, hv⟩

theorem PairsWellFormed.cons {property value : String} {pairs : List Pair}
    (hp : IsProperty property) (hv : IsTame value) (h : PairsWellFormed pairs) :
    PairsWellFormed ((property, value) :: pairs) := by
  refine ⟨by simp, fun d hd => ?_⟩
  rcases List.mem_cons.mp hd with rfl | hd
  · exact ⟨hp, hv⟩
  · exact h.2 d hd

/-- A single declaration that is written out. -/
theorem PairsWellFormed.literal {property value : List Char}
    (hp : isPropertyLiteral property = true) (hv : isTameLiteral value = true) :
    PairsWellFormed [(String.ofList property, String.ofList value)] :=
  .one (isProperty_ofString hp) (isTame_ofString hv)

/-- One more declaration that is written out. -/
theorem PairsWellFormed.cons_literal {property value : List Char} {pairs : List Pair}
    (hp : isPropertyLiteral property = true) (hv : isTameLiteral value = true)
    (h : PairsWellFormed pairs) :
    PairsWellFormed ((String.ofList property, String.ofList value) :: pairs) :=
  .cons (isProperty_ofString hp) (isTame_ofString hv) h

/-- Rows whose keys have these characters, and whose declarations are well formed. -/
def RowsSpell (keys : List (List Char)) (rows : List (String × List Pair)) : Prop :=
  rows.map Prod.fst = keys.map String.ofList ∧ ∀ row ∈ rows, PairsWellFormed row.2

theorem RowsSpell.nil : RowsSpell [] [] :=
  ⟨rfl, List.forall_mem_nil _⟩

theorem RowsSpell.cons {key : List Char} {keys : List (List Char)} {pairs : List Pair}
    {rows : List (String × List Pair)} (hpairs : PairsWellFormed pairs)
    (h : RowsSpell keys rows) : RowsSpell (key :: keys) ((String.ofList key, pairs) :: rows) := by
  refine ⟨?_, List.forall_mem_cons.mpr ⟨hpairs, h.2⟩⟩
  rw [List.map_cons, List.map_cons, h.1]

/-- The keys of rows are checked together. -/
theorem RowsSpell.wellFormed {keys : List (List Char)} {rows : List (String × List Pair)}
    (h : RowsSpell keys rows) (hkeys : keys.all isRowKey = true) : RowsWellFormed rows := by
  intro row hrow
  refine ⟨?_, h.2 row hrow⟩
  have hmem : row.1 ∈ keys.map String.ofList := h.1 ▸ List.mem_map_of_mem hrow
  obtain ⟨key, hkey, heq⟩ := List.mem_map.mp hmem
  rw [← heq]
  exact .literal (List.all_eq_true.mp hkeys key hkey)

theorem RowsWellFormed.append {rows more : List (String × List Pair)} (h : RowsWellFormed rows)
    (hmore : RowsWellFormed more) : RowsWellFormed (rows ++ more) := by
  intro row hrow
  rcases List.mem_append.mp hrow with hrow | hrow
  · exact h row hrow
  · exact hmore row hrow

/-! ### Rows that are computed -/

theorem pairs_transition {properties : String} (h : IsTame properties) :
    PairsWellFormed (transition properties) := by
  refine .cons (isProperty_ofString rfl) h ?_
  refine .cons (isProperty_ofString rfl) (isTame_ofString rfl) ?_
  exact .one (isProperty_ofString rfl) (isTame_ofString rfl)

theorem pairs_ring (width : Nat) : PairsWellFormed (ring width) := by
  refine .cons (isProperty_ofString rfl) (isTame_ofString rfl) ?_
  refine .cons (isProperty_ofString rfl) ?_ ?_
  · exact isTame_ofString_repr (by decide) width
  · exact .one (isProperty_ofString rfl) (isTame_ofString rfl)

theorem rows_numbered {keyword : List Char} {property : String} {counts : Nat}
    {value : String → String} (hkeyword : isKeywordLiteral keyword = true)
    (hfree : isFreeKey keyword = true) (hproperty : IsProperty property)
    (hvalue : ∀ n, IsTame (value (Nat.repr n))) :
    RowsWellFormed (numbered (String.ofList keyword) counts property value) := by
  intro row hrow
  obtain ⟨n, -, rfl⟩ := List.mem_map.mp hrow
  refine ⟨?_, .one hproperty (hvalue n)⟩
  simp only [Text.ofString_append]
  refine KeyWellFormed.append hkeyword hfree fun c hc => ?_
  exact isStemChar_of_isAlphanum (isAlphanum_of_isDigit (isDigit_of_mem_repr hc))

theorem rows_gridUtilities : RowsWellFormed gridUtilities := by
  have htracks (n : Nat) : IsTame ↑("repeat(" ++ Nat.repr n ++ ", minmax(0, 1fr))") :=
    isTame_ofString_repr (by decide) n
  have hspan (n : Nat) : IsTame ↑("span " ++ Nat.repr n ++ " / span " ++ Nat.repr n) := by
    have hdigits : ∀ c ∈ Text.ofString (Nat.repr n), isFlatChar c = true := fun c hc =>
      isFlatChar_of_isDigit (isDigit_of_mem_repr hc)
    have hbefore : IsTame ↑("span " ++ Nat.repr n ++ " / span ") :=
      isTame_ofString_repr (by decide) n
    rw [Text.ofString_append, ← List.append_nil (_ ++ Text.ofString (Nat.repr n))]
    exact IsTame.insert (by rwa [List.append_nil]) hdigits
  refine RowsWellFormed.append (.append (.append ?_ ?_) ?_) ?_
  · exact rows_numbered rfl (by decide) (isProperty_ofString rfl) htracks
  · exact rows_numbered rfl (by decide) (isProperty_ofString rfl) htracks
  · exact rows_numbered rfl (by decide) (isProperty_ofString rfl) hspan
  · exact rows_numbered rfl (by decide) (isProperty_ofString rfl) hspan

/-! ### The table -/

theorem isTame_transitionColors : IsTame transitionColors :=
  isTame_ofString rfl

theorem rows_of_mem_tables {rows : List (String × List Pair)}
    (h : rows ∈ [displayUtilities, flexUtilities, alignmentUtilities, gridPlacementUtilities,
      positionUtilities, layerUtilities, overflowUtilities, minimumUtilities, typographyUtilities,
      interactionUtilities, visibilityUtilities, motionUtilities, mediaUtilities, shadowUtilities,
      listUtilities, accessibilityUtilities, columnUtilities, gridUtilities]) :
    RowsWellFormed rows := by
  simp only [List.mem_cons, List.not_mem_nil, or_false] at h
  rcases h with rfl | rfl | rfl | rfl | rfl | rfl | rfl | rfl | rfl | rfl | rfl | rfl | rfl | rfl |
    rfl | rfl | rfl | rfl
  -- the last table is computed, the others are written out
  rotate_right
  · exact rows_gridUtilities
  all_goals
    apply RowsSpell.wellFormed
    -- reducible transparency keeps the names of the computed values in the table
    repeat
      apply RowsSpell.cons
      · repeat with_reducible first
          | exact .literal (by decide) (by decide)
          | refine .cons_literal (by decide) (by decide) ?_
          | exact pairs_ring _
          | exact pairs_transition (isTame_ofString (by decide))
          | exact pairs_transition isTame_transitionColors
          | exact pairs_transition (isTame_transitionColors.append_ofString (by decide))
          | exact .one (isProperty_ofString (by decide)) (((isTame_ofString
              (by decide)).append_ofString (by decide)).append_ofString (by decide))
    exact .nil
    decide +kernel

/-- The literal table keeps to the alphabets, and its values are tame. -/
theorem literalTable_wellFormed :
    ∀ e ∈ literalTable, KeyWellFormed e.1 ∧ e.2 ≠ [] ∧
      ∀ d ∈ e.2, IsProperty d.property ∧ IsTame d.value := by
  intro e he
  obtain ⟨row, hrow, rfl⟩ := List.mem_map.mp he
  obtain ⟨rows, hrows, hmem⟩ := List.mem_flatten.mp hrow
  obtain ⟨hkey, hne, hpairs⟩ := rows_of_mem_tables hrows row hmem
  refine ⟨hkey, by simpa using hne, fun d hd => ?_⟩
  obtain ⟨pair, hpair, rfl⟩ := List.mem_map.mp hd
  exact hpairs pair hpair

end Literal

end UtilityCss
