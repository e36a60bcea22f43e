/-
How the tokens of the families begin.

Every family but that of the literals has its own beginnings.  Two beginnings of which neither
begins with the other are apart: no token has both.

* `Begins`, `apart` — a token that begins with some characters, and beginnings that are apart;
* `sideLetters`, `Side.letter`, `Side.letter?` — the letters that name a side;
* `Radius.parts?_eq_some_iff` — a radius is a keyword, with parts after hyphens or alone;
* `Family.heads` — the beginnings of a family;
* `Family.exists_head_of_read?` — a token that a family reads has one of its beginnings;
* `Family.heads_apart` — the families whose beginnings are not apart are those of colours and
  type sizes, and those of colours and border widths.
-/
import UtilityCss.Proofs.Text
import UtilityCss.Utility.Basic

namespace UtilityCss

/-! ### Beginnings -/

/-- The text begins with these characters. -/
def Begins (head : List Char) (s : Text) : Prop :=
  head.map .char <+: s

/-- Whether neither of two beginnings begins with the other. -/
def apart : List Char → List Char → Bool
  | c :: s, d :: t => c != d || apart s t
  | _, _ => false

theorem begins_of_consume? {head : List Char} {s rest : Text}
    (h : Text.consume? (Text.ofString (String.ofList head)) s = some rest) : Begins head s := by
  rw [Text.ofString_ofList] at h
  exact ⟨rest, (Text.consume?_eq_some_iff.mp h).symm⟩

/-- A text does not begin with what is apart from its beginning. -/
theorem not_begins_of_apart {head cs : List Char} (h : apart head cs = true) (rest : Text) :
    ¬ Begins head (cs.map .char ++ rest) := by
  fun_induction apart head cs with
  | case1 c s d t ih =>
    intro hbegins
    obtain ⟨heq, hbegins⟩ := List.cons_prefix_cons.mp hbegins
    rw [Bool.or_eq_true, bne_iff_ne] at h
    exact h.elim (fun hne => hne (CodePoint.char.inj heq)) fun h => ih h hbegins
  | case2 => exact absurd h Bool.false_ne_true

theorem not_begins_both {head head' : List Char} (h : apart head head' = true) {s : Text}
    (hbegins : Begins head s) (hbegins' : Begins head' s) : False := by
  obtain ⟨rest, rfl⟩ := hbegins'
  exact not_begins_of_apart h rest hbegins

/-! ### Letters of sides -/

/-- The letters that name a side. -/
def sideLetters : List Char :=
  ['x', 'y', 't', 'r', 'b', 'l']

/-- The letter of a side; the whole box has none. -/
def Side.letter : Side → Text
  | all => ""
  | axis .x => "x"
  | axis .y => "y"
  | edge .top => "t"
  | edge .right => "r"
  | edge .bottom => "b"
  | edge .left => "l"

theorem Edge.mem_sideLetters {c : CodePoint} {e : Edge} (h : Edge.ofLetter? c = some e) :
    c ∈ sideLetters.map .char := by
  rw [Edge.ofLetter?.eq_def] at h
  split at h
  case h_5 => exact absurd h (by simp)
  all_goals decide

theorem Axis.mem_sideLetters {c : CodePoint} {a : Axis} (h : Axis.ofLetter? c = some a) :
    c ∈ sideLetters.map .char := by
  rw [Axis.ofLetter?.eq_def] at h
  split at h
  case h_3 => exact absurd h (by simp)
  all_goals decide

theorem Side.mem_sideLetters {c : CodePoint} {side : Side} (h : Side.ofLetter? c = some side) :
    c ∈ sideLetters.map .char := by
  rw [Side.ofLetter?, Option.orElse_eq_orElse, Option.orElse_eq_or, Option.or_eq_some_iff] at h
  rcases h with h | ⟨-, h⟩
  · obtain ⟨a, ha, -⟩ := Option.map_eq_some_iff.mp h
    exact Axis.mem_sideLetters ha
  · obtain ⟨e, he, -⟩ := Option.map_eq_some_iff.mp h
    exact Edge.mem_sideLetters he

theorem Side.letter_of_ofLetter? {c : CodePoint} {side : Side} (h : Side.ofLetter? c = some side) :
    side.letter = [c] := by
  have hletters : ∀ c ∈ sideLetters.map CodePoint.char,
      (Side.ofLetter? c).map Side.letter = some [c] := by decide
  have htext := hletters c (Side.mem_sideLetters h)
  rw [h] at htext
  exact Option.some.inj htext

/-- The letter of a side, if it is not the whole box. -/
def Side.letter? : Side → Option Text
  | all => none
  | side => some side.letter

theorem Side.letter?_of_ofLetter? {c : CodePoint} {side : Side} (h : ofLetter? c = some side) :
    side.letter? = some [c] := by
  have hletter := letter_of_ofLetter? h
  cases side with
  | all => exact absurd hletter (by simp [letter, Text.ofString])
  | axis a => exact congrArg some hletter
  | edge e => exact congrArg some hletter

/-! ### Parts of a radius -/

theorem Radius.parts?_eq_some_iff {token : Text} {parts : List Text} :
    Radius.parts? token = some parts ↔ (token = "rounded" ∧ parts = []) ∨
      ∃ rest : Text, token = "rounded" ++ .char '-' :: rest ∧ parts = Text.segments '-' rest := by
  constructor
  · intro h
    rw [Radius.parts?] at h
    split at h
    · rename_i hrest
      exact .inl ⟨Text.consume?_eq_some_iff.mp hrest, (Option.some.inj h).symm⟩
    · rename_i rest hrest
      exact .inr ⟨rest, Text.consume?_eq_some_iff.mp hrest, (Option.some.inj h).symm⟩
    · exact absurd h (by simp)
  · rintro (⟨rfl, rfl⟩ | ⟨rest, rfl, rfl⟩)
    · rfl
    · rw [Radius.parts?, Text.consume?_eq_some_iff.mpr rfl]
      rfl

/-- A token begins with the keyword, and the parts follow with a hyphen before each. -/
theorem Radius.eq_of_parts? {token : Text} {parts : List Text} (h : Radius.parts? token = some parts) :
    token = "rounded" ++ parts.flatMap (.char '-' :: ·) := by
  rcases Radius.parts?_eq_some_iff.mp h with ⟨rfl, rfl⟩ | ⟨rest, rfl, rfl⟩
  · rfl
  · rw [Text.flatMap_segments]

/-! ### The beginnings of the families -/

namespace Family

/-- The beginnings of the tokens of a family; literals are looked up as they are. -/
def heads : Family → List (List Char)
  | color => [['b', 'g', '-'], ['t', 'e', 'x', 't', '-'], ['b', 'o', 'r', 'd', 'e', 'r', '-']]
  | fontSize => [['t', 'e', 'x', 't', '-']]
  | spacing => ['-'] :: ['p', 'm'].flatMap fun kind =>
      [kind, '-'] :: sideLetters.map fun side => [kind, side, '-']
  | extent => [['w', '-'], ['h', '-']]
  | maxWidth => [['m', 'a', 'x', '-', 'w', '-']]
  | radius => [['r', 'o', 'u', 'n', 'd', 'e', 'd']]
  | borderWidth => [['b', 'o', 'r', 'd', 'e', 'r']]
  | gap => [['g', 'a', 'p', '-']]
  | spaceBetween => [['s', 'p', 'a', 'c', 'e', '-']]
  | literal => []

end Family

theorem Spacing.begins_of_readSide? {kind : Char} {s raw : Text} {side : Side}
    (hkind : kind ∈ ['p', 'm']) (h : Spacing.readSide? s = some (side, raw)) :
    ∃ head ∈ Family.heads .spacing, Begins head (.char kind :: s) := by
  rw [Spacing.readSide?.eq_def] at h
  split at h
  · refine ⟨[kind, '-'], List.mem_cons_of_mem _ (List.mem_flatMap.mpr ⟨kind, hkind, ?_⟩), _, rfl⟩
    exact List.mem_cons_self
  · obtain ⟨side, hside, -⟩ := Option.map_eq_some_iff.mp h
    obtain ⟨letter, hletter, rfl⟩ := List.mem_map.mp (Side.mem_sideLetters hside)
    refine ⟨[kind, letter, '-'],
      List.mem_cons_of_mem _ (List.mem_flatMap.mpr ⟨kind, hkind, ?_⟩), _, rfl⟩
    exact List.mem_cons_of_mem _ (List.mem_map.mpr ⟨letter, hletter, rfl⟩)
  · exact absurd h (by simp)

theorem Spacing.exists_head {token : Text} {u : Spacing} (h : Spacing.ofToken? token = some u) :
    ∃ head ∈ Family.heads .spacing, Begins head token := by
  rw [Spacing.ofToken?.eq_def] at h
  split at h
  · exact ⟨['-'], List.mem_cons_self, _, rfl⟩
  · rw [Spacing.read?.eq_def] at h
    split at h
    · exact absurd h (by simp)
    · simp only [Option.bind_eq_bind, Option.bind_eq_some_iff] at h
      obtain ⟨kind, hkind, h⟩ := h
      obtain ⟨-, h⟩ := Option.ite_none_left_eq_some.mp h
      obtain ⟨⟨side, raw⟩, hside, -⟩ := Option.bind_eq_some_iff.mp h
      rw [SpacingKind.ofLetter?.eq_def] at hkind
      split at hkind
      · exact Spacing.begins_of_readSide? (by simp) hside
      · exact Spacing.begins_of_readSide? (by simp) hside
      · exact absurd hkind (by simp)

/-- A token that a family reads has one of the beginnings of the family. -/
theorem Family.exists_head_of_read? {token : Text} {f : Family} {u : Utility} (hf : f ≠ literal)
    (h : f.read? token = some u) : ∃ head ∈ f.heads, Begins head token := by
  cases f <;> obtain ⟨u, hu, rfl⟩ := Option.map_eq_some_iff.mp h
  case color =>
    obtain ⟨⟨target, rest⟩, htarget, -⟩ := Option.bind_eq_some_iff.mp hu
    obtain ⟨candidate, -, htarget⟩ := List.exists_of_findSome?_eq_some htarget
    obtain ⟨tail, htail, -⟩ := Option.map_eq_some_iff.mp htarget
    cases candidate
    · exact ⟨_, List.mem_cons_self, begins_of_consume? htail⟩
    · exact ⟨_, by simp [heads], begins_of_consume? htail⟩
    · exact ⟨_, by simp [heads], begins_of_consume? htail⟩
  case spacing => exact Spacing.exists_head hu
  case extent =>
    rw [Extent.ofToken?.eq_def] at hu
    split at hu
    · obtain ⟨d, hd, -⟩ := Option.bind_eq_some_iff.mp hu
      rw [Dimension.ofLetter?.eq_def] at hd
      split at hd
      · exact ⟨['w', '-'], by simp [heads], _, rfl⟩
      · exact ⟨['h', '-'], by simp [heads], _, rfl⟩
      · exact absurd hd (by simp)
    · exact absurd hu (by simp)
  case radius =>
    obtain ⟨parts, hparts, -⟩ := Option.bind_eq_some_iff.mp hu
    have htoken := Text.consume?_eq_some_iff.mpr (Radius.eq_of_parts? hparts)
    exact ⟨_, List.mem_singleton_self _, begins_of_consume? htoken⟩
  case literal => exact absurd rfl hf
  -- the other families begin with a keyword
  all_goals
    obtain ⟨tail, htail, -⟩ := Option.bind_eq_some_iff.mp hu
    exact ⟨_, List.mem_singleton_self _, begins_of_consume? htail⟩

theorem Family.mem_all (f : Family) : f ∈ all := by
  cases f <;> decide

/-- The families whose beginnings are not apart. -/
def Family.overlaps : List (Family × Family) :=
  [(color, fontSize), (color, borderWidth)]

/-- All other families have beginnings that are apart. -/
theorem Family.heads_apart {f g : Family} (hne : f ≠ g) (hfg : (f, g) ∉ overlaps)
    (hgf : (g, f) ∉ overlaps) : ∀ head ∈ f.heads, ∀ head' ∈ g.heads, apart head head' = true := by
  have hall : ∀ f ∈ all, ∀ g ∈ all, f ≠ g → (f, g) ∉ overlaps → (g, f) ∉ overlaps →
      ∀ head ∈ f.heads, ∀ head' ∈ g.heads, apart head head' = true := by decide +kernel
  exact hall f f.mem_all g g.mem_all hne hfg hgf

end UtilityCss
