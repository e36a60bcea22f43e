/-
Texts as lists of code points.

Every length, index and position of this library counts code points, so a
text is the list of them; `String` appears only where a text is written down as
a literal or leaves the program.

* `Text.ofString`, `Text.string` — from a string and back to one;
* `Text.cut?` — the parts before and after the first separator;
* `Text.segments`, `Text.segmentsBy` — all parts between separators, never an
  empty list;
* `Text.consume?` — what follows a fixed beginning;
* `Text.decimal`, `Text.digitsValue` — numerals, written and read;
* `Text.unifyNewlines` — every line end becomes a line feed.
-/
import UtilityCss.Text.CodePoint

namespace UtilityCss

/-- A text is the list of its code points. -/
abbrev Text := List CodePoint

namespace Text

/-- The characters of a string. -/
def ofString (s : String) : Text :=
  s.toList.map .char

/-- A literal stands for the list of its characters. -/
instance : Coe String Text := ⟨ofString⟩

/-- The characters of a text as a string. Surrogates, which no string can hold,
are left out. -/
def string (s : Text) : String :=
  String.ofList (s.filterMap CodePoint.char?)

theorem ofString_append (s t : String) : ofString (s ++ t) = ofString s ++ ofString t := by
  rw [ofString, String.toList_append, List.map_append, ofString, ofString]

/-! ### Cutting -/

/-- The parts before and after the first `sep`; `none` if there is no `sep`. -/
def cut? (sep : CodePoint) : Text → Option (Text × Text)
  | [] => none
  | c :: rest =>
    if c = sep then some ([], rest)
    else (cut? sep rest).map fun (before, after) => (c :: before, after)

/-- The parts between the code points that `isSep` picks, in order: one more
than there are such code points. -/
def segmentsBy (isSep : CodePoint → Bool) : Text → List Text
  | [] => [[]]
  | c :: rest =>
    if isSep c then [] :: segmentsBy isSep rest
    else
      match segmentsBy isSep rest with
      | [] => [[c]]
      | part :: parts => (c :: part) :: parts

/-- The parts between the separators, in order. -/
def segments (sep : CodePoint) : Text → List Text :=
  segmentsBy (· = sep)

/-- What follows `head`, if the text begins with it. -/
def consume? : Text → Text → Option Text
  | [], s => some s
  | _ :: _, [] => none
  | c :: head, d :: s => if c = d then consume? head s else none

theorem consume?_eq_some_iff {head s rest : Text} :
    consume? head s = some rest ↔ s = head ++ rest := by
  induction head generalizing s with
  | nil => simp [consume?, eq_comm]
  | cons c head ih =>
    cases s with
    | nil => simp [consume?]
    | cons d s =>
      by_cases h : c = d
      · subst h; simp [consume?, ih]
      · simp [consume?, h, Ne.symm h]

theorem segmentsBy_ne_nil (isSep : CodePoint → Bool) (s : Text) : segmentsBy isSep s ≠ [] := by
  cases s with
  | nil => simp [segmentsBy]
  | cons c rest =>
    rw [segmentsBy]
    split
    · simp
    · split <;> simp

/-- A text without separator is its only part. -/
theorem segmentsBy_of_forall {isSep : CodePoint → Bool} {s : Text} (h : ∀ c ∈ s, isSep c = false) :
    segmentsBy isSep s = [s] := by
  induction s with
  | nil => rfl
  | cons c rest ih =>
    have hc : isSep c = false := h c (by simp)
    simp [segmentsBy, hc, ih fun d hd => h d (List.mem_cons_of_mem _ hd)]

/-- The first separator ends the first part. -/
theorem segmentsBy_append {isSep : CodePoint → Bool} {s : Text} {sep : CodePoint} (rest : Text)
    (h : ∀ c ∈ s, isSep c = false) (hsep : isSep sep = true) :
    segmentsBy isSep (s ++ sep :: rest) = s :: segmentsBy isSep rest := by
  induction s with
  | nil => simp [segmentsBy, hsep]
  | cons c s ih =>
    have hc : isSep c = false := h c (by simp)
    simp [segmentsBy, hc, ih fun d hd => h d (List.mem_cons_of_mem _ hd)]

theorem cut?_eq_some_iff {sep : CodePoint} {s before after : Text} :
    cut? sep s = some (before, after) ↔ sep ∉ before ∧ s = before ++ sep :: after := by
  induction s generalizing before with
  | nil => simp [cut?]
  | cons c rest ih =>
    by_cases h : c = sep
    · subst h
      cases before with
      | nil => simp [cut?]
      | cons b before =>
        simp only [cut?, if_true, Option.some.injEq, Prod.mk.injEq, List.cons_append,
          List.cons.injEq, List.mem_cons, not_or]
        constructor
        · rintro ⟨h, _⟩; exact absurd h (by simp)
        · rintro ⟨⟨h, _⟩, h', _⟩; exact absurd h' h
    · cases before with
      | nil => simp [cut?, h]
      | cons b before =>
        simp only [cut?, h, if_false, Option.map_eq_some_iff, Prod.exists, Prod.mk.injEq,
          List.cons_append, List.cons.injEq, List.mem_cons, not_or]
        constructor
        · rintro ⟨a, b', hcut, ⟨rfl, rfl⟩, rfl⟩
          obtain ⟨hn, rfl⟩ := ih.mp hcut
          exact ⟨⟨Ne.symm h, hn⟩, rfl, rfl⟩
        · rintro ⟨⟨_, hn⟩, rfl, rfl⟩
          exact ⟨before, after, ih.mpr ⟨hn, rfl⟩, ⟨rfl, rfl⟩, rfl⟩

/-! ### Joining -/

/-- The parts with `sep` between neighbours. -/
def join (sep : Text) (parts : List Text) : Text :=
  List.intercalate sep parts

/-- The lines, each ended by a line feed. -/
def unlines (lines : List Text) : Text :=
  lines.flatMap (· ++ "\n")

/-! ### Numerals -/

/-- The decimal numeral of a natural number, without leading zeros. -/
def decimal (n : Nat) : Text :=
  (Nat.toDigits 10 n).map .char

/-- The decimal numeral of an integer, with a minus sign below zero. -/
def integer : Int → Text
  | .ofNat n => decimal n
  | .negSucc n => '-' :: decimal (n + 1)

/-- A row of zeros. -/
def zeros (n : Nat) : Text :=
  List.replicate n '0'

/-- A row of digits with zeros in front, `width` digits in all unless it is longer. -/
def padded (width : Nat) (digits : Text) : Text :=
  zeros (width - digits.length) ++ digits

/-- The value of one decimal digit. -/
def digitValue (c : CodePoint) : Nat :=
  c.toNat - 0x30

/-- The value of a row of decimal digits. -/
def digitsValue (digits : Text) : Nat :=
  digits.foldl (fun value c => 10 * value + digitValue c) 0

/-! ### Line ends -/

/-- A carriage return with the line feed after it, or alone, reads as a line
feed. -/
def unifyNewlines : Text → Text
  | [] => []
  | '\r' :: '\n' :: rest => '\n' :: unifyNewlines rest
  | c :: rest => (if c = '\r' then '\n' else c) :: unifyNewlines rest

end Text

end UtilityCss
