/-
Strings written and read back.

A string is written as ASCII, code points outside of it as UTF-16 units.  The reader takes
two neighbouring units for a surrogate pair whenever they could be one, so a string comes back
unless it has a surrogate of the first half right before one of the second half.

* `hex_four`, `unit?_hexDigits` — a unit is written as four digits, which are read as the unit;
* `Text.IsJoined` — no two code points of a text could be a surrogate pair;
* `Json.WrittenAs`, `Json.writtenAs` — the ways to write a code point, and the pieces that the
  reader should make of it;
* `Json.pieces_escapeChar`, `Json.pieces_flatMap` — the reader makes these pieces;
* `Json.assemble_unit`, `Json.assemble_flatMap` — the pieces of a joined text are put
  together to that text;
* `Json.string_flatMap` — a joined text is read back.
-/
import Mathlib.Data.List.Chain
import UtilityCss.Proofs.Numeral
import UtilityCss.Json.Parser
import UtilityCss.Json.Printer

namespace UtilityCss

/-! ### Units in four digits -/

theorem hex_four {n : Nat} (h : n < 0x10000) :
    Text.hex 4 n = [hexDigit (n / 16 / 16 / 16), hexDigit (n / 16 / 16 % 16),
      hexDigit (n / 16 % 16), hexDigit (n % 16)] := by
  have hfirst : n / 16 / 16 / 16 < 16 := by omega
  rw [hex_succ (by decide), hex_succ (by decide), hex_succ (by decide), hex_one hfirst]
  rfl

theorem unit?_hexDigits {n : Nat} (h : n < 0x10000) :
    Json.unit? (hexDigit (n / 16 / 16 / 16)) (hexDigit (n / 16 / 16 % 16))
      (hexDigit (n / 16 % 16)) (hexDigit (n % 16)) = some n := by
  have hfirst : n / 16 / 16 / 16 < 16 := by omega
  have hsum : ((n / 16 / 16 / 16 * 16 + n / 16 / 16 % 16) * 16 + n / 16 % 16) * 16 + n % 16 = n := by
    omega
  simp only [Json.unit?, hexDigit?_hexDigit hfirst, hexDigit?_hexDigit (Nat.mod_lt _ (by decide)),
    Option.bind_eq_bind, Option.bind_some, hsum]

/-! ### Texts without halves of pairs -/

/-- No surrogate of the first half stands right before one of the second half. -/
def Text.IsJoined (s : Text) : Prop :=
  s.IsChain fun a b => (Json.isHighSurrogate a.toNat && Json.isLowSurrogate b.toNat) = false

theorem CodePoint.toNat_lt (c : CodePoint) : c.toNat < 0x110000 := by
  cases c with
  | char c =>
    have hvalid := c.valid
    have hnat : (CodePoint.char c).toNat = c.val.toNat := rfl
    unfold UInt32.isValidChar Nat.isValidChar at hvalid
    omega
  | surrogate place =>
    have hnat : (CodePoint.surrogate place).toNat = 0xD800 + place.val := rfl
    omega

theorem toNat_of_not_isSurrogate {c : CodePoint} (h : c.isSurrogate = false) :
    c.toNat < 0xD800 ∨ 0xDFFF < c.toNat := by
  cases c with
  | char c =>
    have hvalid := c.valid
    have hnat : (CodePoint.char c).toNat = c.val.toNat := rfl
    unfold UInt32.isValidChar Nat.isValidChar at hvalid
    omega
  | surrogate place => exact absurd h (by simp [CodePoint.isSurrogate])

theorem isHighSurrogate_of_not_isSurrogate {c : CodePoint} (h : c.isSurrogate = false) :
    Json.isHighSurrogate c.toNat = false := by
  have hrange := toNat_of_not_isSurrogate h
  simp only [Json.isHighSurrogate, Bool.and_eq_false_iff, decide_eq_false_iff_not]
  omega

theorem isLowSurrogate_of_not_isSurrogate {c : CodePoint} (h : c.isSurrogate = false) :
    Json.isLowSurrogate c.toNat = false := by
  have hrange := toNat_of_not_isSurrogate h
  simp only [Json.isLowSurrogate, Bool.and_eq_false_iff, decide_eq_false_iff_not]
  omega

theorem Text.isJoined_of_forall {s : Text} (h : ∀ c ∈ s, c.isSurrogate = false) : s.IsJoined := by
  refine (List.pairwise_of_forall_mem_list fun a ha b _ => ?_).isChain
  rw [isHighSurrogate_of_not_isSurrogate (h a ha), Bool.false_and]

namespace Json

/-! ### Written code points -/

/-- Whether a code point is written as itself, or as a backslash and a letter. -/
def isWrittenPlain (c : CodePoint) : Bool :=
  c = '\n' || c = '\r' || c = '\t' || c = '\x0c' || c = '\x08' ||
    (0x20 ≤ c.toNat && c.toNat ≤ 0x7E)

/-- The first half of the pair of a code point beyond the first plane. -/
def highHalf (c : CodePoint) : Nat :=
  0xD800 + (c.toNat - 0x10000) / 0x400

/-- The second half of the pair of a code point beyond the first plane. -/
def lowHalf (c : CodePoint) : Nat :=
  0xDC00 + (c.toNat - 0x10000) % 0x400

/-- The pieces that a code point is written as. -/
def piecesOf (c : CodePoint) : List Piece :=
  if isWrittenPlain c then [.char c]
  else if c.toNat < 0x10000 then [.unit c.toNat]
  else [.unit (highHalf c), .unit (lowHalf c)]

/-- Whether a code point is a visible ASCII character or the blank. -/
def isVisible (c : CodePoint) : Bool :=
  0x20 ≤ c.toNat && c.toNat ≤ 0x7E

/-- The four ways to write a code point: a short escape, the code point itself, one unit and a
pair of units. -/
inductive WrittenAs (c : CodePoint) : Text → List Piece → Prop
  | short {e : CodePoint} (hu : e ≠ 'u') (he : isVisible e = true) (h : shortEscape? e = some c) :
      WrittenAs c ['\\', e] [.char c]
  | plain (hquote : c ≠ '"') (hbackslash : c ≠ '\\') (h : isVisible c = true) :
      WrittenAs c [c] [.char c]
  | unit (h : c.toNat < 0x10000) : WrittenAs c (unitEscape c.toNat) [.unit c.toNat]
  | pair (h : 0x10000 ≤ c.toNat) :
      WrittenAs c (unitEscape (highHalf c) ++ unitEscape (lowHalf c))
        [.unit (highHalf c), .unit (lowHalf c)]

theorem WrittenAs.of_short {c e : CodePoint} (hu : e ≠ 'u') (he : isVisible e = true)
    (h : shortEscape? e = some c) (hplain : isWrittenPlain c = true) :
    WrittenAs c ['\\', e] (piecesOf c) := by
  rw [piecesOf, if_pos hplain]
  exact .short hu he h

theorem writtenAs (c : CodePoint) : WrittenAs c (escapeChar c) (piecesOf c) := by
  rw [escapeChar]
  split
  · subst c; rw [Text.ofString_ofList]; exact .of_short (by decide) rfl rfl rfl
  split
  · subst c; rw [Text.ofString_ofList]; exact .of_short (by decide) rfl rfl rfl
  split
  · subst c; rw [Text.ofString_ofList]; exact .of_short (by decide) rfl rfl rfl
  split
  · subst c; rw [Text.ofString_ofList]; exact .of_short (by decide) rfl rfl rfl
  split
  · subst c; rw [Text.ofString_ofList]; exact .of_short (by decide) rfl rfl rfl
  split
  · subst c; rw [Text.ofString_ofList]; exact .of_short (by decide) rfl rfl rfl
  split
  · subst c; rw [Text.ofString_ofList]; exact .of_short (by decide) rfl rfl rfl
  rename_i hquote hbackslash hn hr ht hf hb
  split
  · rename_i hvisible
    have hplain : isWrittenPlain c = true := by simp [isWrittenPlain, hvisible]
    rw [piecesOf, if_pos hplain]
    exact .plain hquote hbackslash (by simpa [isVisible] using hvisible)
  · rename_i hhidden
    have hplain : ¬isWrittenPlain c = true := by
      simpa [isWrittenPlain, hn, hr, ht, hf, hb] using hhidden
    rw [piecesOf, if_neg hplain]
    split
    · exact .unit ‹_›
    · exact .pair (by omega)

/-- The halves of a pair are units, and read together they are the code point. -/
theorem pairPoint_halves {c : CodePoint} (h : 0x10000 ≤ c.toNat) :
    (isHighSurrogate (highHalf c) && isLowSurrogate (lowHalf c)) = true ∧
      pairPoint (highHalf c) (lowHalf c) = c := by
  have hc := c.toNat_lt
  have hhigh : 0xD800 ≤ highHalf c ∧ highHalf c ≤ 0xDBFF := by unfold highHalf; omega
  have hlow : 0xDC00 ≤ lowHalf c ∧ lowHalf c ≤ 0xDFFF := by unfold lowHalf; omega
  have hpoint : 0x10000 + (highHalf c - 0xD800) * 0x400 + (lowHalf c - 0xDC00) = c.toNat := by
    unfold highHalf lowHalf
    omega
  refine ⟨by simpa [isHighSurrogate, isLowSurrogate] using ⟨hhigh, hlow⟩, ?_⟩
  rw [pairPoint, hpoint, CodePoint.ofNat_toNat]

/-! ### Pieces of a written text -/

/-- A numeric escape is read as its unit, if some text follows it. -/
theorem pieces_unitEscape (start : Text) {n : Nat} (hn : n < 0x10000) {rest : Text}
    (hrest : rest ≠ []) :
    pieces start (unitEscape n ++ rest) =
      (pieces start rest).map fun p => (.unit n :: p.1, p.2) := by
  rw [unitEscape, hex_four hn]
  simp only [List.cons_append, List.nil_append]
  rw [pieces]
  simp only [unit?_hexDigits hn, if_neg hrest]

theorem pieces_short (start : Text) {e c : CodePoint} {rest : Text} (hu : e ≠ 'u')
    (h : shortEscape? e = some c) :
    pieces start ('\\' :: e :: rest) = (pieces start rest).map fun p => (.char c :: p.1, p.2) := by
  rw [pieces]
  · rw [h]
  · exact fun h => hu h

theorem pieces_plain (start : Text) {c : CodePoint} {rest : Text} (hquote : c ≠ '"')
    (hbackslash : c ≠ '\\') (hc : isVisible c = true) :
    pieces start (c :: rest) = (pieces start rest).map fun p => (.char c :: p.1, p.2) := by
  rw [isVisible, Bool.and_eq_true, decide_eq_true_eq] at hc
  rw [pieces.eq_def]
  split
  · rename_i h; exact absurd h (by simp)
  · rename_i h; exact absurd (List.cons.inj h).1 hquote
  · rename_i h; exact absurd (List.cons.inj h).1 hbackslash
  · rename_i h; exact absurd (List.cons.inj h).1 hbackslash
  · rename_i h; exact absurd (List.cons.inj h).1 hbackslash
  · rename_i h
    obtain ⟨rfl, rfl⟩ := List.cons.inj h
    rw [if_neg (by omega)]

theorem pieces_escapeChar (start : Text) (c : CodePoint) {rest : Text} (hrest : rest ≠ []) :
    pieces start (escapeChar c ++ rest) =
      (pieces start rest).map fun p => (piecesOf c ++ p.1, p.2) := by
  have hwritten := writtenAs c
  generalize escapeChar c = written, piecesOf c = ps at hwritten
  cases hwritten with
  | short hu _ h => rw [List.cons_append, List.singleton_append, pieces_short start hu h]; rfl
  | plain hquote hbackslash h =>
    rw [List.singleton_append, pieces_plain start hquote hbackslash h]
    rfl
  | unit h => rw [pieces_unitEscape start h hrest]; rfl
  | pair h =>
    have hc := c.toNat_lt
    have hhigh : highHalf c < 0x10000 := by unfold highHalf; omega
    have hlow : lowHalf c < 0x10000 := by unfold lowHalf; omega
    have hnext : unitEscape (lowHalf c) ++ rest ≠ [] := List.cons_ne_nil _ _
    rw [List.append_assoc, pieces_unitEscape start hhigh hnext, pieces_unitEscape start hlow hrest]
    cases pieces start rest <;> rfl

/-- A written text is read up to its closing quote. -/
theorem pieces_flatMap (start s rest : Text) :
    pieces start (s.flatMap escapeChar ++ .char '"' :: rest) = .ok (s.flatMap piecesOf, rest) := by
  induction s with
  | nil => rfl
  | cons c s ih =>
    have hrest : s.flatMap escapeChar ++ .char '"' :: rest ≠ [] := by simp
    rw [List.flatMap_cons, List.append_assoc, pieces_escapeChar start c hrest, ih]
    rfl

/-! ### Pieces put together -/

/-- A unit that is no first half, or that no second half follows, stands for itself. -/
theorem assemble_unit {n : Nat} {ps : List Piece}
    (h : ∀ m, ps.head? = some (.unit m) → (isHighSurrogate n && isLowSurrogate m) = false) :
    assemble (.unit n :: ps) = .ofNat n :: assemble ps := by
  match ps with
  | [] => rfl
  | .char c :: ps => rfl
  | .unit m :: ps =>
    rw [assemble, if_neg]
    rw [h m rfl]
    exact Bool.false_ne_true

/-- The first unit of a code point is a second half only if the code point is one. -/
theorem isLowSurrogate_of_head? {c : CodePoint} {m : Nat} {ps : List Piece}
    (h : (piecesOf c ++ ps).head? = some (.unit m)) (hm : isLowSurrogate m = true) :
    m = c.toNat := by
  have hwritten := writtenAs c
  generalize escapeChar c = written, piecesOf c = ps at hwritten h
  cases hwritten with
  | short => exact absurd h (by simp)
  | plain => exact absurd h (by simp)
  | unit => exact (Piece.unit.inj (Option.some.inj h)).symm
  | pair =>
    have hc := c.toNat_lt
    obtain rfl := Piece.unit.inj (Option.some.inj h)
    rw [isLowSurrogate, Bool.and_eq_true, decide_eq_true_eq, highHalf] at hm
    omega

/-- The pieces of a joined text are put together to the text. -/
theorem assemble_flatMap {s : Text} (h : s.IsJoined) : assemble (s.flatMap piecesOf) = s := by
  induction s with
  | nil => rfl
  | cons c s ih =>
    have ih := ih (List.IsChain.tail h)
    have hwritten := writtenAs c
    rw [List.flatMap_cons]
    generalize escapeChar c = written, piecesOf c = ps at hwritten
    cases hwritten with
    | short => rw [List.singleton_append, assemble, ih]
    | plain => rw [List.singleton_append, assemble, ih]
    | unit =>
      -- the next code point does not make a pair with this one
      rw [List.singleton_append, assemble_unit, ih, CodePoint.ofNat_toNat]
      intro m hm
      cases hlow : isLowSurrogate m with
      | false => exact Bool.and_false _
      | true =>
        rcases s with _ | ⟨d, s⟩
        · exact absurd hm (by simp)
        · rw [List.flatMap_cons] at hm
          obtain rfl := isLowSurrogate_of_head? hm hlow
          rw [← hlow]
          exact (List.isChain_cons_cons.mp h).1
    | pair hn =>
      obtain ⟨hpair, hpoint⟩ := pairPoint_halves hn
      rw [List.cons_append, List.singleton_append, assemble, if_pos hpair, ih, hpoint]

/-- A joined text is read back from its written form, whatever follows it. -/
theorem string_flatMap {s : Text} (h : s.IsJoined) (rest : Text) :
    string (s.flatMap escapeChar ++ .char '"' :: rest) = .ok (s, rest) := by
  rw [string, pieces_flatMap]
  exact congrArg (fun t => Except.ok (t, rest)) (assemble_flatMap h)

end Json

end UtilityCss
