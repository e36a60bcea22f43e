/-
Declarations read back from their text.

The text of a rule's declarations is split at its semicolons and each piece at its colon.  In the
declarations of a token neither sign stands in a property or a value, so that the pieces are the
declarations.

* `Text.splitPair`, `Text.cutPair?` — parts between two characters in a row, and the two parts
  around the first occurrence;
* `readDeclarations?`, `propertyNames?` — the declarations of a text, and their properties;
* `readDeclarations?_text` — declarations in their alphabets are read back;
* `activeChars`, `notActive_of_isValueChar` — no character of a value ends it, or begins anything
  else.
-/
import UtilityCss.Proofs.BracketBody

namespace UtilityCss

/-! ### Two characters in a row -/

namespace Text

variable {a b c : CodePoint}

/-- The parts of a text between the occurrences of two characters in a row. -/
def splitPair (a b : CodePoint) : Text → List Text
  | [] => [[]]
  | [c] => [[c]]
  | c :: d :: rest =>
    if c = a ∧ d = b then [] :: splitPair a b rest
    else (splitPair a b (d :: rest)).modifyHead (c :: ·)

/-- What stands before and after the first occurrence of two characters in a row. -/
def cutPair? (a b : CodePoint) : Text → Option (Text × Text)
  | c :: d :: rest =>
    if c = a ∧ d = b then some ([], rest)
    else (cutPair? a b (d :: rest)).map fun (before, after) => (c :: before, after)
  | _ => none

theorem splitPair_cons_of_ne (h : c ≠ a) (s : Text) :
    splitPair a b (c :: s) = (splitPair a b s).modifyHead (c :: ·) := by
  cases s with
  | nil => rfl
  | cons d s => rw [splitPair, if_neg fun heq => h heq.1]

theorem splitPair_of_notMem {s : Text} (h : a ∉ s) : splitPair a b s = [s] := by
  induction s with
  | nil => rfl
  | cons c s ih =>
    obtain ⟨hne, hmem⟩ := not_or.mp (mt List.mem_cons.mpr h)
    rw [splitPair_cons_of_ne (Ne.symm hne), ih hmem]
    rfl

/-- A part without the first of the two characters ends where both are met. -/
theorem splitPair_append {part : Text} (h : a ∉ part) (rest : Text) :
    splitPair a b (part ++ a :: b :: rest) = part :: splitPair a b rest := by
  induction part with
  | nil => rw [List.nil_append, splitPair, if_pos ⟨rfl, rfl⟩]
  | cons c part ih =>
    obtain ⟨hne, hmem⟩ := not_or.mp (mt List.mem_cons.mpr h)
    rw [List.cons_append, splitPair_cons_of_ne (Ne.symm hne), ih hmem]
    rfl

theorem cutPair?_append {before : Text} (h : a ∉ before) (after : Text) :
    cutPair? a b (before ++ a :: b :: after) = some (before, after) := by
  have hcons {c : CodePoint} (hc : c ≠ a) (s : Text) : cutPair? a b (c :: s) =
      (cutPair? a b s).map fun (before, after) => (c :: before, after) := by
    cases s with
    | nil => rfl
    | cons d s => rw [cutPair?, if_neg fun heq => hc heq.1]
  induction before with
  | nil => rw [List.nil_append, cutPair?, if_pos ⟨rfl, rfl⟩]
  | cons c before ih =>
    obtain ⟨hne, hmem⟩ := not_or.mp (mt List.mem_cons.mpr h)
    rw [List.cons_append, hcons (Ne.symm hne), ih hmem]
    rfl

end Text

/-! ### Reading -/

/-- The declaration that a piece spells: the property ends at the first colon with a blank. -/
def Declaration.read? (piece : Text) : Option Declaration :=
  (Text.cutPair? ':' ' ' piece).map fun (property, value) => ⟨property, value⟩

/-- The declarations that a text spells, a semicolon and a blank between neighbours. -/
def readDeclarations? (s : Text) : Option (List Declaration) :=
  (Text.splitPair ';' ' ' s).mapM Declaration.read?

/-- The properties of the declarations that a text spells. -/
def propertyNames? (s : Text) : Option (List Text) :=
  (readDeclarations? s).map (List.map Declaration.property)

theorem Declaration.WellFormed.notMem {d : Declaration} (h : d.WellFormed) :
    .char ':' ∉ d.property ∧ .char ';' ∉ d.text := by
  refine ⟨fun hcolon => absurd (h.property.2 _ hcolon) (by decide), fun hsemicolon => ?_⟩
  rw [text, List.mem_append, List.mem_append] at hsemicolon
  rcases hsemicolon with (hproperty | hcolon) | hvalue
  · exact absurd (h.property.2 _ hproperty) (by decide)
  · exact absurd hcolon (by decide)
  · exact absurd (h.value.2 _ hvalue) (by decide)

theorem Declaration.WellFormed.cutPair?_text {d : Declaration} (h : d.WellFormed) :
    Text.cutPair? ':' ' ' d.text = some (d.property, d.value) := by
  have htext : d.text = d.property ++ .char ':' :: .char ' ' :: d.value := by
    rw [text, List.append_assoc]
    rfl
  rw [htext, Text.cutPair?_append h.notMem.1]

theorem splitPair_declarationText {ds : List Declaration} (hne : ds ≠ [])
    (h : ∀ d ∈ ds, d.WellFormed) :
    Text.splitPair ';' ' ' (declarationText ds) = ds.map Declaration.text := by
  induction ds with
  | nil => exact absurd rfl hne
  | cons d ds ih =>
    obtain ⟨hd, hds⟩ := List.forall_mem_cons.mp h
    cases ds with
    | nil => rw [declarationText_singleton, Text.splitPair_of_notMem hd.notMem.2]; rfl
    | cons e es =>
      rw [declarationText_cons_cons, Text.splitPair_append hd.notMem.2,
        ih (List.cons_ne_nil e es) hds]
      rfl

/-- Declarations in their alphabets are read back from their text. -/
theorem readDeclarations?_text {ds : List Declaration} (hne : ds ≠ [])
    (h : ∀ d ∈ ds, d.WellFormed) : readDeclarations? (declarationText ds) = some ds := by
  rw [readDeclarations?, splitPair_declarationText hne h]
  clear hne
  induction ds with
  | nil => rfl
  | cons d ds ih =>
    obtain ⟨hd, hds⟩ := List.forall_mem_cons.mp h
    rw [List.map_cons, List.mapM_cons, Declaration.read?, hd.cutPair?_text, ih hds]
    rfl

/-! ### Values -/

/-- The characters that may end a value, open a block, or begin a string, a rule, an escape or a
tag. -/
def activeChars : List CodePoint :=
  [';', ':', '\x7b', '\x7d', '<', '>', '@', '!', '&', '\\', '\x22', '\x27', '\x60']

/-- The characters of a value are printable ASCII, and none of them is active. -/
theorem notActive_of_isValueChar {c : CodePoint} (h : isValueChar c = true) :
    (0x20 ≤ c.toNat ∧ c.toNat ≤ 0x7E) ∧ c ∉ activeChars := by
  have hactive : ∀ d ∈ activeChars, isValueChar d = false := by decide
  have hpunctuation : ∀ d ∈ bracketPunctuation, 0x20 ≤ d.toNat ∧ d.toNat ≤ 0x7E := by decide
  refine ⟨?_, fun hmem => absurd (h.symm.trans (hactive c hmem)) (by simp)⟩
  simp only [isValueChar, Bool.or_eq_true, List.contains_iff_mem, decide_eq_true_eq] at h
  rcases h with (halphanum | hmem) | rfl
  · rw [CodePoint.isAlphanum_iff, CodePoint.isAlpha_iff, CodePoint.isLower_iff,
      CodePoint.isDigit_iff] at halphanum
    omega
  · exact hpunctuation c hmem
  · decide

end UtilityCss
