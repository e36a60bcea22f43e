/-
The alphabets of names and of values.

Of what tokens and declarations are made:

* `isStemChar` — keywords, keys, numbers and fractions;
* `isBracketChar` — free-form values, which have all of these and more;
* `isPropertyChar`, `isValueChar` — the two halves of a declaration;
* `isFlatChar` — values that have neither round brackets nor stars, as those of all scales;
* `CodePoint.isDigit_iff`, …, `CodePoint.isAlphanum_iff` — the ASCII classes as ranges of
  numbers, by which inclusions are settled;
* `IsKey`, `IsProperty`, `IsValue`, `Declaration.WellFormed` — what is written in
  these alphabets;
* `IsTame` — values that have no stars, and balanced brackets;
* `spacingScale_wellFormed`, `maxWidthScale_wellFormed`, `radiusScale_wellFormed`,
  `fontSizes_wellFormed`, `palette_wellFormed` — the tables keep to them;
* `palette_values` — the values of the palette are hexadecimal, all but one.
-/
import UtilityCss.Proofs.Brackets
import UtilityCss.Scale.Palette
import UtilityCss.Utility.Value
import UtilityCss.Declaration
import UtilityCss.Text.Digit

namespace UtilityCss

/-! ### Classes of characters -/

/-- The characters of keywords, keys, numbers and fractions. -/
def isStemChar (c : CodePoint) : Bool :=
  c.isAlphanum || c = '-' || c = '.' || c = '/'

/-- The characters of a token without prefixes. -/
def isTokenChar (c : CodePoint) : Bool :=
  isBracketChar c || c = '[' || c = ']'

/-- The characters of the name of a property. -/
def isPropertyChar (c : CodePoint) : Bool :=
  c.isLower || c = '-'

/-- The punctuation of free-form values. -/
def bracketPunctuation : List CodePoint :=
  ['.', '%', '#', '(', ')', ',', '+', '*', '/', '_', '-']

/-- The characters of the value of a declaration. -/
def isValueChar (c : CodePoint) : Bool :=
  c.isAlphanum || bracketPunctuation.contains c || c = ' '

/-- The characters of values without round brackets and stars. -/
def isFlatChar (c : CodePoint) : Bool :=
  isValueChar c && c ≠ '(' && c ≠ ')' && c ≠ '*'

theorem isBracketChar_eq (c : CodePoint) :
    isBracketChar c = (c.isAlphanum || bracketPunctuation.contains c) := by
  rw [isBracketChar, Text.ofString_ofList]
  rfl

/-! ### Classes as ranges of numbers -/

/-- A class of characters between two ASCII characters is a range of numbers; surrogates
come after it. -/
theorem CodePoint.isIn_between (low high : Char) (hhigh : high.toNat < 0x80) (c : CodePoint) :
    c.isIn (fun d => decide (low.val ≤ d.val) && decide (d.val ≤ high.val)) = true ↔
      low.toNat ≤ c.toNat ∧ c.toNat ≤ high.toNat := by
  cases c with
  | char d =>
    show (decide (low.val ≤ d.val) && decide (d.val ≤ high.val)) = true ↔ _
    rw [Bool.and_eq_true, decide_eq_true_eq, decide_eq_true_eq, UInt32.le_iff_toNat_le,
      UInt32.le_iff_toNat_le]
    exact Iff.rfl
  | surrogate place =>
    have hplace : (CodePoint.surrogate place).toNat = 0xD800 + place.val := rfl
    exact ⟨fun h => absurd h Bool.false_ne_true, fun h => by omega⟩

theorem CodePoint.isDigit_iff {c : CodePoint} :
    c.isDigit = true ↔ 0x30 ≤ c.toNat ∧ c.toNat ≤ 0x39 :=
  isIn_between '0' '9' (by decide) c

theorem CodePoint.isLower_iff {c : CodePoint} :
    c.isLower = true ↔ 0x61 ≤ c.toNat ∧ c.toNat ≤ 0x7A :=
  isIn_between 'a' 'z' (by decide) c

theorem CodePoint.isAlpha_iff {c : CodePoint} :
    c.isAlpha = true ↔ (0x41 ≤ c.toNat ∧ c.toNat ≤ 0x5A) ∨ c.isLower = true := by
  have halpha : c.isAlpha =
      (c.isIn (fun d => decide ('A'.val ≤ d.val ∧ d.val ≤ 'Z'.val)) || c.isLower) := by
    cases c <;> rfl
  simp only [Bool.decide_and] at halpha
  rw [halpha, Bool.or_eq_true, isIn_between 'A' 'Z' (by decide)]
  exact Iff.rfl

theorem CodePoint.isAlphanum_iff {c : CodePoint} :
    c.isAlphanum = true ↔ c.isAlpha = true ∨ c.isDigit = true := by
  have halphanum : c.isAlphanum = (c.isAlpha || c.isDigit) := by cases c <;> rfl
  rw [halphanum, Bool.or_eq_true]

theorem hexDigit_ranges {c : CodePoint} (h : Text.isHexDigit c = true) :
    (0x30 ≤ c.toNat ∧ c.toNat ≤ 0x39) ∨ (0x61 ≤ c.toNat ∧ c.toNat ≤ 0x66) ∨
      (0x41 ≤ c.toNat ∧ c.toNat ≤ 0x46) := by
  rw [Text.isHexDigit, Text.hexDigit?] at h
  split at h
  · exact .inl ‹_›
  split at h
  · exact .inr (.inl ‹_›)
  split at h
  · exact .inr (.inr ‹_›)
  · exact absurd h (by simp)

theorem not_isDigit_of_isAlpha {c : CodePoint} (h : c.isAlpha = true) : c.isDigit = false := by
  rw [Bool.eq_false_iff, ne_eq, CodePoint.isDigit_iff]
  rw [CodePoint.isAlpha_iff, CodePoint.isLower_iff] at h
  omega

theorem isAlphanum_of_isDigit {c : CodePoint} (h : c.isDigit = true) : c.isAlphanum = true :=
  CodePoint.isAlphanum_iff.mpr (.inr h)

theorem isAlphanum_of_isAlpha {c : CodePoint} (h : c.isAlpha = true) : c.isAlphanum = true :=
  CodePoint.isAlphanum_iff.mpr (.inl h)

theorem isAlphanum_of_isLower {c : CodePoint} (h : c.isLower = true) : c.isAlphanum = true :=
  isAlphanum_of_isAlpha (CodePoint.isAlpha_iff.mpr (.inr h))

theorem isAlphanum_of_isHexDigit {c : CodePoint} (h : Text.isHexDigit c = true) :
    c.isAlphanum = true := by
  have hranges := hexDigit_ranges h
  rw [CodePoint.isAlphanum_iff, CodePoint.isAlpha_iff, CodePoint.isLower_iff,
    CodePoint.isDigit_iff]
  omega

/-! ### What the classes contain -/

theorem isStemChar_of_isAlphanum {c : CodePoint} (h : c.isAlphanum = true) :
    isStemChar c = true := by
  simp [isStemChar, h]

theorem isBracketChar_of_isAlphanum {c : CodePoint} (h : c.isAlphanum = true) :
    isBracketChar c = true := by
  simp [isBracketChar, h]

theorem isBracketChar_of_isStemChar {c : CodePoint} (h : isStemChar c = true) :
    isBracketChar c = true := by
  simp only [isStemChar, Bool.or_eq_true, decide_eq_true_eq] at h
  rcases h with ((h | rfl) | rfl) | rfl
  · exact isBracketChar_of_isAlphanum h
  all_goals exact isBracketChar_eq _

theorem isTokenChar_of_isBracketChar {c : CodePoint} (h : isBracketChar c = true) :
    isTokenChar c = true := by
  simp [isTokenChar, h]

theorem isValueChar_of_isBracketChar {c : CodePoint} (h : isBracketChar c = true) :
    isValueChar c = true := by
  rw [isBracketChar_eq] at h
  rw [isValueChar, h]
  rfl

theorem isValueChar_of_isFlatChar {c : CodePoint} (h : isFlatChar c = true) :
    isValueChar c = true := by
  simp only [isFlatChar, Bool.and_eq_true] at h
  exact h.1.1.1

theorem isFlatChar_of_isAlphanum {c : CodePoint} (h : c.isAlphanum = true) :
    isFlatChar c = true := by
  have hne {d : CodePoint} (hd : d.isAlphanum = false) : c ≠ d := by
    rintro rfl
    exact absurd (hd.symm.trans h) (by simp)
  simp only [isFlatChar, Bool.and_eq_true, decide_eq_true_eq]
  exact ⟨⟨⟨isValueChar_of_isBracketChar (isBracketChar_of_isAlphanum h), hne rfl⟩, hne rfl⟩,
    hne rfl⟩

theorem isFlatChar_of_isDigit {c : CodePoint} (h : c.isDigit = true) : isFlatChar c = true :=
  isFlatChar_of_isAlphanum (isAlphanum_of_isDigit h)

theorem isFlatChar_of_isHexDigit {c : CodePoint} (h : Text.isHexDigit c = true) :
    isFlatChar c = true :=
  isFlatChar_of_isAlphanum (isAlphanum_of_isHexDigit h)

/-! ### Texts over the classes -/

/-- A text of keyword characters. -/
def IsKey (s : Text) : Prop :=
  ∀ c ∈ s, isStemChar c = true

/-- A text that may stand for the name of a property. -/
def IsProperty (s : Text) : Prop :=
  s ≠ [] ∧ ∀ c ∈ s, isPropertyChar c = true

/-- A text that may stand for a value. -/
def IsValue (s : Text) : Prop :=
  s ≠ [] ∧ ∀ c ∈ s, isValueChar c = true

/-- A declaration whose two halves are over their alphabets. -/
structure Declaration.WellFormed (d : Declaration) : Prop where
  property : IsProperty d.property
  value : IsValue d.value

instance (s : Text) : Decidable (IsKey s) := inferInstanceAs (Decidable (∀ c ∈ s, _))

instance (s : Text) : Decidable (IsProperty s) := inferInstanceAs (Decidable (_ ∧ ∀ c ∈ s, _))

instance (s : Text) : Decidable (IsValue s) := inferInstanceAs (Decidable (_ ∧ ∀ c ∈ s, _))

theorem IsKey.append {s t : Text} (hs : IsKey s) (ht : IsKey t) : IsKey (s ++ t) := by
  intro c hc
  rcases List.mem_append.mp hc with hc | hc
  · exact hs c hc
  · exact ht c hc

theorem IsValue.append {s t : Text} (hs : IsValue s) (ht : ∀ c ∈ t, isValueChar c = true) :
    IsValue (s ++ t) := by
  refine ⟨fun h => hs.1 (List.append_eq_nil_iff.mp h).1, fun c hc => ?_⟩
  rcases List.mem_append.mp hc with hc | hc
  · exact hs.2 c hc
  · exact ht c hc

/-! ### Tame values -/

/-- A tame value: no star is in it, and its round brackets are balanced. -/
structure IsTame (s : Text) : Prop where
  isValue : IsValue s
  star_not_mem : .char '*' ∉ s
  balanced : s.IsBalanced

/-- A value without round brackets and stars. -/
def IsFlat (s : Text) : Prop :=
  s ≠ [] ∧ ∀ c ∈ s, isFlatChar c = true

instance (s : Text) : Decidable (IsFlat s) := inferInstanceAs (Decidable (_ ∧ ∀ c ∈ s, _))

theorem IsFlat.isValue {s : Text} (h : IsFlat s) : IsValue s :=
  ⟨h.1, fun c hc => isValueChar_of_isFlatChar (h.2 c hc)⟩

theorem IsFlat.append {s t : Text} (hs : IsFlat s) (ht : ∀ c ∈ t, isFlatChar c = true) :
    IsFlat (s ++ t) :=
  ⟨fun h => hs.1 (List.append_eq_nil_iff.mp h).1, List.forall_mem_append.mpr ⟨hs.2, ht⟩⟩

theorem isFlatChar_ne {c : CodePoint} (h : isFlatChar c = true) :
    (c ≠ '(' ∧ c ≠ ')') ∧ c ≠ '*' := by
  simp only [isFlatChar, Bool.and_eq_true, decide_eq_true_eq] at h
  exact ⟨⟨h.1.1.2, h.1.2⟩, h.2⟩

theorem IsFlat.isTame {s : Text} (h : IsFlat s) : IsTame s where
  isValue := h.isValue
  star_not_mem hstar := (isFlatChar_ne (h.2 _ hstar)).2 rfl
  balanced := Text.isBalanced_of_forall fun c hc => (isFlatChar_ne (h.2 c hc)).1

theorem IsTame.append {s t : Text} (hs : IsTame s) (ht : IsTame t) : IsTame (s ++ t) where
  isValue := IsValue.append hs.isValue ht.isValue.2
  star_not_mem := by
    rw [List.mem_append, not_or]
    exact ⟨hs.star_not_mem, ht.star_not_mem⟩
  balanced := Text.IsBalanced.append hs.balanced ht.balanced

/-- A flat text may stand anywhere in a tame value. -/
theorem IsTame.insert {before after t : Text} (h : IsTame (before ++ after))
    (ht : ∀ c ∈ t, isFlatChar c = true) : IsTame (before ++ t ++ after) where
  isValue := by
    refine ⟨fun hnil => ?_, ?_⟩
    · simp only [List.append_eq_nil_iff] at hnil
      exact h.isValue.1 (List.append_eq_nil_iff.mpr ⟨hnil.1.1, hnil.2⟩)
    · obtain ⟨hbefore, hafter⟩ := List.forall_mem_append.mp h.isValue.2
      refine List.forall_mem_append.mpr ⟨List.forall_mem_append.mpr ⟨hbefore, ?_⟩, hafter⟩
      exact fun c hc => isValueChar_of_isFlatChar (ht c hc)
  star_not_mem := by
    have hstar := h.star_not_mem
    simp only [List.mem_append, not_or] at hstar ⊢
    exact ⟨⟨hstar.1, fun hmem => (isFlatChar_ne (ht _ hmem)).2 rfl⟩, hstar.2⟩
  balanced := by
    have hdepth (depth : Nat) : Text.roundDepth? depth t = some depth :=
      Text.roundDepth?_of_forall (fun c hc => (isFlatChar_ne (ht c hc)).1) depth
    have hbalanced := h.balanced
    rw [Text.IsBalanced, Text.roundDepth?_append] at hbalanced
    rw [Text.IsBalanced, Text.roundDepth?_append, Text.roundDepth?_append, Option.bind_assoc]
    simpa only [hdepth, Option.bind_some] using hbalanced

/-! ### Beginnings -/

/-- Whether a text begins like a name: with a letter, or with a letter after a
hyphen. -/
def beginsName : Text → Bool
  | '-' :: c :: _ => c.isAlpha
  | c :: _ => c.isAlpha
  | [] => false

theorem beginsName_append {s : Text} (t : Text) (h : beginsName s = true) :
    beginsName (s ++ t) = true := by
  match s, h with
  | [c], h =>
    have hc : c ≠ '-' := by rintro rfl; exact absurd h (by decide)
    cases t <;> simpa [beginsName, hc] using h
  | c :: d :: s, h =>
    by_cases hc : c = '-'
    · subst hc; simpa [beginsName] using h
    · simpa [beginsName, hc] using h

/-! ### Literals over the classes -/

/-- What is checked of the characters of a property, of a value and of a keyword. -/
def isPropertyLiteral (cs : List Char) : Bool :=
  !cs.isEmpty && cs.all fun c => isPropertyChar (.char c)

def isValueLiteral (cs : List Char) : Bool :=
  !cs.isEmpty && cs.all fun c => isValueChar (.char c)

def isKeywordLiteral (cs : List Char) : Bool :=
  beginsName (cs.map .char) && cs.all fun c => isStemChar (.char c)

theorem isProperty_ofString {cs : List Char} (h : isPropertyLiteral cs = true) :
    IsProperty (Text.ofString (String.ofList cs)) := by
  rw [isPropertyLiteral, Bool.and_eq_true] at h
  exact ⟨Text.ofString_ofList_ne_nil (by simpa using h.1), Text.forall_mem_ofString h.2⟩

theorem isValue_ofString {cs : List Char} (h : isValueLiteral cs = true) :
    IsValue (Text.ofString (String.ofList cs)) := by
  rw [isValueLiteral, Bool.and_eq_true] at h
  exact ⟨Text.ofString_ofList_ne_nil (by simpa using h.1), Text.forall_mem_ofString h.2⟩

/-- What is checked of the characters of a tame value. -/
def isTameLiteral (cs : List Char) : Bool :=
  isValueLiteral cs && !cs.contains '*' && Text.roundDepth? 0 (cs.map .char) = some 0

theorem isTame_ofString {cs : List Char} (h : isTameLiteral cs = true) :
    IsTame (Text.ofString (String.ofList cs)) := by
  simp only [isTameLiteral, Bool.and_eq_true, decide_eq_true_eq, Bool.not_eq_true',
    List.contains_eq_mem, decide_eq_false_iff_not] at h
  obtain ⟨⟨hvalue, hstar⟩, hbalanced⟩ := h
  refine ⟨isValue_ofString hvalue, ?_, by rwa [Text.ofString_ofList]⟩
  rw [Text.ofString_ofList, List.mem_map]
  rintro ⟨c, hc, hstareq⟩
  rw [CodePoint.char.inj hstareq] at hc
  exact hstar hc

theorem isFlat_ofString {cs : List Char} (hne : cs ≠ [])
    (h : cs.all (fun c => isFlatChar (.char c)) = true) :
    IsFlat (Text.ofString (String.ofList cs)) :=
  ⟨Text.ofString_ofList_ne_nil hne, Text.forall_mem_ofString h⟩

theorem keyword_ofString {cs : List Char} (h : isKeywordLiteral cs = true) :
    beginsName (Text.ofString (String.ofList cs)) = true ∧
      IsKey (Text.ofString (String.ofList cs)) := by
  rw [isKeywordLiteral, Bool.and_eq_true] at h
  exact ⟨by rw [Text.ofString_ofList]; exact h.1, Text.forall_mem_ofString h.2⟩

theorem IsTame.append_ofString {before : String} {cs : List Char} (h : IsTame before)
    (hcs : isTameLiteral cs = true) : IsTame ↑(before ++ String.ofList cs) := by
  rw [Text.ofString_append]
  exact h.append (isTame_ofString hcs)

/-! ### Numerals -/

theorem isDigit_of_mem_repr {n : Nat} {c : CodePoint} (h : c ∈ Text.ofString (Nat.repr n)) :
    c.isDigit = true := by
  rw [Text.ofString, Nat.toList_repr, List.mem_map] at h
  obtain ⟨d, hd, rfl⟩ := h
  exact Nat.isDigit_of_mem_toDigits (by decide) (by decide) hd

/-- A numeral may stand anywhere in a tame literal. -/
theorem isTame_ofString_repr {before after : List Char}
    (h : isTameLiteral (before ++ after) = true) (n : Nat) :
    IsTame ↑(String.ofList before ++ Nat.repr n ++ String.ofList after) := by
  rw [Text.ofString_append, Text.ofString_append]
  refine IsTame.insert ?_ fun c hc => isFlatChar_of_isDigit (isDigit_of_mem_repr hc)
  rw [← Text.ofString_append, ← String.ofList_append]
  exact isTame_ofString h

/-! ### Scales -/

theorem mem_of_lookup {β : Type} {key : Text} {value : β} {entries : List (Text × β)}
    (h : entries.lookup key = some value) : (key, value) ∈ entries := by
  obtain ⟨before, after, rfl, -⟩ := List.lookup_eq_some_iff.mp h
  simp

theorem spacingScale_wellFormed : ∀ e ∈ spacingScale, IsKey e.1 ∧ IsFlat e.2 := by
  decide +kernel

theorem maxWidthScale_wellFormed : ∀ e ∈ maxWidthScale, IsKey e.1 ∧ IsFlat e.2 := by
  decide +kernel

theorem radiusScale_wellFormed : ∀ e ∈ radiusScale, IsKey e.1 ∧ IsFlat e.2 := by
  decide +kernel

theorem fontSizes_wellFormed : ∀ e ∈ fontSizes, IsKey e.1 ∧ IsFlat e.2.1 ∧ IsFlat e.2.2 := by
  decide +kernel

/-! ### The palette -/

/-- A flat value; after a number sign, it has hexadecimal digits only. -/
def IsColorValue (s : Text) : Prop :=
  IsFlat s ∧ (s.head? = some (.char '#') → ∀ c ∈ s.tail, Text.isHexDigit c = true)

instance (s : Text) : Decidable (IsColorValue s) :=
  inferInstanceAs (Decidable (_ ∧ (_ → ∀ c ∈ s.tail, _)))

theorem isColorValue_ofString {digits : List Char}
    (h : digits.all (fun c => Text.isHexDigit (.char c)) = true) :
    IsColorValue (Text.ofString (String.ofList ('#' :: digits))) := by
  have hdigits : ∀ c ∈ digits.map CodePoint.char, Text.isHexDigit c = true := by
    intro c hc
    obtain ⟨d, hd, rfl⟩ := List.mem_map.mp hc
    exact List.all_eq_true.mp h d hd
  rw [Text.ofString_ofList, List.map_cons]
  refine ⟨⟨by simp, List.forall_mem_cons.mpr ⟨by decide, fun c hc => ?_⟩⟩, fun _ => hdigits⟩
  exact isFlatChar_of_isHexDigit (hdigits c hc)

theorem forall_mem_ramp {P : Text → Prop} {name : Text} {values : List Text}
    (h : ∀ v ∈ values, P v) : ∀ shade ∈ (ramp name values).2, P shade.2 := by
  intro shade hs
  exact h _ (List.of_mem_zip hs).2

/-- The digits of the hexadecimal values in the palette. -/
def paletteDigits : List Char :=
  ['0', '1', '2', '3', '4', '5', '6', '7', '8', '9', 'a', 'b', 'c', 'd', 'e', 'f']

/-- A value of the palette: six hexadecimal digits after a number sign, or the word for none. -/
def IsPaletteValue (s : Text) : Prop :=
  s = "transparent" ∨ ∃ digits : List Char, digits.length = 6 ∧ (∀ c ∈ digits, c ∈ paletteDigits) ∧
    s = .char '#' :: digits.map .char

/-- What is checked of the digits of a value in the palette. -/
def arePaletteDigits (digits : List Char) : Bool :=
  digits.length == 6 && digits.all (paletteDigits.contains ·)

theorem isPaletteValue_ofString {digits : List Char} (h : arePaletteDigits digits = true) :
    IsPaletteValue (Text.ofString (String.ofList ('#' :: digits))) := by
  rw [arePaletteDigits, Bool.and_eq_true, beq_iff_eq, List.all_eq_true] at h
  refine .inr ⟨digits, h.1, fun c hc => List.contains_iff_mem.mp (h.2 c hc), ?_⟩
  rw [Text.ofString_ofList, List.map_cons]

theorem palette_values : ∀ e ∈ palette, ∀ shade ∈ e.2, IsPaletteValue shade.2 := by
  unfold palette
  -- one round for each colour that has all shades
  repeat
    refine List.forall_mem_cons.mpr ⟨forall_mem_ramp (P := IsPaletteValue) ?_, ?_⟩
    · repeat refine List.forall_mem_cons.mpr ⟨isPaletteValue_ofString rfl, ?_⟩
      exact List.forall_mem_nil _
  refine List.forall_mem_cons.mpr ⟨List.forall_mem_singleton.mpr ?_, ?_⟩
  · exact isPaletteValue_ofString rfl
  refine List.forall_mem_cons.mpr ⟨List.forall_mem_singleton.mpr ?_, ?_⟩
  · exact isPaletteValue_ofString rfl
  exact List.forall_mem_singleton.mpr (List.forall_mem_singleton.mpr (.inl rfl))

theorem palette_wellFormed : ∀ e ∈ palette, ∀ shade ∈ e.2, IsColorValue shade.2 := by
  have hdigits : ∀ c ∈ paletteDigits, Text.isHexDigit (.char c) = true :=
    List.all_eq_true.mp rfl
  intro e he shade hshade
  rcases palette_values e he shade hshade with htransparent | ⟨digits, -, hmem, hvalue⟩
  · rw [htransparent]
    decide +kernel
  · rw [hvalue, ← List.map_cons, ← Text.ofString_ofList]
    exact isColorValue_ofString (List.all_eq_true.mpr fun c hc => hdigits c (hmem c hc))

end UtilityCss
