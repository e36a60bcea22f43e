/-
Escaping is reversible, whatever the characters of a name are.

A written name is read from the left: a backslash begins an escape, and any other character
stands for itself.  `ReadsTo` says where such a reading comes to, so that the backslashes which
begin an escape can be told from those that an escape stands for.

* `unescape?` — what a written name stands for;
* `ReadsTo.unescape?_eq` — a reading is a first part of what the name stands for;
* `guarded_escape` — punctuation in an escaped name begins an escape or follows on the backslash
  of one;
* `escape_reversible` — the escaped form of any text is read as the text, so that no two texts
  have the same, its punctuation is guarded, and it does not begin with a digit.
-/
import UtilityCss.Proofs.ClassName

namespace UtilityCss

/-! ### Reading whole names -/

/-- What a written name stands for, each character being kept that is not escaped; `none` if the
last backslash has nothing after it. -/
def unescape? (s : Text) : Option Text :=
  match readEscaped (fun _ => true) s with
  | (name, []) => some name
  | (_, _ :: _) => none

theorem unescape?_cons {c : CodePoint} (hc : c ≠ '\\') (s : Text) :
    unescape? (c :: s) = (unescape? s).map (c :: ·) := by
  rw [unescape?, readEscaped_cons_keep hc rfl, unescape?]
  rcases readEscaped (fun _ => true) s with ⟨name, _ | ⟨d, rest⟩⟩ <;> rfl

theorem unescape?_backslash {c : CodePoint} {s after : Text} (h : readEscape? s = some (c, after)) :
    unescape? ('\\' :: s) = (unescape? after).map (c :: ·) := by
  rw [unescape?, readEscaped_cons_escape h, unescape?]
  rcases readEscaped (fun _ => true) after with ⟨name, _ | ⟨d, rest⟩⟩ <;> rfl

/-- The reading of `s` from the left comes to a place where `t` is left, and has read `name` before
it. -/
inductive ReadsTo : Text → Text → Text → Prop
  | here {s : Text} : ReadsTo s [] s
  | kept {c : CodePoint} {s name t : Text} (hc : c ≠ '\\') (h : ReadsTo s name t) :
      ReadsTo (c :: s) (c :: name) t
  | escape {c : CodePoint} {s after name t : Text} (hc : readEscape? s = some (c, after))
      (h : ReadsTo after name t) : ReadsTo ('\\' :: s) (c :: name) t

/-- What has been read is a first part of what the name stands for. -/
theorem ReadsTo.unescape?_eq {s name t : Text} (h : ReadsTo s name t) :
    unescape? s = (unescape? t).map (name ++ ·) := by
  induction h with
  | here => simp
  | kept hc _ ih =>
    rw [unescape?_cons hc, ih, Option.map_map]
    rfl
  | escape hc _ ih =>
    rw [unescape?_backslash hc, ih, Option.map_map]
    rfl

theorem ReadsTo.trans {s name t name' t' : Text} (h : ReadsTo s name t)
    (h' : ReadsTo t name' t') : ReadsTo s (name ++ name') t' := by
  induction h with
  | here => exact h'
  | kept hc _ ih => exact .kept hc (ih h')
  | escape hc _ ih => exact .escape hc (ih h')

theorem readsTo_escapeChar (c : CodePoint) (rest : Text) :
    ReadsTo (escapeChar c ++ rest) [c] rest := by
  rw [escapeChar]
  split
  · exact .escape (readEscape?_special ‹_› rest) .here
  · rename_i hspecial
    refine .kept ?_ .here
    rintro rfl
    exact hspecial (by decide)

/-! ### Punctuation -/

/-- Whether a code point is ASCII punctuation: visible, and neither a letter nor a digit. -/
def isPunctuation (c : CodePoint) : Bool :=
  0x21 ≤ c.toNat && c.toNat ≤ 0x7E && !c.isAlphanum

/-- All punctuation is escaped but the hyphen and the underscore. -/
theorem isSelectorSpecial_iff {c : CodePoint} :
    isSelectorSpecial c = true ↔ isPunctuation c = true ∧ c ≠ '-' ∧ c ≠ '_' := by
  have halphanum : c.isAlphanum = false ↔ ¬ (((0x41 ≤ c.toNat ∧ c.toNat ≤ 0x5A) ∨
      (0x61 ≤ c.toNat ∧ c.toNat ≤ 0x7A)) ∨ (0x30 ≤ c.toNat ∧ c.toNat ≤ 0x39)) := by
    rw [← Bool.not_eq_true, CodePoint.isAlphanum_iff, CodePoint.isAlpha_iff, CodePoint.isLower_iff,
      CodePoint.isDigit_iff]
  -- between the letters and the digits are the four ranges of punctuation
  simp only [isSelectorSpecial, isPunctuation, Bool.and_eq_true, Bool.or_eq_true, Bool.not_eq_true',
    decide_eq_true_eq, halphanum]
  constructor
  · rintro ⟨⟨hhyphen, hunderscore⟩, hranges⟩
    exact ⟨by omega, hhyphen, hunderscore⟩
  · rintro ⟨hpunctuation, hhyphen, hunderscore⟩
    exact ⟨⟨hhyphen, hunderscore⟩, by omega⟩

/-! ### Where punctuation stands -/

/-- Whether the reading of `s` comes to a backslash with `after` behind it that begins an
escape. -/
def BeginsEscape (s after : Text) : Prop :=
  ∃ name c rest, ReadsTo s name ('\\' :: after) ∧ readEscape? after = some (c, rest)

/-- Whether a character of `s`, with `before` and `after` around it, is a backslash that begins
an escape, or stands right after one. -/
def InEscape (s before : Text) (c : CodePoint) (after : Text) : Prop :=
  (c = '\\' ∧ BeginsEscape s after) ∨
    ∃ front : Text, before = front ++ [.char '\\'] ∧ BeginsEscape s (c :: after)

/-- Whether the punctuation of `s` is in escapes, but for hyphens and underscores. -/
def Guarded (s : Text) : Prop :=
  ∀ (before : Text) (c : CodePoint) (after : Text), s = before ++ c :: after →
    isSelectorSpecial c = true → InEscape s before c after

theorem ReadsTo.beginsEscape {s name t after : Text} (h : ReadsTo s name t)
    (hafter : BeginsEscape t after) : BeginsEscape s after := by
  obtain ⟨name', c, rest, hread, hescape⟩ := hafter
  exact ⟨name ++ name', c, rest, h.trans hread, hescape⟩

theorem guarded_nil : Guarded [] :=
  fun before c after h => absurd h.symm (List.append_ne_nil_of_right_ne_nil before (by simp))

/-- What is read before a guarded text may be looked at by itself. -/
theorem Guarded.append {first s name : Text} (hs : Guarded s) (hread : ReadsTo (first ++ s) name s)
    (hfirst : ∀ (before : Text) (c : CodePoint) (after : Text), first = before ++ c :: after →
      isSelectorSpecial c = true → InEscape (first ++ s) before c (after ++ s)) :
    Guarded (first ++ s) := by
  intro before c after heq hspecial
  -- a character of the guarded text is in the same escape there
  have hinside (middle : Text) (hbefore : before = first ++ middle)
      (hmiddle : s = middle ++ c :: after) : InEscape (first ++ s) before c after := by
    rcases hs middle c after hmiddle hspecial with ⟨hc, hbegins⟩ | ⟨front, hfront, hbegins⟩
    · exact .inl ⟨hc, hread.beginsEscape hbegins⟩
    · refine .inr ⟨first ++ front, ?_, hread.beginsEscape hbegins⟩
      rw [hbefore, hfront, List.append_assoc]
  rcases List.append_eq_append_iff.mp heq with
    ⟨middle, hbefore, hmiddle⟩ | ⟨middle, hbefore, hafter⟩
  · exact hinside middle hbefore hmiddle
  · cases middle with
    | nil => exact hinside [] (by rw [hbefore, List.append_nil, List.append_nil]) hafter.symm
    | cons d middle =>
      obtain ⟨rfl, rfl⟩ := List.cons.inj hafter
      exact hfirst before c middle hbefore hspecial

theorem Guarded.escapeChar_append {s : Text} (hs : Guarded s) (c : CodePoint) :
    Guarded (escapeChar c ++ s) := by
  refine hs.append (readsTo_escapeChar c s) fun before d after hplace hd => ?_
  rw [escapeChar] at hplace ⊢
  split at hplace
  · -- a backslash and what it escapes
    rename_i hspecial
    have hescape : readEscape? (c :: s) = some (c, s) := readEscape?_special hspecial s
    have hbegins : BeginsEscape ('\\' :: c :: s) (c :: s) := ⟨[], c, s, .here, hescape⟩
    rw [if_pos hspecial]
    cases before with
    | nil =>
      obtain ⟨rfl, rfl⟩ := List.cons.inj hplace
      exact .inl ⟨rfl, hbegins⟩
    | cons b before =>
      obtain ⟨rfl, hrest⟩ := List.cons.inj hplace
      rcases List.append_eq_singleton_iff.mp hrest.symm with ⟨rfl, hafter⟩ | ⟨-, hnil⟩
      · obtain ⟨rfl, rfl⟩ := List.cons.inj hafter
        exact .inr ⟨[], rfl, hbegins⟩
      · exact absurd hnil (by simp)
  · -- a character that is kept is no punctuation
    rename_i hspecial
    have hmem : d ∈ [c] := by simp [hplace]
    rw [List.mem_singleton.mp hmem] at hd
    exact absurd hd hspecial

theorem guarded_flatMap (name : Text) : Guarded (name.flatMap escapeChar) := by
  induction name with
  | nil => exact guarded_nil
  | cons c name ih => exact ih.escapeChar_append c

/-- A digit at the beginning, escaped by its number. -/
theorem Guarded.digit_append {s : Text} {c : CodePoint} (hs : Guarded s) (hc : c.isDigit = true) :
    Guarded ('\\' :: '3' :: c :: ' ' :: s) := by
  have hescape : readEscape? ('3' :: c :: ' ' :: s) = some (c, s) := readEscape?_digit hc s
  have hread : ReadsTo ('\\' :: '3' :: c :: ' ' :: s) [c] s := .escape hescape .here
  show Guarded ([.char '\\', .char '3', c, .char ' '] ++ s)
  refine hs.append hread fun before d after hplace hd => ?_
  cases before with
  | nil =>
    obtain ⟨rfl, rfl⟩ := List.cons.inj hplace
    exact .inl ⟨rfl, [], c, s, .here, hescape⟩
  | cons b before =>
    -- behind the backslash are digits and a blank
    obtain ⟨-, hrest⟩ := List.cons.inj hplace
    have hplain : isSelectorSpecial c = false :=
      isSelectorSpecial_of_isAlphanum (isAlphanum_of_isDigit hc)
    have hmem : d ∈ [.char '3', c, .char ' '] := by simp [hrest]
    simp only [List.mem_cons, List.not_mem_nil, or_false] at hmem
    rcases hmem with rfl | rfl | rfl
    · exact absurd hd (by decide)
    · exact absurd hd (by simp [hplain])
    · exact absurd hd (by decide)

/-- The punctuation of an escaped name is in escapes. -/
theorem guarded_escape (s : Text) : Guarded (escape s) := by
  rw [escape.eq_def]
  split
  · exact guarded_nil
  · rename_i c rest
    split
    · exact (guarded_flatMap rest).digit_append ‹_›
    · exact guarded_flatMap (c :: rest)

/-! ### Escaping is reversible -/

/-- An escaped text is read as the text. -/
theorem unescape?_escape (s : Text) : unescape? (escape s) = some s := by
  have hread : readEscaped (fun _ => true) (escape s ++ []) = (s, []) :=
    readEscaped_escape (fun _ _ => .inr rfl) (fun _ h => absurd h (by simp))
  rw [List.append_nil] at hread
  rw [unescape?, hread]

theorem not_isDigit_head?_escape (s : Text) : ∀ c ∈ (escape s).head?, c.isDigit = false := by
  intro d hd
  cases s with
  | nil => exact absurd hd (by simp [escape])
  | cons c rest =>
    by_cases hc : c.isDigit = true
    · -- the backslash of the escape comes first
      simp only [escape, if_pos hc, List.head?_cons, Option.mem_def, Option.some.injEq] at hd
      rw [← hd]
      decide
    · rw [escape_of_not_isDigit (by simpa using hc), escapeChar] at hd
      split at hd
      all_goals
        obtain rfl := Option.some.inj (Option.mem_def.mp hd)
      · decide
      · simpa using hc

/-- The escaped form of a text, whatever its code points are, is read as the text, so that no
other text has the same escaped form; its punctuation but for hyphens and underscores is the
backslash that begins an escape, or stands right after one; and it does not begin with a digit. -/
theorem escape_reversible (s : Text) :
    unescape? (escape s) = some s ∧
    (∀ t, escape t = escape s → t = s) ∧
    (∀ (before : Text) (c : CodePoint) (after : Text), escape s = before ++ c :: after →
      isPunctuation c = true → c ≠ '-' → c ≠ '_' → InEscape (escape s) before c after) ∧
    ∀ c ∈ (escape s).head?, c.isDigit = false := by
  refine ⟨unescape?_escape s, fun t heq => ?_, ?_, not_isDigit_head?_escape s⟩
  · have hread : unescape? (escape s) = some t := heq ▸ unescape?_escape t
    exact Option.some.inj (hread.symm.trans (unescape?_escape s))
  · intro before c after hplace hpunctuation hhyphen hunderscore
    exact guarded_escape s before c after hplace
      (isSelectorSpecial_iff.mpr ⟨hpunctuation, hhyphen, hunderscore⟩)

/-- A colon behind an escaped digit and a letter. -/
theorem escape_reversible_colon :
    unescape? "\\32 x\\:\\\\" = some ↑"2x:\\" ∧
      InEscape "\\32 x\\:\\\\" "\\32 x\\" ':' "\\\\" := by
  obtain ⟨hread, -, hplace, -⟩ := escape_reversible "2x:\\"
  have hescape : escape "2x:\\" = "\\32 x\\:\\\\" := by decide +kernel
  rw [hescape] at hread hplace
  have hcolon := hplace "\\32 x\\" ':' "\\\\" (by decide +kernel)
  exact ⟨hread, hcolon (by decide) (by decide) (by decide)⟩

end UtilityCss
