/-
Laws of texts: literals, parts and lines.

* `Text.ofString_ofList`, `Text.forall_mem_ofString` — what a literal is made of;
* `Text.span_eq_iff` — what a scan takes, and where it stops;
* `Text.segments_eq_cons_iff` — all parts of a text, seen from its first cut;
* `Text.flatMap_segments`, `Text.mem_iff_mem_segments` — a text is put together from its parts,
  and its characters are those of the parts and the separators;
* `Text.mem_of_mem_join` — what is joined is made of the separator and of the parts;
* `Text.segments_unlines` — lines that are put together come apart again;
* `Text.trimEnd?` — what comes before a fixed ending;
* `IsEncodable` — texts without surrogates, and what is made of them.

Design notes: the kernel decodes a string literal byte by byte, which is slow,
but knows at once that it is `String.ofList` of its characters.  So facts about
literals go through `String.ofList`.
-/
import Mathlib.Data.List.TakeDrop
import UtilityCss.Text.Basic

namespace UtilityCss

namespace Text

/-! ### Literals -/

theorem ofString_ofList (cs : List Char) : ofString (String.ofList cs) = cs.map .char := by
  rw [ofString, String.toList_ofList]

theorem ofString_ofList_ne_nil {cs : List Char} (h : cs ≠ []) :
    ofString (String.ofList cs) ≠ [] := by
  rw [ofString_ofList]
  simpa using h

/-- A property of all characters of a literal is checked on the list of them. -/
theorem forall_mem_ofString {p : CodePoint → Bool} {cs : List Char}
    (h : cs.all (fun c => p (.char c)) = true) :
    ∀ c ∈ ofString (String.ofList cs), p c = true := by
  intro c hc
  rw [ofString_ofList, List.mem_map] at hc
  obtain ⟨d, hd, rfl⟩ := hc
  exact List.all_eq_true.mp h d hd

/-! ### Numerals -/

theorem digitsValue_concat (digits : Text) (c : CodePoint) :
    digitsValue (digits ++ [c]) = 10 * digitsValue digits + digitValue c := by
  rw [digitsValue, List.foldl_append]
  rfl

/-! ### Scans -/

/-- A scan takes what passes its test, and stops at what does not. -/
theorem span_eq_iff {p : CodePoint → Bool} {s taken rest : Text} :
    s.span p = (taken, rest) ↔
      s = taken ++ rest ∧ (∀ c ∈ taken, p c = true) ∧ ∀ c ∈ rest.head?, p c = false := by
  rw [List.span_eq_takeWhile_dropWhile, Prod.mk.injEq]
  constructor
  · rintro ⟨rfl, rfl⟩
    refine ⟨List.takeWhile_append_dropWhile.symm, List.all_eq_true.mp List.all_takeWhile, ?_⟩
    intro c hc
    have hstop := List.head?_dropWhile_not p s
    rw [Option.mem_def.mp hc] at hstop
    simpa using hstop
  · rintro ⟨rfl, htaken, hrest⟩
    have hstop : rest.takeWhile p = [] ∧ rest.dropWhile p = rest := by
      cases rest with
      | nil => exact ⟨rfl, rfl⟩
      | cons c rest =>
        have hc : ¬p c = true := by simp [hrest c rfl]
        exact ⟨List.takeWhile_cons_of_neg hc, List.dropWhile_cons_of_neg hc⟩
    rw [List.takeWhile_append_of_pos htaken, List.dropWhile_append_of_pos htaken, hstop.1, hstop.2,
      List.append_nil]
    exact ⟨rfl, rfl⟩

/-! ### Parts -/

theorem cut?_eq_none_iff {sep : CodePoint} {s : Text} : cut? sep s = none ↔ sep ∉ s := by
  induction s with
  | nil => simp [cut?]
  | cons c rest ih =>
    by_cases h : c = sep
    · simp [cut?, h]
    · simp [cut?, h, ih, Ne.symm h]

theorem segments_of_cut? {sep : CodePoint} {s before after : Text}
    (h : cut? sep s = some (before, after)) :
    segments sep s = before :: segments sep after := by
  obtain ⟨hn, rfl⟩ := cut?_eq_some_iff.mp h
  refine segmentsBy_append after (fun c hc => ?_) (by simp)
  have hne : c ≠ sep := fun he => hn (he ▸ hc)
  simpa using hne

theorem segments_of_not_mem {sep : CodePoint} {s : Text} (h : sep ∉ s) : segments sep s = [s] := by
  refine segmentsBy_of_forall fun c hc => ?_
  have hne : c ≠ sep := fun he => h (he ▸ hc)
  simpa using hne

theorem segments_ne_nil (sep : CodePoint) (s : Text) : segments sep s ≠ [] :=
  segmentsBy_ne_nil _ s

/-- A text has a single part exactly if it has no separator. -/
theorem segments_eq_singleton_iff {sep : CodePoint} {s part : Text} :
    segments sep s = [part] ↔ sep ∉ s ∧ part = s := by
  rcases hcut : cut? sep s with _ | ⟨before, after⟩
  · have hn := cut?_eq_none_iff.mp hcut
    rw [segments_of_not_mem hn]
    simp [hn, eq_comm]
  · rw [segments_of_cut? hcut]
    obtain ⟨-, rfl⟩ := cut?_eq_some_iff.mp hcut
    simp [segments_ne_nil]

/-- The first part ends at the first separator, and the others are the parts of
what follows. -/
theorem segments_eq_cons_iff {sep : CodePoint} {s first second : Text} {parts : List Text} :
    segments sep s = first :: second :: parts ↔
      ∃ after, cut? sep s = some (first, after) ∧ segments sep after = second :: parts := by
  rcases hcut : cut? sep s with _ | ⟨before, after⟩
  · rw [segments_of_not_mem (cut?_eq_none_iff.mp hcut)]
    simp
  · rw [segments_of_cut? hcut]
    constructor
    · intro h
      obtain ⟨rfl, hparts⟩ := List.cons.inj h
      exact ⟨after, rfl, hparts⟩
    · rintro ⟨after', h, hparts⟩
      obtain ⟨rfl, rfl⟩ := Prod.mk.inj (Option.some.inj h)
      rw [hparts]

theorem segmentsBy_cons_sep {isSep : CodePoint → Bool} {c : CodePoint} (hc : isSep c = true)
    (rest : Text) : segmentsBy isSep (c :: rest) = [] :: segmentsBy isSep rest := by
  rw [segmentsBy, if_pos hc]

theorem segmentsBy_cons_of_not_sep {isSep : CodePoint → Bool} {c : CodePoint} {rest part : Text}
    {parts : List Text} (hc : isSep c = false) (h : segmentsBy isSep rest = part :: parts) :
    segmentsBy isSep (c :: rest) = (c :: part) :: parts := by
  rw [segmentsBy, if_neg (by simp [hc]), h]

theorem segments_cons_sep (sep : CodePoint) (rest : Text) :
    segments sep (sep :: rest) = [] :: segments sep rest :=
  segmentsBy_cons_sep (by simp) rest

theorem segments_cons_of_ne {sep c : CodePoint} {rest part : Text} {parts : List Text}
    (hc : c ≠ sep) (h : segments sep rest = part :: parts) :
    segments sep (c :: rest) = (c :: part) :: parts :=
  segmentsBy_cons_of_not_sep (by simpa using hc) h

/-- A text is put together again from its parts, with a separator before each. -/
theorem flatMap_segments (sep : CodePoint) (s : Text) :
    (segments sep s).flatMap (sep :: ·) = sep :: s := by
  induction s with
  | nil => rfl
  | cons c rest ih =>
    -- a separator opens an empty part, any other character goes to the first part
    by_cases hc : c = sep
    · rw [hc, segments_cons_sep, List.flatMap_cons, ih]
      rfl
    · obtain ⟨part, parts, hparts⟩ := List.exists_cons_of_ne_nil (segments_ne_nil sep rest)
      rw [hparts, List.flatMap_cons] at ih
      rw [segments_cons_of_ne hc hparts, List.flatMap_cons]
      exact congrArg (fun t => sep :: c :: t) (List.cons.inj ih).2

/-- The characters of a text are its separators and the characters of its parts. -/
theorem mem_iff_mem_segments {sep c : CodePoint} {s : Text} (hc : c ≠ sep) :
    c ∈ s ↔ ∃ part ∈ segments sep s, c ∈ part := by
  have hmem : c ∈ sep :: s ↔ ∃ part ∈ segments sep s, c ∈ sep :: part := by
    rw [← flatMap_segments, List.mem_flatMap]
  simpa [hc] using hmem

/-- What stands before the last part of a text is made of the other parts and separators. -/
theorem exists_front_of_segments {sep : CodePoint} {s last : Text} {parts : List Text}
    (h : segments sep s = parts ++ [last]) :
    ∃ front : Text, (∀ c ∈ front, c = sep ∨ ∃ part ∈ parts, c ∈ part) ∧ s = front ++ last := by
  -- with a separator before each part, the one of the last part ends what is before it
  have hwhole : parts.flatMap (sep :: ·) ++ [sep] ++ last = sep :: s := by
    rw [← flatMap_segments sep s, h, List.flatMap_append]
    simp
  have hchars : ∀ c ∈ parts.flatMap (sep :: ·) ++ [sep], c = sep ∨ ∃ part ∈ parts, c ∈ part := by
    refine List.forall_mem_append.mpr ⟨fun c hc => ?_, by simp⟩
    obtain ⟨part, hpart, hc⟩ := List.mem_flatMap.mp hc
    exact (List.mem_cons.mp hc).imp_right fun hmem => ⟨part, hpart, hmem⟩
  cases hfront : parts.flatMap (sep :: ·) ++ [sep] with
  | nil => exact absurd hfront (by simp)
  | cons first front =>
    rw [hfront] at hwhole hchars
    exact ⟨front, fun c hc => hchars c (List.mem_cons_of_mem _ hc), (List.cons.inj hwhole).2.symm⟩

/-- No part has a code point that ends a part. -/
theorem not_sep_of_mem_segmentsBy {isSep : CodePoint → Bool} {s part : Text}
    (h : part ∈ segmentsBy isSep s) : ∀ c ∈ part, isSep c = false := by
  induction s generalizing part with
  | nil =>
    rw [segmentsBy, List.mem_singleton] at h
    subst h
    exact List.forall_mem_nil _
  | cons d rest ih =>
    cases hd : isSep d with
    | true =>
      rw [segmentsBy_cons_sep hd, List.mem_cons] at h
      rcases h with rfl | h
      · exact List.forall_mem_nil _
      · exact ih h
    | false =>
      obtain ⟨first, parts, hp⟩ := List.exists_cons_of_ne_nil (segmentsBy_ne_nil isSep rest)
      rw [segmentsBy_cons_of_not_sep hd hp, List.mem_cons] at h
      rcases h with rfl | h
      · exact List.forall_mem_cons.mpr ⟨hd, ih (hp ▸ List.mem_cons_self)⟩
      · exact ih (hp ▸ List.mem_cons_of_mem _ h)

/-- A separator is in no part. -/
theorem not_mem_of_mem_segments {sep : CodePoint} {s part : Text}
    (h : part ∈ segments sep s) : sep ∉ part := fun hmem =>
  absurd (not_sep_of_mem_segmentsBy h sep hmem) (by simp)

/-! ### Joining -/

/-- What is joined has the characters of the separator and of the parts. -/
theorem mem_of_mem_join {sep : Text} {parts : List Text} {c : CodePoint}
    (h : c ∈ join sep parts) : c ∈ sep ∨ ∃ part ∈ parts, c ∈ part := by
  rw [join] at h
  induction parts with
  | nil => exact absurd h (by simp)
  | cons part parts ih =>
    rcases parts with _ | ⟨next, parts⟩
    · rw [List.intercalate_singleton] at h
      exact .inr ⟨part, List.mem_cons_self, h⟩
    · rw [List.intercalate_cons_cons, List.mem_append, List.mem_append] at h
      rcases h with (h | h) | h
      · exact .inr ⟨part, List.mem_cons_self, h⟩
      · exact .inl h
      · rcases ih h with h | ⟨other, hother, h⟩
        · exact .inl h
        · exact .inr ⟨other, List.mem_cons_of_mem _ hother, h⟩

/-- The first part, and each later one after a separator. -/
theorem join_cons (sep part : Text) (parts : List Text) :
    join sep (part :: parts) = part ++ parts.flatMap (sep ++ ·) := by
  rw [join]
  induction parts generalizing part with
  | nil => rw [List.intercalate_singleton, List.flatMap_nil, List.append_nil]
  | cons next parts ih =>
    rw [List.intercalate_cons_cons, ih, List.flatMap_cons, List.append_assoc, List.append_assoc]

/-- Lines that are put together come apart again. -/
theorem segments_unlines {lines : List Text} (h : ∀ line ∈ lines, .char '\n' ∉ line) :
    segments '\n' (unlines lines) = lines ++ [[]] := by
  induction lines with
  | nil => rfl
  | cons line lines ih =>
    obtain ⟨hline, hlines⟩ := List.forall_mem_cons.mp h
    have hcut : cut? '\n' (unlines (line :: lines)) = some (line, unlines lines) := by
      refine cut?_eq_some_iff.mpr ⟨hline, ?_⟩
      rw [unlines, List.flatMap_cons, List.append_assoc]
      rfl
    rw [segments_of_cut? hcut, ih hlines]
    rfl

/-! ### Endings -/

/-- What comes before `tail`, if the text ends with it. -/
def trimEnd? (tail s : Text) : Option Text :=
  (consume? tail.reverse s.reverse).map List.reverse

theorem trimEnd?_append (s tail : Text) : trimEnd? tail (s ++ tail) = some s := by
  rw [trimEnd?, List.reverse_append, consume?_eq_some_iff.mpr rfl, Option.map_some,
    List.reverse_reverse]

end Text

/-! ### Texts without surrogates -/

/-- A text that a stream can encode. -/
def IsEncodable (s : Text) : Prop :=
  ∀ c ∈ s, c.isSurrogate = false

theorem isEncodable_ofString (s : String) : IsEncodable s := by
  intro c hc
  obtain ⟨d, -, rfl⟩ := List.mem_map.mp hc
  rfl

theorem isEncodable_decimal (n : Nat) : IsEncodable (Text.decimal n) := by
  intro c hc
  obtain ⟨d, -, rfl⟩ := List.mem_map.mp hc
  rfl

theorem IsEncodable.append {s t : Text} (hs : IsEncodable s) (ht : IsEncodable t) :
    IsEncodable (s ++ t) :=
  List.forall_mem_append.mpr ⟨hs, ht⟩

theorem IsEncodable.segment {s part : Text} {sep : CodePoint} (hs : IsEncodable s)
    (h : part ∈ Text.segments sep s) : IsEncodable part := by
  intro c hc
  have hne : c ≠ sep := fun heq => Text.not_mem_of_mem_segments h (heq ▸ hc)
  exact hs c ((Text.mem_iff_mem_segments hne).mpr ⟨part, h, hc⟩)

theorem isEncodable_join {sep : Text} {parts : List Text} (hsep : IsEncodable sep)
    (hparts : ∀ part ∈ parts, IsEncodable part) : IsEncodable (Text.join sep parts) := by
  intro c hc
  rcases Text.mem_of_mem_join hc with hc | ⟨part, hpart, hc⟩
  · exact hsep c hc
  · exact hparts part hpart c hc

end UtilityCss
