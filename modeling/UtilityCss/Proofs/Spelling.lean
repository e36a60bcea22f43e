/-
How a token without prefixes is spelled.

A token that stands for a utility consists of keyword characters and ends, if it
has a free-form value, with one bracket group.

* `IsGroup`, `IsSpelling` — a bracket group, and a text of the shape above;
* `bracketValue?_eq_some_iff`, `hexColor?_eq_some_iff` — what a bracket group is and stands for;
* `marked` — a part of a token that may be left out, after its mark;
* `IsReading` — how a text of that shape is read as a value;
* `spacingValue?_reading`, `fraction?_reading`, `hexColor?_reading` — what follows a keyword
  is read like that;
* `PaletteRef.eq_of_readShade` — a shade and what is left after it;
* `PaletteRef.isKey_of_read?`, `PaletteRef.isTame_of_value?` — colours of the palette have keys
  and tame values.
-/
import Mathlib.Data.List.TakeDrop
import UtilityCss.Proofs.Numeral
import UtilityCss.Utility.Color

namespace UtilityCss

/-! ### Spellings -/

/-- A text between square brackets. -/
def bracketed (body : Text) : Text :=
  .char '[' :: (body ++ [.char ']'])

/-- A text that may stand between square brackets. -/
def IsBody (body : Text) : Prop :=
  body ≠ [] ∧ ∀ c ∈ body, isBracketChar c = true

/-- A bracket group, or nothing. -/
def IsGroup (s : Text) : Prop :=
  s = [] ∨ ∃ body, IsBody body ∧ s = bracketed body

/-- Keyword characters and at most one bracket group after them. -/
def IsSpelling (s : Text) : Prop :=
  ∃ stem group, IsKey stem ∧ IsGroup group ∧ s = stem ++ group

theorem IsSpelling.of_key {s : Text} (h : IsKey s) : IsSpelling s :=
  ⟨s, [], h, .inl rfl, (List.append_nil s).symm⟩

theorem isTokenChar_of_mem_spelling {s : Text} (h : IsSpelling s) :
    ∀ c ∈ s, isTokenChar c = true := by
  obtain ⟨stem, group, hstem, hgroup, rfl⟩ := h
  refine List.forall_mem_append.mpr ⟨fun c hc => ?_, ?_⟩
  · exact isTokenChar_of_isBracketChar (isBracketChar_of_isStemChar (hstem c hc))
  · rcases hgroup with rfl | ⟨body, hbody, rfl⟩
    · exact List.forall_mem_nil _
    · refine List.forall_mem_cons.mpr ⟨by simp [isTokenChar], List.forall_mem_append.mpr ⟨?_, ?_⟩⟩
      · exact fun c hc => isTokenChar_of_isBracketChar (hbody.2 c hc)
      · simp [isTokenChar]

/-! ### Optional parts -/

/-- A text after its mark, or nothing. -/
def marked (mark : Text) : Option Text → Text
  | none => []
  | some s => mark ++ s

theorem head?_marked {mark : CodePoint} {s : Option Text} {c : CodePoint}
    (h : c ∈ (marked [mark] s).head?) : c = mark := by
  cases s with
  | none => exact absurd h (by simp [marked])
  | some s => exact (Option.some.inj h).symm

theorem marked_inj {mark : Text} (hmark : mark ≠ []) {s t : Option Text}
    (h : marked mark s = marked mark t) : s = t := by
  have hne (s : Text) : mark ++ s ≠ [] := List.append_ne_nil_of_left_ne_nil hmark s
  cases s with
  | none =>
    cases t with
    | none => rfl
    | some t => exact absurd h.symm (hne t)
  | some s =>
    cases t with
    | none => exact absurd h (hne s)
    | some t => rw [List.append_cancel_left h]

/-! ### Readings -/

/-- What the body of a bracket group stands for: an underscore is read as a blank. -/
def shown (body : Text) : Text :=
  body.map fun c => if c = .char '_' then .char ' ' else c

/-- How a text is read as a value: a key stands for a tame value, and a bracket group after a key
for what is in the brackets, perhaps with a sign before it. -/
inductive IsReading : (raw value : Text) → Prop
  | fixed {raw value : Text} (hraw : IsKey raw) (hvalue : IsTame value) : IsReading raw value
  | free {stem body sign : Text} (hstem : IsKey stem) (hbody : IsBody body)
      (hsign : ∀ c ∈ sign, c = .char '-') : IsReading (stem ++ bracketed body) (sign ++ shown body)

theorem isValue_shown {body : Text} (h : IsBody body) : IsValue (shown body) := by
  refine ⟨by simpa [shown] using h.1, List.forall_mem_map.mpr fun c hc => ?_⟩
  split
  · rfl
  · exact isValueChar_of_isBracketChar (h.2 c hc)

namespace IsReading

variable {raw value : Text}

theorem spelling (h : IsReading raw value) : IsSpelling raw := by
  cases h with
  | fixed hraw _ => exact .of_key hraw
  | @free stem body sign hstem hbody _ => exact ⟨stem, _, hstem, .inr ⟨body, hbody, rfl⟩, rfl⟩

theorem isValue (h : IsReading raw value) : IsValue value := by
  cases h with
  | fixed _ hvalue => exact hvalue.isValue
  | @free stem body sign _ hbody hsign =>
    have hshown := isValue_shown hbody
    refine ⟨by simp [hshown.1], List.forall_mem_append.mpr ⟨fun c hc => ?_, hshown.2⟩⟩
    rw [hsign c hc]
    rfl

/-- A bracket group without a key and a sign. -/
theorem of_body {body : Text} (h : IsBody body) : IsReading (bracketed body) (shown body) :=
  free (List.forall_mem_nil _) h (List.forall_mem_nil _)

/-- A key before a text does not change what the text is read as. -/
theorem append {s : Text} (hs : IsKey s) (h : IsReading raw value) :
    IsReading (s ++ raw) value := by
  cases h with
  | fixed hraw hvalue => exact .fixed (hs.append hraw) hvalue
  | free hstem hbody hsign =>
    rw [← List.append_assoc]
    exact .free (hs.append hstem) hbody hsign

theorem cons {c : CodePoint} (hc : isStemChar c = true) (h : IsReading raw value) :
    IsReading (c :: raw) value :=
  h.append (List.forall_mem_singleton.mpr hc)

/-- A value may be given a sign. -/
theorem neg (h : IsReading raw value) : IsReading raw ('-' :: value) := by
  have hsign : IsTame (Text.ofString "-") := isTame_ofString rfl
  cases h with
  | fixed hraw hvalue => exact .fixed hraw (hsign.append hvalue)
  | free hstem hbody hsigns => exact .free hstem hbody (List.forall_mem_cons.mpr ⟨rfl, hsigns⟩)

end IsReading

/-! ### Values after a keyword -/

/-- A bracket value is the body of a group, its underscores read as blanks. -/
theorem bracketValue?_eq_some_iff {raw value : Text} :
    bracketValue? raw = some value ↔
      ∃ body, IsBody body ∧ raw = bracketed body ∧ value = shown body := by
  have hclose : isBracketChar (.char ']') = false := by rw [isBracketChar_eq]; decide
  constructor
  · intro h
    rw [bracketValue?.eq_def] at h
    split at h
    · -- the body is all that may stand in brackets, and a single `]` is left over
      rename_i rest
      rcases hspan : rest.span isBracketChar with ⟨body, tail⟩
      simp only [hspan] at h
      obtain ⟨⟨hne, rfl⟩, hvalue⟩ := Option.ite_none_right_eq_some.mp h
      obtain ⟨rfl, hbody, -⟩ := Text.span_eq_iff.mp hspan
      exact ⟨body, ⟨hne, hbody⟩, rfl, (Option.some.inj hvalue).symm⟩
    · exact absurd h (by simp)
  · rintro ⟨body, ⟨hne, hbody⟩, rfl, rfl⟩
    have hspan : (body ++ [CodePoint.char ']']).span isBracketChar = (body, [.char ']']) :=
      Text.span_eq_iff.mpr ⟨rfl, hbody, fun c hc => Option.some.inj hc ▸ hclose⟩
    rw [bracketed, bracketValue?]
    simp only [hspan]
    exact if_pos ⟨hne, rfl⟩

theorem bracketValue?_reading {raw value : Text} (h : bracketValue? raw = some value) :
    IsReading raw value := by
  obtain ⟨body, hbody, rfl, rfl⟩ := bracketValue?_eq_some_iff.mp h
  exact .of_body hbody

theorem spacingValue?_reading {raw value : Text} (h : spacingValue? raw = some value) :
    IsReading raw value := by
  rw [spacingValue?, Option.orElse_eq_orElse, Option.orElse_eq_or, Option.or_eq_some_iff] at h
  rcases h with h | ⟨-, h⟩
  · obtain ⟨hkey, hvalue⟩ := spacingScale_wellFormed _ (mem_of_lookup h)
    exact .fixed hkey hvalue.isTame
  · exact bracketValue?_reading h

theorem isKey_of_isDigits {low high : Nat} {s : Text} (h : isDigits low high s = true) :
    IsKey s := by
  rw [isDigits, Bool.and_eq_true, List.all_eq_true] at h
  exact fun c hc => isStemChar_of_isAlphanum (isAlphanum_of_isDigit (h.2 c hc))

theorem isFlat_percentage (numerator denominator : Nat) :
    IsFlat (percentage numerator denominator) :=
  (isFlat_fixed _ _).append (Text.forall_mem_ofString rfl)

theorem fraction?_reading {raw value : Text} (h : fraction? raw = some value) :
    IsReading raw value := by
  rw [fraction?, Option.bind_eq_bind, Option.bind_eq_some_iff] at h
  obtain ⟨⟨numerator, denominator⟩, hcut, h⟩ := h
  obtain ⟨-, rfl⟩ := Text.cut?_eq_some_iff.mp hcut
  simp only [Option.ite_none_right_eq_some, Bool.and_eq_true] at h
  obtain ⟨⟨hn, hd⟩, h⟩ := h
  split at h
  · exact absurd h (by simp)
  · rw [Option.some.injEq] at h
    subst h
    refine .fixed ((isKey_of_isDigits hn).append ?_) (isFlat_percentage _ _).isTame
    exact List.forall_mem_cons.mpr ⟨rfl, isKey_of_isDigits hd⟩

/-! ### Colours -/

/-- A shade is a hyphen and digits, before what is left. -/
theorem PaletteRef.eq_of_readShade {s rest : Text} {shade : Option Text}
    (h : readShade s = (shade, rest)) :
    s = marked "-" shade ++ rest ∧ ∀ d ∈ shade, d ≠ [] ∧ ∀ c ∈ d, c.isDigit = true := by
  rw [readShade.eq_def] at h
  split at h
  · rename_i tail
    rcases hspan : tail.span CodePoint.isDigit with ⟨digits, left⟩
    obtain ⟨rfl, hdigits, -⟩ := Text.span_eq_iff.mp hspan
    simp only [hspan] at h
    split at h
    · obtain ⟨rfl, rfl⟩ := Prod.mk.inj h
      exact ⟨rfl, by simp⟩
    · rename_i hne
      obtain ⟨rfl, rfl⟩ := Prod.mk.inj h
      refine ⟨rfl, fun d hd => ?_⟩
      obtain rfl := Option.some.inj hd
      exact ⟨hne, hdigits⟩
  · obtain ⟨rfl, rfl⟩ := Prod.mk.inj h
    exact ⟨rfl, by simp⟩

theorem isKey_marked {s : Option Text} (h : ∀ d ∈ s, IsKey d) : IsKey (marked "-" s) := by
  cases s with
  | none => exact List.forall_mem_nil _
  | some d => exact List.forall_mem_cons.mpr ⟨rfl, h d rfl⟩

theorem isKey_of_readShade {s : Text} (htail : IsKey (PaletteRef.readShade s).2) : IsKey s := by
  rcases hread : PaletteRef.readShade s with ⟨shade, rest⟩
  rw [hread] at htail
  obtain ⟨rfl, hdigits⟩ := PaletteRef.eq_of_readShade hread
  refine (isKey_marked fun d hd c hc => ?_).append htail
  exact isStemChar_of_isAlphanum (isAlphanum_of_isDigit ((hdigits d hd).2 c hc))

theorem isKey_of_readOpacity? {s : Text} {opacity : Option Nat}
    (h : PaletteRef.readOpacity? s = some opacity) : IsKey s := by
  rw [PaletteRef.readOpacity?.eq_def] at h
  split at h
  · exact List.forall_mem_nil _
  · simp only [Option.ite_none_right_eq_some] at h
    exact List.forall_mem_cons.mpr ⟨rfl, isKey_of_isDigits h.1⟩
  · exact absurd h (by simp)

theorem PaletteRef.isKey_of_read? {s : Text} {ref : PaletteRef}
    (h : PaletteRef.read? s = some ref) : IsKey s := by
  rcases hspan : s.span CodePoint.isLower with ⟨name, rest⟩
  obtain ⟨rfl, hlower, -⟩ := Text.span_eq_iff.mp hspan
  rw [PaletteRef.read?, hspan] at h
  obtain ⟨-, h⟩ := Option.ite_none_left_eq_some.mp h
  obtain ⟨opacity, hopacity, -⟩ := Option.bind_eq_some_iff.mp h
  have hname : IsKey name := fun c hc =>
    isStemChar_of_isAlphanum (isAlphanum_of_isLower (hlower c hc))
  exact hname.append (isKey_of_readShade (isKey_of_readOpacity? hopacity))

theorem isColorValue_of_paletteColor? {name value : Text} {shade : Option Text}
    (h : paletteColor? name shade = some value) : IsColorValue value := by
  rw [paletteColor?, Option.bind_eq_bind, Option.bind_eq_some_iff] at h
  obtain ⟨shades, hname, hshade⟩ := h
  exact palette_wellFormed _ (mem_of_lookup hname) _ (mem_of_lookup hshade)

theorem forall_mem_component {pair shown : Text} (h : component pair = .ok shown) :
    ∀ c ∈ shown, isFlatChar c = true := by
  rw [component] at h
  split at h
  · rw [← Except.ok.inj h]
    exact forall_mem_integer _
  · exact absurd h (by simp)

theorem forall_mem_numeral {opacity : Opacity} {shown : Text} (h : opacity.numeral = .ok shown) :
    ∀ c ∈ shown, isFlatChar c = true := by
  rw [Opacity.numeral.eq_def] at h
  split at h
  · split at h
    · rw [← Except.ok.inj h]
      exact Number.Binary64.forall_mem_general _
    · exact absurd h (by simp)
  · rw [← Except.ok.inj h]
    exact Number.Binary64.forall_mem_general _

/-- A value is kept, or written in functional notation with flat components. -/
theorem rgba_eq_ok {value shown : Text} {opacity : Opacity} (h : rgba value opacity = .ok shown) :
    shown = value ∨ ∃ components, (∀ c ∈ components, isFlatChar c = true) ∧
      shown = "rgba(" ++ components ++ ")" := by
  rw [rgba.eq_def] at h
  split at h
  · simp only [bind, Except.bind] at h
    repeat split at h; exact absurd h (by simp)
    rename_i red hred _ green hgreen _ blue hblue _ alpha halpha
    refine .inr ⟨_, fun c hc => ?_, (Except.ok.inj h).symm⟩
    rcases Text.mem_of_mem_join hc with hsep | ⟨part, hpart, hmem⟩
    · exact Text.forall_mem_ofString (p := isFlatChar) rfl c hsep
    · simp only [List.mem_cons, List.not_mem_nil, or_false] at hpart
      rcases hpart with rfl | rfl | rfl | rfl
      · exact forall_mem_component hred c hmem
      · exact forall_mem_component hgreen c hmem
      · exact forall_mem_component hblue c hmem
      · exact forall_mem_numeral halpha c hmem
  · exact .inl (Except.ok.inj h).symm

/-- A colour of the palette is flat, or functional notation around flat components. -/
theorem PaletteRef.value?_eq_some {ref : PaletteRef} {value : Text} (h : ref.value? = some value) :
    IsFlat value ∨ ∃ components, (∀ c ∈ components, isFlatChar c = true) ∧
      value = "rgba(" ++ components ++ ")" := by
  rw [PaletteRef.value?, Option.bind_eq_bind, Option.bind_eq_some_iff] at h
  obtain ⟨entry, hentry, h⟩ := h
  have hvalue := (isColorValue_of_paletteColor? hentry).1
  split at h
  · rw [← Option.some.inj h]
    exact .inl hvalue
  · -- a shade with an opacity is written as numbers, if there is anything to convert
    rename_i percent _
    obtain ⟨-, h⟩ := Option.ite_none_left_eq_some.mp h
    cases hrgba : rgba entry (.real (.ofMagnitude false (mkRat percent 100))) with
    | error fault =>
      rw [hrgba] at h
      exact absurd h (by simp [Except.toOption])
    | ok shown =>
      rw [hrgba] at h
      obtain rfl := Option.some.inj h
      rcases rgba_eq_ok hrgba with rfl | hcomponents
      · exact .inl hvalue
      · exact .inr hcomponents

theorem PaletteRef.isTame_of_value? {ref : PaletteRef} {value : Text}
    (h : ref.value? = some value) : IsTame value := by
  rcases PaletteRef.value?_eq_some h with hflat | ⟨components, hcomponents, rfl⟩
  · exact hflat.isTame
  · have hbrackets : IsTame (Text.ofString "rgba(" ++ Text.ofString ")") := by
      rw [← Text.ofString_append, ← String.ofList_append]
      exact isTame_ofString (by decide)
    exact hbrackets.insert hcomponents

/-- A colour in brackets is a number sign and hexadecimal digits, as many as there may be. -/
theorem hexColor?_eq_some_iff {raw value : Text} :
    hexColor? raw = some value ↔
      ∃ digits : Text, digits.length ∈ [3, 4, 6, 8] ∧ (∀ c ∈ digits, Text.isHexDigit c = true) ∧
        raw = bracketed (.char '#' :: digits) ∧ value = .char '#' :: digits := by
  constructor
  · intro h
    rw [hexColor?.eq_def] at h
    split at h
    · rename_i rest
      rcases hspan : rest.span Text.isHexDigit with ⟨digits, tail⟩
      simp only [hspan] at h
      obtain ⟨⟨hlength, rfl⟩, hvalue⟩ := Option.ite_none_right_eq_some.mp h
      obtain ⟨rfl, hdigits, -⟩ := Text.span_eq_iff.mp hspan
      exact ⟨digits, hlength, hdigits, rfl, (Option.some.inj hvalue).symm⟩
    · exact absurd h (by simp)
  · rintro ⟨digits, hlength, hdigits, rfl, rfl⟩
    have hclose : Text.isHexDigit (.char ']') = false := by decide
    have hspan : (digits ++ [CodePoint.char ']']).span Text.isHexDigit = (digits, [.char ']']) :=
      Text.span_eq_iff.mpr ⟨rfl, hdigits, fun c hc => Option.some.inj hc ▸ hclose⟩
    rw [bracketed, List.cons_append, hexColor?]
    simp only [hspan]
    exact if_pos ⟨hlength, rfl⟩

theorem hexColor?_reading {raw value : Text} (h : hexColor? raw = some value) :
    IsReading raw value := by
  obtain ⟨digits, -, hdigits, rfl, rfl⟩ := hexColor?_eq_some_iff.mp h
  have halphanum : ∀ c ∈ digits, c.isAlphanum = true := fun c hc =>
    isAlphanum_of_isHexDigit (hdigits c hc)
  have hbody : IsBody (.char '#' :: digits) :=
    ⟨by simp, List.forall_mem_cons.mpr
      ⟨isBracketChar_eq _, fun c hc => isBracketChar_of_isAlphanum (halphanum c hc)⟩⟩
  -- there are no underscores among the digits
  have hshown : shown (.char '#' :: digits) = .char '#' :: digits := by
    refine (List.map_congr_left fun c hc => if_neg ?_).trans (List.map_id _)
    rintro rfl
    exact absurd ((List.mem_cons.mp hc).resolve_left (by decide)) fun hdigit =>
      absurd (halphanum _ hdigit) (by decide)
  have hreading := IsReading.of_body hbody
  rwa [hshown] at hreading

end UtilityCss
