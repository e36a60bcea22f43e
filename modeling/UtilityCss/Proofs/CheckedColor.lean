/-
Steps that may fail, and colours read with them.

Some steps of a family are defined for some texts only: a table is asked for a key, digits are
read as a number, a number is divided by another.  Here such a step fails where it is not defined.

* `Checked.Fault` — why a step is not defined;
* `Checked.entry`, `Checked.number`, `Checked.divide` — the steps, each with a lemma that says
  when it succeeds;
* `Checked.rgba_ok` — a colour of the palette is converted under any opacity;
* `Checked.color`, `Checked.color_eq` — a colour from the texts that are captured, which never
  fails.
-/
import Mathlib.Algebra.Group.Nat.Defs
import UtilityCss.Proofs.Families

namespace UtilityCss

namespace Checked

/-! ### Steps -/

/-- Why a step is not defined. -/
inductive Fault where
  | missingKey (key : Text)
  | badNumeral (s : Text)
  | badColor (fault : ColorFault)
  | divisionByZero
  | quotientTooLarge
  deriving DecidableEq

/-- The entry of a table under a key. -/
def entry {β : Type} (entries : List (Text × β)) (key : Text) : Except Fault β :=
  match entries.lookup key with
  | some value => .ok value
  | none => .error (.missingKey key)

/-- The number that a row of ASCII digits stands for.  More than 4300 digits are not read. -/
def number (s : Text) : Except Fault Nat :=
  if isDigits 1 4300 s then .ok (Text.digitsValue s) else .error (.badNumeral s)

/-- The quotient, rounded to 53 significant bits.  It must be below `2 ^ 1023`, so that it is a
finite binary64 value. -/
def divide (n m : Nat) : Except Fault Rat :=
  if m = 0 then .error .divisionByZero
  else if 1023 ≤ Nat.log2 (n / m) then .error .quotientTooLarge
  else .ok (Number.roundToBits 53 (mkRat n m))

theorem isDigits_mono {high high' : Nat} {s : Text} (hle : high ≤ high')
    (h : isDigits 1 high s = true) : isDigits 1 high' s = true := by
  simp only [isDigits, Bool.and_eq_true, decide_eq_true_eq] at h ⊢
  exact ⟨⟨h.1.1, h.1.2.trans hle⟩, h.2⟩

theorem number_ok {high : Nat} {s : Text} (hle : high ≤ 4300) (h : isDigits 1 high s = true) :
    number s = .ok (Text.digitsValue s) := by
  rw [number, if_pos (isDigits_mono hle h)]

theorem digitsValue_lt {high : Nat} {s : Text} (h : isDigits 1 high s = true) :
    Text.digitsValue s < 10 ^ high := by
  simp only [isDigits, Bool.and_eq_true, decide_eq_true_eq, List.all_eq_true] at h
  exact (digitsValue_lt_length h.2).trans_le (Nat.pow_le_pow_right (by decide) h.1.2)

theorem divide_ok {n m : Nat} (hn : n < 10 ^ 4) (hm : m ≠ 0) :
    divide n m = .ok (Number.roundToBits 53 (mkRat n m)) := by
  have hsmall : Nat.log2 (n / m) < 1023 := by
    by_cases hzero : n / m = 0
    · rw [hzero]
      decide
    · refine lt_of_lt_of_le ((Nat.log2_lt hzero).mpr ?_) (by decide : 14 ≤ 1023)
      exact lt_of_le_of_lt (Nat.div_le_self n m) (hn.trans (by decide))
  rw [divide, if_neg hm, if_neg (Nat.not_le.mpr hsmall)]

theorem entry_ok {β : Type} {entries : List (Text × β)} {key : Text} {value : β}
    (h : entries.lookup key = some value) : entry entries key = .ok value := by
  rw [entry, h]

/-! ### Colours -/

/-- The property under each keyword of a colour. -/
def colorProperties : List (Text × Text) :=
  [("bg", "background-color"), ("text", "color"), ("border", "border-color")]

/-- One of the keywords before a hyphen, and what follows it. -/
def keyed? (keys : List Text) (token : Text) : Option (Text × Text) :=
  keys.findSome? fun key => (Text.consume? (key ++ "-") token).map (key, ·)

/-- The texts of `name[-shade][/opacity]`. -/
structure PaletteTexts where
  name : Text
  shade : Option Text
  opacity : Option Text

/-- A slash and one to three digits, or nothing; no more text may follow. -/
def opacityText? : Text → Option (Option Text)
  | [] => some none
  | '/' :: digits => if isDigits 1 3 digits then some (some digits) else none
  | _ => none

/-- The texts of `name[-shade][/opacity]`, if this is the shape of a text. -/
def paletteTexts? (s : Text) : Option PaletteTexts := do
  let (name, rest) := s.span CodePoint.isLower
  if name = [] then none
  else
    let (shade, rest) := PaletteRef.readShade rest
    let opacity ← opacityText? rest
    some ⟨name, shade, opacity⟩

/-- A value of the palette under an opacity. -/
def withOpacity (value : Text) : Option Text → Except Fault (Option Text)
  | none => .ok (some value)
  | some digits => do
    let percent ← number digits
    if 100 < percent then .ok none
    else
      let shown ← (rgba value (.real (.ofMagnitude false (mkRat percent 100)))).mapError .badColor
      .ok (some shown)

/-- What a colour declares. -/
def color (token : Text) : Except Fault (Option (List Declaration)) :=
  match keyed? ["bg", "text", "border"] token with
  | none => .ok none
  | some (key, rest) =>
    match paletteTexts? rest with
    | none =>
      match hexColor? rest with
      | none => .ok none
      | some value => do
        let property ← entry colorProperties key
        .ok (some [⟨property, value⟩])
    | some texts =>
      if key = "text" ∧ Color.isTextStyle texts.name then .ok none
      else
        match paletteColor? texts.name texts.shade with
        | none => .ok none
        | some value => do
          match ← withOpacity value texts.opacity with
          | none => .ok none
          | some shown =>
            let property ← entry colorProperties key
            .ok (some [⟨property, shown⟩])

theorem surroundsNumeral_of_isHexDigit {c : CodePoint} (h : Text.isHexDigit c = true) :
    surroundsNumeral c = false := by
  have hranges := hexDigit_ranges h
  have hblank : Text.isBlank c = false := by
    simp only [Text.isBlank, Bool.or_eq_false_iff, Bool.and_eq_false_iff, decide_eq_false_iff_not,
      beq_eq_false_iff_ne]
    omega
  rw [surroundsNumeral, hblank, Bool.false_and]

/-- Two hexadecimal digits are the numeral of a component. -/
theorem component_hexDigits {a b : CodePoint} {m n : Nat} (ha : Text.hexDigit? a = some m)
    (hb : Text.hexDigit? b = some n) : component [a, b] = .ok (Text.decimal (16 * m + n)) := by
  have hvalue {c : CodePoint} {k : Nat} (hc : Text.hexDigit? c = some k) :
      hexValue? c = some k ∧ surroundsNumeral c = false := by
    refine ⟨?_, surroundsNumeral_of_isHexDigit ?_⟩
    · rw [hexValue?, hc]
      rfl
    · rw [Text.isHexDigit, hc]
      rfl
  have hnumeral : hexNumeral? [a, b] = some (16 * m + n) := by
    simp [hexNumeral?, (hvalue ha).1, (hvalue hb).1]
  have hsign : a ≠ '+' ∧ a ≠ '-' := by
    constructor <;> rintro rfl <;> cases ha
  have htrimmed : (([a, b].dropWhile surroundsNumeral).reverse.dropWhile
      surroundsNumeral).reverse = [a, b] := by
    simp [(hvalue ha).2, (hvalue hb).2]
  have hpair : hexPair? [a, b] = some (Int.ofNat (16 * m + n)) := by
    simp only [hexPair?, htrimmed]
    simp [hsign, hnumeral]
  rw [component, hpair]
  rfl

theorem component_ok {a b : CodePoint} (ha : Text.isHexDigit a = true)
    (hb : Text.isHexDigit b = true) : ∃ shown, component [a, b] = .ok shown := by
  obtain ⟨m, hm⟩ := Option.isSome_iff_exists.mp ha
  obtain ⟨n, hn⟩ := Option.isSome_iff_exists.mp hb
  exact ⟨_, component_hexDigits hm hn⟩

/-- A colour of the palette is written with any binary64 opacity. -/
theorem rgba_ok {value : Text} (h : IsColorValue value) (x : Number.Binary64) :
    ∃ shown, rgba value (.real x) = .ok shown := by
  rw [rgba.eq_def]
  split
  · rename_i r₁ r₂ g₁ g₂ b₁ b₂
    have hdigits : ∀ c ∈ [r₁, r₂, g₁, g₂, b₁, b₂], Text.isHexDigit c = true := h.2 rfl
    simp only [List.mem_cons, List.not_mem_nil, or_false, forall_eq_or_imp, forall_eq] at hdigits
    obtain ⟨hr₁, hr₂, hg₁, hg₂, hb₁, hb₂⟩ := hdigits
    obtain ⟨red, hred⟩ := component_ok hr₁ hr₂
    obtain ⟨green, hgreen⟩ := component_ok hg₁ hg₂
    obtain ⟨blue, hblue⟩ := component_ok hb₁ hb₂
    rw [hred, hgreen, hblue]
    exact ⟨_, rfl⟩
  · exact ⟨value, rfl⟩

/-- The keyword of a colour before its hyphen. -/
def colorKey : ColorTarget → Text
  | .background => "bg"
  | .text => "text"
  | .border => "border"

theorem lookup_colorKey (target : ColorTarget) :
    colorProperties.lookup (colorKey target) = some target.property := by
  cases target <;> decide +kernel

theorem colorKey_eq_text_iff {target : ColorTarget} : colorKey target = "text" ↔ target = .text := by
  cases target <;> decide

theorem keyed?_eq (token : Text) :
    keyed? ["bg", "text", "border"] token =
      (ColorTarget.read? token).map fun (target, rest) => (colorKey target, rest) := by
  have hkeys : [↑"bg", ↑"text", ↑"border"] = ColorTarget.all.map colorKey := rfl
  have hkeyword (target : ColorTarget) : target.keyword = colorKey target ++ "-" := by
    cases target <;> decide
  rw [keyed?, hkeys, List.findSome?_map, ColorTarget.read?, List.map_findSome?]
  congr 1
  funext target
  rw [Function.comp, Function.comp, hkeyword, Option.map_map]
  rfl

theorem opacityText?_eq (s : Text) :
    PaletteRef.readOpacity? s = (opacityText? s).map (Option.map Text.digitsValue) := by
  fun_cases opacityText? s <;> simp_all [PaletteRef.readOpacity?]

theorem isDigits_of_opacityText? {s : Text} {opacity : Option Text}
    (h : opacityText? s = some opacity) : ∀ digits ∈ opacity, isDigits 1 3 digits = true := by
  rw [opacityText?.eq_def] at h
  split at h
  · rw [← Option.some.inj h]
    exact fun digits hdigits => absurd hdigits (by simp)
  · obtain ⟨hdigits, h⟩ := Option.ite_none_right_eq_some.mp h
    rw [← Option.some.inj h]
    intro digits heq
    rwa [← Option.some.inj heq]
  · exact absurd h (by simp)

/-- The reference to the palette that the texts spell. -/
def PaletteTexts.ref (texts : PaletteTexts) : PaletteRef :=
  ⟨texts.name, texts.shade, texts.opacity.map Text.digitsValue⟩

theorem paletteTexts?_eq (s : Text) : PaletteRef.read? s = (paletteTexts? s).map PaletteTexts.ref := by
  rw [PaletteRef.read?, paletteTexts?]
  simp only [opacityText?_eq]
  split
  · rfl
  · rw [Option.bind_eq_bind, Option.bind_eq_bind, Option.map_bind, Option.bind_map]
    rfl

theorem isDigits_of_paletteTexts? {s : Text} {texts : PaletteTexts}
    (h : paletteTexts? s = some texts) : ∀ digits ∈ texts.opacity, isDigits 1 3 digits = true := by
  rw [paletteTexts?, List.span_eq_takeWhile_dropWhile] at h
  obtain ⟨-, h⟩ := Option.ite_none_left_eq_some.mp h
  obtain ⟨opacity, hopacity, h⟩ := Option.bind_eq_some_iff.mp h
  rw [← Option.some.inj h]
  exact isDigits_of_opacityText? hopacity

/-- The opacity of a colour of the palette is read, and the colour converted. -/
theorem withOpacity_eq {texts : PaletteTexts} {value : Text}
    (hvalue : paletteColor? texts.name texts.shade = some value)
    (hopacity : ∀ digits ∈ texts.opacity, isDigits 1 3 digits = true) :
    withOpacity value texts.opacity = .ok texts.ref.value? := by
  rw [PaletteRef.value?, PaletteTexts.ref]
  simp only [hvalue, Option.bind_eq_bind, Option.bind_some]
  cases hdigits : texts.opacity with
  | none => rfl
  | some digits =>
    rw [withOpacity, number_ok (by decide) (hopacity digits hdigits)]
    show (if 100 < Text.digitsValue digits then _ else _) = _
    by_cases hlarge : 100 < Text.digitsValue digits
    · simp only [Option.map_some, if_pos hlarge]
    · obtain ⟨shown, hshown⟩ := rgba_ok (isColorValue_of_paletteColor? hvalue)
        (.ofMagnitude false (mkRat (Text.digitsValue digits) 100))
      simp only [Option.map_some, if_neg hlarge, hshown]
      rfl

theorem color_eq (token : Text) :
    color token = .ok ((Color.ofToken? token).map Color.declarations) := by
  rw [color, keyed?_eq, Color.ofToken?]
  cases ColorTarget.read? token with
  | none => rfl
  | some found =>
    obtain ⟨target, rest⟩ := found
    have hproperty := entry_ok (lookup_colorKey target)
    simp only [Option.map_some, Option.bind_eq_bind, Option.bind_some, paletteTexts?_eq,
      colorKey_eq_text_iff, hproperty]
    cases htexts : paletteTexts? rest with
    | none => cases hexColor? rest <;> rfl
    | some texts =>
      simp only [Option.map_some]
      have hname : texts.ref.name = texts.name := rfl
      have hdigits := isDigits_of_paletteTexts? htexts
      rw [hname]
      by_cases hstyle : target = .text ∧ Color.isTextStyle texts.name
      · rw [if_pos hstyle, if_pos hstyle]
        rfl
      rw [if_neg hstyle, if_neg hstyle]
      cases hvalue : paletteColor? texts.name texts.shade with
      | none =>
        have hnone : texts.ref.value? = none := by
          rw [PaletteRef.value?, PaletteTexts.ref, hvalue]
          rfl
        rw [hnone]
        rfl
      | some value =>
        dsimp only
        rw [withOpacity_eq hvalue hdigits]
        cases texts.ref.value? <;> rfl

end Checked

end UtilityCss
