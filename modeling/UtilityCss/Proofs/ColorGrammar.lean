/-
The grammar of colours.

A colour is a name of the palette, with a shade and an opacity or without, or hexadecimal digits
in brackets.  The declaration is the entry of the palette, converted if there is an opacity, or the
digits as they are.

* `PaletteSpelling`, `HexSpelling` — the two kinds of tokens, well-formed by construction;
* `IsShown` — how an entry of the palette is written under an opacity;
* `Checked.paletteTexts?_eq_some_iff` — there is one way to take a reference to the palette apart;
* `exists_isShown`, `PaletteRef.value?_of_isShown` — an entry can be shown under every opacity,
  and this is the value of a reference;
* `color_grammar` — the tokens that are colours, and what each of them declares.
-/
import UtilityCss.Proofs.FamilyText
import UtilityCss.Proofs.ShortestDecimal

namespace UtilityCss

/-! ### Tokens -/

/-- A colour of the palette, with one of its shades and an opacity in percent or without. -/
structure PaletteSpelling where
  target : ColorTarget
  name : Text
  shades : List (Text × Text)
  shade : Option Text
  opacity : Option Text
  lookup_name : palette.lookup name = some shades
  isShade : ∀ s ∈ shade, (∀ c ∈ s, c.isDigit = true) ∧ (shades.lookup s).isSome
  isOpacity : ∀ o ∈ opacity, isDigits 1 3 o = true ∧ Text.digitsValue o ≤ 100

namespace PaletteSpelling

/-- The token of the colour. -/
def token (p : PaletteSpelling) : Text :=
  p.target.keyword ++ (p.name ++ marked "-" p.shade ++ marked "/" p.opacity)

/-- The entry of the shade.  Without a shade it is the one of 500, or else the default. -/
def color? (p : PaletteSpelling) : Option Text :=
  match p.shade with
  | some shade => p.shades.lookup shade
  | none => (p.shades.lookup ("500" : Text)).or (p.shades.lookup ("DEFAULT" : Text))

end PaletteSpelling

/-- Three, four, six or eight hexadecimal digits. -/
structure HexSpelling where
  target : ColorTarget
  digits : Text
  length_digits : digits.length ∈ [3, 4, 6, 8]
  isHexDigit : ∀ c ∈ digits, Text.isHexDigit c = true

/-- The token of the digits. -/
def HexSpelling.token (h : HexSpelling) : Text :=
  h.target.keyword ++ bracketed ("#" ++ h.digits)

/-- How an entry of the palette is written under an opacity in percent. -/
inductive IsShown : (entry : Text) → (opacity : Option Text) → (value : Text) → Prop where
  | plain (entry : Text) : IsShown entry none entry
  | transparent (percent : Text) : IsShown "transparent" (some percent) "transparent"
  | mixed (red green blue : Fin 256) (percent : Text) (alpha : DecimalNumeral)
      (hvalue : alpha.value = mkRat (Text.digitsValue percent) 100) (hshortest : alpha.IsShortest) :
      IsShown ("#" ++ Text.hex 2 red ++ Text.hex 2 green ++ Text.hex 2 blue) (some percent)
        ("rgba(" ++ Text.join ", " [Text.decimal red, Text.decimal green, Text.decimal blue,
          alpha.text] ++ ")")

/-! ### Taking a reference to the palette apart -/

namespace Checked

/-- The texts of a reference as it is written. -/
def PaletteTexts.text (texts : PaletteTexts) : Text :=
  texts.name ++ marked "-" texts.shade ++ marked "/" texts.opacity

/-- A name of small letters, a shade of digits, and an opacity of at most three digits. -/
structure PaletteTexts.IsShape (texts : PaletteTexts) : Prop where
  name_ne_nil : texts.name ≠ []
  isLower : ∀ c ∈ texts.name, c.isLower = true
  isShade : ∀ s ∈ texts.shade, s ≠ [] ∧ ∀ c ∈ s, c.isDigit = true
  isOpacity : ∀ o ∈ texts.opacity, isDigits 1 3 o = true

theorem opacityText?_eq_some_iff {s : Text} {opacity : Option Text} :
    opacityText? s = some opacity ↔
      s = marked "/" opacity ∧ ∀ o ∈ opacity, isDigits 1 3 o = true := by
  constructor
  · intro h
    refine ⟨?_, isDigits_of_opacityText? h⟩
    rw [opacityText?.eq_def] at h
    split at h
    · rw [← Option.some.inj h]
      rfl
    · obtain ⟨-, h⟩ := Option.ite_none_right_eq_some.mp h
      rw [← Option.some.inj h]
      rfl
    · exact absurd h (by simp)
  · rintro ⟨rfl, hdigits⟩
    cases opacity with
    | none => rfl
    | some o => exact if_pos (hdigits o rfl)

theorem readShade_marked {shade opacity : Option Text}
    (h : ∀ d ∈ shade, d ≠ [] ∧ ∀ c ∈ d, c.isDigit = true) :
    PaletteRef.readShade (marked "-" shade ++ marked "/" opacity) =
      (shade, marked "/" opacity) := by
  cases shade with
  | none => cases opacity <;> rfl
  | some d =>
    obtain ⟨hne, hdigits⟩ := h d rfl
    have hspan : (d ++ marked "/" opacity).span CodePoint.isDigit = (d, marked "/" opacity) := by
      refine Text.span_eq_iff.mpr ⟨rfl, hdigits, fun c hc => ?_⟩
      rw [head?_marked hc]
      rfl
    show PaletteRef.readShade (.char '-' :: (d ++ marked "/" opacity)) = _
    rw [PaletteRef.readShade]
    simp only [hspan, if_neg hne]

theorem head?_append_marked {s t : Option Text} {c : CodePoint}
    (h : c ∈ (marked "-" s ++ marked "/" t).head?) : c.isLower = false := by
  cases s with
  | none =>
    have hc : c = '/' := head?_marked h
    rw [hc]
    rfl
  | some s =>
    rw [← Option.some.inj h]
    rfl

/-- A reference is read from its texts, and from nothing else. -/
theorem paletteTexts?_eq_some_iff {s : Text} {texts : PaletteTexts} :
    paletteTexts? s = some texts ↔ s = texts.text ∧ texts.IsShape := by
  constructor
  · intro h
    rcases hspan : s.span CodePoint.isLower with ⟨name, rest⟩
    obtain ⟨rfl, hlower, -⟩ := Text.span_eq_iff.mp hspan
    rw [paletteTexts?, hspan] at h
    obtain ⟨hne, h⟩ := Option.ite_none_left_eq_some.mp h
    rcases hshade : PaletteRef.readShade rest with ⟨shade, left⟩
    rw [hshade] at h
    obtain ⟨opacity, hopacity, h⟩ := Option.bind_eq_some_iff.mp h
    obtain rfl := Option.some.inj h
    obtain ⟨rfl, hdigits⟩ := PaletteRef.eq_of_readShade hshade
    obtain ⟨rfl, hpercent⟩ := opacityText?_eq_some_iff.mp hopacity
    exact ⟨(List.append_assoc _ _ _).symm, hne, hlower, hdigits, hpercent⟩
  · rintro ⟨rfl, hshape⟩
    have hspan : texts.text.span CodePoint.isLower =
        (texts.name, marked "-" texts.shade ++ marked "/" texts.opacity) :=
      Text.span_eq_iff.mpr
        ⟨List.append_assoc _ _ _, hshape.isLower, fun c hc => head?_append_marked hc⟩
    have hopacity := opacityText?_eq_some_iff.mpr ⟨rfl, hshape.isOpacity⟩
    rw [paletteTexts?, hspan]
    simp only [if_neg hshape.name_ne_nil, readShade_marked hshape.isShade, hopacity,
      Option.bind_eq_bind, Option.bind_some]

end Checked

/-! ### What is shown -/

/-- The value of a component is the one of its two digits. -/
theorem component_hex (n : Fin 256) : component (Text.hex 2 n) = .ok (Text.decimal n) := by
  have hn := n.isLt
  rw [hex_two hn, Checked.component_hexDigits (hexDigit?_hexDigit (by omega))
    (hexDigit?_hexDigit (Nat.mod_lt _ (by decide))), Nat.div_add_mod]

theorem exists_hexDigit : ∀ c ∈ paletteDigits.map CodePoint.char, ∃ n < 16, c = hexDigit n := by
  decide

theorem exists_hex {a b : Char} (ha : a ∈ paletteDigits) (hb : b ∈ paletteDigits) :
    ∃ n : Fin 256, [CodePoint.char a, .char b] = Text.hex 2 n := by
  obtain ⟨x, hx, hax⟩ := exists_hexDigit _ (List.mem_map_of_mem ha)
  obtain ⟨y, hy, hby⟩ := exists_hexDigit _ (List.mem_map_of_mem hb)
  have hn : 16 * x + y < 256 := by omega
  have hhigh : (16 * x + y) / 16 = x := by omega
  have hlow : (16 * x + y) % 16 = y := by omega
  refine ⟨⟨16 * x + y, hn⟩, ?_⟩
  rw [hex_two hn, hhigh, hlow, hax, hby]

/-- An entry of the palette can be shown under every opacity in percent. -/
theorem exists_isShown {entry : Text} {opacity : Option Text} (hentry : IsPaletteValue entry)
    (hopacity : ∀ o ∈ opacity, Text.digitsValue o ≤ 100) : ∃ value, IsShown entry opacity value := by
  cases opacity with
  | none => exact ⟨entry, .plain entry⟩
  | some percent =>
    rcases hentry with rfl | ⟨digits, hlength, hdigits, rfl⟩
    · exact ⟨_, .transparent percent⟩
    · obtain ⟨alpha, hvalue, hshortest, -⟩ := exists_percentNumeral (hopacity percent rfl)
      obtain ⟨r₁, r₂, g₁, g₂, b₁, b₂, rfl⟩ :
          ∃ r₁ r₂ g₁ g₂ b₁ b₂, digits = [r₁, r₂, g₁, g₂, b₁, b₂] := by
        match digits, hlength with
        | [r₁, r₂, g₁, g₂, b₁, b₂], _ => exact ⟨r₁, r₂, g₁, g₂, b₁, b₂, rfl⟩
      simp only [List.mem_cons, List.not_mem_nil, or_false, forall_eq_or_imp, forall_eq] at hdigits
      obtain ⟨hr₁, hr₂, hg₁, hg₂, hb₁, hb₂⟩ := hdigits
      obtain ⟨red, hred⟩ := exists_hex hr₁ hr₂
      obtain ⟨green, hgreen⟩ := exists_hex hg₁ hg₂
      obtain ⟨blue, hblue⟩ := exists_hex hb₁ hb₂
      have hentry : (CodePoint.char '#' :: [r₁, r₂, g₁, g₂, b₁, b₂].map .char : Text) =
          "#" ++ Text.hex 2 red ++ Text.hex 2 green ++ Text.hex 2 blue := by
        rw [← hred, ← hgreen, ← hblue]
        rfl
      rw [hentry]
      exact ⟨_, .mixed red green blue percent alpha hvalue hshortest⟩

/-- The three pairs of digits are converted one by one. -/
theorem rgba_hex (red green blue : Fin 256) (x : Number.Binary64) :
    rgba ("#" ++ Text.hex 2 red ++ Text.hex 2 green ++ Text.hex 2 blue) (.real x) =
      .ok ("rgba(" ++ Text.join ", " [Text.decimal red, Text.decimal green, Text.decimal blue,
        x.general] ++ ")") := by
  have hred := component_hex red
  have hgreen := component_hex green
  have hblue := component_hex blue
  rw [hex_two red.isLt] at hred ⊢
  rw [hex_two green.isLt] at hgreen ⊢
  rw [hex_two blue.isLt] at hblue ⊢
  show rgba [.char '#', _, _, _, _, _, _] _ = _
  rw [rgba, hred, hgreen, hblue]
  rfl

/-- The value of a reference is what is shown of its entry. -/
theorem PaletteRef.value?_of_isShown {name entry value : Text} {shade opacity : Option Text}
    (hentry : paletteColor? name shade = some entry)
    (hopacity : ∀ o ∈ opacity, Text.digitsValue o ≤ 100) (hshown : IsShown entry opacity value) :
    PaletteRef.value? ⟨name, shade, opacity.map Text.digitsValue⟩ = some value := by
  rw [PaletteRef.value?, Option.bind_eq_bind, hentry, Option.bind_some]
  cases hshown with
  | plain => rfl
  | transparent percent => exact if_neg (Nat.not_lt.mpr (hopacity percent rfl))
  | mixed red green blue percent alpha hvalue hshortest =>
    -- the numeral of the opacity is the shortest of its value, and so is the one that is shown
    obtain ⟨n, hn, hnshortest, hgeneral⟩ := exists_percentNumeral (hopacity percent rfl)
    obtain rfl : n = alpha := hnshortest.eq hshortest (hn.trans hvalue.symm)
    show (if 100 < Text.digitsValue percent then none else _) = _
    rw [if_neg (Nat.not_lt.mpr (hopacity percent rfl)), rgba_hex, hgeneral]
    rfl

/-! ### The palette -/

/-- The names of the palette are rows of small letters that no text style has. -/
theorem palette_isName : ∀ e ∈ palette,
    e.1 ≠ [] ∧ (∀ c ∈ e.1, c.isLower = true) ∧ Color.isTextStyle e.1 = false := by
  decide +kernel

theorem palette_shade_ne_nil : ∀ e ∈ palette, ∀ shade ∈ e.2, shade.1 ≠ [] := by
  decide +kernel

theorem palette_hasDefault : ∀ e ∈ palette,
    ((e.2.lookup ("500" : Text)).or (e.2.lookup ("DEFAULT" : Text))).isSome := by
  decide +kernel

namespace PaletteSpelling

theorem color?_eq (p : PaletteSpelling) : p.color? = paletteColor? p.name p.shade := by
  rw [paletteColor?, p.lookup_name, Option.bind_eq_bind, Option.bind_some, color?]
  cases p.shade with
  | some shade => rfl
  | none =>
    rw [Option.getD_none, defaultShade]
    cases h : p.shades.lookup ("500" : Text) with
    | none => rfl
    | some value => exact h.symm

theorem exists_entry (p : PaletteSpelling) :
    ∃ entry, p.color? = some entry ∧ IsPaletteValue entry := by
  have hmem := mem_of_lookup p.lookup_name
  have hsome : p.color?.isSome := by
    rw [color?]
    cases hshade : p.shade with
    | none => exact palette_hasDefault _ hmem
    | some shade => exact (p.isShade shade hshade).2
  obtain ⟨entry, hentry⟩ := Option.isSome_iff_exists.mp hsome
  have hcolor := hentry
  rw [color?_eq, paletteColor?, p.lookup_name] at hcolor
  exact ⟨entry, hentry, palette_values _ hmem _ (mem_of_lookup hcolor)⟩

/-- The texts between the marks. -/
def texts (p : PaletteSpelling) : Checked.PaletteTexts :=
  ⟨p.name, p.shade, p.opacity⟩

theorem isShape_texts (p : PaletteSpelling) : p.texts.IsShape := by
  have hmem := mem_of_lookup p.lookup_name
  obtain ⟨hname, hlower, -⟩ := palette_isName _ hmem
  refine ⟨hname, hlower, fun s hs => ?_, fun o ho => (p.isOpacity o ho).1⟩
  obtain ⟨hdigits, hkey⟩ := p.isShade s hs
  obtain ⟨value, hvalue⟩ := Option.isSome_iff_exists.mp hkey
  exact ⟨palette_shade_ne_nil _ hmem _ (mem_of_lookup hvalue), hdigits⟩

/-- The token is read as a colour of the value that is shown. -/
theorem ofToken?_token (p : PaletteSpelling) {entry value : Text} (hentry : p.color? = some entry)
    (hshown : IsShown entry p.opacity value) :
    Color.ofToken? p.token = some ⟨p.target, value⟩ := by
  have hread : PaletteRef.read? p.texts.text = some p.texts.ref := by
    rw [Checked.paletteTexts?_eq, Checked.paletteTexts?_eq_some_iff.mpr ⟨rfl, p.isShape_texts⟩]
    rfl
  obtain ⟨-, -, hstyle⟩ := palette_isName _ (mem_of_lookup p.lookup_name)
  have hvalue : p.texts.ref.value? = some value := by
    rw [color?_eq] at hentry
    exact PaletteRef.value?_of_isShown hentry (fun o ho => (p.isOpacity o ho).2) hshown
  have hnot : ¬(p.target = .text ∧ Color.isTextStyle p.texts.ref.name = true) := fun h =>
    absurd (hstyle.symm.trans h.2) (by decide)
  show Color.ofToken? (p.target.keyword ++ p.texts.text) = _
  rw [Color.ofToken?, ColorTarget.read?_keyword, Option.bind_eq_bind, Option.bind_some]
  simp only [hread, if_neg hnot, hvalue, Option.map_some]

end PaletteSpelling

namespace HexSpelling

theorem ofToken?_token (h : HexSpelling) :
    Color.ofToken? h.token = some ⟨h.target, "#" ++ h.digits⟩ := by
  have hread (s : Text) : PaletteRef.read? (.char '[' :: s) = none := by
    have hspan : (CodePoint.char '[' :: s).span CodePoint.isLower = ([], .char '[' :: s) :=
      Text.span_eq_iff.mpr ⟨rfl, List.forall_mem_nil _, fun c hc => by
        rw [← Option.some.inj hc]
        rfl⟩
    rw [PaletteRef.read?, hspan]
    rfl
  have hcolor : hexColor? (bracketed ("#" ++ h.digits)) = some ("#" ++ h.digits) :=
    hexColor?_eq_some_iff.mpr ⟨h.digits, h.length_digits, h.isHexDigit, rfl, rfl⟩
  rw [token, Color.ofToken?, ColorTarget.read?_keyword, Option.bind_eq_bind, Option.bind_some]
  rw [bracketed] at hcolor ⊢
  simp only [hread, hcolor, Option.map_some]

end HexSpelling

/-! ### Tokens that are read -/

/-- A reference with a value is spelled by a name, a shade and an opacity of the palette. -/
theorem PaletteRef.exists_spelling {target : ColorTarget} {rest value : Text} {ref : PaletteRef}
    (href : PaletteRef.read? rest = some ref) (hvalue : ref.value? = some value) :
    ∃ p : PaletteSpelling, p.token = target.keyword ++ rest := by
  rw [Checked.paletteTexts?_eq] at href
  obtain ⟨texts, htexts, rfl⟩ := Option.map_eq_some_iff.mp href
  obtain ⟨rfl, hshape⟩ := Checked.paletteTexts?_eq_some_iff.mp htexts
  obtain ⟨entry, hentry, hvalue⟩ := Option.bind_eq_some_iff.mp hvalue
  obtain ⟨shades, hname, hshade⟩ := Option.bind_eq_some_iff.mp hentry
  refine ⟨⟨target, texts.name, shades, texts.shade, texts.opacity, hname, fun s hs => ?_,
    fun o ho => ⟨hshape.isOpacity o ho, ?_⟩⟩, rfl⟩
  · refine ⟨(hshape.isShade s hs).2, Option.isSome_iff_exists.mpr ⟨entry, ?_⟩⟩
    rw [← hshade, Checked.PaletteTexts.ref, Option.mem_def.mp hs]
    rfl
  · rw [Checked.PaletteTexts.ref, Option.mem_def.mp ho] at hvalue
    obtain ⟨hle, -⟩ := Option.ite_none_left_eq_some.mp hvalue
    exact Nat.not_lt.mp hle

theorem Color.exists_spelling {token : Text} {u : Color} (h : Color.ofToken? token = some u) :
    (∃ p : PaletteSpelling, p.token = token) ∨ ∃ h : HexSpelling, h.token = token := by
  obtain ⟨⟨target, rest⟩, htarget, hrest⟩ := Option.bind_eq_some_iff.mp h
  obtain rfl := ColorTarget.read?_eq_some htarget
  dsimp only at hrest
  split at hrest
  · rename_i ref href
    obtain ⟨-, hrest⟩ := Option.ite_none_left_eq_some.mp hrest
    obtain ⟨value, hvalue, -⟩ := Option.map_eq_some_iff.mp hrest
    exact .inl (PaletteRef.exists_spelling href hvalue)
  · obtain ⟨value, hvalue, -⟩ := Option.map_eq_some_iff.mp hrest
    obtain ⟨digits, hlength, hdigits, rfl, -⟩ := hexColor?_eq_some_iff.mp hvalue
    exact .inr ⟨⟨target, digits, hlength, hdigits⟩, rfl⟩

/-! ### The grammar -/

theorem Color.written?_eq (token : Text) :
    Family.written? token .color =
      (Color.ofToken? token).map fun u => (u.target.property ++ ": " ++ u.value : Text) := by
  refine Family.written?_of_read? .color rfl fun u => ?_
  exact declarationText_singleton ⟨u.target.property, u.value⟩

/-- The tokens that are colours are exactly the spellings of the two kinds.  A colour of the
palette declares its entry as it is shown under the opacity, and a colour in brackets its
digits. -/
theorem color_grammar :
    (∀ token : Text, (Family.written? token .color).isSome ↔
      (∃ p : PaletteSpelling, p.token = token) ∨ ∃ h : HexSpelling, h.token = token) ∧
    (∀ (p : PaletteSpelling) (text : Text), Family.written? p.token .color = some text ↔
      ∃ entry value, p.color? = some entry ∧ IsShown entry p.opacity value ∧
        text = p.target.property ++ ": " ++ value) ∧
    (∀ h : HexSpelling, Family.written? h.token .color =
      some (h.target.property ++ ": #" ++ h.digits)) := by
  have hexists (p : PaletteSpelling) : ∃ entry value,
      p.color? = some entry ∧ IsShown entry p.opacity value := by
    obtain ⟨entry, hentry, hvalue⟩ := p.exists_entry
    obtain ⟨value, hshown⟩ := exists_isShown hvalue fun o ho => (p.isOpacity o ho).2
    exact ⟨entry, value, hentry, hshown⟩
  have hwritten (p : PaletteSpelling) {entry value : Text} (hentry : p.color? = some entry)
      (hshown : IsShown entry p.opacity value) :
      Family.written? p.token .color = some (p.target.property ++ ": " ++ value) := by
    rw [Color.written?_eq, p.ofToken?_token hentry hshown]
    rfl
  have hbracket (h : HexSpelling) : Family.written? h.token .color =
      some (h.target.property ++ ": #" ++ h.digits) := by
    rw [Color.written?_eq, h.ofToken?_token]
    simp only [Option.map_some, List.append_assoc]
    rfl
  refine ⟨fun token => ⟨fun h => ?_, ?_⟩, fun p text => ⟨fun h => ?_, ?_⟩, hbracket⟩
  · rw [Color.written?_eq, Option.isSome_map] at h
    obtain ⟨u, hu⟩ := Option.isSome_iff_exists.mp h
    exact Color.exists_spelling hu
  · rintro (⟨p, rfl⟩ | ⟨h, rfl⟩)
    · obtain ⟨entry, value, hentry, hshown⟩ := hexists p
      rw [hwritten p hentry hshown]
      rfl
    · rw [hbracket h]
      rfl
  · -- there is something to be shown, and it is what is written
    obtain ⟨entry, value, hentry, hshown⟩ := hexists p
    refine ⟨entry, value, hentry, hshown, ?_⟩
    exact Option.some.inj (h.symm.trans (hwritten p hentry hshown))
  · rintro ⟨entry, value, hentry, hshown, rfl⟩
    exact hwritten p hentry hshown

/-- White under an opacity with a zero in front, and short digits in brackets. -/
theorem color_grammar_white :
    Family.written? "bg-white/05" .color =
        some "background-color: rgba(255, 255, 255, 0.05)" ∧
      Family.written? "text-[#Fa0]" .color = some "color: #Fa0" := by
  obtain ⟨-, hpalette, hbracket⟩ := color_grammar
  let white : PaletteSpelling :=
    ⟨.background, "white", [("DEFAULT", "#ffffff")], none, some "05", by decide +kernel,
      fun s hs => absurd hs (by simp), fun o ho => by
        rw [← Option.some.inj ho]
        decide +kernel⟩
  let alpha : DecimalNumeral := ⟨"0", "05", by decide, by decide⟩
  have hshortest : alpha.IsShortest :=
    DecimalNumeral.isShortest_of_whole rfl (by decide)
  have hshown := IsShown.mixed 255 255 255 "05" alpha (by decide +kernel) hshortest
  let orange : HexSpelling :=
    ⟨.text, "Fa0", by decide +kernel, by decide +kernel⟩
  constructor
  · have hentry : white.color? = some ↑"#ffffff" := by decide +kernel
    exact (hpalette white _).mpr ⟨_, _, hentry, hshown, rfl⟩
  · exact hbracket orange

end UtilityCss
