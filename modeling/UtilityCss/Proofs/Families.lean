/-
What the families read and declare.

Tokens that a family reads begin like a name and are spelled as keyword characters with at most
one bracket group at the end.  What they declare is read from them: a token without brackets
declares tame values, one with a bracket group what is in the brackets.

* `Declaration.IsReadFrom`, `IsUtility` — the promise of all families;
* `Color.isUtility`, …, `Literal.isUtility` — each family keeps it;
* `Utility.isUtility` — so does the search through all families;
* `Utility.isBetweenChildren_iff` — tokens that begin with `space-x-` or `space-y-`
  are the ones that reach the children.
-/
import UtilityCss.Proofs.LiteralTable
import UtilityCss.Proofs.Spelling
import UtilityCss.Utility.Basic

namespace UtilityCss

/-! ### The promise -/

/-- A declaration whose value is read from a text. -/
structure Declaration.IsReadFrom (raw : Text) (d : Declaration) : Prop where
  property : IsProperty d.property
  reading : IsReading raw d.value

/-- What the reader of every family promises: how the token begins, and that what it declares is
read from the token. -/
structure IsUtility (token : Text) (declarations : List Declaration) : Prop where
  beginsName : beginsName token = true
  ne_nil : declarations ≠ []
  isReadFrom : ∀ d ∈ declarations, d.IsReadFrom token

theorem IsUtility.spelling {token : Text} {declarations : List Declaration}
    (h : IsUtility token declarations) : IsSpelling token := by
  obtain ⟨d, hd⟩ := List.exists_mem_of_ne_nil _ h.ne_nil
  exact (h.isReadFrom d hd).reading.spelling

theorem IsUtility.wellFormed {token : Text} {declarations : List Declaration}
    (h : IsUtility token declarations) : ∀ d ∈ declarations, d.WellFormed := fun d hd =>
  ⟨(h.isReadFrom d hd).property, (h.isReadFrom d hd).reading.isValue⟩

theorem IsUtility.of_keyword {keyword raw : Text} {declarations : List Declaration}
    (hkeyword : UtilityCss.beginsName keyword = true ∧ IsKey keyword)
    (hne : declarations ≠ []) (hd : ∀ d ∈ declarations, d.IsReadFrom raw) :
    IsUtility (keyword ++ raw) declarations where
  beginsName := beginsName_append raw hkeyword.1
  ne_nil := hne
  isReadFrom d h := ⟨(hd d h).property, (hd d h).reading.append hkeyword.2⟩

theorem isReadFrom_singleton {raw property value : Text} (hp : IsProperty property)
    (hv : IsReading raw value) : ∀ d ∈ [(⟨property, value⟩ : Declaration)], d.IsReadFrom raw :=
  List.forall_mem_singleton.mpr ⟨hp, hv⟩

theorem IsProperty.append {s t : Text} (hs : IsProperty s)
    (ht : ∀ c ∈ t, isPropertyChar c = true) : IsProperty (s ++ t) :=
  ⟨fun h => hs.1 (List.append_eq_nil_iff.mp h).1, List.forall_mem_append.mpr ⟨hs.2, ht⟩⟩

/-! ### Sides -/

theorem isProperty_edgeName (e : Edge) : IsProperty e.name := by
  cases e <;> exact isProperty_ofString rfl

/-- A side has properties, and all of them have a name. -/
theorem Side.properties_wellFormed {stem tail : Text} (hstem : IsProperty stem)
    (htail : ∀ c ∈ tail, isPropertyChar c = true) (side : Side) :
    side.properties stem tail ≠ [] ∧ ∀ p ∈ side.properties stem tail, IsProperty p := by
  have hedges (edges : List Edge) :
      ∀ p ∈ edges.map fun e => stem ++ "-" ++ e.name ++ tail, IsProperty p := by
    intro p hp
    obtain ⟨e, -, rfl⟩ := List.mem_map.mp hp
    refine ((hstem.append ?_).append (isProperty_edgeName e).2).append htail
    exact Text.forall_mem_ofString rfl
  cases side with
  | all => exact ⟨by simp [properties], by simpa [properties] using hstem.append htail⟩
  | axis a => cases a <;> exact ⟨by simp [properties, edges], hedges _⟩
  | edge e => exact ⟨by simp [properties, edges], hedges _⟩

/-- All properties of a side are given one value. -/
theorem Side.declarations_isReadFrom {stem tail raw value : Text} (hstem : IsProperty stem)
    (htail : ∀ c ∈ tail, isPropertyChar c = true) (hvalue : IsReading raw value) (side : Side) :
    ((side.properties stem tail).map (⟨·, value⟩ : Text → Declaration)) ≠ [] ∧
      ∀ d ∈ (side.properties stem tail).map (⟨·, value⟩ : Text → Declaration),
        d.IsReadFrom raw := by
  obtain ⟨hne, hp⟩ := Side.properties_wellFormed hstem htail side
  refine ⟨by simpa using hne, fun d hd => ?_⟩
  obtain ⟨p, hmem, rfl⟩ := List.mem_map.mp hd
  exact ⟨hp p hmem, hvalue⟩

/-! ### Colours and type sizes -/

theorem ColorTarget.keyword_wellFormed (target : ColorTarget) :
    UtilityCss.beginsName target.keyword = true ∧ IsKey target.keyword := by
  cases target <;> exact keyword_ofString rfl

theorem ColorTarget.isProperty (target : ColorTarget) : IsProperty target.property := by
  cases target <;> exact isProperty_ofString rfl

theorem ColorTarget.read?_eq_some {token rest : Text} {target : ColorTarget}
    (h : ColorTarget.read? token = some (target, rest)) : token = target.keyword ++ rest := by
  obtain ⟨candidate, -, h⟩ := List.exists_of_findSome?_eq_some h
  obtain ⟨tail, htail, heq⟩ := Option.map_eq_some_iff.mp h
  obtain ⟨rfl, rfl⟩ := Prod.mk.inj heq
  exact Text.consume?_eq_some_iff.mp htail

theorem Color.isUtility {token : Text} {u : Color} (h : Color.ofToken? token = some u) :
    IsUtility token u.declarations := by
  rw [Color.ofToken?, Option.bind_eq_bind, Option.bind_eq_some_iff] at h
  obtain ⟨⟨target, rest⟩, htarget, h⟩ := h
  obtain rfl := ColorTarget.read?_eq_some htarget
  dsimp only at h
  suffices hrest : u.target = target ∧ IsReading rest u.value by
    obtain ⟨rfl, hvalue⟩ := hrest
    exact .of_keyword u.target.keyword_wellFormed (by simp [Color.declarations])
      (isReadFrom_singleton u.target.isProperty hvalue)
  -- a reference to the palette goes before a colour in brackets
  split at h
  · rename_i ref href
    obtain ⟨-, h⟩ := Option.ite_none_left_eq_some.mp h
    obtain ⟨value, hvalue, rfl⟩ := Option.map_eq_some_iff.mp h
    exact ⟨rfl, .fixed (PaletteRef.isKey_of_read? href) (PaletteRef.isTame_of_value? hvalue)⟩
  · obtain ⟨value, hvalue, rfl⟩ := Option.map_eq_some_iff.mp h
    exact ⟨rfl, hexColor?_reading hvalue⟩

theorem FontSize.isUtility {token : Text} {u : FontSize} (h : FontSize.ofToken? token = some u) :
    IsUtility token u.declarations := by
  simp only [FontSize.ofToken?, Option.bind_eq_bind, Option.bind_eq_some_iff] at h
  obtain ⟨key, hkey, ⟨size, lineHeight⟩, hsize, h⟩ := h
  obtain rfl := Option.some.inj h
  obtain rfl := Text.consume?_eq_some_iff.mp hkey
  obtain ⟨hkey, hsize, hheight⟩ := fontSizes_wellFormed _ (mem_of_lookup hsize)
  refine .of_keyword (keyword_ofString rfl) (by simp [FontSize.declarations])
    (List.forall_mem_cons.mpr ⟨⟨?_, .fixed hkey hsize.isTame⟩, ?_⟩)
  · exact isProperty_ofString rfl
  · exact isReadFrom_singleton (isProperty_ofString rfl) (.fixed hkey hheight.isTame)

/-! ### Padding and margin -/

theorem SpacingKind.isProperty (kind : SpacingKind) : IsProperty kind.property := by
  cases kind <;> exact isProperty_ofString rfl

theorem SpacingKind.isAlpha_of_ofLetter? {c : CodePoint} {kind : SpacingKind}
    (h : SpacingKind.ofLetter? c = some kind) : c.isAlpha = true ∧ c ≠ '-' := by
  rw [SpacingKind.ofLetter?.eq_def] at h
  split at h
  · exact ⟨rfl, by decide⟩
  · exact ⟨rfl, by decide⟩
  · exact absurd h (by simp)

theorem isLower_of_mem_sideLetters {c : CodePoint} (h : c ∈ sideLetters.map .char) :
    c.isLower = true := by
  have hall : ∀ c ∈ sideLetters.map CodePoint.char, c.isLower = true := by decide
  exact hall c h

theorem Edge.isLower_of_ofLetter? {c : CodePoint} {e : Edge} (h : Edge.ofLetter? c = some e) :
    c.isLower = true :=
  isLower_of_mem_sideLetters (Edge.mem_sideLetters h)

theorem Axis.isLower_of_ofLetter? {c : CodePoint} {a : Axis} (h : Axis.ofLetter? c = some a) :
    c.isLower = true :=
  isLower_of_mem_sideLetters (Axis.mem_sideLetters h)

theorem Side.isLower_of_ofLetter? {c : CodePoint} {side : Side}
    (h : Side.ofLetter? c = some side) : c.isLower = true :=
  isLower_of_mem_sideLetters (Side.mem_sideLetters h)

theorem isStemChar_of_isLower {c : CodePoint} (h : c.isLower = true) : isStemChar c = true :=
  isStemChar_of_isAlphanum (isAlphanum_of_isLower h)

theorem Spacing.reading_of_readSide? {s raw value : Text} {side : Side}
    (h : Spacing.readSide? s = some (side, raw)) (hraw : IsReading raw value) :
    IsReading s value := by
  rw [Spacing.readSide?.eq_def] at h
  split at h
  · obtain ⟨-, rfl⟩ := Prod.mk.inj (Option.some.inj h)
    exact .cons rfl hraw
  · obtain ⟨side, hside, heq⟩ := Option.map_eq_some_iff.mp h
    obtain ⟨-, rfl⟩ := Prod.mk.inj heq
    exact .cons (isStemChar_of_isLower (Side.isLower_of_ofLetter? hside)) (.cons rfl hraw)
  · exact absurd h (by simp)

theorem Spacing.reading_signed {negative : Bool} {raw value : Text} (h : IsReading raw value) :
    IsReading raw (Spacing.signed negative value) := by
  rw [Spacing.signed]
  split
  · exact h.neg
  · exact h

/-- After the sign there is a letter, and what is declared is read from there. -/
theorem Spacing.reading_of_read? {negative : Bool} {s : Text} {u : Spacing}
    (h : Spacing.read? negative s = some u) :
    (∃ c rest, s = c :: rest ∧ c.isAlpha = true ∧ c ≠ '-') ∧ IsReading s u.value := by
  rw [Spacing.read?.eq_def] at h
  split at h
  · exact absurd h (by simp)
  · rename_i c rest
    simp only [Option.bind_eq_bind, Option.bind_eq_some_iff] at h
    obtain ⟨kind, hkind, h⟩ := h
    obtain ⟨-, h⟩ := Option.ite_none_left_eq_some.mp h
    obtain ⟨⟨side, raw⟩, hside, h⟩ := Option.bind_eq_some_iff.mp h
    obtain ⟨value, hvalue, h⟩ := Option.bind_eq_some_iff.mp h
    obtain rfl := Option.some.inj h
    obtain ⟨halpha, hne⟩ := SpacingKind.isAlpha_of_ofLetter? hkind
    have hrest := Spacing.reading_of_readSide? hside (spacingValue?_reading hvalue)
    refine ⟨⟨c, rest, rfl, halpha, hne⟩, Spacing.reading_signed (.cons ?_ hrest)⟩
    exact isStemChar_of_isAlphanum (isAlphanum_of_isAlpha halpha)

theorem Spacing.isUtility {token : Text} {u : Spacing} (h : Spacing.ofToken? token = some u) :
    IsUtility token u.declarations := by
  suffices hs : beginsName token = true ∧ IsReading token u.value by
    have htail : ∀ c ∈ Text.ofString "", isPropertyChar c = true :=
      Text.forall_mem_ofString rfl
    obtain ⟨hne, hd⟩ := Side.declarations_isReadFrom u.kind.isProperty htail hs.2 u.side
    exact ⟨hs.1, hne, hd⟩
  rw [Spacing.ofToken?.eq_def] at h
  -- with a sign, the hyphen is followed by the letter of the kind
  split at h
  · obtain ⟨⟨c, rest, rfl, halpha, -⟩, hvalue⟩ := Spacing.reading_of_read? h
    exact ⟨halpha, hvalue.cons rfl⟩
  · obtain ⟨⟨c, rest, rfl, halpha, hne⟩, hvalue⟩ := Spacing.reading_of_read? h
    exact ⟨by simpa [beginsName, hne] using halpha, hvalue⟩

/-! ### Width and height -/

theorem Dimension.isProperty (d : Dimension) : IsProperty d.property := by
  cases d <;> exact isProperty_ofString rfl

theorem Dimension.isAlpha_of_ofLetter? {c : CodePoint} {d : Dimension}
    (h : Dimension.ofLetter? c = some d) : c.isAlpha = true ∧ c ≠ '-' := by
  rw [Dimension.ofLetter?.eq_def] at h
  split at h
  · exact ⟨rfl, by decide⟩
  · exact ⟨rfl, by decide⟩
  · exact absurd h (by simp)

theorem Dimension.reading_of_value? {d : Dimension} {raw value : Text}
    (h : d.value? raw = some value) : IsReading raw value := by
  simp only [Dimension.value?, Option.orElse_eq_orElse, Option.orElse_eq_or,
    Option.or_eq_some_iff, Option.ite_none_right_eq_some] at h
  rcases h with h | ⟨-, ⟨rfl, h⟩ | ⟨-, h | ⟨-, h⟩⟩⟩
  · obtain ⟨hkey, hvalue⟩ := spacingScale_wellFormed _ (mem_of_lookup h)
    exact .fixed hkey hvalue.isTame
  · refine .fixed (keyword_ofString rfl).2 ?_
    rw [← Option.some.inj h]
    cases d <;> exact isTame_ofString rfl
  · exact fraction?_reading h
  · exact bracketValue?_reading h

theorem Extent.isUtility {token : Text} {u : Extent} (h : Extent.ofToken? token = some u) :
    IsUtility token u.declarations := by
  rw [Extent.ofToken?.eq_def] at h
  split at h
  · rename_i c raw
    simp only [Option.bind_eq_bind, Option.bind_eq_some_iff] at h
    obtain ⟨d, hd, value, hvalue, h⟩ := h
    obtain rfl := Option.some.inj h
    obtain ⟨halpha, hne⟩ := Dimension.isAlpha_of_ofLetter? hd
    have hreading := (Dimension.reading_of_value? hvalue).cons (c := '-') rfl
    refine ⟨by simpa [beginsName, hne] using halpha, by simp [Extent.declarations],
      isReadFrom_singleton d.isProperty (hreading.cons ?_)⟩
    exact isStemChar_of_isAlphanum (isAlphanum_of_isAlpha halpha)
  · exact absurd h (by simp)

theorem MaxWidth.isUtility {token : Text} {u : MaxWidth} (h : MaxWidth.ofToken? token = some u) :
    IsUtility token u.declarations := by
  simp only [MaxWidth.ofToken?, Option.bind_eq_bind, Option.bind_eq_some_iff,
    Option.orElse_eq_orElse, Option.orElse_eq_or, Option.or_eq_some_iff] at h
  obtain ⟨raw, hraw, value, hvalue, h⟩ := h
  obtain rfl := Option.some.inj h
  obtain rfl := Text.consume?_eq_some_iff.mp hraw
  have hreading : IsReading raw value := by
    rcases hvalue with hvalue | ⟨-, hvalue⟩
    · obtain ⟨hkey, hvalue⟩ := maxWidthScale_wellFormed _ (mem_of_lookup hvalue)
      exact .fixed hkey hvalue.isTame
    · exact bracketValue?_reading hvalue
  exact .of_keyword (keyword_ofString rfl) (by simp [MaxWidth.declarations])
    (isReadFrom_singleton (isProperty_ofString rfl) hreading)

/-! ### Borders -/

theorem Corner.isProperty (c : Corner) : IsProperty c.name := by
  cases c <;> exact isProperty_ofString rfl

theorem Corners.isKey_of_ofText? {part : Text} {corners : Corners}
    (h : Corners.ofText? part = some corners) : IsKey part := by
  rw [Corners.ofText?.eq_def] at h
  split at h
  case h_5 =>
    rename_i c
    obtain ⟨e, he, -⟩ := Option.map_eq_some_iff.mp h
    refine List.forall_mem_cons.mpr ⟨?_, List.forall_mem_nil _⟩
    exact isStemChar_of_isLower (Edge.isLower_of_ofLetter? he)
  case h_6 => exact absurd h (by simp)
  all_goals decide

/-- The parts after `rounded` are the size, unless it is left out, and corners. -/
theorem Radius.isKey_of_mem_parts {parts : List Text} {size : Text} {corners : Option Corners}
    (h : Radius.readParts? parts = some (size, corners)) (hsize : IsKey size) :
    ∀ part ∈ parts, IsKey part := by
  rw [Radius.readParts?.eq_def] at h
  obtain ⟨-, h⟩ := Option.ite_none_left_eq_some.mp h
  split at h
  · exact List.forall_mem_nil _
  · rename_i part
    refine List.forall_mem_cons.mpr ⟨?_, List.forall_mem_nil _⟩
    split at h
    · exact Corners.isKey_of_ofText? ‹_›
    · obtain ⟨rfl, -⟩ := Prod.mk.inj (Option.some.inj h)
      exact hsize
  · rename_i size part
    obtain ⟨corners, hcorners, heq⟩ := Option.map_eq_some_iff.mp h
    obtain ⟨rfl, -⟩ := Prod.mk.inj heq
    refine List.forall_mem_cons.mpr ⟨hsize, List.forall_mem_cons.mpr ⟨?_, List.forall_mem_nil _⟩⟩
    exact Corners.isKey_of_ofText? hcorners
  · exact absurd h (by simp)

theorem Radius.declarations_isReadFrom {u : Radius} {raw : Text} (h : IsReading raw u.value) :
    u.declarations ≠ [] ∧ ∀ d ∈ u.declarations, d.IsReadFrom raw := by
  rw [Radius.declarations]
  split
  · exact ⟨by simp, isReadFrom_singleton (isProperty_ofString rfl) h⟩
  · rename_i corners _
    refine ⟨?_, fun d hd => ?_⟩
    · rcases corners with c | e
      · simp [Corners.toList]
      · cases e <;> simp [Corners.toList]
    · obtain ⟨c, -, rfl⟩ := List.mem_map.mp hd
      refine ⟨IsProperty.append (IsProperty.append ?_ c.isProperty.2) ?_, h⟩
      · exact isProperty_ofString rfl
      · exact Text.forall_mem_ofString rfl

theorem Radius.isUtility {token : Text} {u : Radius} (h : Radius.ofToken? token = some u) :
    IsUtility token u.declarations := by
  simp only [Radius.ofToken?, Option.bind_eq_bind, Option.bind_eq_some_iff] at h
  obtain ⟨parts, hparts, ⟨size, corners⟩, hread, value, hvalue, h⟩ := h
  obtain rfl := Option.some.inj h
  obtain ⟨hsize, hvalue⟩ := radiusScale_wellFormed _ (mem_of_lookup hvalue)
  obtain rfl := Radius.eq_of_parts? hparts
  have hkey := Radius.isKey_of_mem_parts hread hsize
  have hrest : IsKey (parts.flatMap (CodePoint.char '-' :: ·)) := by
    intro c hc
    obtain ⟨part, hpart, hmem⟩ := List.mem_flatMap.mp hc
    rcases List.mem_cons.mp hmem with rfl | hmem
    · rfl
    · exact hkey part hpart c hmem
  have hreading : IsReading _ value := .fixed hrest hvalue.isTame
  obtain ⟨hne, hd⟩ := Radius.declarations_isReadFrom (u := ⟨corners, value⟩) hreading
  exact .of_keyword (keyword_ofString rfl) hne hd

/-- A side is its letter after a hyphen, before what is left. -/
theorem BorderWidth.eq_of_readSide {s rest : Text} {side : Side} (h : BorderWidth.readSide s = (side, rest)) :
    s = marked "-" side.letter? ++ rest := by
  rw [BorderWidth.readSide.eq_def] at h
  split at h
  · split at h
    · rename_i hside
      obtain ⟨rfl, rfl⟩ := Prod.mk.inj h
      rw [Side.letter?_of_ofLetter? hside]
      rfl
    · obtain ⟨rfl, rfl⟩ := Prod.mk.inj h
      rfl
  · split at h
    · rename_i hside
      obtain ⟨rfl, rfl⟩ := Prod.mk.inj h
      rw [Side.letter?_of_ofLetter? hside]
      rfl
    · obtain ⟨rfl, rfl⟩ := Prod.mk.inj h
      rfl
  · obtain ⟨rfl, rfl⟩ := Prod.mk.inj h
    rfl

theorem Side.isKey_letter? (side : Side) : ∀ s ∈ side.letter?, IsKey s := by
  rcases side with _ | a | e
  · exact fun s hs => absurd hs (by simp [letter?])
  · cases a <;> decide
  · cases e <;> decide

theorem BorderWidth.isKey_of_readSide {s : Text} (h : IsKey (BorderWidth.readSide s).2) :
    IsKey s := by
  rcases hread : BorderWidth.readSide s with ⟨side, rest⟩
  rw [hread] at h
  rw [BorderWidth.eq_of_readSide hread]
  exact (isKey_marked side.isKey_letter?).append h

theorem BorderWidth.isFlat_of_readWidth? {s value : Text}
    (h : BorderWidth.readWidth? s = some value) : IsKey s ∧ IsFlat value := by
  rw [BorderWidth.readWidth?.eq_def] at h
  split at h
  · rw [← Option.some.inj h]
    exact ⟨List.forall_mem_nil _, isFlat_ofString (by simp) rfl⟩
  · rename_i digits
    obtain ⟨hdigits, h⟩ := Option.ite_none_right_eq_some.mp h
    rw [← Option.some.inj h]
    refine ⟨List.forall_mem_cons.mpr ⟨rfl, isKey_of_isDigits hdigits⟩, ?_⟩
    simp only [isDigits, Bool.and_eq_true, decide_eq_true_eq, List.all_eq_true] at hdigits
    obtain ⟨⟨hlow, -⟩, hdigit⟩ := hdigits
    refine IsFlat.append ⟨?_, fun c hc => isFlatChar_of_isDigit (hdigit c hc)⟩ ?_
    · exact List.ne_nil_of_length_pos hlow
    · exact Text.forall_mem_ofString rfl
  · exact absurd h (by simp)

theorem BorderWidth.isUtility {token : Text} {u : BorderWidth}
    (h : BorderWidth.ofToken? token = some u) : IsUtility token u.declarations := by
  simp only [BorderWidth.ofToken?, Option.bind_eq_bind, Option.bind_eq_some_iff] at h
  obtain ⟨rest, hrest, value, hvalue, h⟩ := h
  obtain rfl := Option.some.inj h
  obtain rfl := Text.consume?_eq_some_iff.mp hrest
  obtain ⟨hkey, hvalue⟩ := BorderWidth.isFlat_of_readWidth? hvalue
  have hrest := BorderWidth.isKey_of_readSide hkey
  have hproperty : IsProperty ↑"border" := isProperty_ofString rfl
  have htail : ∀ c ∈ Text.ofString "-width", isPropertyChar c = true :=
    Text.forall_mem_ofString rfl
  have hstyle : ∀ d ∈ [(⟨↑"border-style", ↑"solid"⟩ : Declaration)], d.IsReadFrom rest :=
    isReadFrom_singleton (isProperty_ofString rfl) (.fixed hrest (isTame_ofString rfl))
  obtain ⟨-, hd⟩ := Side.declarations_isReadFrom hproperty htail (.fixed hrest hvalue.isTame)
    (BorderWidth.readSide rest).1
  exact .of_keyword (keyword_ofString rfl) (by simp [BorderWidth.declarations])
    (List.forall_mem_append.mpr ⟨hd, hstyle⟩)

/-! ### Space between children -/

theorem reading_of_readAxis? {s raw value : Text} {a : Axis} (h : readAxis? s = some (a, raw))
    (hraw : IsReading raw value) : IsReading s value := by
  rw [readAxis?.eq_def] at h
  split at h
  · obtain ⟨a, ha, heq⟩ := Option.map_eq_some_iff.mp h
    obtain ⟨-, rfl⟩ := Prod.mk.inj heq
    exact .cons (isStemChar_of_isLower (Axis.isLower_of_ofLetter? ha)) (.cons rfl hraw)
  · exact absurd h (by simp)

theorem Gap.isProperty (a : Option Axis) : IsProperty (Gap.property a) := by
  rcases a with _ | a
  · exact isProperty_ofString rfl
  · cases a <;> exact isProperty_ofString rfl

theorem Gap.isUtility {token : Text} {u : Gap} (h : Gap.ofToken? token = some u) :
    IsUtility token u.declarations := by
  rw [Gap.ofToken?, Option.bind_eq_bind, Option.bind_eq_some_iff] at h
  obtain ⟨rest, hrest, h⟩ := h
  obtain rfl := Text.consume?_eq_some_iff.mp hrest
  suffices hreading : IsReading rest u.value by
    exact .of_keyword (keyword_ofString rfl) (by simp [Gap.declarations])
      (isReadFrom_singleton (Gap.isProperty u.axis) hreading)
  split at h
  · rename_i a raw haxis
    obtain ⟨value, hvalue, rfl⟩ := Option.map_eq_some_iff.mp h
    exact reading_of_readAxis? haxis (spacingValue?_reading hvalue)
  · obtain ⟨value, hvalue, rfl⟩ := Option.map_eq_some_iff.mp h
    exact spacingValue?_reading hvalue

theorem SpaceBetween.isProperty (a : Axis) : IsProperty (SpaceBetween.property a) := by
  cases a <;> exact isProperty_ofString rfl

theorem SpaceBetween.isUtility {token : Text} {u : SpaceBetween}
    (h : SpaceBetween.ofToken? token = some u) : IsUtility token u.declarations := by
  simp only [SpaceBetween.ofToken?, Option.bind_eq_bind, Option.bind_eq_some_iff] at h
  obtain ⟨rest, hrest, ⟨a, raw⟩, haxis, value, hvalue, h⟩ := h
  obtain rfl := Option.some.inj h
  obtain rfl := Text.consume?_eq_some_iff.mp hrest
  exact .of_keyword (keyword_ofString rfl) (by simp [SpaceBetween.declarations])
    (isReadFrom_singleton (SpaceBetween.isProperty a)
      (reading_of_readAxis? haxis (spacingValue?_reading hvalue)))

/-! ### All families -/

theorem Literal.isUtility {token : Text} {u : Literal} (h : Literal.ofToken? token = some u) :
    IsUtility token u.declarations := by
  obtain ⟨declarations, hlookup, rfl⟩ := Option.map_eq_some_iff.mp h
  obtain ⟨hkey, hne, hd⟩ := Literal.literalTable_wellFormed _ (mem_of_lookup hlookup)
  exact ⟨hkey.beginsName, hne, fun d hmem => ⟨(hd d hmem).1, .fixed hkey.isKey (hd d hmem).2⟩⟩

theorem Family.isUtility {token : Text} {f : Family} {u : Utility} (h : f.read? token = some u) :
    IsUtility token u.declarations := by
  cases f <;> obtain ⟨u, hu, rfl⟩ := Option.map_eq_some_iff.mp h
  case color => exact Color.isUtility hu
  case fontSize => exact FontSize.isUtility hu
  case spacing => exact Spacing.isUtility hu
  case extent => exact Extent.isUtility hu
  case maxWidth => exact MaxWidth.isUtility hu
  case radius => exact Radius.isUtility hu
  case borderWidth => exact BorderWidth.isUtility hu
  case gap => exact Gap.isUtility hu
  case spaceBetween => exact SpaceBetween.isUtility hu
  case literal => exact Literal.isUtility hu

/-- A token that spells a utility of any family, and what the utility declares. -/
theorem Utility.isUtility {token : Text} {u : Utility} (h : Utility.ofToken? token = some u) :
    IsUtility token u.declarations := by
  obtain ⟨f, -, hf⟩ := List.exists_of_findSome?_eq_some h
  exact Family.isUtility hf

/-! ### Tokens that reach the children -/

/-- A literal begins like no other family, unless it aligns texts. -/
theorem Literal.free_of_ofToken? {token : Text} {u : Literal} (h : Literal.ofToken? token = some u) :
    (∃ cs ∈ alignmentKeys, token = cs.map .char) ∨
      ∀ f : Family, ∀ head ∈ f.heads, ¬ Begins head token := by
  obtain ⟨_, hlookup, -⟩ := Option.map_eq_some_iff.mp h
  exact (literalTable_wellFormed _ (mem_of_lookup hlookup)).1.free

theorem SpaceBetween.prefix_of_ofToken? {token : Text} {u : SpaceBetween}
    (h : SpaceBetween.ofToken? token = some u) :
    ↑"space-x-" <+: token ∨ ↑"space-y-" <+: token := by
  obtain ⟨rest, hrest, h⟩ := Option.bind_eq_some_iff.mp h
  obtain ⟨⟨a, raw⟩, haxis, -⟩ := Option.bind_eq_some_iff.mp h
  obtain rfl := Text.consume?_eq_some_iff.mp hrest
  rw [readAxis?.eq_def] at haxis
  split at haxis
  · obtain ⟨a, ha, -⟩ := Option.map_eq_some_iff.mp haxis
    rw [Axis.ofLetter?.eq_def] at ha
    split at ha
    · exact .inl ⟨_, rfl⟩
    · exact .inr ⟨_, rfl⟩
    · exact absurd ha (by simp)
  · exact absurd haxis (by simp)

/-- Children are meant exactly by the tokens for space between them. -/
theorem Utility.isBetweenChildren_iff {token : Text} {u : Utility}
    (h : Utility.ofToken? token = some u) :
    u.isBetweenChildren = true ↔ ↑"space-x-" <+: token ∨ ↑"space-y-" <+: token := by
  obtain ⟨f, -, hf⟩ := List.exists_of_findSome?_eq_some h
  constructor
  · intro hu
    cases f <;> obtain ⟨u, hread, rfl⟩ := Option.map_eq_some_iff.mp hf
    case spaceBetween => exact SpaceBetween.prefix_of_ofToken? hread
    all_goals exact absurd hu (by simp [isBetweenChildren])
  · intro hprefix
    have hbegins : Begins ['s', 'p', 'a', 'c', 'e', '-'] token := by
      rcases hprefix with ⟨raw, rfl⟩ | ⟨raw, rfl⟩
      · exact ⟨.char 'x' :: .char '-' :: raw, rfl⟩
      · exact ⟨.char 'y' :: .char '-' :: raw, rfl⟩
    by_cases hliteral : f = .literal
    · subst hliteral
      obtain ⟨u, hread, -⟩ := Option.map_eq_some_iff.mp hf
      have halignment : ∀ cs ∈ Literal.alignmentKeys,
          apart ['s', 'p', 'a', 'c', 'e', '-'] cs = true := by decide
      rcases Literal.free_of_ofToken? hread with ⟨cs, hcs, rfl⟩ | hfree
      · rw [← List.append_nil (cs.map _)] at hbegins
        exact absurd hbegins (not_begins_of_apart (halignment cs hcs) [])
      · exact absurd hbegins (hfree .spaceBetween _ (by simp [Family.heads]))
    by_cases hspace : f = .spaceBetween
    · subst hspace
      obtain ⟨u, -, rfl⟩ := Option.map_eq_some_iff.mp hf
      rfl
    -- the beginnings of all other families are apart from this one
    · obtain ⟨head, hhead, hother⟩ := Family.exists_head_of_read? hliteral hf
      have hapart := Family.heads_apart hspace (by cases f <;> decide) (by cases f <;> decide)
        head hhead _ (List.mem_singleton_self _)
      exact (not_begins_both hapart hother hbegins).elim

end UtilityCss
