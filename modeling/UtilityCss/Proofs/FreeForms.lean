/-
What a free-form value may change.

Some utilities take a free-form value in brackets.  It is always accepted, and it goes into the
values of the declarations only: their properties are those of the utility.

* `FreeForm` — the utilities with a free-form value, by what stands before it;
* `FreeForm.properties` — the properties they declare;
* `FreeForm.value?`, `FreeForm.utility` — the values that may follow, and the utility with a value;
* `FreeForm.read?_head` — every value is accepted, and gives this utility;
* `FreeForm.exists_read?` — every body is accepted, and these are the properties;
* `declarations_contained` — declarations are pieces `property: value` whose values are inert, and
  no body changes the properties.
-/
import UtilityCss.Proofs.DeclarationPieces
import UtilityCss.Proofs.FamiliesApart

namespace UtilityCss

/-! ### Utilities with a free-form value -/

/-- The utilities with a free-form value. -/
inductive FreeForm where
  | padding (side : Side)
  | margin (negative : Bool) (side : Side)
  | extent (d : Dimension)
  | maxWidth
  | gap (axis : Option Axis)
  | spaceBetween (axis : Axis)
  deriving DecidableEq

namespace FreeForm

/-- What stands before the value. -/
def head : FreeForm → Text
  | padding side => "p" ++ side.letter ++ "-"
  | margin negative side => (if negative then "-m" else "m") ++ side.letter ++ "-"
  | extent .width => "w-"
  | extent .height => "h-"
  | maxWidth => "max-w-"
  | gap none => "gap-"
  | gap (some .x) => "gap-x-"
  | gap (some .y) => "gap-y-"
  | spaceBetween .x => "space-x-"
  | spaceBetween .y => "space-y-"

/-- The family of the utility. -/
def family : FreeForm → Family
  | padding _ => .spacing
  | margin _ _ => .spacing
  | extent _ => .extent
  | maxWidth => .maxWidth
  | gap _ => .gap
  | spaceBetween _ => .spaceBetween

/-- The properties that the utility declares. -/
def properties : FreeForm → List Text
  | padding side => side.properties "padding" ""
  | margin _ side => side.properties "margin" ""
  | extent d => [d.property]
  | maxWidth => ["max-width"]
  | gap axis => [Gap.property axis]
  | spaceBetween axis => [SpaceBetween.property axis]

/-- The value that a text has after the head of a form. -/
def value? : FreeForm → Text → Option Text
  | extent d, raw => d.value? raw
  | maxWidth, raw => maxWidthScale.lookup raw <|> bracketValue? raw
  | _, raw => spacingValue? raw

/-- The utility of a form with a value. -/
def utility : FreeForm → Text → Utility
  | padding side, value => .spacing ⟨.padding, side, value⟩
  | margin negative side, value => .spacing ⟨.margin, side, Spacing.signed negative value⟩
  | extent d, value => .extent ⟨d, value⟩
  | maxWidth, value => .maxWidth ⟨value⟩
  | gap axis, value => .gap ⟨axis, value⟩
  | spaceBetween axis, value => .spaceBetween ⟨axis, value⟩

theorem map_property_utility (form : FreeForm) (value : Text) :
    (form.utility value).declarations.map Declaration.property = form.properties := by
  have hspacing (u : Spacing) : (Utility.declarations (.spacing u)).map Declaration.property =
      u.side.properties u.kind.property "" := by
    simp [Utility.declarations, Spacing.declarations, Function.comp_def]
  cases form with
  | padding side => exact hspacing _
  | margin negative side => exact hspacing _
  | _ => rfl

/-! ### Every value is accepted -/

theorem readSide?_letter (side : Side) (raw : Text) :
    Spacing.readSide? (side.letter ++ "-" ++ raw) = some (side, raw) := by
  rcases side with _ | a | e
  · rfl
  · cases a <;> rfl
  · cases e <;> rfl

theorem read?_spacing {negative : Bool} {c : CodePoint} {kind : SpacingKind}
    (hkind : SpacingKind.ofLetter? c = some kind) (hsign : ¬ (negative = true ∧ kind = .padding))
    (side : Side) (raw : Text) :
    Spacing.read? negative (c :: (side.letter ++ "-" ++ raw)) =
      (spacingValue? raw).map fun value => ⟨kind, side, Spacing.signed negative value⟩ := by
  simp only [Spacing.read?, hkind, readSide?_letter, Option.bind_eq_bind, Option.bind_some,
    if_neg hsign]
  cases spacingValue? raw <;> rfl

theorem read?_padding (side : Side) (raw : Text) :
    Family.read? ((padding side).head ++ raw) .spacing =
      (spacingValue? raw).map (padding side).utility := by
  have hread : Spacing.ofToken? ((padding side).head ++ raw) =
      (spacingValue? raw).map fun value => ⟨.padding, side, Spacing.signed false value⟩ :=
    read?_spacing rfl (by simp) side raw
  rw [Family.read?, hread, Option.map_map]
  cases spacingValue? raw <;> simp [utility, Spacing.signed]

theorem read?_margin (negative : Bool) (side : Side) (raw : Text) :
    Family.read? ((margin negative side).head ++ raw) .spacing =
      (spacingValue? raw).map (margin negative side).utility := by
  have hread : Spacing.ofToken? ((margin negative side).head ++ raw) =
      (spacingValue? raw).map fun value => ⟨.margin, side, Spacing.signed negative value⟩ := by
    cases negative with
    | false => exact read?_spacing rfl (by simp) side raw
    | true => exact read?_spacing rfl (by simp) side raw
  rw [Family.read?, hread, Option.map_map]
  rfl

theorem readAxis?_bracketed (body : Text) : readAxis? (bracketed body) = none := by
  rw [readAxis?.eq_def]
  split
  · rename_i heq
    rw [← (List.cons.inj heq).1]
    rfl
  · rfl

/-- A value does not begin with an axis and a hyphen. -/
theorem readAxis?_eq_none {raw value : Text} (h : spacingValue? raw = some value) :
    readAxis? raw = none := by
  have hkeys : ∀ e ∈ spacingScale, readAxis? e.1 = none := by decide +kernel
  rw [spacingValue?, Option.orElse_eq_orElse, Option.orElse_eq_or, Option.or_eq_some_iff] at h
  rcases h with h | ⟨-, h⟩
  · exact hkeys _ (mem_of_lookup h)
  · obtain ⟨body, -, rfl, -⟩ := bracketValue?_eq_some_iff.mp h
    exact readAxis?_bracketed body

/-- What has a value is accepted after the head, and gives the utility of the form. -/
theorem read?_head (form : FreeForm) {raw value : Text} (h : form.value? raw = some value) :
    form.family.read? (form.head ++ raw) = some (form.utility value) := by
  cases form with
  | padding side =>
    have hvalue : spacingValue? raw = some value := h
    rw [family, read?_padding, hvalue, Option.map_some]
  | margin negative side =>
    have hvalue : spacingValue? raw = some value := h
    rw [family, read?_margin, hvalue, Option.map_some]
  | extent d =>
    have hread : Extent.ofToken? ((extent d).head ++ raw) =
        (d.value? raw).bind fun value => some ⟨d, value⟩ := by
      cases d <;> rfl
    have hvalue : d.value? raw = some value := h
    rw [family, Family.read?, hread, hvalue]
    rfl
  | maxWidth =>
    have hconsume : Text.consume? "max-w-" (maxWidth.head ++ raw) = some raw := rfl
    have hvalue : (maxWidthScale.lookup raw <|> bracketValue? raw) = some value := h
    simp only [family, Family.read?, MaxWidth.ofToken?, hconsume, hvalue, Option.bind_eq_bind,
      Option.bind_some, Option.map_some, utility]
  | gap axis =>
    have hvalue : spacingValue? raw = some value := h
    have hread : Gap.ofToken? ((gap axis).head ++ raw) = (spacingValue? raw).map (⟨axis, ·⟩) := by
      rcases axis with _ | a
      · have hconsume : Text.consume? "gap-" ((gap none).head ++ raw) = some raw := rfl
        rw [Gap.ofToken?, hconsume, Option.bind_eq_bind, Option.bind_some, readAxis?_eq_none hvalue]
      · cases a <;> rfl
    rw [family, Family.read?, hread, hvalue]
    rfl
  | spaceBetween axis =>
    have hvalue : spacingValue? raw = some value := h
    have hread : SpaceBetween.ofToken? ((spaceBetween axis).head ++ raw) =
        (spacingValue? raw).bind fun value => some ⟨axis, value⟩ := by
      cases axis <;> rfl
    rw [family, Family.read?, hread, hvalue]
    rfl

/-- What stands in brackets has a value after every head. -/
theorem exists_value? (form : FreeForm) {body : Text} (h : IsBody body) :
    ∃ value, form.value? (bracketed body) = some value := by
  have hbracket : bracketValue? (bracketed body) = some (shown body) :=
    bracketValue?_eq_some_iff.mpr ⟨body, h, rfl, rfl⟩
  rw [← Option.isSome_iff_exists]
  cases form <;> simp [value?, spacingValue?, Dimension.value?, hbracket]

/-- Every body is accepted, and the properties are those of the utility. -/
theorem exists_read? (form : FreeForm) {body : Text} (h : IsBody body) :
    ∃ u, form.family.read? (form.head ++ bracketed body) = some u ∧
      u.declarations.map Declaration.property = form.properties := by
  obtain ⟨value, hvalue⟩ := form.exists_value? h
  exact ⟨form.utility value, form.read?_head hvalue, form.map_property_utility value⟩

end FreeForm

/-! ### Containment -/

/-- What a family reads without a prefix is the rule of the token. -/
theorem resolve?_of_read? {token : Text} {f : Family} {u : Utility} (h : f.read? token = some u) :
    resolve? token = some (Rule.ofUtility token u) := by
  have hrule : f.rule? token = some (Rule.ofUtility token u) := by
    rw [Family.rule?, h, Option.map_some]
  exact resolve?_of_mem_layers (by simp [layers]) (Family.resolveUtility?_of_rule? hrule)

/-- The properties of a utility with a free-form value, whatever the value. -/
theorem FreeForm.propertyNames?_eq (form : FreeForm) {body : Text} (h : IsBody body) :
    ∃ r, resolve? (form.head ++ bracketed body) = some r ∧
      propertyNames? (declarationText r.declarations) = some form.properties := by
  obtain ⟨u, hread, hproperties⟩ := form.exists_read? h
  have hresolve := resolve?_of_read? hread
  have hr := Rule.wellFormed_of_resolve? hresolve
  refine ⟨_, hresolve, ?_⟩
  rw [propertyNames?, readDeclarations?_text hr.ne_nil hr.declarations, Option.map_some]
  exact congrArg some hproperties

/-- The declarations of a token are pieces `property: value` between semicolons, with a property of
lower-case letters and hyphens and a value of inert characters.  What stands in the brackets of a
free-form value is accepted, whatever it is, and does not change the properties. -/
theorem declarations_contained :
    (∀ token r, resolve? token = some r →
      ∀ piece ∈ Text.splitPair ';' ' ' (declarationText r.declarations),
        ∃ property value, Text.cutPair? ':' ' ' piece = some (property, value) ∧
          piece = property ++ ": " ++ value ∧
          property ≠ [] ∧ (∀ c ∈ property, c.isLower = true ∨ c = '-') ∧
          value ≠ [] ∧ ∀ c ∈ value,
            (0x20 ≤ c.toNat ∧ c.toNat ≤ 0x7E) ∧ c ∉ activeChars) ∧
    ∀ (form : FreeForm) (body₁ body₂ : Text),
      (body₁ ≠ [] ∧ ∀ c ∈ body₁, c.isAlphanum = true ∨ c ∈ bracketPunctuation) →
      (body₂ ≠ [] ∧ ∀ c ∈ body₂, c.isAlphanum = true ∨ c ∈ bracketPunctuation) →
      ∃ r₁ r₂ names,
        resolve? (form.head ++ ("[" ++ body₁ ++ "]")) = some r₁ ∧
        resolve? (form.head ++ ("[" ++ body₂ ++ "]")) = some r₂ ∧
        propertyNames? (declarationText r₁.declarations) = some names ∧
        propertyNames? (declarationText r₂.declarations) = some names := by
  have hbody {body : Text}
      (h : body ≠ [] ∧ ∀ c ∈ body, c.isAlphanum = true ∨ c ∈ bracketPunctuation) : IsBody body := by
    refine ⟨h.1, fun c hc => ?_⟩
    rw [isBracketChar_eq, Bool.or_eq_true, List.contains_iff_mem]
    exact h.2 c hc
  refine ⟨fun token r hr piece hpiece => ?_, fun form body₁ body₂ h₁ h₂ => ?_⟩
  · have hrule := Rule.wellFormed_of_resolve? hr
    rw [splitPair_declarationText hrule.ne_nil hrule.declarations, List.mem_map] at hpiece
    obtain ⟨d, hd, rfl⟩ := hpiece
    have hd := hrule.declarations d hd
    refine ⟨d.property, d.value, hd.cutPair?_text, rfl, hd.property.1, fun c hc => ?_, hd.value.1,
      fun c hc => ?_⟩
    · simpa [isPropertyChar] using hd.property.2 c hc
    · exact notActive_of_isValueChar (hd.value.2 c hc)
  · obtain ⟨r₁, hr₁, hnames₁⟩ := form.propertyNames?_eq (hbody h₁)
    obtain ⟨r₂, hr₂, hnames₂⟩ := form.propertyNames?_eq (hbody h₂)
    exact ⟨r₁, r₂, form.properties, hr₁, hr₂, hnames₁, hnames₂⟩

/-- A length and a computed value under a sign: each declares both edges of the axis. -/
theorem declarations_contained_margin :
    ∃ r₁ r₂ names, resolve? "-mx-[3px]" = some r₁ ∧ resolve? "-mx-[calc(1px_+_2px)]" = some r₂ ∧
      propertyNames? (declarationText r₁.declarations) = some names ∧
      propertyNames? (declarationText r₂.declarations) = some names ∧
      ∀ piece ∈ Text.splitPair ';' ' ' (declarationText r₂.declarations),
        (Text.cutPair? ':' ' ' piece).isSome = true := by
  obtain ⟨hpieces, hproperties⟩ := declarations_contained
  obtain ⟨r₁, r₂, names, hr₁, hr₂, hnames₁, hnames₂⟩ :=
    hproperties (.margin true (.axis .x)) "3px" "calc(1px_+_2px)" (by decide) (by decide)
  refine ⟨r₁, r₂, names, hr₁, hr₂, hnames₁, hnames₂, fun piece hpiece => ?_⟩
  obtain ⟨property, value, hcut, -⟩ := hpieces _ r₂ hr₂ piece hpiece
  rw [hcut]
  rfl

end UtilityCss
