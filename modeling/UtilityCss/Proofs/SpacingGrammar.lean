/-
The grammar of spacing values.

Paddings, margins, gaps and the space between children are spelled alike: a head that says what
the value is for, and a text that stands for the value.  There is one way to take such a token
apart, although some of what may follow a head begins like the rest of a longer head.

* `FreeForm.names`, `FreeForm.signed`, `FreeForm.text` — what a form writes for a value;
* `FreeForm.text_utility` — these are the declarations of its utility;
* `FreeForm.read?_eq_some_iff` — the tokens of the five families whose values may be free;
* `FreeForm.unique` — their head and their value are determined by the token;
* `FreeForm.written?_axis` — both edges of an axis are written like the edges alone, in turn;
* `spacing_grammar` — paddings, margins, gaps and the space between children; widths and heights
  take the same values.
-/
import UtilityCss.Proofs.FamilyText
import UtilityCss.Proofs.FreeForms

namespace UtilityCss

namespace FreeForm

/-! ### What a form writes -/

/-- The names that are given the value, in the order in which they are written. -/
def names : FreeForm → List Text
  | padding side => side.endings.map ("padding" ++ ·)
  | margin _ side => side.endings.map ("margin" ++ ·)
  | extent .width => ["width"]
  | extent .height => ["height"]
  | maxWidth => ["max-width"]
  | gap none => ["gap"]
  | gap (some .x) => ["column-gap"]
  | gap (some .y) => ["row-gap"]
  | spaceBetween .x => ["margin-left"]
  | spaceBetween .y => ["margin-top"]

/-- The value as it is written: under a minus sign if the margin has one, but for zero and
`auto`. -/
def signed : FreeForm → Text → Text
  | margin true _, value => if value = "0px" ∨ value = "auto" then value else "-" ++ value
  | _, value => value

/-- The declarations of a form with a value. -/
def text (form : FreeForm) (value : Text) : Text :=
  assigned form.names (form.signed value)

theorem signed_margin (negative : Bool) (side : Side) (value : Text) :
    (margin negative side).signed value = Spacing.signed negative value := by
  cases negative with
  | false => simp [signed, Spacing.signed]
  | true =>
    have hsign : Text.ofString "-" ++ value = .char '-' :: value := rfl
    rw [signed, Spacing.signed, hsign]
    by_cases hvalue : value = "0px" ∨ value = "auto"
    · rw [if_pos hvalue, if_neg fun h => hvalue.elim h.2.1 h.2.2]
    · rw [if_neg hvalue, if_pos ⟨rfl, fun h => hvalue (.inl h), fun h => hvalue (.inr h)⟩]

theorem names_eq_properties (form : FreeForm) : form.names = form.properties := by
  have hside (stem : Text) (side : Side) :
      side.properties stem "" = side.endings.map (stem ++ ·) := by
    have hempty : Text.ofString "" = [] := rfl
    simp only [Side.properties_eq, hempty, List.append_nil]
  cases form with
  | padding side => exact (hside _ side).symm
  | margin negative side => exact (hside _ side).symm
  | extent d => cases d <;> rfl
  | maxWidth => rfl
  | gap axis =>
    rcases axis with _ | a
    · rfl
    · cases a <;> rfl
  | spaceBetween axis => cases axis <;> rfl

/-- The utility of a form declares one value for all names. -/
theorem text_utility (form : FreeForm) (value : Text) :
    declarationText (form.utility value).declarations = form.text value := by
  have hdeclarations : (form.utility value).declarations =
      form.properties.map (⟨·, form.signed value⟩) := by
    cases form with
    | margin negative side => rw [signed_margin]; rfl
    | _ => rfl
  rw [hdeclarations, ← names_eq_properties, declarationText_assigned]
  rfl

/-! ### Taking a token apart -/

theorem eq_of_readSide? {s raw : Text} {side : Side}
    (h : Spacing.readSide? s = some (side, raw)) : s = side.letter ++ "-" ++ raw := by
  rw [Spacing.readSide?.eq_def] at h
  split at h
  · obtain ⟨rfl, rfl⟩ := Prod.mk.inj (Option.some.inj h)
    rfl
  · obtain ⟨side, hside, heq⟩ := Option.map_eq_some_iff.mp h
    obtain ⟨rfl, rfl⟩ := Prod.mk.inj heq
    rw [Side.letter_of_ofLetter? hside]
    rfl
  · exact absurd h (by simp)

theorem eq_of_readAxis? {s raw : Text} {a : Axis} (h : readAxis? s = some (a, raw)) :
    s = (Side.axis a).letter ++ "-" ++ raw := by
  rw [readAxis?.eq_def] at h
  split at h
  · rename_i c rest
    obtain ⟨a, ha, heq⟩ := Option.map_eq_some_iff.mp h
    obtain ⟨rfl, rfl⟩ := Prod.mk.inj heq
    have hside : Side.ofLetter? c = some (.axis a) := by
      rw [Side.ofLetter?, ha]
      rfl
    rw [Side.letter_of_ofLetter? hside]
    rfl
  · exact absurd h (by simp)

/-- After a sign or none, there is the head of a padding or a margin. -/
theorem exists_spacing {negative : Bool} {s : Text} {u : Spacing}
    (h : Spacing.read? negative s = some u) :
    ∃ (form : FreeForm) (raw value : Text), form.family = .spacing ∧
      (if negative then "-" else "" : Text) ++ s = form.head ++ raw ∧
      form.value? raw = some value ∧ .spacing u = form.utility value := by
  rw [Spacing.read?.eq_def] at h
  split at h
  · exact absurd h (by simp)
  · rename_i c rest
    obtain ⟨kind, hkind, h⟩ := Option.bind_eq_some_iff.mp h
    obtain ⟨hsign, h⟩ := Option.ite_none_left_eq_some.mp h
    obtain ⟨⟨side, raw⟩, hside, h⟩ := Option.bind_eq_some_iff.mp h
    obtain ⟨value, hvalue, h⟩ := Option.bind_eq_some_iff.mp h
    obtain rfl := Option.some.inj h
    obtain rfl := eq_of_readSide? hside
    rw [SpacingKind.ofLetter?.eq_def] at hkind
    split at hkind
    · -- a padding has no sign
      obtain rfl := Option.some.inj hkind
      obtain rfl : negative = false := by simpa using hsign
      exact ⟨padding side, raw, value, rfl, rfl, hvalue, by simp [utility, Spacing.signed]⟩
    · obtain rfl := Option.some.inj hkind
      refine ⟨margin negative side, raw, value, rfl, ?_, hvalue, rfl⟩
      cases negative <;> rfl
    · exact absurd hkind (by simp)

theorem exists_extent {token : Text} {u : Extent} (h : Extent.ofToken? token = some u) :
    ∃ (form : FreeForm) (raw value : Text), form.family = .extent ∧ token = form.head ++ raw ∧
      form.value? raw = some value ∧ .extent u = form.utility value := by
  rw [Extent.ofToken?.eq_def] at h
  split at h
  · obtain ⟨d, hd, h⟩ := Option.bind_eq_some_iff.mp h
    obtain ⟨value, hvalue, h⟩ := Option.bind_eq_some_iff.mp h
    obtain rfl := Option.some.inj h
    refine ⟨extent d, _, value, rfl, ?_, hvalue, rfl⟩
    rw [Dimension.ofLetter?.eq_def] at hd
    split at hd
    · obtain rfl := Option.some.inj hd
      rfl
    · obtain rfl := Option.some.inj hd
      rfl
    · exact absurd hd (by simp)
  · exact absurd h (by simp)

theorem exists_maxWidth {token : Text} {u : MaxWidth} (h : MaxWidth.ofToken? token = some u) :
    ∃ (form : FreeForm) (raw value : Text), form.family = .maxWidth ∧ token = form.head ++ raw ∧
      form.value? raw = some value ∧ .maxWidth u = form.utility value := by
  obtain ⟨raw, hraw, h⟩ := Option.bind_eq_some_iff.mp h
  obtain ⟨value, hvalue, h⟩ := Option.bind_eq_some_iff.mp h
  obtain rfl := Option.some.inj h
  exact ⟨maxWidth, raw, value, rfl, Text.consume?_eq_some_iff.mp hraw, hvalue, rfl⟩

/-- An axis that can be read belongs to the head of a gap, whatever follows it. -/
theorem exists_gap {token : Text} {u : Gap} (h : Gap.ofToken? token = some u) :
    ∃ (form : FreeForm) (raw value : Text), form.family = .gap ∧ token = form.head ++ raw ∧
      form.value? raw = some value ∧ .gap u = form.utility value := by
  obtain ⟨rest, hrest, hread⟩ := Option.bind_eq_some_iff.mp h
  have htoken := Text.consume?_eq_some_iff.mp hrest
  split at hread
  · rename_i a raw haxis
    obtain ⟨value, hvalue, rfl⟩ := Option.map_eq_some_iff.mp hread
    rw [eq_of_readAxis? haxis] at htoken
    refine ⟨gap (some a), raw, value, rfl, htoken.trans ?_, hvalue, rfl⟩
    cases a <;> rfl
  · obtain ⟨value, hvalue, rfl⟩ := Option.map_eq_some_iff.mp hread
    exact ⟨gap none, rest, value, rfl, htoken, hvalue, rfl⟩

theorem exists_spaceBetween {token : Text} {u : SpaceBetween}
    (h : SpaceBetween.ofToken? token = some u) :
    ∃ (form : FreeForm) (raw value : Text), form.family = .spaceBetween ∧
      token = form.head ++ raw ∧ form.value? raw = some value ∧
      .spaceBetween u = form.utility value := by
  obtain ⟨rest, hrest, h⟩ := Option.bind_eq_some_iff.mp h
  obtain ⟨⟨a, raw⟩, haxis, h⟩ := Option.bind_eq_some_iff.mp h
  obtain ⟨value, hvalue, h⟩ := Option.bind_eq_some_iff.mp h
  obtain rfl := Option.some.inj h
  have htoken := Text.consume?_eq_some_iff.mp hrest
  rw [eq_of_readAxis? haxis] at htoken
  refine ⟨spaceBetween a, raw, value, rfl, htoken.trans ?_, hvalue, rfl⟩
  cases a <;> rfl

/-- The families whose values may be free. -/
def families : List Family :=
  [.spacing, .extent, .maxWidth, .gap, .spaceBetween]

/-- The tokens of these families are a head and a text that has a value after it. -/
theorem read?_eq_some_iff {token : Text} {f : Family} {u : Utility} (hf : f ∈ families) :
    f.read? token = some u ↔
      ∃ (form : FreeForm) (raw value : Text), form.family = f ∧ token = form.head ++ raw ∧
        form.value? raw = some value ∧ u = form.utility value := by
  constructor
  · intro h
    simp only [families, List.mem_cons, List.not_mem_nil, or_false] at hf
    rcases hf with rfl | rfl | rfl | rfl | rfl <;>
      obtain ⟨u, hu, rfl⟩ := Option.map_eq_some_iff.mp h
    · rw [Spacing.ofToken?.eq_def] at hu
      split at hu
      · exact exists_spacing hu
      · exact exists_spacing hu
    · exact exists_extent hu
    · exact exists_maxWidth hu
    · exact exists_gap hu
    · exact exists_spaceBetween hu
  · rintro ⟨form, raw, value, rfl, rfl, hvalue, rfl⟩
    exact form.read?_head hvalue

/-! ### One way to take a token apart -/

theorem head_margin_ne {side side' : Side} (raw raw' : Text) :
    (margin true side).head ++ raw ≠ (margin false side').head ++ raw' := by
  intro h
  have hfirst : CodePoint.char '-' = .char 'm' := (List.cons.inj h).1
  exact absurd hfirst (by decide)

/-- A token has its head and the text after it in one way only. -/
theorem unique {form form' : FreeForm} {raw raw' value value' : Text}
    (htoken : form.head ++ raw = form'.head ++ raw') (hvalue : form.value? raw = some value)
    (hvalue' : form'.value? raw' = some value') : form = form' ∧ raw = raw' := by
  have hread := form.read?_head hvalue
  have hread' := form'.read?_head hvalue'
  rw [← htoken] at hread'
  have hfamily := Family.eq_of_read? hread hread'
  rw [← hfamily, hread] at hread'
  have hutility := Option.some.inj hread'
  -- all but a sign is seen in the utility, and a sign is the first character
  have hform : form = form' := by
    cases form <;> cases form' <;>
      simp only [utility, Utility.spacing.injEq, Utility.extent.injEq, Utility.gap.injEq,
        Utility.spaceBetween.injEq, Spacing.mk.injEq, Extent.mk.injEq, Gap.mk.injEq,
        SpaceBetween.mk.injEq, reduceCtorEq, false_and] at hutility
    case padding.padding => rw [hutility.2.1]
    case margin.margin negative side negative' side' =>
      obtain rfl := hutility.2.1
      cases negative <;> cases negative'
      case false.false => rfl
      case true.true => rfl
      case false.true => exact absurd htoken.symm (head_margin_ne _ _)
      case true.false => exact absurd htoken (head_margin_ne _ _)
    case extent.extent => rw [hutility.1]
    case maxWidth.maxWidth => rfl
    case gap.gap => rw [hutility.1]
    case spaceBetween.spaceBetween => rw [hutility.1]
  subst hform
  exact ⟨rfl, List.append_cancel_left htoken⟩

/-! ### What is written -/

theorem written?_head (form : FreeForm) {raw value : Text} (h : form.value? raw = some value) :
    form.family.written? (form.head ++ raw) = some (form.text value) := by
  rw [Family.written?_eq, form.read?_head h, Option.map_some, text_utility]

theorem written?_eq_some_iff {token text : Text} {f : Family} (hf : f ∈ families) :
    f.written? token = some text ↔
      ∃ (form : FreeForm) (raw value : Text), form.family = f ∧ token = form.head ++ raw ∧
        form.value? raw = some value ∧ text = form.text value := by
  rw [Family.written?_eq, Option.map_eq_some_iff]
  constructor
  · rintro ⟨u, hu, rfl⟩
    obtain ⟨form, raw, value, hfamily, htoken, hvalue, rfl⟩ := (read?_eq_some_iff hf).mp hu
    exact ⟨form, raw, value, hfamily, htoken, hvalue, text_utility form value⟩
  · rintro ⟨form, raw, value, rfl, rfl, hvalue, rfl⟩
    exact ⟨_, form.read?_head hvalue, text_utility form value⟩

/-! ### Sides of a box -/

/-- The forms of a padding and of a margin, which take a side. -/
def boxes : List (Side → FreeForm) :=
  [padding, margin false, margin true]

theorem written?_box {box : Side → FreeForm} (hbox : box ∈ boxes) (side : Side) (raw : Text) :
    Family.written? ((box side).head ++ raw) .spacing =
      (spacingValue? raw).map (box side).text := by
  have hread : Family.read? ((box side).head ++ raw) .spacing =
      (spacingValue? raw).map (box side).utility := by
    simp only [boxes, List.mem_cons, List.not_mem_nil, or_false] at hbox
    rcases hbox with rfl | rfl | rfl
    · exact read?_padding side raw
    · exact read?_margin false side raw
    · exact read?_margin true side raw
  exact Family.written?_of_read? (box side).utility hread (text_utility (box side))

/-- A box gives one value to names that differ in the endings of the side only. -/
theorem exists_stem {box : Side → FreeForm} (hbox : box ∈ boxes) :
    ∃ stem : Text, (∀ side, (box side).names = side.endings.map (stem ++ ·)) ∧
      ∀ side side' value, (box side).signed value = (box side').signed value := by
  simp only [boxes, List.mem_cons, List.not_mem_nil, or_false] at hbox
  rcases hbox with rfl | rfl | rfl
  · exact ⟨"padding", fun _ => rfl, fun _ _ _ => rfl⟩
  · exact ⟨"margin", fun _ => rfl, fun _ _ _ => rfl⟩
  · exact ⟨"margin", fun _ => rfl, fun _ _ _ => rfl⟩

/-- Both edges of an axis are written like the edges alone, in turn. -/
theorem text_axis {box : Side → FreeForm} (hbox : box ∈ boxes) (a : Axis) (value : Text) :
    (box (.axis a)).text value =
      (box (.edge a.first)).text value ++ "; " ++ (box (.edge a.second)).text value := by
  obtain ⟨stem, hnames, hsigned⟩ := exists_stem hbox
  have hne (side : Side) : (box side).names ≠ [] := by
    rw [hnames]
    exact mt List.map_eq_nil_iff.mp side.endings_ne_nil
  have haxis : (box (.axis a)).names =
      (box (.edge a.first)).names ++ (box (.edge a.second)).names := by
    rw [hnames, hnames, hnames, Side.endings_axis, List.map_append]
  rw [text, text, text, haxis, assigned_append (hne _) (hne _), hsigned (.axis a) .all,
    hsigned (.edge a.first) .all, hsigned (.edge a.second) .all]

theorem written?_axis {box : Side → FreeForm} (hbox : box ∈ boxes) (a : Axis) (raw : Text) :
    Family.written? ((box (.axis a)).head ++ raw) .spacing =
      inTurn (Family.written? ((box (.edge a.first)).head ++ raw) .spacing)
        (Family.written? ((box (.edge a.second)).head ++ raw) .spacing) := by
  rw [written?_box hbox, written?_box hbox, written?_box hbox]
  cases spacingValue? raw with
  | none => rfl
  | some value => exact congrArg some (text_axis hbox a value)

/-! ### Widths and heights -/

theorem fraction?_bracketed (body : Text) : fraction? (bracketed body) = none := by
  refine Option.eq_none_iff_forall_ne_some.mpr fun value h => ?_
  obtain ⟨⟨numerator, denominator⟩, hcut, h⟩ := Option.bind_eq_some_iff.mp h
  obtain ⟨hdigits, -⟩ := Option.ite_none_right_eq_some.mp h
  obtain ⟨-, heq⟩ := Text.cut?_eq_some_iff.mp hcut
  simp only [isDigits, Bool.and_eq_true, decide_eq_true_eq, List.all_eq_true] at hdigits
  obtain ⟨⟨⟨hlength, -⟩, hnumerator⟩, -⟩ := hdigits
  -- a numerator would begin with the bracket
  cases numerator with
  | nil => exact absurd hlength (by decide)
  | cons c numerator =>
    have hc : CodePoint.char '[' = c := (List.cons.inj heq).1
    exact absurd (hnumerator c List.mem_cons_self) (by rw [← hc]; decide)

/-- Widths and heights take the values of the spacing scale, and those in brackets. -/
theorem value?_extent (d : Dimension) {raw value : Text} (h : spacingValue? raw = some value) :
    (extent d).value? raw = some value := by
  rw [spacingValue?, Option.orElse_eq_orElse, Option.orElse_eq_or, Option.or_eq_some_iff] at h
  show d.value? raw = some value
  rcases h with h | ⟨hnone, h⟩
  · rw [Dimension.value?, h]
    rfl
  · obtain ⟨body, -, rfl, -⟩ := bracketValue?_eq_some_iff.mp h
    have hscreen : bracketed body ≠ "screen" := fun heq =>
      absurd (List.cons.inj heq).1 (by decide)
    rw [Dimension.value?, hnone, if_neg hscreen, fraction?_bracketed, h]
    rfl

end FreeForm

/-! ### The grammar -/

/-- The families whose tokens end with a spacing value. -/
def spacingFamilies : List Family :=
  [.spacing, .gap, .spaceBetween]

theorem FreeForm.value?_of_mem {form : FreeForm} (h : form.family ∈ spacingFamilies) (raw : Text) :
    form.value? raw = spacingValue? raw := by
  cases form with
  | extent d => exact absurd h (by simp [family, spacingFamilies])
  | maxWidth => exact absurd h (by simp [family, spacingFamilies])
  | _ => rfl

/-- The tokens of paddings, margins, gaps and space between children are exactly a head and a
spacing value, in one way only, and the form says what is written.  An axis is written like its
two edges in turn.  Widths and heights take the same values. -/
theorem spacing_grammar :
    (∀ f ∈ spacingFamilies, ∀ token text : Text, f.written? token = some text ↔
      ∃ (form : FreeForm) (raw value : Text), form.family = f ∧ token = form.head ++ raw ∧
        spacingValue? raw = some value ∧ text = form.text value) ∧
    (∀ form form' : FreeForm, form.family ∈ spacingFamilies → form'.family ∈ spacingFamilies →
      ∀ raw raw' value value' : Text, spacingValue? raw = some value →
        spacingValue? raw' = some value' → form.head ++ raw = form'.head ++ raw' →
        form = form' ∧ raw = raw') ∧
    (∀ box ∈ FreeForm.boxes, ∀ (a : Axis) (raw : Text),
      Family.written? ((box (.axis a)).head ++ raw) .spacing =
        inTurn (Family.written? ((box (.edge a.first)).head ++ raw) .spacing)
          (Family.written? ((box (.edge a.second)).head ++ raw) .spacing)) ∧
    (∀ (d : Dimension) (raw value : Text), spacingValue? raw = some value →
      Family.written? ((FreeForm.extent d).head ++ raw) .extent =
        some ((FreeForm.extent d).text value)) := by
  refine ⟨fun f hf token text => ?_, fun form form' hform hform' raw raw' value value' h h' heq => ?_,
    fun box hbox a raw => FreeForm.written?_axis hbox a raw, fun d raw value h => ?_⟩
  · have hfree : f ∈ FreeForm.families := by
      have hsubset : ∀ f ∈ spacingFamilies, f ∈ FreeForm.families := by decide
      exact hsubset f hf
    rw [FreeForm.written?_eq_some_iff hfree]
    refine exists_congr fun form => exists_congr fun raw => exists_congr fun value => ?_
    refine and_congr_right fun hfamily => ?_
    rw [FreeForm.value?_of_mem (hfamily ▸ hf)]
  · rw [← FreeForm.value?_of_mem hform] at h
    rw [← FreeForm.value?_of_mem hform'] at h'
    exact FreeForm.unique heq h h'
  · exact FreeForm.written?_head (.extent d) (FreeForm.value?_extent d h)

/-- A computed margin under a sign on both edges of an axis, and a gap whose head goes on. -/
theorem spacing_grammar_signed :
    Family.written? "-mx-[calc(1px_+_2px)]" .spacing =
        some "margin-left: -calc(1px + 2px); margin-right: -calc(1px + 2px)" ∧
      Family.written? "gap-x-4" .gap = some "column-gap: 1rem" ∧
      ∀ (form : FreeForm) (raw value : Text), form.family = .gap →
        spacingValue? raw = some value → "gap-x-4" = form.head ++ raw → form = .gap (some .x) := by
  obtain ⟨hexact, hunique, -⟩ := spacing_grammar
  have hmargin : spacingValue? "[calc(1px_+_2px)]" = some ↑"calc(1px + 2px)" := by decide +kernel
  have hgap : spacingValue? "4" = some ↑"1rem" := by decide +kernel
  refine ⟨?_, ?_, fun form raw value hfamily hvalue htoken => ?_⟩
  · exact (hexact .spacing (by decide) _ _).mpr
      ⟨.margin true (.axis .x), _, _, rfl, by decide +kernel, hmargin, by decide +kernel⟩
  · exact (hexact .gap (by decide) _ _).mpr
      ⟨.gap (some .x), _, _, rfl, by decide +kernel, hgap, by decide +kernel⟩
  · have hhead : form.head ++ raw = (FreeForm.gap (some .x)).head ++ ↑"4" := by
      rw [← htoken]
      decide +kernel
    exact (hunique _ _ (by rw [hfamily]; decide) (by decide) raw _ value _ hvalue hgap hhead).1

end UtilityCss
