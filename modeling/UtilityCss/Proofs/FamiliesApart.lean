/-
No token belongs to two families.

Most families are told apart by how their tokens begin.  For the rest, what follows the beginning
decides: a colour is no type size, and has a longer name than a side of a border.

* `Family.rule?` — the rule of the utility that one family reads;
* `Literal.read?_eq_none` — what is a literal is read by no other family;
* `Color.not_fontSize`, `Color.not_borderWidth` — the families that begin alike;
* `Family.eq_of_read?` — a token that two families read is read by one;
* `resolveUtility?_inAnyOrder` — so the families may be asked in any order.
-/
import UtilityCss.Proofs.TokenGrammar

namespace UtilityCss

/-- The rule of the utility of this family that a token spells. -/
def Family.rule? (token : Text) (f : Family) : Option Rule :=
  (f.read? token).map (Rule.ofUtility token)

/-! ### Literals -/

theorem Literal.alignmentKeys_notRead :
    ∀ cs ∈ alignmentKeys, ∀ f ∈ Family.all, f ≠ .literal → f.read? (cs.map .char) = none := by
  decide +kernel

/-- What is a literal is read by no other family. -/
theorem Literal.read?_eq_none {token : Text} {u : Literal} (h : Literal.ofToken? token = some u)
    {f : Family} (hf : f ≠ .literal) : f.read? token = none := by
  rcases Literal.free_of_ofToken? h with ⟨cs, hcs, rfl⟩ | hfree
  · exact alignmentKeys_notRead cs hcs f f.mem_all hf
  · refine Option.eq_none_iff_forall_ne_some.mpr fun u hu => ?_
    obtain ⟨head, hhead, hbegins⟩ := Family.exists_head_of_read? hf hu
    exact hfree f head hhead hbegins

/-! ### Colours -/

theorem fontSizes_not_color : ∀ e ∈ fontSizes, Color.ofToken? (↑"text-" ++ e.1) = none := by
  decide +kernel

theorem Color.not_fontSize {token : Text} {u : Color} {size : FontSize}
    (hcolor : Color.ofToken? token = some u) (hsize : FontSize.ofToken? token = some size) :
    False := by
  simp only [FontSize.ofToken?, Option.bind_eq_bind, Option.bind_eq_some_iff] at hsize
  obtain ⟨key, hkey, ⟨value, lineHeight⟩, hlookup, -⟩ := hsize
  obtain rfl := Text.consume?_eq_some_iff.mp hkey
  have hnone := fontSizes_not_color _ (mem_of_lookup hlookup)
  exact absurd (hnone.symm.trans hcolor) (by simp)

theorem palette_names : ∀ e ∈ palette, 2 ≤ e.1.length := by
  decide +kernel

theorem ColorTarget.read?_keyword (target : ColorTarget) (rest : Text) :
    read? (target.keyword ++ rest) = some (target, rest) := by
  cases target <;> rfl

/-- Whether a text begins like the name of a colour, with at least two letters, or with a
bracket. -/
def beginsLikeColor (s : Text) : Bool :=
  s.head? = some (.char '[') || 2 ≤ (s.takeWhile CodePoint.isLower).length

theorem Color.beginsLikeColor_rest {target : ColorTarget} {rest : Text} {u : Color}
    (h : Color.ofToken? (target.keyword ++ rest) = some u) : beginsLikeColor rest = true := by
  rw [Color.ofToken?, ColorTarget.read?_keyword, Option.bind_eq_bind, Option.bind_some] at h
  dsimp only at h
  rw [beginsLikeColor, Bool.or_eq_true, decide_eq_true_eq, decide_eq_true_eq]
  split at h
  · -- the names of the palette are at least two letters long
    rename_i ref href
    obtain ⟨-, h⟩ := Option.ite_none_left_eq_some.mp h
    obtain ⟨value, hvalue, -⟩ := Option.map_eq_some_iff.mp h
    obtain ⟨entry, hentry, -⟩ := Option.bind_eq_some_iff.mp hvalue
    obtain ⟨shades, hname, -⟩ := Option.bind_eq_some_iff.mp hentry
    rw [PaletteRef.read?, List.span_eq_takeWhile_dropWhile] at href
    obtain ⟨-, href⟩ := Option.ite_none_left_eq_some.mp href
    obtain ⟨opacity, -, href⟩ := Option.bind_eq_some_iff.mp href
    obtain rfl := Option.some.inj href
    exact .inr (palette_names _ (mem_of_lookup hname))
  · obtain ⟨value, hvalue, -⟩ := Option.map_eq_some_iff.mp h
    rw [hexColor?.eq_def] at hvalue
    split at hvalue
    · exact .inl rfl
    · exact absurd hvalue (by simp)

/-! ### Borders -/

theorem not_beginsLikeColor_of_isDigits {low high : Nat} {s : Text}
    (h : isDigits low high s = true) : beginsLikeColor s = false := by
  simp only [isDigits, Bool.and_eq_true, List.all_eq_true] at h
  cases s with
  | nil => rfl
  | cons c s =>
    have hdigit := h.2 c List.mem_cons_self
    have hbracket : c ≠ '[' := by
      rintro rfl
      exact absurd hdigit (by decide)
    have hlower : c.isLower = false := by
      rw [Bool.eq_false_iff]
      intro hlower
      rw [not_isDigit_of_isAlpha (CodePoint.isAlpha_iff.mpr (.inr hlower))] at hdigit
      exact Bool.false_ne_true hdigit
    simp [beginsLikeColor, hbracket, hlower]

/-- A single letter does not begin the name of a colour. -/
theorem not_beginsLikeColor_cons {c : CodePoint} {s : Text} (hc : c.isLower = true)
    (hs : s.takeWhile CodePoint.isLower = []) : beginsLikeColor (c :: s) = false := by
  have hbracket : c ≠ '[' := by
    rintro rfl
    exact absurd hc (by decide)
  simp [beginsLikeColor, hbracket, hc, hs]

/-- After a hyphen, a side is a single letter and a width is digits. -/
theorem BorderWidth.not_beginsLikeColor {rest value : Text}
    (h : readWidth? (readSide (.char '-' :: rest)).2 = some value) :
    beginsLikeColor rest = false := by
  have hwidth (h : readWidth? (.char '-' :: rest) = some value) : beginsLikeColor rest = false :=
    not_beginsLikeColor_of_isDigits (Option.ite_none_right_eq_some.mp h).1
  rw [readSide.eq_def] at h
  split at h
  · rename_i heq
    obtain ⟨-, rfl⟩ := List.cons.inj heq
    split at h
    · exact not_beginsLikeColor_cons (Side.isLower_of_ofLetter? ‹_›) rfl
    · exact hwidth h
  · rename_i heq
    obtain ⟨-, rfl⟩ := List.cons.inj heq
    split at h
    · exact not_beginsLikeColor_cons (Side.isLower_of_ofLetter? ‹_›) rfl
    · exact hwidth h
  · exact hwidth h

theorem Color.not_borderWidth {token : Text} {u : Color} {width : BorderWidth}
    (hcolor : Color.ofToken? token = some u) (hwidth : BorderWidth.ofToken? token = some width) :
    False := by
  obtain ⟨⟨target, rest⟩, htarget, -⟩ := Option.bind_eq_some_iff.mp hcolor
  obtain rfl := ColorTarget.read?_eq_some htarget
  obtain ⟨tail, htail, hwidth⟩ := Option.bind_eq_some_iff.mp hwidth
  obtain ⟨value, hvalue, -⟩ := Option.bind_eq_some_iff.mp hwidth
  have hborder : target = .border := by
    have hbackground : Text.consume? "border" (ColorTarget.background.keyword ++ rest) = none := rfl
    have htext : Text.consume? "border" (ColorTarget.text.keyword ++ rest) = none := rfl
    cases target with
    | border => rfl
    | background => exact absurd (hbackground.symm.trans htail) (by simp)
    | text => exact absurd (htext.symm.trans htail) (by simp)
  subst hborder
  obtain rfl : .char '-' :: rest = tail := Option.some.inj htail
  have hshort := BorderWidth.not_beginsLikeColor hvalue
  exact absurd (hshort.symm.trans (Color.beginsLikeColor_rest hcolor)) (by simp)

/-! ### All families -/

/-- The families that begin alike do not read the same token. -/
theorem Family.not_read?_of_overlap {token : Text} {f g : Family} {u v : Utility}
    (hoverlap : (f, g) ∈ overlaps) (hf : f.read? token = some u) (hg : g.read? token = some v) :
    False := by
  simp only [overlaps, List.mem_cons, Prod.mk.injEq, List.not_mem_nil, or_false] at hoverlap
  rcases hoverlap with ⟨rfl, rfl⟩ | ⟨rfl, rfl⟩
  · obtain ⟨u, hu, -⟩ := Option.map_eq_some_iff.mp hf
    obtain ⟨v, hv, -⟩ := Option.map_eq_some_iff.mp hg
    exact Color.not_fontSize hu hv
  · obtain ⟨u, hu, -⟩ := Option.map_eq_some_iff.mp hf
    obtain ⟨v, hv, -⟩ := Option.map_eq_some_iff.mp hg
    exact Color.not_borderWidth hu hv

/-- A token that two families read is read by one. -/
theorem Family.eq_of_read? {token : Text} {f g : Family} {u v : Utility}
    (hf : f.read? token = some u) (hg : g.read? token = some v) : f = g := by
  by_contra hne
  by_cases hfliteral : f = .literal
  · subst hfliteral
    obtain ⟨u, hu, -⟩ := Option.map_eq_some_iff.mp hf
    rw [Literal.read?_eq_none hu (Ne.symm hne)] at hg
    exact absurd hg (by simp)
  by_cases hgliteral : g = .literal
  · subst hgliteral
    obtain ⟨v, hv, -⟩ := Option.map_eq_some_iff.mp hg
    rw [Literal.read?_eq_none hv hne] at hf
    exact absurd hf (by simp)
  by_cases hfg : (f, g) ∈ overlaps
  · exact not_read?_of_overlap hfg hf hg
  by_cases hgf : (g, f) ∈ overlaps
  · exact not_read?_of_overlap hgf hg hf
  -- neither is a literal, and their beginnings are apart
  obtain ⟨head, hhead, hbegins⟩ := exists_head_of_read? hfliteral hf
  obtain ⟨head', hhead', hbegins'⟩ := exists_head_of_read? hgliteral hg
  exact not_begins_both (heads_apart hne hfg hgf head hhead head' hhead') hbegins hbegins'

/-- What one family reads is what the search through all of them finds. -/
theorem Utility.ofToken?_of_read? {token : Text} {f : Family} {u : Utility}
    (h : f.read? token = some u) : Utility.ofToken? token = some u := by
  refine findSome?_eq_of_mem (fun g _ v hv => ?_) fun v hv => ⟨f, f.mem_all, h.trans hv⟩
  obtain rfl := Family.eq_of_read? h hv
  exact h.symm.trans hv

theorem Family.resolveUtility?_of_rule? {token : Text} {f : Family} {r : Rule}
    (h : f.rule? token = some r) : resolveUtility? token = some r := by
  obtain ⟨u, hu, rfl⟩ := Option.map_eq_some_iff.mp h
  rw [resolveUtility?, Utility.ofToken?_of_read? hu, Option.map_some]

/-- No token has a rule of two families, so that the families may be asked in any order, and the
first rule that is found is the only one. -/
theorem resolveUtility?_inAnyOrder (token : Text) :
    (∀ f g : Family, (f.rule? token).isSome = true → (g.rule? token).isSome = true → f = g) ∧
    (∀ order : List Family, order.Perm Family.all →
      order.findSome? (Family.rule? token) = resolveUtility? token) ∧
    ∀ (f : Family) (r : Rule), f.rule? token = some r → resolveUtility? token = some r := by
  refine ⟨fun f g hf hg => ?_, fun order horder => ?_, fun f r => Family.resolveUtility?_of_rule?⟩
  · rw [Family.rule?, Option.isSome_map, Option.isSome_iff_exists] at hf hg
    obtain ⟨u, hu⟩ := hf
    obtain ⟨v, hv⟩ := hg
    exact Family.eq_of_read? hu hv
  · refine findSome?_eq_of_mem (fun f _ r => Family.resolveUtility?_of_rule?) fun r hr => ?_
    obtain ⟨u, hu, rfl⟩ := Option.map_eq_some_iff.mp hr
    obtain ⟨f, -, hf⟩ := List.exists_of_findSome?_eq_some hu
    exact ⟨f, horder.mem_iff.mpr f.mem_all, by rw [Family.rule?, hf, Option.map_some]⟩

/-- A width of a border, where the families are asked from the last to the first. -/
theorem resolveUtility?_inAnyOrder_border :
    (∀ f : Family, (f.rule? "border-x-2").isSome = true → f = .borderWidth) ∧
      Family.all.reverse.findSome? (Family.rule? "border-x-2") = resolveUtility? "border-x-2" := by
  have hrule : (Family.rule? "border-x-2" .borderWidth).isSome = true := by decide +kernel
  obtain ⟨hunique, horder, -⟩ := resolveUtility?_inAnyOrder "border-x-2"
  exact ⟨fun f hf => hunique f .borderWidth hf hrule, horder _ (List.reverse_perm _)⟩

end UtilityCss
