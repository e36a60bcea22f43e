/-
The grammar of tokens.

A token that stands for a rule is a utility behind at most one breakpoint and at
most one variant, in that order, and its rule is determined by these parts.

* `Spells` — the parts of a token between its colons;
* `Spells.exists_front` — of what characters the prefixes are made;
* `Rule.ofParts` — the rule of the parts;
* `resolve?_eq_some_iff` — the rules of tokens are those of their parts; one lemma
  for each layer before it;
* `Rule.wellFormed_of_resolve?` — rules of tokens keep to the alphabets;
* `resolve?_of_mem_layers` — a rule that one layer finds is the rule of the token,
  whatever the order of the layers;
* `resolve?_grammar` — the grammar, with all that is written of a rule.
-/
import UtilityCss.Proofs.Families
import UtilityCss.Rule

namespace UtilityCss

/-! ### Names of prefixes -/

theorem Breakpoint.ofName?_eq_some_iff {name : Text} {b : Breakpoint} :
    ofName? name = some b ↔ name = b.name := by
  have hnames : ∀ b ∈ all, ofName? b.name = some b := by decide +kernel
  constructor
  · intro h
    have hname := List.find?_some h
    exact (of_decide_eq_true hname).symm
  · rintro rfl
    exact hnames b (by cases b <;> simp [all])

theorem Variant.ofName?_eq_some_iff {name : Text} {v : Variant} :
    ofName? name = some v ↔ name = v.name := by
  have hnames : ∀ v ∈ all, ofName? v.name = some v := by decide +kernel
  constructor
  · intro h
    have hname := List.find?_some h
    exact (of_decide_eq_true hname).symm
  · rintro rfl
    refine hnames v ?_
    rcases v with s | _ | _
    · cases s <;> simp [all, State.all]
    · simp [all]
    · simp [all]

/-- No name is that of a breakpoint and of a variant. -/
theorem Breakpoint.name_ne_variantName (b : Breakpoint) (v : Variant) : b.name ≠ v.name := by
  have hnames : ∀ b ∈ all, Variant.ofName? b.name = none := by decide +kernel
  intro h
  have hnone := hnames b (by cases b <;> simp [all])
  rw [Variant.ofName?_eq_some_iff.mpr h] at hnone
  exact absurd hnone (by simp)

theorem Breakpoint.name_injective {b b' : Breakpoint} (h : b.name = b'.name) : b = b' :=
  Option.some.inj ((ofName?_eq_some_iff.mpr rfl).symm.trans (ofName?_eq_some_iff.mpr h))

theorem Variant.name_injective {v v' : Variant} (h : v.name = v'.name) : v = v' :=
  Option.some.inj ((ofName?_eq_some_iff.mpr rfl).symm.trans (ofName?_eq_some_iff.mpr h))

theorem toList_name_injective {v v' : Option Variant}
    (h : (v.map Variant.name).toList = (v'.map Variant.name).toList) : v = v' := by
  rcases v with _ | v <;> rcases v' with _ | v'
  case none.none => rfl
  case some.some => rw [Variant.name_injective (List.head_eq_of_cons_eq h)]
  all_goals exact absurd h (by simp)

/-! ### The parts of a token -/

/-- The parts of a token between its colons: a breakpoint, a variant, each of
which may be missing, and a base. -/
def Spells (token : Text) (b : Option Breakpoint) (v : Option Variant) (base : Text) : Prop :=
  Text.segments ':' token =
    (b.map Breakpoint.name).toList ++ (v.map Variant.name).toList ++ [base]

theorem spells_base_iff {token base : Text} :
    Spells token none none base ↔ .char ':' ∉ token ∧ base = token :=
  Text.segments_eq_singleton_iff

theorem spells_variant_iff {token base : Text} {v : Variant} :
    Spells token none (some v) base ↔
      ∃ rest, Text.cut? ':' token = some (v.name, rest) ∧ Spells rest none none base :=
  Text.segments_eq_cons_iff

theorem spells_breakpoint_iff {token base : Text} {b : Breakpoint} {v : Option Variant} :
    Spells token (some b) v base ↔
      ∃ rest, Text.cut? ':' token = some (b.name, rest) ∧ Spells rest none v base := by
  cases v with
  | none => exact Text.segments_eq_cons_iff
  | some v => exact Text.segments_eq_cons_iff

/-- A token has its parts in one way only. -/
theorem Spells.unique {token base base' : Text} {b b' : Option Breakpoint}
    {v v' : Option Variant} (h : Spells token b v base) (h' : Spells token b' v' base') :
    b = b' ∧ v = v' ∧ base = base' := by
  have heq := h.symm.trans h'
  obtain ⟨hprefixes, hbase⟩ := List.append_inj' heq rfl
  refine and_assoc.mp ⟨?_, List.head_eq_of_cons_eq hbase⟩
  rcases b with _ | b <;> rcases b' with _ | b'
  -- a breakpoint on one side only would have the name of a variant
  case none.some =>
    rcases v with _ | v
    · exact absurd hprefixes (by simp)
    · exact absurd (List.head_eq_of_cons_eq hprefixes).symm (b'.name_ne_variantName v)
  case some.none =>
    rcases v' with _ | v'
    · exact absurd hprefixes (by simp)
    · exact absurd (List.head_eq_of_cons_eq hprefixes) (b.name_ne_variantName v')
  case none.none =>
    exact ⟨rfl, toList_name_injective hprefixes⟩
  case some.some =>
    obtain ⟨hb, hv⟩ := List.cons.inj hprefixes
    obtain rfl := Breakpoint.name_injective hb
    exact ⟨rfl, toList_name_injective hv⟩

/-! ### The rule of the parts -/

/-- The media query of the prefixes: that of the breakpoint takes the place of the
one the variant has. -/
def Media.ofPrefixes (b : Option Breakpoint) (v : Option Variant) : Option Media :=
  match b with
  | some b => some (.minWidth b)
  | none => v.bind Variant.media?

/-- The rule of a token with the given prefixes before a utility. -/
def Rule.ofParts (token : Text) (b : Option Breakpoint) (v : Option Variant) (u : Utility) :
    Rule where
  selector := ⟨token, v, u.isBetweenChildren⟩
  declarations := u.declarations
  media := Media.ofPrefixes b v

/-- The parts of a token whose base is a utility. -/
structure HasParts (token : Text) (b : Option Breakpoint) (v : Option Variant) (base : Text)
    (u : Utility) : Prop where
  spells : Spells token b v base
  reads : Utility.ofToken? base = some u

/-- No family reads a colon. -/
theorem Utility.not_mem_colon {token : Text} {u : Utility} (h : Utility.ofToken? token = some u) :
    .char ':' ∉ token := by
  intro hmem
  have hcolon := isTokenChar_of_mem_spelling (Utility.isUtility h).spelling _ hmem
  rw [isTokenChar, isBracketChar_eq] at hcolon
  exact absurd hcolon (by decide)

theorem Breakpoint.isKey_name (b : Breakpoint) : IsKey b.name := by
  cases b <;> exact Text.forall_mem_ofString rfl

/-- The name of a breakpoint begins like a name, or with a digit. -/
theorem Breakpoint.beginsName_or_isDigit (b : Breakpoint) (rest : Text) :
    beginsName (b.name ++ rest) = true ∨ (b.name ++ rest).head?.any CodePoint.isDigit = true := by
  cases b
  case xxl => exact .inr rfl
  all_goals exact .inl (beginsName_append rest (keyword_ofString rfl).1)

theorem Variant.keyword_wellFormed (v : Variant) : beginsName v.name = true ∧ IsKey v.name := by
  rcases v with s | _ | _
  · cases s <;> exact keyword_ofString rfl
  · exact keyword_ofString rfl
  · exact keyword_ofString rfl

/-- What stands before the base of a token are names of prefixes and their colons. -/
theorem Spells.exists_front {token base : Text} {b : Option Breakpoint} {v : Option Variant}
    (h : Spells token b v base) :
    ∃ front : Text, (∀ c ∈ front, c = ':' ∨ isStemChar c = true) ∧ token = front ++ base := by
  obtain ⟨front, hfront, rfl⟩ := Text.exists_front_of_segments h
  refine ⟨front, fun c hc => (hfront c hc).imp_right ?_, rfl⟩
  rintro ⟨name, hname, hmem⟩
  rcases List.mem_append.mp hname with hname | hname
  · obtain ⟨b, -, rfl⟩ := Option.map_eq_some_iff.mp (Option.mem_toList.mp hname)
    exact b.isKey_name c hmem
  · obtain ⟨v, -, rfl⟩ := Option.map_eq_some_iff.mp (Option.mem_toList.mp hname)
    exact v.keyword_wellFormed.2 c hmem

namespace HasParts

variable {token base : Text} {b : Option Breakpoint} {v : Option Variant} {u : Utility}

/-- Of what characters a token that stands for a rule is made. -/
theorem mem_token (h : HasParts token b v base u) :
    ∀ c ∈ token, c = ':' ∨ isTokenChar c = true := by
  obtain ⟨front, hfront, rfl⟩ := Spells.exists_front h.spells
  refine List.forall_mem_append.mpr ⟨fun c hc => ?_, fun c hc => .inr ?_⟩
  · exact (hfront c hc).imp_right fun hstem =>
      isTokenChar_of_isBracketChar (isBracketChar_of_isStemChar hstem)
  · exact isTokenChar_of_mem_spelling (Utility.isUtility h.reads).spelling c hc

/-- How a token that stands for a rule begins. -/
theorem beginsName_or_isDigit (h : HasParts token b v base u) :
    beginsName token = true ∨ token.head?.any CodePoint.isDigit = true := by
  rcases b with _ | b
  · rcases v with _ | v
    · obtain ⟨-, rfl⟩ := spells_base_iff.mp h.spells
      exact .inl (Utility.isUtility h.reads).beginsName
    · obtain ⟨rest, hcut, -⟩ := spells_variant_iff.mp h.spells
      rw [(Text.cut?_eq_some_iff.mp hcut).2]
      exact .inl (beginsName_append _ v.keyword_wellFormed.1)
  · obtain ⟨rest, hcut, -⟩ := spells_breakpoint_iff.mp h.spells
    rw [(Text.cut?_eq_some_iff.mp hcut).2]
    exact b.beginsName_or_isDigit _

end HasParts

theorem resolveUtility?_eq_some_iff {token : Text} {r : Rule} :
    resolveUtility? token = some r ↔
      ∃ base u, HasParts token none none base u ∧ r = Rule.ofParts token none none u := by
  rw [resolveUtility?, Option.map_eq_some_iff]
  constructor
  · rintro ⟨u, hu, rfl⟩
    exact ⟨token, u, ⟨spells_base_iff.mpr ⟨Utility.not_mem_colon hu, rfl⟩, hu⟩, rfl⟩
  · rintro ⟨base, u, ⟨hspells, hu⟩, rfl⟩
    obtain ⟨-, rfl⟩ := spells_base_iff.mp hspells
    exact ⟨u, hu, rfl⟩

theorem resolveVariant?_eq_some_iff {token : Text} {r : Rule} :
    resolveVariant? token = some r ↔
      ∃ v base u, HasParts token none (some v) base u ∧
        r = Rule.ofParts token none (some v) u := by
  simp only [resolveVariant?, Option.bind_eq_bind, Option.bind_eq_some_iff, Prod.exists,
    resolveUtility?_eq_some_iff, Variant.ofName?_eq_some_iff, Option.some.injEq]
  constructor
  · rintro ⟨name, rest, hcut, v, rfl, _, ⟨base, u, ⟨hspells, hu⟩, rfl⟩, rfl⟩
    exact ⟨v, base, u, ⟨spells_variant_iff.mpr ⟨rest, hcut, hspells⟩, hu⟩, rfl⟩
  · rintro ⟨v, base, u, ⟨hspells, hu⟩, rfl⟩
    obtain ⟨rest, hcut, hrest⟩ := spells_variant_iff.mp hspells
    exact ⟨v.name, rest, hcut, v, rfl, _, ⟨base, u, ⟨hrest, hu⟩, rfl⟩, rfl⟩

/-- Without a breakpoint, the two layers find the rule of the parts. -/
theorem resolveInner_eq_some_iff {token : Text} {r : Rule} :
    (resolveVariant? token).or (resolveUtility? token) = some r ↔
      ∃ v base u, HasParts token none v base u ∧ r = Rule.ofParts token none v u := by
  rw [Option.or_eq_some_iff]
  constructor
  · rintro (hvariant | ⟨-, hutility⟩)
    · obtain ⟨v, base, u, hparts, rfl⟩ := resolveVariant?_eq_some_iff.mp hvariant
      exact ⟨some v, base, u, hparts, rfl⟩
    · obtain ⟨base, u, hparts, rfl⟩ := resolveUtility?_eq_some_iff.mp hutility
      exact ⟨none, base, u, hparts, rfl⟩
  · rintro ⟨v, base, u, hparts, rfl⟩
    cases v with
    | some v => exact .inl (resolveVariant?_eq_some_iff.mpr ⟨v, base, u, hparts, rfl⟩)
    | none =>
      -- the layer before it finds nothing, since the parts are unique
      refine .inr ⟨?_, resolveUtility?_eq_some_iff.mpr ⟨base, u, hparts, rfl⟩⟩
      rw [Option.eq_none_iff_forall_ne_some]
      intro r hr
      obtain ⟨v, base', u', hparts', -⟩ := resolveVariant?_eq_some_iff.mp hr
      exact absurd (hparts.spells.unique hparts'.spells).2.1 (by simp)

theorem resolveBreakpoint?_eq_some_iff {token : Text} {r : Rule} :
    resolveBreakpoint? token = some r ↔
      ∃ b v base u, HasParts token (some b) v base u ∧
        r = Rule.ofParts token (some b) v u := by
  simp only [resolveBreakpoint?, Option.bind_eq_bind, Option.bind_eq_some_iff, Prod.exists,
    Breakpoint.ofName?_eq_some_iff, Option.orElse_eq_orElse, Option.orElse_eq_or,
    resolveInner_eq_some_iff, Option.some.injEq]
  constructor
  · rintro ⟨name, rest, hcut, b, rfl, _, ⟨v, base, u, ⟨hspells, hu⟩, rfl⟩, rfl⟩
    exact ⟨b, v, base, u, ⟨spells_breakpoint_iff.mpr ⟨rest, hcut, hspells⟩, hu⟩, rfl⟩
  · rintro ⟨b, v, base, u, ⟨hspells, hu⟩, rfl⟩
    obtain ⟨rest, hcut, hrest⟩ := spells_breakpoint_iff.mp hspells
    exact ⟨b.name, rest, hcut, b, rfl, _, ⟨v, base, u, ⟨hrest, hu⟩, rfl⟩, rfl⟩

/-- The rules of tokens are those of their parts. -/
theorem resolve?_eq_some_iff {token : Text} {r : Rule} :
    resolve? token = some r ↔
      ∃ b v base u, HasParts token b v base u ∧ r = Rule.ofParts token b v u := by
  simp only [resolve?, Option.orElse_eq_orElse, Option.orElse_eq_or]
  rw [Option.or_eq_some_iff, resolveInner_eq_some_iff]
  constructor
  · rintro (hbreakpoint | ⟨-, v, base, u, hparts, rfl⟩)
    · obtain ⟨b, v, base, u, hparts, rfl⟩ := resolveBreakpoint?_eq_some_iff.mp hbreakpoint
      exact ⟨some b, v, base, u, hparts, rfl⟩
    · exact ⟨none, v, base, u, hparts, rfl⟩
  · rintro ⟨b, v, base, u, hparts, rfl⟩
    cases b with
    | some b => exact .inl (resolveBreakpoint?_eq_some_iff.mpr ⟨b, v, base, u, hparts, rfl⟩)
    | none =>
      refine .inr ⟨?_, v, base, u, hparts, rfl⟩
      rw [Option.eq_none_iff_forall_ne_some]
      intro r hr
      obtain ⟨b, v', base', u', hparts', -⟩ := resolveBreakpoint?_eq_some_iff.mp hr
      exact absurd (hparts.spells.unique hparts'.spells).1 (by simp)

/-- A rule whose selector and declarations keep to their alphabets. -/
structure Rule.WellFormed (r : Rule) : Prop where
  begins : r.selector.text.head? = some '.'
  token : ∀ c ∈ r.selector.token, c = ':' ∨ isTokenChar c = true
  ne_nil : r.declarations ≠ []
  declarations : ∀ d ∈ r.declarations, d.WellFormed

theorem Rule.wellFormed_of_resolve? {token : Text} {r : Rule} (h : resolve? token = some r) :
    r.WellFormed := by
  obtain ⟨b, v, base, u, hparts, rfl⟩ := resolve?_eq_some_iff.mp h
  have hutility := Utility.isUtility hparts.reads
  refine ⟨?_, hparts.mem_token, hutility.ne_nil, hutility.wellFormed⟩
  rcases v with _ | s | _ | _ <;> rfl

/-! ### The layers -/

/-- The layers that look for the rule of a token, in the order in which they are
asked. -/
def layers : List (Text → Option Rule) :=
  [resolveBreakpoint?, resolveVariant?, resolveUtility?]

/-- A rule that a layer finds is the rule of the token. -/
theorem resolve?_of_mem_layers {layer : Text → Option Rule} {token : Text} {r : Rule}
    (hlayer : layer ∈ layers) (h : layer token = some r) : resolve? token = some r := by
  rw [resolve?_eq_some_iff]
  simp only [layers, List.mem_cons, List.not_mem_nil, or_false] at hlayer
  rcases hlayer with rfl | rfl | rfl
  · obtain ⟨b, v, base, u, hparts, rfl⟩ := resolveBreakpoint?_eq_some_iff.mp h
    exact ⟨some b, v, base, u, hparts, rfl⟩
  · obtain ⟨v, base, u, hparts, rfl⟩ := resolveVariant?_eq_some_iff.mp h
    exact ⟨none, some v, base, u, hparts, rfl⟩
  · obtain ⟨base, u, hparts, rfl⟩ := resolveUtility?_eq_some_iff.mp h
    exact ⟨none, none, base, u, hparts, rfl⟩

theorem exists_layer_of_resolve? {token : Text} {r : Rule} (h : resolve? token = some r) :
    ∃ layer ∈ layers, layer token = some r := by
  simp only [resolve?, Option.orElse_eq_orElse, Option.orElse_eq_or, Option.or_eq_some_iff] at h
  rcases h with h | ⟨-, h | ⟨-, h⟩⟩
  · exact ⟨resolveBreakpoint?, by simp [layers], h⟩
  · exact ⟨resolveVariant?, by simp [layers], h⟩
  · exact ⟨resolveUtility?, by simp [layers], h⟩

/-- Of any two layers, one finds nothing. -/
theorem layers_pairwise (token : Text) :
    layers.Pairwise fun first second => first token = none ∨ second token = none := by
  have hexclusive {first second : Text → Option Rule}
      (h : ∀ r r', first token = some r → second token = some r' → False) :
      first token = none ∨ second token = none := by
    rcases hfirst : first token with _ | r
    · exact .inl rfl
    · refine .inr (Option.eq_none_iff_forall_ne_some.mpr fun r' hsecond => ?_)
      exact h r r' hfirst hsecond
  refine List.pairwise_cons.mpr ⟨?_, List.pairwise_cons.mpr ⟨?_, List.pairwise_singleton ..⟩⟩
  · intro second hsecond
    refine hexclusive fun r r' hr hr' => ?_
    obtain ⟨b, v, base, u, hparts, -⟩ := resolveBreakpoint?_eq_some_iff.mp hr
    rcases List.mem_cons.mp hsecond with rfl | hsecond
    · obtain ⟨v', base', u', hparts', -⟩ := resolveVariant?_eq_some_iff.mp hr'
      exact absurd (hparts.spells.unique hparts'.spells).1 (by simp)
    · obtain rfl := List.mem_singleton.mp hsecond
      obtain ⟨base', u', hparts', -⟩ := resolveUtility?_eq_some_iff.mp hr'
      exact absurd (hparts.spells.unique hparts'.spells).1 (by simp)
  · intro second hsecond
    refine hexclusive fun r r' hr hr' => ?_
    obtain ⟨v, base, u, hparts, -⟩ := resolveVariant?_eq_some_iff.mp hr
    obtain rfl := List.mem_singleton.mp hsecond
    obtain ⟨base', u', hparts', -⟩ := resolveUtility?_eq_some_iff.mp hr'
    exact absurd (hparts.spells.unique hparts'.spells).2.1 (by simp)

/-- A search whose hits are all the same finds it in any order. -/
theorem findSome?_eq_of_mem {α β : Type} {read : α → Option β} {l : List α} {result : Option β}
    (hmem : ∀ a ∈ l, ∀ b, read a = some b → result = some b)
    (hexists : ∀ b, result = some b → ∃ a ∈ l, read a = some b) : l.findSome? read = result := by
  cases hfound : l.findSome? read with
  | some b =>
    obtain ⟨a, ha, hsome⟩ := List.exists_of_findSome?_eq_some hfound
    exact (hmem a ha b hsome).symm
  | none =>
    symm
    refine Option.eq_none_iff_forall_ne_some.mpr fun b hb => ?_
    obtain ⟨a, ha, hsome⟩ := hexists b hb
    have hnone := List.findSome?_eq_none_iff.mp hfound a ha
    exact absurd (hnone.symm.trans hsome) (by simp)

/-- The layers may be asked in any order. -/
theorem findSome?_of_perm_layers {order : List (Text → Option Rule)} (horder : order.Perm layers)
    (token : Text) : order.findSome? (· token) = resolve? token := by
  refine findSome?_eq_of_mem (fun layer hlayer r hr => ?_) fun r hr => ?_
  · exact resolve?_of_mem_layers (horder.mem_iff.mp hlayer) hr
  · obtain ⟨layer, hlayer, hsome⟩ := exists_layer_of_resolve? hr
    exact ⟨layer, horder.mem_iff.mpr hlayer, hsome⟩

/-! ### The grammar -/

/-- What is written for the media query of the prefixes. -/
def mediaText (b : Option Breakpoint) (v : Option Variant) : Option Text :=
  match b, v with
  | some b, _ => some b.query
  | none, some .dark => some "(prefers-color-scheme: dark)"
  | none, _ => none

/-- What is written after the class of a token for the space between children. -/
def childText (base : Text) : Text :=
  if ↑"space-x-" <+: base ∨ ↑"space-y-" <+: base then " > :not([hidden]) ~ :not([hidden])" else ""

/-- What is written for the selector of a token with a variant before its base. -/
def selectorText (v : Option Variant) (token base : Text) : Text :=
  match v with
  | none => "." ++ escape token ++ childText base
  | some (.state s) => "." ++ escape token ++ ":" ++ s.name ++ childText base
  | some .groupHover => ".group:hover " ++ ("." ++ escape token) ++ childText base
  | some .dark => ".dark " ++ ("." ++ escape token) ++ childText base

theorem Media.query_ofPrefixes (b : Option Breakpoint) (v : Option Variant) :
    (Media.ofPrefixes b v).map Media.query = mediaText b v := by
  rcases b with _ | b
  · rcases v with _ | s | _ | _ <;> rfl
  · rfl

theorem Selector.text_eq_selectorText {token base : Text} {v : Option Variant} {u : Utility}
    (hu : Utility.ofToken? base = some u) :
    Selector.text ⟨token, v, u.isBetweenChildren⟩ = selectorText v token base := by
  have htail : (if u.isBetweenChildren then childStep else "") = childText base := by
    simp only [childText, ← Utility.isBetweenChildren_iff hu]
    rfl
  have hclass : classSelector token = "." ++ escape token := rfl
  have hempty : Text.ofString "" = [] := rfl
  rw [Selector.text, htail, hclass]
  rcases v with _ | s | _ | _
  · simp only [ancestor, pseudoClass, selectorText, hempty, List.nil_append, List.append_nil]
  · have hstate : (':' :: s.name : Text) = ":" ++ s.name := rfl
    simp only [ancestor, pseudoClass, selectorText, hempty, hstate, List.nil_append,
      List.append_assoc]
  · simp only [ancestor, pseudoClass, selectorText, hempty, List.append_nil]
  · simp only [ancestor, pseudoClass, selectorText, hempty, List.append_nil]

/-- A token stands for a rule exactly if its parts are an optional breakpoint, an
optional variant and a base that is a utility.  The rule declares what the base
declares, its media query is that of the prefixes, and its selector is the class of
the whole token in the place the variant asks for.  At most one layer finds a rule,
so their order does not matter. -/
theorem resolve?_grammar (token : Text) :
    ((resolve? token).isSome = true ↔
      ∃ b v base, Spells token b v base ∧ (resolveUtility? base).isSome = true) ∧
    (∀ b v base r₀, Spells token b v base → resolveUtility? base = some r₀ →
      ∃ r, resolve? token = some r ∧
        r.declarations = r₀.declarations ∧
        r.media.map Media.query = mediaText b v ∧
        r.selector.text = selectorText v token base) ∧
    layers.Pairwise (fun first second => first token = none ∨ second token = none) ∧
    ∀ order : List (Text → Option Rule), order.Perm layers →
      order.findSome? (· token) = resolve? token := by
  refine ⟨?_, ?_, layers_pairwise token, fun order horder => findSome?_of_perm_layers horder token⟩
  · rw [Option.isSome_iff_exists]
    constructor
    · rintro ⟨r, hr⟩
      obtain ⟨b, v, base, u, hparts, -⟩ := resolve?_eq_some_iff.mp hr
      exact ⟨b, v, base, hparts.spells, by simp [resolveUtility?, hparts.reads]⟩
    · rintro ⟨b, v, base, hspells, hbase⟩
      rw [resolveUtility?, Option.isSome_map, Option.isSome_iff_exists] at hbase
      obtain ⟨u, hu⟩ := hbase
      exact ⟨_, resolve?_eq_some_iff.mpr ⟨b, v, base, u, ⟨hspells, hu⟩, rfl⟩⟩
  · intro b v base r₀ hspells hbase
    obtain ⟨u, hu, rfl⟩ := Option.map_eq_some_iff.mp hbase
    refine ⟨Rule.ofParts token b v u, ?_, rfl, Media.query_ofPrefixes b v, ?_⟩
    · exact resolve?_eq_some_iff.mpr ⟨b, v, base, u, ⟨hspells, hu⟩, rfl⟩
    · exact Selector.text_eq_selectorText hu

/-- The parts of a token with both prefixes, and what is written of its rule. -/
theorem resolve?_grammar_both :
    Spells ↑"2xl:dark:space-x-[3px]" (some .xxl) (some .dark) ↑"space-x-[3px]" ∧
      ∃ r, resolve? "2xl:dark:space-x-[3px]" = some r ∧
        r.media.map Media.query = some ↑"(min-width: 1536px)" ∧
        r.selector.text =
          ↑".dark .\\32 xl\\:dark\\:space-x-\\[3px\\] > :not([hidden]) ~ :not([hidden])" := by
  have hspells : Spells ↑"2xl:dark:space-x-[3px]" (some .xxl) (some .dark) ↑"space-x-[3px]" := by
    unfold Spells
    decide +kernel
  have hbase : (resolveUtility? "space-x-[3px]").isSome = true := by decide +kernel
  obtain ⟨r₀, hr₀⟩ := Option.isSome_iff_exists.mp hbase
  obtain ⟨r, hr, -, hmedia, hselector⟩ := (resolve?_grammar _).2.1 _ _ _ r₀ hspells hr₀
  refine ⟨hspells, r, hr, ?_, ?_⟩
  · rw [hmedia]
    decide +kernel
  · rw [hselector]
    decide +kernel

end UtilityCss
