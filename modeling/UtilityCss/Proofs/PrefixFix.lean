/-
Prefixes put in the right order.

A breakpoint after a variant is reported together with a token in which the two have traded
places.  That token has its prefixes in order, so whether it stands for a rule depends on its base
alone, and the checks have nothing to say about it but what they say of the base.

* `segments_eq_prefixesOf` — the prefixes and the base are all parts of a token;
* `resolve?_of_spells`, `check_of_spells` — the rule of a token whose prefixes are in order, and
  what all checks report about it alone;
* `spells_reordered` — the suggested token has the same parts, in order;
* `prefixOrder_fix` — what the suggestion is worth.
-/
import UtilityCss.Proofs.Findings
import UtilityCss.Proofs.TokenSetOrder

namespace UtilityCss

/-! ### Prefixes and base -/

theorem segments_eq_prefixesOf (token : Text) :
    Text.segments ':' token = prefixesOf token ++ [baseOf token] := by
  have hne := Text.segments_ne_nil ':' token
  rw [prefixesOf, baseOf, List.getLast?_eq_some_getLast hne, Option.getD_some,
    List.dropLast_append_getLast hne]

theorem not_mem_baseOf (token : Text) : .char ':' ∉ baseOf token := by
  refine Text.not_mem_of_mem_segments (s := token) ?_
  rw [segments_eq_prefixesOf]
  exact List.mem_append_right _ List.mem_cons_self

/-! ### Tokens whose prefixes are in order -/

/-- What a check reports about a token alone. -/
theorem Check.run_singleton (token : Text) (c : Check) :
    c.run [token] = (c.findingsOf [token] token).map Finding.diagnostic := by
  have hdistinct : distinct [token] = [token] := by
    rw [distinct, TokenSet.items_ofList]
    rfl
  rw [Check.run, Check.findings_eq, hdistinct, List.flatMap_singleton]

section Spells

variable {token base : Text} {b : Option Breakpoint} {v : Option Variant}

/-- The rule of a token is that of its parts, if its base is a utility. -/
theorem resolve?_of_spells (h : Spells token b v base) :
    resolve? token = (Utility.ofToken? base).map (Rule.ofParts token b v) := by
  cases hbase : Utility.ofToken? base with
  | some u => exact resolve?_eq_some_iff.mpr ⟨b, v, base, u, ⟨h, hbase⟩, rfl⟩
  | none =>
    refine Option.eq_none_iff_forall_ne_some.mpr fun r hr => ?_
    obtain ⟨b', v', base', u, hparts, -⟩ := resolve?_eq_some_iff.mp hr
    obtain ⟨-, -, rfl⟩ := h.unique hparts.spells
    exact absurd (hbase.symm.trans hparts.reads) (by simp)

theorem misplaced?_of_spells (h : Spells token b v base) : misplaced? token = none := by
  rw [← Option.not_isSome_iff_eq_none, isSome_misplaced?_iff]
  exact not_misordered_of_spells h

theorem unknownPrefixes_of_spells (h : Spells token b v base) :
    (prefixesOf token).filter (!isPrefixName ·) = [] := by
  have hcount : (prefixesOf token).countP (!isPrefixName ·) = 0 := unknownCount_of_spells h
  rwa [List.countP_eq_length_filter, List.length_eq_zero_iff] at hcount

theorem isUnmatched_of_spells (h : Spells token b v base) :
    isUnmatched token = (Utility.ofToken? base).isNone := by
  rw [Bool.eq_iff_iff, isUnmatched_iff, resolve?_of_spells h, Option.map_eq_none_iff,
    Option.isNone_iff_eq_none]
  exact and_iff_left ⟨not_misordered_of_spells h, unknownCount_of_spells h⟩

/-- The breakpoint that takes the place of the media query of `dark`. -/
theorem darkBreakpoint?_of_spells (h : Spells token b v base) :
    darkBreakpoint? token = if v = some .dark then b else none := by
  rw [darkBreakpoint?, h.prefixesOf_eq]
  rcases b with _ | b
  · -- a variant alone is not two prefixes
    rcases v with _ | v
    · rfl
    · exact (ite_self _).symm
  · rcases v with _ | v
    · rfl
    · show (if v.name = Variant.dark.name then Breakpoint.ofName? b.name else none) = _
      rw [Breakpoint.ofName?_eq_some_iff.mpr rfl]
      by_cases hdark : v = .dark
      · rw [if_pos (congrArg Variant.name hdark), if_pos (congrArg some hdark)]
      · rw [if_neg fun hname => hdark (Variant.name_injective hname),
          if_neg fun hsome => hdark (Option.some.inj hsome)]

theorem run_unknownPrefix_of_spells (h : Spells token b v base) :
    Check.run [token] .unknownPrefix = [] := by
  rw [Check.run_singleton, Check.findingsOf, unknownPrefixes_of_spells h]
  rfl

theorem run_prefixOrder_of_spells (h : Spells token b v base) :
    Check.run [token] .prefixOrder = [] := by
  rw [Check.run_singleton, Check.findingsOf, misplaced?_of_spells h]
  rfl

/-- The checks report of a token whose prefixes are in order that its base is no utility, or else
that its breakpoint takes the place of the media query of `dark`. -/
theorem check_of_spells (h : Spells token b v base) :
    check [token] [] =
      match Utility.ofToken? base with
      | none => [(Finding.unmatched token).diagnostic]
      | some _ =>
        ((if v = some .dark then b else none).map fun b =>
          (Finding.darkUnderBreakpoint token b).diagnostic).toList := by
  have hcount : ¬1 < List.count token [token] := by
    rw [List.count_singleton_self]
    omega
  have hrest : check [token] [] = Check.run [token] .unmatched ++
      (Check.run [token] .darkUnderBreakpoint ++ Check.run [token] .duplicates) := by
    rw [check, List.flatMap_nil, Check.all]
    simp only [List.flatMap_cons, List.flatMap_nil, List.append_nil, List.nil_append,
      run_unknownPrefix_of_spells h, run_prefixOrder_of_spells h]
  simp only [hrest, Check.run_singleton, Check.findingsOf, isUnmatched_of_spells h,
    darkBreakpoint?_of_spells h, resolve?_of_spells h, if_neg hcount]
  generalize (if v = some .dark then b else none) = gated
  cases Utility.ofToken? base with
  | none => cases gated <;> rfl
  | some u => cases gated <;> rfl

end Spells

/-! ### The suggested token -/

/-- A base behind a breakpoint and a variant. -/
def reordered (b : Breakpoint) (v : Variant) (base : Text) : Text :=
  b.name ++ ":" ++ v.name ++ ":" ++ base

theorem Breakpoint.not_mem_name (b : Breakpoint) : .char ':' ∉ b.name := fun hmem =>
  absurd (b.isKey_name _ hmem) (by decide)

theorem Variant.not_mem_name (v : Variant) : .char ':' ∉ v.name := fun hmem =>
  absurd (v.keyword_wellFormed.2 _ hmem) (by decide)

theorem spells_reordered {base : Text} (b : Breakpoint) (v : Variant) (hbase : .char ':' ∉ base) :
    Spells (reordered b v base) (some b) (some v) base := by
  have hvariant : Spells (v.name ++ .char ':' :: base) none (some v) base :=
    spells_variant_iff.mpr ⟨base, Text.cut?_eq_some_iff.mpr ⟨v.not_mem_name, rfl⟩,
      spells_base_iff.mpr ⟨hbase, rfl⟩⟩
  have hsplit : reordered b v base = b.name ++ .char ':' :: (v.name ++ .char ':' :: base) := by
    simp only [reordered, List.append_assoc]
    rfl
  rw [hsplit]
  exact spells_breakpoint_iff.mpr ⟨_, Text.cut?_eq_some_iff.mpr ⟨b.not_mem_name, rfl⟩, hvariant⟩

/-- A diagnostic about the order of prefixes is about a token with a variant before a breakpoint,
and suggests the two in the other order. -/
theorem mem_run_prefixOrder_iff {tokens : List Text} {d : Diagnostic} :
    d ∈ Check.run tokens .prefixOrder ↔
      ∃ token ∈ tokens, ∃ v b, misplaced? token = some (v, b) ∧
        d = (Finding.misplacedBreakpoint token v b).diagnostic := by
  simp only [Check.run, Check.findings, misplacedBreakpoints, List.mem_map, List.mem_filterMap,
    distinct, TokenSet.items_ofList, List.mem_eraseDups, Option.map_eq_some_iff, Prod.exists]
  constructor
  · rintro ⟨f, ⟨token, htoken, v, b, hmisplaced, rfl⟩, rfl⟩
    exact ⟨token, htoken, v, b, hmisplaced, rfl⟩
  · rintro ⟨token, htoken, v, b, hmisplaced, rfl⟩
    exact ⟨_, ⟨token, htoken, v, b, hmisplaced, rfl⟩, rfl⟩

/-- A breakpoint after a variant is reported about a token that stands for no rule, together with
a token in which the two prefixes have traded places before the same base.  That token has nothing
wrong with its prefixes.  It stands for a rule exactly if the base does, and declares the same; the
checks then remark at most that the breakpoint takes the place of the media query of `dark`.
Otherwise they report once, that no utility matches. -/
theorem prefixOrder_fix (tokens : List Text) (d : Diagnostic)
    (hd : d ∈ Check.run tokens .prefixOrder) :
    ∃ token ∈ tokens, ∃ (v : Variant) (b : Breakpoint) (base fix : Text),
      d.token = some token ∧ d.fix = some fix ∧
      Text.segments ':' token = [v.name, b.name, base] ∧
      Text.segments ':' fix = [b.name, v.name, base] ∧
      resolve? token = none ∧
      Check.run [fix] .prefixOrder = [] ∧ Check.run [fix] .unknownPrefix = [] ∧
      ((resolve? fix).isSome = true ↔ (resolveUtility? base).isSome = true) ∧
      (∀ r₀, resolveUtility? base = some r₀ →
        (∃ r, resolve? fix = some r ∧ r.declarations = r₀.declarations) ∧
        ∃ remark : Diagnostic, remark.rule = "check_dark_under_breakpoint" ∧
          remark.severity = .info ∧ check [fix] [] = if v = .dark then [remark] else []) ∧
      (resolveUtility? base = none →
        ∃ warning : Diagnostic, warning.rule = "check_unmatched" ∧ check [fix] [] = [warning]) := by
  obtain ⟨token, htoken, v, b, hmisplaced, rfl⟩ := mem_run_prefixOrder_iff.mp hd
  have hprefixes := misplaced?_eq_some_iff.mp hmisplaced
  set fix := reordered b v (baseOf token)
  have hfix : Spells fix (some b) (some v) (baseOf token) :=
    spells_reordered b v (not_mem_baseOf token)
  refine ⟨token, htoken, v, b, baseOf token, fix, rfl, rfl, ?_, hfix,
    resolve?_eq_none_of_prefixes (.inl ⟨v, b, hprefixes⟩), run_prefixOrder_of_spells hfix,
    run_unknownPrefix_of_spells hfix, ?_, ?_, ?_⟩
  · rw [segments_eq_prefixesOf, hprefixes]
    rfl
  · rw [resolve?_of_spells hfix, resolveUtility?, Option.isSome_map, Option.isSome_map]
  · intro r₀ hr₀
    obtain ⟨u, hu, rfl⟩ := Option.map_eq_some_iff.mp hr₀
    refine ⟨⟨Rule.ofParts fix b v u, ?_, rfl⟩,
      (Finding.darkUnderBreakpoint fix b).diagnostic, rfl, rfl, ?_⟩
    · rw [resolve?_of_spells hfix, hu]
      rfl
    · rw [check_of_spells hfix, hu]
      by_cases hdark : v = .dark
      · simp only [if_pos hdark, if_pos (congrArg some hdark)]
        rfl
      · simp only [if_neg hdark, if_neg fun hsome => hdark (Option.some.inj hsome)]
        rfl
  · intro hnone
    have hbase : Utility.ofToken? (baseOf token) = none := Option.map_eq_none_iff.mp hnone
    refine ⟨(Finding.unmatched fix).diagnostic, rfl, ?_⟩
    rw [check_of_spells hfix, hbase]

/-- The dark scheme before a breakpoint. -/
theorem prefixOrder_fix_dark :
    (∃ d ∈ Check.run [↑"p-4", ↑"dark:2xl:p-4"] .prefixOrder,
      d.token = some ↑"dark:2xl:p-4" ∧ d.fix = some ↑"2xl:dark:p-4") ∧
    resolve? "dark:2xl:p-4" = none ∧
    (∃ r r₀, resolve? "2xl:dark:p-4" = some r ∧ resolveUtility? "p-4" = some r₀ ∧
      r.declarations = r₀.declarations) ∧
    ∃ remark : Diagnostic, remark.rule = "check_dark_under_breakpoint" ∧
      check [↑"2xl:dark:p-4"] [] = [remark] := by
  have hmisplaced : misplaced? ↑"dark:2xl:p-4" = some (.dark, .xxl) := rfl
  have hmem : (Finding.misplacedBreakpoint ↑"dark:2xl:p-4" .dark .xxl).diagnostic ∈
      Check.run [↑"p-4", ↑"dark:2xl:p-4"] .prefixOrder :=
    mem_run_prefixOrder_iff.mpr ⟨_, by simp, .dark, .xxl, hmisplaced, rfl⟩
  obtain ⟨token, -, v, b, base, fix, htoken, hfix, -, hparts, hnone, -, -, -, hsome, -⟩ :=
    prefixOrder_fix _ _ hmem
  obtain rfl := Option.some.inj htoken
  have hfixed : fix = ↑"2xl:dark:p-4" := (Option.some.inj hfix).symm
  subst hfixed
  have hknown : Text.segments ':' ↑"2xl:dark:p-4" =
      [Breakpoint.name .xxl, Variant.name .dark, ↑"p-4"] := rfl
  obtain ⟨-, hname, rfl, -⟩ : _ ∧ Variant.name .dark = v.name ∧ ↑"p-4" = base ∧ _ := by
    simpa only [List.cons.injEq] using hknown.symm.trans hparts
  obtain rfl := Variant.name_injective hname
  have hbase : (resolveUtility? "p-4").isSome = true := rfl
  obtain ⟨r₀, hr₀⟩ := Option.isSome_iff_exists.mp hbase
  obtain ⟨⟨r, hr, hdeclarations⟩, remark, hrule, -, hcheck⟩ := hsome r₀ hr₀
  exact ⟨⟨_, hmem, rfl, hfix⟩, hnone, ⟨r, r₀, hr, hr₀, hdeclarations⟩, remark, hrule, hcheck⟩

end UtilityCss
