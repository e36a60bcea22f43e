/-
What the checks find about one token.

Every check goes through the distinct tokens and reports on each of them by itself.  The
warnings about a token tell why it stands for no rule, and there are none if it does.

* `Check.findingsOf`, `Check.findings_eq` — the findings of a check, token by token;
* `Check.warningCount`, `Check.warningCount_eq` — how many warnings a check reports about
  a token of the list;
* `Misordered`, `unknownCount` — the two ways in which prefixes may be wrong;
* `Check.existsUnique_warningCount` — a token without a rule has the warnings of exactly
  one check;
* `exists_warning_iff` — a token has warnings exactly if it stands for no rule.
-/
import UtilityCss.Proofs.CompiledTokens
import UtilityCss.Check.Basic

namespace UtilityCss

/-! ### Token by token -/

namespace Check

/-- The findings of a check about one token of a list. -/
def findingsOf (tokens : List Text) (token : Text) : Check → List Finding
  | unknownPrefix => ((prefixesOf token).filter (!isPrefixName ·)).map fun name =>
      .unknownPrefix token name (Text.closest? prefixNames name)
  | prefixOrder => (misplaced? token).toList.map fun (variant, breakpoint) =>
      .misplacedBreakpoint token variant breakpoint
  | unmatched => if isUnmatched token then [.unmatched token] else []
  | darkUnderBreakpoint => ((darkBreakpoint? token).bind fun breakpoint =>
      (resolve? token).map fun _ => Finding.darkUnderBreakpoint token breakpoint).toList
  | duplicates =>
    if 1 < tokens.count token then [.duplicate token (tokens.count token)] else []

theorem filterMap_eq_flatMap {α β : Type} (f : α → Option β) (l : List α) :
    l.filterMap f = l.flatMap fun a => (f a).toList := by
  induction l with
  | nil => rfl
  | cons a l ih => cases h : f a <;> simp [h, ih]

/-- A check goes through the distinct tokens. -/
theorem findings_eq (tokens : List Text) (c : Check) :
    c.findings tokens = (distinct tokens).flatMap fun token => c.findingsOf tokens token := by
  cases c with
  | unknownPrefix => rfl
  | prefixOrder =>
    rw [findings, misplacedBreakpoints, filterMap_eq_flatMap]
    simp only [findingsOf, Option.toList_map]
  | unmatched =>
    rw [findings, unmatchedTokens, ← List.filterMap_eq_filter, List.map_filterMap,
      filterMap_eq_flatMap]
    congr 1
    funext token
    cases h : isUnmatched token <;> simp [findingsOf, h, Option.guard]
  | darkUnderBreakpoint =>
    rw [findings, UtilityCss.darkUnderBreakpoint, filterMap_eq_flatMap]
    congr 1
    funext token
    rw [findingsOf]
    cases darkBreakpoint? token <;> cases resolve? token <;> rfl
  | duplicates =>
    rw [findings, UtilityCss.duplicates, filterMap_eq_flatMap]
    congr 1
    funext token
    simp only [findingsOf]
    split <;> rfl

/-- A finding about a token names it and the check. -/
theorem names_of_mem_findingsOf {tokens : List Text} {token : Text} {c : Check} {f : Finding}
    (h : f ∈ c.findingsOf tokens token) : f.token = token ∧ f.rule = c.name := by
  cases c with
  | unknownPrefix =>
    obtain ⟨name, -, rfl⟩ := List.mem_map.mp h
    exact ⟨rfl, rfl⟩
  | prefixOrder =>
    obtain ⟨p, -, rfl⟩ := List.mem_map.mp h
    exact ⟨rfl, rfl⟩
  | unmatched =>
    rw [findingsOf] at h
    split at h
    · rw [List.mem_singleton.mp h]
      exact ⟨rfl, rfl⟩
    · exact absurd h (by simp)
  | darkUnderBreakpoint =>
    obtain ⟨breakpoint, -, hmap⟩ := Option.bind_eq_some_iff.mp (Option.mem_toList.mp h)
    obtain ⟨r, -, rfl⟩ := Option.map_eq_some_iff.mp hmap
    exact ⟨rfl, rfl⟩
  | duplicates =>
    rw [findingsOf] at h
    split at h
    · rw [List.mem_singleton.mp h]
      exact ⟨rfl, rfl⟩
    · exact absurd h (by simp)

theorem token_of_mem_findingsOf {tokens : List Text} {token : Text} {c : Check} {f : Finding}
    (h : f ∈ c.findingsOf tokens token) : f.token = token :=
  (names_of_mem_findingsOf h).1

/-! ### Counting -/

/-- Whether a diagnostic is a warning about a token. -/
def isWarningAbout (token : Text) (d : Diagnostic) : Bool :=
  d.severity = .warning && d.token = some token

/-- How many warnings about a token a check reports. -/
def warningCount (tokens : List Text) (token : Text) (c : Check) : Nat :=
  (c.run tokens).countP (isWarningAbout token)

/-- Only one member of a list without repeats contributes to a count. -/
theorem countP_flatMap_of_nodup {α β : Type} {l : List α} {a : α} {f : α → List β}
    {p : β → Bool} (hl : l.Nodup) (ha : a ∈ l) (h : ∀ b ∈ l, b ≠ a → (f b).countP p = 0) :
    (l.flatMap f).countP p = (f a).countP p := by
  induction l with
  | nil => exact absurd ha (by simp)
  | cons b l ih =>
    obtain ⟨hb, hl⟩ := List.nodup_cons.mp hl
    obtain ⟨hhead, htail⟩ := List.forall_mem_cons.mp h
    rw [List.flatMap_cons, List.countP_append]
    by_cases hba : b = a
    · -- the member is at the head, and not in the rest again
      subst hba
      have hrest : (l.flatMap f).countP p = 0 := by
        rw [List.countP_eq_zero]
        intro d hd
        obtain ⟨c, hc, hd⟩ := List.mem_flatMap.mp hd
        exact List.countP_eq_zero.mp (htail c hc fun hcb => hb (hcb ▸ hc)) d hd
      omega
    · have hmem : a ∈ l := (List.mem_cons.mp ha).resolve_left (Ne.symm hba)
      rw [hhead hba, ih hl hmem htail]
      omega

/-- The warnings about a token are those among the findings about it. -/
theorem warningCount_eq {tokens : List Text} {token : Text} (h : token ∈ tokens) (c : Check) :
    c.warningCount tokens token =
      (c.findingsOf tokens token).countP fun f => f.severity = .warning := by
  have hnodup : (distinct tokens).Nodup := (TokenSet.ofList tokens).nodup
  have hmem : token ∈ distinct tokens := TokenSet.mem_ofList.mpr h
  rw [warningCount, run, findings_eq, List.countP_map, countP_flatMap_of_nodup hnodup hmem]
  · refine List.countP_congr fun f hf => ?_
    simp [isWarningAbout, Finding.diagnostic, token_of_mem_findingsOf hf]
  · -- findings about another token name that one
    intro other _ hother
    rw [List.countP_eq_zero]
    intro f hf
    simp [isWarningAbout, Finding.diagnostic, token_of_mem_findingsOf hf, hother]

end Check

/-! ### Prefixes and rules -/

/-- Two prefixes, a variant and then a breakpoint. -/
def Misordered (token : Text) : Prop :=
  ∃ v b, prefixesOf token = [Variant.name v, Breakpoint.name b]

/-- How many prefixes are neither breakpoint nor variant, repeats included. -/
def unknownCount (token : Text) : Nat :=
  (prefixesOf token).countP fun name => !isPrefixName name

theorem isPrefixName_breakpoint (b : Breakpoint) : isPrefixName b.name = true := by
  rw [isPrefixName, Breakpoint.ofName?_eq_some_iff.mpr rfl]
  rfl

theorem isPrefixName_variant (v : Variant) : isPrefixName v.name = true := by
  rw [isPrefixName, Variant.ofName?_eq_some_iff.mpr rfl, Option.isSome_some, Bool.or_true]

theorem misplaced?_eq_some_iff {token : Text} {v : Variant} {b : Breakpoint} :
    misplaced? token = some (v, b) ↔ prefixesOf token = [v.name, b.name] := by
  rw [misplaced?]
  split
  · rename_i first second hprefixes
    simp only [Option.bind_eq_bind, Option.bind_eq_some_iff, Variant.ofName?_eq_some_iff,
      Breakpoint.ofName?_eq_some_iff, Option.some.injEq, Prod.mk.injEq, hprefixes,
      List.cons.injEq, and_true]
    constructor
    · rintro ⟨v, rfl, b, rfl, rfl, rfl⟩
      exact ⟨rfl, rfl⟩
    · rintro ⟨rfl, rfl⟩
      exact ⟨v, rfl, b, rfl, rfl, rfl⟩
  · rename_i hother
    constructor
    · intro h
      exact absurd h (by simp)
    · intro h
      exact absurd h (hother _ _)

theorem isSome_misplaced?_iff {token : Text} :
    (misplaced? token).isSome = true ↔ Misordered token := by
  rw [Option.isSome_iff_exists]
  constructor
  · rintro ⟨⟨v, b⟩, h⟩
    exact ⟨v, b, misplaced?_eq_some_iff.mp h⟩
  · rintro ⟨v, b, h⟩
    exact ⟨(v, b), misplaced?_eq_some_iff.mpr h⟩

instance (token : Text) : Decidable (Misordered token) :=
  decidable_of_iff _ isSome_misplaced?_iff

/-- The prefixes of a token are its parts before the base. -/
theorem Spells.prefixesOf_eq {token base : Text} {b : Option Breakpoint} {v : Option Variant}
    (h : Spells token b v base) :
    prefixesOf token = (b.map Breakpoint.name).toList ++ (v.map Variant.name).toList := by
  rw [prefixesOf, h, List.dropLast_concat]

theorem unknownCount_of_spells {token base : Text} {b : Option Breakpoint} {v : Option Variant}
    (h : Spells token b v base) : unknownCount token = 0 := by
  rw [unknownCount, h.prefixesOf_eq, List.countP_eq_zero]
  intro name hname
  rcases List.mem_append.mp hname with hname | hname
  · obtain ⟨b, -, rfl⟩ := Option.map_eq_some_iff.mp (Option.mem_toList.mp hname)
    simp [isPrefixName_breakpoint]
  · obtain ⟨v, -, rfl⟩ := Option.map_eq_some_iff.mp (Option.mem_toList.mp hname)
    simp [isPrefixName_variant]

theorem not_misordered_of_spells {token base : Text} {b : Option Breakpoint} {v : Option Variant}
    (h : Spells token b v base) : ¬ Misordered token := by
  rintro ⟨v', b', hprefixes⟩
  rw [h.prefixesOf_eq] at hprefixes
  -- without a breakpoint there are not two prefixes, with one the first is no variant
  rcases b with _ | b
  · rcases v with _ | v <;> exact absurd (congrArg List.length hprefixes) (by simp)
  · exact b.name_ne_variantName v' (List.head_eq_of_cons_eq hprefixes)

theorem unknownCount_of_misordered {token : Text} (h : Misordered token) :
    unknownCount token = 0 := by
  obtain ⟨v, b, hprefixes⟩ := h
  simp [unknownCount, hprefixes, isPrefixName_variant, isPrefixName_breakpoint]

/-- Wrong prefixes stand for no rule. -/
theorem resolve?_eq_none_of_prefixes {token : Text}
    (h : Misordered token ∨ 0 < unknownCount token) : resolve? token = none := by
  refine Option.eq_none_iff_forall_ne_some.mpr fun r hr => ?_
  obtain ⟨b, v, base, u, hparts, -⟩ := resolve?_eq_some_iff.mp hr
  rcases h with h | h
  · exact not_misordered_of_spells hparts.spells h
  · exact absurd (unknownCount_of_spells hparts.spells) (by omega)

theorem isUnmatched_iff {token : Text} :
    isUnmatched token = true ↔
      resolve? token = none ∧ ¬ Misordered token ∧ unknownCount token = 0 := by
  rw [isUnmatched, Bool.and_eq_true, Bool.and_eq_true, Option.isNone_iff_eq_none, and_assoc,
    ← isSome_misplaced?_iff, Bool.not_eq_true, Option.isSome_eq_false_iff, unknownCount,
    List.countP_eq_zero, List.all_eq_true]
  simp

/-! ### The warnings about a token -/

namespace Check

variable {tokens : List Text} {token : Text}

theorem warningCount_unknownPrefix (h : token ∈ tokens) :
    warningCount tokens token unknownPrefix = unknownCount token := by
  rw [warningCount_eq h, findingsOf, List.countP_map, unknownCount, List.countP_eq_length_filter,
    List.countP_eq_length_filter]
  refine congrArg List.length (List.filter_eq_self.mpr fun name _ => ?_)
  rfl

theorem warningCount_prefixOrder (h : token ∈ tokens) :
    warningCount tokens token prefixOrder = if Misordered token then 1 else 0 := by
  rw [warningCount_eq h, findingsOf]
  cases hmisplaced : misplaced? token with
  | none =>
    have hnot : ¬ Misordered token := by
      rw [← isSome_misplaced?_iff, hmisplaced]
      simp
    rw [if_neg hnot]
    rfl
  | some p =>
    have hmisordered : Misordered token := by
      rw [← isSome_misplaced?_iff, hmisplaced]
      rfl
    rw [if_pos hmisordered]
    rfl

theorem warningCount_unmatched (h : token ∈ tokens) :
    warningCount tokens token unmatched =
      if resolve? token = none ∧ ¬ Misordered token ∧ unknownCount token = 0 then 1 else 0 := by
  rw [warningCount_eq h, findingsOf]
  by_cases hunmatched : isUnmatched token = true
  · rw [if_pos hunmatched, if_pos (isUnmatched_iff.mp hunmatched)]
    rfl
  · rw [if_neg hunmatched, if_neg fun hnot => hunmatched (isUnmatched_iff.mpr hnot)]
    rfl

/-- The other checks report no warnings. -/
theorem warningCount_remarks (h : token ∈ tokens) :
    warningCount tokens token darkUnderBreakpoint = 0 ∧
      warningCount tokens token duplicates = 0 := by
  rw [warningCount_eq h, warningCount_eq h, List.countP_eq_zero, List.countP_eq_zero]
  refine ⟨fun f hf => ?_, fun f hf => ?_⟩
  · obtain ⟨breakpoint, -, hmap⟩ := Option.bind_eq_some_iff.mp (Option.mem_toList.mp hf)
    obtain ⟨r, -, rfl⟩ := Option.map_eq_some_iff.mp hmap
    simp [Finding.severity]
  · rw [findingsOf] at hf
    split at hf
    · rw [List.mem_singleton.mp hf]
      simp [Finding.severity]
    · exact absurd hf (by simp)

/-- A token without a rule has the warnings of exactly one check. -/
theorem existsUnique_warningCount (h : token ∈ tokens) (hnone : resolve? token = none) :
    ∃! c, 0 < warningCount tokens token c := by
  have hunknown := warningCount_unknownPrefix h
  have horder := warningCount_prefixOrder h
  have hunmatched := warningCount_unmatched h
  obtain ⟨hdark, hduplicates⟩ := warningCount_remarks h
  -- the check is found by what is wrong with the prefixes
  by_cases hmisordered : Misordered token
  · have hzero := unknownCount_of_misordered hmisordered
    rw [if_pos hmisordered] at horder
    rw [if_neg fun hnot => hnot.2.1 hmisordered] at hunmatched
    refine ⟨prefixOrder, by omega, fun c hc => ?_⟩
    cases c <;> first | rfl | omega
  · rw [if_neg hmisordered] at horder
    by_cases hzero : unknownCount token = 0
    · rw [if_pos ⟨hnone, hmisordered, hzero⟩] at hunmatched
      refine ⟨unmatched, by omega, fun c hc => ?_⟩
      cases c <;> first | rfl | omega
    · rw [if_neg fun hnot => hzero hnot.2.2] at hunmatched
      refine ⟨unknownPrefix, by omega, fun c hc => ?_⟩
      cases c <;> first | rfl | omega

theorem warningCount_of_isSome (h : token ∈ tokens) (hsome : resolve? token ≠ none) (c : Check) :
    warningCount tokens token c = 0 := by
  have hprefixes : ¬ (Misordered token ∨ 0 < unknownCount token) :=
    fun hwrong => hsome (resolve?_eq_none_of_prefixes hwrong)
  obtain ⟨hmisordered, hunknown⟩ := not_or.mp hprefixes
  cases c with
  | unknownPrefix =>
    rw [warningCount_unknownPrefix h]
    omega
  | prefixOrder => rw [warningCount_prefixOrder h, if_neg hmisordered]
  | unmatched => rw [warningCount_unmatched h, if_neg fun hnot => hsome hnot.1]
  | darkUnderBreakpoint => exact (warningCount_remarks h).1
  | duplicates => exact (warningCount_remarks h).2

end Check

theorem mem_check_iff {tokens : List Text} {d : Diagnostic} :
    d ∈ check tokens [] ↔ ∃ c : Check, d ∈ c.run tokens := by
  rw [check, List.flatMap_nil, List.append_nil, List.mem_flatMap]
  constructor
  · rintro ⟨c, -, hd⟩
    exact ⟨c, hd⟩
  · rintro ⟨c, hd⟩
    exact ⟨c, by cases c <;> simp [Check.all], hd⟩

/-- A token of the list has warnings exactly if it stands for no rule. -/
theorem exists_warning_iff {tokens : List Text} {token : Text} (h : token ∈ tokens) :
    (∃ d ∈ check tokens [], d.severity = .warning ∧ d.token = some token) ↔
      resolve? token = none := by
  constructor
  · rintro ⟨d, hd, hseverity, htoken⟩
    obtain ⟨c, hd⟩ := mem_check_iff.mp hd
    by_contra hsome
    have hzero := Check.warningCount_of_isSome h hsome c
    rw [Check.warningCount, List.countP_eq_zero] at hzero
    exact hzero d hd (by simp [Check.isWarningAbout, hseverity, htoken])
  · intro hnone
    obtain ⟨c, hc, -⟩ := Check.existsUnique_warningCount h hnone
    obtain ⟨d, hd, hwarning⟩ := List.countP_pos_iff.mp hc
    rw [Check.isWarningAbout, Bool.and_eq_true, decide_eq_true_eq, decide_eq_true_eq] at hwarning
    exact ⟨d, mem_check_iff.mpr ⟨c, hd⟩, hwarning.1, hwarning.2⟩

/-- Every diagnostic is about a token of the list. -/
theorem exists_token_of_mem_check {tokens : List Text} {d : Diagnostic}
    (h : d ∈ check tokens []) : ∃ token ∈ tokens, d.token = some token := by
  obtain ⟨c, hd⟩ := mem_check_iff.mp h
  rw [Check.run, Check.findings_eq] at hd
  obtain ⟨f, hf, rfl⟩ := List.mem_map.mp hd
  obtain ⟨token, htoken, hf⟩ := List.mem_flatMap.mp hf
  refine ⟨token, TokenSet.mem_ofList.mp htoken, ?_⟩
  rw [Finding.diagnostic, Check.token_of_mem_findingsOf hf]

/-- There are warnings exactly if some token stands for no rule. -/
theorem any_isWarning_iff {tokens : List Text} :
    (check tokens []).any (·.isWarning) = true ↔ ∃ token ∈ tokens, resolve? token = none := by
  rw [List.any_eq_true]
  constructor
  · rintro ⟨d, hd, hwarning⟩
    obtain ⟨token, hmem, htoken⟩ := exists_token_of_mem_check hd
    exact ⟨token, hmem, (exists_warning_iff hmem).mp ⟨d, hd, of_decide_eq_true hwarning, htoken⟩⟩
  · rintro ⟨token, hmem, hnone⟩
    obtain ⟨d, hd, hseverity, -⟩ := (exists_warning_iff hmem).mpr hnone
    exact ⟨d, hd, decide_eq_true hseverity⟩

end UtilityCss
