/-
Remarks about tokens that stand for a rule.

The check for `dark` under a breakpoint looks at the prefixes of a token, but what it says is true
of the rule: its selector asks for the dark scheme and its media query does not.  The check for
repeats says how often a token is listed, and nothing else depends on repeats.

* `Selector.dark_prefix_iff` — the selectors that begin with the ancestor for the dark scheme;
* `Rule.losesDarkQuery`, `losesDarkQuery_iff` — the rules that the first check is about, and how
  their tokens are written;
* `map_token_darkUnderBreakpoint`, `exists_of_mem_darkUnderBreakpoint`, `run_duplicates` — what the
  two checks report;
* `check_eraseDups` — the reports about a list without its repeats;
* `remarks_agree` — the remarks tell the truth about what is compiled.
-/
import UtilityCss.Proofs.DocumentOrder
import UtilityCss.Proofs.PrefixFix

namespace UtilityCss

/-! ### Selectors for the dark scheme -/

namespace Selector

variable {token base : Text} {b : Option Breakpoint} {v : Option Variant} {u : Utility}

/-- A selector without an ancestor does not begin like one for the dark scheme: its class would be
`dark`, which is no token for the space between children. -/
theorem not_dark_prefix_of_own (h : HasParts token b v base u) (hancestor : ancestor v = []) :
    ¬ ↑".dark " <+: text ⟨token, v, u.isBetweenChildren⟩ := by
  rintro ⟨more, hmore⟩
  set rest := pseudoClass v ++ childPart u.isBetweenChildren with hrest
  have htail : IsTail rest := isTail_tail v u.isBetweenChildren
  have hwritten : escape token ++ rest = escape ↑"dark" ++ .char ' ' :: more := by
    have htext : text ⟨token, v, u.isBetweenChildren⟩ = .char '.' :: (escape token ++ rest) := by
      rw [text_eq, hancestor]
      rfl
    exact (List.cons.inj (hmore.trans htext)).2.symm
  -- the class is read in both ways of writing the selector
  have hread : (token, rest) = (↑"dark", .char ' ' :: more) := by
    rw [← readEscaped_escape (fun c hc => isSelectorSpecial_or_isNameChar (h.mem_token c hc))
      htail.endsName, hwritten]
    refine readEscaped_escape (by decide) fun c hc => ?_
    obtain rfl := Option.some.inj (Option.mem_def.mp hc)
    exact ⟨by decide, by decide⟩
  obtain ⟨htoken, hblank⟩ := Prod.mk.inj hread
  have hdark : Spells token none none ↑"dark" := by
    rw [htoken]
    exact spells_base_iff.mpr ⟨by decide, rfl⟩
  obtain ⟨-, rfl, rfl⟩ := h.spells.unique hdark
  by_cases hchildren : u.isBetweenChildren = true
  · have hspace := (Utility.isBetweenChildren_iff h.reads).mp hchildren
    exact absurd hspace (by decide)
  · rw [Bool.not_eq_true] at hchildren
    rw [hrest, hchildren] at hblank
    exact absurd hblank (by simp [pseudoClass, childPart, Text.ofString])

/-- The selectors that begin with the ancestor for the dark scheme are those of its variant. -/
theorem dark_prefix_iff (h : HasParts token b v base u) :
    ↑".dark " <+: text ⟨token, v, u.isBetweenChildren⟩ ↔ v = some .dark := by
  constructor
  · intro hprefix
    rcases v with _ | s | _ | _
    · exact absurd hprefix (not_dark_prefix_of_own h rfl)
    · exact absurd hprefix (not_dark_prefix_of_own h rfl)
    · -- the ancestors differ in their second character
      rw [text_eq] at hprefix
      obtain ⟨more, hmore⟩ := hprefix
      have hsecond : CodePoint.char 'd' = CodePoint.char 'g' :=
        (List.cons.inj (List.cons.inj hmore).2).1
      exact absurd hsecond (by decide)
    · rfl
  · rintro rfl
    rw [text_eq]
    exact ⟨_, rfl⟩

end Selector

/-! ### The check for `dark` under a breakpoint -/

theorem Media.query_minWidth_ne (b : Breakpoint) :
    (minWidth b).query ≠ ↑"(prefers-color-scheme: dark)" := by
  intro hquery
  have hsecond : CodePoint.char 'm' = CodePoint.char 'p' :=
    (List.cons.inj (List.cons.inj hquery).2).1
  exact absurd hsecond (by decide)

/-- Whether the selector of a rule asks for the dark scheme, and its media query does not. -/
def Rule.losesDarkQuery (r : Rule) : Bool :=
  decide (↑".dark " <+: r.selector.text) &&
    decide (r.media.map Media.query ≠ some ↑"(prefers-color-scheme: dark)")

/-- The rules that lose the query are those of tokens with a breakpoint before `dark`, and theirs is
the query of the breakpoint. -/
theorem losesDarkQuery_iff {token : Text} {r : Rule} (h : resolve? token = some r) :
    r.losesDarkQuery = true ↔
      ∃ b, darkBreakpoint? token = some b ∧ r.media = some (.minWidth b) := by
  obtain ⟨b, v, base, u, hparts, rfl⟩ := resolve?_eq_some_iff.mp h
  rw [Rule.losesDarkQuery, Bool.and_eq_true, decide_eq_true_eq, decide_eq_true_eq, Rule.ofParts,
    Selector.dark_prefix_iff hparts, darkBreakpoint?_of_spells hparts.spells]
  by_cases hdark : v = some .dark
  · rw [if_pos hdark, hdark]
    cases b with
    | none =>
      -- the query is that of the variant
      constructor
      · rintro ⟨-, hquery⟩
        exact absurd rfl hquery
      · rintro ⟨b, hb, -⟩
        exact absurd hb (by simp)
    | some b =>
      constructor
      · intro _
        exact ⟨b, rfl, rfl⟩
      · intro _
        exact ⟨rfl, fun hquery => Media.query_minWidth_ne b (Option.some.inj hquery)⟩
  · rw [if_neg hdark]
    constructor
    · rintro ⟨hv, -⟩
      exact absurd hv hdark
    · rintro ⟨b, hb, -⟩
      exact absurd hb (by simp)

theorem media_of_darkBreakpoint? {token : Text} {r : Rule} {b : Breakpoint}
    (h : resolve? token = some r) (hb : darkBreakpoint? token = some b) :
    r.media = some (.minWidth b) := by
  obtain ⟨b', v, base, u, hparts, rfl⟩ := resolve?_eq_some_iff.mp h
  rw [darkBreakpoint?_of_spells hparts.spells] at hb
  obtain ⟨-, rfl⟩ := Option.ite_none_right_eq_some.mp hb
  rfl

/-- The tokens of the remarks are those whose rules lose the query. -/
theorem map_token_darkUnderBreakpoint (tokens : List Text) :
    (Check.run tokens .darkUnderBreakpoint).map Diagnostic.token =
      (tokens.eraseDups.filter fun t => (resolve? t).any Rule.losesDarkQuery).map some := by
  rw [Check.run, Check.findings, darkUnderBreakpoint, distinct, TokenSet.items_ofList,
    List.map_filterMap, List.map_filterMap, ← List.filterMap_eq_map, List.filterMap_filter]
  refine List.filterMap_congr fun t _ => ?_
  cases hresolve : resolve? t with
  | none => cases darkBreakpoint? t <;> rfl
  | some r =>
    cases hdark : darkBreakpoint? t with
    | none =>
      have hkept : ¬r.losesDarkQuery = true := by
        intro hlost
        obtain ⟨b, hb, -⟩ := (losesDarkQuery_iff hresolve).mp hlost
        exact absurd (hdark.symm.trans hb) (by simp)
      exact (if_neg hkept).symm
    | some b =>
      have hlost : r.losesDarkQuery = true :=
        (losesDarkQuery_iff hresolve).mpr ⟨b, hdark, media_of_darkBreakpoint? hresolve hdark⟩
      exact (if_pos hlost).symm

/-- Every such remark names the media query of the rule. -/
theorem exists_of_mem_darkUnderBreakpoint {tokens : List Text} {d : Diagnostic}
    (h : d ∈ Check.run tokens .darkUnderBreakpoint) :
    ∃ t r query, d.token = some t ∧ resolve? t = some r ∧ r.media.map Media.query = some query ∧
      d.message = "'" ++ t ++ "' is gated on " ++ query ++
        " only; the prefers-color-scheme query of 'dark:' is replaced." := by
  obtain ⟨f, hf, rfl⟩ := List.mem_map.mp h
  obtain ⟨t, -, hfinding⟩ := List.mem_filterMap.mp hf
  obtain ⟨b, hb, hfinding⟩ := Option.bind_eq_some_iff.mp hfinding
  obtain ⟨r, hr, hfinding⟩ := Option.bind_eq_some_iff.mp hfinding
  obtain rfl := Option.some.inj hfinding
  refine ⟨t, r, b.query, rfl, hr, ?_, rfl⟩
  rw [media_of_darkBreakpoint? hr hb]
  rfl

/-! ### The check for repeats -/

/-- The diagnostics about tokens that are listed more than once, with how often. -/
theorem run_duplicates (tokens : List Text) :
    Check.run tokens .duplicates =
      (tokens.eraseDups.filter fun t => 2 ≤ tokens.count t).map fun t =>
        { rule := "check_duplicates"
          severity := .info
          message := "'" ++ t ++ "' is listed " ++ Text.decimal (tokens.count t) ++ " times."
          token := some t
          fix := none } := by
  rw [Check.run, Check.findings, duplicates, distinct, TokenSet.items_ofList, List.map_filterMap,
    ← List.filterMap_eq_map, List.filterMap_filter]
  refine List.filterMap_congr fun t _ => ?_
  by_cases hcount : 2 ≤ tokens.count t
  · have hlisted : 1 < tokens.count t := hcount
    simp only [if_pos hlisted, decide_eq_true hcount]
    rfl
  · have hlisted : ¬1 < tokens.count t := hcount
    simp only [if_neg hlisted, decide_eq_false hcount]
    rfl

/-! ### Lists without their repeats -/

namespace Check

theorem rule_of_mem_run {tokens : List Text} {c : Check} {d : Diagnostic} (h : d ∈ c.run tokens) :
    d.rule = c.name := by
  rw [run, findings_eq] at h
  obtain ⟨f, hf, rfl⟩ := List.mem_map.mp h
  obtain ⟨token, -, hf⟩ := List.mem_flatMap.mp hf
  exact (names_of_mem_findingsOf hf).2

theorem name_ne_duplicates {c : Check} (h : c ≠ .duplicates) : c.name ≠ ↑"check_duplicates" := by
  intro hname
  have hlength := congrArg List.length hname
  cases c
  case duplicates => exact absurd rfl h
  all_goals exact absurd hlength (by decide)

/-- The other checks look at a token by itself. -/
theorem findingsOf_congr {c : Check} (h : c ≠ .duplicates) (tokens tokens' : List Text)
    (token : Text) : c.findingsOf tokens token = c.findingsOf tokens' token := by
  cases c
  case duplicates => exact absurd rfl h
  all_goals rfl

/-- Only the check for repeats sees them, and without repeats it has nothing to say. -/
theorem run_eraseDups (tokens : List Text) (c : Check) :
    c.run tokens.eraseDups = (c.run tokens).filter fun d => d.rule ≠ ↑"check_duplicates" := by
  by_cases hc : c = .duplicates
  · subst hc
    have hnone : run tokens.eraseDups .duplicates = [] := by
      rw [run_duplicates, List.map_eq_nil_iff, List.filter_eq_nil_iff]
      intro t _ hcount
      have honce := List.nodup_iff_count_le_one.mp (nodup_eraseDups tokens) t
      have htwice := of_decide_eq_true hcount
      omega
    rw [hnone, eq_comm, List.filter_eq_nil_iff]
    intro d hd hrule
    exact of_decide_eq_true hrule (rule_of_mem_run hd)
  · have hkept : (c.run tokens).filter (fun d => d.rule ≠ ↑"check_duplicates") = c.run tokens := by
      refine List.filter_eq_self.mpr fun d hd => decide_eq_true ?_
      rw [rule_of_mem_run hd]
      exact name_ne_duplicates hc
    have hdistinct : distinct tokens.eraseDups = distinct tokens := by
      rw [distinct, distinct, TokenSet.items_ofList, TokenSet.items_ofList, eraseDups_eraseDups]
    rw [hkept, run, run, findings_eq, findings_eq, hdistinct]
    simp only [findingsOf_congr hc tokens.eraseDups tokens]

end Check

/-- The reports about a list without its repeats are those about the list that are not about
repeats. -/
theorem check_eraseDups (tokens : List Text) :
    check tokens.eraseDups [] = (check tokens []).filter fun d => d.rule ≠ ↑"check_duplicates" := by
  rw [check, check, List.flatMap_nil, List.flatMap_nil, List.append_nil, List.append_nil,
    List.filter_flatMap]
  exact List.flatMap_congr fun c _ => Check.run_eraseDups tokens c

/-- The remarks tell the truth about what is compiled.  A breakpoint over `dark` is remarked on,
once for each token and in the order of the list, exactly if the rule of the token asks for the
dark scheme by its selector and not by its media query, which the remark names.  Repeats are
remarked on, once for each token and in the same order, with their number.  A list without its
repeats has the other reports of the list, and the same sheet. -/
theorem remarks_agree (tokens : List Text) :
    (Check.run tokens .darkUnderBreakpoint).map Diagnostic.token =
      (tokens.eraseDups.filter fun t => (resolve? t).any Rule.losesDarkQuery).map some ∧
    (∀ d ∈ Check.run tokens .darkUnderBreakpoint, ∃ t r query, d.token = some t ∧
      resolve? t = some r ∧ r.media.map Media.query = some query ∧
      d.message = "'" ++ t ++ "' is gated on " ++ query ++
        " only; the prefers-color-scheme query of 'dark:' is replaced.") ∧
    Check.run tokens .duplicates =
      ((tokens.eraseDups.filter fun t => 2 ≤ tokens.count t).map fun t =>
        { rule := "check_duplicates"
          severity := .info
          message := "'" ++ t ++ "' is listed " ++ Text.decimal (tokens.count t) ++ " times."
          token := some t
          fix := none }) ∧
    check tokens.eraseDups [] = (check tokens []).filter (fun d => d.rule ≠ ↑"check_duplicates") ∧
    compile tokens.eraseDups = compile tokens :=
  ⟨map_token_darkUnderBreakpoint tokens, fun _ => exists_of_mem_darkUnderBreakpoint,
    run_duplicates tokens, check_eraseDups tokens, compile_eraseDups tokens⟩

/-- A breakpoint over `dark` that is listed twice. -/
theorem remarks_agree_twice :
    (Check.run [↑"md:dark:p-4", ↑"p-4", ↑"md:dark:p-4"] .darkUnderBreakpoint).map
      Diagnostic.token = [some ↑"md:dark:p-4"] ∧
    (∃ d ∈ Check.run [↑"md:dark:p-4", ↑"p-4", ↑"md:dark:p-4"] .darkUnderBreakpoint,
      ∃ t r query, d.token = some t ∧ resolve? t = some r ∧
        r.media.map Media.query = some query ∧
        d.message = "'" ++ t ++ "' is gated on " ++ query ++
          " only; the prefers-color-scheme query of 'dark:' is replaced.") ∧
    (Check.run [↑"md:dark:p-4", ↑"p-4", ↑"md:dark:p-4"] .duplicates).map Diagnostic.message =
      [↑"'md:dark:p-4' is listed 2 times."] ∧
    compile [↑"md:dark:p-4", ↑"p-4"] = compile [↑"md:dark:p-4", ↑"p-4", ↑"md:dark:p-4"] := by
  obtain ⟨hdark, hnamed, hrepeats, -, hcompile⟩ :=
    remarks_agree [↑"md:dark:p-4", ↑"p-4", ↑"md:dark:p-4"]
  have htokens : (Check.run [↑"md:dark:p-4", ↑"p-4", ↑"md:dark:p-4"] .darkUnderBreakpoint).map
      Diagnostic.token = [some ↑"md:dark:p-4"] := by
    rw [hdark]
    rfl
  have htoken : some ↑"md:dark:p-4" ∈ (Check.run [↑"md:dark:p-4", ↑"p-4", ↑"md:dark:p-4"]
      .darkUnderBreakpoint).map Diagnostic.token := by
    rw [htokens]
    exact List.mem_cons_self
  obtain ⟨d, hd, -⟩ := List.mem_map.mp htoken
  have hdistinct : List.eraseDups [↑"md:dark:p-4", ↑"p-4", ↑"md:dark:p-4"] =
      ([↑"md:dark:p-4", ↑"p-4"] : List Text) := rfl
  refine ⟨htokens, ⟨d, hd, hnamed d hd⟩, ?_, ?_⟩
  · rw [hrepeats]
    rfl
  · rw [← hcompile, hdistinct]

end UtilityCss
