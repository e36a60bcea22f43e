/-
The exit code of the checks.

With `--strict`, the exit code tells whether some token stands for no rule.  A report can
only stop short on a surrogate, which no token with a rule has, so the exit code is the
same then.

* `isEncodable_reportLines` — the report about such tokens can be written;
* `Cli.Outcome.exitCode`, `Cli.exitCode_check` — the exit code of a check on all ways
  to gather tokens;
* `check_agrees` — the checks agree with the rules, for every token and for the exit
  code.
-/
import UtilityCss.Cli.Run
import UtilityCss.Proofs.Findings

namespace UtilityCss

/-! ### Texts without surrogates -/

theorem Text.mem_of_mem_controlEnd? {s rest : Text} {c : CodePoint}
    (h : controlEnd? s = some rest) (hc : c ∈ rest) : c ∈ s := by
  induction s with
  | nil => exact absurd h (by simp [controlEnd?])
  | cons d s ih =>
    rw [controlEnd?] at h
    split at h
    · exact List.mem_cons_of_mem _ (ih h)
    · obtain ⟨-, h⟩ := Option.ite_none_right_eq_some.mp h
      obtain rfl := Option.some.inj h
      exact List.mem_cons_of_mem _ hc

theorem Text.mem_of_mem_stripControls {s : Text} {c : CodePoint} (h : c ∈ stripControls s) :
    c ∈ s := by
  induction s using stripControls.induct with
  | case1 => exact absurd h (by simp [stripControls])
  | case2 rest after hafter _ ih =>
    rw [stripControls] at h
    split at h
    · rename_i after' hafter'
      obtain rfl := Option.some.inj (hafter.symm.trans hafter')
      have hrest := mem_of_mem_controlEnd? hafter (ih h)
      exact List.mem_cons_of_mem _ (List.mem_cons_of_mem _ hrest)
    · rename_i hnone
      exact absurd (hafter.symm.trans hnone) (by simp)
  | case3 rest hnone ih =>
    rw [stripControls] at h
    split at h
    · rename_i hafter
      exact absurd (hnone.symm.trans hafter) (by simp)
    · rcases List.mem_cons.mp h with rfl | h
      · exact List.mem_cons_self
      · exact List.mem_cons_of_mem _ (ih h)
  | case4 d rest hother ih =>
    rw [stripControls.eq_3 _ _ hother] at h
    rcases List.mem_cons.mp h with rfl | h
    · exact List.mem_cons_self
    · exact List.mem_cons_of_mem _ (ih h)

/-! ### The report -/

/-- A similar name is one of the names. -/
theorem mem_of_closest? {names : List Text} {word name : Text}
    (h : Text.closest? names word = some name) : name ∈ names := by
  rw [Text.closest?] at h
  obtain ⟨best, hbest, rfl⟩ := Option.map_eq_some_iff.mp h
  -- the search keeps to the candidates, and these are the names that are similar enough
  refine List.foldlRecOn (motive := fun best? => ∀ p ∈ best?, p.2 ∈ names) _ _ (by simp)
    (fun best? hbest? candidate hcandidate => ?_) best (Option.mem_def.mpr hbest)
  obtain ⟨other, hother, rfl⟩ := List.mem_map.mp (List.mem_filter.mp hcandidate).1
  cases best? with
  | none => simpa using hother
  | some best =>
    dsimp only
    split
    · exact hbest?
    · simpa using hother

theorem isEncodable_breakpointName (b : Breakpoint) : IsEncodable b.name := by
  cases b <;> exact isEncodable_ofString _

theorem isEncodable_variantName (v : Variant) : IsEncodable v.name := by
  rcases v with s | _ | _
  · cases s <;> exact isEncodable_ofString _
  all_goals exact isEncodable_ofString _

theorem isEncodable_query (b : Breakpoint) : IsEncodable b.query :=
  ((isEncodable_ofString _).append (isEncodable_decimal _)).append (isEncodable_ofString _)

theorem isEncodable_prefixNames : ∀ name ∈ prefixNames, IsEncodable name := by
  repeat refine List.forall_mem_cons.mpr ⟨isEncodable_ofString _, ?_⟩
  exact List.forall_mem_nil _

theorem isEncodable_prefix {token name : Text} (h : IsEncodable token)
    (hname : name ∈ prefixesOf token) : IsEncodable name :=
  h.segment (List.dropLast_subset _ hname)

theorem isEncodable_baseOf {token : Text} (h : IsEncodable token) : IsEncodable (baseOf token) := by
  rw [baseOf]
  cases hlast : (Text.segments ':' token).getLast? with
  | none => exact List.forall_mem_nil _
  | some base => exact h.segment (List.mem_of_getLast? hlast)

/-- What a check says about a token can be written if the token can. -/
theorem isEncodable_finding {tokens : List Text} {token : Text} {c : Check} {f : Finding}
    (htoken : IsEncodable token) (h : f ∈ c.findingsOf tokens token) :
    IsEncodable f.message ∧ ∀ fix ∈ f.fix?, IsEncodable fix := by
  have hliteral := isEncodable_ofString
  cases c with
  | unknownPrefix =>
    obtain ⟨name, hname, rfl⟩ := List.mem_map.mp h
    have hname := isEncodable_prefix htoken (List.mem_filter.mp hname).1
    refine ⟨((((hliteral _).append hname).append (hliteral _)).append htoken).append (hliteral _),
      fun fix hfix => ?_⟩
    obtain ⟨similar, hsimilar, rfl⟩ := Option.map_eq_some_iff.mp (Option.mem_def.mp hfix)
    have hsimilar := isEncodable_prefixNames similar (mem_of_closest? hsimilar)
    exact ((hliteral _).append hsimilar).append (hliteral _)
  | prefixOrder =>
    obtain ⟨⟨v, b⟩, -, rfl⟩ := List.mem_map.mp h
    have hv := isEncodable_variantName v
    have hb := isEncodable_breakpointName b
    refine ⟨((((((hliteral _).append hv).append (hliteral _)).append hb).append (hliteral _)).append
      htoken).append (hliteral _), fun fix hfix => ?_⟩
    obtain rfl := Option.some.inj (Option.mem_def.mp hfix)
    exact (((hb.append (hliteral _)).append hv).append (hliteral _)).append
      (isEncodable_baseOf htoken)
  | unmatched =>
    rw [Check.findingsOf] at h
    split at h
    · rw [List.mem_singleton.mp h]
      refine ⟨((hliteral _).append htoken).append (hliteral _), fun fix hfix => ?_⟩
      exact absurd hfix (by simp [Finding.fix?])
    · exact absurd h (by simp)
  | darkUnderBreakpoint =>
    obtain ⟨b, -, hmap⟩ := Option.bind_eq_some_iff.mp (Option.mem_toList.mp h)
    obtain ⟨r, -, rfl⟩ := Option.map_eq_some_iff.mp hmap
    refine ⟨((((hliteral _).append htoken).append (hliteral _)).append (isEncodable_query b)).append
      (hliteral _), fun fix hfix => ?_⟩
    exact absurd hfix (by simp [Finding.fix?])
  | duplicates =>
    rw [Check.findingsOf] at h
    split at h
    · rw [List.mem_singleton.mp h]
      refine ⟨((((hliteral _).append htoken).append (hliteral _)).append
        (isEncodable_decimal _)).append (hliteral _), fun fix hfix => ?_⟩
      exact absurd hfix (by simp [Finding.fix?])
    · exact absurd h (by simp)

theorem isEncodable_textWithFix {d : Diagnostic} (htoken : ∀ t ∈ d.token, IsEncodable t)
    (hmessage : IsEncodable d.message) (hfix : ∀ fix ∈ d.fix, IsEncodable fix) :
    IsEncodable d.textWithFix := by
  have hseverity : IsEncodable d.severity.name := by
    cases d.severity <;> exact isEncodable_ofString _
  have hpresent {s : Option Text} {t : Text} (hs : ∀ t ∈ s, IsEncodable t)
      (ht : Diagnostic.present? s = some t) : IsEncodable t :=
    hs t (Option.mem_def.mpr (Option.filter_eq_some_iff.mp ht).1)
  have htext : IsEncodable d.text := by
    rw [Diagnostic.text]
    refine ((hseverity.append ?_).append (isEncodable_ofString _)).append hmessage
    split
    · rename_i token hsome
      exact ((isEncodable_ofString _).append (hpresent htoken hsome)).append (isEncodable_ofString _)
    · exact isEncodable_ofString _
  rw [Diagnostic.textWithFix]
  split
  · rename_i fix hsome
    exact ((htext.append (isEncodable_ofString _)).append (hpresent hfix hsome)).append
      (isEncodable_ofString _)
  · exact htext

/-- Tokens that stand for a rule have no surrogates. -/
theorem isEncodable_of_resolve? {token : Text} {r : Rule} (h : resolve? token = some r) :
    IsEncodable token := by
  obtain ⟨b, v, base, u, hparts, -⟩ := resolve?_eq_some_iff.mp h
  intro c hc
  rcases hparts.mem_token c hc with rfl | hchar
  · rfl
  · cases c with
    | char d => rfl
    | surrogate place =>
      rw [isTokenChar, isBracketChar_eq] at hchar
      exact absurd hchar (by simp [CodePoint.isAlphanum, CodePoint.isIn, bracketPunctuation])

namespace Cli

/-- The report about tokens without surrogates has none. -/
theorem isEncodable_reportLines {tokens : List Text} (h : ∀ t ∈ tokens, IsEncodable t) :
    ∀ line ∈ reportLines (check tokens []), IsEncodable line := by
  intro line hline
  rw [reportLines] at hline
  split at hline
  · rw [List.mem_singleton.mp hline]
    exact isEncodable_ofString _
  · rcases List.mem_append.mp hline with hline | hline
    · obtain ⟨d, hd, rfl⟩ := List.mem_map.mp hline
      obtain ⟨c, hd⟩ := mem_check_iff.mp hd
      rw [Check.run, Check.findings_eq] at hd
      obtain ⟨f, hf, rfl⟩ := List.mem_map.mp hd
      obtain ⟨token, hmem, hf⟩ := List.mem_flatMap.mp hf
      have htoken := h token (TokenSet.mem_ofList.mp hmem)
      obtain ⟨hmessage, hfix⟩ := isEncodable_finding htoken hf
      refine isEncodable_textWithFix (fun t ht => ?_) hmessage hfix
      rw [← Option.some.inj (Option.mem_def.mp ht), Check.token_of_mem_findingsOf hf]
      exact htoken
    · rcases List.mem_cons.mp hline with rfl | hline
      · exact List.forall_mem_nil _
      · rw [List.mem_singleton.mp hline]
        exact ((((isEncodable_ofString _).append (isEncodable_decimal _)).append
          (isEncodable_ofString _)).append (isEncodable_decimal _)).append (isEncodable_ofString _)

/-! ### Printing -/

theorem print_ok {text : Text} (h : IsEncodable text) (c : Console) :
    ∃ c', print text c = .ok c' := by
  have hnone : Text.unencodable? (Text.stripControls text) = none :=
    Text.unencodable?_eq_none_iff.mpr fun d hd => h d (Text.mem_of_mem_stripControls hd)
  refine ⟨{ c with out := c.out ++ Text.stripControls text }, ?_⟩
  simp only [print, Console.print, hnone]
  rfl

theorem printLines_ok {lines : List Text} (h : ∀ line ∈ lines, IsEncodable line) (c : Console) :
    ∃ c', printLines lines c = .ok c' := by
  induction lines generalizing c with
  | nil => exact ⟨c, rfl⟩
  | cons line lines ih =>
    obtain ⟨hline, hlines⟩ := List.forall_mem_cons.mp h
    obtain ⟨c', hc'⟩ := print_ok (hline.append (isEncodable_ofString "\n")) c
    obtain ⟨c'', hc''⟩ := ih hlines c'
    refine ⟨c'', ?_⟩
    rw [printLines, List.foldlM_cons, hc']
    exact hc''

/-- Printing fails only by ending the run. -/
theorem printLines_error {lines : List Text} {c : Console} {outcome : Outcome}
    (h : printLines lines c = .error outcome) :
    ∃ reason console, outcome = .aborted reason console := by
  induction lines generalizing c with
  | nil => exact absurd h (by simp [printLines, pure, Except.pure])
  | cons line lines ih =>
    rw [printLines, List.foldlM_cons] at h
    cases hprint : print (line ++ "\n") c with
    | ok c' =>
      rw [hprint] at h
      exact ih h
    | error e =>
      rw [hprint] at h
      obtain rfl := Except.error.inj h
      rw [print] at hprint
      cases hconsole : c.print (line ++ "\n") with
      | ok c' =>
        rw [hconsole] at hprint
        exact absurd hprint (by simp [Except.mapError])
      | error u =>
        rw [hconsole] at hprint
        exact ⟨_, _, (Except.error.inj hprint).symm⟩

/-! ### Exit codes -/

/-- The exit code of the program: a failure that no command reports ends it with one, a
command line that asks for nothing that can be done with two. -/
def Outcome.exitCode : Outcome → Nat
  | usageError => 2
  | exit code _ _ => code
  | aborted _ _ => 1

theorem execute_check {disk : Disk} {tokens gathered : List Text} {file : Option Text}
    (h : gatherTokens disk tokens file = .ok gathered) (now : Text) (level : LogLevel)
    (strict : Bool) :
    execute disk now level (.check tokens file strict) =
      (printLines (reportLines (check gathered [])) .empty).map fun console =>
        .exit (if strict && (check gathered []).any (·.isWarning) then 1 else 0) console [] := by
  rw [execute, h]
  cases hprint : printLines (reportLines (check gathered [])) .empty with
  | ok console => simp [hprint, bind, Except.bind, Except.map]
  | error outcome => simp [hprint, bind, Except.bind, Except.map]

/-- A strict check of gathered tokens ends with one exactly if some token stands for no
rule. -/
theorem exitCode_check {disk : Disk} {tokens gathered : List Text} {file : Option Text}
    (h : gatherTokens disk tokens file = .ok gathered) (now : Text) (level : LogLevel) :
    (execute disk now level (.check tokens file true)).outcome.exitCode =
      if ∃ t ∈ gathered, resolve? t = none then 1 else 0 := by
  rw [execute_check h, Bool.true_and]
  -- the report is printed before the exit code is chosen, and printing may fail
  cases hprint : printLines (reportLines (check gathered [])) .empty with
  | ok console =>
    show (if (check gathered []).any (·.isWarning) = true then 1 else 0) = _
    simp only [any_isWarning_iff]
  | error outcome =>
    obtain ⟨reason, console, rfl⟩ := printLines_error hprint
    -- a token with a surrogate is in the way, and it stands for no rule
    have hsome : ∃ t ∈ gathered, resolve? t = none := by
      by_contra hall
      have hencodable : ∀ t ∈ gathered, IsEncodable t := by
        intro t ht
        cases hresolve : resolve? t with
        | none => exact absurd ⟨t, ht, hresolve⟩ hall
        | some r => exact isEncodable_of_resolve? hresolve
      obtain ⟨c, hc⟩ := printLines_ok (isEncodable_reportLines hencodable) .empty
      exact absurd (hprint.symm.trans hc) (by simp)
    rw [if_pos hsome]
    rfl

/-- Without surrogates, the whole report is written. -/
theorem exists_console_check {disk : Disk} {tokens gathered : List Text} {file : Option Text}
    (h : gatherTokens disk tokens file = .ok gathered) (hgathered : ∀ t ∈ gathered, IsEncodable t)
    (now : Text) (level : LogLevel) :
    ∃ console, execute disk now level (.check tokens file true) =
      .ok (.exit (if ∃ t ∈ gathered, resolve? t = none then 1 else 0) console []) := by
  obtain ⟨console, hprint⟩ := printLines_ok (isEncodable_reportLines hgathered) .empty
  refine ⟨console, ?_⟩
  rw [execute_check h, hprint, Bool.true_and]
  simp only [any_isWarning_iff]
  rfl

/-- A command line whose paths are in order runs its command. -/
theorem run_eq_execute {disk : Disk} {arguments : List Text} {command : Command}
    {level : LogLevel} {request : Request}
    (hparse : Invocation.parse? arguments = some (.run level request))
    (hcommand : request.command? = some command)
    (hpaths : request.paths.forM (checkPath disk) = .ok ()) (now : Text) :
    run disk now arguments = (execute disk now level command).outcome := by
  have hserve : serve disk now level request = execute disk now level command := by
    rw [serve, hpaths, hcommand]
    rfl
  rw [run, hparse]
  show (serve disk now level request).outcome = _
  rw [hserve]

/-- A command line that asks for a strict check, whose paths are in order, runs it. -/
theorem run_check {disk : Disk} {arguments tokens : List Text} {file : Option Text}
    {level : LogLevel} {request : Request}
    (hparse : Invocation.parse? arguments = some (.run level request))
    (hcommand : request.command? = some (.check tokens file true))
    (hpaths : request.paths.forM (checkPath disk) = .ok ()) (now : Text) :
    run disk now arguments = (execute disk now level (.check tokens file true)).outcome :=
  run_eq_execute hparse hcommand hpaths now

/-- A command line that asks for a strict check of its arguments. -/
theorem parse?_check (tokens : List Text) :
    Invocation.parse? (↑"check" :: ↑"--strict" :: ↑"--" :: tokens) =
      some (.run .warning ⟨[], some (.check tokens none true)⟩) :=
  rfl

end Cli

/-! ### Agreement -/

/-- The checks agree with the rules.  A token of a list has warnings exactly if it stands
for no rule, and then from exactly one check: one warning if its prefixes are a variant and
a breakpoint, one for each unknown prefix if there are any, and one otherwise.  So a strict
check ends with one exactly if some gathered token stands for no rule; it ends early only on
a token that cannot be written. -/
theorem check_agrees :
    (∀ tokens, ∀ token ∈ tokens,
      ((∃ d ∈ check tokens [], d.severity = .warning ∧ d.token = some token) ↔
        resolve? token = none) ∧
      (resolve? token = none → ∃! c, 0 < Check.warningCount tokens token c) ∧
      Check.warningCount tokens token .prefixOrder = (if Misordered token then 1 else 0) ∧
      Check.warningCount tokens token .unknownPrefix = unknownCount token ∧
      Check.warningCount tokens token .unmatched =
        (if resolve? token = none ∧ ¬ Misordered token ∧ unknownCount token = 0 then 1 else 0) ∧
      Check.warningCount tokens token .darkUnderBreakpoint = 0 ∧
      Check.warningCount tokens token .duplicates = 0) ∧
    (∀ disk now arguments level request tokens file gathered,
      Cli.Invocation.parse? arguments = some (.run level request) →
      request.command? = some (.check tokens file true) →
      request.paths.forM (Cli.checkPath disk) = .ok () →
      Cli.gatherTokens disk tokens file = .ok gathered →
      (Cli.run disk now arguments).exitCode =
          (if ∃ t ∈ gathered, resolve? t = none then 1 else 0) ∧
        ((∀ t ∈ gathered, IsEncodable t) → ∃ console, Cli.run disk now arguments =
          .exit (if ∃ t ∈ gathered, resolve? t = none then 1 else 0) console [])) ∧
    ∀ disk now tokens,
      (Cli.run disk now (↑"check" :: ↑"--strict" :: ↑"--" :: tokens)).exitCode =
        if ∃ t ∈ tokens, resolve? t = none then 1 else 0 := by
  refine ⟨fun tokens token h => ⟨exists_warning_iff h, Check.existsUnique_warningCount h,
    Check.warningCount_prefixOrder h, Check.warningCount_unknownPrefix h,
    Check.warningCount_unmatched h, Check.warningCount_remarks h⟩, ?_, ?_⟩
  · intro disk now arguments level request tokens file gathered hparse hcommand hpaths hgather
    rw [Cli.run_check hparse hcommand hpaths]
    refine ⟨Cli.exitCode_check hgather now level, fun hencodable => ?_⟩
    obtain ⟨console, hconsole⟩ := Cli.exists_console_check hgather hencodable now level
    exact ⟨console, by rw [hconsole]; rfl⟩
  · intro disk now tokens
    rw [Cli.run_check (Cli.parse?_check tokens) rfl rfl]
    exact Cli.exitCode_check rfl now .warning

/-- A token with prefixes in the wrong order, one with two unknown prefixes, and a strict
check of a token with a rule. -/
theorem check_agrees_mixed :
    (∃! c, 0 < Check.warningCount ["p-4", "hover:md:p-4"] ↑"hover:md:p-4" c) ∧
      Check.warningCount ["p-4", "hoover:x:p-4"] ↑"hoover:x:p-4" .unknownPrefix = 2 ∧
      ∀ disk now, (Cli.run disk now ["check", "--strict", "--", "md:p-4"]).exitCode = 0 := by
  have hprefixes : prefixesOf ↑"hover:md:p-4" = [↑"hover", ↑"md"] := by decide +kernel
  have hnone : resolve? "hover:md:p-4" = none :=
    resolve?_eq_none_of_prefixes (.inl ⟨.state .hover, .md, hprefixes⟩)
  refine ⟨(check_agrees.1 _ _ (by simp)).2.1 hnone, ?_, fun disk now => ?_⟩
  · rw [(check_agrees.1 _ _ (by simp)).2.2.2.1]
    decide +kernel
  · rw [(check_agrees.2.1 disk now _ _ _ _ _ _ (Cli.parse?_check _) rfl rfl rfl).1]
    decide +kernel

end UtilityCss
