/-
Resolution with all steps checked.

A token is resolved as it is written: prefixes are looked up in tables, the selector is edited as
a text, and a family may fail.  Resolution never fails, and neither does compilation.

* `Checked.utility`, `Checked.variant`, `Checked.breakpoint`, `Checked.resolve` — what is written
  of the rule of a token, with the lemma that each of them succeeds;
* `Checked.resolveAll`, `Checked.compile` — the same of a list of tokens;
* `Checked.never_fails` — all of them succeed, with what they give unchecked.
-/
import UtilityCss.Proofs.CheckedFamilies
import UtilityCss.Proofs.ManifestSheet
import UtilityCss.Proofs.SelectorPatch

namespace UtilityCss

namespace Checked

theorem ok_bind {α β : Type} (a : α) (f : α → Except Fault β) : (Except.ok a >>= f) = f a :=
  rfl

/-! ### Without prefixes -/

/-- What is written of the rule of a token of one family. -/
def familyRule (token : Text) (f : Family) : Except Fault (Option Written) := do
  let declarations? ← family token f
  .ok (declarations?.map fun declarations =>
    ⟨none, classSelector token ++ Selector.childPart (f = .spaceBetween),
      declarationText declarations⟩)

/-- What is written of the rule of a token without prefixes: that of the first family that has
one. -/
def utility (token : Text) : Except Fault (Option Written) :=
  Family.all.findSomeM? (familyRule token)

theorem familyRule_eq (token : Text) (f : Family) :
    familyRule token f =
      .ok ((f.read? token).map fun u => (Rule.ofUtility token u).written) := by
  rw [familyRule, family_eq]
  cases hread : f.read? token with
  | none => rfl
  | some u =>
    have hspace : decide (f = .spaceBetween) = u.isBetweenChildren := by
      cases f <;> obtain ⟨u, -, rfl⟩ := Option.map_eq_some_iff.mp hread <;> rfl
    have hselector : (Rule.ofUtility token u).selector.text =
        classSelector token ++ Selector.childPart u.isBetweenChildren := Selector.text_eq _
    rw [hspace, ← hselector]
    rfl

/-- A search in which nothing fails. -/
theorem findSomeM?_ok {α β : Type} {attempt : α → Except Fault (Option β)} {find : α → Option β}
    (h : ∀ a, attempt a = .ok (find a)) (l : List α) :
    l.findSomeM? attempt = .ok (l.findSome? find) := by
  induction l with
  | nil => rfl
  | cons a l ih =>
    rw [List.findSomeM?, h, List.findSome?_cons]
    cases find a with
    | none => exact ih
    | some b => rfl

theorem utility_eq (token : Text) :
    utility token = .ok ((resolveUtility? token).map Rule.written) := by
  rw [utility, findSomeM?_ok (familyRule_eq token), resolveUtility?, Utility.ofToken?,
    Option.map_map, List.map_findSome?]
  rfl

/-! ### Variants -/

/-- What follows the class under each variant that is a state. -/
def statePseudoClasses : List (Text × Text) :=
  [("hover", ":hover"), ("focus", ":focus"), ("active", ":active"),
   ("focus-within", ":focus-within"), ("focus-visible", ":focus-visible"),
   ("disabled", ":disabled")]

/-- Whether a name is that of a variant. -/
def isVariant (name : Text) : Bool :=
  (statePseudoClasses.lookup name).isSome || name = "group-hover" || name = "dark"

/-- What is written of the rule of a variant before a token without prefixes. -/
def variant (token : Text) : Except Fault (Option Written) :=
  match Text.cut? ':' token with
  | none => .ok none
  | some (name, base) =>
    if isVariant name then do
      match ← utility base with
      | none => .ok none
      | some rule =>
        let own := classSelector token
        let tail := Selector.tailAfter base rule.selector
        if name = "group-hover" then
          .ok (some { rule with selector := ".group:hover " ++ own ++ tail })
        else if name = "dark" then
          .ok (some
            { rule with
              selector := ".dark " ++ own ++ tail
              media := some "(prefers-color-scheme: dark)" })
        else
          let pseudoClass ← entry statePseudoClasses name
          .ok (some { rule with selector := own ++ pseudoClass ++ tail })
    else .ok none

theorem lookup_state (s : State) :
    statePseudoClasses.lookup s.name = some (Selector.pseudoClass (some (.state s))) := by
  cases s <;> rfl

theorem isVariant_eq (name : Text) : isVariant name = (Variant.ofName? name).isSome := by
  have hstates : ∀ e ∈ statePseudoClasses, (Variant.ofName? e.1).isSome = true := by
    decide +kernel
  rw [Bool.eq_iff_iff, isVariant, Bool.or_eq_true, Bool.or_eq_true, decide_eq_true_eq,
    decide_eq_true_eq]
  constructor
  · rintro ((hstate | rfl) | rfl)
    · obtain ⟨value, hvalue⟩ := Option.isSome_iff_exists.mp hstate
      exact hstates _ (mem_of_lookup hvalue)
    · rfl
    · rfl
  · intro h
    obtain ⟨v, hv⟩ := Option.isSome_iff_exists.mp h
    rw [Variant.ofName?_eq_some_iff.mp hv]
    rcases v with s | _ | _
    · exact .inl (.inl (Option.isSome_iff_exists.mpr ⟨_, lookup_state s⟩))
    · exact .inl (.inr rfl)
    · exact .inr rfl

/-- A selector with a variant, from the class and what follows it. -/
theorem text_variant (token : Text) (v : Variant) (betweenChildren : Bool) :
    Selector.text ⟨token, some v, betweenChildren⟩ =
      Selector.ancestor (some v) ++ classSelector token ++ Selector.pseudoClass (some v) ++
        Selector.childPart betweenChildren := by
  rw [Selector.text_eq]
  simp only [List.append_assoc]

theorem variant_eq (token : Text) :
    variant token = .ok ((resolveVariant? token).map Rule.written) := by
  rw [variant, resolveVariant?]
  rcases Text.cut? ':' token with _ | ⟨name, base⟩
  · rfl
  simp only [isVariant_eq, Option.bind_eq_bind, Option.bind_some]
  cases hname : Variant.ofName? name with
  | none => rfl
  | some v =>
    obtain rfl := Variant.ofName?_eq_some_iff.mp hname
    simp only [Option.isSome_some, if_true, utility_eq]
    rw [resolveUtility?]
    cases Utility.ofToken? base with
    | none => rfl
    | some u =>
      have htail : Selector.tailAfter base (Rule.ofUtility base u).written.selector =
        Selector.childPart u.isBetweenChildren := Selector.tailAfter_text ..
      have hselector := text_variant token v u.isBetweenChildren
      simp only [Option.map_some, Option.bind_some, ok_bind, htail]
      rcases v with s | _ | _
      · have hgroup : Variant.name (.state s) ≠ "group-hover" := by cases s <;> decide
        have hdark : Variant.name (.state s) ≠ "dark" := by cases s <;> decide
        have hentry : entry statePseudoClasses (Variant.name (.state s)) = _ :=
          entry_ok (lookup_state s)
        rw [if_neg hgroup, if_neg hdark, hentry]
        exact congrArg (fun text => Except.ok (some (Written.mk _ text _))) hselector.symm
      · have hgroup : Variant.name .groupHover = "group-hover" := rfl
        have hpseudo : Selector.pseudoClass (some .groupHover) = [] := rfl
        rw [hpseudo, List.append_nil] at hselector
        rw [if_pos hgroup]
        exact congrArg (fun text => Except.ok (some (Written.mk _ text _))) hselector.symm
      · have hgroup : Variant.name .dark ≠ "group-hover" := by decide
        have hdark : Variant.name .dark = "dark" := rfl
        have hpseudo : Selector.pseudoClass (some .dark) = [] := rfl
        rw [hpseudo, List.append_nil] at hselector
        rw [if_neg hgroup, if_pos hdark]
        exact congrArg (fun text => Except.ok (some (Written.mk _ text _))) hselector.symm

/-! ### Breakpoints -/

/-- The media query of each breakpoint. -/
def breakpointQueries : List (Text × Text) :=
  [("sm", "(min-width: 640px)"), ("md", "(min-width: 768px)"), ("lg", "(min-width: 1024px)"),
   ("xl", "(min-width: 1280px)"), ("2xl", "(min-width: 1536px)")]

/-- The second attempt, if the first finds nothing. -/
def orElse {α : Type} (first second : Except Fault (Option α)) : Except Fault (Option α) := do
  match ← first with
  | some a => .ok (some a)
  | none => second

/-- What is written of the rule of a breakpoint before a token without breakpoint. -/
def breakpoint (token : Text) : Except Fault (Option Written) :=
  match Text.cut? ':' token with
  | none => .ok none
  | some (name, rest) =>
    if (breakpointQueries.lookup name).isSome then do
      match ← orElse (variant rest) (utility rest) with
      | none => .ok none
      | some rule =>
        let query ← entry breakpointQueries name
        .ok (some
          { rule with
            selector := Text.replaceFirst (classSelector rest) (classSelector token) rule.selector
            media := some query })
    else .ok none

theorem orElse_ok {α : Type} (first second : Option α) :
    orElse (.ok first) (.ok second) = .ok (first.or second) := by
  cases first <;> rfl

theorem lookup_breakpointQueries (name : Text) :
    breakpointQueries.lookup name = (Breakpoint.ofName? name).map Breakpoint.query := by
  have hentries : ∀ e ∈ breakpointQueries,
      (Breakpoint.ofName? e.1).map Breakpoint.query = some e.2 := by decide +kernel
  have hnames : ∀ b ∈ Breakpoint.all, b.name ∈ breakpointQueries.map Prod.fst := by decide +kernel
  refine lookup_eq_of_reads (fun name => (Breakpoint.ofName? name).map Breakpoint.query) hentries
    (fun key value h => ?_) name
  obtain ⟨b, hb, -⟩ := Option.map_eq_some_iff.mp h
  rw [Breakpoint.ofName?_eq_some_iff.mp hb]
  exact hnames b (by cases b <;> simp [Breakpoint.all])

/-- Without a breakpoint, nothing fails. -/
theorem inner_eq (token : Text) :
    orElse (variant token) (utility token) =
      .ok (((resolveVariant? token).or (resolveUtility? token)).map Rule.written) := by
  rw [variant_eq, utility_eq, orElse_ok, Option.map_or]

theorem breakpoint_eq (token : Text) :
    breakpoint token = .ok ((resolveBreakpoint? token).map Rule.written) := by
  rw [breakpoint, resolveBreakpoint?]
  rcases Text.cut? ':' token with _ | ⟨name, rest⟩
  · rfl
  simp only [lookup_breakpointQueries, Option.isSome_map, Option.bind_eq_bind, Option.bind_some,
    Option.orElse_eq_orElse, Option.orElse_eq_or, inner_eq]
  cases hname : Breakpoint.ofName? name with
  | none => rfl
  | some b =>
    have hentry : entry breakpointQueries name = .ok b.query := by
      refine entry_ok ?_
      rw [lookup_breakpointQueries, hname, Option.map_some]
    simp only [Option.isSome_some, if_true, Option.bind_some]
    cases hinner : (resolveVariant? rest).or (resolveUtility? rest) with
    | none => rfl
    | some r =>
      obtain ⟨v, base, u, ⟨hspells, hu⟩, rfl⟩ := resolveInner_eq_some_iff.mp hinner
      have hreplaced := Selector.replaceFirst_text hspells (classSelector token) u.isBetweenChildren
      have hselector := Selector.text_eq ⟨token, v, u.isBetweenChildren⟩
      simp only [Option.map_some, ok_bind, Option.bind_some, hentry]
      exact congrArg (fun text => Except.ok (some (Written.mk _ text _)))
        (hreplaced.trans hselector.symm)

/-! ### Tokens -/

/-- What is written of the rule of a token. -/
def resolve (token : Text) : Except Fault (Option Written) :=
  if token = [] then .ok none
  else orElse (breakpoint token) (orElse (variant token) (utility token))

/-- Adds a token and what is written of its rule, if it stands for one. -/
def collect (found : List (Text × Written)) (token : Text) :
    Except Fault (List (Text × Written)) := do
  match ← resolve token with
  | none => .ok found
  | some rule => .ok (found ++ [(token, rule)])

/-- What is written of the rule of each distinct token that stands for one. -/
def resolveAll (tokens : List Text) : Except Fault (List (Text × Written)) :=
  (TokenSet.ofList tokens).items.foldlM collect []

/-- The sheet of a list of tokens. -/
def compile (tokens : List Text) : Except Fault Text := do
  let found ← resolveAll tokens
  .ok (Sheet.render id (found.map fun (_, rule) =>
    ⟨rule.media, ruleText rule.selector rule.declarations⟩))

/-- A token that stands for a rule begins with some character. -/
theorem resolve?_nil : resolve? [] = none := by
  refine Option.eq_none_iff_forall_ne_some.mpr fun r hr => ?_
  obtain ⟨b, v, base, u, hparts, -⟩ := resolve?_eq_some_iff.mp hr
  rcases hparts.beginsName_or_isDigit with hname | hdigit
  · exact absurd hname (by decide)
  · exact absurd hdigit (by decide)

theorem resolve_eq (token : Text) : resolve token = .ok ((resolve? token).map Rule.written) := by
  rw [resolve, breakpoint_eq, inner_eq, orElse_ok]
  split
  · rename_i hempty
    rw [hempty, resolve?_nil]
    rfl
  · simp only [resolve?, Option.orElse_eq_orElse, Option.orElse_eq_or, Option.map_or]

/-- Tokens are added to what was found before them. -/
theorem foldlM_collect (tokens : List Text) (found : List (Text × Written)) :
    tokens.foldlM collect found = .ok (found ++ tokens.filterMap fun token =>
      (resolve? token).map fun r => (token, r.written)) := by
  induction tokens generalizing found with
  | nil =>
    rw [List.filterMap_nil, List.append_nil]
    rfl
  | cons token tokens ih =>
    rw [List.foldlM_cons, collect, resolve_eq, ok_bind]
    cases hr : resolve? token with
    | none =>
      rw [List.filterMap_cons_none (by rw [hr]; rfl)]
      exact ih found
    | some r =>
      rw [List.filterMap_cons_some (by rw [hr]; rfl), List.append_cons]
      exact ih _

theorem resolveAll_eq (tokens : List Text) :
    resolveAll tokens =
      .ok ((UtilityCss.resolveAll tokens).map fun (token, r) => (token, r.written)) := by
  rw [resolveAll, foldlM_collect, List.nil_append, UtilityCss.resolveAll, List.map_filterMap]
  simp only [Option.map_map]
  rfl

theorem compile_eq (tokens : List Text) : compile tokens = .ok (UtilityCss.compile tokens) := by
  have hqueries (a b : Media) : (a.query == b.query) = (a == b) := by
    rw [Bool.eq_iff_iff, beq_iff_eq, beq_iff_eq, Media.query_injective.eq_iff]
  have hrender := Sheet.render_map hqueries id
    ((UtilityCss.resolveAll tokens).map fun e => e.2.entry)
  rw [compile, resolveAll_eq, ok_bind, UtilityCss.compile, Rule.sheet]
  rw [List.map_map] at hrender ⊢
  rw [List.map_map]
  exact congrArg Except.ok hrender

/-- No token and no list of tokens makes a step fail, and what the steps give is what resolution
and compilation give. -/
theorem never_fails :
    (∀ token, resolve token = .ok ((resolve? token).map Rule.written)) ∧
    (∀ tokens, resolveAll tokens =
      .ok ((UtilityCss.resolveAll tokens).map fun (token, r) => (token, r.written))) ∧
    ∀ tokens, compile tokens = .ok (UtilityCss.compile tokens) :=
  ⟨resolve_eq, resolveAll_eq, compile_eq⟩

end Checked

end UtilityCss
