/-
The tokens of a compiled sheet.

A sheet is determined by the tokens that stand for a rule, in the order in which it
writes them, and determines them.

* `Selector.isSelectorChar_of_mem_text` — the characters of a selector;
* `Rule.readable_of_resolve?` — rules of tokens are written without line feeds and
  braces of their own;
* `writtenTokens` — the tokens of a sheet in the order of its rules;
* `compile_eq_sheet` — the sheet is that of these tokens;
* `compile_determines_tokens` — reading the sheet gives the rules of these tokens, so
  equal sheets have equal tokens.
-/
import UtilityCss.Proofs.ClassName
import UtilityCss.Proofs.SheetReader
import UtilityCss.Proofs.TokenSetOrder
import UtilityCss.Compile

namespace UtilityCss

/-! ### Rules of tokens are readable -/

theorem mem_escape {token : Text} {c : CodePoint} (h : c ∈ escape token) :
    c ∈ token ∨ c = '\\' ∨ c = '3' ∨ c = ' ' := by
  have hflat {s : Text} (hc : c ∈ s.flatMap escapeChar) : c ∈ s ∨ c = '\\' := by
    obtain ⟨d, hd, hc⟩ := List.mem_flatMap.mp hc
    rw [escapeChar] at hc
    split at hc
    · rcases List.mem_cons.mp hc with rfl | hc
      · exact .inr rfl
      · exact .inl (List.mem_singleton.mp hc ▸ hd)
    · exact .inl (List.mem_singleton.mp hc ▸ hd)
  rw [escape.eq_def] at h
  split at h
  · exact absurd h (by simp)
  · split at h
    · simp only [List.mem_cons] at h
      rcases h with rfl | rfl | rfl | rfl | h
      · exact .inr (.inl rfl)
      · exact .inr (.inr (.inl rfl))
      · exact .inl List.mem_cons_self
      · exact .inr (.inr (.inr rfl))
      · rcases hflat h with h | h
        · exact .inl (List.mem_cons_of_mem _ h)
        · exact .inr (.inl h)
    · rcases hflat h with h | h
      · exact .inl h
      · exact .inr (.inl h)

theorem forall_mem_declarationText {declarations : List Declaration}
    (h : ∀ d ∈ declarations, d.WellFormed) :
    ∀ c ∈ declarationText declarations, isValueChar c = true ∨ c = ':' ∨ c = ';' := by
  intro c hc
  rcases Text.mem_of_mem_join hc with hc | ⟨part, hpart, hc⟩
  · rcases List.mem_cons.mp hc with rfl | hc
    · exact .inr (.inr rfl)
    · exact .inl (by rw [List.mem_singleton.mp hc]; rfl)
  · obtain ⟨d, hd, rfl⟩ := List.mem_map.mp hpart
    rcases List.mem_append.mp hc with hc | hc
    · rcases List.mem_append.mp hc with hc | hc
      · have hproperty := (h d hd).property.2 c hc
        rw [isPropertyChar, Bool.or_eq_true, decide_eq_true_eq] at hproperty
        rcases hproperty with hlower | rfl
        · exact .inl (isValueChar_of_isBracketChar
            (isBracketChar_of_isAlphanum (isAlphanum_of_isLower hlower)))
        · exact .inl rfl
      · rcases List.mem_cons.mp hc with rfl | hc
        · exact .inr (.inl rfl)
        · exact .inl (by rw [List.mem_singleton.mp hc]; rfl)
    · exact .inl ((h d hd).value.2 c hc)

/-- Whether a character stands in selectors: it stands in tokens, or belongs to an escape or to
what is written around the class. -/
def isSelectorChar (c : CodePoint) : Bool :=
  isTokenChar c || [.char ' ', .char '\\', .char ':', .char '>', .char '~'].contains c

theorem Selector.isSelectorChar_of_mem_text {s : Selector}
    (h : ∀ c ∈ s.token, c = ':' ∨ isTokenChar c = true) :
    ∀ c ∈ s.text, isSelectorChar c = true := by
  have hancestor : ∀ c ∈ ancestor s.variant, isSelectorChar c = true := by
    rcases s.variant with _ | s | _ | _
    case some.state => exact List.forall_mem_nil _
    all_goals exact Text.forall_mem_ofString rfl
  have hpseudo : ∀ c ∈ pseudoClass s.variant, isSelectorChar c = true := by
    rcases s.variant with _ | s | _ | _
    case some.state => cases s <;> exact List.forall_mem_cons.mpr ⟨rfl, Text.forall_mem_ofString rfl⟩
    all_goals exact Text.forall_mem_ofString rfl
  have hchild : ∀ c ∈ childPart s.betweenChildren, isSelectorChar c = true := by
    cases s.betweenChildren <;> exact Text.forall_mem_ofString rfl
  intro c hc
  rw [text_eq, List.mem_append, List.mem_append, List.mem_append, classSelector,
    List.mem_cons] at hc
  -- escapes add only backslashes, a three and a blank to the characters of the token
  rcases hc with hc | (rfl | hc) | hc | hc
  · exact hancestor c hc
  · rfl
  · rcases mem_escape hc with hc | rfl | rfl | rfl
    · rcases h c hc with rfl | htoken
      · rfl
      · rw [isSelectorChar, htoken, Bool.true_or]
    all_goals rfl
  · exact hpseudo c hc
  · exact hchild c hc

namespace Rule

theorem WellFormed.forall_mem_selector {r : Rule} (h : r.WellFormed) :
    ∀ c ∈ r.selector.text, isSelectorChar c = true :=
  Selector.isSelectorChar_of_mem_text h.token

theorem WellFormed.forall_mem_declarationText {r : Rule} (h : r.WellFormed) :
    ∀ c ∈ declarationText r.declarations, isValueChar c = true ∨ c = ':' ∨ c = ';' :=
  UtilityCss.forall_mem_declarationText h.declarations

/-- Rules of tokens are read as they are written. -/
theorem readable_of_resolve? {token : Text} {r : Rule} (h : resolve? token = some r) :
    r.Readable := by
  have hr := wellFormed_of_resolve? h
  refine ⟨hr.begins, fun c hc => ?_, fun c hc => ?_⟩
  · have hselector := hr.forall_mem_selector c hc
    constructor <;> rintro rfl <;> exact absurd hselector (by decide)
  · rcases hr.forall_mem_declarationText c hc with hvalue | rfl | rfl
    · rintro rfl
      exact absurd hvalue (by decide)
    · decide
    · decide

end Rule

/-! ### The tokens of a sheet -/

/-- What is written for the media query of a token. -/
def mediaText? (token : Text) : Option Text :=
  (resolve? token).bind fun r => r.media.map Media.query

/-- What is written of the rule of a token. -/
def written? (token : Text) : Option Written :=
  (resolve? token).map Rule.written

/-- The tokens of a sheet in the order of its rules: the distinct tokens that stand for a
rule, those without a media query first, then those of each query in the order in which the
queries are first met. -/
def writtenTokens (tokens : List Text) : List Text :=
  regroup mediaText? (tokens.eraseDups.filter fun t => (resolve? t).isSome)

/-- All media queries. -/
def Media.all : List Media :=
  .prefersDark :: Breakpoint.all.map .minWidth

theorem Media.mem_all (m : Media) : m ∈ all := by
  rcases m with b | _
  · cases b <;> simp [all, Breakpoint.all]
  · exact List.mem_cons_self

theorem Media.query_injective : Function.Injective Media.query := by
  have hqueries : ∀ m ∈ all, ∀ m' ∈ all, m.query = m'.query → m = m' := by decide +kernel
  exact fun m m' h => hqueries m (mem_all m) m' (mem_all m') h

/-- The tokens with their rules, in the order in which the sheet writes them. -/
def writtenRules (tokens : List Text) : List (Text × Rule) :=
  regroup (fun p => p.2.media) (resolveAll tokens)

theorem resolve?_of_mem_resolveAll {tokens : List Text} {p : Text × Rule}
    (h : p ∈ resolveAll tokens) : resolve? p.1 = some p.2 := by
  obtain ⟨token, -, hp⟩ := List.mem_filterMap.mp h
  obtain ⟨r, hr, rfl⟩ := Option.map_eq_some_iff.mp hp
  exact hr

theorem mem_of_mem_resolveAll {tokens : List Text} {p : Text × Rule} (h : p ∈ resolveAll tokens) :
    p.1 ∈ tokens := by
  obtain ⟨token, htoken, hp⟩ := List.mem_filterMap.mp h
  obtain ⟨r, -, rfl⟩ := Option.map_eq_some_iff.mp hp
  rw [TokenSet.items_ofList] at htoken
  exact List.mem_eraseDups.mp htoken

theorem map_fst_resolveAll (tokens : List Text) :
    (resolveAll tokens).map Prod.fst = tokens.eraseDups.filter fun t => (resolve? t).isSome := by
  rw [resolveAll, TokenSet.items_ofList, List.map_filterMap, ← List.filterMap_eq_filter]
  refine List.filterMap_congr fun t _ => ?_
  cases h : resolve? t <;> simp [h, Option.guard]

theorem map_fst_writtenRules (tokens : List Text) :
    (writtenRules tokens).map Prod.fst = writtenTokens tokens := by
  rw [writtenTokens, ← map_fst_resolveAll, regroup_map, writtenRules,
    ← regroup_map_key Media.query_injective]
  congr 1
  -- the query of the rule that goes with a token is the one the token has
  refine regroup_congr fun p hp => ?_
  rw [mediaText?, resolve?_of_mem_resolveAll hp, Option.bind_some]

theorem resolve?_of_mem_writtenRules {tokens : List Text} {p : Text × Rule}
    (h : p ∈ writtenRules tokens) : resolve? p.1 = some p.2 :=
  resolve?_of_mem_resolveAll (mem_regroup.mp h)

/-- The rules of the tokens of a sheet, in their order. -/
theorem filterMap_writtenTokens {β : Type} (tokens : List Text) (f : Rule → β) :
    (writtenTokens tokens).filterMap (fun t => (resolve? t).map f) =
      (writtenRules tokens).map fun p => f p.2 := by
  rw [← map_fst_writtenRules, List.filterMap_map, ← List.filterMap_eq_map]
  refine List.filterMap_congr fun p hp => ?_
  simp [resolve?_of_mem_writtenRules hp]

theorem Rule.sheet_regroup (rules : List Rule) :
    Rule.sheet (regroup Rule.media rules) = Rule.sheet rules := by
  have hentries : (regroup Rule.media rules).map Rule.entry =
      regroup Sheet.Entry.media (rules.map Rule.entry) :=
    (regroup_map Rule.entry Sheet.Entry.media rules).symm
  rw [Rule.sheet, hentries, Sheet.render_regroup, Rule.sheet]

/-- A sheet is that of its tokens. -/
theorem compile_eq_sheet (tokens : List Text) :
    compile tokens = Rule.sheet ((writtenTokens tokens).filterMap resolve?) := by
  have hrules : (writtenTokens tokens).filterMap resolve? = (writtenRules tokens).map Prod.snd := by
    rw [← filterMap_writtenTokens tokens fun r => r]
    simp
  rw [hrules, writtenRules, ← regroup_map Prod.snd Rule.media, Rule.sheet_regroup, compile]

/-- What is written of the rules, regrouped, is what is written of the tokens of the sheet. -/
theorem map_written_regroup (tokens : List Text) :
    (regroup Rule.media ((resolveAll tokens).map Prod.snd)).map Rule.written =
      (writtenTokens tokens).filterMap written? := by
  have hwritten : (writtenTokens tokens).filterMap written? =
      ((writtenRules tokens).map Prod.snd).map Rule.written := by
    rw [List.map_map]
    exact filterMap_writtenTokens tokens Rule.written
  rw [regroup_map, hwritten, writtenRules]

/-- Reading a sheet gives the rules of its tokens. -/
theorem readSheet?_compile (tokens : List Text) :
    readSheet? (compile tokens) = some ((writtenTokens tokens).filterMap written?) := by
  have hreadable : ∀ r ∈ (resolveAll tokens).map Prod.snd, r.Readable := by
    intro r hr
    obtain ⟨p, hp, rfl⟩ := List.mem_map.mp hr
    exact Rule.readable_of_resolve? (resolve?_of_mem_resolveAll hp)
  rw [compile, readSheet?_sheet hreadable, map_written_regroup]

/-- The tokens of a sheet are read in its selectors. -/
theorem filterMap_readToken? (tokens : List Text) :
    ((writtenTokens tokens).filterMap written?).filterMap
      (fun w => Selector.readToken? w.selector) = writtenTokens tokens := by
  rw [List.filterMap_filterMap]
  conv_rhs => rw [← List.filterMap_some (l := writtenTokens tokens)]
  refine List.filterMap_congr fun t ht => ?_
  rw [← map_fst_writtenRules] at ht
  obtain ⟨p, hp, rfl⟩ := List.mem_map.mp ht
  have hresolve := resolve?_of_mem_writtenRules hp
  obtain ⟨b, v, base, u, hparts, hrule⟩ := resolve?_eq_some_iff.mp hresolve
  rw [written?, hresolve, hrule]
  exact Selector.readToken?_text hparts

/-- The text of a sheet determines its tokens: reading it line by line gives the media
query, the selector and the declarations of each of them, in order, and two lists have the
same sheet exactly if they have the same tokens in it. -/
theorem compile_determines_tokens :
    (∀ tokens, readSheet? (compile tokens) = some ((writtenTokens tokens).filterMap written?)) ∧
    ∀ tokens tokens', compile tokens = compile tokens' ↔
      writtenTokens tokens = writtenTokens tokens' := by
  refine ⟨readSheet?_compile, fun tokens tokens' => ⟨fun h => ?_, fun h => ?_⟩⟩
  · -- reading the sheets back gives the same rules, and their selectors name the tokens
    have hread := congrArg readSheet? h
    rw [readSheet?_compile, readSheet?_compile, Option.some.injEq] at hread
    rw [← filterMap_readToken? tokens, hread, filterMap_readToken?]
  · rw [compile_eq_sheet, h, ← compile_eq_sheet]

end UtilityCss
