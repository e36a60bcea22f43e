/-
The characters that sheets are written with.

* `forall_mem_line`, `forall_mem_sheetLines` — the lines of a sheet of well-formed rules;
* `forall_mem_compile` — a compiled sheet is written in visible ASCII characters, blanks and line
  feeds;
* `forall_mem_baseline` — and so is the baseline.

Design notes: a literal is looked at as the list of its characters, one literal after the other,
since the kernel is slow to take literals apart.
-/
import UtilityCss.Compile
import UtilityCss.Proofs.CompiledTokens
import UtilityCss.Proofs.JsonAscii

namespace UtilityCss

open Json (isVisible isWrittenChar isWrittenChar_of_isVisible)

/-! ### Alphabets -/

theorem isVisible_of_isTokenChar {c : CodePoint} (h : isTokenChar c = true) :
    isVisible c = true := by
  simp only [isTokenChar, Bool.or_eq_true, decide_eq_true_eq] at h
  rcases h with (h | rfl) | rfl
  · exact Json.isVisible_of_isValueChar (isValueChar_of_isBracketChar h)
  · rfl
  · rfl

theorem isVisible_of_isSelectorChar {c : CodePoint} (h : isSelectorChar c = true) :
    isVisible c = true := by
  simp only [isSelectorChar, Bool.or_eq_true, List.contains_iff_mem] at h
  rcases h with h | h
  · exact isVisible_of_isTokenChar h
  · have hothers : ∀ d ∈ [CodePoint.char ' ', .char '\\', .char ':', .char '>', .char '~'],
        isVisible d = true := by decide
    exact hothers c h

theorem Breakpoint.isVisible_query (b : Breakpoint) : ∀ c ∈ b.query, isVisible c = true := by
  intro c hc
  rcases List.mem_append.mp hc with hc | hc
  · rcases List.mem_append.mp hc with hc | hc
    · exact Text.forall_mem_ofString rfl c hc
    · -- the digits of the width
      have hdigit := isBracketChar_of_isAlphanum (isAlphanum_of_isDigit (isDigit_of_mem_decimal hc))
      exact isVisible_of_isTokenChar (isTokenChar_of_isBracketChar hdigit)
  · exact Text.forall_mem_ofString rfl c hc

theorem Media.isVisible_query (m : Media) : ∀ c ∈ m.query, isVisible c = true := by
  cases m with
  | minWidth b => exact b.isVisible_query
  | prefersDark => exact Text.forall_mem_ofString rfl

/-- Lines of visible characters, each with a line feed. -/
theorem forall_mem_unlines {lines : List Text} (h : ∀ line ∈ lines, ∀ c ∈ line, isVisible c = true) :
    ∀ c ∈ Text.unlines lines, isWrittenChar c = true := by
  intro c hc
  obtain ⟨line, hline, hc⟩ := List.mem_flatMap.mp hc
  rcases List.mem_append.mp hc with hc | hc
  · exact isWrittenChar_of_isVisible (h line hline c hc)
  · rw [List.mem_singleton.mp hc]
    rfl

/-! ### Compiled sheets -/

theorem Rule.WellFormed.isVisible_declarationText {r : Rule} (h : r.WellFormed) :
    ∀ c ∈ declarationText r.declarations, isVisible c = true := by
  intro c hc
  rcases h.forall_mem_declarationText c hc with hvalue | rfl | rfl
  · exact Json.isVisible_of_isValueChar hvalue
  · rfl
  · rfl

theorem Rule.WellFormed.isVisible_selector {r : Rule} (h : r.WellFormed) :
    ∀ c ∈ r.selector.text, isVisible c = true :=
  fun c hc => isVisible_of_isSelectorChar (h.forall_mem_selector c hc)

theorem Rule.WellFormed.isVisible_line {r : Rule} (h : r.WellFormed) :
    ∀ c ∈ r.line, isVisible c = true := by
  have hopening : ∀ c ∈ Text.ofString " \x7b ", isVisible c = true := Text.forall_mem_ofString rfl
  have hclosing : ∀ c ∈ Text.ofString " \x7d", isVisible c = true := Text.forall_mem_ofString rfl
  simp only [line, ruleText, List.forall_mem_append]
  exact ⟨⟨⟨h.isVisible_selector, hopening⟩, h.isVisible_declarationText⟩, hclosing⟩

theorem isVisible_sheetLines {rules : List Rule} (h : ∀ r ∈ rules, r.WellFormed) :
    ∀ line ∈ sheetLines rules, ∀ c ∈ line, isVisible c = true := by
  have hline {p : Rule → Bool} : ∀ r ∈ rules.filter p, ∀ c ∈ r.line, isVisible c = true :=
    fun r hr => (h r (List.mem_filter.mp hr).1).isVisible_line
  refine List.forall_mem_append.mpr ⟨List.forall_mem_map.mpr hline, ?_⟩
  refine List.forall_mem_flatMap.mpr fun m _ => List.forall_mem_append.mpr ⟨?_, ?_⟩
  · refine List.forall_mem_cons.mpr ⟨?_, ?_⟩
    · rw [Sheet.opening]
      refine List.forall_mem_append.mpr ⟨List.forall_mem_append.mpr ⟨?_, m.isVisible_query⟩, ?_⟩
      · exact Text.forall_mem_ofString rfl
      · exact Text.forall_mem_ofString rfl
    · refine List.forall_mem_map.mpr (List.forall_mem_map.mpr fun r hr => ?_)
      exact List.forall_mem_append.mpr ⟨Text.forall_mem_ofString rfl, hline r hr⟩
  · exact List.forall_mem_singleton.mpr (Text.forall_mem_ofString rfl)

/-- A compiled sheet is written in visible ASCII characters, blanks and line feeds, whatever the
tokens are. -/
theorem forall_mem_compile (tokens : List Text) :
    ∀ c ∈ compile tokens, isWrittenChar c = true := by
  rw [compile, Rule.sheet_eq]
  refine forall_mem_unlines (isVisible_sheetLines (List.forall_mem_map.mpr fun e he => ?_))
  exact Rule.wellFormed_of_resolve? (resolve?_of_mem_resolveAll he)

/-! ### The baseline -/

theorem isVisible_closedBlock {selector : Text} {declarations : List Text}
    (hselector : ∀ c ∈ selector, isVisible c = true)
    (hdeclarations : ∀ d ∈ declarations, ∀ c ∈ d, isVisible c = true) :
    ∀ c ∈ closedBlock selector declarations, isVisible c = true := by
  have hclosed : ∀ c ∈ (declarations.map (· ++ Text.ofString "; ")).flatten, isVisible c = true := by
    refine List.forall_mem_flatten.mpr (List.forall_mem_map.mpr fun d hd => ?_)
    exact List.forall_mem_append.mpr ⟨hdeclarations d hd, Text.forall_mem_ofString rfl⟩
  simp only [closedBlock, List.forall_mem_append]
  exact ⟨⟨⟨hselector, Text.forall_mem_ofString rfl⟩, hclosed⟩, Text.forall_mem_ofString rfl⟩

/-- Whether the literals of a block are visible. -/
def HasVisibleLiterals (block : String × List String) : Prop :=
  (∀ c ∈ Text.ofString block.1, isVisible c = true) ∧
    ∀ d ∈ block.2, ∀ c ∈ Text.ofString d, isVisible c = true

theorem HasVisibleLiterals.isVisible_literalBlock {block : String × List String}
    (h : HasVisibleLiterals block) : ∀ c ∈ literalBlock block, isVisible c = true :=
  isVisible_closedBlock h.1 (List.forall_mem_map.mpr h.2)

theorem hasVisibleLiterals_baselineRules : ∀ block ∈ baselineRules, HasVisibleLiterals block := by
  simp only [baselineRules, HasVisibleLiterals, List.forall_mem_cons, Text.ofString_append,
    List.forall_mem_append]
  repeat' constructor
  all_goals first
    | exact Text.forall_mem_ofString rfl
    | exact List.forall_mem_nil _

theorem hasVisibleLiterals_keyframes :
    ∀ animation ∈ keyframes, (∀ c ∈ Text.ofString animation.1, isVisible c = true) ∧
      ∀ block ∈ animation.2, HasVisibleLiterals block := by
  simp only [keyframes, HasVisibleLiterals, List.forall_mem_cons]
  repeat' constructor
  all_goals first
    | exact Text.forall_mem_ofString rfl
    | exact List.forall_mem_nil _

theorem isVisible_keyframesText {animation : String × List (String × List String)}
    (hname : ∀ c ∈ Text.ofString animation.1, isVisible c = true)
    (hblocks : ∀ block ∈ animation.2, HasVisibleLiterals block) :
    ∀ c ∈ keyframesText animation, isVisible c = true := by
  have hblocks : ∀ c ∈ Text.join (Text.ofString " ") (animation.2.map literalBlock),
      isVisible c = true := by
    intro c hc
    rcases Text.mem_of_mem_join hc with hc | ⟨part, hpart, hc⟩
    · exact Text.forall_mem_ofString rfl c hc
    · obtain ⟨block, hblock, rfl⟩ := List.mem_map.mp hpart
      exact (hblocks block hblock).isVisible_literalBlock c hc
  have hliterals : (∀ c ∈ Text.ofString "@keyframes ", isVisible c = true) ∧
      (∀ c ∈ Text.ofString " \x7b ", isVisible c = true) ∧
      ∀ c ∈ Text.ofString " \x7d", isVisible c = true :=
    ⟨Text.forall_mem_ofString rfl, Text.forall_mem_ofString rfl, Text.forall_mem_ofString rfl⟩
  simp only [keyframesText, List.forall_mem_append]
  exact ⟨⟨⟨⟨hliterals.1, hname⟩, hliterals.2.1⟩, hblocks⟩, hliterals.2.2⟩

/-- The baseline is written in visible ASCII characters, blanks and line feeds. -/
theorem forall_mem_baseline : ∀ c ∈ baseline, isWrittenChar c = true := by
  refine forall_mem_unlines (List.forall_mem_append.mpr ⟨?_, ?_⟩)
  · refine List.forall_mem_cons.mpr ⟨Text.forall_mem_ofString rfl, List.forall_mem_map.mpr ?_⟩
    exact fun block hblock => (hasVisibleLiterals_baselineRules block hblock).isVisible_literalBlock
  · refine List.forall_mem_cons.mpr ⟨List.forall_mem_nil _, ?_⟩
    refine List.forall_mem_cons.mpr ⟨Text.forall_mem_ofString rfl, List.forall_mem_map.mpr ?_⟩
    intro animation hanimation
    obtain ⟨hname, hblocks⟩ := hasVisibleLiterals_keyframes animation hanimation
    exact isVisible_keyframesText hname hblocks

end UtilityCss
