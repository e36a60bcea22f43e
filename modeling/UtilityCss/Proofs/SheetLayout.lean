/-
The layout of a sheet.

Rules without a media query stand first, each on a line; then, for each query in the order in
which the queries are first met, a block with the rules under it.  The pass that gathers the
rules by query writes just these lines.

* `StoredRule.query?` — the media query of a rule; the empty text is none;
* `SheetLine`, `StoredRule.layout` — the lines of a sheet, by filtering the rules;
* `StoredRule.render_entries` — what the pass writes is the text of these lines;
* `StoredRule.layout_congr` — the lines depend on the queries in their order and on the rules
  under each of them, so rules of different queries may trade places;
* `StoredRule.sheet_layout` — the sheet of any rules with textual queries.
-/
import UtilityCss.Proofs.ManifestSheet

namespace UtilityCss

/-! ### Adjacent elements that trade places -/

section Swap

variable {α κ : Type}

theorem filter_swap {p : α → Bool} {a b : α} (h : p a = false ∨ p b = false) (l r : List α) :
    (l ++ a :: b :: r).filter p = (l ++ b :: a :: r).filter p := by
  simp only [List.filter_append, List.filter_cons]
  rcases h with h | h <;> simp [h]

variable [DecidableEq κ]

/-- Keys are met in the same order if one of them was met before. -/
theorem eraseDups_swap {ks : List κ} {k k' : κ} (h : k ∈ ks ∨ k' ∈ ks) (rest : List κ) :
    (ks ++ k :: k' :: rest).eraseDups = (ks ++ k' :: k :: rest).eraseDups := by
  have hremove : (k :: k' :: rest).removeAll ks = (k' :: k :: rest).removeAll ks := by
    simp only [List.removeAll, List.filter_cons]
    rcases h with h | h <;> simp [h]
  rw [List.eraseDups_append, List.eraseDups_append, hremove]

theorem keysOf_swap_none {key : α → Option κ} {a : α} (h : key a = none) (b : α) (l r : List α) :
    keysOf key (l ++ a :: b :: r) = keysOf key (l ++ b :: a :: r) := by
  rw [keysOf, keysOf, List.filterMap_append, List.filterMap_append]
  simp only [List.filterMap_cons, h]

theorem keysOf_swap {key : α → Option κ} {a b : α} {k k' : κ} (ha : key a = some k)
    (hb : key b = some k') {l : List α} (h : k ∈ keysOf key l ∨ k' ∈ keysOf key l) (r : List α) :
    keysOf key (l ++ a :: b :: r) = keysOf key (l ++ b :: a :: r) := by
  simp only [keysOf, List.mem_eraseDups] at h
  simp only [keysOf, List.filterMap_append, List.filterMap_cons_some ha,
    List.filterMap_cons_some hb]
  exact eraseDups_swap h _

/-- Regrouping moves elements, and neither drops nor repeats any. -/
theorem regroup_perm (key : α → Option κ) (l : List α) : (regroup key l).Perm l := by
  classical
  refine List.perm_iff_count.mpr fun a => ?_
  -- an element is counted among those of its own key
  have hcount (m : List α) : m.count a = (m.filter fun b => key b = key a).count a :=
    (List.count_filter (by simp)).symm
  rw [hcount, hcount l]
  cases hkey : key a with
  | none => rw [filter_regroup_none]
  | some k => rw [filter_regroup_some]

end Swap

/-! ### The lines of a sheet -/

/-- The media query of a stored rule; the empty text is none. -/
def StoredRule.query? (r : StoredRule) : Option Text :=
  match r.media with
  | .text (c :: s) => some (c :: s)
  | _ => none

/-- Whether the media query of a stored rule is a text, or null. -/
def StoredRule.HasTextQuery (r : StoredRule) : Prop :=
  r.media = .null ∨ ∃ s : Text, r.media = .text s

/-- A line of a sheet. -/
inductive SheetLine where
  /-- A rule outside of all blocks. -/
  | outside (r : StoredRule)
  /-- The beginning of the block of a media query. -/
  | opening (query : Text)
  /-- A rule in a block. -/
  | inside (r : StoredRule)
  /-- The end of a block. -/
  | closing

namespace SheetLine

/-- The text of a line, with the line feed that ends it. -/
def text : SheetLine → Text
  | outside r => r.selector.display ++ " \x7b " ++ r.declarations.display ++ " \x7d\n"
  | opening query => "@media " ++ query ++ " \x7b\n"
  | inside r => "  " ++ r.selector.display ++ " \x7b " ++ r.declarations.display ++ " \x7d\n"
  | closing => "\x7d\n"

/-- The rule on a line. -/
def rule? : SheetLine → Option StoredRule
  | outside r => some r
  | inside r => some r
  | _ => none

/-- The media query whose block begins with a line. -/
def opened? : SheetLine → Option Text
  | opening query => some query
  | _ => none

end SheetLine

namespace StoredRule

/-- The lines of a block. -/
def blockLayout (query : Text) (rules : List StoredRule) : List SheetLine :=
  .opening query :: rules.map .inside ++ [.closing]

/-- The lines of a sheet: the rules without a media query in their order, then for each query the
rules under it in their order. -/
def layout (rules : List StoredRule) : List SheetLine :=
  (rules.filter fun r => r.query? = none).map .outside ++
    (keysOf query? rules).flatMap fun q => blockLayout q (rules.filter fun r => r.query? = some q)

/-! ### What a pass writes -/

/-- The entry of a rule with a textual query. -/
def textEntry (r : StoredRule) : Sheet.Entry Text :=
  ⟨r.query?, r.text⟩

theorem mediaKey_of_hasTextQuery {r : StoredRule} (h : r.HasTextQuery) :
    r.mediaKey = .ok (r.query?.map Scalar.text) := by
  rcases h with h | ⟨s, h⟩
  · simp [mediaKey, query?, h, Json.isBlank, Scalar.isBlank]
  · cases s <;> simp [mediaKey, query?, h, Json.isBlank, Scalar.isBlank]

theorem mapM_entry {rules : List StoredRule} (h : ∀ r ∈ rules, r.HasTextQuery) :
    rules.mapM entry = .ok ((rules.map textEntry).map (Sheet.Entry.mapMedia Scalar.text)) := by
  induction rules with
  | nil => rfl
  | cons r rules ih =>
    obtain ⟨hr, hrules⟩ := List.forall_mem_cons.mp h
    have hentry : r.entry = .ok (r.textEntry.mapMedia Scalar.text) := by
      rw [entry, mediaKey_of_hasTextQuery hr]
      rfl
    rw [List.mapM_cons, hentry, ih hrules]
    rfl

theorem text_unlines_outside (rules : List StoredRule) :
    Text.unlines (rules.map text) = (rules.map SheetLine.outside).flatMap SheetLine.text := by
  rw [Text.unlines, List.flatMap_map, List.flatMap_map]
  refine List.flatMap_congr fun r _ => ?_
  simp only [text, ruleText, SheetLine.text, List.append_assoc]
  rfl

theorem text_unlines_block (query : Text) (rules : List StoredRule) :
    Text.unlines (Sheet.blockLines query (rules.map text)) =
      (blockLayout query rules).flatMap SheetLine.text := by
  have hrules : Text.unlines ((rules.map text).map Sheet.indent) =
      (rules.map SheetLine.inside).flatMap SheetLine.text := by
    rw [Text.unlines, List.flatMap_map, List.flatMap_map, List.flatMap_map]
    refine List.flatMap_congr fun r _ => ?_
    simp only [text, ruleText, Sheet.indent, SheetLine.text, List.append_assoc]
    rfl
  have hopening : Sheet.opening query ++ "\n" = (SheetLine.opening query).text := by
    simp only [Sheet.opening, SheetLine.text, List.append_assoc]
    rfl
  have hclosing : Text.unlines [Sheet.closing] = SheetLine.closing.text := by
    simp only [Text.unlines, Sheet.closing, SheetLine.text, List.flatMap_singleton]
    rfl
  rw [Sheet.blockLines, blockLayout, Text.unlines, List.flatMap_append, List.flatMap_cons,
    hopening, ← Text.unlines, ← Text.unlines, hrules, hclosing, List.flatMap_append,
    List.flatMap_cons, List.flatMap_singleton]

/-- The text that one pass over the rules writes is that of the lines of their sheet. -/
theorem render_entries (rules : List StoredRule) :
    Sheet.render Scalar.display ((rules.map textEntry).map (Sheet.Entry.mapMedia Scalar.text)) =
      (layout rules).flatMap SheetLine.text := by
  let _ : BEq Text := instBEqOfDecidableEq
  have hbeq (a b : Text) : (Scalar.text a == Scalar.text b) = (a == b) := by
    show decide (Scalar.Measure.text a = Scalar.Measure.text b) = decide (a = b)
    rw [decide_eq_decide, Scalar.Measure.text.injEq]
  have hfilter (q : Option Text) :
      ((rules.map textEntry).filter fun e => e.media = q).map Sheet.Entry.text =
        (rules.filter fun r => r.query? = q).map text := by
    rw [List.filter_map, List.map_map]
    rfl
  have hkeys : keysOf Sheet.Entry.media (rules.map textEntry) = keysOf query? rules := by
    rw [keysOf, List.filterMap_map]
    rfl
  rw [Sheet.render_map hbeq, Sheet.render_eq, Sheet.globals_eq, hfilter, hkeys, Text.unlines,
    List.flatMap_append, ← Text.unlines, text_unlines_outside, List.flatMap_assoc, layout,
    List.flatMap_append, List.flatMap_assoc]
  congr 1
  refine List.flatMap_congr fun q _ => ?_
  rw [← text_unlines_block, Sheet.textsOf, hfilter]
  rfl

theorem sheet_eq_layout {rules : List StoredRule} (h : ∀ r ∈ rules, r.HasTextQuery) :
    sheet rules = .ok ((layout rules).flatMap SheetLine.text) := by
  rw [sheet, mapM_entry h]
  exact congrArg Except.ok (render_entries rules)

/-! ### Rules that trade places -/

/-- The lines of a sheet depend on nothing but the queries in their order and the rules under
each of them. -/
theorem layout_congr {rules rules' : List StoredRule}
    (hkeys : keysOf query? rules = keysOf query? rules')
    (hrules : ∀ q, (rules.filter fun r => r.query? = q) = rules'.filter fun r => r.query? = q) :
    layout rules = layout rules' := by
  rw [layout, layout, hkeys, hrules none]
  simp only [hrules]

theorem filter_query_swap {a b : StoredRule} (h : a.query? ≠ b.query?)
    (before after : List StoredRule) (q : Option Text) :
    ((before ++ a :: b :: after).filter fun r => r.query? = q) =
      (before ++ b :: a :: after).filter fun r => r.query? = q := by
  refine filter_swap ?_ before after
  simp only [decide_eq_false_iff_not]
  by_contra hboth
  obtain ⟨ha, hb⟩ := not_or.mp hboth
  exact h ((not_not.mp ha).trans (not_not.mp hb).symm)

theorem layout_swap_global {a b : StoredRule} (ha : a.query? = none) (hb : b.query? ≠ none)
    (before after : List StoredRule) :
    layout (before ++ a :: b :: after) = layout (before ++ b :: a :: after) :=
  layout_congr (keysOf_swap_none ha b before after)
    (filter_query_swap (fun h => hb (h.symm.trans ha)) before after)

theorem layout_swap_met {a b : StoredRule} {p q : Text} (ha : a.query? = some p)
    (hb : b.query? = some q) (hne : p ≠ q) {before : List StoredRule}
    (hmet : p ∈ keysOf query? before ∨ q ∈ keysOf query? before) (after : List StoredRule) :
    layout (before ++ a :: b :: after) = layout (before ++ b :: a :: after) := by
  refine layout_congr (keysOf_swap ha hb hmet after) (filter_query_swap ?_ before after)
  rw [ha, hb]
  exact fun h => hne (Option.some.inj h)

theorem layout_regroup (rules : List StoredRule) : layout (regroup query? rules) = layout rules := by
  refine layout_congr (keysOf_regroup query? rules) fun q => ?_
  cases q with
  | none => exact filter_regroup_none query? rules
  | some k => exact filter_regroup_some query? rules k

/-! ### What is on the lines -/

theorem rules_outside (rules : List StoredRule) :
    (rules.map SheetLine.outside).filterMap SheetLine.rule? = rules := by
  rw [List.filterMap_map]
  exact List.filterMap_some

theorem rules_blockLayout (query : Text) (rules : List StoredRule) :
    (blockLayout query rules).filterMap SheetLine.rule? = rules := by
  have hinside : (rules.map SheetLine.inside).filterMap SheetLine.rule? = rules := by
    rw [List.filterMap_map]
    exact List.filterMap_some
  rw [blockLayout, List.filterMap_append, List.filterMap_cons_none rfl, hinside,
    List.filterMap_cons_none rfl, List.filterMap_nil, List.append_nil]

/-- The rules on the lines of a sheet, from the first line to the last. -/
theorem rules_layout (rules : List StoredRule) :
    (layout rules).filterMap SheetLine.rule? = regroup query? rules := by
  rw [layout, regroup, List.filterMap_append, rules_outside, List.filterMap_flatMap]
  simp only [rules_blockLayout]

/-- The media queries whose blocks are opened, from the first block to the last. -/
theorem opened_layout (rules : List StoredRule) :
    (layout rules).filterMap SheetLine.opened? = keysOf query? rules := by
  have hnone {f : StoredRule → SheetLine} (hf : ∀ r, (f r).opened? = none) (rs : List StoredRule) :
      (rs.map f).filterMap SheetLine.opened? = [] := by
    rw [List.filterMap_eq_nil_iff]
    exact List.forall_mem_map.mpr fun r _ => hf r
  have hblock (q : Text) (rs : List StoredRule) :
      (blockLayout q rs).filterMap SheetLine.opened? = [q] := by
    have hopening : (SheetLine.opening q).opened? = some q := rfl
    rw [blockLayout, List.filterMap_append, List.filterMap_cons_some hopening, hnone fun _ => rfl]
    rfl
  rw [layout, List.filterMap_append, hnone fun _ => rfl, List.nil_append, List.filterMap_flatMap]
  simp only [hblock, List.flatMap_singleton']

theorem HasTextQuery.stored (r : Rule) : r.stored.HasTextQuery := by
  cases hmedia : r.media with
  | none => exact .inl (by rw [Rule.stored, hmedia]; rfl)
  | some m => exact .inr ⟨m.query, by rw [Rule.stored, hmedia]; rfl⟩

/-- The sheet of rules whose media queries are texts, or null, is laid out in lines: first the
rules without a query, then a block for each query, the rules in their order everywhere.  Every
rule stands on one line and every query has one block.  So a rule without a query may trade places
with one that has one, and so may two rules of different queries one of which was met before; and
rules that are regrouped have the same sheet.  The sheet of rules of tokens is of this kind. -/
theorem sheet_layout :
    (∀ rules : List StoredRule, (∀ r ∈ rules, r.HasTextQuery) →
      sheet rules = .ok ((layout rules).flatMap SheetLine.text)) ∧
    (∀ rules : List StoredRule,
      ((layout rules).filterMap SheetLine.rule?).Perm rules ∧
      (layout rules).filterMap SheetLine.opened? = keysOf query? rules ∧
      (keysOf query? rules).Nodup) ∧
    (∀ (before after : List StoredRule) (a b : StoredRule),
      (∀ r ∈ before ++ a :: b :: after, r.HasTextQuery) → a.query? = none → b.query? ≠ none →
        sheet (before ++ a :: b :: after) = sheet (before ++ b :: a :: after)) ∧
    (∀ (before after : List StoredRule) (a b : StoredRule) (p q : Text),
      (∀ r ∈ before ++ a :: b :: after, r.HasTextQuery) → a.query? = some p → b.query? = some q →
      p ≠ q → (p ∈ keysOf query? before ∨ q ∈ keysOf query? before) →
        sheet (before ++ a :: b :: after) = sheet (before ++ b :: a :: after)) ∧
    (∀ rules : List StoredRule, (∀ r ∈ rules, r.HasTextQuery) →
      sheet (regroup query? rules) = sheet rules) ∧
    ∀ rules : List Rule,
      Rule.sheet rules = (layout (rules.map Rule.stored)).flatMap SheetLine.text := by
  have hswap {before after : List StoredRule} {a b : StoredRule}
      (h : ∀ r ∈ before ++ a :: b :: after, r.HasTextQuery) :
      ∀ r ∈ before ++ b :: a :: after, r.HasTextQuery := fun r hr =>
    h r (((List.Perm.swap a b after).append_left before).mem_iff.mp hr)
  refine ⟨fun _ => sheet_eq_layout, fun rules => ⟨?_, opened_layout rules, nodup_keysOf _ _⟩,
    fun before after a b h ha hb => ?_, fun before after a b p q h ha hb hne hmet => ?_,
    fun rules h => ?_, fun rules => ?_⟩
  · rw [rules_layout]
    exact regroup_perm query? rules
  · rw [sheet_eq_layout h, sheet_eq_layout (hswap h), layout_swap_global ha hb]
  · rw [sheet_eq_layout h, sheet_eq_layout (hswap h), layout_swap_met ha hb hne hmet]
  · have hregroup : ∀ r ∈ regroup query? rules, r.HasTextQuery := fun r hr =>
      h r (mem_regroup.mp hr)
    rw [sheet_eq_layout h, sheet_eq_layout hregroup, layout_regroup]
  · have hstored : ∀ r ∈ rules.map Rule.stored, r.HasTextQuery :=
      List.forall_mem_map.mpr fun r _ => .stored r
    exact Except.ok.inj ((sheet_stored rules).symm.trans (sheet_eq_layout hstored))

/-- Rules under two queries, under the empty one and under none. -/
def mixedRules : List StoredRule :=
  [⟨.text ".a", .text "top: 0", .text ""⟩, ⟨.text ".b", .text "top: 1", .text "print"⟩,
    ⟨.text ".c", .text "top: 2", .text "screen"⟩, ⟨.text ".d", .text "top: 3", .text "print"⟩,
    ⟨.text ".e", .scalar (.int 4), .null⟩]

theorem sheet_layout_mixed :
    (∀ r ∈ mixedRules, r.HasTextQuery) ∧
    sheet mixedRules = .ok (".a \x7b top: 0 \x7d\n.e \x7b 4 \x7d\n" ++
      "@media print \x7b\n  .b \x7b top: 1 \x7d\n  .d \x7b top: 3 \x7d\n\x7d\n" ++
      "@media screen \x7b\n  .c \x7b top: 2 \x7d\n\x7d\n" : String) ∧
    (∀ a b c d e, mixedRules = [a, b, c, d, e] →
      sheet [b, a, c, d, e] = sheet mixedRules ∧ sheet [a, b, d, c, e] = sheet mixedRules) ∧
    sheet (regroup query? mixedRules) = sheet mixedRules := by
  have h : ∀ r ∈ mixedRules, r.HasTextQuery := by
    simp only [mixedRules, List.forall_mem_cons]
    exact ⟨.inr ⟨_, rfl⟩, .inr ⟨_, rfl⟩, .inr ⟨_, rfl⟩, .inr ⟨_, rfl⟩, .inl rfl,
      List.forall_mem_nil _⟩
  obtain ⟨hsheet, -, hglobal, hmet, hregroup, -⟩ := sheet_layout
  refine ⟨h, ?_, ?_, hregroup mixedRules h⟩
  · rw [hsheet mixedRules h]
    decide +kernel
  · rintro a b c d e heq
    simp only [mixedRules, List.cons.injEq] at heq
    obtain ⟨rfl, rfl, rfl, rfl, rfl, -⟩ := heq
    exact ⟨(hglobal [] _ _ _ h rfl (by decide)).symm,
      (hmet [_, _] _ _ _ ↑"screen" ↑"print" h rfl rfl (by decide) (.inr (by decide))).symm⟩

end StoredRule

end UtilityCss
