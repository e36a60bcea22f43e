/-
Sheets that cannot be made.

A stored rule may have any value as its media query.  A sheet looks rules up by their queries,
which fails at the first array or object; all other rules are laid out, and those whose queries
are equal as values share a block that shows the first of them.

* `Sheet.map_groups`, `Sheet.find?_of_mem_groups` — the groups of entries whose queries are told
  apart by a measure, and the query that a group keeps;
* `Sheet.render_measured` — the sheet of such entries;
* `Json.isCompound` — arrays and objects that are not empty;
* `StoredRule.valueLayout`, `StoredRule.rules_valueLayout` — the lines of a sheet, and the rules on
  them;
* `StoredRule.sheet_eq` — the sheet of any stored rules, or its failure;
* `Manifest.served_or_refused` — what a manifest serves for some tokens, and when it cannot.
-/
import UtilityCss.Proofs.SheetLayout

namespace UtilityCss

/-! ### Queries that are told apart by a measure -/

namespace Sheet

variable {κ μ : Type} [BEq κ] [DecidableEq μ] {f : κ → μ}

/-- A group that is there after an insertion was there before, or has a new query. -/
theorem Groups.fst_of_mem_insert {key : κ} {text : Text} {gs : Groups κ} {g : κ × List Text}
    (h : g ∈ Groups.insert key text gs) :
    (∃ old ∈ gs, old.1 = g.1) ∨ g.1 = key ∧ ∀ old ∈ gs, (old.1 == key) = false := by
  induction gs with
  | nil =>
    rw [Groups.insert, List.mem_singleton] at h
    subst h
    exact .inr ⟨rfl, List.forall_mem_nil _⟩
  | cons first gs ih =>
    rw [Groups.insert] at h
    split at h
    · -- the text goes to the first group, which keeps its query
      rcases List.mem_cons.mp h with rfl | h
      · exact .inl ⟨first, List.mem_cons_self, rfl⟩
      · exact .inl ⟨g, List.mem_cons_of_mem _ h, rfl⟩
    · rename_i hne
      rcases List.mem_cons.mp h with rfl | h
      · exact .inl ⟨_, List.mem_cons_self, rfl⟩
      · rcases ih h with ⟨old, hold, heq⟩ | ⟨hkey, hold⟩
        · exact .inl ⟨old, List.mem_cons_of_mem _ hold, heq⟩
        · exact .inr ⟨hkey, List.forall_mem_cons.mpr ⟨Bool.eq_false_iff.mpr hne, hold⟩⟩

/-- The measure of the query of an entry. -/
def Entry.measure? (f : κ → μ) (e : Entry κ) : Option μ :=
  e.media.map f

/-- The groups by their measures, each with the texts of its entries. -/
theorem map_groups (hf : ∀ a b : κ, (a == b) = decide (f a = f b)) (entries : List (Entry κ)) :
    (groups entries).map (fun g => (f g.1, g.2)) =
      (keysOf (Entry.measure? f) entries).map fun k =>
        (k, (entries.filter fun e => e.measure? f = some k).map Entry.text) := by
  let _ : BEq μ := instBEqOfDecidableEq
  have hkeys : keysOf Entry.media (entries.map (Entry.mapMedia f)) =
      keysOf (Entry.measure? f) entries := by
    rw [keysOf, List.filterMap_map]
    rfl
  have htexts (k : μ) : textsOf (entries.map (Entry.mapMedia f)) k =
      (entries.filter fun e => e.measure? f = some k).map Entry.text := by
    rw [textsOf, List.filter_map, List.map_map]
    rfl
  rw [← groups_map fun a b => (hf a b).symm, groups_eq, hkeys]
  simp only [htexts]

/-- Every query has a group of its measure. -/
theorem exists_mem_groups (hf : ∀ a b : κ, (a == b) = decide (f a = f b))
    {entries : List (Entry κ)} {key : κ} (h : key ∈ entries.filterMap Entry.media) :
    ∃ g ∈ groups entries, f g.1 = f key := by
  have hmeasures : (groups entries).map (fun g => f g.1) = keysOf (Entry.measure? f) entries := by
    have hgroups := congrArg (List.map Prod.fst) (map_groups hf entries)
    rw [List.map_map, List.map_map] at hgroups
    exact hgroups.trans (List.map_id _)
  obtain ⟨e, he, hmedia⟩ := List.mem_filterMap.mp h
  have hkey : f key ∈ keysOf (Entry.measure? f) entries :=
    mem_keysOf.mpr ⟨e, he, by rw [Entry.measure?, hmedia, Option.map_some]⟩
  rw [← hmeasures] at hkey
  exact List.mem_map.mp hkey

/-- A group keeps the first query of its measure. -/
theorem find?_of_mem_groups (hf : ∀ a b : κ, (a == b) = decide (f a = f b))
    {entries : List (Entry κ)} {g : κ × List Text} (hg : g ∈ groups entries) :
    (entries.filterMap Entry.media).find? (fun k => f k = f g.1) = some g.1 := by
  induction entries using List.reverseRecOn generalizing g with
  | nil => exact absurd hg (by simp [groups])
  | append_singleton entries e ih =>
    rw [groups_concat] at hg
    rw [List.filterMap_append, List.find?_append]
    cases hmedia : e.media with
    | none =>
      rw [hmedia] at hg
      rw [ih hg, Option.some_or]
    | some key =>
      rw [hmedia] at hg
      rcases Groups.fst_of_mem_insert hg with ⟨old, hold, heq⟩ | ⟨hkey, hold⟩
      · rw [← heq, ih hold, Option.some_or]
      · -- no query before has the measure of the new one
        have hnone : (entries.filterMap Entry.media).find? (fun k => f k = f g.1) = none := by
          rw [List.find?_eq_none]
          intro k hk hmeasure
          obtain ⟨old, hmem, heq⟩ := exists_mem_groups hf hk
          have hdistinct := hold old hmem
          rw [hf, decide_eq_false_iff_not, heq, ← hkey] at hdistinct
          exact hdistinct (of_decide_eq_true hmeasure)
        rw [hnone, Option.none_or]
        simp [hmedia, hkey]

/-- The query that a measure is shown as: the first one that has it. -/
def shownQuery (f : κ → μ) (query : κ → Text) (entries : List (Entry κ)) (measure : μ) : Text :=
  (((entries.filterMap Entry.media).find? fun k => f k = measure).map query).getD []

/-- A sheet by the measures of its queries: the entries without a query, then a block for each
measure. -/
theorem render_measured (hf : ∀ a b : κ, (a == b) = decide (f a = f b)) (query : κ → Text)
    (entries : List (Entry κ)) :
    render query entries = Text.unlines (globals entries ++
      (keysOf (Entry.measure? f) entries).flatMap fun k =>
        blockLines (shownQuery f query entries k)
          ((entries.filter fun e => e.measure? f = some k).map Entry.text)) := by
  have hblocks : (groups entries).flatMap (fun g => blockLines (query g.1) g.2) =
      ((groups entries).map fun g => (f g.1, g.2)).flatMap fun g =>
        blockLines (shownQuery f query entries g.1) g.2 := by
    rw [List.flatMap_map]
    refine List.flatMap_congr fun g hg => ?_
    rw [shownQuery, find?_of_mem_groups hf hg, Option.map_some, Option.getD_some]
  rw [render, hblocks, map_groups hf, List.flatMap_map]

end Sheet

/-! ### Queries of any kind -/

/-- Whether a value is an array or an object, and not empty. -/
def Json.isCompound : Json → Bool
  | .array (_ :: _) => true
  | .object (_ :: _) => true
  | _ => false

theorem Json.isCompound_iff {json : Json} :
    json.isCompound = true ↔
      (∃ item items, json = .array (item :: items)) ∨
        ∃ field fields, json = .object (field :: fields) := by
  cases json with
  | scalar s => simp [isCompound]
  | array items => cases items <;> simp [isCompound]
  | object fields => cases fields <;> simp [isCompound]

namespace StoredRule

/-- The media query of a stored rule, if it is a scalar that counts as something. -/
def scalarQuery? (r : StoredRule) : Option Scalar :=
  match r.media with
  | .scalar s => if s.isBlank then none else some s
  | _ => none

/-- What tells the media query of a stored rule from others. -/
def measure? (r : StoredRule) : Option Scalar.Measure :=
  r.scalarQuery?.map Scalar.measure

/-- The entry of a rule whose media query is no array and no object. -/
def scalarEntry (r : StoredRule) : Sheet.Entry Scalar :=
  ⟨r.scalarQuery?, r.text⟩

theorem entry_eq_ok {r : StoredRule} (h : r.media.isCompound = false) :
    r.entry = .ok r.scalarEntry := by
  rw [entry, mediaKey, scalarEntry, scalarQuery?]
  cases hmedia : r.media with
  | scalar s =>
    have hscalar : (Json.scalar s).isBlank = s.isBlank := rfl
    by_cases hblank : s.isBlank = true
    · rw [if_pos (hscalar.trans hblank)]
      simp only [if_pos hblank]
      rfl
    · rw [if_neg fun h => hblank (hscalar.symm.trans h)]
      simp only [if_neg hblank]
      rfl
  | array items =>
    rw [hmedia] at h
    cases items with
    | nil => rfl
    | cons item items => exact absurd h (by simp [Json.isCompound])
  | object fields =>
    rw [hmedia] at h
    cases fields with
    | nil => rfl
    | cons field fields => exact absurd h (by simp [Json.isCompound])

theorem entry_eq_error {r : StoredRule} (h : r.media.isCompound = true) :
    r.entry = .error ⟨r.media.kind⟩ := by
  rw [entry, mediaKey]
  rcases Json.isCompound_iff.mp h with ⟨item, items, hmedia⟩ | ⟨field, fields, hmedia⟩
  · rw [hmedia]
    rfl
  · rw [hmedia]
    rfl

/-- The entries of rules, up to the first whose media query is an array or an object. -/
theorem mapM_entry_eq (rules : List StoredRule) :
    rules.mapM entry =
      match rules.find? (·.media.isCompound) with
      | some r => .error ⟨r.media.kind⟩
      | none => .ok (rules.map scalarEntry) := by
  induction rules with
  | nil => rfl
  | cons r rules ih =>
    rw [List.mapM_cons, List.find?_cons, ih]
    cases hcompound : r.media.isCompound with
    | true =>
      rw [entry_eq_error hcompound]
      rfl
    | false =>
      rw [entry_eq_ok hcompound]
      cases rules.find? (·.media.isCompound) <;> rfl

/-! ### The lines of a sheet -/

/-- The lines of a sheet: the rules without a media query in their order, then for each query the
rules under it in their order.  Queries that are equal as values are shown as the first of them. -/
def valueLayout (rules : List StoredRule) : List SheetLine :=
  (rules.filter fun r => r.measure? = none).map .outside ++
    (keysOf measure? rules).flatMap fun k =>
      blockLayout
        (Sheet.shownQuery Scalar.measure Scalar.display (rules.map scalarEntry) k)
        (rules.filter fun r => r.measure? = some k)

/-- The rules on the lines of a sheet, from the first line to the last. -/
theorem rules_valueLayout (rules : List StoredRule) :
    (valueLayout rules).filterMap SheetLine.rule? = regroup measure? rules := by
  rw [valueLayout, regroup, List.filterMap_append, rules_outside, List.filterMap_flatMap]
  simp only [rules_blockLayout]

theorem render_scalarEntries (rules : List StoredRule) :
    Sheet.render Scalar.display (rules.map scalarEntry) =
      (valueLayout rules).flatMap SheetLine.text := by
  have hbeq (a b : Scalar) : (a == b) = decide (a.measure = b.measure) := rfl
  have hglobals : Sheet.globals (rules.map scalarEntry) =
      (rules.filter fun r => r.measure? = none).map text := by
    rw [Sheet.globals_eq, List.filter_map, List.map_map]
    congr 1
    refine List.filter_congr fun r _ => decide_eq_decide.mpr ?_
    rw [measure?, Option.map_eq_none_iff]
    rfl
  have hkeys : keysOf (Sheet.Entry.measure? Scalar.measure) (rules.map scalarEntry) =
      keysOf measure? rules := by
    rw [keysOf, List.filterMap_map]
    rfl
  have htexts (k : Scalar.Measure) :
      ((rules.map scalarEntry).filter fun e => e.measure? Scalar.measure = some k).map
          Sheet.Entry.text =
        (rules.filter fun r => r.measure? = some k).map text := by
    rw [List.filter_map, List.map_map]
    rfl
  rw [Sheet.render_measured hbeq, hglobals, hkeys, Text.unlines, List.flatMap_append,
    ← Text.unlines, text_unlines_outside, List.flatMap_assoc, valueLayout, List.flatMap_append,
    List.flatMap_assoc]
  congr 1
  refine List.flatMap_congr fun k _ => ?_
  rw [htexts, ← text_unlines_block]
  rfl

/-- The sheet of any stored rules, which fails at the first media query that is an array or an
object. -/
theorem sheet_eq (rules : List StoredRule) :
    sheet rules =
      match rules.find? (·.media.isCompound) with
      | some r => .error ⟨r.media.kind⟩
      | none => .ok ((valueLayout rules).flatMap SheetLine.text) := by
  rw [sheet, mapM_entry_eq, ← render_scalarEntries]
  cases rules.find? (·.media.isCompound) <;> rfl

/-- A sheet fails exactly if one of its rules has an array or an object as its media query. -/
theorem exists_sheet_eq_error_iff {rules : List StoredRule} :
    (∃ u, sheet rules = .error u) ↔ ∃ r ∈ rules, r.media.isCompound = true := by
  rw [sheet_eq, ← List.find?_isSome]
  cases rules.find? (·.media.isCompound) with
  | none => simp
  | some r => simp

/-- The failure of a sheet names the kind of the first such media query. -/
theorem first_of_sheet_eq_error {rules : List StoredRule} {u : Unhashable}
    (h : sheet rules = .error u) :
    ∃ before r after, rules = before ++ r :: after ∧
      (∀ b ∈ before, b.media.isCompound = false) ∧ r.media.isCompound = true ∧
      u = ⟨r.media.kind⟩ := by
  rw [sheet_eq] at h
  cases hfind : rules.find? (·.media.isCompound) with
  | none => exact absurd (hfind ▸ h) (by simp)
  | some r =>
    rw [hfind] at h
    obtain ⟨hr, before, after, hsplit, hbefore⟩ := List.find?_eq_some_iff_append.mp hfind
    refine ⟨before, r, after, hsplit, fun b hb => ?_, hr, (Except.error.inj h).symm⟩
    exact (Bool.not_eq_true' _).mp (hbefore b hb)

theorem eq_of_sheet_eq_ok {rules : List StoredRule} {css : Text} (h : sheet rules = .ok css) :
    css = (valueLayout rules).flatMap SheetLine.text := by
  rw [sheet_eq] at h
  cases hfind : rules.find? (·.media.isCompound) with
  | none =>
    rw [hfind] at h
    exact (Except.ok.inj h).symm
  | some r => exact absurd (hfind ▸ h) (by simp)

end StoredRule

/-! ### What a manifest serves -/

namespace Manifest

/-- The stored rules of the distinct ones of some tokens, in the order of the tokens. -/
def selected (m : Manifest) (tokens : List Text) : List StoredRule :=
  tokens.eraseDups.flatMap m.rulesOf

theorem cssFor_eq (m : Manifest) (tokens : List Text) :
    m.cssFor tokens = StoredRule.sheet (m.selected tokens) := by
  rw [cssFor, TokenSet.items_ofList, selected]

theorem mem_rulesOf {m : Manifest} {t : Text} {r : StoredRule} :
    r ∈ m.rulesOf t ↔ ∃ rules, m.rules.lookup t = some rules ∧ r ∈ rules := by
  rw [rulesOf]
  cases m.rules.lookup t with
  | none => simp
  | some rules => simp

theorem mem_selected {m : Manifest} {tokens : List Text} {r : StoredRule} :
    r ∈ m.selected tokens ↔
      ∃ t ∈ tokens, ∃ rules, m.rules.lookup t = some rules ∧ r ∈ rules := by
  simp only [selected, List.mem_flatMap, List.mem_eraseDups, mem_rulesOf]

/-- The rules that are selected depend on the tokens' first occurrences and on their rules. -/
theorem selected_congr {m m' : Manifest} {tokens tokens' : List Text}
    (htokens : tokens'.eraseDups = tokens.eraseDups)
    (hrules : ∀ t ∈ tokens, m'.rules.lookup t = m.rules.lookup t) :
    m'.selected tokens' = m.selected tokens := by
  rw [selected, selected, htokens]
  refine List.flatMap_congr fun t ht => ?_
  rw [rulesOf, rulesOf, hrules t (List.mem_eraseDups.mp ht)]

/-- A manifest serves some tokens, unless one of them has a rule whose media query is an array or
an object with something in it: then it names the kind of the first one, in the order of the tokens
and of their rules.  What it serves has every rule of every distinct token on one line.  Nothing
else in the manifest has a part in it, and no repetition of a token has. -/
theorem served_or_refused (m : Manifest) (tokens : List Text) :
    ((∃ u, m.cssFor tokens = .error u) ↔
      ∃ t ∈ tokens, ∃ rules, m.rules.lookup t = some rules ∧
        ∃ r ∈ rules, r.media.isCompound = true) ∧
    (∀ u, m.cssFor tokens = .error u →
      ∃ before r after, m.selected tokens = before ++ r :: after ∧
        (∀ b ∈ before, b.media.isCompound = false) ∧
        ((∃ item items, r.media = .array (item :: items) ∧
            u.message = "unhashable type: 'list'") ∨
          ∃ field fields, r.media = .object (field :: fields) ∧
            u.message = "unhashable type: 'dict'")) ∧
    (∀ css, m.cssFor tokens = .ok css →
      css = (StoredRule.valueLayout (m.selected tokens)).flatMap SheetLine.text ∧
        ((StoredRule.valueLayout (m.selected tokens)).filterMap SheetLine.rule?).Perm
          (m.selected tokens)) ∧
    ∀ (m' : Manifest) (tokens' : List Text), tokens'.eraseDups = tokens.eraseDups →
      (∀ t ∈ tokens, m'.rules.lookup t = m.rules.lookup t) →
        m'.cssFor tokens' = m.cssFor tokens := by
  refine ⟨?_, fun u hu => ?_, fun css hcss => ⟨?_, ?_⟩, fun m' tokens' htokens hrules => ?_⟩
  · rw [cssFor_eq, StoredRule.exists_sheet_eq_error_iff]
    constructor
    · rintro ⟨r, hr, hcompound⟩
      obtain ⟨t, ht, rules, hrules, hr⟩ := mem_selected.mp hr
      exact ⟨t, ht, rules, hrules, r, hr, hcompound⟩
    · rintro ⟨t, ht, rules, hrules, r, hr, hcompound⟩
      exact ⟨r, mem_selected.mpr ⟨t, ht, rules, hrules, hr⟩, hcompound⟩
  · rw [cssFor_eq] at hu
    obtain ⟨before, r, after, hsplit, hbefore, hr, rfl⟩ := StoredRule.first_of_sheet_eq_error hu
    refine ⟨before, r, after, hsplit, hbefore, ?_⟩
    rcases Json.isCompound_iff.mp hr with ⟨item, items, hmedia⟩ | ⟨field, fields, hmedia⟩
    · exact .inl ⟨item, items, hmedia, by rw [hmedia]; rfl⟩
    · exact .inr ⟨field, fields, hmedia, by rw [hmedia]; rfl⟩
  · rw [cssFor_eq] at hcss
    exact StoredRule.eq_of_sheet_eq_ok hcss
  · rw [StoredRule.rules_valueLayout]
    exact regroup_perm StoredRule.measure? _
  · rw [cssFor_eq, cssFor_eq, selected_congr htokens hrules]

/-- A manifest with media queries of several kinds, two of them equal as values. -/
def queriedManifest : Manifest where
  version := .null
  generatedAt := .null
  rules :=
    [("a", [⟨.text ".a", .text "top: 0", .scalar (.bool true)⟩,
        ⟨.text ".b", .text "top: 1", .array []⟩]),
      ("b", [⟨.text ".c", .null, .scalar (.int 1)⟩]),
      ("c", [⟨.text ".d", .text "top: 2", .array [.null]⟩,
        ⟨.text ".e", .text "top: 3", .object [("f", .null)]⟩])]
  variants := []
  critical := .null

/-- A list comes before an object; one and true share a block, which shows the first of them. -/
theorem served_or_refused_queried :
    queriedManifest.cssFor [↑"b", ↑"c", ↑"a"] = .error ⟨.array⟩ ∧
    (∃ t ∈ ([↑"b", ↑"c", ↑"a"] : List Text), ∃ rules, queriedManifest.rules.lookup t = some rules ∧
      ∃ r ∈ rules, r.media.isCompound = true) ∧
    queriedManifest.cssFor [↑"b", ↑"z", ↑"a", ↑"b"] =
      .ok (".b \x7b top: 1 \x7d\n" ++
        "@media 1 \x7b\n  .c \x7b None \x7d\n  .a \x7b top: 0 \x7d\n\x7d\n" : String) ∧
    ((StoredRule.valueLayout (queriedManifest.selected [↑"b", ↑"z", ↑"a", ↑"b"])).filterMap
      SheetLine.rule?).Perm (queriedManifest.selected [↑"b", ↑"z", ↑"a", ↑"b"]) ∧
    ∀ m' : Manifest,
      (∀ t ∈ ([↑"b", ↑"z", ↑"a", ↑"b"] : List Text),
        m'.rules.lookup t = queriedManifest.rules.lookup t) →
        m'.cssFor [↑"b", ↑"z", ↑"a"] = queriedManifest.cssFor [↑"b", ↑"z", ↑"a", ↑"b"] := by
  obtain ⟨hfails, -⟩ := served_or_refused queriedManifest [↑"b", ↑"c", ↑"a"]
  obtain ⟨-, -, hok, hcongr⟩ := served_or_refused queriedManifest [↑"b", ↑"z", ↑"a", ↑"b"]
  have herror : queriedManifest.cssFor [↑"b", ↑"c", ↑"a"] = .error ⟨.array⟩ := rfl
  have hcss : queriedManifest.cssFor [↑"b", ↑"z", ↑"a", ↑"b"] =
      .ok (".b \x7b top: 1 \x7d\n" ++
        "@media 1 \x7b\n  .c \x7b None \x7d\n  .a \x7b top: 0 \x7d\n\x7d\n" : String) := rfl
  exact ⟨herror, hfails.mp ⟨_, herror⟩, hcss, (hok _ hcss).2, fun m' => hcongr m' _ (by decide)⟩

end Manifest

end UtilityCss
