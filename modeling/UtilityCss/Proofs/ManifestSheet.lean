/-
Sheets served from a manifest.

A manifest stores the rules of its tokens, and serves the sheet that the tokens would be
compiled to.

* `lookup_filterMap_graph` — a table that is filled from a list;
* `Sheet.render_map` — a sheet does not depend on how its media queries are held;
* `StoredRule.sheet_stored` — the sheet of stored rules is that of the rules;
* `Manifest.rulesOf_build` — a manifest holds the rule of each of its tokens, if there is
  one;
* `Manifest.cssFor_build` — what is served for some tokens is the sheet of those among them
  that the manifest was built for.
-/
import UtilityCss.Manifest.Basic
import UtilityCss.Proofs.CompiledTokens

namespace UtilityCss

/-! ### Lists and tables -/

section Lists

variable {α : Type} [BEq α] [LawfulBEq α]

/-- A table that holds the value of each element of a list, if it has one. -/
theorem lookup_filterMap_graph {β : Type} (f : α → Option β) (l : List α) (a : α) :
    (l.filterMap fun b => (f b).map (b, ·)).lookup a = if a ∈ l then f a else none := by
  induction l with
  | nil => rfl
  | cons b l ih =>
    by_cases hab : a = b
    · subst hab
      rw [if_pos List.mem_cons_self]
      cases hf : f a with
      | some value => simp [hf]
      | none =>
        rw [List.filterMap_cons_none (by rw [hf]; rfl), ih, hf, ite_self]
    · have hbeq : (a == b) = false := by simpa using hab
      have hmem : a ∈ b :: l ↔ a ∈ l := by simp [hab]
      simp only [hmem]
      rw [← ih]
      cases hf : f b with
      | some value =>
        rw [List.filterMap_cons_some (by rw [hf]; rfl), List.lookup_cons, hbeq]
      | none => rw [List.filterMap_cons_none (by rw [hf]; rfl)]

omit [LawfulBEq α] in
theorem lookup_map_snd {β γ : Type} (g : β → γ) (l : List (α × β)) (a : α) :
    (l.map fun e => (e.1, g e.2)).lookup a = (l.lookup a).map g := by
  induction l with
  | nil => rfl
  | cons e l ih =>
    rw [List.map_cons, List.lookup_cons, List.lookup_cons, ih]
    cases a == e.1 <;> rfl

end Lists

/-! ### Media queries held in another way -/

namespace Sheet

variable {κ κ' : Type} [BEq κ] [BEq κ']

/-- An entry whose media query is held in another way. -/
def Entry.mapMedia (f : κ → κ') (e : Entry κ) : Entry κ' :=
  ⟨e.media.map f, e.text⟩

theorem Groups.insert_map {f : κ → κ'} (hf : ∀ a b, (f a == f b) = (a == b)) (key : κ)
    (text : Text) (gs : Groups κ) :
    Groups.insert (f key) text (gs.map fun g => (f g.1, g.2)) =
      (Groups.insert key text gs).map fun g => (f g.1, g.2) := by
  induction gs with
  | nil => rfl
  | cons g gs ih =>
    rw [List.map_cons, Groups.insert, Groups.insert, hf, ih]
    split <;> rfl

theorem groups_map {f : κ → κ'} (hf : ∀ a b, (f a == f b) = (a == b)) (entries : List (Entry κ)) :
    groups (entries.map (Entry.mapMedia f)) = (groups entries).map fun g => (f g.1, g.2) := by
  induction entries using List.reverseRecOn with
  | nil => rfl
  | append_singleton entries e ih =>
    rw [List.map_append, List.map_singleton, groups_concat, groups_concat, ih, Entry.mapMedia]
    -- the last entry goes to the group of its query on both sides
    cases e.media with
    | none => rfl
    | some key => exact Groups.insert_map hf key e.text (groups entries)

/-- Queries that are told apart in the same way, and written in the same way, give the same
sheet. -/
theorem render_map {f : κ → κ'} (hf : ∀ a b, (f a == f b) = (a == b)) (query : κ' → Text)
    (entries : List (Entry κ)) :
    render query (entries.map (Entry.mapMedia f)) = render (fun k => query (f k)) entries := by
  have hglobals : globals (entries.map (Entry.mapMedia f)) = globals entries := by
    have hnone : ((·.media.isNone) ∘ Entry.mapMedia f) = fun e : Entry κ => e.media.isNone :=
      funext fun _ => Option.isNone_map
    rw [globals, globals, List.filter_map, List.map_map, hnone]
    rfl
  rw [render, render, hglobals, groups_map hf, List.flatMap_map]

end Sheet

/-! ### Stored rules -/

theorem Media.query_ne_nil (m : Media) : m.query ≠ [] := by
  rcases m with b | _
  · exact fun h => absurd (List.append_eq_nil_iff.mp (List.append_eq_nil_iff.mp h).1).1 (by decide)
  · decide

/-- The media query of a rule as a value. -/
def Media.scalar (m : Media) : Scalar :=
  .text m.query

theorem Media.scalar_beq (a b : Media) : (a.scalar == b.scalar) = (a == b) := by
  show decide (Scalar.Measure.text a.query = .text b.query) = decide (a = b)
  refine decide_eq_decide.mpr ?_
  rw [Scalar.Measure.text.injEq, Media.query_injective.eq_iff]

namespace StoredRule

theorem mediaKey_stored (r : Rule) : r.stored.mediaKey = .ok (r.media.map Media.scalar) := by
  cases hmedia : r.media with
  | none => simp [mediaKey, Rule.stored, hmedia, Json.isBlank, Scalar.isBlank]
  | some m =>
    have hblank : (Json.text m.query).isBlank = false := by
      simpa [Json.isBlank, Scalar.isBlank] using m.query_ne_nil
    simp [mediaKey, Rule.stored, hmedia, hblank, Media.scalar]

theorem entry_stored (r : Rule) : r.stored.entry = .ok (r.entry.mapMedia Media.scalar) := by
  rw [entry, mediaKey_stored]
  rfl

/-- Rules that are stored as they are have the sheet they had. -/
theorem sheet_stored (rules : List Rule) :
    sheet (rules.map Rule.stored) = .ok (Rule.sheet rules) := by
  have hentries : (rules.map Rule.stored).mapM entry =
      .ok ((rules.map Rule.entry).map (Sheet.Entry.mapMedia Media.scalar)) := by
    have hentry : (entry ∘ Rule.stored) = fun r => pure (r.entry.mapMedia Media.scalar) :=
      funext entry_stored
    rw [List.mapM_map, hentry, List.mapM_pure, List.map_map]
    rfl
  rw [sheet, hentries]
  exact congrArg Except.ok (Sheet.render_map Media.scalar_beq Scalar.display _)

end StoredRule

/-! ### Manifests of tokens -/

/-- A token with a character that no token has stands for no rule. -/
theorem resolve?_eq_none_of_mem {token : Text} {c : CodePoint} (hc : c ∈ token)
    (h : c ≠ ':' ∧ isTokenChar c = false) : resolve? token = none := by
  refine Option.eq_none_iff_forall_ne_some.mpr fun r hr => ?_
  obtain ⟨b, v, base, u, hparts, -⟩ := resolve?_eq_some_iff.mp hr
  rcases hparts.mem_token c hc with hcolon | htoken
  · exact h.1 hcolon
  · exact absurd (h.2.symm.trans htoken) (by simp)

theorem map_snd_resolveAll (tokens : List Text) :
    (resolveAll tokens).map Prod.snd = tokens.eraseDups.filterMap resolve? := by
  rw [resolveAll, TokenSet.items_ofList, List.map_filterMap]
  refine List.filterMap_congr fun t _ => ?_
  cases resolve? t <;> rfl

namespace Manifest

/-- A manifest holds the rule of a token that it was built for, if there is one. -/
theorem rulesOf_build (tokens : List Text) (version : Json) (now token : Text) :
    (build tokens version now).rulesOf token =
      ((if token ∈ tokens then resolve? token else none).map Rule.stored).toList := by
  have hlookup : (build tokens version now).rules.lookup token =
      if token ∈ tokens then (resolve? token).map fun r => [r.stored] else none := by
    show ((resolveAll tokens).map fun e => (e.1, [e.2.stored])).lookup token = _
    rw [lookup_map_snd fun r : Rule => [r.stored], resolveAll, TokenSet.items_ofList,
      lookup_filterMap_graph]
    simp only [List.mem_eraseDups]
    split <;> rfl
  rw [rulesOf, hlookup]
  split
  · cases resolve? token <;> rfl
  · rfl

theorem flatMap_rulesOf_build (xs ys : List Text) (version : Json) (now : Text) :
    ys.eraseDups.flatMap (build xs version now).rulesOf =
      ((resolveAll (ys.filter (· ∈ xs))).map Prod.snd).map Rule.stored := by
  rw [map_snd_resolveAll, eraseDups_filter, List.filterMap_filter, List.map_filterMap,
    List.filterMap_eq_flatMap_toList]
  refine List.flatMap_congr fun y _ => ?_
  rw [rulesOf_build]
  simp only [decide_eq_true_eq]

theorem cssFor_build_eq (xs ys : List Text) (version : Json) (now : Text) :
    (build xs version now).cssFor ys = .ok (compile (ys.filter (· ∈ xs))) := by
  rw [cssFor, TokenSet.items_ofList, flatMap_rulesOf_build, StoredRule.sheet_stored, compile]

theorem resolveAll_filter {keep : Text → Bool} {tokens : List Text}
    (h : ∀ t ∈ tokens, (resolve? t).isSome = true → keep t = true) :
    resolveAll (tokens.filter keep) = resolveAll tokens := by
  rw [resolveAll, resolveAll, TokenSet.items_ofList, TokenSet.items_ofList, eraseDups_filter,
    List.filterMap_filter]
  refine List.filterMap_congr fun t ht => ?_
  cases hresolve : resolve? t with
  | none => simp
  | some r =>
    have hkeep := h t (List.mem_eraseDups.mp ht) (by rw [hresolve]; rfl)
    simp [hkeep]

/-- Serving from a manifest is compiling: what it serves for some tokens is the sheet of those
among them that it was built for, so the sheet of all of them if it was built for every one
that stands for a rule.  A manifest of the tokens of a tree serves, after its baseline, the
sheet of that page. -/
theorem cssFor_build :
    (∀ (xs ys : List Text) (version : Json) (now : Text),
      (build xs version now).cssFor ys = .ok (compile (ys.filter (· ∈ xs)))) ∧
    (∀ (xs ys : List Text) (version : Json) (now : Text),
      (∀ y ∈ ys, (resolve? y).isSome = true → y ∈ xs) →
        (build xs version now).cssFor ys = .ok (compile ys)) ∧
    ∀ (tree version : Json) (now : Text),
      ∃ m tokens css critical, tokens = (Tree.extract tree).tokens.items ∧
        m = build tokens version now ∧ m.cssFor tokens = .ok css ∧
        m.critical = .text critical ∧ critical ++ css = pageSheet tree true := by
  have hall (xs ys : List Text) (version : Json) (now : Text)
      (h : ∀ y ∈ ys, (resolve? y).isSome = true → y ∈ xs) :
      (build xs version now).cssFor ys = .ok (compile ys) := by
    rw [cssFor_build_eq, compile, compile,
      resolveAll_filter fun y hy hy' => decide_eq_true (h y hy hy')]
  refine ⟨cssFor_build_eq, hall, fun tree version now => ?_⟩
  refine ⟨_, _, _, baseline, rfl, rfl, hall _ _ version now fun _ hy _ => hy, rfl, ?_⟩
  rw [pageSheet, if_pos rfl]

/-- Tokens that come in another order, come again or stand for no rule. -/
theorem cssFor_build_reordered :
    (∀ y ∈ ([↑"p-4", ↑"no rule", ↑"flex", ↑"p-4"] : List Text),
      (resolve? y).isSome = true → y ∈ ([↑"flex", ↑"flex", ↑"p-4"] : List Text)) ∧
    (build [↑"flex", ↑"flex", ↑"p-4"] (.text "1.0.0") "now").cssFor
      [↑"p-4", ↑"no rule", ↑"flex", ↑"p-4"] =
        .ok (compile [↑"p-4", ↑"no rule", ↑"flex", ↑"p-4"]) := by
  have hnone : resolve? "no rule" = none :=
    resolve?_eq_none_of_mem (c := ' ') (by decide) (by decide)
  have h : ∀ y ∈ ([↑"p-4", ↑"no rule", ↑"flex", ↑"p-4"] : List Text),
      (resolve? y).isSome = true → y ∈ ([↑"flex", ↑"flex", ↑"p-4"] : List Text) := by
    simp [hnone]
  exact ⟨h, cssFor_build.2.1 _ _ _ _ h⟩

end Manifest

end UtilityCss
