/-
Sheets read back by their braces.

The reader goes through a sheet character by character and takes no account of lines: a brace
opens or closes a block only where the scanner is at rest, so what a rule leaves open reaches
over the braces of the rules after it.

* `BlockReader`, `BlockReader.next?` — what was read, and how one more character changes it;
* `readBlocks?` — reading a sheet;
* `BlockReader.Yields` — what is read on the way from one rule to another;
* `BlockReader.yields_rule`, `yields_block` — rules that leave nothing open are read as they are
  written, and so are media blocks of them;
* `readBlocks?_sheet` — and so is a sheet;
* `readBlocks?_eq_none` — a block that is still open at the end is not read.
-/
import UtilityCss.Proofs.BlockScanner

namespace UtilityCss

/-! ### Reading -/

/-- What stands at a place of a sheet that is not at the end of a block. -/
inductive BlockPlace where
  /-- The text before a brace. -/
  | prelude (text : Text)
  /-- A block that was opened after `prelude`, and its text up to here. -/
  | block (prelude text : Text)
  deriving DecidableEq

/-- What was read of a sheet: the media query that holds here, the place, and the rules before
it. -/
structure BlockReader where
  query : Option Text
  place : BlockPlace
  scanner : Scanner
  rules : List Written

namespace BlockReader

/-- The reader between two rules. -/
def between (query : Option Text) (rules : List Written) : BlockReader :=
  ⟨query, .prelude [], .start, rules⟩

/-- An opening brace after a prelude. -/
def open? (query : Option Text) (rules : List Written) (prelude : Text) : Option BlockReader :=
  match query, Text.consume? "@media " prelude with
  | none, some rest => (Text.trimEnd? " " rest).map fun query => between (some query) rules
  -- a media block has no others in it
  | some _, some _ => none
  | query, none => some ⟨query, .block prelude [], .start, rules⟩

/-- The closing brace of a rule. -/
def close? (query : Option Text) (rules : List Written) (prelude text : Text) :
    Option BlockReader := do
  let selector ← Text.trimEnd? " " prelude
  let body ← Text.consume? " " text
  let declarations ← Text.trimEnd? " " body
  some (between query (rules ++ [⟨query, selector, declarations⟩]))

/-- Reads one character. -/
def next? (r : BlockReader) (c : CodePoint) : Option BlockReader :=
  match r.place with
  | .prelude text =>
    if r.scanner.isAtRest ∧ c = '\x7b' then open? r.query r.rules text
    else if r.scanner.isAtRest ∧ c = '\x7d' then
      if text = [] ∧ r.query ≠ none then some (between none r.rules) else none
    else if text = [] ∧ isGap c then some r
    else some { r with place := .prelude (text ++ [c]), scanner := r.scanner.step c }
  | .block prelude text =>
    if r.scanner.isAtRest ∧ c = '\x7d' then close? r.query r.rules prelude text
    else some { r with place := .block prelude (text ++ [c]), scanner := r.scanner.step c }

/-- Reads a text. -/
def run? (r : BlockReader) (s : Text) : Option BlockReader :=
  s.foldlM next? r

/-- The rules that were read, if no block is open. -/
def finish? (r : BlockReader) : Option (List Written) :=
  if r.place = .prelude [] ∧ r.query = none then some r.rules else none

end BlockReader

/-- Reads a sheet by its braces. -/
def readBlocks? (sheet : Text) : Option (List Written) :=
  ((BlockReader.between none []).run? sheet).bind BlockReader.finish?

/-! ### Parts of a rule -/

namespace BlockReader

variable {query : Option Text} {rules : List Written}

theorem run?_cons (r : BlockReader) (c : CodePoint) (s : Text) :
    r.run? (c :: s) = (r.next? c).bind (run? · s) :=
  rfl

theorem run?_append {r r' : BlockReader} {s : Text} (h : r.run? s = some r') (t : Text) :
    r.run? (s ++ t) = r'.run? t := by
  rw [run?, List.foldlM_append]
  exact congrArg (Option.bind · (run? · t)) h

/-- A text without braces is read as part of a prelude that was begun. -/
theorem run?_prelude {text : Text} (hne : text ≠ []) (scanner : Scanner) {s : Text}
    (hs : ∀ c ∈ s, c ≠ '\x7b' ∧ c ≠ '\x7d') :
    run? ⟨query, .prelude text, scanner, rules⟩ s =
      some ⟨query, .prelude (text ++ s), scanner.run s, rules⟩ := by
  induction s generalizing text scanner with
  | nil => rw [List.append_nil]; rfl
  | cons c s ih =>
    obtain ⟨⟨hopen, hclose⟩, hs⟩ := List.forall_mem_cons.mp hs
    have hnext : next? ⟨query, .prelude text, scanner, rules⟩ c =
        some ⟨query, .prelude (text ++ [c]), scanner.step c, rules⟩ := by
      simp [next?, hopen, hclose, hne]
    rw [run?_cons, hnext, Option.bind_some, ih (by simp) _ hs, List.append_assoc]
    rfl

theorem run?_block (prelude text : Text) (scanner : Scanner) {s : Text}
    (hs : ∀ c ∈ s, c ≠ '\x7d') :
    run? ⟨query, .block prelude text, scanner, rules⟩ s =
      some ⟨query, .block prelude (text ++ s), scanner.run s, rules⟩ := by
  induction s generalizing text scanner with
  | nil => rw [List.append_nil]; rfl
  | cons c s ih =>
    obtain ⟨hclose, hs⟩ := List.forall_mem_cons.mp hs
    have hnext : next? ⟨query, .block prelude text, scanner, rules⟩ c =
        some ⟨query, .block prelude (text ++ [c]), scanner.step c, rules⟩ := by
      simp [next?, hclose]
    rw [run?_cons, hnext, Option.bind_some, ih _ _ hs, List.append_assoc]
    rfl

/-- A prelude begins with the first character that is not a gap. -/
theorem run?_between {c : CodePoint} {s : Text} (hgap : isGap c = false)
    (hs : ∀ d ∈ c :: s, d ≠ '\x7b' ∧ d ≠ '\x7d') :
    run? (between query rules) (c :: s) =
      some ⟨query, .prelude (c :: s), Scanner.start.run (c :: s), rules⟩ := by
  obtain ⟨⟨hopen, hclose⟩, hs⟩ := List.forall_mem_cons.mp hs
  have hnext : next? (between query rules) c =
      some ⟨query, .prelude [c], Scanner.start.step c, rules⟩ := by
    simp [next?, between, hopen, hclose, hgap]
  rw [run?_cons, hnext, Option.bind_some, run?_prelude (by simp) _ hs]
  rfl

theorem run?_gap {c : CodePoint} (hgap : isGap c = true) :
    run? (between query rules) [c] = some (between query rules) := by
  have hbrace : c ≠ '\x7b' ∧ c ≠ '\x7d' := by
    constructor <;> rintro rfl <;> exact absurd hgap (by decide)
  simp [run?, next?, between, hbrace, hgap]

/-- What goes on from one place between rules to the next, with the rules read on the way. -/
def Yields (query : Option Text) (s : Text) (after : Option Text) (read : List Written) : Prop :=
  ∀ rules, run? (between query rules) s = some (between after (rules ++ read))

theorem Yields.nil (query : Option Text) : Yields query [] query [] := by
  intro rules
  rw [List.append_nil]
  rfl

theorem Yields.append {query inner after : Option Text} {s t : Text} {read read' : List Written}
    (hs : Yields query s inner read) (ht : Yields inner t after read') :
    Yields query (s ++ t) after (read ++ read') := by
  intro rules
  rw [run?_append (hs rules), ht, List.append_assoc]

theorem Yields.gap {c : CodePoint} (hgap : isGap c = true) (query : Option Text) :
    Yields query [c] query [] := by
  intro rules
  rw [List.append_nil, run?_gap hgap]

end BlockReader

/-! ### Rules -/

/-- What stands before the opening brace of a rule. -/
def Rule.prelude (r : Rule) : Text :=
  r.selector.text ++ [.char ' ']

/-- What stands between the braces of a rule. -/
def Rule.body (r : Rule) : Text :=
  .char ' ' :: (declarationText r.declarations ++ [.char ' '])

theorem Rule.line_eq (r : Rule) :
    r.line = (r.prelude ++ [.char '\x7b']) ++ (r.body ++ [.char '\x7d']) := by
  simp only [line, ruleText, prelude, body, List.append_assoc, List.cons_append]
  rfl

/-- A rule whose selector opens nothing, and whose declarations have only plain characters. -/
structure Rule.IsPlain (r : Rule) : Prop where
  begins : r.selector.text.head? = some '.'
  braces : ∀ c ∈ r.selector.text, c ≠ '\x7b' ∧ c ≠ '\x7d'
  settles : Settles r.selector.text
  declarations : ∀ c ∈ declarationText r.declarations, c ∉ strangers ∧ c ≠ '\x7d'

theorem Rule.run_body (r : Rule) : Scanner.start.run r.body =
    (Scanner.start.run (declarationText r.declarations)).step (CodePoint.char ' ') := by
  rw [body, Scanner.run_cons, Scanner.run_append]
  rfl

namespace BlockReader

variable {query : Option Text} {rules : List Written} {r : Rule}

/-- The selector of a rule and the brace after it open a block. -/
theorem run?_selector (h : r.IsPlain) :
    run? (between query rules) (r.prelude ++ [.char '\x7b']) =
      some ⟨query, .block r.prelude [], .start, rules⟩ := by
  obtain ⟨rest, hrest⟩ := List.head?_eq_some_iff.mp h.begins
  have hprelude : run? (between query rules) r.prelude =
      some ⟨query, .prelude r.prelude, Scanner.start.run r.prelude, rules⟩ := by
    have hbraces : ∀ c ∈ r.prelude, c ≠ '\x7b' ∧ c ≠ '\x7d' :=
      List.forall_mem_append.mpr ⟨h.braces, by decide⟩
    rw [Rule.prelude, hrest] at hbraces ⊢
    exact run?_between (by decide) hbraces
  have hrested : (Scanner.start.run r.prelude).isAtRest = true :=
    (h.settles.append (settles_singleton (by decide))) _ rfl
  have hmedia : Text.consume? "@media " r.prelude = none :=
    consume?_eq_none_of_head? (d := '.') (by rw [Rule.prelude, hrest]; rfl) (by decide)
  have hopen : open? query rules r.prelude =
      some ⟨query, .block r.prelude [], .start, rules⟩ := by
    cases query <;> simp only [open?, hmedia]
  rw [run?_append hprelude, run?_cons, next?]
  simp only [hrested, and_self, if_true, hopen]
  rfl

theorem run?_body (h : r.IsPlain) (prelude : Text) :
    run? ⟨query, .block prelude [], .start, rules⟩ r.body =
      some ⟨query, .block prelude r.body,
        (Scanner.start.run (declarationText r.declarations)).step (CodePoint.char ' '), rules⟩ := by
  have hbraces : ∀ c ∈ r.body, c ≠ '\x7d' := by
    refine List.forall_mem_cons.mpr ⟨by decide, List.forall_mem_append.mpr ⟨?_, by decide⟩⟩
    exact fun c hc => (h.declarations c hc).2
  rw [run?_block _ _ _ hbraces, r.run_body, List.nil_append]

/-- A rule that leaves nothing open is read as it is written. -/
theorem yields_rule (h : r.IsPlain) (hclosed : IsClosed (declarationText r.declarations))
    (query : Option Text) :
    Yields query r.line query [⟨query, r.selector.text, declarationText r.declarations⟩] := by
  intro rules
  have hrested : ((Scanner.start.run (declarationText r.declarations)).step ' ').isAtRest = true :=
    settles_singleton (c := ' ') (by decide) _ hclosed
  have hclose : close? query rules r.prelude r.body = some (between query
      (rules ++ [⟨query, r.selector.text, declarationText r.declarations⟩])) := by
    have hselector : Text.trimEnd? " " r.prelude = some r.selector.text :=
      Text.trimEnd?_append _ " "
    have hbody : Text.consume? " " r.body = some (declarationText r.declarations ++ ↑" ") :=
      Text.consume?_eq_some_iff.mpr rfl
    simp only [close?, hselector, hbody, Text.trimEnd?_append, Option.bind_eq_bind,
      Option.bind_some]
  rw [r.line_eq, run?_append (run?_selector h), run?_append (run?_body h _), run?_cons, next?]
  simp only [hrested, and_self, if_true, hclose]
  rfl

/-- A block that was left open stays open over braces and gaps. -/
theorem run?_open (query : Option Text) (rules : List Written) (prelude text : Text) {s : Text}
    {scanner : Scanner} (hplain : scanner.IsPlain) (hopen : scanner.isAtRest = false)
    (hs : ∀ c ∈ s, isGap c = true ∨ c = '\x7d') :
    ∃ text' scanner', run? ⟨query, .block prelude text, scanner, rules⟩ s =
      some ⟨query, .block prelude text', scanner', rules⟩ := by
  induction s generalizing text scanner with
  | nil => exact ⟨text, scanner, rfl⟩
  | cons c s ih =>
    obtain ⟨hc, hs⟩ := List.forall_mem_cons.mp hs
    have hchar : c ∉ strangers := by
      rw [isGap, Bool.or_eq_true, decide_eq_true_eq, decide_eq_true_eq] at hc
      rcases hc with (rfl | rfl) | rfl <;> decide
    have hnext : next? ⟨query, .block prelude text, scanner, rules⟩ c =
        some ⟨query, .block prelude (text ++ [c]), scanner.step c, rules⟩ := by
      simp [next?, hopen]
    rw [run?_cons, hnext, Option.bind_some]
    exact ih _ (Scanner.isPlain_step hplain hchar) (Scanner.not_isAtRest_step hplain hopen hc) hs

/-- A rule that leaves something open is still open after the braces and gaps that follow. -/
theorem run?_line_open (h : r.IsPlain) (hopen : ¬IsClosed (declarationText r.declarations))
    {after : Text} (hafter : ∀ c ∈ after, isGap c = true ∨ c = '\x7d') :
    ∃ left, run? (between query rules) (r.line ++ after) = some left ∧ left.finish? = none := by
  have hplain : (Scanner.start.run (declarationText r.declarations)).IsPlain :=
    Scanner.isPlain_run Scanner.isPlain_start fun c hc => (h.declarations c hc).1
  have hblank := Scanner.not_isAtRest_step hplain (Bool.eq_false_iff.mpr hopen) (c := ' ') (.inl rfl)
  obtain ⟨text, scanner, hrest⟩ := run?_open query rules r.prelude r.body
    (Scanner.isPlain_step hplain (by decide)) hblank
    (List.forall_mem_cons.mpr ⟨.inr rfl, hafter⟩)
  refine ⟨⟨query, .block r.prelude text, scanner, rules⟩, ?_, rfl⟩
  rw [r.line_eq, List.append_assoc, run?_append (run?_selector h), List.append_assoc,
    run?_append (run?_body h _)]
  exact hrest

/-! ### Media blocks -/

/-- What stands before the brace of a media block. -/
def mediaPrelude (m : Media) : Text :=
  "@media " ++ m.query ++ " "

/-- The query of a media block opens nothing that it does not close. -/
theorem isAtRest_mediaPrelude (m : Media) :
    (Scanner.start.run (mediaPrelude m)).isAtRest = true ∧
      ∀ c ∈ mediaPrelude m, c ≠ '\x7b' ∧ c ≠ '\x7d' := by
  have hall : ∀ m ∈ Media.all, (Scanner.start.run (mediaPrelude m)).isAtRest = true ∧
      ∀ c ∈ mediaPrelude m, c ≠ '\x7b' ∧ c ≠ '\x7d' := by
    decide +kernel
  exact hall m m.mem_all

theorem yields_opening (m : Media) : Yields none (Sheet.opening m.query) (some m.query) [] := by
  intro rules
  obtain ⟨hrested, hbraces⟩ := isAtRest_mediaPrelude m
  have hprelude : run? (between none rules) (mediaPrelude m) =
      some ⟨none, .prelude (mediaPrelude m), Scanner.start.run (mediaPrelude m), rules⟩ :=
    run?_between (c := '@') (by decide) hbraces
  have hrest : Text.consume? "@media " (mediaPrelude m) = some (m.query ++ ↑" ") :=
    Text.consume?_eq_some_iff.mpr (List.append_assoc ..)
  have hopen : open? none rules (mediaPrelude m) = some (between (some m.query) rules) := by
    simp only [open?, hrest, Text.trimEnd?_append, Option.map_some]
  have hsplit : Sheet.opening m.query = mediaPrelude m ++ [CodePoint.char '\x7b'] := by
    rw [mediaPrelude, List.append_assoc _ _ [_]]
    rfl
  rw [hsplit, run?_append hprelude, run?_cons, next?, List.append_nil]
  simp only [hrested, and_self, if_true, hopen]
  rfl

theorem yields_closing (query : Text) : Yields (some query) Sheet.closing none [] := by
  intro rules
  rw [List.append_nil]
  rfl

/-! ### Lines -/

theorem yields_lines {α : Type} {items : List α} {line : α → Text} {written : α → Written}
    (h : ∀ a ∈ items, Yields query (line a) query [written a]) :
    Yields query (Text.unlines (items.map line)) query (items.map written) := by
  induction items with
  | nil => exact .nil query
  | cons a items ih =>
    obtain ⟨ha, hitems⟩ := List.forall_mem_cons.mp h
    exact (ha.append (.gap (c := '\n') rfl query)).append (ih hitems)

theorem yields_indent {line : Text} {read : List Written} (h : Yields query line query read) :
    Yields query (Sheet.indent line) query read :=
  ((Yields.gap (c := ' ') rfl query).append (.gap (c := ' ') rfl query)).append h

theorem yields_block {m : Media} {inner : List Rule}
    (h : ∀ r ∈ inner, r.media = some m ∧ r.IsPlain ∧ IsClosed (declarationText r.declarations)) :
    Yields none (Text.unlines (Sheet.blockLines m.query (inner.map Rule.line))) none
      (inner.map Rule.written) := by
  have hrules : Yields (some m.query) (Text.unlines (inner.map fun r => Sheet.indent r.line))
      (some m.query) (inner.map Rule.written) := by
    refine yields_lines fun r hr => ?_
    obtain ⟨hmedia, hplain, hclosed⟩ := h r hr
    have hrule := yields_indent (yields_rule hplain hclosed (some m.query))
    rwa [Rule.written, hmedia]
  have hopening := (yields_opening m).append (.gap (c := '\n') rfl (some m.query))
  have hclosing := (yields_closing m.query).append (.gap (c := '\n') rfl none)
  have hblock := (hopening.append hrules).append hclosing
  have htext : Text.unlines (Sheet.blockLines m.query (inner.map Rule.line)) =
      Sheet.opening m.query ++ [CodePoint.char '\n'] ++ Text.unlines (inner.map fun r => Sheet.indent r.line) ++
        (Sheet.closing ++ [CodePoint.char '\n']) := by
    rw [Sheet.blockLines, List.map_map, Text.unlines, List.flatMap_append]
    rfl
  rw [List.nil_append, List.nil_append, List.append_nil] at hblock
  rwa [htext]

/-- Pieces that begin and end outside of all blocks are read one after the other. -/
theorem yields_flatMap {κ : Type} {keys : List κ} {lines : κ → List Text} {read : κ → List Written}
    (h : ∀ k ∈ keys, Yields none (Text.unlines (lines k)) none (read k)) :
    Yields none (Text.unlines (keys.flatMap lines)) none (keys.flatMap read) := by
  induction keys with
  | nil => exact .nil none
  | cons k keys ih =>
    obtain ⟨hk, hkeys⟩ := List.forall_mem_cons.mp h
    rw [List.flatMap_cons, List.flatMap_cons, Text.unlines, List.flatMap_append]
    exact hk.append (ih hkeys)

theorem yields_sheet {rules : List Rule}
    (h : ∀ r ∈ rules, r.IsPlain ∧ IsClosed (declarationText r.declarations)) :
    Yields none (Rule.sheet rules) none ((regroup Rule.media rules).map Rule.written) := by
  rw [Rule.sheet_eq, sheetLines, regroup, List.map_append, List.map_flatMap, Text.unlines,
    List.flatMap_append]
  refine (yields_lines fun r hr => ?_).append (yields_flatMap fun m _ => yields_block fun r hr => ?_)
  · obtain ⟨hplain, hclosed⟩ := h r (List.mem_filter.mp hr).1
    have hmedia : r.media = none := of_decide_eq_true (List.mem_filter.mp hr).2
    have hrule := yields_rule hplain hclosed none
    rwa [Rule.written, hmedia]
  · exact ⟨of_decide_eq_true (List.mem_filter.mp hr).2, h r (List.mem_filter.mp hr).1⟩

end BlockReader

theorem readBlocks?_sheet {rules : List Rule}
    (h : ∀ r ∈ rules, r.IsPlain ∧ IsClosed (declarationText r.declarations)) :
    readBlocks? (Rule.sheet rules) = some ((regroup Rule.media rules).map Rule.written) := by
  rw [readBlocks?, BlockReader.yields_sheet h, Option.bind_some, List.nil_append]
  rfl

theorem sheetLines_singleton (r : Rule) : sheetLines [r] =
    match r.media with
    | none => [r.line]
    | some m => [Sheet.opening m.query, Sheet.indent r.line, Sheet.closing] := by
  cases h : r.media with
  | none => simp [sheetLines, keysOf, h]
  | some m => simp [sheetLines, keysOf, h, Sheet.blockLines, List.eraseDups_cons]

/-- What a rule leaves open in its block is not closed by the braces after it. -/
theorem readBlocks?_eq_none {r : Rule} (h : r.IsPlain)
    (hopen : ¬IsClosed (declarationText r.declarations)) : readBlocks? (Rule.sheet [r]) = none := by
  -- in front of the line a media block may be opened, and after it closed
  have hsheet : ∃ before query after, Rule.sheet [r] = before ++ (r.line ++ after) ∧
      BlockReader.Yields none before query [] ∧ ∀ c ∈ after, isGap c = true ∨ c = '\x7d' := by
    rw [Rule.sheet_eq, sheetLines_singleton]
    cases r.media with
    | none => exact ⟨[], none, [CodePoint.char '\n'], List.append_nil _, .nil none, by decide⟩
    | some m =>
      have hopening := (BlockReader.yields_opening m).append
        (.gap (c := '\n') rfl (some m.query))
      refine ⟨_, some m.query, [CodePoint.char '\n', CodePoint.char '\x7d', CodePoint.char '\n'], ?_,
        hopening.append (BlockReader.yields_indent (.nil (some m.query))), by decide⟩
      simp only [Text.unlines, List.flatMap_cons, List.flatMap_nil, Sheet.indent, List.append_assoc]
      rfl
  obtain ⟨before, query, after, hsheet, hbefore, hafter⟩ := hsheet
  obtain ⟨left, hrun, hfinish⟩ := BlockReader.run?_line_open h hopen hafter
  rw [readBlocks?, hsheet, BlockReader.run?_append (hbefore []), hrun, Option.bind_some, hfinish]

end UtilityCss
