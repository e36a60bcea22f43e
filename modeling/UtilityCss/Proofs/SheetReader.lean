/-
Sheets read back line by line.

A line that begins with `@media ` opens a block, a closing brace closes it, and every
other line is a selector and its declarations in braces, set in by two blanks exactly
inside a block.

* `readLine?`, `readLines?`, `readSheet?` — one line, the lines and a sheet;
* `Reads` — what is read from some lines, whatever follows them;
* `reads_block`, `reads_sheet` — what is read from a block and from all lines;
* `readSheet?_sheet` — reading a sheet gives its rules, regrouped by media query.
-/
import UtilityCss.Proofs.Numeral
import UtilityCss.Proofs.Regroup

namespace UtilityCss

/-! ### Reading -/

/-- A rule as it is written. -/
structure Written where
  media : Option Text
  selector : Text
  declarations : Text
  deriving DecidableEq

/-- What is written of a rule. -/
def Rule.written (r : Rule) : Written where
  media := r.media.map Media.query
  selector := r.selector.text
  declarations := declarationText r.declarations

/-- Reads the selector and the declarations of a line that is not set in. -/
def readRule? (line : Text) : Option (Text × Text) := do
  let (before, after) ← Text.cut? '\x7b' line
  let selector ← Text.trimEnd? " " before
  let body ← Text.consume? " " after
  let declarations ← Text.trimEnd? " \x7d" body
  if line.head? = some ' ' then none else some (selector, declarations)

/-- Reads one line: the block that is open after it, and the rule of the line. -/
def readLine? (block : Option Text) (line : Text) : Option (Option Text × List Written) :=
  match block, Text.consume? "@media " line with
  -- a block is opened only outside of all blocks
  | none, some rest => (Text.trimEnd? " \x7b" rest).map fun query => (some query, [])
  | some _, some _ => none
  | none, none =>
    if line = "\x7d" then none
    else (readRule? line).map fun (selector, declarations) =>
      (none, [⟨none, selector, declarations⟩])
  | some query, none =>
    if line = "\x7d" then some (none, [])
    else ((Text.consume? "  " line).bind readRule?).map fun (selector, declarations) =>
      (some query, [⟨some query, selector, declarations⟩])

/-- Reads the lines after a block was opened, or outside of all blocks. -/
def readLines? (block : Option Text) : List Text → Option (List Written)
  | [] => if block = none then some [] else none
  | line :: lines => do
    let (block, rules) ← readLine? block line
    let others ← readLines? block lines
    some (rules ++ others)

/-- Reads a sheet, all lines of which are ended by a line feed. -/
def readSheet? (sheet : Text) : Option (List Written) :=
  let lines := Text.segments '\n' sheet
  if lines.getLast? = some [] then readLines? none lines.dropLast else none

/-! ### One line -/

/-- A rule whose line is read as its selector and its declarations. -/
structure Rule.Readable (r : Rule) : Prop where
  begins : r.selector.text.head? = some '.'
  selector : ∀ c ∈ r.selector.text, c ≠ '\n' ∧ c ≠ '\x7b'
  declarations : ∀ c ∈ declarationText r.declarations, c ≠ '\n'

/-- The line of a rule. -/
def Rule.line (r : Rule) : Text :=
  ruleText r.selector.text (declarationText r.declarations)

theorem Rule.Readable.head?_line {r : Rule} (h : r.Readable) : r.line.head? = some '.' := by
  obtain ⟨rest, hrest⟩ := List.head?_eq_some_iff.mp h.begins
  rw [line, ruleText, hrest]
  rfl

theorem consume?_eq_none_of_head? {c d : CodePoint} {head s : Text} (hs : s.head? = some d)
    (h : c ≠ d) : Text.consume? (c :: head) s = none := by
  obtain ⟨rest, rfl⟩ := List.head?_eq_some_iff.mp hs
  rw [Text.consume?, if_neg h]

theorem readRule?_line {r : Rule} (h : r.Readable) :
    readRule? r.line = some (r.selector.text, declarationText r.declarations) := by
  -- the first brace is the one after the selector
  have hcut : Text.cut? '\x7b' r.line =
      some (r.selector.text ++ " ", " " ++ (declarationText r.declarations ++ " \x7d")) := by
    refine Text.cut?_eq_some_iff.mpr ⟨fun hmem => ?_, ?_⟩
    · rcases List.mem_append.mp hmem with hmem | hmem
      · exact (h.selector _ hmem).2 rfl
      · exact absurd hmem (by decide)
    · simp only [Rule.line, ruleText, List.append_assoc]
      rfl
  simp only [readRule?, hcut, Option.bind_eq_bind, Option.bind_some, Text.trimEnd?_append]
  rw [Text.consume?_eq_some_iff.mpr rfl, Option.bind_some, Text.trimEnd?_append, Option.bind_some,
    h.head?_line]
  rfl

theorem readLine?_opening (query : Text) :
    readLine? none (Sheet.opening query) = some (some query, []) := by
  have hrest : Text.consume? "@media " (Sheet.opening query) = some (query ++ " \x7b") := by
    rw [Text.consume?_eq_some_iff, Sheet.opening, List.append_assoc]
  simp only [readLine?, hrest, Text.trimEnd?_append, Option.map_some]

theorem readLine?_closing (query : Text) :
    readLine? (some query) Sheet.closing = some (none, []) :=
  rfl

theorem readLine?_global {r : Rule} (h : r.Readable) (hmedia : r.media = none) :
    readLine? none r.line = some (none, [r.written]) := by
  have hopening : Text.consume? "@media " r.line = none :=
    consume?_eq_none_of_head? h.head?_line (by decide)
  have hclosing : r.line ≠ ↑"\x7d" := by
    intro heq
    have hhead := h.head?_line
    rw [heq] at hhead
    exact absurd hhead (by decide)
  simp only [readLine?, hopening, if_neg hclosing, readRule?_line h, Option.map_some, Rule.written,
    hmedia, Option.map_none]

theorem readLine?_indented {r : Rule} {m : Media} (h : r.Readable) (hmedia : r.media = some m) :
    readLine? (some m.query) (Sheet.indent r.line) = some (some m.query, [r.written]) := by
  have hopening : Text.consume? "@media " (Sheet.indent r.line) = none := rfl
  have hclosing : Sheet.indent r.line ≠ ↑"\x7d" := by
    intro heq
    have hhead : some (CodePoint.char ' ') = (Text.ofString "\x7d").head? := congrArg List.head? heq
    exact absurd hhead (by decide)
  have hrest : Text.consume? "  " (Sheet.indent r.line) = some r.line :=
    Text.consume?_eq_some_iff.mpr rfl
  simp only [readLine?, hopening, if_neg hclosing, hrest, Option.bind_some, readRule?_line h,
    Option.map_some, Rule.written, hmedia]

/-! ### Several lines -/

/-- Some lines are read as rules, and lead from one block to another. -/
def Reads (block : Option Text) (lines : List Text) (after : Option Text) (rules : List Written) :
    Prop :=
  ∀ rest, readLines? block (lines ++ rest) = (readLines? after rest).map (rules ++ ·)

theorem Reads.nil (block : Option Text) : Reads block [] block [] := by
  intro rest
  simp

theorem Reads.line {block after : Option Text} {line : Text} {rules : List Written}
    (h : readLine? block line = some (after, rules)) : Reads block [line] after rules := by
  intro rest
  rw [List.singleton_append, readLines?, h, Option.bind_eq_bind, Option.bind_some, Option.bind_eq_bind,
    Option.map_eq_bind]
  rfl

theorem Reads.append {block between after : Option Text} {lines lines' : List Text}
    {rules rules' : List Written} (h : Reads block lines between rules)
    (h' : Reads between lines' after rules') :
    Reads block (lines ++ lines') after (rules ++ rules') := by
  intro rest
  rw [List.append_assoc, h, h', Option.map_map]
  congr 1
  funext others
  exact (List.append_assoc ..).symm

/-- Lines that leave the block open are read one after the other. -/
theorem reads_map {α : Type} {block : Option Text} {items : List α} {line : α → Text}
    {written : α → Written} (h : ∀ a ∈ items, readLine? block (line a) = some (block, [written a])) :
    Reads block (items.map line) block (items.map written) := by
  induction items with
  | nil => exact .nil block
  | cons a items ih =>
    obtain ⟨ha, hitems⟩ := List.forall_mem_cons.mp h
    exact (Reads.line ha).append (ih hitems)

/-- Pieces that begin and end outside of all blocks are read one after the other. -/
theorem reads_flatMap {κ : Type} {keys : List κ} {lines : κ → List Text} {rules : κ → List Written}
    (h : ∀ k ∈ keys, Reads none (lines k) none (rules k)) :
    Reads none (keys.flatMap lines) none (keys.flatMap rules) := by
  induction keys with
  | nil => exact .nil none
  | cons k keys ih =>
    obtain ⟨hk, hkeys⟩ := List.forall_mem_cons.mp h
    rw [List.flatMap_cons, List.flatMap_cons]
    exact hk.append (ih hkeys)

/-- A block is read as its rules. -/
theorem reads_block {m : Media} {rules : List Rule}
    (h : ∀ r ∈ rules, r.Readable ∧ r.media = some m) :
    Reads none (Sheet.blockLines m.query (rules.map Rule.line)) none (rules.map Rule.written) := by
  have hbody : Reads (some m.query) (rules.map fun r => Sheet.indent r.line) (some m.query)
      (rules.map Rule.written) :=
    reads_map fun r hr => readLine?_indented (h r hr).1 (h r hr).2
  have hblock := ((Reads.line (readLine?_opening m.query)).append hbody).append
    (Reads.line (readLine?_closing m.query))
  rw [List.nil_append, List.append_nil] at hblock
  rw [Sheet.blockLines, List.map_map]
  exact hblock

theorem reads_globals {rules : List Rule} (h : ∀ r ∈ rules, r.Readable ∧ r.media = none) :
    Reads none (rules.map Rule.line) none (rules.map Rule.written) :=
  reads_map fun r hr => readLine?_global (h r hr).1 (h r hr).2

/-! ### Sheets -/

/-- The lines of a sheet: the rules without a query, then a block for each query. -/
def sheetLines (rules : List Rule) : List Text :=
  (rules.filter fun r => r.media = none).map Rule.line ++
    (keysOf Rule.media rules).flatMap fun m =>
      Sheet.blockLines m.query ((rules.filter fun r => r.media = some m).map Rule.line)

theorem Rule.sheet_eq (rules : List Rule) : Rule.sheet rules = Text.unlines (sheetLines rules) := by
  have hglobals : Sheet.globals (rules.map Rule.entry) =
      (rules.filter fun r => r.media = none).map Rule.line := by
    rw [Sheet.globals_eq, List.filter_map, List.map_map]
    rfl
  have hkeys : keysOf Sheet.Entry.media (rules.map Rule.entry) = keysOf Rule.media rules := by
    rw [keysOf, List.filterMap_map]
    rfl
  have htexts (m : Media) : Sheet.textsOf (rules.map Rule.entry) m =
      (rules.filter fun r => r.media = some m).map Rule.line := by
    rw [Sheet.textsOf, List.filter_map, List.map_map]
    rfl
  rw [Rule.sheet, Sheet.render_eq, hglobals, hkeys, sheetLines]
  simp only [htexts]

theorem reads_sheet {rules : List Rule} (h : ∀ r ∈ rules, r.Readable) :
    Reads none (sheetLines rules) none ((regroup Rule.media rules).map Rule.written) := by
  rw [regroup, List.map_append, List.map_flatMap]
  refine (reads_globals fun r hr => ?_).append (reads_flatMap fun m _ => reads_block fun r hr => ?_)
  · exact ⟨h r (List.mem_filter.mp hr).1, of_decide_eq_true (List.mem_filter.mp hr).2⟩
  · exact ⟨h r (List.mem_filter.mp hr).1, of_decide_eq_true (List.mem_filter.mp hr).2⟩

theorem Media.not_mem_query (m : Media) : .char '\n' ∉ m.query := by
  cases m with
  | prefersDark => decide
  | minWidth b =>
    intro hmem
    rcases List.mem_append.mp hmem with hmem | hmem
    · rcases List.mem_append.mp hmem with hmem | hmem
      · exact absurd hmem (by decide)
      · exact absurd (isDigit_of_mem_decimal hmem) (by decide)
    · exact absurd hmem (by decide)

theorem Rule.Readable.not_mem_line {r : Rule} (h : r.Readable) : .char '\n' ∉ r.line := by
  rw [Rule.line, ruleText, List.mem_append, List.mem_append, List.mem_append]
  rintro (((hmem | hmem) | hmem) | hmem)
  · exact (h.selector _ hmem).1 rfl
  · exact absurd hmem (by decide)
  · exact h.declarations _ hmem rfl
  · exact absurd hmem (by decide)

/-- No line of a sheet is broken. -/
theorem not_mem_sheetLines {rules : List Rule} (h : ∀ r ∈ rules, r.Readable) :
    ∀ line ∈ sheetLines rules, .char '\n' ∉ line := by
  intro line hline
  rcases List.mem_append.mp hline with hline | hline
  · obtain ⟨r, hr, rfl⟩ := List.mem_map.mp hline
    exact (h r (List.mem_filter.mp hr).1).not_mem_line
  · obtain ⟨m, -, hline⟩ := List.mem_flatMap.mp hline
    rcases List.mem_append.mp hline with hline | hline
    · rcases List.mem_cons.mp hline with rfl | hline
      · rw [Sheet.opening, List.mem_append, List.mem_append]
        rintro ((hmem | hmem) | hmem)
        · exact absurd hmem (by decide)
        · exact m.not_mem_query hmem
        · exact absurd hmem (by decide)
      · obtain ⟨text, htext, rfl⟩ := List.mem_map.mp hline
        obtain ⟨r, hr, rfl⟩ := List.mem_map.mp htext
        rw [Sheet.indent, List.mem_append]
        rintro (hmem | hmem)
        · exact absurd hmem (by decide)
        · exact (h r (List.mem_filter.mp hr).1).not_mem_line hmem
    · rw [List.mem_singleton.mp hline]
      decide

/-- Reading a sheet gives its rules, regrouped by media query. -/
theorem readSheet?_sheet {rules : List Rule} (h : ∀ r ∈ rules, r.Readable) :
    readSheet? (Rule.sheet rules) = some ((regroup Rule.media rules).map Rule.written) := by
  have hlines := reads_sheet h []
  rw [List.append_nil, readLines?, if_pos rfl, Option.map_some, List.append_nil] at hlines
  rw [readSheet?, Rule.sheet_eq, Text.segments_unlines (not_mem_sheetLines h)]
  simp [hlines]

end UtilityCss
