/-
What a command prints, and what is read from it.

* `IsPrintable` — texts that the output shows as they are;
* `Cli.print_eq_ok`, `Cli.printLines_eq_ok` — such texts are written without a change;
* `Cli.printLines_surrogate` — a line with a surrogate ends the output;
* `Text.words_unlines` — lines without blanks are the words of the text;
* `Cli.execute_compile`, `Cli.execute_extract`, `Cli.execute_build`, `Cli.execute_buildManifest`,
  `Cli.execute_compileStored` — how each command ends, and what it has written by then.
-/
import UtilityCss.Proofs.CheckExit
import UtilityCss.Proofs.DocumentOrder
import UtilityCss.Proofs.ManifestRoundTrip
import UtilityCss.Proofs.SheetAscii

namespace UtilityCss

/-! ### Printable texts -/

/-- A text without surrogates, which have no encoding, and without escape characters, which begin
the control sequences that are left out. -/
def IsPrintable (s : Text) : Prop :=
  ∀ c ∈ s, c.isSurrogate = false ∧ c ≠ '\x1b'

instance (s : Text) : Decidable (IsPrintable s) :=
  inferInstanceAs (Decidable (∀ c ∈ s, c.isSurrogate = false ∧ c ≠ '\x1b'))

theorem IsPrintable.append {s t : Text} (hs : IsPrintable s) (ht : IsPrintable t) :
    IsPrintable (s ++ t) :=
  List.forall_mem_append.mpr ⟨hs, ht⟩

/-- The characters of sheets and of written values are printable. -/
theorem isPrintable_of_forall {s : Text} (h : ∀ c ∈ s, Json.isWrittenChar c = true) :
    IsPrintable s := by
  refine fun c hc => ⟨Json.isSurrogate_of_isWrittenChar (h c hc), ?_⟩
  rintro rfl
  exact absurd (h _ hc) (by decide)

theorem isPrintable_compile (tokens : List Text) : IsPrintable (compile tokens) :=
  isPrintable_of_forall (forall_mem_compile tokens)

theorem pageSheet_false (tree : Json) :
    pageSheet tree false = compile (Tree.extract tree).tokens.items := by
  rw [pageSheet, if_neg Bool.false_ne_true, List.nil_append]

theorem pageSheet_true (tree : Json) : pageSheet tree true = baseline ++ pageSheet tree false := by
  rw [pageSheet_false, pageSheet, if_pos rfl]

theorem isPrintable_pageSheet (tree : Json) (withBaseline : Bool) :
    IsPrintable (pageSheet tree withBaseline) := by
  have hplain : IsPrintable (pageSheet tree false) := by
    rw [pageSheet_false]
    exact isPrintable_compile _
  cases withBaseline with
  | false => exact hplain
  | true =>
    rw [pageSheet_true]
    exact (isPrintable_of_forall forall_mem_baseline).append hplain

namespace Text

/-- A text without escape characters has no control sequences. -/
theorem stripControls_of_forall {s : Text} (h : ∀ c ∈ s, c ≠ '\x1b') : stripControls s = s := by
  induction s with
  | nil => rw [stripControls]
  | cons c s ih =>
    obtain ⟨hc, hs⟩ := List.forall_mem_cons.mp h
    rw [stripControls.eq_3 _ _ fun rest heq => absurd heq hc, ih hs]

end Text

namespace Cli

theorem print_eq_ok {text : Text} (h : IsPrintable text) (c : Console) :
    print text c = .ok { c with out := c.out ++ text } := by
  have hstrip : Text.stripControls text = text :=
    Text.stripControls_of_forall fun d hd => (h d hd).2
  have hnone : Text.unencodable? text = none :=
    Text.unencodable?_eq_none_iff.mpr fun d hd => (h d hd).1
  simp only [print, Console.print, hstrip, hnone]
  rfl

theorem printLines_eq_ok {lines : List Text} (h : ∀ line ∈ lines, IsPrintable line) (c : Console) :
    printLines lines c = .ok { c with out := c.out ++ Text.unlines lines } := by
  induction lines generalizing c with
  | nil =>
    rw [Text.unlines, List.flatMap_nil, List.append_nil]
    rfl
  | cons line lines ih =>
    obtain ⟨hline, hlines⟩ := List.forall_mem_cons.mp h
    have hbreak : IsPrintable (Text.ofString "\n") :=
      isPrintable_of_forall (Text.forall_mem_ofString rfl)
    rw [printLines, List.foldlM_cons, print_eq_ok (hline.append hbreak)]
    show printLines lines _ = _
    rw [ih hlines, Text.unlines, Text.unlines, List.flatMap_cons, List.append_assoc]

/-- A line with a surrogate ends the output before it. -/
theorem printLines_surrogate {line : Text} (lines : List Text) (hescape : ∀ c ∈ line, c ≠ '\x1b')
    (hsurrogate : ∃ c ∈ line, c.isSurrogate = true) (c : Console) :
    ∃ reason, printLines (line :: lines) c = .error (.aborted reason c) := by
  have hstrip : Text.stripControls (line ++ Text.ofString "\n") = line ++ Text.ofString "\n" :=
    Text.stripControls_of_forall (List.forall_mem_append.mpr ⟨hescape, by decide⟩)
  obtain ⟨d, hd, hdsurrogate⟩ := hsurrogate
  cases hsome : Text.unencodable? (line ++ Text.ofString "\n") with
  | none =>
    have hnot := Text.unencodable?_eq_none_iff.mp hsome d (List.mem_append_left _ hd)
    exact absurd (hnot.symm.trans hdsurrogate) (by simp)
  | some u =>
    refine ⟨.unencodable u, ?_⟩
    rw [printLines, List.foldlM_cons]
    simp only [print, Console.print, hstrip, hsome]
    rfl

end Cli

/-! ### Files of tokens -/

namespace Text

/-- Lines without blanks are the words of the text that they make. -/
theorem words_unlines {tokens : List Text}
    (h : ∀ token ∈ tokens, token ≠ [] ∧ ∀ c ∈ token, isBlank c = false) :
    words (unlines tokens) = tokens := by
  induction tokens with
  | nil => rfl
  | cons token tokens ih =>
    obtain ⟨⟨hne, hblank⟩, htokens⟩ := List.forall_mem_cons.mp h
    have hfirst : unlines (token :: tokens) = token ++ CodePoint.char '\n' :: unlines tokens := by
      rw [unlines, List.flatMap_cons, List.append_assoc]
      rfl
    rw [words, hfirst, segmentsBy_append _ hblank rfl, List.filter_cons_of_pos (by simpa using hne)]
    exact congrArg (token :: ·) (ih htokens)

/-- A text whose only blanks are line feeds has no carriage returns. -/
theorem unifyNewlines_unlines {tokens : List Text}
    (h : ∀ token ∈ tokens, ∀ c ∈ token, isBlank c = false) :
    unifyNewlines (unlines tokens) = unlines tokens := by
  refine unifyNewlines_of_forall fun c hc => ?_
  obtain ⟨token, htoken, hc⟩ := List.mem_flatMap.mp hc
  rintro rfl
  rcases List.mem_append.mp hc with hc | hc
  · exact absurd (h token htoken _ hc) (by decide)
  · exact absurd (List.mem_singleton.mp hc) (by decide)

end Text

namespace Cli

/-- A file with a token on each line gives these tokens. -/
theorem gatherTokens_unlines {disk : Disk} {path : Text} {tokens : List Text}
    (hfile : disk.entry path = .file (some (Text.unlines tokens)))
    (h : ∀ token ∈ tokens, token ≠ [] ∧ ∀ c ∈ token, Text.isBlank c = false) :
    gatherTokens disk [] (some path) = .ok tokens := by
  have hread : readText disk path = .ok (Text.unlines tokens) := by
    rw [readText, hfile]
    exact congrArg Except.ok (Text.unifyNewlines_unlines fun token htoken => (h token htoken).2)
  rw [gatherTokens, hread]
  exact congrArg Except.ok (Text.words_unlines h)

/-- A file that holds a plain manifest gives this manifest. -/
theorem loadManifest_save {disk : Disk} {path : Text} {m : Manifest} (hm : m.IsPlain)
    (hfile : disk.entry path = .file (some m.save)) : loadManifest disk path = .ok m := by
  have hread : readText disk path = .ok m.save := by
    rw [readText, hfile]
    exact congrArg Except.ok (Text.unifyNewlines_of_forall m.ne_return_of_mem_save)
  rw [loadManifest, hread]
  simp only [Except.bind, hm.load_eq_ok]

/-! ### Commands -/

theorem execute_compile {disk : Disk} {tokens gathered : List Text} {file : Option Text}
    (h : gatherTokens disk tokens file = .ok gathered) (now : Text) (level : LogLevel) :
    ∃ err, execute disk now level (.compile tokens file none) =
      .ok (.exit 0 ⟨compile gathered, err⟩ []) := by
  rw [execute, h]
  show ∃ err, (print (compile gathered) _).bind _ = _
  rw [print_eq_ok (isPrintable_compile gathered)]
  exact ⟨_, rfl⟩

theorem execute_compileStored {disk : Disk} {tokens gathered : List Text} {file : Option Text}
    {path css : Text} {m : Manifest} (h : gatherTokens disk tokens file = .ok gathered)
    (hm : loadManifest disk path = .ok m) (hcss : m.cssFor gathered = .ok css)
    (hprint : IsPrintable css) (now : Text) (level : LogLevel) :
    execute disk now level (.compile tokens file (some path)) = .ok (.exit 0 ⟨css, []⟩ []) := by
  rw [execute, h]
  show (loadManifest disk path).bind _ = _
  rw [hm]
  simp only [Except.bind, hcss]
  rw [print_eq_ok hprint]
  rfl

theorem execute_extract {disk : Disk} {path : Text} {tree : Json}
    (h : loadTree disk path = .ok tree) (hprint : ∀ token ∈ Tree.tokens tree, IsPrintable token)
    (now : Text) (level : LogLevel) :
    ∃ err, execute disk now level (.extract path) =
      .ok (.exit 0 ⟨Text.unlines (Tree.extract tree).tokens.items, err⟩ []) := by
  have hitems : ∀ token ∈ (Tree.extract tree).tokens.items, IsPrintable token := by
    rw [Tree.items_extract]
    exact fun token htoken => hprint token (List.mem_eraseDups.mp htoken)
  rw [execute, h]
  show ∃ err, (printLines (Tree.extract tree).tokens.items _).bind _ = _
  rw [printLines_eq_ok hitems]
  exact ⟨_, rfl⟩

/-- A first token with a surrogate ends the output before anything is printed. -/
theorem execute_extract_surrogate {disk : Disk} {path token : Text} {tokens : List Text}
    {tree : Json} (h : loadTree disk path = .ok tree)
    (hitems : (Tree.extract tree).tokens.items = token :: tokens)
    (hescape : ∀ c ∈ token, c ≠ '\x1b') (hsurrogate : ∃ c ∈ token, c.isSurrogate = true)
    (now : Text) (level : LogLevel) :
    ∃ reason err, execute disk now level (.extract path) = .error (.aborted reason ⟨[], err⟩) := by
  obtain ⟨reason, hprint⟩ := printLines_surrogate tokens hescape hsurrogate
    (Console.empty.log level (extractLog (Tree.extract tree)))
  rw [execute, h]
  show ∃ reason err, (printLines (Tree.extract tree).tokens.items _).bind _ = _
  rw [hitems, hprint]
  exact ⟨reason, _, rfl⟩

theorem execute_build {disk : Disk} {path : Text} {tree : Json}
    (h : loadTree disk path = .ok tree) (now : Text) (level : LogLevel) (withBaseline : Bool)
    (version : Text) :
    ∃ err, execute disk now level (.build path withBaseline none version) =
      .ok (.exit 0 ⟨pageSheet tree withBaseline, err⟩ []) := by
  rw [execute, h]
  show ∃ err, (print (pageSheet tree withBaseline) _).bind _ = _
  rw [print_eq_ok (isPrintable_pageSheet tree withBaseline)]
  exact ⟨_, rfl⟩

/-- The manifest is written after the sheet, and what is logged about it goes elsewhere. -/
theorem execute_buildManifest {disk : Disk} {path target : Text} {tree : Json}
    (h : loadTree disk path = .ok tree) (htarget : target ≠ [])
    (hrefusal : disk.refusal? target = none) (now : Text) (level : LogLevel) (withBaseline : Bool)
    (version : Text) :
    ∃ err, execute disk now level (.build path withBaseline (some target) version) =
      .ok (.exit 0 ⟨pageSheet tree withBaseline, err⟩
        [(target, (Manifest.build (Tree.extract tree).tokens.items (.text version) now).save)]) := by
  obtain ⟨c, target, rfl⟩ := List.exists_cons_of_ne_nil htarget
  rw [execute, h]
  show ∃ err, (print (pageSheet tree withBaseline) _).bind _ = _
  rw [print_eq_ok (isPrintable_pageSheet tree withBaseline)]
  simp only [Except.bind, hrefusal]
  exact ⟨_, rfl⟩

end Cli

end UtilityCss
