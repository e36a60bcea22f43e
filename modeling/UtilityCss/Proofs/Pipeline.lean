/-
Four ways from a page tree to its sheet.

The sheet of a page is written by `build`.  It can also be compiled from the tokens that `extract`
lists, or served from the manifest that `build` stores.

* `Cli.Pipeline` — a page tree, and the files that the commands about it write and read;
* `Cli.Pipeline.IsReady`, `Cli.Pipeline.IsSetUp` — the files are where the commands look for them;
* `Cli.Pipeline.Agrees` — all commands succeed, and their outputs agree;
* `Cli.Pipeline.agreement` — so it is if the tokens of the tree can be printed;
* `Cli.Pipeline.surrogate_disagrees` — a token with a surrogate cannot.
-/
import UtilityCss.Cli.Clock
import UtilityCss.Proofs.FreeForms
import UtilityCss.Proofs.Printing

namespace UtilityCss

namespace Cli

/-! ### Points of time -/

theorem isEncodable_padded (width n : Nat) : IsEncodable (padded width n) := by
  refine IsEncodable.append (fun c hc => ?_) (isEncodable_decimal n)
  rw [List.eq_of_mem_replicate hc]
  rfl

theorem isEncodable_timestamp (microseconds : Nat) : IsEncodable (timestamp microseconds) := by
  have hjoin {sep : String} {a b c : Text} (ha : IsEncodable a) (hb : IsEncodable b)
      (hc : IsEncodable c) : IsEncodable (Text.join sep [a, b, c]) :=
    isEncodable_join (isEncodable_ofString sep) (by simp [ha, hb, hc])
  rw [timestamp]
  refine (((?_ : IsEncodable _).append (isEncodable_ofString _)).append ?_).append ?_ |>.append
    (isEncodable_ofString _)
  · exact hjoin (isEncodable_padded _ _) (isEncodable_padded _ _) (isEncodable_padded _ _)
  · exact hjoin (isEncodable_padded _ _) (isEncodable_padded _ _) (isEncodable_padded _ _)
  · split
    · exact isEncodable_ofString _
    · exact List.forall_mem_cons.mpr ⟨rfl, isEncodable_padded _ _⟩

/-! ### Command lines -/

theorem scan?_argument {spec : OptionSpec} {argument : Text} (rest : List Text)
    (h : isOption argument = false) :
    scan? spec true (argument :: rest) = (scan? spec true rest).map (.addArgument argument) := by
  have hend : argument ≠ "--" := by
    rintro rfl
    exact absurd h (by decide)
  rw [scan?, if_neg hend, if_neg (by simp [h]), if_pos rfl]

theorem parse?_extract {treeFile : Text} (h : isOption treeFile = false) :
    Invocation.parse? [↑"extract", treeFile] =
      some (.run .warning ⟨[⟨.read, treeFile⟩], some (.extract treeFile)⟩) := by
  show (Request.extract? [treeFile]).map (Invocation.run .warning) = _
  rw [Request.extract?, scan?_argument _ h]
  rfl

theorem parse?_build {treeFile : Text} (h : isOption treeFile = false) :
    Invocation.parse? [↑"build", treeFile] =
      some (.run .warning ⟨[⟨.read, treeFile⟩],
        some (.build treeFile true none Manifest.defaultVersion)⟩) := by
  show (Request.build? [treeFile]).map (Invocation.run .warning) = _
  rw [Request.build?, scan?_argument _ h]
  rfl

theorem parse?_buildPlain {treeFile : Text} (h : isOption treeFile = false) :
    Invocation.parse? [↑"build", ↑"--no-critical", treeFile] =
      some (.run .warning ⟨[⟨.read, treeFile⟩],
        some (.build treeFile false none Manifest.defaultVersion)⟩) := by
  show (Request.build? [↑"--no-critical", treeFile]).map (Invocation.run .warning) = _
  rw [Request.build?]
  show ((((scan? _ true [treeFile]).map (Scanned.addOption "--no-critical" [])).bind _).map _) = _
  rw [scan?_argument _ h]
  rfl

theorem parse?_buildManifest {treeFile : Text} (manifestFile : Text)
    (h : isOption treeFile = false) :
    Invocation.parse? [↑"build", treeFile, ↑"--manifest", manifestFile] =
      some (.run .warning ⟨[⟨.write, manifestFile⟩, ⟨.read, treeFile⟩],
        some (.build treeFile true (some manifestFile) Manifest.defaultVersion)⟩) := by
  show (Request.build? [treeFile, ↑"--manifest", manifestFile]).map (Invocation.run .warning) = _
  rw [Request.build?, scan?_argument _ h]
  rfl

theorem parse?_compile (tokenFile : Text) :
    Invocation.parse? [↑"compile", ↑"--file", tokenFile] =
      some (.run .warning ⟨[⟨.read, tokenFile⟩], some (.compile [] (some tokenFile) none)⟩) :=
  rfl

theorem parse?_compileStored (manifestFile tokenFile : Text) :
    Invocation.parse? [↑"compile", ↑"--manifest", manifestFile, ↑"--file", tokenFile] =
      some (.run .warning ⟨[⟨.read, manifestFile⟩, ⟨.read, tokenFile⟩],
        some (.compile [] (some tokenFile) (some manifestFile))⟩) :=
  rfl

/-! ### Paths -/

theorem checkPath_ok {disk : Disk} {use : PathUse} {path : Text}
    (hnull : Path.holdsNull path = false) (hfits : use.fits (disk.entry path) = true) :
    checkPath disk ⟨use, path⟩ = .ok () := by
  rw [checkPath, if_neg (by simp [hnull]), if_pos hfits]

theorem forM_checkPath {disk : Disk} {paths : List PathArgument}
    (h : ∀ q ∈ paths, checkPath disk q = .ok ()) : paths.forM (checkPath disk) = .ok () := by
  induction paths with
  | nil => rfl
  | cons q paths ih =>
    obtain ⟨hq, hpaths⟩ := List.forall_mem_cons.mp h
    show (checkPath disk q).bind (fun _ => paths.forM (checkPath disk)) = _
    rw [hq]
    exact ih hpaths

/-- A command line whose paths are in order ends as its command does. -/
theorem run_eq_of_execute {disk : Disk} {now : Text} {arguments : List Text} {level : LogLevel}
    {paths : List PathArgument} {command : Command} {outcome : Outcome}
    (hparse : Invocation.parse? arguments = some (.run level ⟨paths, some command⟩))
    (hpaths : ∀ q ∈ paths, checkPath disk q = .ok ())
    (h : execute disk now level command = .ok outcome) : run disk now arguments = outcome := by
  rw [run_eq_execute hparse rfl (forM_checkPath hpaths), h]
  rfl

/-- A tree that has been read is in a file. -/
theorem exists_entry_of_loadTree {disk : Disk} {path : Text} {tree : Json}
    (h : loadTree disk path = .ok tree) : ∃ content, disk.entry path = .file (some content) := by
  rw [loadTree, readText] at h
  split at h
  · exact ⟨_, ‹_›⟩
  · exact absurd h (by simp [Except.bind])
  · exact absurd h (by simp [Except.bind])

/-! ### Outcomes -/

/-- What a run writes to the output. -/
def Outcome.stdout : Outcome → Text
  | usageError => []
  | exit _ console _ => console.out
  | aborted _ console => console.out

/-- The files that a run writes. -/
def Outcome.files : Outcome → List (Text × Text)
  | exit _ _ files => files
  | _ => []

@[simp] theorem Outcome.exitCode_exit (code : Nat) (c : Console) (files : List (Text × Text)) :
    (Outcome.exit code c files).exitCode = code :=
  rfl

@[simp] theorem Outcome.stdout_exit (code : Nat) (c : Console) (files : List (Text × Text)) :
    (Outcome.exit code c files).stdout = c.out :=
  rfl

@[simp] theorem Outcome.stdout_aborted (reason : Abort) (c : Console) :
    (Outcome.aborted reason c).stdout = c.out :=
  rfl

@[simp] theorem Outcome.files_exit (code : Nat) (c : Console) (files : List (Text × Text)) :
    (Outcome.exit code c files).files = files :=
  rfl

/-! ### Trees that cannot be read -/

theorem stdout_of_loadTree_error {disk : Disk} {path : Text} {outcome : Outcome}
    (h : loadTree disk path = .error outcome) : outcome.stdout = [] := by
  rw [loadTree] at h
  cases hread : readText disk path with
  | error e =>
    rw [hread] at h
    obtain rfl := Except.error.inj h
    rw [readText] at hread
    split at hread
    · exact absurd hread (by simp)
    · obtain rfl := Except.error.inj hread
      rfl
    · obtain rfl := Except.error.inj hread
      rfl
  | ok text =>
    rw [hread] at h
    simp only [Except.bind] at h
    split at h
    · exact absurd h (by simp)
    · obtain rfl := Except.error.inj h
      rfl
    · obtain rfl := Except.error.inj h
      rfl

/-- A path that does not lead to a file is noticed before the command, with the same end. -/
theorem run_eq_of_loadTree_error {disk : Disk} {now path : Text} {arguments : List Text}
    {level : LogLevel} {command : Command} {outcome : Outcome}
    (hparse : Invocation.parse? arguments = some (.run level ⟨[⟨.read, path⟩], some command⟩))
    (hnull : Path.holdsNull path = false) (hload : loadTree disk path = .error outcome)
    (h : execute disk now level command = .error outcome) : run disk now arguments = outcome := by
  by_cases hfile : (disk.entry path).isFile = true
  · rw [run_eq_execute hparse rfl
      (forM_checkPath (List.forall_mem_singleton.mpr (checkPath_ok hnull hfile))), h]
    rfl
  · have husage : outcome = .usageError := by
      rw [loadTree, readText] at hload
      cases hentry : disk.entry path with
      | file content => exact absurd (by rw [hentry]; rfl) hfile
      | missing =>
        rw [hentry] at hload
        exact (Except.error.inj hload).symm
      | folder =>
        rw [hentry] at hload
        exact (Except.error.inj hload).symm
    have hcheck : checkPath disk ⟨.read, path⟩ = .error .usageError := by
      rw [checkPath, if_neg (by simp [hnull])]
      exact if_neg hfile
    rw [run, hparse, husage]
    show (serve disk now level _).outcome = _
    rw [serve]
    show Run.outcome ((checkPath disk ⟨.read, path⟩).bind _ |>.bind _) = _
    rw [hcheck]
    rfl

/-! ### Pipelines -/

/-- A page tree, and the files that the commands about it write and read. -/
structure Pipeline where
  /-- The disk with the page tree. -/
  first : Disk
  /-- The disk with the file of tokens and the manifest. -/
  second : Disk
  treeFile : Text
  tree : Json
  tokenFile : Text
  manifestFile : Text
  /-- The time of the commands on the first disk, in microseconds. -/
  microseconds : Nat
  /-- The time of those on the second one. -/
  later : Nat

namespace Pipeline

variable (p : Pipeline)

/-- A command line on the disk with the page tree. -/
def runFirst (arguments : List Text) : Outcome :=
  run p.first (timestamp p.microseconds) arguments

/-- A command line on the disk with the file of tokens and the manifest. -/
def runSecond (arguments : List Text) : Outcome :=
  run p.second (timestamp p.later) arguments

/-- The tokens of the tree. -/
def extract : Outcome :=
  p.runFirst ["extract", p.treeFile]

/-- The sheet of the tree after the baseline. -/
def build : Outcome :=
  p.runFirst ["build", p.treeFile]

/-- The sheet of the tree. -/
def buildPlain : Outcome :=
  p.runFirst ["build", "--no-critical", p.treeFile]

/-- The sheet of the tree after the baseline, and a manifest. -/
def buildManifest : Outcome :=
  p.runFirst ["build", p.treeFile, "--manifest", p.manifestFile]

/-- The sheet of the tokens in the file. -/
def compile : Outcome :=
  p.runSecond ["compile", "--file", p.tokenFile]

/-- The sheet of the tokens in the file, served from the manifest. -/
def compileStored : Outcome :=
  p.runSecond ["compile", "--manifest", p.manifestFile, "--file", p.tokenFile]

/-- The tree can be read, and the manifest can be written. -/
structure IsReady : Prop where
  tree : loadTree p.first p.treeFile = .ok p.tree
  argument : isOption p.treeFile = false
  names : ∀ path ∈ [p.treeFile, p.tokenFile, p.manifestFile], Path.holdsNull path = false
  target : p.manifestFile ≠ [] ∧ p.first.entry p.manifestFile ≠ .folder
  writable : p.first.refusal? p.manifestFile = none

/-- The second disk holds the output of `extract`, and the manifest that `build` has written. -/
structure IsSetUp : Prop extends p.IsReady where
  tokenFile : p.second.entry p.tokenFile = .file (some p.extract.stdout)
  manifestFile : ∀ file ∈ p.buildManifest.files, p.second.entry file.1 = .file (some file.2)

/-- All commands succeed, the file of tokens is read as the tokens that the walk through the tree
has found, and the sheet is the same on all ways. -/
structure Agrees : Prop where
  succeeds : ∀ outcome ∈ [p.extract, p.build, p.buildPlain, p.buildManifest, p.compile,
    p.compileStored], outcome.exitCode = 0
  stores : ∃ text, p.buildManifest.files = [(p.manifestFile, text)]
  gathers : gatherTokens p.second [] (some p.tokenFile) = .ok (Tree.extract p.tree).tokens.items
  compiles : p.compile.stdout = p.buildPlain.stdout
  serves : p.compileStored.stdout = p.buildPlain.stdout
  builds : p.build.stdout = baseline ++ p.buildPlain.stdout

/-- The manifest that is stored. -/
def manifest : Manifest :=
  .build (Tree.extract p.tree).tokens.items (.text Manifest.defaultVersion)
    (timestamp p.microseconds)

theorem isPlain_manifest : p.manifest.IsPlain :=
  Manifest.isPlain_build _ (Text.isJoined_of_forall (isEncodable_ofString _))
    (Text.isJoined_of_forall (isEncodable_timestamp _))

variable {p}

/-! ### The first disk -/

namespace IsReady

theorem checkPath_treeFile (h : p.IsReady) : checkPath p.first ⟨.read, p.treeFile⟩ = .ok () := by
  obtain ⟨content, hcontent⟩ := exists_entry_of_loadTree h.tree
  refine checkPath_ok (h.names _ (by simp)) ?_
  rw [hcontent]
  rfl

theorem checkPath_target (h : p.IsReady) :
    checkPath p.first ⟨.write, p.manifestFile⟩ = .ok () :=
  checkPath_ok (h.names _ (by simp)) (decide_eq_true h.target.2)

theorem extract_eq (h : p.IsReady) (hprint : ∀ token ∈ Tree.tokens p.tree, IsPrintable token) :
    ∃ err, p.extract =
      .exit 0 ⟨Text.unlines (Tree.extract p.tree).tokens.items, err⟩ [] := by
  obtain ⟨err, herr⟩ := execute_extract h.tree hprint (timestamp p.microseconds) .warning
  exact ⟨err, run_eq_of_execute (parse?_extract h.argument)
    (List.forall_mem_singleton.mpr h.checkPath_treeFile) herr⟩

theorem stdout_extract_surrogate (h : p.IsReady) {token : Text} {tokens : List Text}
    (hitems : (Tree.extract p.tree).tokens.items = token :: tokens)
    (hescape : ∀ c ∈ token, c ≠ '\x1b') (hsurrogate : ∃ c ∈ token, c.isSurrogate = true) :
    p.extract.stdout = [] := by
  obtain ⟨reason, err, herr⟩ := execute_extract_surrogate h.tree hitems hescape hsurrogate
    (timestamp p.microseconds) .warning
  have hextract : p.extract = .aborted reason ⟨[], err⟩ :=
    (run_eq_execute (parse?_extract h.argument) rfl
      (forM_checkPath (List.forall_mem_singleton.mpr h.checkPath_treeFile)) _).trans
        (congrArg Run.outcome herr)
  rw [hextract, Outcome.stdout_aborted]

theorem build_eq (h : p.IsReady) :
    ∃ err, p.build = .exit 0 ⟨pageSheet p.tree true, err⟩ [] := by
  obtain ⟨err, herr⟩ := execute_build h.tree (timestamp p.microseconds) .warning true
    Manifest.defaultVersion
  exact ⟨err, run_eq_of_execute (parse?_build h.argument)
    (List.forall_mem_singleton.mpr h.checkPath_treeFile) herr⟩

theorem buildPlain_eq (h : p.IsReady) :
    ∃ err, p.buildPlain = .exit 0 ⟨pageSheet p.tree false, err⟩ [] := by
  obtain ⟨err, herr⟩ := execute_build h.tree (timestamp p.microseconds) .warning false
    Manifest.defaultVersion
  exact ⟨err, run_eq_of_execute (parse?_buildPlain h.argument)
    (List.forall_mem_singleton.mpr h.checkPath_treeFile) herr⟩

theorem buildManifest_eq (h : p.IsReady) :
    ∃ err, p.buildManifest = .exit 0 ⟨pageSheet p.tree true, err⟩
      [(p.manifestFile, p.manifest.save)] := by
  obtain ⟨err, herr⟩ := execute_buildManifest h.tree h.target.1 h.writable
    (timestamp p.microseconds) .warning true Manifest.defaultVersion
  exact ⟨err, run_eq_of_execute (parse?_buildManifest p.manifestFile h.argument)
    (List.forall_mem_cons.mpr ⟨h.checkPath_target,
      List.forall_mem_singleton.mpr h.checkPath_treeFile⟩) herr⟩

end IsReady

/-! ### The second disk -/

namespace IsSetUp

theorem checkPath_tokenFile (h : p.IsSetUp) : checkPath p.second ⟨.read, p.tokenFile⟩ = .ok () :=
  checkPath_ok (h.names _ (by simp)) (by rw [h.tokenFile]; rfl)

theorem entry_manifestFile (h : p.IsSetUp) :
    p.second.entry p.manifestFile = .file (some p.manifest.save) := by
  obtain ⟨err, hbuild⟩ := h.buildManifest_eq
  refine h.manifestFile (p.manifestFile, p.manifest.save) ?_
  rw [hbuild, Outcome.files_exit]
  exact List.mem_singleton_self _

theorem checkPath_manifestFile (h : p.IsSetUp) :
    checkPath p.second ⟨.read, p.manifestFile⟩ = .ok () :=
  checkPath_ok (h.names _ (by simp)) (by rw [h.entry_manifestFile]; rfl)

/-- The file of tokens has one token on each line. -/
theorem gatherTokens_eq (h : p.IsSetUp)
    (hprint : ∀ token ∈ Tree.tokens p.tree, IsPrintable token) :
    gatherTokens p.second [] (some p.tokenFile) = .ok (Tree.extract p.tree).tokens.items := by
  obtain ⟨err, hextract⟩ := h.extract_eq hprint
  refine gatherTokens_unlines ?_ fun token htoken => ?_
  · rw [h.tokenFile, hextract, Outcome.stdout_exit]
  · rw [Tree.items_extract, List.mem_eraseDups] at htoken
    obtain ⟨s, hword⟩ := Tree.exists_mem_words htoken
    exact Text.not_isBlank_of_mem_words hword

theorem loadManifest_eq (h : p.IsSetUp) :
    loadManifest p.second p.manifestFile = .ok p.manifest :=
  loadManifest_save p.isPlain_manifest h.entry_manifestFile

theorem compile_eq (h : p.IsSetUp) (hprint : ∀ token ∈ Tree.tokens p.tree, IsPrintable token) :
    ∃ err, p.compile = .exit 0 ⟨pageSheet p.tree false, err⟩ [] := by
  rw [pageSheet_false]
  obtain ⟨err, herr⟩ := execute_compile (h.gatherTokens_eq hprint) (timestamp p.later) .warning
  exact ⟨err, run_eq_of_execute (parse?_compile p.tokenFile)
    (List.forall_mem_singleton.mpr h.checkPath_tokenFile) herr⟩

/-- Where nothing was printed, nothing is compiled. -/
theorem stdout_compile_nil (h : p.IsSetUp) (hextract : p.extract.stdout = []) :
    p.compile.stdout = [] := by
  have hgather : gatherTokens p.second [] (some p.tokenFile) = .ok [] :=
    gatherTokens_unlines (by rw [h.tokenFile, hextract]; rfl) (List.forall_mem_nil _)
  obtain ⟨err, herr⟩ := execute_compile hgather (timestamp p.later) .warning
  have hcompile : p.compile = .exit 0 ⟨UtilityCss.compile [], err⟩ [] :=
    run_eq_of_execute (parse?_compile p.tokenFile)
      (List.forall_mem_singleton.mpr h.checkPath_tokenFile) herr
  rw [hcompile, Outcome.stdout_exit]
  rfl

theorem compileStored_eq (h : p.IsSetUp)
    (hprint : ∀ token ∈ Tree.tokens p.tree, IsPrintable token) :
    p.compileStored = .exit 0 ⟨pageSheet p.tree false, []⟩ [] := by
  have hcss : p.manifest.cssFor (Tree.extract p.tree).tokens.items =
      .ok (pageSheet p.tree false) := by
    -- every token that is asked for is one that the manifest was built for
    rw [manifest, Manifest.cssFor_build_eq, List.filter_eq_self.mpr fun _ h => decide_eq_true h,
      pageSheet_false]
  exact run_eq_of_execute (parse?_compileStored p.manifestFile p.tokenFile)
    (List.forall_mem_cons.mpr ⟨h.checkPath_manifestFile,
      List.forall_mem_singleton.mpr h.checkPath_tokenFile⟩)
    (execute_compileStored (h.gatherTokens_eq hprint) h.loadManifest_eq hcss
      (isPrintable_pageSheet p.tree false) (timestamp p.later) .warning)

theorem agrees (h : p.IsSetUp) (hprint : ∀ token ∈ Tree.tokens p.tree, IsPrintable token) :
    p.Agrees := by
  obtain ⟨_, hextract⟩ := h.extract_eq hprint
  obtain ⟨_, hbuild⟩ := h.build_eq
  obtain ⟨_, hplain⟩ := h.buildPlain_eq
  obtain ⟨_, hmanifest⟩ := h.buildManifest_eq
  obtain ⟨_, hcompile⟩ := h.compile_eq hprint
  have hstored := h.compileStored_eq hprint
  refine ⟨?_, ⟨p.manifest.save, ?_⟩, h.gatherTokens_eq hprint, ?_, ?_, ?_⟩
  · simp [hextract, hbuild, hplain, hmanifest, hcompile, hstored]
  · rw [hmanifest, Outcome.files_exit]
  · rw [hcompile, hplain, Outcome.stdout_exit, Outcome.stdout_exit]
  · rw [hstored, hplain, Outcome.stdout_exit, Outcome.stdout_exit]
  · rw [hbuild, hplain, Outcome.stdout_exit, Outcome.stdout_exit, pageSheet_true]

end IsSetUp

/-! ### Agreement -/

/-- All ways from a page tree to its sheet agree, if its tokens have neither surrogates nor escape
characters.  Where the tree cannot be read, the commands about it end alike, with nothing
printed. -/
theorem agreement :
    (∀ p : Pipeline, p.IsSetUp → (∀ token ∈ Tree.tokens p.tree, IsPrintable token) → p.Agrees) ∧
    ∀ (p : Pipeline) (outcome : Outcome), isOption p.treeFile = false →
      Path.holdsNull p.treeFile = false → loadTree p.first p.treeFile = .error outcome →
      p.extract = outcome ∧ p.build = outcome ∧ p.buildPlain = outcome ∧ outcome.stdout = [] := by
  refine ⟨fun p h hprint => h.agrees hprint, fun p outcome hargument hnull hload => ?_⟩
  refine ⟨?_, ?_, ?_, stdout_of_loadTree_error hload⟩
  · exact run_eq_of_loadTree_error (parse?_extract hargument) hnull hload (by rw [execute, hload]; rfl)
  · exact run_eq_of_loadTree_error (parse?_build hargument) hnull hload (by rw [execute, hload]; rfl)
  · exact run_eq_of_loadTree_error (parse?_buildPlain hargument) hnull hload
      (by rw [execute, hload]; rfl)

/-! ### Pipelines in memory -/

/-- A disk with nothing but the file of a tree. -/
def treeDisk (tree : Json) : Disk :=
  .ofFiles [("t.json", some tree.indented)]

/-- The pipeline of a tree in a file, at the beginning of all time. -/
def ofTree (tree : Json) : Pipeline where
  first := treeDisk tree
  second := .ofFiles
    [("t.json", some tree.indented),
     ("tokens.txt", some (run (treeDisk tree) (timestamp 0) ["extract", "t.json"]).stdout),
     ("m.json", some (Manifest.build (Tree.extract tree).tokens.items
       (.text Manifest.defaultVersion) (timestamp 0)).save)]
  treeFile := "t.json"
  tree := tree
  tokenFile := "tokens.txt"
  manifestFile := "m.json"
  microseconds := 0
  later := 0

theorem isReady_ofTree {tree : Json} (h : Json.Restorable Json.maxDepth tree) :
    (ofTree tree).IsReady where
  tree := by
    have hread : readText (treeDisk tree) "t.json" = .ok tree.indented := by
      show Except.ok (Text.unifyNewlines tree.indented) = _
      rw [Text.unifyNewlines_of_forall fun c hc => Json.ne_return_of_mem_indented hc]
    show loadTree (treeDisk tree) "t.json" = .ok tree
    rw [loadTree, hread]
    simp only [Except.bind, Json.parse_indented h]
  argument := by
    show isOption "t.json" = false
    decide
  names := by
    show ∀ path ∈ [Text.ofString "t.json", ↑"tokens.txt", ↑"m.json"], Path.holdsNull path = false
    decide
  target := by
    have hname : Text.ofString "m.json" ≠ [] := by decide
    have hentry : (treeDisk tree).entry "m.json" = .missing := rfl
    refine ⟨hname, ?_⟩
    show (treeDisk tree).entry "m.json" ≠ .folder
    rw [hentry]
    exact Entry.noConfusion
  writable := rfl

theorem isSetUp_ofTree {tree : Json} (h : Json.Restorable Json.maxDepth tree) :
    (ofTree tree).IsSetUp where
  toIsReady := isReady_ofTree h
  tokenFile := rfl
  manifestFile := by
    obtain ⟨_, hbuild⟩ := (isReady_ofTree h).buildManifest_eq
    rw [hbuild]
    exact List.forall_mem_singleton.mpr rfl

theorem restorable_element {depth : Nat} {classes : Text} {below : List Json}
    (hclasses : classes.IsJoined) (hbelow : ∀ child ∈ below, Json.Restorable depth child) :
    Json.Restorable (depth + 2) (Tree.element classes below) := by
  have hnames : ∀ name ∈ [Text.ofString "props", ↑"children", ↑"className", ↑"class"],
      name.IsJoined := by
    simp only [List.forall_mem_cons]
    exact ⟨Text.isJoined_of_forall (isEncodable_ofString _),
      Text.isJoined_of_forall (isEncodable_ofString _),
      Text.isJoined_of_forall (isEncodable_ofString _),
      Text.isJoined_of_forall (isEncodable_ofString _), List.forall_mem_nil _⟩
  simp only [List.forall_mem_cons] at hnames
  obtain ⟨hprops, hchildren, hclassName, hclass, -⟩ := hnames
  have hempty : Json.Restorable depth (.text "") :=
    .scalar (Text.isJoined_of_forall (isEncodable_ofString ""))
  have houter : [Text.ofString "props", ↑"children"].Nodup := by decide
  have hinner : [Text.ofString "className", ↑"class"].Nodup := by decide
  refine .object ?_ houter ?_
  · exact List.forall_mem_cons.mpr ⟨hprops, List.forall_mem_singleton.mpr hchildren⟩
  · refine List.forall_mem_cons.mpr ⟨.object ?_ hinner ?_,
      List.forall_mem_singleton.mpr (.array hbelow)⟩
    · exact List.forall_mem_cons.mpr ⟨hclassName, List.forall_mem_singleton.mpr hclass⟩
    · exact List.forall_mem_cons.mpr ⟨hempty, List.forall_mem_singleton.mpr (.scalar hclasses)⟩

/-- Two elements; one token comes twice, and one stands for no rule. -/
def page : Json :=
  Tree.element "md:p-4 flex" [Tree.element "flex é" []]

theorem tokens_page : Tree.tokens page = [↑"md:p-4", ↑"flex", ↑"flex", ↑"é"] := by
  simp only [page, Tree.tokens_element, List.flatMap_cons, List.flatMap_nil, List.append_nil]
  decide +kernel

theorem agreement_page :
    (ofTree page).IsSetUp ∧ (ofTree page).Agrees ∧
      (Tree.extract page).tokens.items = [↑"md:p-4", ↑"flex", ↑"é"] := by
  have hjoined (s : String) : (Text.ofString s).IsJoined :=
    Text.isJoined_of_forall (isEncodable_ofString s)
  have hinner : Json.Restorable 988 (Tree.element "flex é" []) :=
    restorable_element (hjoined _) (List.forall_mem_nil _)
  have hsetUp : (ofTree page).IsSetUp :=
    isSetUp_ofTree (restorable_element (hjoined _) (List.forall_mem_singleton.mpr hinner))
  have hprint : ∀ token ∈ Tree.tokens page, IsPrintable token := by
    rw [tokens_page]
    decide +kernel
  refine ⟨hsetUp, agreement.1 (ofTree page) hsetUp hprint, ?_⟩
  rw [Tree.items_extract, tokens_page]
  decide +kernel

/-- An element whose first token is a lone surrogate. -/
def brokenPage : Json :=
  Tree.element (.surrogate 0x3D :: ↑" p-4") []

theorem tokens_brokenPage : Tree.tokens brokenPage = [[.surrogate 0x3D], ↑"p-4"] := by
  simp only [brokenPage, Tree.tokens_element, List.flatMap_nil, List.append_nil]
  decide +kernel

/-- Only the second token stands for a rule. -/
theorem compile_brokenPage :
    UtilityCss.compile [[.surrogate 0x3D], ↑"p-4"] = ".p-4 \x7b padding: 1rem \x7d\n" := by
  have hnone : resolve? [.surrogate 0x3D] = none :=
    resolve?_eq_none_of_mem List.mem_cons_self (by decide)
  have hread : Family.read? "p-4" .spacing = some (.spacing ⟨.padding, .all, "1rem"⟩) := by
    decide +kernel
  have hdups : [[CodePoint.surrogate 0x3D], ↑"p-4"].eraseDups = [[.surrogate 0x3D], ↑"p-4"] := by
    decide +kernel
  rw [UtilityCss.compile, map_snd_resolveAll, hdups, List.filterMap_cons_none hnone,
    List.filterMap_cons_some (resolve?_of_read? hread), List.filterMap_nil]
  decide +kernel

/-- A surrogate cannot be printed, so the tokens after it do not get into the file, although the
page is built with their rules. -/
theorem surrogate_disagrees :
    (ofTree brokenPage).IsSetUp ∧
      (∀ token ∈ Tree.tokens brokenPage, ∀ c ∈ token, c ≠ '\x1b') ∧
      (ofTree brokenPage).compile.stdout = [] ∧
      (ofTree brokenPage).buildPlain.stdout = ".p-4 \x7b padding: 1rem \x7d\n" ∧
      ¬ (ofTree brokenPage).Agrees := by
  have hjoined : Text.IsJoined (.surrogate 0x3D :: Text.ofString " p-4") := by
    unfold Text.IsJoined
    decide +kernel
  have hpage : Json.Restorable (988 + 2) brokenPage :=
    restorable_element hjoined (List.forall_mem_nil _)
  have hsetUp : (ofTree brokenPage).IsSetUp := isSetUp_ofTree hpage
  have hescape : ∀ token ∈ Tree.tokens brokenPage, ∀ c ∈ token, c ≠ '\x1b' := by
    rw [tokens_brokenPage]
    decide +kernel
  have hitems : (Tree.extract brokenPage).tokens.items = [[.surrogate 0x3D], ↑"p-4"] := by
    rw [Tree.items_extract, tokens_brokenPage]
    decide +kernel
  have hextract : (ofTree brokenPage).extract.stdout = [] :=
    hsetUp.stdout_extract_surrogate hitems (by decide) (by decide)
  have hcompile : (ofTree brokenPage).compile.stdout = [] := hsetUp.stdout_compile_nil hextract
  have hplain : (ofTree brokenPage).buildPlain.stdout = ".p-4 \x7b padding: 1rem \x7d\n" := by
    have hsheet : pageSheet brokenPage false = ".p-4 \x7b padding: 1rem \x7d\n" := by
      rw [pageSheet_false, hitems]
      exact compile_brokenPage
    obtain ⟨_, hbuild⟩ := hsetUp.buildPlain_eq
    rw [hbuild, Outcome.stdout_exit]
    exact hsheet
  refine ⟨hsetUp, hescape, hcompile, hplain, fun h => ?_⟩
  rw [h.compiles, hplain] at hcompile
  exact absurd hcompile (by decide)

end Pipeline

end Cli

end UtilityCss
