/-
Running a command.

A run is a function of the command line, the files it names and the time; it
gives what is written and the exit code.

* `Outcome` — how a run ends;
* `execute` — a command on a disk;
* `run` — a command line on a disk.
-/
import UtilityCss.Check.Basic
import UtilityCss.Cli.Disk
import UtilityCss.Cli.Log
import UtilityCss.Manifest.Writer

namespace UtilityCss

namespace Cli

/-! ### How a run ends -/

/-- A failure that no command reports by itself. -/
inductive Abort where
  /-- A file is not UTF-8. -/
  | undecodable
  /-- The output would hold a surrogate. -/
  | unencodable (u : Text.Unencodable)
  /-- A page tree is beyond the limits of the reader. -/
  | tree (l : Json.Limit)
  /-- A failure to read a manifest that is not reported as one. -/
  | manifest (e : Manifest.ReadError)
  /-- A stored media query that cannot be looked up by. -/
  | unhashable (u : Unhashable)
  /-- A path that cannot be looked at, or a manifest that cannot be written. -/
  | refused (r : Refusal)
  deriving DecidableEq

/-- The wording of a failure. -/
def Abort.message : Abort → Text
  | undecodable => "a file is not UTF-8"
  | unencodable u => u.message
  | tree l => l.message
  | manifest e => e.message
  | unhashable u => u.message
  | refused r => r.message

/-- How a run ends. -/
inductive Outcome where
  /-- The command line asks for nothing that can be done. -/
  | usageError
  /-- An exit code, what was written to the streams, and the files written. -/
  | exit (code : Nat) (console : Console) (files : List (Text × Text))
  /-- A failure in the middle of a command. -/
  | aborted (reason : Abort) (console : Console)
  deriving DecidableEq

/-- An outcome other than success ends a command at once. -/
abbrev Run (α : Type) := Except Outcome α

/-- The outcome of a run that may have ended early. -/
def Run.outcome (r : Run Outcome) : Outcome :=
  match r with
  | .ok outcome => outcome
  | .error outcome => outcome

/-! ### Input -/

/-- The text of a file, its line ends unified. -/
def readText (disk : Disk) (path : Text) : Run Text :=
  match disk.entry path with
  | .file (some content) => .ok (Text.unifyNewlines content)
  | .file none => .error (.aborted .undecodable .empty)
  | _ => .error .usageError

/-- The tokens on the command line, then the words of a file. -/
def gatherTokens (disk : Disk) (tokens : List Text) (file : Option Text) : Run (List Text) :=
  match file with
  | none => .ok tokens
  | some path => (readText disk path).map fun text => tokens ++ Text.words text

/-- The page tree in a file. -/
def loadTree (disk : Disk) (path : Text) : Run Json :=
  (readText disk path).bind fun text =>
    match Json.parse text with
    | .ok tree => .ok tree
    | .error (.limit l) => .error (.aborted (.tree l) .empty)
    | .error e =>
      .error (.exit 1 (Console.empty.report ("Invalid tree JSON in " ++ path ++ ": " ++ e.message))
        [])

/-- The manifest in a file. -/
def loadManifest (disk : Disk) (path : Text) : Run Manifest :=
  (readText disk path).bind fun text =>
    match Manifest.load text with
    | .ok m => .ok m
    | .error e =>
      let line : Text := "Manifest error: " ++ e.messageAt (Path.display path)
      if e.isManifestError then .error (.exit 1 (Console.empty.report line) [])
      else .error (.aborted (.manifest e) .empty)

/-! ### Output -/

/-- Writes a text to the output. -/
def print (text : Text) (c : Console) : Run Console :=
  (c.print text).mapError fun u => .aborted (.unencodable u) c

/-- Writes lines to the output, up to the first that cannot be encoded. -/
def printLines (lines : List Text) (c : Console) : Run Console :=
  lines.foldlM (fun c line => print (line ++ "\n") c) c

/-! ### Commands -/

/-- The line about one token. -/
def resolveLine (token : Text) : Text :=
  match resolve? token with
  | none => token ++ ": no match"
  | some rule =>
    let selector : Text := "selector=" ++ rule.selector.text
    let declarations : Text := "declarations=\"" ++ declarationText rule.declarations ++ "\""
    let media : List Text := rule.media.toList.map fun media => "media=" ++ media.query
    Text.join "  " ((token ++ ":") :: selector :: declarations :: media)

/-- The lines of a report: each diagnostic with its fix, then how many there
are of each kind. -/
def reportLines (diagnostics : List Diagnostic) : List Text :=
  if diagnostics = [] then ["OK: 0 diagnostics"]
  else
    let warnings := Text.decimal (diagnostics.countP (·.isWarning))
    let infos := Text.decimal (diagnostics.countP (!·.isWarning))
    let summary : Text := "Summary: " ++ warnings ++ " warning(s), " ++ infos ++ " info"
    diagnostics.map Diagnostic.textWithFix ++ [[], summary]

/-- Builds the page sheet of a tree, and writes its manifest if one is wanted. -/
def build (disk : Disk) (now : Text) (level : LogLevel) (tree : Json) (withBaseline : Bool)
    (manifest : Option Text) (version : Text) : Run Outcome := do
  let found := Tree.extract tree
  let tokens := found.tokens.items
  let logs := extractLog found ++ compileLog tokens
  let console ← print (pageSheet tree withBaseline) (Console.empty.log level logs)
  match manifest with
  | none => .ok (.exit 0 console [])
  | some [] => .ok (.exit 0 console [])
  | some target =>
    let m := Manifest.build tokens (.text version) now
    match disk.refusal? target with
    | some r => .error (.aborted (.refused r) (console.log level logs))
    | none =>
      let count := Text.decimal m.rules.length
      let console := console.log level (logs ++ saveLog m target)
      let console := console.report <|
        "Manifest " ++ version ++ " written to " ++ target ++ " (" ++ count ++ " token(s))"
      .ok (.exit 0 console [(target, m.save)])

/-- A command on a disk, at a time. -/
def execute (disk : Disk) (now : Text) (level : LogLevel) : Command → Run Outcome
  | .resolve tokens => do
    let console ← printLines (tokens.map resolveLine) .empty
    .ok (.exit 0 console [])
  | .compile tokens file none => do
    let tokens ← gatherTokens disk tokens file
    let console ← print (compile tokens) (Console.empty.log level (compileLog tokens))
    .ok (.exit 0 console [])
  | .compile tokens file (some path) => do
    let tokens ← gatherTokens disk tokens file
    let m ← loadManifest disk path
    match m.cssFor tokens with
    | .ok css => do
      let console ← print css .empty
      .ok (.exit 0 console [])
    | .error u => .error (.aborted (.unhashable u) .empty)
  | .extract path => do
    let tree ← loadTree disk path
    let found := Tree.extract tree
    let console ← printLines found.tokens.items (Console.empty.log level (extractLog found))
    .ok (.exit 0 console [])
  | .build path withBaseline manifest version => do
    let tree ← loadTree disk path
    build disk now level tree withBaseline manifest version
  | .check tokens file strict => do
    let tokens ← gatherTokens disk tokens file
    let diagnostics := check tokens []
    let console ← printLines (reportLines diagnostics) .empty
    .ok (.exit (if strict && diagnostics.any (·.isWarning) then 1 else 0) console [])

/-! ### Command lines -/

/-- Whether an entry is what a path must lead to. -/
def PathUse.fits : PathUse → Entry → Bool
  | read, entry => entry.isFile
  | write, entry => entry ≠ .folder

/-- A path must lead to an entry that fits. -/
def checkPath (disk : Disk) (p : PathArgument) : Run Unit :=
  if Path.holdsNull p.path then .error (.aborted (.refused ⟨.nullCharacter, p.path⟩) .empty)
  else if p.use.fits (disk.entry p.path) then .ok ()
  else .error .usageError

/-- A request on a disk, at a time: first its paths, then its command. -/
def serve (disk : Disk) (now : Text) (level : LogLevel) (request : Request) : Run Outcome := do
  request.paths.forM (checkPath disk)
  match request.command? with
  | some command => execute disk now level command
  | none => .error .usageError

/-- A command line on a disk, at a time. -/
def run (disk : Disk) (now : Text) (arguments : List Text) : Outcome :=
  match Invocation.parse? arguments with
  | none => .usageError
  | some .version => .exit 0 { out := "atomcss, version 0.1.0\n", err := [] } []
  | some (.run level request) => (serve disk now level request).outcome

end Cli

end UtilityCss
