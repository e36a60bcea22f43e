/-
Commands.

* `LogLevel` — how much is logged;
* `Command` — a command with its arguments;
* `Request` — a command together with the paths that are looked at before it;
* `Invocation.parse?` — what a command line asks for; `none` is a usage error.

Design notes: the paths of a command line are looked at one by one, those of
options first, in the order in which the options are first mentioned, and only
after that the arguments are counted. So a path that cannot be looked at all is
noticed before an argument that is missing or too much, but after an option that
is not known.

Help is left out, since its page is laid out to the width of the terminal, on
which nothing else depends: `--help`, which would show the page and end with the
exit code 0, is here an option that is not known, before the command as well as
after it. No page is shown for an empty command line either, which is a usage
error because it names no command.
-/
import UtilityCss.Cli.Options
import UtilityCss.Manifest.Basic

namespace UtilityCss

namespace Cli

/-! ### Log levels -/

/-- The levels of log records. -/
inductive LogLevel where
  | debug | info | warning | error
  deriving DecidableEq

namespace LogLevel

/-- All levels, the least important first. -/
def all : List LogLevel :=
  [debug, info, warning, error]

/-- The name of a level. -/
def name : LogLevel → Text
  | debug => "DEBUG"
  | info => "INFO"
  | warning => "WARNING"
  | error => "ERROR"

/-- The importance of a level. -/
def rank : LogLevel → Nat
  | debug => 0
  | info => 1
  | warning => 2
  | error => 3

/-- The level of a name, in letters of either case. -/
def ofName? (name : Text) : Option LogLevel :=
  all.find? (·.name = name.map CodePoint.toUpper)

end LogLevel

/-! ### Commands -/

/-- A command with its arguments. -/
inductive Command where
  /-- Shows the rule of each token. -/
  | resolve (tokens : List Text)
  /-- Writes the sheet of some tokens, or of a manifest's rules for them. -/
  | compile (tokens : List Text) (tokenFile manifest : Option Text)
  /-- Lists the tokens of a page tree. -/
  | extract (treeFile : Text)
  /-- Writes the sheet of a page tree, and a manifest if wanted. -/
  | build (treeFile : Text) (withBaseline : Bool) (manifest : Option Text) (version : Text)
  /-- Reports what the checks find. -/
  | check (tokens : List Text) (tokenFile : Option Text) (strict : Bool)
  deriving DecidableEq

/-! ### Requests -/

/-- What a path must lead to. -/
inductive PathUse where
  /-- To a file. -/
  | read
  /-- To anything but a folder. -/
  | write
  deriving DecidableEq

/-- A path on a command line. -/
structure PathArgument where
  use : PathUse
  path : Text
  deriving DecidableEq

/-- The paths given by options, each where its option is first mentioned. -/
def Scanned.paths (uses : List (Text × PathUse)) (s : Scanned) : List PathArgument :=
  (s.options.map Prod.fst).eraseDups.filterMap fun name => do
    let use ← uses.lookup name
    let path ← s.value? name
    some ⟨use, path⟩

/-- What is asked of a command. -/
structure Request where
  /-- The paths, in the order in which they are looked at. -/
  paths : List PathArgument
  /-- The command; `none` if an argument is missing or too much. -/
  command? : Option Command
  deriving DecidableEq

namespace Request

/-- Shows the rules of the arguments, of which there must be one. -/
def resolve? (arguments : List Text) : Option Request := do
  let s ← scan? [] true arguments
  some ⟨[], if s.arguments = [] then none else some (.resolve s.arguments)⟩

/-- Compiles the arguments and the words of a file. -/
def compile? (arguments : List Text) : Option Request := do
  let s ← scan? [("--file", .value), ("--manifest", .value)] true arguments
  some
    { paths := s.paths [("--file", .read), ("--manifest", .read)]
      command? := some (.compile s.arguments (s.value? "--file") (s.value? "--manifest")) }

/-- A command about the file that the only argument names. -/
def ofTreeFile (s : Scanned) (uses : List (Text × PathUse)) (command : Text → Command) :
    Request where
  paths := s.paths uses ++ (s.arguments.take 1).map (⟨.read, ·⟩)
  command? :=
    match s.arguments with
    | [treeFile] => some (command treeFile)
    | _ => none

/-- Lists the tokens of a page tree. -/
def extract? (arguments : List Text) : Option Request := do
  let s ← scan? [] true arguments
  some (ofTreeFile s [] .extract)

/-- Builds the sheet of a page tree. -/
def build? (arguments : List Text) : Option Request := do
  let spec : OptionSpec :=
    [("--critical", .flag), ("--no-critical", .flag), ("--manifest", .value),
     ("--manifest-version", .value)]
  let s ← scan? spec true arguments
  some <| ofTreeFile s [("--manifest", .write)] fun treeFile =>
    .build treeFile (s.switch "--critical" "--no-critical" true) (s.value? "--manifest")
      ((s.value? "--manifest-version").getD Manifest.defaultVersion)

/-- Checks the arguments and the words of a file. -/
def check? (arguments : List Text) : Option Request := do
  let spec : OptionSpec := [("--file", .value), ("--strict", .flag), ("--no-strict", .flag)]
  let s ← scan? spec true arguments
  some
    { paths := s.paths [("--file", .read)]
      command? :=
        some (.check s.arguments (s.value? "--file") (s.switch "--strict" "--no-strict" false)) }

/-- What is asked by the name of a command and the arguments after it. -/
def parse? (name : Text) (arguments : List Text) : Option Request :=
  if name = "resolve" then resolve? arguments
  else if name = "compile" then compile? arguments
  else if name = "extract" then extract? arguments
  else if name = "build" then build? arguments
  else if name = "check" then check? arguments
  else none

end Request

/-! ### Command lines -/

/-- What a command line asks for. -/
inductive Invocation where
  | version
  | run (level : LogLevel) (request : Request)
  deriving DecidableEq

/-- What a command line asks for. The options before the command are read first,
and a question for the version is answered before anything else is looked at. A
question for help is not read. -/
def Invocation.parse? (arguments : List Text) : Option Invocation := do
  let s ← scan? [("--version", .flag), ("--log-level", .value)] false arguments
  if s.has "--version" then some .version
  else
    let level ← LogLevel.ofName? ((s.value? "--log-level").getD LogLevel.warning.name)
    match s.arguments with
    | [] => none
    | name :: rest => (Request.parse? name rest).map (.run level)

end Cli

end UtilityCss
