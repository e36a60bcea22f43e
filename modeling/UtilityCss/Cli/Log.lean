/-
Log records and the two output streams.

* `LogRecord` — a message with its level and its source;
* `compileLog`, `extractLog`, `saveLog` — what the parts of the program log;
* `Console` — what has been written so far.
-/
import UtilityCss.Cli.Command
import UtilityCss.Cli.Path
import UtilityCss.Text.Encoding
import UtilityCss.Text.Terminal

namespace UtilityCss

namespace Cli

/-! ### Records -/

/-- A log record. -/
structure LogRecord where
  level : LogLevel
  source : Text
  message : Text
  deriving DecidableEq

/-- The line of a log record. -/
def LogRecord.text (r : LogRecord) : Text :=
  r.level.name ++ " " ++ r.source ++ ": " ++ r.message

/-- What is logged when tokens are resolved: those without a rule, then how many
have one. -/
def compileLog (tokens : List Text) : List LogRecord :=
  let record (message : Text) : LogRecord := ⟨.debug, "atomcss.compiler", message⟩
  let resolved := Text.decimal (resolveAll tokens).length
  let distinct := Text.decimal (TokenSet.ofList tokens).size
  (unresolved tokens).map (fun token => record ("No rule for class token " ++ Text.quote token)) ++
    [record ("Resolved " ++ resolved ++ " of " ++ distinct ++ " distinct token(s)")]

/-- What is logged when a page tree is read. -/
def extractLog (found : Tree.Extraction) : List LogRecord :=
  let tokens := Text.decimal found.tokens.size
  let nodes := Text.decimal found.nodes
  [⟨.debug, "atomcss.extractor",
    "Extracted " ++ tokens ++ " class token(s) from " ++ nodes ++ " node(s)"⟩]

/-- What is logged when a manifest is written. -/
def saveLog (m : Manifest) (path : Text) : List LogRecord :=
  let tokens := Text.decimal m.rules.length
  [⟨.info, "atomcss.model.manifest",
    "Wrote style manifest " ++ m.version.display ++ " (" ++ tokens ++ " tokens) to " ++
      Path.display path⟩]

/-! ### Streams -/

/-- What has been written to the two streams. -/
structure Console where
  out : Text
  err : Text
  deriving DecidableEq

namespace Console

/-- Nothing written yet. -/
def empty : Console := ⟨[], []⟩

/-- Writes a text to the output, without its control sequences. A text that
cannot be encoded is not written at all. -/
def print (text : Text) (c : Console) : Except Text.Unencodable Console :=
  let shown := Text.stripControls text
  match Text.unencodable? shown with
  | none => .ok { c with out := c.out ++ shown }
  | some u => .error u

/-- Writes a text to the error stream, where surrogates are shown as escapes. -/
def writeError (text : Text) (c : Console) : Console :=
  { c with err := c.err ++ Text.escapeSurrogates text }

/-- Writes a line to the error stream, without its control sequences. -/
def report (line : Text) (c : Console) : Console :=
  c.writeError (Text.stripControls (line ++ "\n"))

/-- Writes the records that reach a level to the error stream, with all their
control sequences. -/
def log (level : LogLevel) (records : List LogRecord) (c : Console) : Console :=
  let shown := records.filter fun r => level.rank ≤ r.level.rank
  c.writeError (Text.unlines (shown.map LogRecord.text))

end Console

end Cli

end UtilityCss
