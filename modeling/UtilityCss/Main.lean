/-
The program on a real machine.

The files that the command line names are read first; `Cli.run` then decides
everything, and its outcome is carried out.
-/
import UtilityCss.Cli.Clock
import UtilityCss.Cli.Run
import Std.Time.DateTime.Timestamp

namespace UtilityCss.Cli

/-- What a path leads to. -/
def readEntry (path : String) : IO Entry := do
  try
    let real ← IO.FS.realPath path
    if ← real.isDir then return .folder
    let bytes ← IO.FS.readBinFile path
    return .file ((String.fromUTF8? bytes).map Text.ofString)
  catch _ => return .missing

/-- The disk as far as the arguments may name it: each argument, and what
follows its equals sign. Whether a file can be written shows when it is written. -/
def readDisk (arguments : List String) : IO Disk := do
  let mut known : List (Text × Entry) := []
  for argument in arguments do
    known := (Text.ofString argument, ← readEntry argument) :: known
    if let some (_, value) := Text.cut? '=' argument then
      known := (value, ← readEntry (Text.string value)) :: known
  let entries := known
  return { entry := fun path => (entries.lookup path).getD .missing, refusal? := fun _ => none }

/-- The time of day, in microseconds from the beginning of 1970. -/
def readClock : IO Nat := do
  let now ← Std.Time.Timestamp.now
  return now.toNanosecondsSinceUnixEpoch.val.toNat / 1000

/-- Writes a file, with the folders it is in. -/
def writeFile (path content : Text) : IO Unit := do
  let folder := (path.reverse.dropWhile (· ≠ .char '/')).reverse
  if folder ≠ [] then IO.FS.createDirAll (Text.string folder)
  IO.FS.writeFile (Text.string path) (Text.string content)

/-- Writes to both streams. -/
def writeConsole (console : Console) : IO Unit := do
  (← IO.getStdout).putStr (Text.string console.out)
  (← IO.getStderr).putStr (Text.string console.err)

/-- Carries out an outcome and gives the exit code. -/
def finish : Outcome → IO UInt32
  | .usageError => do
    IO.eprintln "Usage: atomcss [OPTIONS] COMMAND [ARGS]..."
    return 2
  | .exit code console files => do
    for (path, content) in files do
      writeFile path content
    writeConsole console
    return code.toUInt32
  | .aborted reason console => do
    writeConsole console
    IO.eprintln (Text.string reason.message)
    return 1

end UtilityCss.Cli

/-- The program. -/
def main (arguments : List String) : IO UInt32 := do
  let disk ← UtilityCss.Cli.readDisk arguments
  let now := UtilityCss.Cli.timestamp (← UtilityCss.Cli.readClock)
  UtilityCss.Cli.finish (UtilityCss.Cli.run disk now (arguments.map UtilityCss.Text.ofString))
