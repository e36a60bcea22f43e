/-
The disk that a command works on.

* `Entry` — what a path leads to;
* `Refusal` — why a file cannot be written;
* `Disk` — what each path leads to, and what keeps a file from being written;
* `Layout` — files and folders in memory, and what reading and writing does to
  them;
* `Disk.ofFiles` — the disk that holds some files and the folders around them.

Design notes: before a file is written the folders it is in are made, the
outermost first. A folder is only looked for where all folders before it are
there, so `nope/../m.json` needs the folder `nope`, and a file in the place of a
folder is noticed either when the folder is made or on the way through it.
-/
import UtilityCss.Cli.Path
import UtilityCss.Text.Quoted

namespace UtilityCss

/-! ### Entries and refusals -/

/-- What a path leads to. -/
inductive Entry where
  | missing
  | folder
  /-- A file; its content is `none` if it is not UTF-8. -/
  | file (content : Option Text)
  deriving DecidableEq

/-- Whether there is a file. -/
def Entry.isFile : Entry → Bool
  | file _ => true
  | _ => false

/-- What is wrong with a path. -/
inductive Obstacle where
  /-- Nothing is there. -/
  | missing
  /-- A file is where a folder is to be made. -/
  | occupied
  /-- A file is on the way. -/
  | throughFile
  /-- A folder is where a file is to be written. -/
  | folder
  /-- The path, or a part of it, is longer than may be. -/
  | longName
  /-- The path holds the null character. -/
  | nullCharacter
  deriving DecidableEq

/-- The wording of an obstacle at a path. A null character is noticed before
anything is asked of the disk, so that neither number nor path are told. -/
def Obstacle.message (path : Text) : Obstacle → Text
  | missing => "[Errno 2] No such file or directory: " ++ Text.quote path
  | occupied => "[Errno 17] File exists: " ++ Text.quote path
  | throughFile => "[Errno 20] Not a directory: " ++ Text.quote path
  | folder => "[Errno 21] Is a directory: " ++ Text.quote path
  | longName => "[Errno 36] File name too long: " ++ Text.quote path
  | nullCharacter => "embedded null byte"

/-- An obstacle and the path where it was met. -/
structure Refusal where
  obstacle : Obstacle
  path : Text
  deriving DecidableEq

/-- The wording of a refusal. -/
def Refusal.message (r : Refusal) : Text :=
  r.obstacle.message r.path

/-- Whether a path holds the null character, with which nothing can be asked of
a disk. -/
def Path.holdsNull (path : Text) : Bool :=
  .char '\x00' ∈ path

/-- A disk, as far as a command looks at it. -/
structure Disk where
  /-- What a path leads to. -/
  entry : Text → Entry
  /-- Why a file cannot be written at a path; `none` if it can, or if nothing
  is known beforehand. -/
  refusal? : Text → Option Refusal

/-! ### Files and folders in memory -/

/-- Files and folders by their places. Every folder above one of them is there,
too. -/
structure Layout where
  files : List (Place × Option Text)
  /-- Folders that need not hold anything. -/
  folders : List Place

namespace Layout

/-- What is at a place. The starting places and all folders above them are
there. -/
def find (l : Layout) (place : Place) : Entry :=
  if place.names = [] ∨ l.folders.any (·.isWithin place) ∨
      l.files.any (fun (name, _) => name.isBelow place) then
    .folder
  else
    match l.files.lookup place with
    | some content => .file content
    | none => .missing

/-- The longest part of a path, in bytes. -/
def maxNameBytes : Nat := 255

/-- The longest path, in bytes. -/
def maxPathBytes : Nat := 4095

/-- The bytes of a path or of a part of it. -/
def byteCount (s : Text) : Nat :=
  s.foldl (fun bytes c => bytes + (c.char?.map Char.utf8Size).getD 3) 0

/-- Follows the parts of a path from a place. Each place on the way must be a
folder. -/
def follow (l : Layout) (place : Place) : List Text → Except Obstacle Place
  | [] => .ok place
  | part :: parts =>
    match l.find place with
    | .folder =>
      if maxNameBytes < byteCount part then .error .longName
      else follow l (place.step part) parts
    | .file _ => .error .throughFile
    | .missing => .error .missing

/-- The place a path leads to. -/
def reach (l : Layout) (path : Text) : Except Obstacle Place :=
  if Path.holdsNull path then .error .nullCharacter
  else if maxPathBytes < byteCount path then .error .longName
  else l.follow (Path.start path) (Path.parts path)

/-- What a path leads to. The empty path leads nowhere. -/
def entry (l : Layout) (path : Text) : Entry :=
  if path = [] then .missing
  else
    match l.reach path with
    | .ok place => l.find place
    | .error _ => .missing

/-- The content of the file at a path. -/
def read (l : Layout) (path : Text) : Except Refusal (Option Text) :=
  let shown := Path.display path
  match l.reach shown with
  | .error o => .error ⟨o, shown⟩
  | .ok place =>
    match l.find place with
    | .file content => .ok content
    | .folder => .error ⟨.folder, shown⟩
    | .missing => .error ⟨.missing, shown⟩

/-- A layout with one more folder. The folders above it need not be listed any
more. -/
def addFolder (l : Layout) (place : Place) : Layout :=
  { l with folders := place :: l.folders.filter (!place.isWithin ·) }

/-- Makes one folder, unless it is there. -/
def makeFolder (l : Layout) (path : Text) : Except Obstacle Layout := do
  let place ← l.reach path
  match l.find place with
  | .folder => .ok l
  | .file _ => .error .occupied
  | .missing => .ok (l.addFolder place)

/-- Makes a folder, and the folders it is in where they are missing. The parts
of the path are given from the last one on. What has been made before a refusal
stays. -/
def makeFolders (root : Text) (l : Layout) : List Text → Layout × Option Refusal
  | [] => (l, none)
  | part :: before =>
    let path := Path.write root (part :: before).reverse
    match l.makeFolder path with
    | .ok made => (made, none)
    | .error .missing =>
      match makeFolders root l before with
      | (l, some r) => (l, some r)
      | (l, none) =>
        match l.makeFolder path with
        | .ok made => (made, none)
        | .error o => (l, some ⟨o, path⟩)
    | .error o => (l, some ⟨o, path⟩)

/-- Writes a file, once the folders it is in have been made. -/
def write (l : Layout) (path content : Text) : Layout × Option Refusal :=
  let shown := Path.display path
  match makeFolders (Path.root path) l (Path.named path).dropLast.reverse with
  | (l, some r) => (l, some r)
  | (l, none) =>
    match l.reach shown with
    | .error o => (l, some ⟨o, shown⟩)
    | .ok place =>
      match l.find place with
      | .folder => (l, some ⟨.folder, shown⟩)
      | _ => ({ l with files := (place, some content) :: l.files }, none)

/-- The layout of some files, of which a later one takes the place of an earlier
one with the same path. -/
def ofFiles (files : List (Text × Option Text)) : Layout where
  files := files.reverse.map fun (path, content) => (Path.place path, content)
  folders := []

end Layout

namespace Disk

/-- The disk with a layout. -/
def ofLayout (l : Layout) : Disk where
  entry := l.entry
  refusal? path := (l.write path []).2

/-- The disk that holds some files and the folders around them. -/
def ofFiles (files : List (Text × Option Text)) : Disk :=
  ofLayout (.ofFiles files)

example : ((ofFiles [("t.json", none)]).refusal? "t.json/a/b.json").map Refusal.message =
    some ("[Errno 20] Not a directory: 't.json/a'" : Text) := by decide +kernel
example : ((ofFiles [("t.json", none)]).refusal? "a/../m.json").isNone = true := by
  decide +kernel

end Disk

end UtilityCss
