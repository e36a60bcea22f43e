/-
Paths of files.

* `Path.display` — a path as it is shown in messages: no empty parts and no
  single dots;
* `Path.parts`, `Path.named` — the parts of a path between slashes, all of them
  and those that lead somewhere else;
* `Place`, `Path.place` — where a path leads, if all folders on the way are
  there.
-/
import UtilityCss.Text.Basic

namespace UtilityCss

namespace Path

/-! ### Parts -/

/-- Whether a path starts at the root. -/
def isAbsolute (path : Text) : Bool :=
  path.head? = some (.char '/')

/-- The parts of a path between slashes. -/
def parts (path : Text) : List Text :=
  Text.segments '/' path

/-- The parts of a path that are neither empty nor a single dot. -/
def named (path : Text) : List Text :=
  (parts path).filter fun part => part ≠ [] ∧ part ≠ "."

/-- The slashes a shown path begins with: two are kept, more count as one. -/
def root (path : Text) : Text :=
  let slashes := path.takeWhile (· = .char '/')
  if slashes.length ≤ 2 then slashes else "/"

/-- The shown form of a path with the given parts. -/
def write (root : Text) (named : List Text) : Text :=
  match root ++ Text.join "/" named with
  | [] => "."
  | shown => shown

/-- A path as it is shown. -/
def display (path : Text) : Text :=
  write (root path) (named path)

example : display "./out//m.json" = ("out/m.json" : Text) := by decide +kernel

end Path

/-! ### Places -/

/-- A place in the tree of all folders, seen from the working folder or from the
root: so many folders up, then down by names. -/
structure Place where
  fromRoot : Bool
  above : Nat
  names : List Text
  deriving DecidableEq

namespace Place

/-- The working folder. -/
def working : Place := ⟨false, 0, []⟩

/-- The root, which has no folder above it. -/
def root : Place := ⟨true, 0, []⟩

/-- The place a part leads to. -/
def step (place : Place) (part : Text) : Place :=
  if part = [] ∨ part = "." then place
  else if part = ".." then
    match place.names with
    | [] => if place.fromRoot then place else { place with above := place.above + 1 }
    | names => { place with names := names.dropLast }
  else { place with names := place.names ++ [part] }

/-- Whether a place is another one or lies below it. -/
def isWithin (inner outer : Place) : Bool :=
  inner.fromRoot = outer.fromRoot && inner.above = outer.above &&
    outer.names.isPrefixOf inner.names

/-- Whether a place lies properly below another. -/
def isBelow (inner outer : Place) : Bool :=
  inner.isWithin outer && inner.names.length ≠ outer.names.length

end Place

namespace Path

/-- Where a path starts. -/
def start (path : Text) : Place :=
  if isAbsolute path then .root else .working

/-- The place a path leads to, if all folders on the way are there. -/
def place (path : Text) : Place :=
  (parts path).foldl Place.step (start path)

/-- The path of a place below the working folder, seen from there. -/
def inside? (place : Place) : Option Text :=
  if place.fromRoot = false ∧ place.above = 0 then some (Text.join "/" place.names) else none

example : inside? (place "a/../m.json") = some ("m.json" : Text) := by decide +kernel
example : inside? (place "../m.json") = none := by decide +kernel

end Path

end UtilityCss
