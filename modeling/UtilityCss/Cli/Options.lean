/-
Options on a command line.

An option begins with a hyphen and is longer than one character. One that takes
a value has it after an equals sign or in the next argument, whatever that looks
like; two hyphens alone end the options.

* `OptionSpec` — the options that are known;
* `Scanned` — the options and arguments that were found;
* `scan?` — the reader; `none` is a usage error.
-/
import UtilityCss.Text.Basic

namespace UtilityCss

namespace Cli

/-- Whether an option takes a value. -/
inductive OptionKind where
  | flag | value
  deriving DecidableEq

/-- The known options. -/
abbrev OptionSpec := List (Text × OptionKind)

/-- The options of a command line, a flag with an empty value, and the other
arguments, both in their order. -/
structure Scanned where
  options : List (Text × Text)
  arguments : List Text
  deriving DecidableEq

namespace Scanned

/-- With one more option in front. -/
def addOption (name value : Text) (s : Scanned) : Scanned :=
  { s with options := (name, value) :: s.options }

/-- With one more argument in front. -/
def addArgument (argument : Text) (s : Scanned) : Scanned :=
  { s with arguments := argument :: s.arguments }

/-- The value of an option: the last one given. -/
def value? (name : Text) (s : Scanned) : Option Text :=
  s.options.reverse.lookup name

/-- Whether a flag is given. -/
def has (name : Text) (s : Scanned) : Bool :=
  (s.value? name).isSome

/-- Whether the last of two opposite flags is the first one; `fallback` if
neither is given. -/
def switch (on off : Text) (fallback : Bool) (s : Scanned) : Bool :=
  match s.options.reverse.find? fun (name, _) => name = on ∨ name = off with
  | some (name, _) => name = on
  | none => fallback

end Scanned

/-- Whether an argument is an option. -/
def isOption (argument : Text) : Bool :=
  argument.head? = some (.char '-') && 1 < argument.length

/-- The name of an option and the value after its equals sign. -/
def splitOption (argument : Text) : Text × Option Text :=
  match Text.cut? '=' argument with
  | some (name, value) => (name, some value)
  | none => (argument, none)

/-- Reads options and arguments. Unless they may be `mixed`, the options end at
the first argument. -/
def scan? (spec : OptionSpec) (mixed : Bool) : List Text → Option Scanned
  | [] => some ⟨[], []⟩
  | argument :: rest =>
    if argument = "--" then some ⟨[], rest⟩
    else if isOption argument then
      let (name, given) := splitOption argument
      match spec.lookup name, given with
      | none, _ => none
      | some .flag, some _ => none
      | some .flag, none => (scan? spec mixed rest).map (.addOption name [])
      | some .value, some value => (scan? spec mixed rest).map (.addOption name value)
      | some .value, none =>
        match rest with
        | [] => none
        | value :: rest => (scan? spec mixed rest).map (.addOption name value)
    else if mixed then (scan? spec mixed rest).map (.addArgument argument)
    else some ⟨[], argument :: rest⟩

end Cli

end UtilityCss
