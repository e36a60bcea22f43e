/-
Prefixes: the conditions that a token puts before its utility.

* `Breakpoint` — a minimal width of the screen;
* `Variant` — a state of the element, hover of its group, or the dark scheme;
* `Media` — the media queries that prefixes bring about;
* `prefixNames` — all names of prefixes.
-/
import UtilityCss.Text.Basic

namespace UtilityCss

/-! ### Breakpoints -/

/-- The named minimal widths. -/
inductive Breakpoint where
  | sm | md | lg | xl | xxl
  deriving DecidableEq

namespace Breakpoint

/-- The breakpoints, narrow to wide. -/
def all : List Breakpoint :=
  [sm, md, lg, xl, xxl]

/-- The name before the colon. -/
def name : Breakpoint → Text
  | sm => "sm"
  | md => "md"
  | lg => "lg"
  | xl => "xl"
  | xxl => "2xl"

/-- The minimal width in pixels. -/
def width : Breakpoint → Nat
  | sm => 640
  | md => 768
  | lg => 1024
  | xl => 1280
  | xxl => 1536

/-- The breakpoint of a name. -/
def ofName? (name : Text) : Option Breakpoint :=
  all.find? (·.name = name)

/-- The media query of a breakpoint. -/
def query (b : Breakpoint) : Text :=
  "(min-width: " ++ Text.decimal b.width ++ "px)"

end Breakpoint

/-! ### Variants -/

/-- The states of an element that a variant may ask for. -/
inductive State where
  | hover | focus | active | focusWithin | focusVisible | disabled
  deriving DecidableEq

namespace State

/-- All states. -/
def all : List State :=
  [hover, focus, active, focusWithin, focusVisible, disabled]

/-- The name of a state, as a prefix and as a pseudo-class. -/
def name : State → Text
  | hover => "hover"
  | focus => "focus"
  | active => "active"
  | focusWithin => "focus-within"
  | focusVisible => "focus-visible"
  | disabled => "disabled"

end State

/-- The conditions other than a breakpoint. -/
inductive Variant where
  | state (s : State)
  | groupHover
  | dark
  deriving DecidableEq

namespace Variant

/-- All variants. -/
def all : List Variant :=
  State.all.map state ++ [groupHover, dark]

/-- The name before the colon. -/
def name : Variant → Text
  | state s => s.name
  | groupHover => "group-hover"
  | dark => "dark"

/-- The variant of a name. -/
def ofName? (name : Text) : Option Variant :=
  all.find? (·.name = name)

end Variant

/-! ### Media queries -/

/-- The media queries that prefixes bring about. -/
inductive Media where
  | minWidth (b : Breakpoint)
  | prefersDark
  deriving DecidableEq

/-- The written form of a media query. -/
def Media.query : Media → Text
  | minWidth b => b.query
  | prefersDark => "(prefers-color-scheme: dark)"

/-- The media query of a variant that has no breakpoint before it. -/
def Variant.media? : Variant → Option Media
  | dark => some .prefersDark
  | _ => none

/-! ### Names -/

/-- The names of all variants, in alphabetic order. -/
def variantNames : List Text :=
  ["active", "dark", "disabled", "focus", "focus-visible", "focus-within", "group-hover", "hover"]

/-- The names of all prefixes, in alphabetic order. -/
def prefixNames : List Text :=
  ["2xl", "active", "dark", "disabled", "focus", "focus-visible", "focus-within", "group-hover",
   "hover", "lg", "md", "sm", "xl"]

example : ∀ v ∈ Variant.all, v.name ∈ variantNames := by decide +kernel
example : ∀ b ∈ Breakpoint.all, b.name ∈ prefixNames := by decide +kernel
example : ∀ name ∈ variantNames, name ∈ prefixNames := by decide +kernel

/-- Whether a name is that of a breakpoint or of a variant. -/
def isPrefixName (name : Text) : Bool :=
  (Breakpoint.ofName? name).isSome || (Variant.ofName? name).isSome

end UtilityCss
