/-
Checks of tokens.

A check looks at a list of tokens and reports what an author may want to know:
why a token stands for no rule, or what its rule leaves out.

* `Finding` — what a check has found, and its wording as a diagnostic;
* `unknownPrefixes`, `misplacedBreakpoints`, `unmatchedTokens` — the reasons why
  a token stands for no rule;
* `darkUnderBreakpoint`, `duplicates` — remarks about tokens that stand for one;
* `check` — the findings of all checks, as diagnostics.
-/
import UtilityCss.Check.Diagnostic
import UtilityCss.Compile
import UtilityCss.Text.Similarity

namespace UtilityCss

/-! ### Prefixes of a token -/

/-- The parts of a token before its last colon. -/
def prefixesOf (token : Text) : List Text :=
  (Text.segments ':' token).dropLast

/-- The part of a token after its last colon. -/
def baseOf (token : Text) : Text :=
  (Text.segments ':' token).getLast?.getD []

/-- The variant and the breakpoint of a token with these two prefixes in the
wrong order. -/
def misplaced? (token : Text) : Option (Variant × Breakpoint) :=
  match prefixesOf token with
  | [first, second] => do
    let variant ← Variant.ofName? first
    let breakpoint ← Breakpoint.ofName? second
    some (variant, breakpoint)
  | _ => none

/-- The breakpoint of a token whose prefixes are a breakpoint and `dark`. -/
def darkBreakpoint? (token : Text) : Option Breakpoint :=
  match prefixesOf token with
  | [first, second] => if second = Variant.dark.name then Breakpoint.ofName? first else none
  | _ => none

/-! ### Findings -/

/-- What a check has found. -/
inductive Finding where
  /-- A prefix that is neither breakpoint nor variant, and a similar name. -/
  | unknownPrefix (token name : Text) (similar : Option Text)
  /-- A variant before a breakpoint. -/
  | misplacedBreakpoint (token : Text) (variant : Variant) (breakpoint : Breakpoint)
  /-- Known prefixes, yet no rule. -/
  | unmatched (token : Text)
  /-- A breakpoint whose media query takes the place of that of `dark`. -/
  | darkUnderBreakpoint (token : Text) (breakpoint : Breakpoint)
  /-- A token listed more than once. -/
  | duplicate (token : Text) (count : Nat)
  deriving DecidableEq

namespace Finding

/-- The token a finding is about. -/
def token : Finding → Text
  | unknownPrefix token _ _ => token
  | misplacedBreakpoint token _ _ => token
  | unmatched token => token
  | darkUnderBreakpoint token _ => token
  | duplicate token _ => token

/-- The name of the check that reports a finding. -/
def rule : Finding → Text
  | unknownPrefix .. => "check_unknown_prefix"
  | misplacedBreakpoint .. => "check_prefix_order"
  | unmatched .. => "check_unmatched"
  | darkUnderBreakpoint .. => "check_dark_under_breakpoint"
  | duplicate .. => "check_duplicates"

/-- A finding is a warning if its token stands for no rule. -/
def severity : Finding → Severity
  | unknownPrefix .. => .warning
  | misplacedBreakpoint .. => .warning
  | unmatched .. => .warning
  | darkUnderBreakpoint .. => .info
  | duplicate .. => .info

/-- The wording of a finding. -/
def message : Finding → Text
  | unknownPrefix token name _ =>
    "Unknown prefix '" ++ name ++ ":' in '" ++ token ++ "'."
  | misplacedBreakpoint token variant breakpoint =>
    "Variant '" ++ variant.name ++ ":' precedes breakpoint '" ++ breakpoint.name ++ ":' in '" ++
      token ++ "'."
  | unmatched token => "No utility matches '" ++ token ++ "'; it will produce no CSS."
  | darkUnderBreakpoint token breakpoint =>
    "'" ++ token ++ "' is gated on " ++ breakpoint.query ++
      " only; the prefers-color-scheme query of 'dark:' is replaced."
  | duplicate token count => "'" ++ token ++ "' is listed " ++ Text.decimal count ++ " times."

/-- How to mend a finding: a similar name, or the prefixes in the right order. -/
def fix? : Finding → Option Text
  | unknownPrefix _ _ similar => similar.map fun name => "Did you mean '" ++ name ++ ":'?"
  | misplacedBreakpoint token variant breakpoint =>
    some (breakpoint.name ++ ":" ++ variant.name ++ ":" ++ baseOf token)
  | _ => none

/-- A finding as a diagnostic. -/
def diagnostic (f : Finding) : Diagnostic where
  rule := f.rule
  severity := f.severity
  message := f.message
  token := some f.token
  fix := f.fix?

end Finding

/-! ### The checks -/

/-- The distinct tokens of a list. -/
def distinct (tokens : List Text) : List Text :=
  (TokenSet.ofList tokens).items

/-- Every prefix that is neither breakpoint nor variant. -/
def unknownPrefixes (tokens : List Text) : List Finding :=
  (distinct tokens).flatMap fun token =>
    ((prefixesOf token).filter (!isPrefixName ·)).map fun name =>
      .unknownPrefix token name (Text.closest? prefixNames name)

/-- Every token with a variant before a breakpoint. -/
def misplacedBreakpoints (tokens : List Text) : List Finding :=
  (distinct tokens).filterMap fun token =>
    (misplaced? token).map fun (variant, breakpoint) =>
      .misplacedBreakpoint token variant breakpoint

/-- Whether a token stands for no rule although its prefixes are known and in
order. -/
def isUnmatched (token : Text) : Bool :=
  (resolve? token).isNone && (misplaced? token).isNone && (prefixesOf token).all isPrefixName

/-- Every token that stands for no rule although its prefixes are in order. -/
def unmatchedTokens (tokens : List Text) : List Finding :=
  ((distinct tokens).filter isUnmatched).map .unmatched

/-- Every token whose breakpoint takes the place of the media query of `dark`. -/
def darkUnderBreakpoint (tokens : List Text) : List Finding :=
  (distinct tokens).filterMap fun token => do
    let breakpoint ← darkBreakpoint? token
    let _ ← resolve? token
    some (.darkUnderBreakpoint token breakpoint)

/-- Every token listed more than once. -/
def duplicates (tokens : List Text) : List Finding :=
  (distinct tokens).filterMap fun token =>
    let count := tokens.count token
    if 1 < count then some (.duplicate token count) else none

/-! ### All checks -/

/-- The checks. -/
inductive Check where
  | unknownPrefix | prefixOrder | unmatched | darkUnderBreakpoint | duplicates
  deriving DecidableEq

namespace Check

/-- All checks, in the order of their reports. -/
def all : List Check :=
  [unknownPrefix, prefixOrder, unmatched, darkUnderBreakpoint, duplicates]

/-- The name of a check. -/
def name : Check → Text
  | unknownPrefix => "check_unknown_prefix"
  | prefixOrder => "check_prefix_order"
  | unmatched => "check_unmatched"
  | darkUnderBreakpoint => "check_dark_under_breakpoint"
  | duplicates => "check_duplicates"

/-- The findings of a check. -/
def findings (tokens : List Text) : Check → List Finding
  | unknownPrefix => unknownPrefixes tokens
  | prefixOrder => misplacedBreakpoints tokens
  | unmatched => unmatchedTokens tokens
  | darkUnderBreakpoint => UtilityCss.darkUnderBreakpoint tokens
  | duplicates => UtilityCss.duplicates tokens

/-- The findings of a check as diagnostics. -/
def run (tokens : List Text) (c : Check) : List Diagnostic :=
  (c.findings tokens).map Finding.diagnostic

end Check

/-- The reports of all checks, and after them those of the checks `extra`. -/
def check (tokens : List Text) (extra : List (List Text → List Diagnostic)) : List Diagnostic :=
  Check.all.flatMap (Check.run tokens) ++ extra.flatMap (· tokens)

end UtilityCss
