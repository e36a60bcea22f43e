/-
Diagnostics: remarks about tokens.

* `Severity` — a warning or an information;
* `Diagnostic` — a remark with the check it comes from;
* `Diagnostic.text` — the line that is shown.
-/
import UtilityCss.Text.Quoted

namespace UtilityCss

/-- How serious a remark is. -/
inductive Severity where
  | warning | info
  deriving DecidableEq

namespace Severity

/-- The name of a severity. -/
def name : Severity → Text
  | warning => "WARNING"
  | info => "INFO"

/-- The severity of a name, which is written in capitals. -/
def ofName? (name : Text) : Option Severity :=
  [warning, info].find? (·.name = name)

/-- The wording for a name that is no severity. -/
def unknownMessage (name : Text) : Text :=
  Text.quote name ++ " is not a valid Severity"

end Severity

/-- A remark about a token. -/
structure Diagnostic where
  /-- The name of the check. -/
  rule : Text
  severity : Severity
  message : Text
  token : Option Text
  /-- What to write in place of the token, or how to mend it. -/
  fix : Option Text
  deriving DecidableEq

namespace Diagnostic

/-- Whether a remark is a warning. -/
def isWarning (d : Diagnostic) : Bool :=
  d.severity = .warning

/-- A text that is there and not empty. -/
def present? (s : Option Text) : Option Text :=
  s.filter (· ≠ [])

/-- The line that is shown: the severity, the token if there is one, and the
message. -/
def text (d : Diagnostic) : Text :=
  let location : Text :=
    match present? d.token with
    | some token => " [token=" ++ token ++ "]"
    | none => ""
  d.severity.name ++ location ++ ": " ++ d.message

/-- The line with the fix at its end, if there is one. -/
def textWithFix (d : Diagnostic) : Text :=
  match present? d.fix with
  | some fix => d.text ++ " (fix: " ++ fix ++ ")"
  | none => d.text

end Diagnostic

end UtilityCss
