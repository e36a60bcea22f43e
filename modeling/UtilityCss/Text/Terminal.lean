/-
Terminal control sequences.

Output that does not go to a terminal is written without its control
sequences: an escape character, an opening bracket, any number of digits,
semicolons and question marks, and one ASCII letter.

* `stripControls` — a text without its control sequences.
-/
import UtilityCss.Text.Basic

namespace UtilityCss.Text

/-- Whether a character may stand between the bracket and the final letter. -/
def isControlParameter (c : CodePoint) : Bool :=
  c = ';' || c = '?' || c.isDigit

/-- What follows the control sequence whose parameters begin here. -/
def controlEnd? : Text → Option Text
  | [] => none
  | c :: rest =>
    if isControlParameter c then controlEnd? rest
    else if c.isAlpha then some rest
    else none

theorem controlEnd?_length {s rest : Text} (h : controlEnd? s = some rest) :
    rest.length < s.length := by
  induction s with
  | nil => simp [controlEnd?] at h
  | cons c s ih =>
    rw [controlEnd?] at h
    split at h
    · have := ih h
      simp only [List.length_cons]
      omega
    · split at h
      · simp only [Option.some.injEq] at h
        simp [h]
      · simp at h

/-- A text without its control sequences. -/
def stripControls : Text → Text
  | [] => []
  | '\x1b' :: '[' :: rest =>
    match h : controlEnd? rest with
    | some rest' =>
      have := controlEnd?_length h
      stripControls rest'
    | none => '\x1b' :: stripControls ('[' :: rest)
  | c :: rest => c :: stripControls rest
termination_by s => s.length
decreasing_by
  · simp only [List.length_cons]
    omega
  · simp
  · simp

example : stripControls "a\x1b[1;31mb\x1b[x\x1b[" = ("ab\x1b[" : Text) := by decide +kernel

end UtilityCss.Text
