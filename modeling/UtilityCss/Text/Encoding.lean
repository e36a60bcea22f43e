/-
Texts that cannot be encoded.

A surrogate has no encoding of its own. A stream either refuses a text that
holds one, and then names the first row of neighbouring surrogates, or shows
each of them as an escape.

* `Unencodable`, `unencodable?` — the first row of surrogates of a text;
* `escapeSurrogates` — a text with escapes in place of its surrogates.
-/
import UtilityCss.Text.Quoted

namespace UtilityCss.Text

/-- The first row of neighbouring surrogates in a text: its place, and the
numbers of its members. -/
structure Unencodable where
  position : Nat
  first : Nat
  others : List Nat
  deriving DecidableEq

/-- The wording of the failure. A single surrogate is shown, a longer row is
told by its first and its last position. -/
def Unencodable.message (u : Unencodable) : Text :=
  let what : Text :=
    match u.others with
    | [] => " '" ++ escapeHidden u.first ++ "' in position " ++ decimal u.position
    | others =>
      "s in position " ++ decimal u.position ++ "-" ++ decimal (u.position + others.length)
  "'utf-8' codec can't encode character" ++ what ++ ": surrogates not allowed"

/-- The first row of surrogates; `none` if the text can be encoded. -/
def unencodable? (s : Text) : Option Unencodable :=
  match (s.dropWhile (!·.isSurrogate)).takeWhile (·.isSurrogate) with
  | [] => none
  | c :: row =>
    some ⟨(s.takeWhile (!·.isSurrogate)).length, c.toNat, row.map CodePoint.toNat⟩

/-- A text with escapes in place of its surrogates. -/
def escapeSurrogates (s : Text) : Text :=
  s.flatMap fun c => if c.isSurrogate then escapeHidden c.toNat else [c]

example : (unencodable? [.char 'a', .surrogate 0x3D, .char 'b']).map Unencodable.message =
    some ("'utf-8' codec can't encode character '\\ud83d' in position 1: surrogates not allowed"
      : Text) := by
  decide +kernel

/-- Only surrogates stand in the way of an encoding. -/
theorem unencodable?_eq_none_iff {s : Text} :
    unencodable? s = none ↔ ∀ c ∈ s, c.isSurrogate = false := by
  have h : (s.dropWhile (!·.isSurrogate)).takeWhile (·.isSurrogate) = [] ↔
      ∀ c ∈ s, c.isSurrogate = false := by
    induction s with
    | nil => simp
    | cons c s ih => cases hc : c.isSurrogate <;> simp [hc, ih]
  rw [← h, unencodable?]
  split <;> simp_all

end UtilityCss.Text
