/-
Code points.

A code point is a character, or a surrogate that has no partner. A surrogate
has no place in an encoded text, but an escape may spell one, so that it comes
up in what is read, is compared and is shown as an escape again.

* `CodePoint` — a code point;
* `CodePoint.toNat`, `CodePoint.ofNat` — the number of a code point; they undo
  each other on the numbers that a code point can have;
* `CodePoint.isDigit`, `isLower`, `isAlpha`, `isAlphanum` — the ASCII classes,
  which hold characters only.
-/

namespace UtilityCss

/-- A code point. -/
inductive CodePoint where
  | char (c : Char)
  /-- A surrogate without partner, by its place in the range from U+D800 on. -/
  | surrogate (place : Fin 0x800)
  deriving DecidableEq

namespace CodePoint

/-- A character is a code point. -/
instance : Coe Char CodePoint := ⟨char⟩

/-- The number of a code point. -/
def toNat : CodePoint → Nat
  | char c => c.toNat
  | surrogate place => 0xD800 + place.val

/-- The code point of a number. -/
def ofNat (n : Nat) : CodePoint :=
  if h : 0xD800 ≤ n ∧ n < 0xE000 then surrogate ⟨n - 0xD800, by omega⟩ else char (Char.ofNat n)

theorem toNat_ofNat {n : Nat} (h : n < 0x110000) : (ofNat n).toNat = n := by
  unfold ofNat
  split
  · simp only [toNat]
    omega
  · have hn : n.isValidChar := by
      unfold Nat.isValidChar
      omega
    show (Char.ofNat n).toNat = n
    rw [Char.ofNat, dif_pos hn]
    rfl

theorem ofNat_toNat (c : CodePoint) : ofNat c.toNat = c := by
  cases c with
  | char c =>
    have hc := c.valid
    unfold ofNat
    split
    · rename_i h
      have : c.toNat = c.val.toNat := rfl
      simp only [toNat] at h
      unfold UInt32.isValidChar Nat.isValidChar at hc
      omega
    · simp [toNat]
  | surrogate place =>
    have hp := place.isLt
    have h : 0xD800 ≤ 0xD800 + place.val ∧ 0xD800 + place.val < 0xE000 := by omega
    simp [toNat, ofNat, h]

/-- The character, unless the code point is a surrogate. -/
def char? : CodePoint → Option Char
  | char c => some c
  | surrogate _ => none

/-- Whether a code point is a surrogate. -/
def isSurrogate : CodePoint → Bool
  | char _ => false
  | surrogate _ => true

/-- Whether a code point is a character of a class. -/
def isIn (charClass : Char → Bool) : CodePoint → Bool
  | char c => charClass c
  | surrogate _ => false

/-- Whether a code point is an ASCII digit. -/
def isDigit (c : CodePoint) : Bool := c.isIn Char.isDigit

/-- Whether a code point is an ASCII lower-case letter. -/
def isLower (c : CodePoint) : Bool := c.isIn Char.isLower

/-- Whether a code point is an ASCII letter. -/
def isAlpha (c : CodePoint) : Bool := c.isIn Char.isAlpha

/-- Whether a code point is an ASCII letter or digit. -/
def isAlphanum (c : CodePoint) : Bool := c.isIn Char.isAlphanum

/-- The upper-case letter of an ASCII letter; any other code point is kept. -/
def toUpper : CodePoint → CodePoint
  | char c => char c.toUpper
  | surrogate place => surrogate place

end CodePoint

end UtilityCss
