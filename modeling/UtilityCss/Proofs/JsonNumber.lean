/-
Numerals and names read back.

* `Json.IsBreak` — what stands after a written value: nothing, a comma or a line feed;
* `Json.wholeDigits?_decimal`, `Json.magnitude?_decimal` — the reader takes a numeral up to
  such a break;
* `Scalar.Restorable` — the scalars that are read back: all but fractional numbers, numerals
  that are too long and texts with halves of pairs side by side;
* `Json.atom?_written` — names and integers are read back.
-/
import Mathlib.Data.List.TakeDrop
import UtilityCss.Proofs.JsonString
import UtilityCss.Proofs.Numeral

namespace UtilityCss

namespace Json

/-! ### Breaks -/

/-- What stands after a written value: nothing, a comma or a line feed. -/
def IsBreak (rest : Text) : Prop :=
  rest = [] ∨ ∃ tail, rest = .char ',' :: tail ∨ rest = .char '\n' :: tail

theorem isBreak_nil : IsBreak [] :=
  .inl rfl

theorem isBreak_comma (tail : Text) : IsBreak (.char ',' :: tail) :=
  .inr ⟨tail, .inl rfl⟩

theorem isBreak_newline (tail : Text) : IsBreak (.char '\n' :: tail) :=
  .inr ⟨tail, .inr rfl⟩

/-- No part of a number stands at a break. -/
theorem IsBreak.number_parts {rest : Text} (h : IsBreak rest) :
    rest.takeWhile CodePoint.isDigit = [] ∧ rest.dropWhile CodePoint.isDigit = rest ∧
      fractionDigits rest = ([], rest) ∧ exponent? rest = (none, rest) := by
  rcases h with rfl | ⟨tail, rfl | rfl⟩
  · exact ⟨rfl, rfl, rfl, rfl⟩
  · exact ⟨rfl, rfl, rfl, rfl⟩
  · exact ⟨rfl, rfl, rfl, rfl⟩

/-! ### Integers -/

theorem wholeDigits?_decimal (n : Nat) {rest : Text} (hrest : IsBreak rest) :
    wholeDigits? (Text.decimal n ++ rest) = some (Text.decimal n, rest) := by
  obtain ⟨htake, hdrop, -, -⟩ := hrest.number_parts
  rcases Nat.eq_zero_or_pos n with rfl | hn
  · rfl
  · have hdigits : ∀ c ∈ Text.decimal n, c.isDigit = true := fun _ => isDigit_of_mem_decimal
    have hspan : (Text.decimal n ++ rest).span CodePoint.isDigit = (Text.decimal n, rest) := by
      rw [List.span_eq_takeWhile_dropWhile, List.takeWhile_append_of_pos hdigits,
        List.dropWhile_append_of_pos hdigits, htake, hdrop, List.append_nil]
    have hzero := head?_decimal_ne (Nat.pos_iff_ne_zero.mp hn)
    obtain ⟨c, digits, hcons, hc⟩ := decimal_eq_cons n
    rw [hcons] at hspan hzero ⊢
    rw [List.cons_append] at hspan ⊢
    rw [wholeDigits?.eq_def]
    split
    · rename_i h
      exact absurd (congrArg some (List.cons.inj h).1) hzero
    · rename_i h
      obtain ⟨rfl, rfl⟩ := List.cons.inj h
      rw [if_pos hc, hspan]
    · rename_i h
      exact absurd h (by simp)

theorem magnitude?_decimal (negative : Bool) {n : Nat} (hn : (Text.decimal n).length ≤ maxDigits)
    {rest : Text} (hrest : IsBreak rest) :
    magnitude? negative (Text.decimal n ++ rest) =
      some (.ok (.int (if negative then -(n : Int) else n)), rest) := by
  obtain ⟨-, -, hfraction, hexponent⟩ := hrest.number_parts
  have hinteger : integer negative (Text.decimal n) =
      .ok (.int (if negative then -(n : Int) else n)) := by
    rw [integer, if_neg (Nat.not_lt.mpr hn), Text.digitsValue_decimal]
  simp only [magnitude?, wholeDigits?_decimal n hrest, Option.bind_eq_bind, Option.bind_some,
    hfraction, hexponent, and_self, if_true, hinteger]

theorem number?_integer {n : Int} (hn : (Text.decimal n.natAbs).length ≤ maxDigits) {rest : Text}
    (hrest : IsBreak rest) : number? (Text.integer n ++ rest) = some (.ok (.int n), rest) := by
  cases n with
  | ofNat n =>
    -- a digit is no minus sign
    have hsign : number? (Text.decimal n ++ rest) = magnitude? false (Text.decimal n ++ rest) := by
      obtain ⟨c, digits, hcons, hc⟩ := decimal_eq_cons n
      rw [hcons, List.cons_append, number?.eq_def]
      split
      · rename_i h
        rw [(List.cons.inj h).1] at hc
        exact absurd hc (by decide)
      · rfl
    exact hsign.trans (magnitude?_decimal false hn hrest)
  | negSucc n => exact magnitude?_decimal true hn hrest

end Json

/-! ### Scalars -/

/-- A scalar that is read back as it was written. -/
def Scalar.Restorable : Scalar → Prop
  | .null => True
  | .bool _ => True
  | .int n => (Text.decimal n.natAbs).length ≤ Json.maxDigits
  | .float _ => False
  | .text s => s.IsJoined

namespace Json

theorem exists_isDigit_integer (n : Int) (rest : Text) :
    ∃ c ∈ (Text.integer n ++ rest).take 2, c.isDigit = true := by
  cases n with
  | ofNat n =>
    obtain ⟨c, digits, h, hc⟩ := decimal_eq_cons n
    refine ⟨c, ?_, hc⟩
    show c ∈ (Text.decimal n ++ rest).take 2
    rw [h]
    exact List.mem_cons_self
  | negSucc n =>
    obtain ⟨c, digits, h, hc⟩ := decimal_eq_cons (n + 1)
    refine ⟨c, ?_, hc⟩
    show c ∈ (.char '-' :: Text.decimal (n + 1) ++ rest).take 2
    rw [h]
    exact List.mem_cons_of_mem _ List.mem_cons_self

/-- A name of a value at the front of a text. -/
def namedAtom? (s : Text) : Option (Except Limit Scalar × Text) :=
  names.findSome? fun (name, atom) => (Text.consume? name s).map (.ok atom, ·)

/-- No name of a value begins like an integer. -/
theorem namedAtom?_integer (n : Int) (rest : Text) : namedAtom? (Text.integer n ++ rest) = none := by
  have hnames : ∀ e ∈ names, 2 ≤ e.1.length ∧ ∀ c ∈ e.1.take 2, c.isDigit = false := by
    decide +kernel
  obtain ⟨c, hmem, hc⟩ := exists_isDigit_integer n rest
  rw [namedAtom?, List.findSome?_eq_none_iff]
  intro e he
  obtain ⟨hlength, hdigit⟩ := hnames e he
  rw [Option.map_eq_none_iff, Option.eq_none_iff_forall_ne_some]
  intro tail htail
  rw [Text.consume?_eq_some_iff.mp htail, List.take_append_of_le_length hlength] at hmem
  exact absurd (hdigit c hmem) (by simp [hc])

theorem namedAtom?_null (rest : Text) :
    namedAtom? (↑"null" ++ rest) = some (.ok .null, rest) := by
  have hnull : Text.consume? "null" (↑"null" ++ rest) = some rest :=
    Text.consume?_eq_some_iff.mpr rfl
  simp only [namedAtom?, names, List.findSome?_cons, hnull, Option.map_some]

theorem namedAtom?_true (rest : Text) :
    namedAtom? (↑"true" ++ rest) = some (.ok (.bool true), rest) := by
  have hnull : Text.consume? "null" (↑"true" ++ rest) = none := by
    rw [Text.ofString_ofList, Text.ofString_ofList]
    rfl
  have htrue : Text.consume? "true" (↑"true" ++ rest) = some rest :=
    Text.consume?_eq_some_iff.mpr rfl
  simp only [namedAtom?, names, List.findSome?_cons, hnull, htrue, Option.map_some,
    Option.map_none]

theorem namedAtom?_false (rest : Text) :
    namedAtom? (↑"false" ++ rest) = some (.ok (.bool false), rest) := by
  have hnull : Text.consume? "null" (↑"false" ++ rest) = none := by
    rw [Text.ofString_ofList, Text.ofString_ofList]
    rfl
  have htrue : Text.consume? "true" (↑"false" ++ rest) = none := by
    rw [Text.ofString_ofList, Text.ofString_ofList]
    rfl
  have hfalse : Text.consume? "false" (↑"false" ++ rest) = some rest :=
    Text.consume?_eq_some_iff.mpr rfl
  simp only [namedAtom?, names, List.findSome?_cons, hnull, htrue, hfalse, Option.map_some,
    Option.map_none]

/-- Names and integers are read back. -/
theorem atom?_written {s : Scalar} (hs : s.Restorable) (htext : ∀ t, s ≠ .text t) {rest : Text}
    (hrest : IsBreak rest) : atom? (s.written ++ rest) = some (.ok s, rest) := by
  have hatom (t : Text) : atom? t = (namedAtom? t <|> number? t) := rfl
  cases s with
  | null =>
    show atom? (↑"null" ++ rest) = _
    rw [hatom, namedAtom?_null]
    rfl
  | bool b =>
    cases b with
    | true =>
      show atom? (↑"true" ++ rest) = _
      rw [hatom, namedAtom?_true]
      rfl
    | false =>
      show atom? (↑"false" ++ rest) = _
      rw [hatom, namedAtom?_false]
      rfl
  | int n =>
    show atom? (Text.integer n ++ rest) = _
    rw [hatom, namedAtom?_integer, number?_integer hs hrest]
    rfl
  | float x => exact absurd hs id
  | text t => exact absurd rfl (htext t)

end Json

end UtilityCss
