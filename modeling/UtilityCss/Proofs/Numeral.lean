/-
Numerals are values.

Every numeral that gets into a declaration is made of the characters of values, without round
brackets and stars:

* `digitsValue_lt_length` — a row of digits has room for the number it stands for;
* `Text.digitsValue_decimal` — a decimal numeral has the value it was written for;
* `digitsValue_append`, `digitsValue_padded` — the value of digits side by side;
* `hexDigit?_hexDigit`, `hex_succ`, `hex_two` — hexadecimal numerals, digit by digit;
* `forall_mem_decimal`, `forall_mem_integer` — whole numbers;
* `isFlat_fixed` — a fixed number of decimal places;
* `Number.Binary64.forall_mem_render` — a number with digits after the point, and with it
  `Number.Binary64.forall_mem_general`, the numeral of an opacity.
-/
import Mathlib.Data.Nat.Digits.Defs
import UtilityCss.Number.Binary64
import UtilityCss.Proofs.Alphabet

namespace UtilityCss

/-! ### Whole numbers -/

theorem isDigit_of_mem_decimal {n : Nat} {c : CodePoint} (h : c ∈ Text.decimal n) :
    c.isDigit = true := by
  rw [Text.decimal, List.mem_map] at h
  obtain ⟨d, hd, rfl⟩ := h
  exact Nat.isDigit_of_mem_toDigits (by decide) (by decide) hd

theorem decimal_ne_nil (n : Nat) : Text.decimal n ≠ [] := by
  rw [Text.decimal]
  exact fun h => Nat.toDigits_ne_nil (List.map_eq_nil_iff.mp h)

/-- A row of digits stands for a number that has no more of them. -/
theorem digitsValue_lt_length {s : Text} (h : ∀ c ∈ s, c.isDigit = true) :
    Text.digitsValue s < 10 ^ s.length := by
  induction s using List.reverseRecOn with
  | nil => decide
  | append_singleton s c ih =>
    have hdigit := CodePoint.isDigit_iff.mp (h c (by simp))
    have hs := ih fun d hd => h d (List.mem_append_left _ hd)
    rw [Text.digitsValue_concat, List.length_append, List.length_singleton, Nat.pow_succ,
      Text.digitValue]
    omega

theorem decimal_of_lt {n : Nat} (h : n < 10) : Text.decimal n = [.char n.digitChar] := by
  rw [Text.decimal, Nat.toDigits_of_lt_base h]
  rfl

theorem decimal_of_le {n : Nat} (h : 10 ≤ n) :
    Text.decimal n = Text.decimal (n / 10) ++ [.char (n % 10).digitChar] := by
  rw [Text.decimal, Nat.toDigits_of_base_le (by decide) h, List.map_append]
  rfl

theorem Text.digitsValue_decimal (n : Nat) : digitsValue (decimal n) = n := by
  have hdigit : ∀ d < 10, digitValue (.char d.digitChar) = d := by decide
  induction n using Nat.strongRecOn with
  | ind n ih =>
    rcases Nat.lt_or_ge n 10 with h | h
    · rw [decimal_of_lt h, digitsValue, List.foldl_cons, List.foldl_nil, hdigit n h]
      omega
    · rw [decimal_of_le h, digitsValue_concat, ih (n / 10) (by omega),
        hdigit (n % 10) (Nat.mod_lt n (by decide))]
      omega

theorem head?_decimal_ne {n : Nat} (h : n ≠ 0) : (Text.decimal n).head? ≠ some (.char '0') := by
  have hdigit : ∀ d < 10, d ≠ 0 → some (CodePoint.char d.digitChar) ≠ some (.char '0') := by
    decide
  induction n using Nat.strongRecOn with
  | ind n ih =>
    rcases Nat.lt_or_ge n 10 with hn | hn
    · rw [decimal_of_lt hn]
      exact hdigit n hn h
    · rw [decimal_of_le hn, List.head?_append_of_ne_nil _ (decimal_ne_nil _)]
      exact ih (n / 10) (by omega) (by omega)

theorem decimal_eq_cons (n : Nat) :
    ∃ c digits, Text.decimal n = c :: digits ∧ c.isDigit = true := by
  obtain ⟨c, digits, h⟩ := List.exists_cons_of_ne_nil (decimal_ne_nil n)
  exact ⟨c, digits, h, isDigit_of_mem_decimal (h ▸ List.mem_cons_self)⟩

theorem length_decimal_le {n width : Nat} (hwidth : 0 < width) (h : n < 10 ^ width) :
    (Text.decimal n).length ≤ width := by
  rw [Text.decimal, List.length_map]
  exact Nat.toDigits_length 10 n width hwidth h

/-- The digits in front count as many places higher as there are digits behind them. -/
theorem digitsValue_append (s t : Text) :
    Text.digitsValue (s ++ t) = Text.digitsValue s * 10 ^ t.length + Text.digitsValue t := by
  induction t using List.reverseRecOn with
  | nil => simp [Text.digitsValue]
  | append_singleton t c ih =>
    have hplaces : Text.digitsValue s * 10 ^ (t.length + 1) =
        10 * (Text.digitsValue s * 10 ^ t.length) := by
      rw [Nat.pow_succ, ← Nat.mul_assoc, Nat.mul_comm]
    rw [← List.append_assoc, Text.digitsValue_concat, Text.digitsValue_concat, ih,
      List.length_append, List.length_singleton, hplaces]
    omega

theorem digitsValue_zeros (n : Nat) : Text.digitsValue (Text.zeros n) = 0 := by
  induction n with
  | zero => rfl
  | succ n ih =>
    have hzero : Text.digitValue '0' = 0 := by decide
    rw [Text.zeros, List.replicate_succ', Text.digitsValue_concat, ← Text.zeros, ih, hzero]

/-- Zeros in front do not count. -/
theorem digitsValue_padded (width : Nat) (digits : Text) :
    Text.digitsValue (Text.padded width digits) = Text.digitsValue digits := by
  rw [Text.padded, digitsValue_append, digitsValue_zeros, Nat.zero_mul, Nat.zero_add]

theorem length_padded {width : Nat} {digits : Text} (h : digits.length ≤ width) :
    (Text.padded width digits).length = width := by
  rw [Text.padded, List.length_append, Text.zeros, List.length_replicate]
  omega

theorem forall_mem_decimal (n : Nat) : ∀ c ∈ Text.decimal n, isFlatChar c = true :=
  fun _ hc => isFlatChar_of_isDigit (isDigit_of_mem_decimal hc)

theorem forall_mem_integer (n : Int) : ∀ c ∈ Text.integer n, isFlatChar c = true := by
  cases n with
  | ofNat n => exact forall_mem_decimal n
  | negSucc n => exact List.forall_mem_cons.mpr ⟨rfl, forall_mem_decimal (n + 1)⟩

theorem isDigit_of_mem_zeros {n : Nat} {c : CodePoint} (h : c ∈ Text.zeros n) :
    c.isDigit = true := by
  rw [List.eq_of_mem_replicate h]
  rfl

theorem isDigit_of_mem_padded {width : Nat} {digits : Text} {c : CodePoint}
    (hdigits : ∀ c ∈ digits, c.isDigit = true) (h : c ∈ Text.padded width digits) :
    c.isDigit = true := by
  rcases List.mem_append.mp h with h | h
  · exact isDigit_of_mem_zeros h
  · exact hdigits c h

/-! ### Hexadecimal numerals -/

/-- The digit of a number below sixteen. -/
def hexDigit (n : Nat) : CodePoint :=
  .char n.digitChar

theorem hexDigit?_hexDigit {n : Nat} (h : n < 16) : Text.hexDigit? (hexDigit n) = some n := by
  have hdigits : ∀ n < 16, Text.hexDigit? (hexDigit n) = some n := by decide
  exact hdigits n h

/-- One digit more stands for the remainder by sixteen. -/
theorem hex_succ {width : Nat} (hwidth : 0 < width) (n : Nat) :
    Text.hex (width + 1) n = Text.hex width (n / 16) ++ [hexDigit (n % 16)] := by
  rcases Nat.lt_or_ge n 16 with h | h
  · -- a number below sixteen has a single digit, and zeros in front of it
    have hzeros : Text.zeros width = Text.zeros (width - 1) ++ [.char '0'] := by
      rw [Text.zeros, Text.zeros, ← List.replicate_succ', Nat.sub_add_cancel hwidth]
    rw [Nat.div_eq_of_lt h, Nat.mod_eq_of_lt h, Text.hex, Text.hex, Nat.toDigits_of_lt_base h,
      Nat.toDigits_of_lt_base (by decide : 0 < 16)]
    show Text.zeros width ++ [hexDigit n] = Text.zeros (width - 1) ++ [.char '0'] ++ [hexDigit n]
    rw [hzeros]
  · rw [Text.hex, Text.hex, Nat.toDigits_of_base_le (by decide) h, List.map_append, Text.padded,
      Text.padded, List.length_append, List.append_assoc]
    simp only [List.map_cons, List.map_nil, List.length_cons, List.length_nil, Nat.zero_add,
      Nat.add_sub_add_right]
    rfl

theorem hex_one {n : Nat} (h : n < 16) : Text.hex 1 n = [hexDigit n] := by
  rw [Text.hex, Nat.toDigits_of_lt_base h]
  rfl

theorem hex_two {n : Nat} (h : n < 256) :
    Text.hex 2 n = [hexDigit (n / 16), hexDigit (n % 16)] := by
  rw [hex_succ (by decide), hex_one (by omega)]
  rfl

/-! ### Decimal places -/

theorem isFlat_fixed (places : Nat) (q : Rat) : IsFlat (Number.fixed places q) := by
  refine IsFlat.append (IsFlat.append ⟨decimal_ne_nil _, forall_mem_decimal _⟩ ?_) fun c hc => ?_
  · exact Text.forall_mem_ofString rfl
  · exact isFlatChar_of_isDigit (isDigit_of_mem_padded (fun _ => isDigit_of_mem_decimal) hc)

namespace Number

/-! ### Significant digits -/

theorem Decimal.isDigit_of_mem_ofScaled {n : Nat} {shift : Int} {c : CodePoint}
    (h : c ∈ (Decimal.ofScaled n shift).digits) : c.isDigit = true := by
  rw [Decimal.ofScaled, List.mem_reverse] at h
  exact isDigit_of_mem_decimal (List.mem_reverse.mp ((List.dropWhile_sublist _).subset h))

theorem Decimal.forall_mem_exponentMark (e : Int) :
    ∀ c ∈ Decimal.exponentMark e, isFlatChar c = true := by
  refine List.forall_mem_cons.mpr ⟨rfl, List.forall_mem_cons.mpr ⟨?_, fun c hc => ?_⟩⟩
  · split <;> rfl
  · exact isFlatChar_of_isDigit (isDigit_of_mem_padded (fun _ => isDigit_of_mem_decimal) hc)

theorem Decimal.forall_mem_positional {style : Decimal.Style} {d : Decimal}
    (hmark : ∀ c ∈ style.wholeMark, isFlatChar c = true) (hd : ∀ c ∈ d.digits, c.isDigit = true) :
    ∀ c ∈ d.positional style, isFlatChar c = true := by
  have hpoint : ∀ c ∈ Text.ofString ".", isFlatChar c = true :=
    Text.forall_mem_ofString rfl
  rw [Decimal.positional]
  split
  · refine List.forall_mem_append.mpr ⟨List.forall_mem_append.mpr ⟨?_, ?_⟩, ?_⟩
    · exact Text.forall_mem_ofString rfl
    · exact fun c hc => isFlatChar_of_isDigit (isDigit_of_mem_zeros hc)
    · exact fun c hc => isFlatChar_of_isDigit (hd c hc)
  · -- the whole part is filled up with zeros where the digits end before the point
    have hwhole : ∀ places, ∀ c ∈ d.digits.take places ++
        Text.zeros (places - (d.digits.take places).length), isFlatChar c = true := by
      intro places
      refine List.forall_mem_append.mpr ⟨fun c hc => ?_, fun c hc => ?_⟩
      · exact isFlatChar_of_isDigit (hd c (List.mem_of_mem_take hc))
      · exact isFlatChar_of_isDigit (isDigit_of_mem_zeros hc)
    simp only
    split
    · exact List.forall_mem_append.mpr ⟨hwhole _, hmark⟩
    · rename_i hfraction
      refine List.forall_mem_append.mpr
        ⟨List.forall_mem_append.mpr ⟨hwhole _, hpoint⟩, fun c hc => ?_⟩
      exact isFlatChar_of_isDigit (hd c (List.mem_of_mem_drop hc))

theorem Decimal.forall_mem_scientific {d : Decimal} (hd : ∀ c ∈ d.digits, c.isDigit = true) :
    ∀ c ∈ d.scientific, isFlatChar c = true := by
  rw [Decimal.scientific]
  split
  · simp
  · rename_i digit h
    rw [h] at hd
    exact List.forall_mem_cons.mpr
      ⟨isFlatChar_of_isDigit (hd _ List.mem_cons_self), Decimal.forall_mem_exponentMark _⟩
  · rename_i digit fraction _ h
    rw [h] at hd
    refine List.forall_mem_cons.mpr ⟨isFlatChar_of_isDigit (hd _ List.mem_cons_self), ?_⟩
    refine List.forall_mem_cons.mpr ⟨rfl, List.forall_mem_append.mpr ⟨fun c hc => ?_, ?_⟩⟩
    · exact isFlatChar_of_isDigit (hd c (List.mem_cons_of_mem _ hc))
    · exact Decimal.forall_mem_exponentMark _

theorem Decimal.forall_mem_render {style : Decimal.Style} {d : Decimal}
    (hmark : ∀ c ∈ style.wholeMark, isFlatChar c = true) (hd : ∀ c ∈ d.digits, c.isDigit = true) :
    ∀ c ∈ d.render style, isFlatChar c = true := by
  rw [Decimal.render]
  split
  · exact Decimal.forall_mem_positional hmark hd
  · exact Decimal.forall_mem_scientific hd

/-- A numeral is made of flat characters, if its mark and its digits are. -/
theorem Binary64.forall_mem_render {style : Decimal.Style} {digits : Rat → Decimal}
    (hmark : ∀ c ∈ style.wholeMark, isFlatChar c = true)
    (hdigits : ∀ q, ∀ c ∈ (digits q).digits, c.isDigit = true) (x : Binary64) :
    ∀ c ∈ x.render style digits, isFlatChar c = true := by
  have hsign (negative : Bool) :
      ∀ c ∈ Text.ofString (if negative then "-" else ""), isFlatChar c = true := by
    split <;> exact Text.forall_mem_ofString rfl
  cases x with
  | nan => exact Text.forall_mem_ofString rfl
  | infinite negative =>
    exact List.forall_mem_append.mpr
      ⟨hsign negative, Text.forall_mem_ofString rfl⟩
  | finite negative q =>
    refine List.forall_mem_append.mpr ⟨hsign negative, ?_⟩
    split
    · exact List.forall_mem_append.mpr ⟨Text.forall_mem_ofString rfl, hmark⟩
    · exact Decimal.forall_mem_render hmark (hdigits q)

/-- The numeral of an opacity is made of flat characters. -/
theorem Binary64.forall_mem_general (x : Binary64) : ∀ c ∈ x.general, isFlatChar c = true :=
  forall_mem_render (Text.forall_mem_ofString rfl) (fun _ _ => Decimal.isDigit_of_mem_ofScaled) x

end Number

end UtilityCss
