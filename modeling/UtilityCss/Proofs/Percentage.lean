/-
Fractions as percentages.

A width or a height may be a fraction `n/m`.  It is written in percent with six decimals, after the
quotient and the product by a hundred have each been rounded to 53 significant binary digits.  The
three roundings keep the order of the fractions, and together they move none by a millionth.

* `Number.exists_fixedNumeral` — with a fixed number of decimals, a numeral of the rounded value is
  written;
* `Number.percent` — the percentage before it is written;
* `Number.percent_mono`, `Number.abs_percent_sub_le` — its order and its error;
* `Fraction` — two short rows of digits, the second one not zero in value;
* `Fraction.exists_isWritten` — every fraction is a width and a height, and what is written depends
  on its value only;
* `fraction_percentages` — the percentages of two fractions are in the order of the fractions.
-/
import UtilityCss.Proofs.FreeForms
import UtilityCss.Proofs.Rounding
import UtilityCss.Proofs.ShortestDecimal

namespace UtilityCss

namespace Number

/-! ### A fixed number of decimals -/

/-- What is written with a fixed number of decimals is a numeral of the rounded value. -/
theorem exists_fixedNumeral {places : Nat} (hplaces : 0 < places) {q : Rat} (hq : 0 ≤ q) :
    ∃ n : DecimalNumeral, fixed places q = n.text ∧ n.fraction.length = places ∧
      n.value = roundHalfEven (q * 10 ^ places) / 10 ^ places := by
  have hscale : mkRat (Nat.pow 10 places : Nat) 1 = (10 : Rat) ^ places := by
    rw [Rat.mkRat_one, Int.cast_natCast, Nat.pow_eq, Nat.cast_pow]
    rfl
  set scaled := roundHalfEven (q * 10 ^ places) with hscaled
  have hnonneg : 0 ≤ scaled := by
    have hten : (0 : Rat) ≤ 10 ^ places := pow_nonneg (by norm_num) places
    have hzero := roundHalfEven_mono (mul_nonneg hq hten)
    rwa [← Int.cast_zero, roundHalfEven_intCast] at hzero
  -- the digits before and after the point
  set whole := Text.decimal (scaled.toNat / 10 ^ places) with hwhole
  set fraction := Text.padded places (Text.decimal (scaled.toNat % 10 ^ places)) with hfraction
  have hlength : fraction.length = places := by
    refine length_padded (length_decimal_le hplaces ?_)
    exact Nat.mod_lt _ (Nat.pow_pos (by decide))
  have hdigits : ∀ c ∈ whole ++ fraction, c.isDigit = true := by
    intro c hc
    rcases List.mem_append.mp hc with hc | hc
    · exact isDigit_of_mem_decimal hc
    · exact isDigit_of_mem_padded (fun _ => isDigit_of_mem_decimal) hc
  have hvalue : Text.digitsValue (whole ++ fraction) = scaled.toNat := by
    rw [digitsValue_append, hlength, hfraction, digitsValue_padded, hwhole,
      Text.digitsValue_decimal, Text.digitsValue_decimal, Nat.mul_comm]
    exact Nat.div_add_mod _ _
  refine ⟨⟨whole, fraction, decimal_ne_nil _, hdigits⟩, ?_, hlength, ?_⟩
  · have hne : fraction ≠ [] := List.ne_nil_of_length_pos (by omega)
    rw [DecimalNumeral.text, DecimalNumeral.pointed, if_neg hne, fixed, hscale]
    rfl
  · rw [DecimalNumeral.value, hvalue, hlength, Rat.mkRat_eq_div, Int.toNat_of_nonneg hnonneg]
    push_cast
    rfl

/-! ### The rounded product -/

/-- The percentage of a quotient: the quotient and the product by a hundred are each rounded. -/
def percent (q : Rat) : Rat :=
  roundToBits 53 (roundToBits 53 q * 100)

theorem percent_nonneg {q : Rat} (hq : 0 ≤ q) : 0 ≤ percent q := by
  have hquotient : 0 ≤ roundToBits 53 q := roundToBits_nonneg (by decide) hq
  exact roundToBits_nonneg (by decide) (mul_nonneg hquotient (by norm_num))

theorem percent_mono {p q : Rat} (hp : 0 ≤ p) (h : p ≤ q) : percent p ≤ percent q := by
  have hquotient : roundToBits 53 p ≤ roundToBits 53 q := roundToBits_mono (by decide) hp h
  have hnonneg : 0 ≤ roundToBits 53 p := roundToBits_nonneg (by decide) hp
  refine roundToBits_mono (by decide) (mul_nonneg hnonneg (by norm_num)) ?_
  exact mul_le_mul_of_nonneg_right hquotient (by norm_num)

/-- Both roundings together are off by much less than a half of the last decimal. -/
theorem abs_percent_sub_le {q : Rat} (hq : 0 ≤ q) : |percent q - 100 * q| ≤ q / 2 ^ 45 := by
  set quotient := roundToBits 53 q with hquotient
  have hnonneg : 0 ≤ quotient := roundToBits_nonneg (by decide) hq
  have hfirst : |quotient - q| ≤ q / 2 ^ 53 := abs_roundToBits_sub_le 53 hq
  have hsecond : |percent q - quotient * 100| ≤ quotient * 100 / 2 ^ 53 :=
    abs_roundToBits_sub_le 53 (mul_nonneg hnonneg (by norm_num))
  -- the error of the quotient is taken a hundred times, that of the product once
  rw [abs_le] at hfirst hsecond ⊢
  norm_num at hfirst hsecond ⊢
  constructor
  · linarith [hfirst.1, hfirst.2, hsecond.1]
  · linarith [hfirst.1, hfirst.2, hsecond.2]

end Number

theorem percentage_eq (n m : Nat) :
    percentage n m = Number.fixed 6 (Number.percent (n / m)) ++ "%" := by
  have hratio : mkRat n m = (n / m : Rat) := by
    rw [Rat.mkRat_eq_div]
    push_cast
    rfl
  have hhundred : mkRat 100 1 = (100 : Rat) := Rat.mkRat_one 100
  rw [percentage, hratio, hhundred]
  rfl

/-! ### Fractions -/

/-- A fraction: one to four digits on both sides of a slash, the lower ones not zero in value. -/
structure Fraction where
  numerator : Text
  denominator : Text
  numerator_length : numerator.length ∈ [1, 2, 3, 4]
  numerator_isDigit : ∀ c ∈ numerator, c.isDigit = true
  denominator_length : denominator.length ∈ [1, 2, 3, 4]
  denominator_isDigit : ∀ c ∈ denominator, c.isDigit = true
  denominator_ne_zero : Text.digitsValue denominator ≠ 0

namespace Fraction

variable (f : Fraction)

/-- The fraction as it is written. -/
def text : Text :=
  f.numerator ++ "/" ++ f.denominator

/-- The number that the fraction stands for. -/
def ratio : Rat :=
  Text.digitsValue f.numerator / Text.digitsValue f.denominator

theorem ratio_nonneg : 0 ≤ f.ratio :=
  div_nonneg (Nat.cast_nonneg _) (Nat.cast_nonneg _)

theorem ratio_lt : f.ratio < 10 ^ 4 := by
  have hlength : f.numerator.length ≤ 4 := by
    have hmem := f.numerator_length
    simp only [List.mem_cons, List.not_mem_nil, or_false] at hmem
    omega
  have hnumerator : Text.digitsValue f.numerator < 10 ^ 4 :=
    (digitsValue_lt_length f.numerator_isDigit).trans_le (Nat.pow_le_pow_right (by decide) hlength)
  have hdenominator : (1 : Rat) ≤ Text.digitsValue f.denominator := by
    exact_mod_cast Nat.one_le_iff_ne_zero.mpr f.denominator_ne_zero
  calc f.ratio ≤ Text.digitsValue f.numerator := div_le_self (Nat.cast_nonneg _) hdenominator
    _ < 10 ^ 4 := by exact_mod_cast hnumerator

theorem isDigits_of_length {s : Text} (hlength : s.length ∈ [1, 2, 3, 4])
    (hdigits : ∀ c ∈ s, c.isDigit = true) : isDigits 1 4 s = true := by
  simp only [List.mem_cons, List.not_mem_nil, or_false] at hlength
  simp only [isDigits, Bool.and_eq_true, decide_eq_true_eq, List.all_eq_true]
  exact ⟨⟨by omega, by omega⟩, hdigits⟩

/-- A fraction is read as its percentage. -/
theorem fraction?_text :
    fraction? f.text =
      some (percentage (Text.digitsValue f.numerator) (Text.digitsValue f.denominator)) := by
  have hslash : CodePoint.char '/' ∉ f.numerator := fun hmem =>
    absurd (f.numerator_isDigit _ hmem) (by decide)
  have hcut : Text.cut? '/' f.text = some (f.numerator, f.denominator) := by
    refine Text.cut?_eq_some_iff.mpr ⟨hslash, ?_⟩
    rw [text, List.append_assoc]
    rfl
  rw [fraction?, hcut]
  simp only [Option.bind_eq_bind, Option.bind_some,
    isDigits_of_length f.numerator_length f.numerator_isDigit,
    isDigits_of_length f.denominator_length f.denominator_isDigit, Bool.and_self, if_true,
    if_neg f.denominator_ne_zero]

/-- No key has a slash, so a fraction is no key of the spacing scale. -/
theorem value?_text (d : Dimension) :
    d.value? f.text =
      some (percentage (Text.digitsValue f.numerator) (Text.digitsValue f.denominator)) := by
  have hslash : CodePoint.char '/' ∈ f.text := by
    rw [text]
    exact List.mem_append_left _ (List.mem_append_right _ (List.mem_singleton_self _))
  have hkeys : ∀ e ∈ spacingScale, CodePoint.char '/' ∉ e.1 := by decide +kernel
  have hkey : spacingScale.lookup f.text = none := by
    refine Option.eq_none_iff_forall_ne_some.mpr fun value hvalue => ?_
    exact hkeys _ (mem_of_lookup hvalue) hslash
  have hscreen : f.text ≠ "screen" := by
    intro heq
    rw [heq] at hslash
    exact absurd hslash (by decide +kernel)
  rw [Dimension.value?, hkey, if_neg hscreen, f.fraction?_text]
  rfl

/-! ### What is written -/

/-- The rule of a fraction as a width or a height: one declaration, a numeral in percent with six
decimals that is less than a millionth away from a hundred times the fraction. -/
structure IsWritten (d : Dimension) (r : Rule) (n : DecimalNumeral) : Prop where
  resolves : resolve? ((FreeForm.extent d).head ++ f.text) = some r
  declares : r.declarations = [⟨d.property, n.text ++ "%"⟩]
  decimals : n.fraction.length = 6
  isNear : |n.value - 100 * f.ratio| < 1 / 10 ^ 6

theorem abs_rounded_sub_lt {q : Rat} (hq : 0 ≤ q) (hlt : q < 10 ^ 4) :
    |(Number.roundHalfEven (Number.percent q * 10 ^ 6) : Rat) / 10 ^ 6 - 100 * q| <
      1 / 10 ^ 6 := by
  have hpercent := abs_le.mp (Number.abs_percent_sub_le hq)
  have hround := abs_le.mp (Number.abs_roundHalfEven_sub_le (Number.percent q * 10 ^ 6))
  rw [abs_lt]
  norm_num at hpercent hround hlt ⊢
  constructor
  · linarith [hpercent.1, hround.1]
  · linarith [hpercent.2, hround.2]

/-- Every fraction is written, and what is written depends on its value only. -/
theorem exists_isWritten (d : Dimension) :
    ∃ r n, f.IsWritten d r n ∧ n.text = Number.fixed 6 (Number.percent f.ratio) ∧
      n.value = Number.roundHalfEven (Number.percent f.ratio * 10 ^ 6) / 10 ^ 6 := by
  have hplaces : 0 < 6 := by decide
  obtain ⟨n, htext, hdecimals, hvalue⟩ :=
    Number.exists_fixedNumeral hplaces (Number.percent_nonneg f.ratio_nonneg)
  have hresolve := resolve?_of_read? ((FreeForm.extent d).read?_head (f.value?_text d))
  refine ⟨_, n, ⟨hresolve, ?_, hdecimals, ?_⟩, htext.symm, hvalue⟩
  · rw [percentage_eq, ← ratio, htext]
    rfl
  · rw [hvalue]
    exact abs_rounded_sub_lt f.ratio_nonneg f.ratio_lt

end Fraction

/-- Every fraction of short numerals is a width and a height in percent, with six decimals that are
less than a millionth away from the exact value.  A fraction that is not greater than another one
has no greater percentage, and fractions of one value have the same declarations. -/
theorem fraction_percentages (d : Dimension) (f f' : Fraction) :
    ∃ r r' n n', f.IsWritten d r n ∧ f'.IsWritten d r' n' ∧
      (f.ratio ≤ f'.ratio → n.value ≤ n'.value) ∧
      (f.ratio = f'.ratio → r.declarations = r'.declarations) := by
  obtain ⟨r, n, hwritten, htext, hvalue⟩ := f.exists_isWritten d
  obtain ⟨r', n', hwritten', htext', hvalue'⟩ := f'.exists_isWritten d
  refine ⟨r, r', n, n', hwritten, hwritten', fun hle => ?_, fun heq => ?_⟩
  · have hpercent := Number.percent_mono f.ratio_nonneg hle
    have hscaled := Number.roundHalfEven_mono
      (mul_le_mul_of_nonneg_right hpercent (by norm_num : (0 : Rat) ≤ 10 ^ 6))
    rw [hvalue, hvalue']
    exact div_le_div_of_nonneg_right (by exact_mod_cast hscaled) (by norm_num)
  · rw [hwritten.declares, hwritten'.declares, htext, htext', heq]

/-- A half in two spellings, and a third with a smaller fraction beside it. -/
theorem fraction_percentages_half :
    (∃ r r', resolve? "w-02/4" = some r ∧ resolve? "w-500/1000" = some r' ∧
      r.declarations = r'.declarations) ∧
    ∃ n n' : DecimalNumeral, n.value ≤ n'.value ∧ |n.value - 333 / 10| < 1 / 10 ^ 6 ∧
      |n'.value - 100 / 3| < 1 / 10 ^ 6 := by
  constructor
  · obtain ⟨r, r', n, n', hwritten, hwritten', -, hequal⟩ := fraction_percentages .width
      ⟨"02", "4", by decide, by decide, by decide, by decide, by decide⟩
      ⟨"500", "1000", by decide, by decide, by decide, by decide, by decide⟩
    have hratio : (2 : Rat) / 4 = 500 / 1000 := by norm_num
    exact ⟨r, r', hwritten.resolves, hwritten'.resolves, hequal hratio⟩
  · obtain ⟨r, r', n, n', hwritten, hwritten', hordered, -⟩ := fraction_percentages .height
      ⟨"333", "1000", by decide, by decide, by decide, by decide, by decide⟩
      ⟨"1", "3", by decide, by decide, by decide, by decide, by decide⟩
    have hratio : (333 : Rat) / 1000 ≤ 1 / 3 := by norm_num
    have hnear : |n.value - 100 * (333 / 1000)| < 1 / 10 ^ 6 := hwritten.isNear
    have hnear' : |n'.value - 100 * (1 / 3)| < 1 / 10 ^ 6 := hwritten'.isNear
    refine ⟨n, n', hordered hratio, ?_, ?_⟩
    · norm_num at hnear ⊢
      exact hnear
    · norm_num at hnear' ⊢
      exact hnear'

end UtilityCss
