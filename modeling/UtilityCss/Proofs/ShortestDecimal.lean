/-
The shortest decimal numeral of a number.

A numeral is digits, and perhaps a point with digits after it.  Of the numerals of one number at
most one is shortest: a row of digits is determined by its length and its value.

* `eq_of_digitsValue_eq` — rows of digits of one length and one value are equal;
* `DecimalNumeral` — a numeral, with its text and its value;
* `DecimalNumeral.IsShortest.eq` — the shortest numeral of a value, which is the only one;
* `DecimalNumeral.value_eq_iff` — numerals of one value, told by their digits;
* `DecimalNumeral.isShortest_of_whole` — with a single digit before the point and no zero at the
  end, a numeral is the shortest of its value;
* `exists_percentNumeral` — an opacity in percent is written by such a numeral.
-/
import Mathlib.Algebra.Group.Nat.Defs
import UtilityCss.Proofs.Numeral

namespace UtilityCss

/-! ### Rows of digits -/

theorem digitValue_lt {c : CodePoint} (h : c.isDigit = true) : Text.digitValue c < 10 := by
  have hrange := CodePoint.isDigit_iff.mp h
  rw [Text.digitValue]
  omega

theorem eq_of_digitValue_eq {c d : CodePoint} (hc : c.isDigit = true) (hd : d.isDigit = true)
    (h : Text.digitValue c = Text.digitValue d) : c = d := by
  have hc := CodePoint.isDigit_iff.mp hc
  have hd := CodePoint.isDigit_iff.mp hd
  rw [Text.digitValue, Text.digitValue] at h
  have hnumber : c.toNat = d.toNat := by omega
  rw [← CodePoint.ofNat_toNat c, hnumber, CodePoint.ofNat_toNat]

/-- A row of digits is determined by its length and its value. -/
theorem eq_of_digitsValue_eq {s t : Text} (hs : ∀ c ∈ s, c.isDigit = true)
    (ht : ∀ c ∈ t, c.isDigit = true) (hlength : s.length = t.length)
    (h : Text.digitsValue s = Text.digitsValue t) : s = t := by
  induction s using List.reverseRecOn generalizing t with
  | nil => exact (List.length_eq_zero_iff.mp hlength.symm).symm
  | append_singleton s c ih =>
    rcases List.eq_nil_or_concat t with rfl | ⟨t, d, rfl⟩
    · exact absurd hlength (by simp)
    · rw [List.concat_eq_append] at ht hlength h ⊢
      obtain ⟨hs, hc⟩ := List.forall_mem_append.mp hs
      obtain ⟨ht, hd⟩ := List.forall_mem_append.mp ht
      have hc := hc c (List.mem_singleton_self c)
      have hd := hd d (List.mem_singleton_self d)
      have hclt := digitValue_lt hc
      have hdlt := digitValue_lt hd
      rw [Text.digitsValue_concat, Text.digitsValue_concat] at h
      have hlast : c = d := eq_of_digitValue_eq hc hd (by omega)
      have hinit : s = t := ih hs ht (by simpa using hlength) (by omega)
      rw [hlast, hinit]

/-! ### Numerals -/

/-- A decimal numeral: digits, and perhaps a point with digits after it. -/
structure DecimalNumeral where
  whole : Text
  fraction : Text
  whole_ne_nil : whole ≠ []
  isDigit : ∀ c ∈ whole ++ fraction, c.isDigit = true

namespace DecimalNumeral

/-- The digits with a point between the two parts, if there is a second one. -/
def pointed (whole fraction : Text) : Text :=
  if fraction = [] then whole else whole ++ "." ++ fraction

/-- The numeral as it is written. -/
def text (n : DecimalNumeral) : Text :=
  pointed n.whole n.fraction

/-- The number that a numeral stands for. -/
def value (n : DecimalNumeral) : Rat :=
  mkRat (Text.digitsValue (n.whole ++ n.fraction)) (10 ^ n.fraction.length)

/-- Every other numeral of the same value is longer. -/
def IsShortest (n : DecimalNumeral) : Prop :=
  ∀ m : DecimalNumeral, m.value = n.value → m = n ∨ n.text.length < m.text.length

/-- Numerals that are shortest for one value are the same. -/
theorem IsShortest.eq {m n : DecimalNumeral} (hm : m.IsShortest)
    (hn : n.IsShortest) (h : m.value = n.value) : m = n := by
  rcases hn m h with heq | hlt
  · exact heq
  · rcases hm n h.symm with heq | hlt'
    · exact heq.symm
    · exact absurd hlt hlt'.asymm

theorem length_text (n : DecimalNumeral) :
    n.text.length = n.whole.length + if n.fraction.length = 0 then 0 else n.fraction.length + 1 := by
  have hpoint : (Text.ofString ".").length = 1 := rfl
  rw [text, pointed]
  by_cases hfraction : n.fraction = []
  · rw [if_pos hfraction, if_pos (by rw [hfraction]; rfl), Nat.add_zero]
  · rw [if_neg hfraction, if_neg (mt List.length_eq_zero_iff.mp hfraction), List.length_append,
      List.length_append, hpoint]
    omega

theorem mkRat_eq_iff {a b i j : Nat} :
    mkRat a (10 ^ i) = mkRat b (10 ^ j) ↔ a * 10 ^ j = b * 10 ^ i := by
  rw [Rat.mkRat_eq_iff (Nat.pow_pos (by decide)).ne' (Nat.pow_pos (by decide)).ne']
  exact ⟨fun h => by exact_mod_cast h, fun h => by exact_mod_cast h⟩

theorem value_eq_iff {m n : DecimalNumeral} :
    m.value = n.value ↔
      Text.digitsValue (m.whole ++ m.fraction) * 10 ^ n.fraction.length =
        Text.digitsValue (n.whole ++ n.fraction) * 10 ^ m.fraction.length :=
  mkRat_eq_iff

/-- Numerals with equally many digits before and after the point. -/
theorem eq_of_value_eq {m n : DecimalNumeral} (h : m.value = n.value)
    (hwhole : m.whole.length = n.whole.length) (hfraction : m.fraction.length = n.fraction.length) :
    m = n := by
  rw [value_eq_iff, hfraction] at h
  have hdigits : m.whole ++ m.fraction = n.whole ++ n.fraction := by
    refine eq_of_digitsValue_eq m.isDigit n.isDigit ?_ ?_
    · rw [List.length_append, List.length_append, hwhole, hfraction]
    · exact Nat.eq_of_mul_eq_mul_right (Nat.pow_pos (by decide)) h
  obtain ⟨hw, hf⟩ := List.append_inj hdigits hwhole
  cases m
  cases n
  simp only at hw hf
  subst hw hf
  rfl

/-- A numeral without a zero at its end has the fewest digits after the point. -/
theorem fraction_length_le {m n : DecimalNumeral} (h : m.value = n.value)
    (hlast : n.fraction.getLast? ≠ some (.char '0')) : n.fraction.length ≤ m.fraction.length := by
  by_contra hlt
  rw [Nat.not_le] at hlt
  have hne : n.fraction ≠ [] := fun hnil => by
    rw [hnil] at hlt
    exact Nat.not_lt_zero _ hlt
  obtain ⟨init, c, hfraction⟩ := (List.eq_nil_or_concat n.fraction).resolve_left hne
  rw [List.concat_eq_append] at hfraction
  have hc : c.isDigit = true := n.isDigit c (by simp [hfraction])
  -- otherwise the last digit would be divisible by ten
  obtain ⟨k, hk⟩ := Nat.exists_eq_add_of_lt hlt
  have hdigits : Text.digitsValue (n.whole ++ n.fraction) =
      10 * Text.digitsValue (n.whole ++ init) + Text.digitValue c := by
    rw [hfraction, ← List.append_assoc, Text.digitsValue_concat]
  have hvalue : Text.digitsValue (m.whole ++ m.fraction) * 10 ^ (k + 1) =
      Text.digitsValue (n.whole ++ n.fraction) := by
    rw [value_eq_iff, hk, Nat.add_assoc, Nat.add_comm, Nat.pow_add, ← Nat.mul_assoc] at h
    exact Nat.eq_of_mul_eq_mul_right (Nat.pow_pos (by decide)) h
  have hzero : Text.digitValue c = 0 := by
    have hclt := digitValue_lt hc
    rw [hdigits, Nat.pow_succ, ← Nat.mul_assoc] at hvalue
    omega
  have hchar : c = .char '0' := eq_of_digitValue_eq hc (by decide) (hzero.trans (by decide))
  exact hlast (by rw [hfraction, hchar, List.getLast?_concat])

/-- With a single digit before the point and no zero at the end, there is no other numeral that is
as short. -/
theorem isShortest_of_whole {n : DecimalNumeral} (hwhole : n.whole.length = 1)
    (hlast : n.fraction.getLast? ≠ some (.char '0')) : n.IsShortest := by
  intro m hvalue
  have hfraction := fraction_length_le hvalue hlast
  have hpos : 0 < m.whole.length := List.length_pos_of_ne_nil m.whole_ne_nil
  by_cases hsame : m.whole.length = n.whole.length ∧ m.fraction.length = n.fraction.length
  · exact .inl (eq_of_value_eq hvalue hsame.1 hsame.2)
  · right
    rw [length_text, length_text]
    split <;> split <;> omega

end DecimalNumeral

/-! ### Percentages -/

/-- The digits of the hundredth part of a number, without zeros at the end. -/
def hundredth (percent : Nat) : Text × Text :=
  (Text.decimal (percent / 100),
    ((Text.padded 2 (Text.decimal (percent % 100))).reverse.dropWhile (· = .char '0')).reverse)

theorem hundredth_written : ∀ percent < 101,
    (hundredth percent).1.length = 1 ∧
      (∀ c ∈ (hundredth percent).1 ++ (hundredth percent).2, c.isDigit = true) ∧
      (hundredth percent).2.getLast? ≠ some (.char '0') ∧
      Text.digitsValue ((hundredth percent).1 ++ (hundredth percent).2) * 10 ^ 2 =
        percent * 10 ^ (hundredth percent).2.length ∧
      (Number.Binary64.ofMagnitude false (mkRat percent 100)).general =
        DecimalNumeral.pointed (hundredth percent).1 (hundredth percent).2 := by
  decide +kernel

/-- An opacity in percent is written by the shortest numeral of its hundredth part. -/
theorem exists_percentNumeral {percent : Nat} (h : percent ≤ 100) :
    ∃ n : DecimalNumeral, n.value = mkRat percent 100 ∧ n.IsShortest ∧
      (Number.Binary64.ofMagnitude false (mkRat percent 100)).general = n.text := by
  obtain ⟨hwhole, hdigits, hlast, hvalue, htext⟩ := hundredth_written percent (by omega)
  have hne : (hundredth percent).1 ≠ [] := fun hnil => by
    rw [hnil] at hwhole
    exact absurd hwhole (by decide)
  refine ⟨⟨_, _, hne, hdigits⟩, ?_, DecimalNumeral.isShortest_of_whole hwhole hlast, htext⟩
  exact DecimalNumeral.mkRat_eq_iff.mpr hvalue

end UtilityCss
