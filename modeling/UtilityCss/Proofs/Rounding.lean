/-
Rounding keeps the order of numbers and moves none of them far.

* `Number.power_eq_zpow` — powers with an integer exponent are those of the field;
* `Number.roundHalfEven_cases` — the integer a number is rounded to, and why: everything below
  follows from it;
* `Number.roundHalfEven_mono`, `Number.abs_roundHalfEven_sub_le` — to an integer;
* `Number.roundTo_mono`, `Number.abs_roundTo_sub_le` — to multiples of a unit;
* `Number.binaryExponent_eq_log` — the leading binary digit;
* `Number.roundToBits_mono`, `Number.abs_roundToBits_sub_le` — to significant binary digits.

Design notes: the unit of `roundToBits` depends on the number, so its order is not that of
`roundTo` alone.  Two numbers with the same leading digit share a unit; if the leading digits
differ, a power of two lies between the numbers, and it is a multiple of both units.
-/
import Mathlib.Data.Int.Log
import Mathlib.Data.Rat.Floor
import Mathlib.Tactic.Linarith
import UtilityCss.Number.Rounding

namespace UtilityCss.Number

/-! ### Powers -/

theorem power_eq_zpow (base : Nat) (k : Int) : power base k = (base : Rat) ^ k := by
  cases k with
  | ofNat k =>
    rw [power, Rat.mkRat_eq_div, Int.ofNat_eq_natCast, zpow_natCast]
    simp
  | negSucc k =>
    rw [power, Rat.mkRat_eq_div, zpow_negSucc]
    simp

theorem power_two_pos (k : Int) : 0 < power 2 k := by
  rw [power_eq_zpow]
  exact zpow_pos (by norm_num) k

/-! ### To an integer -/

/-- The remainder by the denominator is what a number has beyond its floor, in units of the
denominator. -/
theorem fract_mul_den (q : Rat) : Int.fract q * q.den = ((q.num % q.den : Int) : Rat) := by
  have hnum : q * q.den = q.num := Rat.mul_den_eq_num q
  have hmod : q.num % q.den = q.num - q.den * (q.num / q.den) := Int.emod_def _ _
  rw [Int.fract, Rat.floor_def', sub_mul, hnum, hmod]
  push_cast
  ring

theorem fract_lt_half_iff (q : Rat) :
    Int.fract q < 1 / 2 ↔ 2 * (q.num % q.den) < q.den := by
  have hden : (0 : Rat) < q.den := by exact_mod_cast q.den_pos
  rw [← mul_lt_mul_iff_left₀ hden, fract_mul_den, ← @Int.cast_lt Rat]
  push_cast
  constructor
  · intro h
    linarith
  · intro h
    linarith

theorem half_lt_fract_iff (q : Rat) :
    1 / 2 < Int.fract q ↔ (q.den : Int) < 2 * (q.num % q.den) := by
  have hden : (0 : Rat) < q.den := by exact_mod_cast q.den_pos
  rw [← mul_lt_mul_iff_left₀ hden, fract_mul_den, ← @Int.cast_lt Rat]
  push_cast
  constructor
  · intro h
    linarith
  · intro h
    linarith

theorem roundHalfEven_cases (q : Rat) :
    (roundHalfEven q = ⌊q⌋ ∧
      (Int.fract q < 1 / 2 ∨ (Int.fract q = 1 / 2 ∧ ⌊q⌋ % 2 = 0))) ∨
    (roundHalfEven q = ⌊q⌋ + 1 ∧
      (1 / 2 < Int.fract q ∨ (Int.fract q = 1 / 2 ∧ ⌊q⌋ % 2 = 1))) := by
  have hfloor : q.floor = ⌊q⌋ := rfl
  rw [roundHalfEven, hfloor]
  simp only [← fract_lt_half_iff, ← half_lt_fract_iff]
  by_cases hbelow : Int.fract q < 1 / 2
  · rw [if_pos hbelow]
    exact .inl ⟨rfl, .inl hbelow⟩
  by_cases habove : 1 / 2 < Int.fract q
  · rw [if_neg hbelow, if_pos habove]
    exact .inr ⟨rfl, .inl habove⟩
  -- neither side is nearer: the parity of the floor decides
  · have hhalf : Int.fract q = 1 / 2 := le_antisymm (not_lt.mp habove) (not_lt.mp hbelow)
    rw [if_neg hbelow, if_neg habove]
    by_cases heven : ⌊q⌋ % 2 = 0
    · rw [if_pos heven]
      exact .inl ⟨rfl, .inr ⟨hhalf, heven⟩⟩
    · rw [if_neg heven]
      exact .inr ⟨rfl, .inr ⟨hhalf, by omega⟩⟩

/-- The rounded number is the floor or its successor. -/
theorem roundHalfEven_floor (q : Rat) : ⌊q⌋ ≤ roundHalfEven q ∧ roundHalfEven q ≤ ⌊q⌋ + 1 := by
  rcases roundHalfEven_cases q with ⟨h, -⟩ | ⟨h, -⟩
  · omega
  · omega

theorem abs_roundHalfEven_sub_le (q : Rat) : |(roundHalfEven q : Rat) - q| ≤ 1 / 2 := by
  have hfract : (⌊q⌋ : Rat) + Int.fract q = q := Int.floor_add_fract q
  have hnonneg := Int.fract_nonneg q
  have hlt := Int.fract_lt_one q
  rw [abs_le]
  rcases roundHalfEven_cases q with ⟨h, hhalf⟩ | ⟨h, hhalf⟩
  · have hle : Int.fract q ≤ 1 / 2 := hhalf.elim le_of_lt fun heq => heq.1.le
    rw [h]
    constructor
    · linarith
    · linarith
  · have hle : 1 / 2 ≤ Int.fract q := hhalf.elim le_of_lt fun heq => heq.1.ge
    rw [h]
    push_cast
    constructor
    · linarith
    · linarith

theorem roundHalfEven_intCast (n : Int) : roundHalfEven (n : Rat) = n := by
  have herror := abs_le.mp (abs_roundHalfEven_sub_le (n : Rat))
  have hlow : ((roundHalfEven (n : Rat) - n : Int) : Rat) < 1 := by
    push_cast
    linarith [herror.2]
  have hhigh : (-1 : Rat) < ((roundHalfEven (n : Rat) - n : Int) : Rat) := by
    push_cast
    linarith [herror.1]
  have hlow' : roundHalfEven (n : Rat) - n < 1 := by exact_mod_cast hlow
  have hhigh' : -1 < roundHalfEven (n : Rat) - n := by exact_mod_cast hhigh
  omega

theorem roundHalfEven_mono {p q : Rat} (h : p ≤ q) : roundHalfEven p ≤ roundHalfEven q := by
  have hfloor : ⌊p⌋ ≤ ⌊q⌋ := Int.floor_le_floor h
  have hp := roundHalfEven_floor p
  have hq := roundHalfEven_floor q
  rcases hfloor.lt_or_eq with hlt | heq
  · omega
  -- between the same two integers, what is beyond the floor decides
  · have hfract : Int.fract p ≤ Int.fract q := by
      rw [Int.fract, Int.fract, heq]
      linarith
    rcases roundHalfEven_cases p with ⟨hp', -⟩ | ⟨hp', hhalf⟩
    · omega
    · rcases roundHalfEven_cases q with ⟨hq', hhalf'⟩ | ⟨hq', -⟩
      · exfalso
        rcases hhalf with hp' | ⟨hp', hodd⟩
        · rcases hhalf' with hq' | ⟨hq', -⟩
          · linarith
          · linarith
        · rcases hhalf' with hq' | ⟨-, heven⟩
          · linarith
          · omega
      · omega

/-! ### To multiples of a unit -/

section Unit

variable {unit : Rat}

theorem roundTo_mono (hunit : 0 < unit) {p q : Rat} (h : p ≤ q) :
    roundTo unit p ≤ roundTo unit q := by
  have hdiv : p / unit ≤ q / unit := div_le_div_of_nonneg_right h hunit.le
  have hround : (roundHalfEven (p / unit) : Rat) ≤ roundHalfEven (q / unit) := by
    exact_mod_cast roundHalfEven_mono hdiv
  exact mul_le_mul_of_nonneg_right hround hunit.le

/-- Multiples of the unit are kept. -/
theorem roundTo_mul (hunit : 0 < unit) (n : Int) : roundTo unit (n * unit) = n * unit := by
  rw [roundTo, mul_div_assoc, div_self hunit.ne', mul_one, roundHalfEven_intCast]

theorem abs_roundTo_sub_le (hunit : 0 < unit) (q : Rat) : |roundTo unit q - q| ≤ unit / 2 := by
  have herror := abs_roundHalfEven_sub_le (q / unit)
  have hscale : roundTo unit q - q = (roundHalfEven (q / unit) - q / unit) * unit := by
    rw [roundTo, sub_mul, div_mul_cancel₀ q hunit.ne']
  rw [hscale, abs_mul, abs_of_pos hunit]
  calc |(roundHalfEven (q / unit) : Rat) - q / unit| * unit
      ≤ 1 / 2 * unit := mul_le_mul_of_nonneg_right herror hunit.le
    _ = unit / 2 := by ring

end Unit

/-! ### The leading binary digit -/

/-- The binary lengths of numerator and denominator leave two candidates. -/
theorem log2_bounds {q : Rat} (hq : 0 < q) :
    (2 : Rat) ^ ((Nat.log2 q.num.natAbs : Int) - Nat.log2 q.den - 1) ≤ q ∧
      q < (2 : Rat) ^ ((Nat.log2 q.num.natAbs : Int) - Nat.log2 q.den + 1) := by
  have hnum : 0 < q.num := Rat.num_pos.mpr hq
  have hden : (0 : Rat) < q.den := by exact_mod_cast q.den_pos
  have hvalue : q * q.den = (q.num.natAbs : Rat) := by
    rw [Rat.mul_den_eq_num, ← Int.cast_natCast, Int.natAbs_of_nonneg hnum.le]
  have hnumLow : ((2 : Rat) ^ Nat.log2 q.num.natAbs) ≤ q.num.natAbs := by
    exact_mod_cast Nat.log2_self_le (by omega)
  have hnumHigh : (q.num.natAbs : Rat) < 2 ^ (Nat.log2 q.num.natAbs + 1) := by
    exact_mod_cast Nat.lt_log2_self
  have hdenLow : ((2 : Rat) ^ Nat.log2 q.den) ≤ q.den := by
    exact_mod_cast Nat.log2_self_le q.den_nz
  have hdenHigh : (q.den : Rat) < 2 ^ (Nat.log2 q.den + 1) := by
    exact_mod_cast Nat.lt_log2_self
  generalize Nat.log2 q.num.natAbs = a at *
  generalize Nat.log2 q.den = b at *
  have htwo : (2 : Rat) ≠ 0 := by norm_num
  constructor
  · have hsplit : (2 : Rat) ^ ((a : Int) - b - 1) * 2 ^ (b + 1) = 2 ^ a := by
      rw [← zpow_natCast, ← zpow_natCast, ← zpow_add₀ htwo]
      congr 1
      push_cast
      ring
    have hpos : (0 : Rat) < 2 ^ ((a : Int) - b - 1) := zpow_pos (by norm_num) _
    refine le_of_mul_le_mul_right ?_ hden
    calc (2 : Rat) ^ ((a : Int) - b - 1) * q.den
        ≤ 2 ^ ((a : Int) - b - 1) * 2 ^ (b + 1) := mul_le_mul_of_nonneg_left hdenHigh.le hpos.le
      _ = 2 ^ a := hsplit
      _ ≤ q.num.natAbs := hnumLow
      _ = q * q.den := hvalue.symm
  · have hsplit : (2 : Rat) ^ ((a : Int) - b + 1) * 2 ^ b = 2 ^ (a + 1) := by
      rw [← zpow_natCast, ← zpow_natCast, ← zpow_add₀ htwo]
      congr 1
      push_cast
      ring
    have hpos : (0 : Rat) < 2 ^ ((a : Int) - b + 1) := zpow_pos (by norm_num) _
    refine lt_of_mul_lt_mul_right ?_ hden.le
    calc q * q.den = q.num.natAbs := hvalue
      _ < 2 ^ (a + 1) := hnumHigh
      _ = 2 ^ ((a : Int) - b + 1) * 2 ^ b := hsplit.symm
      _ ≤ 2 ^ ((a : Int) - b + 1) * q.den := mul_le_mul_of_nonneg_left hdenLow hpos.le

/-- The exponent of the leading binary digit is the logarithm, rounded down. -/
theorem binaryExponent_eq_log {q : Rat} (hq : 0 < q) : binaryExponent q = Int.log 2 q := by
  obtain ⟨hlow, hhigh⟩ := log2_bounds hq
  rw [binaryExponent, power_eq_zpow]
  set guess : Int := (Nat.log2 q.num.natAbs : Int) - Nat.log2 q.den
  have hbelow : guess - 1 ≤ Int.log 2 q :=
    (Int.zpow_le_iff_le_log (by norm_num) hq).mp (by exact_mod_cast hlow)
  have habove : Int.log 2 q < guess + 1 :=
    (Int.lt_zpow_iff_log_lt (by norm_num) hq).mp (by exact_mod_cast hhigh)
  split
  · rename_i hguess
    have hle : guess ≤ Int.log 2 q := (Int.zpow_le_iff_le_log (by norm_num) hq).mp hguess
    omega
  · rename_i hguess
    have hlt : Int.log 2 q < guess :=
      (Int.lt_zpow_iff_log_lt (by norm_num) hq).mp (not_le.mp hguess)
    omega

theorem power_binaryExponent_le {q : Rat} (hq : 0 < q) : power 2 (binaryExponent q) ≤ q := by
  rw [power_eq_zpow, binaryExponent_eq_log hq]
  exact Int.zpow_log_le_self (by norm_num) hq

theorem lt_power_binaryExponent {q : Rat} (hq : 0 < q) : q < power 2 (binaryExponent q + 1) := by
  rw [power_eq_zpow, binaryExponent_eq_log hq]
  exact Int.lt_zpow_succ_log_self (by norm_num) q

theorem binaryExponent_mono {p q : Rat} (hp : 0 < p) (h : p ≤ q) :
    binaryExponent p ≤ binaryExponent q := by
  rw [binaryExponent_eq_log hp, binaryExponent_eq_log (hp.trans_le h)]
  exact Int.log_mono_right hp h

theorem power_two_mono {i j : Int} (h : i ≤ j) : power 2 i ≤ power 2 j := by
  rw [power_eq_zpow, power_eq_zpow]
  exact zpow_le_zpow_right₀ (by norm_num) h

/-! ### To significant binary digits -/

/-- A power of two is a multiple of every smaller one. -/
theorem roundTo_power {i j : Int} (h : i ≤ j) : roundTo (power 2 i) (power 2 j) = power 2 j := by
  have hmultiple : power 2 j = ((2 ^ (j - i).toNat : Int) : Rat) * power 2 i := by
    rw [power_eq_zpow, power_eq_zpow]
    push_cast
    rw [← zpow_natCast, Int.toNat_of_nonneg (by omega), ← zpow_add₀ (by norm_num)]
    congr 1
    ring
  rw [hmultiple]
  exact roundTo_mul (power_two_pos i) _

variable {bits : Nat}

theorem roundToBits_zero (bits : Nat) : roundToBits bits 0 = 0 := by
  have hzero := roundTo_mul (power_two_pos (binaryExponent 0 + 1 - bits)) 0
  rw [Int.cast_zero, zero_mul] at hzero
  exact hzero

/-- The rounded number lies between the same two powers of two, the upper one included. -/
theorem roundToBits_between (hbits : 1 ≤ bits) {q : Rat} (hq : 0 < q) :
    power 2 (binaryExponent q) ≤ roundToBits bits q ∧
      roundToBits bits q ≤ power 2 (binaryExponent q + 1) := by
  have hunit := power_two_pos (binaryExponent q + 1 - bits)
  have hlow : roundTo (power 2 (binaryExponent q + 1 - bits)) (power 2 (binaryExponent q)) =
      power 2 (binaryExponent q) := roundTo_power (by omega)
  have hhigh : roundTo (power 2 (binaryExponent q + 1 - bits)) (power 2 (binaryExponent q + 1)) =
      power 2 (binaryExponent q + 1) := roundTo_power (by omega)
  constructor
  · exact hlow.ge.trans (roundTo_mono hunit (power_binaryExponent_le hq))
  · exact (roundTo_mono hunit (lt_power_binaryExponent hq).le).trans hhigh.le

theorem roundToBits_nonneg (hbits : 1 ≤ bits) {q : Rat} (hq : 0 ≤ q) : 0 ≤ roundToBits bits q := by
  rcases hq.lt_or_eq with hpos | rfl
  · exact (power_two_pos _).le.trans (roundToBits_between hbits hpos).1
  · rw [roundToBits_zero]

theorem roundToBits_mono (hbits : 1 ≤ bits) {p q : Rat} (hp : 0 ≤ p) (h : p ≤ q) :
    roundToBits bits p ≤ roundToBits bits q := by
  rcases hp.lt_or_eq with hpos | rfl
  · have hexponent := binaryExponent_mono hpos h
    rcases hexponent.lt_or_eq with hlt | heq
    · -- the next power of two after `p` separates the two numbers
      have hp := (roundToBits_between hbits hpos).2
      have hq := (roundToBits_between hbits (hpos.trans_le h)).1
      have hpower : power 2 (binaryExponent p + 1) ≤ power 2 (binaryExponent q) :=
        power_two_mono (by omega)
      exact hp.trans (hpower.trans hq)
    · rw [roundToBits, roundToBits, heq]
      exact roundTo_mono (power_two_pos _) h
  · rw [roundToBits_zero]
    exact roundToBits_nonneg hbits h

/-- The error is at most half a unit of the last digit, relative to the number. -/
theorem abs_roundToBits_sub_le (bits : Nat) {q : Rat} (hq : 0 ≤ q) :
    |roundToBits bits q - q| ≤ q / 2 ^ bits := by
  rcases hq.lt_or_eq with hpos | rfl
  · have herror := abs_roundTo_sub_le (power_two_pos (binaryExponent q + 1 - bits)) q
    have hunit :
        power 2 (binaryExponent q + 1 - bits) / 2 = power 2 (binaryExponent q) / 2 ^ bits := by
      have htwo : (2 : Rat) ≠ 0 := by norm_num
      rw [power_eq_zpow, power_eq_zpow, Nat.cast_ofNat, zpow_sub₀ htwo, zpow_add_one₀ htwo,
        zpow_natCast]
      field_simp
    rw [hunit] at herror
    refine herror.trans ?_
    exact div_le_div_of_nonneg_right (power_binaryExponent_le hpos) (by positivity)
  · rw [roundToBits_zero]
    simp

end UtilityCss.Number
