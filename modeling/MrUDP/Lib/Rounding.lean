import Mathlib

/-!
# Rounded arithmetic

A number of a binary floating point format is an integer of bounded size times a power of two.  An
operation computes its exact result and rounds it to the nearest number of the format; of two that
are equally near it takes the even one.  Numbers are rationals here, and a format is what rounds
them.  Infinities and the sign of zero are left out.

## Main definitions

* `roundEven`: the nearest integer.
* `Format.round`: the nearest number of a format.
* `Arithmetic`: how the operations on `float` and `double` round.  `Arithmetic.ieee` rounds after
  each of them, `Arithmetic.exact` never.
-/

/-! ## Integers -/

/-- The nearest integer, and of two the even one. -/
def roundEven (x : ℚ) : ℤ :=
  let k := ⌊x⌋
  if x - k < 1 / 2 then k
  else if 1 / 2 < x - k then k + 1
  else k + k % 2

theorem floor_le_roundEven (x : ℚ) : ⌊x⌋ ≤ roundEven x := by
  simp only [roundEven]
  split_ifs <;> omega

theorem roundEven_le_floor (x : ℚ) : roundEven x ≤ ⌊x⌋ + 1 := by
  simp only [roundEven]
  split_ifs <;> omega

@[simp] theorem roundEven_intCast (k : ℤ) : roundEven k = k := by
  simp [roundEven]

theorem roundEven_mono {x y : ℚ} (h : x ≤ y) : roundEven x ≤ roundEven y := by
  rcases (Int.floor_le_floor h).lt_or_eq with hlt | heq
  · have hx := roundEven_le_floor x
    have hy := floor_le_roundEven y
    omega
  · -- On one side of a midpoint the order of the fractions decides.
    have hfract : x - ⌊x⌋ ≤ y - ⌊y⌋ := by
      rw [heq]
      exact sub_le_sub_right h _
    simp only [roundEven]
    rw [heq] at hfract ⊢
    split_ifs <;> first | omega | (exfalso; linarith)

/-! ## Formats -/

/-- A binary format: the bits of its integers, and the exponent of the least normal number. -/
structure Format where
  precision : ℕ
  least : ℤ

namespace Format

def binary32 : Format := ⟨24, -126⟩
def binary64 : Format := ⟨53, -1022⟩

variable (f : Format)

/-- The exponent of the last place of the numbers near `x`. -/
def lastPlace (x : ℚ) : ℤ := max (Int.log 2 |x|) f.least - f.precision + 1

/-- The nearest number of the format. -/
def round (x : ℚ) : ℚ := roundEven (x / 2 ^ f.lastPlace x) * 2 ^ f.lastPlace x

/-- The numbers of the format. -/
def Mem (x : ℚ) : Prop :=
  ∃ m j : ℤ, |m| < 2 ^ f.precision ∧ f.least - f.precision + 1 ≤ j ∧ x = m * 2 ^ j

variable {f} {x y : ℚ}

theorem lt_lastPlace (f : Format) (x : ℚ) : |x| < 2 ^ (f.precision + f.lastPlace x) := by
  refine (Int.lt_zpow_succ_log_self one_lt_two |x|).trans_le ?_
  rw [Nat.cast_ofNat]
  refine zpow_le_zpow_right₀ one_le_two ?_
  rw [lastPlace]
  omega

/-- A large number of the format has no small last place. -/
theorem Mem.exists_mul {j : ℤ} (h : f.Mem x) (hj : 2 ^ (f.precision + j - 1) ≤ x) :
    ∃ k : ℤ, x = k * 2 ^ j := by
  obtain ⟨m, i, hm, -, rfl⟩ := h
  have hlt : (m * 2 ^ i : ℚ) < 2 ^ (f.precision + i) := by
    rw [zpow_add₀ two_ne_zero, zpow_natCast]
    gcongr
    exact_mod_cast (le_abs_self m).trans_lt hm
  have hle := (zpow_lt_zpow_iff_right₀ (one_lt_two (α := ℚ))).mp (hj.trans_lt hlt)
  obtain ⟨n, hn⟩ := Int.eq_ofNat_of_zero_le (show 0 ≤ i - j by omega)
  refine ⟨m * 2 ^ n, ?_⟩
  rw [show i = n + j by omega, zpow_add₀ two_ne_zero, zpow_natCast]
  push_cast
  ring

/-- A number of the format is its own rounding. -/
theorem round_of_mem (h : f.Mem x) : f.round x = x := by
  obtain ⟨m, j, hm, hj, rfl⟩ := h
  rcases eq_or_ne m 0 with rfl | hzero
  · simp [round, show roundEven 0 = 0 from roundEven_intCast 0]
  have hpos : 0 < |(m * 2 ^ j : ℚ)| := by positivity
  have hlog : Int.log 2 |(m * 2 ^ j : ℚ)| < f.precision + j := by
    refine (Int.lt_zpow_iff_log_lt one_lt_two hpos).mp ?_
    rw [abs_mul, abs_of_pos (show (0 : ℚ) < 2 ^ j by positivity), Nat.cast_ofNat,
      zpow_add₀ two_ne_zero, zpow_natCast]
    gcongr
    exact_mod_cast hm
  have hplace : f.lastPlace (m * 2 ^ j) ≤ j := by
    rw [lastPlace]
    omega
  -- The number is a multiple of its last place.
  obtain ⟨n, hn⟩ := Int.eq_ofNat_of_zero_le (sub_nonneg.mpr hplace)
  have hmul : (m * 2 ^ j : ℚ) / 2 ^ f.lastPlace (m * 2 ^ j) = (m * 2 ^ n : ℤ) := by
    rw [mul_div_assoc, ← zpow_sub₀ two_ne_zero, hn]
    simp
  rw [round, hmul, roundEven_intCast, ← hmul, div_mul_cancel₀ _ (by positivity)]

/-- What is rounded is a number of the format. -/
theorem mem_round (hprecision : 0 < f.precision) (x : ℚ) : f.Mem (f.round x) := by
  have hlt := f.lt_lastPlace x
  rw [zpow_add₀ two_ne_zero, zpow_natCast, abs_lt] at hlt
  have hpos : (0 : ℚ) < 2 ^ f.lastPlace x := by positivity
  have hupper : roundEven (x / 2 ^ f.lastPlace x) ≤ (2 ^ f.precision : ℤ) := by
    rw [← roundEven_intCast (2 ^ f.precision)]
    refine roundEven_mono ?_
    rw [div_le_iff₀ hpos]
    exact_mod_cast hlt.2.le
  have hlower : -(2 ^ f.precision : ℤ) ≤ roundEven (x / 2 ^ f.lastPlace x) := by
    rw [← roundEven_intCast (-2 ^ f.precision)]
    refine roundEven_mono ?_
    rw [le_div_iff₀ hpos]
    push_cast
    linarith [hlt.1]
  have hplace : f.least - f.precision + 1 ≤ f.lastPlace x := by
    rw [lastPlace]
    omega
  rcases (abs_le.mpr ⟨hlower, hupper⟩).lt_or_eq with hsmall | hfull
  · exact ⟨_, _, hsmall, hplace, rfl⟩
  · -- A full integer is a power of two, and has a short one with a larger exponent.
    rw [round]
    generalize roundEven (x / 2 ^ f.lastPlace x) = k at hfull
    have hsign := Int.sign_mul_abs k
    rw [hfull] at hsign
    refine ⟨k.sign, f.precision + f.lastPlace x, ?_, by omega, ?_⟩
    · have hzero : k ≠ 0 := by
        rintro rfl
        exact absurd hfull (by rw [abs_zero]; positivity)
      rw [Int.abs_sign_of_ne_zero hzero]
      exact one_lt_pow₀ one_lt_two hprecision.ne'
    · conv_lhs => rw [← hsign]
      rw [zpow_add₀ two_ne_zero, zpow_natCast]
      push_cast
      ring

/-- A power of two that is no finer than the last place is a multiple of it. -/
theorem zpow_div_lastPlace {j : ℤ} (hj : f.lastPlace x ≤ j) :
    ∃ k : ℤ, (2 ^ j : ℚ) / 2 ^ f.lastPlace x = k := by
  obtain ⟨n, hn⟩ := Int.eq_ofNat_of_zero_le (sub_nonneg.mpr hj)
  refine ⟨2 ^ n, ?_⟩
  rw [← zpow_sub₀ two_ne_zero, hn]
  simp

/-- Such a power of two bounds what is rounded if it bounds the number. -/
theorem round_le_zpow {j : ℤ} (hj : f.lastPlace x ≤ j) (h : x ≤ 2 ^ j) : f.round x ≤ 2 ^ j := by
  obtain ⟨k, hk⟩ := zpow_div_lastPlace hj
  rw [round, ← le_div_iff₀ (by positivity), hk, ← roundEven_intCast k, ← hk]
  exact_mod_cast roundEven_mono (by gcongr)

theorem zpow_le_round {j : ℤ} (hj : f.lastPlace x ≤ j) (h : 2 ^ j ≤ x) : 2 ^ j ≤ f.round x := by
  obtain ⟨k, hk⟩ := zpow_div_lastPlace hj
  rw [round, ← div_le_iff₀ (by positivity), hk, ← roundEven_intCast k, ← hk]
  exact_mod_cast roundEven_mono (by gcongr)

/-- Rounding keeps the order of positive numbers. -/
theorem round_mono (hprecision : 0 < f.precision) (hx : 0 < x) (h : x ≤ y) :
    f.round x ≤ f.round y := by
  have hlog : Int.log 2 |x| ≤ Int.log 2 |y| := by
    rw [abs_of_pos hx, abs_of_pos (hx.trans_le h)]
    exact Int.log_mono_right hx h
  rcases eq_or_ne (f.lastPlace x) (f.lastPlace y) with heq | hne
  · rw [round, round, heq]
    gcongr
    exact_mod_cast roundEven_mono (by gcongr)
  · -- A power of two lies between the two numbers.
    have hplace : f.lastPlace x < f.lastPlace y ∧ f.lastPlace y ≤ Int.log 2 |y| := by
      rw [lastPlace, lastPlace] at hne ⊢
      omega
    have hlt : Int.log 2 |x| + 1 ≤ Int.log 2 |y| := by
      rw [lastPlace, lastPlace] at hplace
      omega
    have hlower : (2 ^ Int.log 2 |y| : ℚ) ≤ y := by
      simpa [abs_of_pos (hx.trans_le h)] using
        Int.zpow_log_le_self one_lt_two (abs_pos.mpr (hx.trans_le h).ne')
    have hupper : x ≤ 2 ^ Int.log 2 |y| := by
      have hx' := Int.lt_zpow_succ_log_self one_lt_two |x|
      rw [Nat.cast_ofNat, abs_of_pos hx] at hx'
      exact hx'.le.trans (zpow_le_zpow_right₀ one_le_two (by rwa [abs_of_pos hx] at hlt))
    exact (round_le_zpow (hplace.1.le.trans hplace.2) hupper).trans
      (zpow_le_round hplace.2 hlower)

end Format

/-! ## The operations of a program -/

/-- How the results of the operations on `float` and on `double` are rounded. -/
structure Arithmetic where
  single : ℚ → ℚ
  double : ℚ → ℚ

namespace Arithmetic

/-- Every operation rounds its own result. -/
def ieee : Arithmetic := ⟨Format.binary32.round, Format.binary64.round⟩

/-- No operation rounds. -/
def exact : Arithmetic := ⟨id, id⟩

end Arithmetic
