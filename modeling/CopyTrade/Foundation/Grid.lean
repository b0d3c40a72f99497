import Mathlib.Algebra.Order.Field.Power
import Mathlib.Algebra.Order.Floor.Ring
import Mathlib.Tactic.Positivity
import Mathlib.Tactic.Ring

/-!
# Rounding to a grid

`roundUp step x` and `roundDown step x` are the multiples of a positive step next to `x`; both are
monotone.  What is rounded to a grid of decimals keeps its decimals, and the number of digits of the
integer part tells between which powers of ten a number lies.
-/

namespace CopyTrade.Foundation

section

variable {K : Type*} [Field K] [LinearOrder K] [IsStrictOrderedRing K] [FloorRing K]

/-- The least multiple of `step` that is no less than `x`. -/
def roundUp (step x : K) : K := ⌈x / step⌉ * step

/-- The greatest multiple of `step` that is no more than `x`. -/
def roundDown (step x : K) : K := ⌊x / step⌋ * step

variable {step : K}

theorem le_roundUp (hstep : 0 < step) (x : K) : x ≤ roundUp step x := by
  have hceil : x / step ≤ ⌈x / step⌉ := Int.le_ceil _
  exact (div_le_iff₀ hstep).mp hceil

theorem roundDown_le (hstep : 0 < step) (x : K) : roundDown step x ≤ x := by
  have hfloor : (⌊x / step⌋ : K) ≤ x / step := Int.floor_le _
  exact (le_div_iff₀ hstep).mp hfloor

theorem roundDown_nonneg (hstep : 0 < step) {x : K} (h : 0 ≤ x) : 0 ≤ roundDown step x := by
  apply mul_nonneg _ hstep.le
  exact_mod_cast Int.floor_nonneg.mpr (div_nonneg h hstep.le)

theorem roundUp_pos (hstep : 0 < step) {x : K} (h : 0 < x) : 0 < roundUp step x :=
  h.trans_le (le_roundUp hstep x)

/-- A value that is rounded down to something positive is at least one step, and what it is rounded
to is a positive number of steps. -/
theorem roundDown_eq_natCast (hstep : 0 < step) {x : K} (hx : 0 ≤ x) (h : roundDown step x ≠ 0) :
    ∃ n : ℕ, 0 < n ∧ roundDown step x = n * step := by
  have hnonneg : 0 ≤ ⌊x / step⌋ := Int.floor_nonneg.mpr (div_nonneg hx hstep.le)
  obtain ⟨n, hn⟩ := Int.eq_ofNat_of_zero_le hnonneg
  refine ⟨n, ?_, ?_⟩
  · apply Nat.pos_of_ne_zero
    rintro rfl
    apply h
    simp [roundDown, hn]
  · simp [roundDown, hn]

theorem roundDown_pos_iff (hstep : 0 < step) {x : K} : 0 < roundDown step x ↔ step ≤ x := by
  unfold roundDown
  rw [mul_pos_iff_of_pos_right hstep, Int.cast_pos, Int.floor_pos, one_le_div₀ hstep]

theorem roundUp_le_roundUp_iff (hstep : 0 < step) {x y : K} :
    roundUp step x ≤ roundUp step y ↔ ⌈x / step⌉ ≤ ⌈y / step⌉ := by
  unfold roundUp
  rw [mul_le_mul_iff_of_pos_right hstep, Int.cast_le]

omit [IsStrictOrderedRing K] in
theorem sub_roundDown (hstep : 0 < step) (x : K) :
    x - roundDown step x = Int.fract (x / step) * step := by
  unfold roundDown
  rw [Int.fract, sub_mul, div_mul_cancel₀ x hstep.ne']

theorem roundUp_sub (hstep : 0 < step) {x : K} (h : Int.fract (x / step) ≠ 0) :
    roundUp step x - x = (1 - Int.fract (x / step)) * step := by
  have hceil : (⌈x / step⌉ : K) = x / step + 1 - Int.fract (x / step) := Int.ceil_eq_add_one_sub_fract h
  unfold roundUp
  rw [hceil]
  field_simp
  ring

theorem roundUp_eq_self (hstep : 0 < step) {x : K} (h : Int.fract (x / step) = 0) :
    roundUp step x = x := by
  obtain ⟨n, hn⟩ := Int.fract_eq_zero_iff.mp h
  unfold roundUp
  rw [← hn, Int.ceil_intCast, hn, div_mul_cancel₀ x hstep.ne']

theorem abs_roundUp_sub_lt (hstep : 0 < step) (x : K) : |roundUp step x - x| < step := by
  have hle := le_roundUp hstep x
  rw [abs_of_nonneg (sub_nonneg.mpr hle)]
  have hceil : (⌈x / step⌉ : K) < x / step + 1 := Int.ceil_lt_add_one _
  have hmul := mul_lt_mul_of_pos_right hceil hstep
  rw [add_mul, one_mul, div_mul_cancel₀ x hstep.ne'] at hmul
  unfold roundUp
  linarith

theorem abs_roundDown_sub_lt (hstep : 0 < step) (x : K) : |roundDown step x - x| < step := by
  rw [abs_sub_comm, sub_roundDown hstep, abs_of_nonneg (by positivity)]
  exact mul_lt_of_lt_one_left hstep (Int.fract_lt_one _)

end

variable {K : Type*} [Field K] [LinearOrder K] [IsStrictOrderedRing K]

def WithDecimals (decimals : ℕ) (x : K) : Prop := ∃ n : ℕ, x = n / 10 ^ decimals

/-- The number is written with this many significant digits. -/
def WithDigits (digits : ℕ) (x : K) : Prop :=
  ∃ (m : ℕ) (e : ℤ), m < 10 ^ digits ∧ x = m * 10 ^ e

omit [LinearOrder K] [IsStrictOrderedRing K] in
theorem withDigits_of_le {digits m : ℕ} (hdigits : 0 < digits) (hm : m ≤ 10 ^ digits) (e : ℤ)
    [CharZero K] : WithDigits digits ((m : K) * 10 ^ e) := by
  rcases hm.lt_or_eq with hlt | heq
  · exact ⟨m, e, hlt, rfl⟩
  · refine ⟨1, e + digits, Nat.one_lt_pow hdigits.ne' (by norm_num), ?_⟩
    rw [heq, zpow_add₀ (by norm_num : (10 : K) ≠ 0), zpow_natCast]
    push_cast
    ring

/-- The unit of some decimals is written with some decimals exactly where these are no fewer. -/
theorem withDecimals_unit_iff {unit decimals : ℕ} :
    WithDecimals decimals (1 / 10 ^ unit : K) ↔ unit ≤ decimals := by
  constructor
  · rintro ⟨n, hn⟩
    by_contra hlt
    push Not at hlt
    have hpos : 0 < n := by
      apply Nat.pos_of_ne_zero
      rintro rfl
      rw [Nat.cast_zero, zero_div] at hn
      exact absurd hn (by positivity)
    have hlt' : (10 : K) ^ decimals < 10 ^ unit := pow_lt_pow_right₀ (by norm_num) hlt
    have hle : (1 : K) ≤ n := by exact_mod_cast hpos
    have hcalc : (1 : K) / 10 ^ unit < 1 / 10 ^ unit := calc
      (1 : K) / 10 ^ unit < 1 / 10 ^ decimals := by gcongr
      _ ≤ n / 10 ^ decimals := by gcongr
      _ = 1 / 10 ^ unit := hn.symm
    exact lt_irrefl _ hcalc
  · intro hle
    refine ⟨10 ^ (decimals - unit), ?_⟩
    have hpow : (10 : K) ^ decimals = 10 ^ (decimals - unit) * 10 ^ unit := by
      rw [← pow_add, Nat.sub_add_cancel hle]
    rw [hpow]
    push_cast
    field_simp

section

variable [FloorRing K]

theorem lt_pow_length_toDigits (x : K) : x < 10 ^ (Nat.toDigits 10 ⌊x⌋₊).length := by
  have hlt : ⌊x⌋₊ < 10 ^ (Nat.toDigits 10 ⌊x⌋₊).length :=
    (Nat.length_toDigits_le_iff (by norm_num) Nat.length_toDigits_pos).mp le_rfl
  have hfloor : x < ⌊x⌋₊ + 1 := Nat.lt_floor_add_one x
  have hle : ((⌊x⌋₊ + 1 : ℕ) : K) ≤ (10 ^ (Nat.toDigits 10 ⌊x⌋₊).length : ℕ) := by
    exact_mod_cast hlt
  push_cast at hle
  exact hfloor.trans_le hle

theorem pow_pred_length_toDigits_le {x : K} (hx : 1 ≤ x) :
    10 ^ ((Nat.toDigits 10 ⌊x⌋₊).length - 1) ≤ x := by
  have hfloor : (⌊x⌋₊ : K) ≤ x := Nat.floor_le (by linarith)
  have hpow : 10 ^ ((Nat.toDigits 10 ⌊x⌋₊).length - 1) ≤ ⌊x⌋₊ := by
    rcases Nat.eq_zero_or_pos ((Nat.toDigits 10 ⌊x⌋₊).length - 1) with hzero | hpos
    · rw [hzero, pow_zero]
      exact Nat.le_floor (by simpa using hx)
    · by_contra hlt
      have hle := (Nat.length_toDigits_le_iff (b := 10) (by norm_num) hpos).mpr (not_le.mp hlt)
      omega
  calc (10 : K) ^ ((Nat.toDigits 10 ⌊x⌋₊).length - 1)
      = ((10 ^ ((Nat.toDigits 10 ⌊x⌋₊).length - 1) : ℕ) : K) := by push_cast; rfl
    _ ≤ ⌊x⌋₊ := by exact_mod_cast hpow
    _ ≤ x := hfloor

theorem length_toDigits_of_lt_one {x : K} (hx : x < 1) :
    (Nat.toDigits 10 ⌊x⌋₊).length = 1 := by
  rw [Nat.floor_eq_zero.mpr hx]
  rfl

end

end CopyTrade.Foundation
