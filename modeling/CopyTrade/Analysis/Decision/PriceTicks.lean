import CopyTrade.Foundation.Grid
import CopyTrade.Model.Core.ShadowIoc
import CopyTrade.Model.Observer.LiveShadow

/-!
# The tick of a price

`price_tick` counts the zero before the point of a price below one as a digit, so such a price has
four decimals at most: an order may be moved by more than a part in ten thousand, and a price below
a ten-thousandth is rounded down to zero.
-/

namespace CopyTrade.Analysis

open Foundation Model
open Model.ExactDecimal

variable {price : ℚ} (sizeDecimals : ℕ)

def outward (side : Side) (tick price : ℚ) : ℚ :=
  match side with
  | .buy => roundUp tick price
  | .sell => roundDown tick price

theorem roundPriceOutward_eq_ok {tick : ℚ} (side : Side) (hprice : 0 < price) (htick : 0 < tick) :
    roundPriceOutward price tick side = .ok (outward side tick price) := by
  unfold roundPriceOutward
  rw [if_neg (by simp [hprice, htick]), checkedDiv_eq htick.ne']
  cases side <;> rfl

def integerDigits (price : ℚ) : ℕ := (Nat.toDigits 10 ⌊price⌋₊).length

theorem priceTick_eq (hprice : 0 < price) :
    priceTick price sizeDecimals =
      if 5 ≤ integerDigits price then 10 ^ (integerDigits price - 5)
      else 1 / 10 ^ min (5 - integerDigits price) (6 - sizeDecimals) := by
  unfold priceTick integerDigits
  rw [abs_of_pos hprice]

theorem priceTick_pos (hprice : 0 < price) : 0 < priceTick price sizeDecimals := by
  rw [priceTick_eq sizeDecimals hprice]
  split <;> positivity

theorem priceTick_eq_zpow (hprice : 0 < price) :
    ∃ e : ℤ, priceTick price sizeDecimals = 10 ^ e := by
  rw [priceTick_eq sizeDecimals hprice]
  split
  · exact ⟨(integerDigits price - 5 : ℕ), by rw [zpow_natCast]⟩
  · exact ⟨-(min (5 - integerDigits price) (6 - sizeDecimals) : ℕ), by
      rw [zpow_neg, zpow_natCast, one_div]⟩

theorem pow_integerDigits_le (hprice : 0 < price) :
    (10 : ℚ) ^ integerDigits price ≤ 10 ^ 5 * priceTick price sizeDecimals := by
  rw [priceTick_eq sizeDecimals hprice]
  split
  · rename_i hlong
    rw [← pow_add, Nat.add_sub_cancel' hlong]
  · rename_i hshort
    have hsum : 10 ^ 5 = (10 : ℚ) ^ integerDigits price * 10 ^ (5 - integerDigits price) := by
      rw [← pow_add, Nat.add_sub_cancel' (by omega)]
    have hpow : (10 : ℚ) ^ min (5 - integerDigits price) (6 - sizeDecimals) ≤
        10 ^ (5 - integerDigits price) := by
      apply pow_le_pow_right₀ (by norm_num)
      exact min_le_left _ _
    rw [mul_one_div, le_div_iff₀ (by positivity), hsum]
    gcongr

theorem div_priceTick_lt (hprice : 0 < price) : price / priceTick price sizeDecimals < 10 ^ 5 := by
  rw [div_lt_iff₀ (priceTick_pos sizeDecimals hprice)]
  calc price < 10 ^ integerDigits price := lt_pow_length_toDigits price
    _ ≤ 10 ^ 5 * priceTick price sizeDecimals := pow_integerDigits_le sizeDecimals hprice

theorem outward_eq_units (side : Side) (hprice : 0 < price) :
    ∃ units : ℕ, units ≤ 10 ^ 5 ∧
      outward side (priceTick price sizeDecimals) price = units * priceTick price sizeDecimals := by
  have htick := priceTick_pos sizeDecimals hprice
  have hlt := div_priceTick_lt sizeDecimals hprice
  have hnonneg : 0 ≤ price / priceTick price sizeDecimals := (div_pos hprice htick).le
  cases side with
  | buy =>
    refine ⟨⌈price / priceTick price sizeDecimals⌉.toNat, ?_, ?_⟩
    · rw [Int.toNat_le, Int.ceil_le]
      exact_mod_cast hlt.le
    · have hcast : ((⌈price / priceTick price sizeDecimals⌉.toNat : ℤ) : ℚ) =
          ⌈price / priceTick price sizeDecimals⌉ := by
        rw [Int.toNat_of_nonneg (Int.ceil_nonneg hnonneg)]
      rw [← Int.cast_natCast (R := ℚ), hcast]
      rfl
  | sell =>
    refine ⟨⌊price / priceTick price sizeDecimals⌋.toNat, ?_, ?_⟩
    · rw [Int.toNat_le, ← Int.lt_add_one_iff, Int.floor_lt]
      linarith
    · have hcast : ((⌊price / priceTick price sizeDecimals⌋.toNat : ℤ) : ℚ) =
          ⌊price / priceTick price sizeDecimals⌋ := by
        rw [Int.toNat_of_nonneg (Int.floor_nonneg.mpr hnonneg)]
      rw [← Int.cast_natCast (R := ℚ), hcast]
      rfl

theorem withDigits_outward (side : Side) (hprice : 0 < price) :
    WithDigits 5 (outward side (priceTick price sizeDecimals) price) := by
  obtain ⟨units, hle, heq⟩ := outward_eq_units sizeDecimals side hprice
  obtain ⟨e, he⟩ := priceTick_eq_zpow sizeDecimals hprice
  rw [heq, he]
  exact withDigits_of_le (by norm_num) hle e

theorem abs_outward_sub_lt (side : Side) (hprice : 0 < price) :
    |outward side (priceTick price sizeDecimals) price - price| < priceTick price sizeDecimals := by
  have htick := priceTick_pos sizeDecimals hprice
  cases side with
  | buy => exact abs_roundUp_sub_lt htick price
  | sell => exact abs_roundDown_sub_lt htick price

theorem outward_of_fract_eq_zero {tick : ℚ} (side : Side) (htick : 0 < tick)
    (h : Int.fract (price / tick) = 0) : outward side tick price = price := by
  cases side with
  | buy => exact roundUp_eq_self htick h
  | sell =>
    have hsub := sub_roundDown htick price
    rw [h, zero_mul, sub_eq_zero] at hsub
    exact hsub.symm

theorem not_withDecimals_tenth {tick : ℚ} {decimals : ℕ} (h : tick = 1 / 10 ^ decimals) :
    ¬WithDecimals decimals (tick / 10) := by
  have htenth : tick / 10 = 1 / 10 ^ (decimals + 1) := by
    rw [h, pow_succ, div_div]
  rw [htenth, withDecimals_unit_iff]
  omega

theorem priceTick_fine (hprice : 1 ≤ price) :
    priceTick price sizeDecimals ≤ price / 10 ^ 4 ∨
      priceTick price sizeDecimals = 1 / 10 ^ (6 - sizeDecimals) := by
  have hpow : (10 : ℚ) ^ (integerDigits price - 1) ≤ price := pow_pred_length_toDigits_le hprice
  have hdigits : 0 < integerDigits price := Nat.length_toDigits_pos
  rw [priceTick_eq sizeDecimals (by linarith)]
  split
  · rename_i hlong
    left
    rw [le_div_iff₀ (by norm_num), ← pow_add]
    rwa [show integerDigits price - 5 + 4 = integerDigits price - 1 by omega]
  · rename_i hshort
    rcases le_total (6 - sizeDecimals) (5 - integerDigits price) with hle | hle
    · right
      rw [min_eq_right hle]
    · left
      rw [min_eq_left hle, div_le_div_iff₀ (by positivity) (by norm_num), one_mul]
      calc (10 : ℚ) ^ 4 = 10 ^ (integerDigits price - 1) * 10 ^ (5 - integerDigits price) := by
            rw [← pow_add]
            congr 1
            omega
        _ ≤ price * 10 ^ (5 - integerDigits price) := by gcongr

theorem priceTick_of_lt_one (hprice : 0 < price) (hone : price < 1) :
    priceTick price sizeDecimals = 1 / 10 ^ min 4 (6 - sizeDecimals) := by
  have hdigits : integerDigits price = 1 := length_toDigits_of_lt_one hone
  rw [priceTick_eq sizeDecimals hprice, hdigits]
  rfl

/-- What a price is rounded to: within a part in ten thousand unless the grid is that of the last
decimal, of five significant digits, and not zero where the decimals represent the price. -/
structure FaithfullyRounded (price : ℚ) (sizeDecimals : ℕ) (rounded : ℚ) : Prop where
  close : |rounded - price| ≤ price / 10 ^ 4 ∨
    ¬WithDecimals (6 - sizeDecimals) (priceTick price sizeDecimals / 10)
  significant : WithDigits 5 rounded
  kept : price < 1 → WithDecimals (6 - sizeDecimals) price → rounded ≠ 0

/-- Only a price below one with more than four decimals to write it can be rounded too far; it is
not where it lies on the grid of four decimals, or near enough to it on both sides. -/
def TickFits (price : ℚ) (sizeDecimals : ℕ) : Prop :=
  1 ≤ price ∨ 2 ≤ sizeDecimals ∨ Int.fract (price * 10 ^ 4) = 0 ∨
    Int.fract (price * 10 ^ 4) ≤ price ∧ 1 - Int.fract (price * 10 ^ 4) ≤ price

theorem ne_zero_of_close {rounded : ℚ} (hprice : 0 < price)
    (h : |rounded - price| ≤ price / 10 ^ 4) : rounded ≠ 0 := by
  rintro rfl
  rw [zero_sub, abs_neg, abs_of_pos hprice] at h
  linarith

variable {sizeDecimals}

theorem faithfullyRounded_of_close (side : Side) (hprice : 0 < price)
    (h : |outward side (priceTick price sizeDecimals) price - price| ≤ price / 10 ^ 4) :
    FaithfullyRounded price sizeDecimals (outward side (priceTick price sizeDecimals) price) where
  close := .inl h
  significant := withDigits_outward sizeDecimals side hprice
  kept := fun _ _ => ne_zero_of_close hprice h

theorem faithfullyRounded_of_last (side : Side) (hprice : 0 < price)
    (h : priceTick price sizeDecimals = 1 / 10 ^ (6 - sizeDecimals)) :
    FaithfullyRounded price sizeDecimals (outward side (priceTick price sizeDecimals) price) where
  close := .inr (not_withDecimals_tenth h)
  significant := withDigits_outward sizeDecimals side hprice
  kept := by
    rintro - ⟨n, hn⟩
    have hunits : price / priceTick price sizeDecimals = n := by
      rw [h, hn]
      field_simp
    rw [outward_of_fract_eq_zero side (priceTick_pos sizeDecimals hprice)
      (by rw [hunits, Int.fract_natCast])]
    exact hprice.ne'

theorem priceTick_of_few (hprice : 0 < price) (hone : price < 1) (hsize : sizeDecimals < 2) :
    priceTick price sizeDecimals = 1 / 10 ^ 4 := by
  rw [priceTick_of_lt_one sizeDecimals hprice hone, min_eq_left (by omega)]

theorem div_priceTick_of_few (hprice : 0 < price) (hone : price < 1) (hsize : sizeDecimals < 2) :
    price / priceTick price sizeDecimals = price * 10 ^ 4 := by
  rw [priceTick_of_few hprice hone hsize, div_div_eq_mul_div, div_one]

theorem withDecimals_tenth (hprice : 0 < price) (hone : price < 1) (hsize : sizeDecimals < 2) :
    WithDecimals (6 - sizeDecimals) (priceTick price sizeDecimals / 10) := by
  rw [priceTick_of_few hprice hone hsize, div_div, ← pow_succ, withDecimals_unit_iff]
  omega

theorem abs_outward_sub_of_few (hprice : 0 < price) (hone : price < 1) (hsize : sizeDecimals < 2)
    (side : Side) (h : Int.fract (price * 10 ^ 4) ≠ 0) :
    |outward side (priceTick price sizeDecimals) price - price| =
      match side with
      | .buy => (1 - Int.fract (price * 10 ^ 4)) / 10 ^ 4
      | .sell => Int.fract (price * 10 ^ 4) / 10 ^ 4 := by
  have htick := priceTick_pos sizeDecimals hprice
  have hunits := div_priceTick_of_few hprice hone hsize
  cases side with
  | buy =>
    have hsub := roundUp_sub htick (x := price) (by rwa [hunits])
    have hle := le_roundUp htick price
    rw [hunits, priceTick_of_few hprice hone hsize, mul_one_div] at hsub
    simp only [outward]
    rw [abs_of_nonneg (sub_nonneg.mpr hle), priceTick_of_few hprice hone hsize, hsub]
  | sell =>
    have hsub := sub_roundDown htick price
    have hle := roundDown_le htick price
    rw [hunits, priceTick_of_few hprice hone hsize, mul_one_div] at hsub
    simp only [outward]
    rw [abs_sub_comm, abs_of_nonneg (sub_nonneg.mpr hle), priceTick_of_few hprice hone hsize, hsub]

theorem faithfullyRounded_of_few_iff (hprice : 0 < price) (hone : price < 1)
    (hsize : sizeDecimals < 2) (h : Int.fract (price * 10 ^ 4) ≠ 0) :
    (∀ side, FaithfullyRounded price sizeDecimals
      (outward side (priceTick price sizeDecimals) price)) ↔
      Int.fract (price * 10 ^ 4) ≤ price ∧ 1 - Int.fract (price * 10 ^ 4) ≤ price := by
  have hmove := fun side => abs_outward_sub_of_few hprice hone hsize side h
  have hten : (0 : ℚ) < 10 ^ 4 := by norm_num
  constructor
  · intro hfaithful
    have hclose := fun side =>
      (hfaithful side).close.resolve_right (not_not_intro (withDecimals_tenth hprice hone hsize))
    constructor
    · have hsell := hclose .sell
      rwa [hmove .sell, div_le_div_iff_of_pos_right hten] at hsell
    · have hbuy := hclose .buy
      rwa [hmove .buy, div_le_div_iff_of_pos_right hten] at hbuy
  · rintro ⟨hdown, hup⟩ side
    apply faithfullyRounded_of_close side hprice
    rw [hmove side]
    cases side with
    | buy => exact (div_le_div_iff_of_pos_right hten).mpr hup
    | sell => exact (div_le_div_iff_of_pos_right hten).mpr hdown

theorem outward_faithful_iff (hprice : 0 < price) :
    (∀ side, FaithfullyRounded price sizeDecimals
      (outward side (priceTick price sizeDecimals) price)) ↔ TickFits price sizeDecimals := by
  unfold TickFits
  by_cases hone : 1 ≤ price
  · simp only [hone, true_or, iff_true]
    intro side
    rcases priceTick_fine sizeDecimals hone with hfine | hlast
    · apply faithfullyRounded_of_close side hprice
      exact (abs_outward_sub_lt sizeDecimals side hprice).le.trans hfine
    · exact faithfullyRounded_of_last side hprice hlast
  · simp only [hone, false_or]
    push Not at hone
    by_cases hsize : 2 ≤ sizeDecimals
    · simp only [hsize, true_or, iff_true]
      intro side
      apply faithfullyRounded_of_last side hprice
      rw [priceTick_of_lt_one sizeDecimals hprice hone, min_eq_right (by omega)]
    · simp only [hsize, false_or]
      push Not at hsize
      by_cases hgrid : Int.fract (price * 10 ^ 4) = 0
      · simp only [hgrid, true_or, iff_true]
        intro side
        apply faithfullyRounded_of_close side hprice
        rw [outward_of_fract_eq_zero side (priceTick_pos sizeDecimals hprice)
          (by rwa [div_priceTick_of_few hprice hone hsize]), sub_self, abs_zero]
        positivity
      · simp only [hgrid, false_or]
        exact faithfullyRounded_of_few_iff hprice hone hsize hgrid

/-- An order is priced faithfully on both sides exactly where the price is from one on, where the
exchange allows four decimals at most, or where the price lies on the grid of four decimals or
within a part in ten thousand of it. -/
theorem price_tick_faithful_iff (price : ℚ) (sizeDecimals : ℕ) (hprice : 0 < price) :
    (∀ side, ∃ rounded,
      roundPriceOutward price (priceTick price sizeDecimals) side = .ok rounded ∧
        FaithfullyRounded price sizeDecimals rounded) ↔ TickFits price sizeDecimals := by
  rw [← outward_faithful_iff hprice]
  apply forall_congr'
  intro side
  simp only [roundPriceOutward_eq_ok side hprice (priceTick_pos sizeDecimals hprice),
    Except.ok.injEq, exists_eq_left']

theorem price_tick_faithful_bitcoin :
    (0 : ℚ) < 113377 ∧ ((∀ side, ∃ rounded,
      roundPriceOutward 113377 (priceTick 113377 5) side = .ok rounded ∧
        FaithfullyRounded 113377 5 rounded) ↔ TickFits 113377 5) :=
  ⟨by norm_num, price_tick_faithful_iff 113377 5 (by norm_num)⟩

/-- A price of five decimals is sold at zero, though six decimals were allowed. -/
theorem small_price_rounded_to_zero :
    WithDecimals (6 - 0) (1 / 20000 : ℚ) ∧
      roundPriceOutward (1 / 20000) (priceTick (1 / 20000) 0) .sell = .ok 0 ∧
      ¬FaithfullyRounded (1 / 20000) 0 0 := by
  have hdecimals : WithDecimals (6 - 0) (1 / 20000 : ℚ) := ⟨50, by norm_num⟩
  refine ⟨hdecimals, by decide +kernel, ?_⟩
  intro h
  exact h.kept (by norm_num) hdecimals rfl

end CopyTrade.Analysis
