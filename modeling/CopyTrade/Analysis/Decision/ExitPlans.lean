import CopyTrade.Foundation.Grid
import CopyTrade.Model.Core.ShadowIoc
import Mathlib.Data.Sign.Basic

/-!
# Execution floors and the plans that reduce a position

A floor is the exchange minimum and its buffer, in whole lots at the bounded price of its side; the
opening floor adds the closeability margin, since what was bought is sold at a lower bounded price.
An exit is sized by the quantity that is held, rounded down to whole lots, and only planned when
nothing else of the asset is outstanding, so that the position is not oversold.
-/

namespace CopyTrade.Analysis

open Foundation Model Model.ExecutionFloor Model.ExactDecimal Model.ExitPlanning

section

/-- The mark moved against the side by the maximum slippage, rounded outward to the tick. -/
def slippedPrice (side : Side) (rules : MarketRules ℚ) (policy : ExecutionFloorPolicy ℚ) : ℚ :=
  match side with
  | .buy => roundUp rules.priceTick (rules.markPrice * (1 + policy.maximumSlippageFraction))
  | .sell => roundDown rules.priceTick (rules.markPrice * (1 - policy.maximumSlippageFraction))

/-- The least notional of an order: the exchange minimum and the rounding buffer. -/
def requiredOrder (policy : ExecutionFloorPolicy ℚ) : ℚ :=
  policy.exchangeMinimumNotional + policy.roundingBuffer

def requiredOpening (policy : ExecutionFloorPolicy ℚ) : ℚ :=
  requiredOrder policy + policy.closeabilityMargin

/-- The lots that a notional takes at the slipped price of a side. -/
def lotsNeeded (notional : ℚ) (side : Side) (rules : MarketRules ℚ)
    (policy : ExecutionFloorPolicy ℚ) : ℤ :=
  ⌈notional / slippedPrice side rules policy / rules.sizeStep⌉

structure FloorInputs (rules : MarketRules ℚ) (policy : ExecutionFloorPolicy ℚ) : Prop where
  mark : 0 < rules.markPrice
  tick : 0 < rules.priceTick
  lot : 0 < rules.sizeStep
  minimum : 10 ≤ policy.exchangeMinimumNotional
  buffer : 0 < policy.roundingBuffer
  margin : 0 ≤ policy.closeabilityMargin
  slippage : 0 ≤ policy.maximumSlippageFraction
  slippageBelow : policy.maximumSlippageFraction < 1

theorem new_eq_natCast (mantissa : ℕ) : (Decimal.new mantissa 0 : ℚ) = mantissa := by
  simp [Decimal.new]

variable {policy : ExecutionFloorPolicy ℚ} {rules : MarketRules ℚ} {side : Side}

theorem floorInputs_iff :
    ExecutionFloor.validate rules policy = .ok () ↔ FloorInputs rules policy := by
  have hten : (Decimal.new 10 0 : ℚ) = 10 := new_eq_natCast 10
  unfold ExecutionFloor.validate
  split
  · rename_i hinvalid
    refine iff_of_false (by simp) ?_
    intro hvalid
    have hmark := hvalid.mark
    have htick := hvalid.tick
    have hlot := hvalid.lot
    have hminimum := hvalid.minimum
    have hbuffer := hvalid.buffer
    have hmargin := hvalid.margin
    have hslippage := hvalid.slippage
    have hbelow := hvalid.slippageBelow
    simp only [Bool.or_eq_true, le_iff_le, lt_iff_lt, zero_eq, one_eq, hten, Bool.not_eq_true',
      ← Bool.not_eq_true, Bool.and_eq_true, not_and_or, not_le, not_lt] at hinvalid
    rcases hinvalid with (((((h | h) | h) | h) | h) | h) | h | h <;> linarith
  · rename_i hvalid
    refine iff_of_true rfl ?_
    simp only [Bool.or_eq_true, le_iff_le, lt_iff_lt, zero_eq, one_eq, hten, Bool.not_eq_true',
      ← Bool.not_eq_true, Bool.and_eq_true, not_or, not_le, not_lt, not_not] at hvalid
    obtain ⟨⟨⟨⟨⟨⟨hmark, htick⟩, hlot⟩, hminimum⟩, hbuffer⟩, hmargin⟩, hslippage, hbelow⟩ := hvalid
    exact ⟨hmark, htick, hlot, hminimum, hbuffer, hmargin, hslippage, hbelow⟩

theorem orFloorOverflow_eq_ok_iff {α : Type} {operation : String} {result : Option α} {value : α} :
    orFloorOverflow operation result = .ok value ↔ result = some value := by
  cases result <;> simp [orFloorOverflow]

theorem checkedDiv_eq_some_iff {x y q : ℚ} :
    Decimal.checkedDiv x y = some q ↔ y ≠ 0 ∧ x / y = q := by
  by_cases hy : y = 0
  · subst hy
    simp [Decimal.checkedDiv]
  · rw [checkedDiv_eq hy, Option.some.injEq]
    simp [hy]

theorem slippedPrice_eq {raw price : ℚ}
    (hraw : ((adverseFactor side policy.maximumSlippageFraction).bind fun factor =>
      Decimal.checkedMul rules.markPrice factor) = some raw)
    (hprice : ExecutionFloor.roundPriceOutward raw rules.priceTick side = .ok price) :
    price = slippedPrice side rules policy := by
  obtain ⟨units, hunits, hmul⟩ := of_bind hprice
  rw [orFloorOverflow_eq_ok_iff, checkedDiv_eq_some_iff] at hunits
  rw [orFloorOverflow_eq_ok_iff, checkedMul_eq, Option.some.injEq] at hmul
  obtain ⟨-, rfl⟩ := hunits
  subst hmul
  cases side with
  | buy =>
    rw [adverseFactor, checkedAdd_eq, Option.bind_some, checkedMul_eq, Option.some.injEq,
      one_eq] at hraw
    subst hraw
    rfl
  | sell =>
    rw [adverseFactor, checkedSub_eq, Option.bind_some, checkedMul_eq, Option.some.injEq,
      one_eq] at hraw
    subst hraw
    rfl

theorem quantityForNotional_eq {notional price lot quantity : ℚ}
    (h : quantityForNotional notional price lot = .ok quantity) :
    price ≠ 0 ∧ quantity = roundUp lot (notional / price) := by
  obtain ⟨raw, hraw, h⟩ := of_bind h
  obtain ⟨units, hunits, h⟩ := of_bind h
  rw [orFloorOverflow_eq_ok_iff, checkedDiv_eq_some_iff] at hraw hunits
  rw [orFloorOverflow_eq_ok_iff, checkedMul_eq, Option.some.injEq] at h
  obtain ⟨hprice, rfl⟩ := hraw
  obtain ⟨-, rfl⟩ := hunits
  exact ⟨hprice, h.symm⟩

structure FloorParts (side : Side) (rules : MarketRules ℚ) (policy : ExecutionFloorPolicy ℚ)
    (floor : AssetExecutionFloor ℚ) : Prop where
  inputs : FloorInputs rules policy
  price : floor.boundedIocPrice = slippedPrice side rules policy
  pricePositive : 0 < floor.boundedIocPrice
  quantity : floor.minimumQuantity =
    roundUp rules.sizeStep (requiredOrder policy / floor.boundedIocPrice)
  order : floor.minimumOrderNotional = floor.minimumQuantity * floor.boundedIocPrice
  opening : floor.minimumOpeningNotional =
    roundUp rules.sizeStep (requiredOpening policy / floor.boundedIocPrice) * floor.boundedIocPrice

theorem slippedPrice_nonneg (h : FloorInputs rules policy) :
    0 ≤ slippedPrice side rules policy := by
  cases side with
  | buy =>
    have hfactor : 0 < 1 + policy.maximumSlippageFraction := by linarith [h.slippage]
    exact (roundUp_pos h.tick (mul_pos h.mark hfactor)).le
  | sell =>
    have hfactor : 0 ≤ 1 - policy.maximumSlippageFraction := by linarith [h.slippageBelow]
    exact roundDown_nonneg h.tick (mul_nonneg h.mark.le hfactor)

theorem executionFloorForAsset_parts {floor : AssetExecutionFloor ℚ}
    (h : executionFloorForAsset side rules policy = .ok floor) :
    FloorParts side rules policy floor := by
  obtain ⟨⟨⟩, hvalid, h⟩ := of_bind h
  obtain ⟨raw, hraw, h⟩ := of_bind h
  obtain ⟨price, hprice, h⟩ := of_bind h
  obtain ⟨order, horder, h⟩ := of_bind h
  obtain ⟨opening, hopening, h⟩ := of_bind h
  obtain ⟨orderQuantity, horderQuantity, h⟩ := of_bind h
  obtain ⟨openingQuantity, hopeningQuantity, h⟩ := of_bind h
  obtain ⟨orderNotional, horderNotional, h⟩ := of_bind h
  obtain ⟨openingNotional, hopeningNotional, h⟩ := of_bind h
  have hinputs := floorInputs_iff.mp hvalid
  rw [orFloorOverflow_eq_ok_iff] at hraw
  rw [orFloorOverflow_eq_ok_iff, checkedAdd_eq, Option.some.injEq] at horder hopening
  rw [orFloorOverflow_eq_ok_iff, checkedMul_eq, Option.some.injEq] at horderNotional hopeningNotional
  have hslipped := slippedPrice_eq hraw hprice
  obtain ⟨hne, horderQuantity⟩ := quantityForNotional_eq horderQuantity
  obtain ⟨-, hopeningQuantity⟩ := quantityForNotional_eq hopeningQuantity
  rw [pure_eq_ok_iff] at h
  subst h horderNotional hopeningNotional horder hopening
  have hnonneg : 0 ≤ price := hslipped ▸ slippedPrice_nonneg hinputs
  exact ⟨hinputs, hslipped, lt_of_le_of_ne hnonneg hne.symm, horderQuantity, rfl,
    congrArg (· * price) hopeningQuantity⟩

theorem FloorParts.required_le {floor : AssetExecutionFloor ℚ}
    (h : FloorParts side rules policy floor) :
    requiredOrder policy ≤ floor.minimumOrderNotional := by
  rw [h.order, h.quantity]
  apply (div_le_iff₀ h.pricePositive).mp
  exact le_roundUp h.inputs.lot _

def closingSide : Side → Side
  | .buy => .sell
  | .sell => .buy

/-- A position can be closed at a floor: all of it is worth the least order. -/
def Closeable (quantity : ℚ) (closing : AssetExecutionFloor ℚ) : Prop :=
  closing.minimumOrderNotional ≤ quantity * closing.boundedIocPrice

theorem sell_price_le_buy_price (h : FloorInputs rules policy) :
    slippedPrice .sell rules policy ≤ slippedPrice .buy rules policy := by
  have hmark := h.mark
  have hslippage := h.slippage
  have hfactor : 1 - policy.maximumSlippageFraction ≤ 1 + policy.maximumSlippageFraction := by
    linarith
  have hsell := roundDown_le h.tick (rules.markPrice * (1 - policy.maximumSlippageFraction))
  have hbuy := le_roundUp h.tick (rules.markPrice * (1 + policy.maximumSlippageFraction))
  have hraw := mul_le_mul_of_nonneg_left hfactor hmark.le
  exact hsell.trans (hraw.trans hbuy)

theorem requiredOrder_pos (h : FloorInputs rules policy) : 0 < requiredOrder policy := by
  have hminimum := h.minimum
  have hbuffer := h.buffer
  unfold requiredOrder
  linarith

/-- What is opened at one floor can be closed at the other exactly when it is as many lots as the
least closing order. -/
theorem closeable_iff_lots {opening closing : AssetExecutionFloor ℚ}
    (hopening : FloorParts side rules policy opening)
    (hclosing : FloorParts (closingSide side) rules policy closing) {quantity : ℚ}
    (hquantity : quantity * opening.boundedIocPrice = opening.minimumOpeningNotional) :
    Closeable quantity closing ↔
      lotsNeeded (requiredOrder policy) (closingSide side) rules policy ≤
        lotsNeeded (requiredOpening policy) side rules policy := by
  have hopened : quantity =
      roundUp rules.sizeStep (requiredOpening policy / opening.boundedIocPrice) := by
    rw [hopening.opening] at hquantity
    exact mul_right_cancel₀ hopening.pricePositive.ne' hquantity
  unfold Closeable lotsNeeded
  rw [hclosing.order, mul_le_mul_iff_of_pos_right hclosing.pricePositive, hclosing.quantity,
    hopened, roundUp_le_roundUp_iff hopening.inputs.lot, hclosing.price, hopening.price]

/-- **Closing at the floor.**  A position of exactly the opening quantity can be closed at the same
mark exactly when it was opened by a sale, or the exchange minimum with its buffer takes no more
lots at the selling price than with the margin at the buying price. -/
theorem opening_closeable_iff {side : Side} {rules : MarketRules ℚ}
    {policy : ExecutionFloorPolicy ℚ} {opening closing : AssetExecutionFloor ℚ}
    (hopening : executionFloorForAsset side rules policy = .ok opening)
    (hclosing : executionFloorForAsset (closingSide side) rules policy = .ok closing)
    {quantity : ℚ}
    (hquantity : quantity * opening.boundedIocPrice = opening.minimumOpeningNotional) :
    Closeable quantity closing ↔
      side = .sell ∨ lotsNeeded (requiredOrder policy) .sell rules policy ≤
        lotsNeeded (requiredOpening policy) .buy rules policy := by
  have hopened := executionFloorForAsset_parts hopening
  have hclosed := executionFloorForAsset_parts hclosing
  rw [closeable_iff_lots hopened hclosed hquantity]
  cases side with
  | buy => simp [closingSide]
  | sell =>
    refine iff_of_true ?_ (.inl rfl)
    have hinputs := hopened.inputs
    have hsell : 0 < slippedPrice .sell rules policy := hopened.price ▸ hopened.pricePositive
    have hprices := sell_price_le_buy_price hinputs
    have hmargin : requiredOrder policy ≤ requiredOpening policy := by
      have := hinputs.margin
      unfold requiredOpening
      linarith
    apply Int.ceil_mono
    apply div_le_div_of_nonneg_right _ hinputs.lot.le
    exact div_le_div₀ ((requiredOrder_pos hinputs).le.trans hmargin) hmargin hsell hprices

def sampleFloorRules : MarketRules ℚ where
  markPrice := 100
  priceTick := 1
  sizeStep := 1 / 1000

def sampleFloorPolicy (margin : ℚ) : ExecutionFloorPolicy ℚ where
  exchangeMinimumNotional := 10
  roundingBuffer := 1 / 5
  closeabilityMargin := margin
  maximumSlippageFraction := 1 / 20

theorem opening_closeable_iff_margin :
    Closeable (117 / 1000) ⟨95, 108 / 1000, 108 * 95 / 1000, 129 * 95 / 1000⟩ ↔
      Side.buy = .sell ∨
        lotsNeeded (requiredOrder (sampleFloorPolicy 2)) .sell sampleFloorRules
            (sampleFloorPolicy 2) ≤
          lotsNeeded (requiredOpening (sampleFloorPolicy 2)) .buy sampleFloorRules
            (sampleFloorPolicy 2) := by
  have hopening : executionFloorForAsset .buy sampleFloorRules (sampleFloorPolicy 2) =
      .ok ⟨105, 98 / 1000, 98 * 105 / 1000, 117 * 105 / 1000⟩ := by
    decide +kernel
  have hclosing : executionFloorForAsset .sell sampleFloorRules (sampleFloorPolicy 2) =
      .ok ⟨95, 108 / 1000, 108 * 95 / 1000, 129 * 95 / 1000⟩ := by
    decide +kernel
  exact opening_closeable_iff hopening hclosing (by norm_num)

/-- With a margin of one half a buyer opens 102 lots at 105, and 108 lots at 95 are the least
sale. -/
theorem opening_not_closeable :
    executionFloorForAsset .buy sampleFloorRules (sampleFloorPolicy (1 / 2)) =
        .ok ⟨105, 98 / 1000, 98 * 105 / 1000, 102 * 105 / 1000⟩ ∧
      executionFloorForAsset .sell sampleFloorRules (sampleFloorPolicy (1 / 2)) =
        .ok ⟨95, 108 / 1000, 108 * 95 / 1000, 113 * 95 / 1000⟩ ∧
      ¬ Closeable (102 / 1000) ⟨95, 108 / 1000, 108 * 95 / 1000, 113 * 95 / 1000⟩ := by
  refine ⟨by decide +kernel, by decide +kernel, ?_⟩
  unfold Closeable
  norm_num

end

theorem orExitOverflow_eq_ok_iff {α : Type} {operation : String} {result : Option α} {value : α} :
    orExitOverflow (D := ℚ) operation result = .ok value ↔ result = some value := by
  cases result <;> simp [orExitOverflow]

def positionAfterFill : Side → ℚ → ℚ → ℚ
  | .buy, position, quantity => position + quantity
  | .sell, position, quantity => position - quantity

theorem exit_validate_spec {input : ExitPlanningInput ℚ}
    (h : ExitPlanning.validate input = .ok ()) :
    0 < input.referencePrice ∧ 0 < input.marketRules.sizeStep := by
  unfold ExitPlanning.validate at h
  split at h
  · cases h
  · rename_i hvalid
    simp only [Bool.or_eq_true, not_or, le_iff_le, zero_eq, not_le] at hvalid
    exact ⟨hvalid.1.1.2, hvalid.1.2⟩

theorem ne_zero_of_classify {committed desired : ℚ}
    (hsatisfied : classify committed desired ≠ .alreadySatisfied)
    (hincrease : classify committed desired ≠ .exposureIncrease) : committed ≠ 0 := by
  intro hzero
  unfold classify at hsatisfied hincrease
  split at hsatisfied
  · exact hsatisfied rfl
  · rename_i hne
    rw [if_neg hne, if_pos ((isZero_iff_eq_zero committed).mpr hzero)] at hincrease
    exact hincrease rfl

/-- The quantity of an exit before it is rounded: no more than is held, and a partial reduction
leaves what the desired target is at the reference price. -/
theorem rawQuantity_spec {input : ExitPlanningInput ℚ} {residualClass : ResidualClass} {raw : ℚ}
    (hreference : 0 < input.referencePrice) (h : rawQuantity input residualClass = .ok raw) :
    0 ≤ raw ∧ raw ≤ |input.filledQuantity| ∧
      (residualClass = .riskReduction → 0 < raw →
        |input.desiredTargetNotional| / input.referencePrice ≤ |input.filledQuantity| - raw) := by
  cases residualClass with
  | fullExit =>
    cases h
    simp
  | directionFlipCloseLeg =>
    cases h
    simp
  | riskReduction =>
    obtain ⟨destination, hdestination, h⟩ := of_bind h
    obtain ⟨reduction, hreduction, h⟩ := of_bind h
    rw [orExitOverflow_eq_ok_iff, checkedDiv_eq_some_iff, abs_eq] at hdestination
    rw [orExitOverflow_eq_ok_iff, checkedSub_eq, Option.some.injEq, abs_eq] at hreduction
    rw [pure_eq_ok_iff, max_eq, zero_eq] at h
    obtain ⟨-, hdestination⟩ := hdestination
    have hnonneg : 0 ≤ destination := by
      rw [← hdestination]
      exact div_nonneg (abs_nonneg _) hreference.le
    subst h
    refine ⟨le_max_right _ _, ?_, ?_⟩
    · apply max_le _ (abs_nonneg _)
      linarith
    · intro _ hpositive
      rcases lt_max_iff.mp hpositive with hreduced | hzero
      · rw [max_eq_left hreduced.le, hdestination]
        linarith
      · exact absurd hzero (lt_irrefl 0)
  | exposureIncrease => cases h
  | alreadySatisfied => cases h

theorem roundDown_eq {value step rounded : ℚ}
    (h : ExitPlanning.roundDown value step = .ok rounded) :
    rounded = Foundation.roundDown step value := by
  unfold ExitPlanning.roundDown at h
  rw [orExitOverflow_eq_ok_iff, Option.bind_eq_some_iff] at h
  obtain ⟨units, hunits, hrounded⟩ := h
  rw [checkedDiv_eq_some_iff] at hunits
  rw [checkedMul_eq, Option.some.injEq] at hrounded
  obtain ⟨-, rfl⟩ := hunits
  exact hrounded.symm

/-- A plan that only reduces the position it was made for. -/
structure OnlyReduces (input : ExitPlanningInput ℚ) (plan : ExitPlan ℚ) : Prop where
  open_settled : input.acknowledgedOpenNotional = 0
  unknown_settled : input.unknownResultNotional = 0
  continuation_settled : input.continuationNotional = 0
  opposes : plan.side = .sell ∧ 0 < input.filledQuantity ∨
    plan.side = .buy ∧ input.filledQuantity < 0
  lots : ∃ n : ℕ, 0 < n ∧ plan.quantity = n * input.marketRules.sizeStep
  held : plan.quantity ≤ |input.filledQuantity|
  keepsSign : 0 ≤ positionAfterFill plan.side input.filledQuantity plan.quantity *
    input.filledQuantity
  residualClass : plan.residualClass = classify input.filledNotional input.desiredTargetNotional
  partialReduction : plan.residualClass = .riskReduction →
    |input.desiredTargetNotional| / input.referencePrice ≤
      |positionAfterFill plan.side input.filledQuantity plan.quantity|
  floor : executionFloorForAsset plan.side input.marketRules input.executionFloorPolicy =
    .ok plan.executionFloor
  worth : input.executionFloorPolicy.exchangeMinimumNotional +
      input.executionFloorPolicy.roundingBuffer ≤
    plan.quantity * plan.executionFloor.boundedIocPrice

theorem positionAfterFill_opposed {side : Side} {position quantity : ℚ}
    (hside : side = .sell ∧ 0 < position ∨ side = .buy ∧ position < 0)
    (hheld : quantity ≤ |position|) :
    |positionAfterFill side position quantity| = |position| - quantity ∧
      0 ≤ positionAfterFill side position quantity * position := by
  rcases hside with ⟨rfl, hposition⟩ | ⟨rfl, hposition⟩
  · rw [abs_of_pos hposition] at hheld ⊢
    have hleft : 0 ≤ position - quantity := by linarith
    exact ⟨abs_of_nonneg hleft, mul_nonneg hleft hposition.le⟩
  · rw [abs_of_neg hposition] at hheld ⊢
    have hleft : position + quantity ≤ 0 := by linarith
    refine ⟨?_, mul_nonneg_of_nonpos_of_nonpos hleft hposition.le⟩
    rw [positionAfterFill, abs_of_nonpos hleft]
    ring

/-- **Exits only reduce.**  A plan comes about only with nothing outstanding, opposes the position,
is a positive number of lots within what is held, leaves the sign and, for a partial reduction, at
least the desired notional, and is worth the exchange minimum with its buffer. -/
theorem exit_plan_only_reduces {input : ExitPlanningInput ℚ} {plan : ExitPlan ℚ}
    (hsign : SignType.sign input.filledNotional = SignType.sign input.filledQuantity)
    (h : planRiskReducingIoc input = .ok plan) : OnlyReduces input plan := by
  obtain ⟨⟨⟩, hvalid, h⟩ := of_bind h
  obtain ⟨committed, hcommitted, h⟩ := of_bind h
  obtain ⟨residual, -, h⟩ := of_bind h
  obtain ⟨hreference, hlot⟩ := exit_validate_spec hvalid
  dsimp only at h
  split at h
  · cases h
  rename_i hsatisfied
  split at h
  · cases h
  rename_i hincrease
  split at h
  · cases h
  rename_i hsettled
  simp only [Bool.or_eq_true, Bool.not_eq_true', not_or, Bool.not_eq_false, isZero_iff_eq_zero]
    at hsettled
  obtain ⟨⟨hopen, hunknown⟩, hcontinuation⟩ := hsettled
  have hfilled : committed = input.filledNotional := by
    rw [orExitOverflow_eq_ok_iff] at hcommitted
    simpa [hopen, hunknown, hcontinuation] using hcommitted.symm
  subst hfilled
  have hposition := ne_zero_of_classify hsatisfied hincrease
  obtain ⟨intended, -, h⟩ := of_bind h
  obtain ⟨raw, hraw, h⟩ := of_bind h
  obtain ⟨rounded, hrounded, h⟩ := of_bind h
  obtain ⟨floor, hfloor, h⟩ := of_bind h
  obtain ⟨planned, hplanned, h⟩ := of_bind h
  split at h
  · cases h
  rename_i hworth
  obtain ⟨ioc, -, h⟩ := of_bind h
  rw [pure_eq_ok_iff] at h
  obtain ⟨hnonneg, hrawHeld, hreduced⟩ := rawQuantity_spec hreference hraw
  have hroundedEq := roundDown_eq hrounded
  have hroundedLe : rounded ≤ raw := hroundedEq ▸ roundDown_le hlot raw
  -- the clipping to what is held never changes the rounded quantity
  have hquantity : Decimal.min rounded (Decimal.abs input.filledQuantity) = rounded := by
    rw [min_eq, ExactDecimal.abs_eq, min_eq_left (hroundedLe.trans hrawHeld)]
  rw [hquantity] at h hplanned hworth
  rw [orExitOverflow_eq_ok_iff, checkedMul_eq, Option.some.injEq] at hplanned
  rw [mapError_eq_ok_iff] at hfloor
  simp only [Bool.or_eq_true, not_or, isZero_iff_eq_zero, lt_iff_lt, not_lt] at hworth
  obtain ⟨hnonzero, hworth⟩ := hworth
  have hopposes : plan.side = .sell ∧ 0 < input.filledQuantity ∨
      plan.side = .buy ∧ input.filledQuantity < 0 := by
    subst h
    rcases lt_or_gt_of_ne hposition with hshort | hlong
    · right
      rw [sign_neg hshort] at hsign
      exact ⟨if_neg (by simpa using hshort.le), sign_eq_neg_one_iff.mp hsign.symm⟩
    · left
      rw [sign_pos hlong] at hsign
      exact ⟨if_pos (by simpa using hlong), sign_eq_one_iff.mp hsign.symm⟩
  have hheld : rounded ≤ |input.filledQuantity| := hroundedLe.trans hrawHeld
  have hparts := executionFloorForAsset_parts hfloor
  subst h
  obtain ⟨hleft, hkeeps⟩ := positionAfterFill_opposed hopposes hheld
  refine ⟨hopen, hunknown, hcontinuation, hopposes, ?_, hheld, hkeeps, rfl, ?_, hfloor, ?_⟩
  · dsimp only
    rw [hroundedEq]
    exact roundDown_eq_natCast hlot hnonneg (hroundedEq ▸ hnonzero)
  · intro hclass
    rw [hleft]
    have hpositive : 0 < raw := by
      apply lt_of_le_of_ne hnonneg
      rintro rfl
      apply hnonzero
      rw [hroundedEq]
      simp [Foundation.roundDown]
    have hdesired := hreduced hclass hpositive
    linarith
  · dsimp only
    rw [hplanned]
    exact hparts.required_le.trans hworth

/-- A fifth of a coin that is held at 100 and reduced to a notional of five. -/
def sampleExit : ExitPlanningInput ℚ where
  asset := "BTC"
  desiredTargetNotional := 5
  filledNotional := 20
  filledQuantity := 1 / 5
  acknowledgedOpenNotional := 0
  unknownResultNotional := 0
  continuationNotional := 0
  referencePrice := 100
  marketRules := sampleFloorRules
  marketSnapshot := ⟨1, 100, [⟨99, 10⟩], [⟨101, 10⟩]⟩
  executionFloorPolicy := sampleFloorPolicy 0
  executionCushion := 1 / 1000
  maximumSlippage := 1 / 100

theorem exit_plan_only_reduces_partial :
    ∃ plan, planRiskReducingIoc sampleExit = .ok plan ∧ OnlyReduces sampleExit plan := by
  have hplanned : (planRiskReducingIoc sampleExit).toOption.isSome = true := by
    decide +kernel
  obtain ⟨plan, hplan⟩ := Option.isSome_iff_exists.mp hplanned
  have hsign : SignType.sign sampleExit.filledNotional = SignType.sign sampleExit.filledQuantity := by
    rw [sign_pos, sign_pos] <;> norm_num [sampleExit]
  exact ⟨plan, eq_ok_of_toOption hplan, exit_plan_only_reduces hsign (eq_ok_of_toOption hplan)⟩

end CopyTrade.Analysis
