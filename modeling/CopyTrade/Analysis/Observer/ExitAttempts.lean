import CopyTrade.Analysis.Observer.PendingTargets
import CopyTrade.Analysis.Observer.PlannedFills

/-!
# Exits at a book

A pending exit is planned anew at the book it meets, from the position and the target of that
moment. Of the refusals of the planner only an order below the exchange minimum drops the action,
every other one ends the observer.
-/

namespace CopyTrade.Analysis

open Foundation Model
open Model.ExecutionFloor Model.ExitPlanning Model.ExactDecimal

/-- A price of a side is positive after rounding: a purchase is rounded up, a sale must come to a
tick. -/
def AboveTick (side : Side) (price fraction tick : ℚ) : Prop :=
  side = .buy ∨ tick ≤ moved side price fraction

variable {policy : ExecutionFloorPolicy ℚ} {rules : MarketRules ℚ} {side : Side} {price : ℚ}

theorem slippedPrice_pos_iff (h : FloorInputs rules policy) :
    0 < slippedPrice side rules policy ↔
      AboveTick side rules.markPrice policy.maximumSlippageFraction rules.priceTick := by
  unfold AboveTick
  cases side with
  | buy =>
    have hfactor : 0 < 1 + policy.maximumSlippageFraction := by linarith [h.slippage]
    exact iff_of_true (roundUp_pos h.tick (mul_pos h.mark hfactor)) (.inl rfl)
  | sell =>
    unfold slippedPrice moved
    rw [roundDown_pos_iff h.tick]
    simp

theorem quantityForNotional_ok {notional lot : ℚ} (hprice : price ≠ 0) (hlot : lot ≠ 0) :
    quantityForNotional notional price lot = .ok (roundUp lot (notional / price)) := by
  unfold quantityForNotional
  rw [checkedDiv_eq hprice, orFloorOverflow, ok_bind, checkedDiv_eq hlot, orFloorOverflow, ok_bind,
    checkedMul_eq, orFloorOverflow]
  rfl

theorem executionFloorForAsset_iff :
    (∃ floor, executionFloorForAsset side rules policy = .ok floor) ↔
      FloorInputs rules policy ∧
        AboveTick side rules.markPrice policy.maximumSlippageFraction rules.priceTick := by
  constructor
  · rintro ⟨floor, hfloor⟩
    have hparts := executionFloorForAsset_parts hfloor
    refine ⟨hparts.inputs, (slippedPrice_pos_iff hparts.inputs).mp ?_⟩
    rw [← hparts.price]
    exact hparts.pricePositive
  · rintro ⟨hinputs, habove⟩
    have hpositive := (slippedPrice_pos_iff hinputs).mpr habove
    have hround : ∃ raw, ((adverseFactor side policy.maximumSlippageFraction).bind fun factor =>
        Decimal.checkedMul rules.markPrice factor) = some raw ∧
          ExecutionFloor.roundPriceOutward raw rules.priceTick side =
            .ok (slippedPrice side rules policy) := by
      unfold ExecutionFloor.roundPriceOutward
      simp only [checkedDiv_eq hinputs.tick.ne', orFloorOverflow, ok_bind, checkedMul_eq]
      cases side with
      | buy => exact ⟨_, by rw [adverseFactor, checkedAdd_eq, one_eq]; rfl, rfl⟩
      | sell => exact ⟨_, by rw [adverseFactor, checkedSub_eq, one_eq]; rfl, rfl⟩
    obtain ⟨raw, hraw, hrounded⟩ := hround
    unfold executionFloorForAsset
    rw [floorInputs_iff.mpr hinputs, ok_bind, hraw, orFloorOverflow, ok_bind, hrounded, ok_bind]
    simp only [checkedAdd_eq, checkedMul_eq, orFloorOverflow, ok_bind,
      quantityForNotional_ok hpositive.ne' hinputs.lot.ne']
    exact ⟨_, rfl⟩

theorem roundPriceOutward_ok {value tick : ℚ} (hvalue : 0 < value) (htick : 0 < tick) :
    ∃ rounded, Model.roundPriceOutward value tick side = .ok rounded := by
  unfold Model.roundPriceOutward
  rw [if_neg (by simp [not_le, hvalue, htick]), checkedDiv_eq htick.ne', orShadowOverflow, ok_bind,
    checkedMul_eq, orShadowOverflow]
  exact ⟨_, rfl⟩

theorem moved_of_factor {fraction : ℚ} :
    ((adverseFactor side fraction).bind fun factor => Decimal.checkedMul price factor) =
      some (moved side price fraction) := by
  cases side with
  | buy => rw [adverseFactor, checkedAdd_eq, one_eq]; rfl
  | sell => rw [adverseFactor, checkedSub_eq, one_eq]; rfl

theorem moved_pos {fraction tick : ℚ} (hprice : 0 < price) (hfraction : 0 ≤ fraction)
    (htick : 0 < tick) (h : AboveTick side price fraction tick) :
    0 < moved side price fraction := by
  rcases h with rfl | htick'
  · exact mul_pos hprice (by linarith)
  · exact htick.trans_le htick'

/-- An order can be priced, with a positive limit, exactly where the cushion is not negative and a
sale comes to a tick. -/
theorem planMarketableIoc_iff {quantity : ℚ} {snapshot : ShadowMarketSnapshot ℚ}
    {reference cushion maximumSlippage tick : ℚ} (hbook : validateBook snapshot = .ok ())
    (hquantity : 0 < quantity) (hreference : 0 < reference) (hslippage : 0 ≤ maximumSlippage)
    (hbelow : maximumSlippage < 1) (htick : 0 < tick) :
    (∃ plan, planMarketableIoc side quantity snapshot reference cushion maximumSlippage tick =
        .ok plan ∧ 0 < plan.limitPrice) ↔
      0 ≤ cushion ∧
        (side = .buy ∨ SaleAboveTick quantity snapshot reference cushion maximumSlippage tick) := by
  constructor
  · rintro ⟨plan, hplan, hlimit⟩
    have hparts := planMarketableIoc_parts hplan
    exact ⟨hparts.cushionNonneg, hparts.limit_pos_iff.mp hlimit⟩
  · rintro ⟨hcushion, hsale⟩
    have hplanned : ∃ plan, planMarketableIoc side quantity snapshot reference cushion
        maximumSlippage tick = .ok plan := by
      have hmaximum : 0 < moved side reference maximumSlippage := by
        cases side with
        | buy => exact mul_pos hreference (by linarith)
        | sell => exact mul_pos hreference (by linarith)
      obtain ⟨maximumLimit, hcap⟩ := @roundPriceOutward_ok side _ _ hmaximum htick
      unfold planMarketableIoc
      rw [if_neg (by simp [not_le, hquantity, hreference, hcushion, hslippage, htick]), hbook,
        ok_bind]
      rcases @worstRequiredPrice_exact quantity 0 (snapshot.executable side) hquantity with
        ⟨before, level, hcovered, hworst⟩ | ⟨-, hworst⟩
      · rw [sub_zero] at hcovered
        have hmem : level ∈ snapshot.executable side :=
          hcovered.initial.subset (List.mem_append_right _ (List.mem_singleton_self _))
        have hprice : 0 < level.price := by
          simpa using ((validateBook_spec hbook side).1 level hmem).1
        have habove : AboveTick side level.price cushion tick := by
          cases side with
          | buy => exact .inl rfl
          | sell => exact .inr ((hsale.resolve_left (by simp)).covered before level hcovered)
        obtain ⟨limit, hlimit⟩ :=
          @roundPriceOutward_ok side _ _ (moved_pos hprice hcushion htick habove) htick
        simp only [zero_eq, hworst, ok_bind, moved_of_factor, orShadowOverflow, hcap, hlimit,
          foldlM_checkedAdd, pure_bind]
        exact ⟨_, rfl⟩
      · simp only [zero_eq, hworst, ok_bind, moved_of_factor, orShadowOverflow, hcap,
          foldlM_checkedAdd, pure_bind]
        exact ⟨_, rfl⟩
    obtain ⟨plan, hplan⟩ := hplanned
    exact ⟨plan, hplan, (planMarketableIoc_parts hplan).limit_pos_iff.mpr hsale⟩

/-- A target below a position: the position is reduced, closed or turned. -/
def ReducesTo (committed target : ℚ) : Prop :=
  0 < committed ∧ target < committed ∨ committed < 0 ∧ committed < target

def exitSide (position : ℚ) : Side := if 0 < position then .sell else .buy

/-- The quantity of an exit: all of the position, or what exceeds a target of its sign. -/
def exitQuantity (position target price lot : ℚ) : ℚ :=
  Foundation.roundDown lot
    (if 0 < target * position then |position| - |target| / price else |position|)

theorem signsDiffer_iff {x y : ℚ} :
    (Decimal.isSignPositive x != Decimal.isSignPositive y) = true ↔ ¬ (0 ≤ x ↔ 0 ≤ y) := by
  rw [bne_iff_ne, ne_eq, Bool.eq_iff_iff, isSignPositive_iff_nonneg, isSignPositive_iff_nonneg]

theorem classify_of_reducesTo {committed target : ℚ} (h : ReducesTo committed target) :
    target * committed ≤ 0 ∧ (classify committed target = .fullExit ∨
        classify committed target = .directionFlipCloseLeg) ∨
      0 < target * committed ∧ |target| < |committed| ∧
        classify committed target = .riskReduction := by
  have hne : committed ≠ target := by
    rcases h with ⟨-, h⟩ | ⟨-, h⟩
    · exact h.ne'
    · exact h.ne
  have hcommitted : committed ≠ 0 := by
    rcases h with ⟨h, -⟩ | ⟨h, -⟩
    · exact h.ne'
    · exact h.ne
  unfold classify
  simp only [eqv_iff_eq, isZero_iff_eq_zero, lt_iff_lt, abs_eq, if_neg hne, if_neg hcommitted]
  by_cases hzero : target = 0
  · left
    simp [hzero]
  rw [if_neg hzero]
  simp only [signsDiffer_iff]
  rcases h with ⟨hpositive, hbelow⟩ | ⟨hnegative, habove⟩
  · rcases lt_or_gt_of_ne hzero with htarget | htarget
    · left
      rw [if_pos (by simp [hpositive.le, htarget])]
      exact ⟨mul_nonpos_of_nonpos_of_nonneg htarget.le hpositive.le, .inr rfl⟩
    · right
      have hless : |target| < |committed| := by
        rwa [abs_of_pos htarget, abs_of_pos hpositive]
      rw [if_neg (not_not.mpr (iff_of_true hpositive.le htarget.le)), if_pos hless]
      exact ⟨mul_pos htarget hpositive, hless, rfl⟩
  · rcases lt_or_gt_of_ne hzero with htarget | htarget
    · right
      have hless : |target| < |committed| := by
        rw [abs_of_neg htarget, abs_of_neg hnegative]
        linarith
      rw [if_neg (not_not.mpr (iff_of_false hnegative.not_ge htarget.not_ge)), if_pos hless]
      exact ⟨mul_pos_of_neg_of_neg htarget hnegative, hless, rfl⟩
    · left
      rw [if_pos (by simp [hnegative, htarget.le])]
      exact ⟨mul_nonpos_of_nonneg_of_nonpos htarget.le hnegative.le, .inr rfl⟩

theorem classify_of_not_reducesTo {committed target : ℚ} (h : ¬ ReducesTo committed target) :
    classify committed target = .alreadySatisfied ∨
      classify committed target = .exposureIncrease := by
  simp only [ReducesTo, not_or, not_and, not_lt] at h
  obtain ⟨hpositive, hnegative⟩ := h
  unfold classify
  simp only [eqv_iff_eq, isZero_iff_eq_zero, lt_iff_lt, abs_eq, signsDiffer_iff]
  by_cases hsame : committed = target
  · simp [hsame]
  rw [if_neg hsame]
  by_cases hzero : committed = 0
  · simp [hzero]
  rw [if_neg hzero]
  right
  rcases lt_or_gt_of_ne hzero with hcommitted | hcommitted
  · have htarget := hnegative hcommitted
    have hbelow : target < 0 := htarget.trans_lt hcommitted
    rw [if_neg hbelow.ne,
      if_neg (not_not.mpr (iff_of_false hcommitted.not_ge hbelow.not_ge)),
      if_neg (by rw [abs_of_neg hcommitted, abs_of_neg hbelow]; linarith)]
  · have htarget := hpositive hcommitted
    have habove : 0 < target := hcommitted.trans_le htarget
    rw [if_neg habove.ne', if_neg (not_not.mpr (iff_of_true hcommitted.le habove.le)),
      if_neg (by rw [abs_of_pos hcommitted, abs_of_pos habove]; linarith)]

abbrev exitInput (settings : ShadowSettings ℚ) (attempt : ShadowAttempt ℚ) (position : ℚ)
    (evaluation : ShadowMarketSnapshot ℚ) : ExitPlanningInput ℚ where
  asset := attempt.action.asset
  desiredTargetNotional := attempt.admittedTarget
  filledNotional := position * evaluation.midpoint
  filledQuantity := position
  acknowledgedOpenNotional := Decimal.zero
  unknownResultNotional := Decimal.zero
  continuationNotional := Decimal.zero
  referencePrice := evaluation.midpoint
  marketRules := attempt.rulesAt evaluation.midpoint
  marketSnapshot := evaluation
  executionFloorPolicy := settings.floorPolicy
  executionCushion := settings.slippageBuffer
  maximumSlippage := settings.maximumSlippage

section

variable {settings : ShadowSettings ℚ} {attempt : ShadowAttempt ℚ} {position : ℚ}
  {evaluation : ShadowMarketSnapshot ℚ}

theorem rawQuantity_of_reducesTo (hmidpoint : 0 < evaluation.midpoint)
    (hreduces : ReducesTo (position * evaluation.midpoint) attempt.admittedTarget)
    {residualClass : ResidualClass}
    (hclass : classify (position * evaluation.midpoint) attempt.admittedTarget = residualClass) :
    residualClass ≠ .alreadySatisfied ∧ residualClass ≠ .exposureIncrease ∧
      (∀ residual, ∃ intended, intendedNotional (exitInput settings attempt position evaluation)
        residual residualClass = .ok intended) ∧
      rawQuantity (exitInput settings attempt position evaluation) residualClass =
        .ok (if 0 < attempt.admittedTarget * position then
          |position| - |attempt.admittedTarget| / evaluation.midpoint else |position|) := by
  have hall : ¬ 0 < attempt.admittedTarget * position →
      rawQuantity (exitInput settings attempt position evaluation) .fullExit =
        .ok (if 0 < attempt.admittedTarget * position then
          |position| - |attempt.admittedTarget| / evaluation.midpoint else |position|) := by
    intro hopposite
    rw [if_neg hopposite, rawQuantity, ExactDecimal.abs_eq]
  subst hclass
  rcases classify_of_reducesTo hreduces with ⟨hopposite, hclass⟩ | ⟨hsame, hless, hclass⟩
  · have hposition : ¬ 0 < attempt.admittedTarget * position := by
      rw [not_lt]
      rw [← mul_assoc] at hopposite
      exact nonpos_of_mul_nonpos_left hopposite hmidpoint
    rcases hclass with hclass | hclass
    · rw [hclass]
      exact ⟨by decide, by decide, fun _ => ⟨_, rfl⟩, hall hposition⟩
    · rw [hclass]
      exact ⟨by decide, by decide, fun _ => ⟨_, rfl⟩, hall hposition⟩
  · rw [← mul_assoc] at hsame
    have hposition := (mul_pos_iff_of_pos_right hmidpoint).mp hsame
    have hexcess : |attempt.admittedTarget| / evaluation.midpoint < |position| := by
      rw [abs_mul, abs_of_pos hmidpoint] at hless
      rwa [div_lt_iff₀ hmidpoint]
    rw [hclass, if_pos hposition]
    refine ⟨by decide, by decide, fun _ => ⟨_, rfl⟩, ?_⟩
    unfold rawQuantity exitInput
    simp only [checkedDiv_eq hmidpoint.ne', checkedSub_eq, orExitOverflow, ok_bind,
      ExactDecimal.abs_eq, max_eq, zero_eq]
    rw [max_eq_left (by linarith)]
    rfl

theorem exit_validate_of_named (hnamed : attempt.action.asset ≠ "")
    (hmidpoint : 0 < evaluation.midpoint) (hlot : 0 < attempt.rules.sizeStep) :
    ExitPlanning.validate (exitInput settings attempt position evaluation) = .ok () := by
  have hzero : Decimal.isZero (position * evaluation.midpoint) = Decimal.isZero position := by
    rw [Bool.eq_iff_iff, isZero_iff_eq_zero, isZero_iff_eq_zero,
      mul_eq_zero_iff_right hmidpoint.ne']
  unfold ExitPlanning.validate exitInput
  apply if_neg
  simp [hnamed, hmidpoint, hzero, ShadowAttempt.rulesAt, hlot]

theorem exit_committed (filled : ℚ) :
    (((Decimal.checkedAdd filled Decimal.zero).bind
      fun value => Decimal.checkedAdd value Decimal.zero).bind
        fun value => Decimal.checkedAdd value Decimal.zero) = some filled := by
  simp

theorem planRiskReducingIoc_of_not_reducesTo (hnamed : attempt.action.asset ≠ "")
    (hmidpoint : 0 < evaluation.midpoint) (hlot : 0 < attempt.rules.sizeStep)
    (hreduces : ¬ ReducesTo (position * evaluation.midpoint) attempt.admittedTarget) :
    planRiskReducingIoc (exitInput settings attempt position evaluation) =
        .error .alreadySatisfied ∨
      planRiskReducingIoc (exitInput settings attempt position evaluation) =
        .error .exposureIncreasing := by
  unfold planRiskReducingIoc
  rw [exit_validate_of_named hnamed hmidpoint hlot, ok_bind, exit_committed, orExitOverflow, ok_bind,
    checkedSub_eq, orExitOverflow, ok_bind]
  rcases classify_of_not_reducesTo hreduces with hclass | hclass
  · left
    rw [if_pos hclass]
  · right
    rw [hclass, if_neg (by decide), if_pos rfl]

theorem planRiskReducingIoc_of_reducesTo (hnamed : attempt.action.asset ≠ "")
    (hmidpoint : 0 < evaluation.midpoint) (hlot : 0 < attempt.rules.sizeStep)
    (hreduces : ReducesTo (position * evaluation.midpoint) attempt.admittedTarget) {quantity : ℚ}
    (hquantity : exitQuantity position attempt.admittedTarget evaluation.midpoint
      attempt.rules.sizeStep = quantity) :
    ∃ intended, ∃ exit : AssetExecutionFloor ℚ → MarketableIocPlan ℚ → ExitPlan ℚ,
      (∀ floor ioc, (exit floor ioc).quantity = quantity ∧ (exit floor ioc).ioc = ioc) ∧
      planRiskReducingIoc (exitInput settings attempt position evaluation) =
        ((executionFloorForAsset (exitSide position) (attempt.rulesAt evaluation.midpoint)
          settings.floorPolicy).mapError fun error => .pricing error.text) >>= fun floor =>
          if quantity = 0 ∨ quantity * floor.boundedIocPrice < floor.minimumOrderNotional then
            .error (.belowExchangeMinimum intended floor.minimumOrderNotional)
          else ((planMarketableIoc (exitSide position) quantity evaluation evaluation.midpoint
            settings.slippageBuffer settings.maximumSlippage attempt.rules.priceTick).mapError
              fun error => .pricing error.text) >>= fun ioc => .ok (exit floor ioc) := by
  obtain ⟨hsatisfied, hincrease, hintended, hraw⟩ :=
    @rawQuantity_of_reducesTo settings attempt position evaluation hmidpoint hreduces _ rfl
  obtain ⟨intended, hintended⟩ := hintended
    (attempt.admittedTarget - position * evaluation.midpoint)
  refine ⟨intended, fun floor ioc => ⟨attempt.action.asset, attempt.admittedTarget,
    position * evaluation.midpoint, attempt.admittedTarget - position * evaluation.midpoint,
    classify (position * evaluation.midpoint) attempt.admittedTarget, exitSide position, true,
    quantity, quantity * floor.boundedIocPrice, floor, ioc⟩, fun floor ioc => ⟨rfl, rfl⟩, ?_⟩
  have hside : (if Decimal.lt Decimal.zero (position * evaluation.midpoint) = true then Side.sell
      else Side.buy) = exitSide position := by
    unfold exitSide
    simp [hmidpoint]
  have hheld : Decimal.min quantity (Decimal.abs position) = quantity := by
    rw [min_eq, ExactDecimal.abs_eq, min_eq_left]
    rw [← hquantity]
    apply (roundDown_le hlot _).trans
    split
    · have := div_nonneg (abs_nonneg attempt.admittedTarget) hmidpoint.le
      linarith
    · exact le_rfl
  have hrounded : ExitPlanning.roundDown
      (if 0 < attempt.admittedTarget * position then
        |position| - |attempt.admittedTarget| / evaluation.midpoint else |position|)
      attempt.rules.sizeStep = .ok quantity := by
    unfold ExitPlanning.roundDown
    rw [checkedDiv_eq hlot.ne', ← hquantity]
    rfl
  unfold planRiskReducingIoc
  rw [exit_validate_of_named hnamed hmidpoint hlot, ok_bind, exit_committed, orExitOverflow, ok_bind,
    checkedSub_eq, orExitOverflow, ok_bind]
  rw [if_neg hsatisfied, if_neg hincrease, if_neg (by simp), hintended, ok_bind, hraw, ok_bind,
    hside, show (attempt.rulesAt evaluation.midpoint).sizeStep = attempt.rules.sizeStep from rfl,
    hrounded, ok_bind, hheld]
  cases executionFloorForAsset (exitSide position) (attempt.rulesAt evaluation.midpoint)
    settings.floorPolicy with
  | error error => rfl
  | ok floor =>
    simp only [Except.mapError, ok_bind, checkedMul_eq, orExitOverflow, Bool.or_eq_true,
      isZero_iff_eq_zero, lt_iff_lt]
    rfl

theorem sizeReduction_of_ok {exit : ExitPlan ℚ}
    (h : planRiskReducingIoc (exitInput settings attempt position evaluation) = .ok exit) :
    sizeReduction settings attempt position evaluation = .ok (some ⟨exit.quantity,
      exit.ioc.limitPrice, exit.executionFloor.minimumOrderNotional⟩) := by
  unfold sizeReduction
  dsimp only
  rw [checkedMul_eq, orArithmetic, ok_bind, h]

theorem sizeReduction_of_below {residual required : ℚ}
    (h : planRiskReducingIoc (exitInput settings attempt position evaluation) =
      .error (.belowExchangeMinimum residual required)) :
    sizeReduction settings attempt position evaluation = .ok none := by
  unfold sizeReduction
  dsimp only
  rw [checkedMul_eq, orArithmetic, ok_bind, h]

theorem sizeReduction_of_block {block : ExitPlanningBlock ℚ}
    (h : planRiskReducingIoc (exitInput settings attempt position evaluation) = .error block)
    (hblock : ∀ residual required, block ≠ .belowExchangeMinimum residual required) :
    sizeReduction settings attempt position evaluation =
      .error (.core ("exit planning blocked: " ++ block.text)) := by
  unfold sizeReduction
  dsimp only
  rw [checkedMul_eq, orArithmetic, ok_bind, h]
  cases block with
  | belowExchangeMinimum residual required => exact absurd rfl (hblock residual required)
  | _ => rfl

def exitOf (attempt : ShadowAttempt ℚ) (position midpoint : ℚ) : ℚ :=
  exitQuantity position attempt.admittedTarget midpoint attempt.rules.sizeStep

/-- The exit is below the exchange minimum at the price it may come to. -/
def ExitBelowMinimum (settings : ShadowSettings ℚ) (attempt : ShadowAttempt ℚ)
    (position midpoint : ℚ) : Prop :=
  exitOf attempt position midpoint = 0 ∨
    exitOf attempt position midpoint *
        slippedPrice (exitSide position) (attempt.rulesAt midpoint) settings.floorPolicy <
      roundUp attempt.rules.sizeStep (requiredOrder settings.floorPolicy /
          slippedPrice (exitSide position) (attempt.rulesAt midpoint) settings.floorPolicy) *
        slippedPrice (exitSide position) (attempt.rulesAt midpoint) settings.floorPolicy

/-- An exit that can be planned at a book: its target still lies below the position at the book's
price, the floor of the asset is valid there, and it is dropped as too small or can be priced at the
book. -/
structure ExitPlannable (settings : ShadowSettings ℚ) (attempt : ShadowAttempt ℚ) (position : ℚ)
    (evaluation : ShadowMarketSnapshot ℚ) : Prop where
  named : attempt.action.asset ≠ ""
  reduces : ReducesTo (position * evaluation.midpoint) attempt.admittedTarget
  floor : FloorInputs (attempt.rulesAt evaluation.midpoint) settings.floorPolicy
  aboveTick : AboveTick (exitSide position) evaluation.midpoint settings.maximumSlippage
    attempt.rules.priceTick
  priced : ExitBelowMinimum settings attempt position evaluation.midpoint ∨
    0 ≤ settings.slippageBuffer ∧ (exitSide position = .buy ∨
      SaleAboveTick (exitOf attempt position evaluation.midpoint) evaluation evaluation.midpoint
        settings.slippageBuffer settings.maximumSlippage attempt.rules.priceTick)

theorem exitOf_nonneg (settings : ShadowSettings ℚ) (hlot : 0 < attempt.rules.sizeStep)
    (hmidpoint : 0 < evaluation.midpoint)
    (hreduces : ReducesTo (position * evaluation.midpoint) attempt.admittedTarget) :
    0 ≤ exitOf attempt position evaluation.midpoint := by
  obtain ⟨-, -, -, hraw⟩ :=
    @rawQuantity_of_reducesTo settings attempt position evaluation hmidpoint hreduces _ rfl
  exact roundDown_nonneg hlot (rawQuantity_spec hmidpoint hraw).1

theorem sizeReduction_iff (hbook : validateBook evaluation = .ok ())
    (hmidpoint : 0 < evaluation.midpoint) :
    (∃ sized, sizeReduction settings attempt position evaluation = .ok sized ∧
      ∀ order ∈ sized, 0 < order.quantity ∧ 0 < order.limitPrice) ↔
        ExitPlannable settings attempt position evaluation := by
  have hblocked : ∀ {block : ExitPlanningBlock ℚ},
      planRiskReducingIoc (exitInput settings attempt position evaluation) = .error block →
      (∀ residual required, block ≠ .belowExchangeMinimum residual required) →
      ¬ ∃ sized, sizeReduction settings attempt position evaluation = .ok sized ∧
        ∀ order ∈ sized, 0 < order.quantity ∧ 0 < order.limitPrice := by
    rintro block hplan hblock ⟨sized, hsized, -⟩
    rw [sizeReduction_of_block hplan hblock] at hsized
    cases hsized
  by_cases hnamed : attempt.action.asset ≠ "" ∧ 0 < attempt.rules.sizeStep
  swap
  · have hinvalid : ExitPlanning.validate (exitInput settings attempt position evaluation) =
        .error (.invalidInput "exit planning input") := by
      unfold ExitPlanning.validate
      apply if_pos
      rw [not_and_or, not_not] at hnamed
      rcases hnamed with hempty | hlot
      · simp [hempty]
      · simp [ShadowAttempt.rulesAt, not_lt.mp hlot]
    have hplan : planRiskReducingIoc (exitInput settings attempt position evaluation) =
        .error (.invalidInput "exit planning input") := by
      unfold planRiskReducingIoc
      rw [hinvalid]
      rfl
    exact iff_of_false (hblocked hplan (by simp)) fun h => hnamed ⟨h.named, h.floor.lot⟩
  obtain ⟨hnamed, hlot⟩ := hnamed
  by_cases hreduces : ReducesTo (position * evaluation.midpoint) attempt.admittedTarget
  swap
  · refine iff_of_false ?_ fun h => hreduces h.reduces
    rcases planRiskReducingIoc_of_not_reducesTo hnamed hmidpoint hlot hreduces with hplan | hplan
    · exact hblocked hplan (by simp)
    · exact hblocked hplan (by simp)
  have hnonneg : 0 ≤ exitOf attempt position evaluation.midpoint :=
    exitOf_nonneg settings hlot hmidpoint hreduces
  obtain ⟨intended, exit, hexit, hplan⟩ :=
    @planRiskReducingIoc_of_reducesTo settings attempt position evaluation hnamed hmidpoint hlot
      hreduces (exitOf attempt position evaluation.midpoint) rfl
  by_cases hfloor : FloorInputs (attempt.rulesAt evaluation.midpoint) settings.floorPolicy ∧
      AboveTick (exitSide position) evaluation.midpoint settings.maximumSlippage
        attempt.rules.priceTick
  swap
  · refine iff_of_false ?_ fun h => hfloor ⟨h.floor, h.aboveTick⟩
    cases hresult : executionFloorForAsset (exitSide position)
        (attempt.rulesAt evaluation.midpoint) settings.floorPolicy with
    | error error =>
      rw [hresult] at hplan
      exact hblocked hplan (by simp)
    | ok floor => exact absurd (executionFloorForAsset_iff.mp ⟨floor, hresult⟩) hfloor
  obtain ⟨floor, hresult⟩ := executionFloorForAsset_iff.mpr hfloor
  have hparts := executionFloorForAsset_parts hresult
  obtain ⟨hinputs, habove⟩ := hfloor
  rw [hresult, Except.mapError, ok_bind, hparts.order, hparts.quantity, hparts.price] at hplan
  by_cases hbelow : ExitBelowMinimum settings attempt position evaluation.midpoint
  · refine iff_of_true ⟨none, sizeReduction_of_below (hplan.trans (if_pos hbelow)), by simp⟩ ?_
    exact ⟨hnamed, hreduces, hinputs, habove, .inl hbelow⟩
  replace hplan := hplan.trans (if_neg hbelow)
  have hpositive : 0 < exitOf attempt position evaluation.midpoint :=
    lt_of_le_of_ne hnonneg fun hzero => hbelow (.inl hzero.symm)
  have hpriced := @planMarketableIoc_iff (exitSide position) _ evaluation evaluation.midpoint
    settings.slippageBuffer settings.maximumSlippage attempt.rules.priceTick hbook hpositive
    hmidpoint hinputs.slippage hinputs.slippageBelow hinputs.tick
  have hcondition : ExitPlannable settings attempt position evaluation ↔
      0 ≤ settings.slippageBuffer ∧ (exitSide position = .buy ∨
        SaleAboveTick (exitOf attempt position evaluation.midpoint) evaluation evaluation.midpoint
          settings.slippageBuffer settings.maximumSlippage attempt.rules.priceTick) :=
    ⟨fun h => h.priced.resolve_left hbelow, fun h => ⟨hnamed, hreduces, hinputs, habove, .inr h⟩⟩
  rw [hcondition, ← hpriced]
  constructor
  · rintro ⟨sized, hsized, horder⟩
    cases hioc : planMarketableIoc (exitSide position) (exitOf attempt position evaluation.midpoint)
        evaluation evaluation.midpoint settings.slippageBuffer settings.maximumSlippage
        attempt.rules.priceTick with
    | error error =>
      rw [hioc] at hplan
      exact absurd ⟨sized, hsized, horder⟩ (hblocked hplan (by simp))
    | ok ioc =>
      rw [hioc] at hplan
      rw [sizeReduction_of_ok hplan, Except.ok.injEq] at hsized
      subst hsized
      refine ⟨ioc, rfl, ?_⟩
      rw [← (hexit _ ioc).2]
      exact (horder _ rfl).2
  · rintro ⟨ioc, hioc, hlimit⟩
    rw [hioc] at hplan
    refine ⟨_, sizeReduction_of_ok hplan, ?_⟩
    rintro order ⟨⟩
    refine ⟨?_, ?_⟩
    · rw [(hexit _ ioc).1]
      exact hpositive
    · rw [(hexit _ ioc).2]
      exact hlimit

/-- A book whose levels are positive, the best price of a side first, and do not cross. -/
structure ValidBook (book : OrderBookResponse ℚ) : Prop where
  positive : ∀ level ∈ book.bids ++ book.asks, 0 < level.price ∧ 0 < level.quantity
  bids : book.bids.Pairwise fun upper lower => lower.price < upper.price
  asks : book.asks.Pairwise fun lower upper => lower.price < upper.price
  uncrossed : ∀ bid ∈ book.bids, ∀ ask ∈ book.asks, bid.price < ask.price

variable {book : OrderBookResponse ℚ}

theorem shadowSnapshot_eq_ok_iff {observedAt : ℕ} :
    shadowSnapshot book observedAt = .ok evaluation ↔
      ∃ bestBid bestAsk, book.bids.head? = some bestBid ∧ book.asks.head? = some bestAsk ∧
        evaluation = ⟨observedAt, (bestBid.price + bestAsk.price) / 2, book.bids, book.asks⟩ := by
  have htwo : (Decimal.new 2 0 : ℚ) = 2 := new_eq_natCast 2
  unfold shadowSnapshot
  cases hbid : book.bids.head? with
  | none => simp
  | some bestBid =>
    cases hask : book.asks.head? with
    | none => simp
    | some bestAsk =>
      simp only [checkedAdd_eq, Option.bind_some, htwo, checkedDiv_eq two_ne_zero, orArithmetic,
        ok_bind, pure_eq_ok_iff, Option.some.injEq]
      constructor
      · rintro rfl
        exact ⟨bestBid, bestAsk, rfl, rfl, rfl⟩
      · rintro ⟨_, _, rfl, rfl, rfl⟩
        rfl

theorem ValidBook.snapshot {observedAt : ℕ} (h : ValidBook book)
    (hevaluation : shadowSnapshot book observedAt = .ok evaluation) :
    validateBook evaluation = .ok () ∧ 0 < evaluation.midpoint := by
  obtain ⟨bestBid, bestAsk, hbid, hask, rfl⟩ := shadowSnapshot_eq_ok_iff.mp hevaluation
  constructor
  · unfold validateBook
    rw [if_neg, if_neg, if_neg]
    · rw [Bool.not_eq_true, someNeighbours_eq_false_iff]
      refine (List.isChain_iff_pairwise.mpr h.asks).imp ?_
      intro first second hlevels
      rw [← Bool.not_eq_true, le_iff_le, not_le]
      exact hlevels
    · rw [Bool.not_eq_true, someNeighbours_eq_false_iff]
      refine (List.isChain_iff_pairwise.mpr h.bids).imp ?_
      intro first second hlevels
      rw [← Bool.not_eq_true, le_iff_le, not_le]
      exact hlevels
    · rw [Bool.not_eq_true, List.any_eq_false]
      intro level hlevel
      simpa using h.positive level hlevel
  · have hbidPositive := (h.positive bestBid
      (List.mem_append_left _ (List.mem_of_head? hbid))).1
    have haskPositive := (h.positive bestAsk
      (List.mem_append_right _ (List.mem_of_head? hask))).1
    linarith

theorem validatesRoundedOrder_iff {quantity price minimum : ℚ} (hquantity : 0 < quantity) :
    (∃ valid, validatesRoundedOrder quantity price minimum = .ok valid) ↔ 0 < price := by
  unfold validatesRoundedOrder
  by_cases hprice : 0 < price
  · rw [if_neg (by simp [hprice, hquantity.le])]
    exact iff_of_true ⟨_, rfl⟩ hprice
  · rw [if_pos (by simp [not_lt.mp hprice])]
    exact iff_of_false (by simp) hprice

theorem attemptOrder_iff (hreduce : attempt.action.reduceOnly = true)
    (hbook : ValidBook attempt.book) :
    (∃ planned, attemptOrder settings attempt position = .ok planned) ↔
      ∃ evaluation, shadowSnapshot attempt.book attempt.receivedAt = .ok evaluation ∧
        ExitPlannable settings attempt position evaluation := by
  unfold attemptOrder
  cases hevaluation : shadowSnapshot attempt.book attempt.receivedAt with
  | error error =>
    rw [error_bind]
    simp
  | ok evaluation =>
    obtain ⟨hvalid, hmidpoint⟩ := hbook.snapshot hevaluation
    rw [ok_bind, sizeOrder, if_pos hreduce]
    have hsized := @sizeReduction_iff settings attempt position evaluation hvalid hmidpoint
    simp only [Except.ok.injEq, exists_eq_left']
    rw [← hsized]
    cases hresult : sizeReduction settings attempt position evaluation with
    | error error =>
      rw [error_bind]
      simp
    | ok sized =>
      rw [ok_bind]
      cases sized with
      | none => exact iff_of_true ⟨none, rfl⟩ ⟨none, rfl, by simp⟩
      | some order =>
        dsimp only
        by_cases hquantity : 0 < order.quantity
        · rw [if_neg (by simpa using hquantity)]
          have hrounded := @validatesRoundedOrder_iff order.quantity order.limitPrice
            order.requiredNotional hquantity
          constructor
          · rintro ⟨planned, hplanned⟩
            obtain ⟨valid, hvalid, -⟩ := of_bind hplanned
            rw [mapError_eq_ok_iff] at hvalid
            refine ⟨some order, rfl, ?_⟩
            rintro _ ⟨⟩
            exact ⟨hquantity, hrounded.mp ⟨valid, hvalid⟩⟩
          · rintro ⟨_, hsome, horder⟩
            cases hsome
            obtain ⟨valid, hvalid⟩ := hrounded.mpr (horder order rfl).2
            rw [hvalid]
            exact ⟨_, rfl⟩
        · rw [if_pos (by simpa using hquantity)]
          refine iff_of_false (by simp) ?_
          rintro ⟨sized, hsome, horder⟩
          cases hsome
          exact hquantity (horder order rfl).1

end

/-- A reducing action is pending for the asset of a book. -/
structure PendingExit (engine : DecisionEngine ℚ) (book : OrderBookResponse ℚ)
    (pending : PendingAction ℚ) : Prop where
  isPending : engine.pending[book.asset]? = some pending
  reduceOnly : pending.action.reduceOnly = true

/-- It is too early for a pending exit, or it can be planned at its book. -/
def ExitMeets (settings : EngineSettings ℚ) (engine : DecisionEngine ℚ)
    (book : OrderBookResponse ℚ) (receivedAt : ℕ) (pending : PendingAction ℚ) : Prop :=
  (engine.attemptOf pending book receivedAt).isEarly settings.toShadowSettings = true ∨
    ∃ evaluation, shadowSnapshot book receivedAt = .ok evaluation ∧
      ExitPlannable settings.toShadowSettings (engine.attemptOf pending book receivedAt)
        (engine.authoritativePosition book.asset) evaluation

section

variable [Sha256] [IntentEncoding ℚ] {settings : EngineSettings ℚ} {engine : DecisionEngine ℚ}
  {book : OrderBookResponse ℚ} {receivedAt : ℕ} {technicalDesired : ℚ} {pending : PendingAction ℚ}

omit [Sha256] [IntentEncoding ℚ] in
theorem exitMeets_iff (hbook : ValidBook book) (hpending : PendingExit engine book pending) :
    ExitMeets settings engine book receivedAt pending ↔
      (engine.attemptOf pending book receivedAt).isEarly settings.toShadowSettings = true ∨
        ∃ planned, attemptOrder settings.toShadowSettings
          (engine.attemptOf pending book receivedAt) (engine.authoritativePosition book.asset) =
            .ok planned := by
  unfold ExitMeets
  rw [attemptOrder_iff hpending.reduceOnly hbook]
  rfl

theorem tryExecutePending_ok_iff (hbook : ValidBook book)
    (hpending : PendingExit engine book pending) :
    (∃ result, engine.tryExecutePending settings book receivedAt technicalDesired = .ok result) ↔
      ExitMeets settings engine book receivedAt pending ∧
        ∀ evaluation order, ReadyOrder settings engine book receivedAt pending evaluation order →
          ∃ result, engine.executePending settings pending book receivedAt evaluation order
            technicalDesired = .ok result := by
  rw [exitMeets_iff hbook hpending]
  unfold DecisionEngine.tryExecutePending
  rw [hpending.isPending]
  dsimp only
  by_cases hearly :
      (engine.attemptOf pending book receivedAt).isEarly settings.toShadowSettings = true
  · rw [if_pos hearly]
    refine iff_of_true ⟨_, rfl⟩ ⟨.inl hearly, ?_⟩
    intro evaluation order hready
    rw [hready.notEarly] at hearly
    cases hearly
  · rw [if_neg hearly]
    cases horder : attemptOrder settings.toShadowSettings
        (engine.attemptOf pending book receivedAt)
        (engine.authoritativePosition book.asset) with
    | error error =>
      rw [error_bind]
      simp [hearly]
    | ok planned =>
      rw [ok_bind]
      cases planned with
      | none =>
        refine iff_of_true ⟨_, rfl⟩ ⟨.inr ⟨none, rfl⟩, ?_⟩
        intro evaluation order hready
        have hsome := hready.hasOrder
        rw [horder] at hsome
        cases hsome
      | some sized =>
        obtain ⟨evaluation, order⟩ := sized
        constructor
        · intro hresult
          refine ⟨.inr ⟨_, rfl⟩, ?_⟩
          intro other otherOrder hready
          have hsome := hready.hasOrder
          rw [horder, Except.ok.injEq, Option.some.injEq, Prod.mk.injEq] at hsome
          obtain ⟨rfl, rfl⟩ := hsome
          exact hresult
        · rintro ⟨-, hcarried⟩
          exact hcarried evaluation order ⟨hpending.isPending, Bool.eq_false_iff.mpr hearly, horder⟩

/-- **Exits at a book.**  A pending exit gets past its planning at a valid book exactly where it is
too early for it or it can be planned there; an attempt returns exactly where this is so and the
order of the exit, if there is one, is carried out. -/
theorem exit_returns_iff {start : EngineRun ℚ} {calls : List (EngineCall ℚ)} :
    ∀ run ∈ states (EngineRun.step settings) start calls,
      ∀ (book : OrderBookResponse ℚ) (receivedAt : ℕ) (technicalDesired : ℚ)
        (pending : PendingAction ℚ), ValidBook book → PendingExit run.engine book pending →
      (((run.engine.attemptOf pending book receivedAt).isEarly settings.toShadowSettings = true ∨
          ∃ planned, attemptOrder settings.toShadowSettings
            (run.engine.attemptOf pending book receivedAt)
            (run.engine.authoritativePosition book.asset) = .ok planned) ↔
        ExitMeets settings run.engine book receivedAt pending) ∧
      ((∃ result, run.engine.tryExecutePending settings book receivedAt technicalDesired =
          .ok result) ↔
        ExitMeets settings run.engine book receivedAt pending ∧
          ∀ evaluation order,
            ReadyOrder settings run.engine book receivedAt pending evaluation order →
              ∃ result, run.engine.executePending settings pending book receivedAt evaluation order
                technicalDesired = .ok result) := by
  intro run _ book receivedAt technicalDesired pending hbook hpending
  exact ⟨(exitMeets_iff hbook hpending).symm, tryExecutePending_ok_iff hbook hpending⟩

end

def samplePendingExit : List (EngineCall ℚ) :=
  sampleOpening ++
    [.orderBook (sampleBook 100) 100 0 (sampleStrategy 0), .decision 200 (sampleStrategy 900)]

theorem validBook_sample (h : 1 / 10 < price) : ValidBook (sampleBook price) where
  positive := by
    intro level hlevel
    simp only [sampleBook, List.singleton_append, List.mem_cons, List.not_mem_nil, or_false]
      at hlevel
    rcases hlevel with rfl | rfl
    · exact ⟨by linarith, by norm_num⟩
    · exact ⟨by linarith, by norm_num⟩
  bids := List.pairwise_singleton _ _
  asks := List.pairwise_singleton _ _
  uncrossed := by
    intro bid hbid ask hask
    simp only [sampleBook, List.mem_singleton] at hbid hask
    subst hbid hask
    linarith

theorem samplePendingExit_attempts :
    letI : Sha256 := ⟨foldDigest⟩
    letI : IntentEncoding ℚ := ⟨fun _ => .ok []⟩
    ((sampleEngineRun none samplePendingExit).engine.pending["BTC"]?.map
        fun pending => pending.action.reduceOnly) = some true ∧
      ((sampleEngineRun none samplePendingExit).engine.tryExecutePending sampleEngineSettings
        (sampleBook 100) 400 0).isOk = true ∧
      ((sampleEngineRun none samplePendingExit).engine.tryExecutePending sampleEngineSettings
        (sampleBook 80) 400 0).map (fun _ => ()) =
          .error (.core "exit planning blocked: ExposureIncreasing") := by
  decide +kernel

theorem exit_returns_iff_sample :
    letI : Sha256 := ⟨foldDigest⟩
    letI : IntentEncoding ℚ := ⟨fun _ => .ok []⟩
    ∃ pending, PendingExit (sampleEngineRun none samplePendingExit).engine (sampleBook 100) pending ∧
      ((∃ result, (sampleEngineRun none samplePendingExit).engine.tryExecutePending
          sampleEngineSettings (sampleBook 100) 400 0 = .ok result) ↔
        ExitMeets sampleEngineSettings (sampleEngineRun none samplePendingExit).engine
            (sampleBook 100) 400 pending ∧
          ∀ evaluation order,
            ReadyOrder sampleEngineSettings (sampleEngineRun none samplePendingExit).engine
              (sampleBook 100) 400 pending evaluation order →
            ∃ result, (sampleEngineRun none samplePendingExit).engine.executePending
              sampleEngineSettings pending (sampleBook 100) 400 evaluation order 0 =
                .ok result) := by
  obtain ⟨pending, hpending, hreduce⟩ := Option.map_eq_some_iff.mp samplePendingExit_attempts.1
  refine ⟨pending, ⟨hpending, hreduce⟩, ?_⟩
  exact (@exit_returns_iff ⟨foldDigest⟩ ⟨fun _ => .ok []⟩ _ _ _ _ (run_mem_states _ _) _ 400 0
    pending (validBook_sample (by norm_num)) ⟨hpending, hreduce⟩).2

/-- The price falls until the position is worth less than its target, and the book ends the
observer. -/
theorem exit_blocked_by_price :
    ¬ ∀ [Sha256] [IntentEncoding ℚ] (settings : EngineSettings ℚ) (engineInstance : Bytes 16)
        (identity : Option ProductionIntentIdentity) (calls : List (EngineCall ℚ)),
      ∀ run ∈ states (EngineRun.step settings)
          (EngineRun.start (DecisionEngine.start engineInstance identity)) calls,
        ∀ (book : OrderBookResponse ℚ) (receivedAt : ℕ) (technicalDesired : ℚ)
          (pending : PendingAction ℚ), ValidBook book → PendingExit run.engine book pending →
        ∃ result, run.engine.tryExecutePending settings book receivedAt technicalDesired =
          .ok result := by
  intro h
  obtain ⟨hpending, -, hblocked⟩ := samplePendingExit_attempts
  obtain ⟨pending, hpending, hreduce⟩ := Option.map_eq_some_iff.mp hpending
  obtain ⟨result, hresult⟩ := @h ⟨foldDigest⟩ ⟨fun _ => .ok []⟩ sampleEngineSettings
    (Bytes.replicate 16 0) none samplePendingExit _ (run_mem_states _ _) (sampleBook 80) 400 0
    pending (validBook_sample (by norm_num)) ⟨hpending, hreduce⟩
  unfold sampleEngineRun at hblocked
  rw [hresult] at hblocked
  cases hblocked

end CopyTrade.Analysis
