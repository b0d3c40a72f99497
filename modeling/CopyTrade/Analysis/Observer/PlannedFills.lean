import CopyTrade.Analysis.Decision.ExitPlans
import CopyTrade.Analysis.Observer.LimitPrices
import CopyTrade.Foundation.Filling
import Mathlib.Data.List.TakeWhile

/-!
# What a planned order is filled with

The plan of a marketable order counts the depth within its limit; the execution against the same
book takes that depth from the best level on.  They agree wherever the limit of a sale is not
rounded down to zero.
-/

namespace CopyTrade.Analysis

open Foundation Model
open Model.ExactDecimal

def cost : Side → ℚ → ℚ
  | .buy, price => price
  | .sell, price => -price

/-- The levels of a book as offers to an order of a side. -/
def offers (side : Side) (levels : List (DepthLevel ℚ)) : List (ℚ × ℚ) :=
  levels.map fun level => (cost side level.price, level.quantity)

def depthOf (levels : List (DepthLevel ℚ)) : ℚ := (levels.map DepthLevel.quantity).sum

@[simp] theorem cost_cost (side : Side) (price : ℚ) : cost side (cost side price) = price := by
  cases side <;> simp [cost]

theorem cost_add (side : Side) (x y : ℚ) : cost side (x + y) = cost side x + cost side y := by
  cases side
  · rfl
  · simp only [cost]
    ring

theorem cost_mul (side : Side) (x y : ℚ) : cost side (x * y) = x * cost side y := by
  cases side
  · rfl
  · simp only [cost]
    ring

theorem withinLimit_iff_cost {side : Side} {limit price : ℚ} :
    withinLimit side limit price = true ↔ cost side price ≤ cost side limit := by
  cases side <;> simp [withinLimit, cost]

theorem supply_offers (side : Side) (levels : List (DepthLevel ℚ)) :
    supply (offers side levels) = depthOf levels := by
  simp [supply, offers, depthOf, Function.comp_def]

theorem offers_of_validateBook {snapshot : ShadowMarketSnapshot ℚ}
    (h : validateBook snapshot = .ok ()) (side : Side) :
    Offered (offers side (snapshot.executable side)) ∧
      (offers side (snapshot.executable side)).Pairwise fun first second => first.1 ≤ second.1 := by
  obtain ⟨hpositive, hsorted⟩ := validateBook_spec h side
  constructor
  · intro offer hoffer
    obtain ⟨level, hlevel, rfl⟩ := List.mem_map.mp hoffer
    have hquantity := (hpositive level hlevel).2
    rw [zero_eq] at hquantity
    exact hquantity.le
  · unfold offers
    rw [List.pairwise_map]
    exact hsorted.imp fun hlevels => withinLimit_iff_cost.mp hlevels

theorem isZero_eq_decide (x : ℚ) : Decimal.isZero x = decide (x = 0) := by
  rw [Bool.eq_iff_iff, isZero_iff_eq_zero, decide_eq_true_iff]

theorem fillLevels_eq {side : Side} {limit remaining filled value : ℚ}
    {levels : List (DepthLevel ℚ)} (hremaining : 0 ≤ remaining)
    (hlevels : Offered (offers side levels)) :
    fillLevels side limit remaining filled value levels =
      .ok (filled + (fill remaining (offers side
            (levels.takeWhile fun level => withinLimit side limit level.price))).sum,
        value + cost side (worth (offers side
            (levels.takeWhile fun level => withinLimit side limit level.price))
          (fill remaining (offers side
            (levels.takeWhile fun level => withinLimit side limit level.price)))),
        remaining - (fill remaining (offers side
            (levels.takeWhile fun level => withinLimit side limit level.price))).sum) := by
  induction levels generalizing remaining filled value with
  | nil => cases side <;> simp [fillLevels, offers, fill, worth, cost]
  | cons level levels ih =>
    rw [fillLevels, List.takeWhile_cons]
    by_cases hwithin : withinLimit side limit level.price = true
    · rw [if_pos hwithin, hwithin, Bool.not_true, Bool.false_or, isZero_eq_decide]
      have hquantity : 0 ≤ level.quantity := hlevels _ List.mem_cons_self
      have hcons : ∀ rest, offers side (level :: rest) =
        (cost side level.price, level.quantity) :: offers side rest := fun _ => rfl
      rw [hcons, fill, List.sum_cons, worth, cost_add, cost_mul, cost_cost]
      have hleft : 0 ≤ remaining - min remaining level.quantity := by
        have := min_le_left remaining level.quantity
        linarith
      by_cases hdone : remaining = 0
      · subst hdone
        have hwithin : Offered (offers side
            (levels.takeWhile fun level => withinLimit side limit level.price)) := by
          intro offer hoffer
          obtain ⟨other, hother, rfl⟩ := List.mem_map.mp hoffer
          exact hlevels _ (List.mem_cons_of_mem _
            (List.mem_map_of_mem ((List.takeWhile_sublist _).subset hother)))
        rw [min_eq_left hquantity, sub_zero, sum_fill le_rfl hwithin, worth_fill_zero hwithin,
          min_eq_left (supply_nonneg hwithin)]
        cases side <;> simp [cost]
      · rw [if_neg (by simpa using hdone)]
        simp only [checkedAdd_eq, checkedMul_eq, checkedSub_eq, orShadowOverflow, min_eq, ok_bind]
        rw [ih hleft (Offered.tail hlevels), Except.ok.injEq, Prod.mk.injEq, Prod.mk.injEq]
        refine ⟨?_, ?_, ?_⟩ <;> ring
    · rw [if_neg hwithin]
      rw [Bool.not_eq_true] at hwithin
      rw [hwithin, Bool.not_false, Bool.true_or, if_pos rfl]
      cases side <;> simp [offers, fill, worth, cost]

/-- The level at which the levels of a book first cover a quantity. -/
structure CoveredAt (quantity : ℚ) (levels before : List (DepthLevel ℚ)) (level : DepthLevel ℚ) :
    Prop where
  initial : before ++ [level] <+: levels
  short : depthOf before < quantity
  covers : quantity ≤ depthOf (before ++ [level])

theorem depthOf_cons (level : DepthLevel ℚ) (levels : List (DepthLevel ℚ)) :
    depthOf (level :: levels) = level.quantity + depthOf levels := by
  simp [depthOf]

theorem worstRequiredPrice_exact {quantity visible : ℚ} {levels : List (DepthLevel ℚ)}
    (hvisible : visible < quantity) :
    (∃ before level, CoveredAt (quantity - visible) levels before level ∧
        worstRequiredPrice quantity visible levels = .ok (some level.price)) ∨
      depthOf levels < quantity - visible ∧
        worstRequiredPrice quantity visible levels = .ok none := by
  induction levels generalizing visible with
  | nil =>
    right
    refine ⟨?_, rfl⟩
    simp only [depthOf, List.map_nil, List.sum_nil]
    linarith
  | cons level levels ih =>
    rw [worstRequiredPrice]
    simp only [checkedAdd_eq, orShadowOverflow, ok_bind]
    by_cases hcovered : quantity ≤ visible + level.quantity
    · rw [if_pos ((le_iff_le _ _).mpr hcovered)]
      left
      refine ⟨[], level, ⟨?_, ?_, ?_⟩, rfl⟩
      · exact List.cons_prefix_cons.mpr ⟨rfl, List.nil_prefix⟩
      · simp only [depthOf, List.map_nil, List.sum_nil]
        linarith
      · rw [List.nil_append, depthOf_cons, depthOf, List.map_nil, List.sum_nil]
        linarith
    · rw [if_neg (mt (le_iff_le _ _).mp hcovered)]
      rw [not_le] at hcovered
      rcases ih hcovered with ⟨before, last, hlast, hprice⟩ | ⟨hshort, hnone⟩
      · left
        refine ⟨level :: before, last, ⟨?_, ?_, ?_⟩, hprice⟩
        · exact List.cons_prefix_cons.mpr ⟨rfl, hlast.initial⟩
        · have := hlast.short
          rw [depthOf_cons]
          linarith
        · have := hlast.covers
          rw [List.cons_append, depthOf_cons]
          linarith
      · right
        refine ⟨?_, hnone⟩
        rw [depthOf_cons]
        linarith

theorem depthOf_le_of_initial {leading levels : List (DepthLevel ℚ)} (h : leading <+: levels)
    (hpositive : ∀ level ∈ levels, 0 ≤ level.quantity) : depthOf leading ≤ depthOf levels := by
  obtain ⟨rest, rfl⟩ := h
  have hrest : 0 ≤ depthOf rest := by
    apply List.sum_nonneg
    intro quantity hquantity
    obtain ⟨level, hlevel, rfl⟩ := List.mem_map.mp hquantity
    exact hpositive level (List.mem_append_right _ hlevel)
  simp only [depthOf, List.map_append, List.sum_append] at hrest ⊢
  linarith

theorem CoveredAt.unique {quantity : ℚ} {levels before before' : List (DepthLevel ℚ)}
    {level level' : DepthLevel ℚ} (hpositive : ∀ level ∈ levels, 0 ≤ level.quantity)
    (h : CoveredAt quantity levels before level) (h' : CoveredAt quantity levels before' level') :
    level = level' := by
  -- a longer initial part of the book than the other one contains the covering level of it
  have hlonger : ∀ {before before' : List (DepthLevel ℚ)} {level level' : DepthLevel ℚ},
      CoveredAt quantity levels before level → CoveredAt quantity levels before' level' →
        ¬ before.length < before'.length := by
    intro before before' level level' h h' hlength
    have hbefore : before' <+: levels := (List.prefix_append _ _).trans h'.initial
    have hinitial : before ++ [level] <+: before' :=
      List.prefix_of_prefix_length_le h.initial hbefore
        (by simpa [Nat.succ_le_iff] using hlength)
    have hdepth := depthOf_le_of_initial hinitial
      fun other hother => hpositive other (hbefore.subset hother)
    have hcovers := h.covers
    have hshort := h'.short
    linarith
  have hlength : (before ++ [level]).length = (before' ++ [level']).length := by
    have hle := hlonger h h'
    have hge := hlonger h' h
    simp only [List.length_append, List.length_singleton]
    omega
  have hsame : before ++ [level] = before' ++ [level'] :=
    (List.prefix_of_prefix_length_le h.initial h'.initial hlength.le).eq_of_length hlength
  exact List.singleton_inj.mp (List.append_inj_right' hsame rfl)

def moved (side : Side) (price fraction : ℚ) : ℚ :=
  match side with
  | .buy => price * (1 + fraction)
  | .sell => price * (1 - fraction)

theorem isLimit_exact {side : Side} {price fraction tick limit : ℚ}
    (h : IsLimit side price fraction tick limit) :
    0 < moved side price fraction ∧ 0 < tick ∧
      limit = match side with
        | .buy => roundUp tick (moved side price fraction)
        | .sell => Foundation.roundDown tick (moved side price fraction) := by
  obtain ⟨factor, raw, hfactor, hraw, hlimit⟩ := h
  obtain ⟨hpositive, htick, units, hunits, hmul⟩ := roundPriceOutward_spec hlimit
  rw [checkedDiv_eq_some_iff] at hunits
  rw [checkedMul_eq, Option.some.injEq] at hraw hmul
  obtain ⟨-, rfl⟩ := hunits
  subst hraw hmul
  cases side with
  | buy =>
    rw [adverseFactor, checkedAdd_eq, Option.some.injEq, one_eq] at hfactor
    subst hfactor
    exact ⟨hpositive, htick, rfl⟩
  | sell =>
    rw [adverseFactor, checkedSub_eq, Option.some.injEq, one_eq] at hfactor
    subst hfactor
    exact ⟨hpositive, htick, rfl⟩

theorem isLimit_pos_iff {side : Side} {price fraction tick limit : ℚ}
    (h : IsLimit side price fraction tick limit) :
    0 < limit ↔ side = .buy ∨ tick ≤ moved side price fraction := by
  obtain ⟨hpositive, htick, hlimit⟩ := isLimit_exact h
  cases side with
  | buy =>
    rw [hlimit]
    exact iff_of_true (roundUp_pos htick hpositive) (.inl rfl)
  | sell =>
    rw [hlimit]
    rw [roundDown_pos_iff htick]
    simp

theorem cost_le_limit {side : Side} {price fraction tick limit : ℚ} (hprice : 0 < price)
    (hfraction : 0 ≤ fraction) (h : IsLimit side price fraction tick limit) :
    cost side price ≤ cost side limit := by
  obtain ⟨-, htick, hlimit⟩ := isLimit_exact h
  have hmove := mul_nonneg hprice.le hfraction
  cases side with
  | buy =>
    have hround := le_roundUp htick (moved .buy price fraction)
    simp only [cost, hlimit]
    simp only [moved] at hround ⊢
    linarith
  | sell =>
    have hround := roundDown_le htick (moved .sell price fraction)
    simp only [cost, hlimit]
    simp only [moved] at hround ⊢
    linarith

/-- The raw limit of a sale is at least one tick: the price at the covering level less the cushion,
or where no level covers the quantity, the reference price less the maximum slippage. -/
structure SaleAboveTick (quantity : ℚ) (snapshot : ShadowMarketSnapshot ℚ)
    (reference cushion maximumSlippage tick : ℚ) : Prop where
  covered : ∀ before level, CoveredAt quantity snapshot.bids before level →
    tick ≤ level.price * (1 - cushion)
  uncovered : depthOf snapshot.bids < quantity → tick ≤ reference * (1 - maximumSlippage)

structure PlanParts (side : Side) (quantity : ℚ) (snapshot : ShadowMarketSnapshot ℚ)
    (reference cushion maximumSlippage tick : ℚ) (plan : MarketableIocPlan ℚ) : Prop where
  quantityPositive : 0 < quantity
  cushionNonneg : 0 ≤ cushion
  book : validateBook snapshot = .ok ()
  requested : plan.requestedQuantity = quantity
  visible : plan.visibleExecutableQuantity = min
    (depthOf ((snapshot.executable side).takeWhile fun level =>
      withinLimit side plan.limitPrice level.price)) quantity
  priced : (plan.pricingMode = .completeVisibleDepth ∧ ∃ before level,
      CoveredAt quantity (snapshot.executable side) before level ∧
        IsLimit side level.price cushion tick plan.limitPrice) ∨
    (plan.pricingMode = .boundedReferenceFallback ∧
      depthOf (snapshot.executable side) < quantity ∧
        IsLimit side reference maximumSlippage tick plan.limitPrice)

theorem planMarketableIoc_parts {side : Side} {quantity : ℚ} {snapshot : ShadowMarketSnapshot ℚ}
    {reference cushion maximumSlippage tick : ℚ} {plan : MarketableIocPlan ℚ}
    (h : planMarketableIoc side quantity snapshot reference cushion maximumSlippage tick =
      .ok plan) : PlanParts side quantity snapshot reference cushion maximumSlippage tick plan := by
  obtain ⟨-, -, hbook, hworst, cap, hcap, hlimit⟩ := planMarketableIoc_spec h
  unfold planMarketableIoc at h
  split at h
  · cases h
  rename_i hinputs
  simp only [Bool.or_eq_true, not_or, le_iff_le, lt_iff_lt, zero_eq, not_le, not_lt] at hinputs
  obtain ⟨⟨⟨⟨hquantity, -⟩, hcushion⟩, -⟩, -⟩ := hinputs
  obtain ⟨⟨⟩, -, h⟩ := of_bind h
  obtain ⟨worst, hworst', h⟩ := of_bind h
  obtain ⟨maximumRaw, -, h⟩ := of_bind h
  obtain ⟨maximumLimit, -, h⟩ := of_bind h
  obtain ⟨⟨limit, mode⟩, hpriced, h⟩ := of_bind h
  obtain ⟨visible, hvisible, h⟩ := of_bind h
  rw [pure_eq_ok_iff] at h
  subst h
  rw [orShadowOverflow_eq_ok_iff, foldlM_checkedAdd, Option.some.injEq, zero_eq, zero_add]
    at hvisible
  refine ⟨hquantity, hcushion, hbook, rfl, ?_, ?_⟩
  · rw [min_eq, ← hvisible]
    rfl
  · rw [zero_eq] at hworst
    rcases @worstRequiredPrice_exact quantity 0 (snapshot.executable side) hquantity with
      ⟨before, level, hcovered, hprice⟩ | ⟨hshort, hnone⟩
    · left
      rw [hprice, Except.ok.injEq] at hworst
      subst hworst
      obtain ⟨raw, -, hpriced⟩ := of_bind hpriced
      obtain ⟨rounded, -, hpriced⟩ := of_bind hpriced
      rw [pure_eq_ok_iff, Prod.mk.injEq] at hpriced
      rw [sub_zero] at hcovered
      exact ⟨hpriced.2.symm, before, level, hcovered, hlimit⟩
    · right
      rw [hnone, Except.ok.injEq] at hworst
      subst hworst
      rw [pure_eq_ok_iff, Prod.mk.injEq] at hpriced
      rw [sub_zero] at hshort
      exact ⟨hpriced.2.symm, hshort, hlimit ▸ hcap⟩

/-- An execution of a plan: its side, limit and quantity, against the book it was made for, with
otherwise valid inputs. -/
structure ExecutesPlan (side : Side) (snapshot : ShadowMarketSnapshot ℚ) (plan : MarketableIocPlan ℚ)
    (input : ShadowExecutionInput ℚ) : Prop where
  side_eq : input.action.side = side
  book : input.evaluationMarketSnapshot = snapshot
  limit : input.proposedLimitPrice = plan.limitPrice
  quantity : input.roundedQuantity = plan.requestedQuantity
  fee : 0 ≤ input.takerFeeRate
  midpoint : 0 < input.decisionMarketSnapshot.midpoint
  decisionBook : validateBook input.decisionMarketSnapshot = .ok ()
  latency : ∃ expectedAt,
    checkedAddU64 input.decisionTimestampMono input.configuredLatencyMs = some expectedAt ∧
      expectedAt ≤ snapshot.observedAtMono

/-- The execution does what the plan says. -/
structure AgreesWithPlan (side : Side) (snapshot : ShadowMarketSnapshot ℚ)
    (plan : MarketableIocPlan ℚ) (input : ShadowExecutionInput ℚ) (execution : IocExecution ℚ) :
    Prop where
  filled : execution.booked.modeledFilledQuantity = plan.visibleExecutableQuantity
  remainder : execution.booked.modeledFilledQuantity + execution.unfilledIocRemainder =
    plan.requestedQuantity
  complete : plan.pricingMode = .completeVisibleDepth → execution.unfilledIocRemainder = 0
  priced : execution.booked.modeledFilledQuantity ≠ 0 → ∃ best average,
    (snapshot.executable side).head? = some best ∧
      execution.booked.modeledAverageFillPrice = some average ∧
      cost side best.price ≤ cost side average ∧ cost side average ≤ cost side plan.limitPrice
  positionAfter : execution.booked.positionAfter =
    positionAfterFill side input.positionBefore execution.booked.modeledFilledQuantity
  taken : ∃ amounts, Split (offers side (snapshot.executable side)) amounts ∧
    amounts.sum = execution.booked.modeledFilledQuantity ∧
    worth (offers side (snapshot.executable side)) amounts =
      cost side execution.modeledFilledNotional
  cheapest : ∀ amounts, Split (offers side (snapshot.executable side)) amounts →
    amounts.sum = execution.booked.modeledFilledQuantity →
      cost side execution.modeledFilledNotional ≤
        worth (offers side (snapshot.executable side)) amounts

def offersWithin (side : Side) (limit : ℚ) (levels : List (DepthLevel ℚ)) : List (ℚ × ℚ) :=
  offers side (levels.takeWhile fun level => withinLimit side limit level.price)

theorem execution_validate_iff {side : Side} {snapshot : ShadowMarketSnapshot ℚ}
    {plan : MarketableIocPlan ℚ} {input : ShadowExecutionInput ℚ}
    (hinput : ExecutesPlan side snapshot plan input) (hbook : validateBook snapshot = .ok ())
    (hquantity : 0 < plan.requestedQuantity) :
    input.validate = .ok () ↔ 0 < plan.limitPrice := by
  have hfee := hinput.fee
  have hmidpoint := hinput.midpoint
  unfold ShadowExecutionInput.validate
  rw [hinput.limit, hinput.quantity, hinput.book, hinput.decisionBook, hbook]
  split
  · rename_i hinvalid
    refine iff_of_false (by simp) ?_
    simp only [Bool.or_eq_true, le_iff_le, lt_iff_lt, zero_eq] at hinvalid
    rcases hinvalid with ((h | h) | h) | h <;> linarith
  · rename_i hvalid
    simp only [Bool.or_eq_true, le_iff_le, lt_iff_lt, zero_eq, not_or, not_le, not_lt] at hvalid
    exact iff_of_true rfl hvalid.1.1.2

theorem executeShadowIoc_eq {side : Side} {snapshot : ShadowMarketSnapshot ℚ}
    {plan : MarketableIocPlan ℚ} {input : ShadowExecutionInput ℚ}
    (hinput : ExecutesPlan side snapshot plan input) (hbook : validateBook snapshot = .ok ())
    (hquantity : 0 < plan.requestedQuantity) (hlimit : 0 < plan.limitPrice) {within : List (ℚ × ℚ)}
    (hwithin : offersWithin side plan.limitPrice (snapshot.executable side) = within) :
    ∃ execution, executeShadowIoc input = .ok execution ∧
      execution.booked.modeledFilledQuantity = (fill plan.requestedQuantity within).sum ∧
      execution.modeledFilledNotional =
        cost side (worth within (fill plan.requestedQuantity within)) ∧
      execution.unfilledIocRemainder =
        plan.requestedQuantity - (fill plan.requestedQuantity within).sum ∧
      ((fill plan.requestedQuantity within).sum ≠ 0 →
        execution.booked.modeledAverageFillPrice = some
          (cost side (worth within (fill plan.requestedQuantity within)) /
            (fill plan.requestedQuantity within).sum)) ∧
      execution.booked.positionAfter = positionAfterFill side input.positionBefore
        (fill plan.requestedQuantity within).sum := by
  obtain ⟨expectedAt, hexpected, hobserved⟩ := hinput.latency
  have hvalid := (execution_validate_iff hinput hbook hquantity).mpr hlimit
  have hoffered := (offers_of_validateBook hbook side).1
  unfold executeShadowIoc
  rw [hvalid, hexpected, ok_bind]
  simp only [orShadowOverflow, ok_bind]
  rw [hinput.book, if_neg (by omega), hinput.side_eq, hinput.limit, hinput.quantity, zero_eq,
    fillLevels_eq hquantity.le hoffered, ok_bind]
  rw [zero_add, zero_add]
  unfold offersWithin at hwithin
  rw [hwithin]
  by_cases hfilled : (fill plan.requestedQuantity within).sum = 0
  · have haverage : ∀ value, averagePrice (fill plan.requestedQuantity within).sum value =
        .ok none := by
      intro value
      unfold averagePrice
      rw [if_pos ((isZero_iff_eq_zero _).mpr hfilled)]
    rw [haverage, ok_bind, slippageCost]
    refine ⟨_, rfl, rfl, rfl, rfl, fun h => absurd hfilled h, ?_⟩
    cases side with
    | buy => rfl
    | sell => exact (sub_eq_add_neg _ _).symm
  · have haverage : ∀ value, averagePrice (fill plan.requestedQuantity within).sum value =
        .ok (some (value / (fill plan.requestedQuantity within).sum)) := by
      intro value
      unfold averagePrice
      rw [if_neg (mt (isZero_iff_eq_zero _).mp hfilled), checkedDiv_eq hfilled]
      rfl
    rw [haverage, ok_bind]
    cases side with
    | buy => exact ⟨_, rfl, rfl, rfl, rfl, fun _ => rfl, rfl⟩
    | sell => exact ⟨_, rfl, rfl, rfl, rfl, fun _ => rfl, (sub_eq_add_neg _ _).symm⟩

theorem offers_eq_append (side : Side) (limit : ℚ) (levels : List (DepthLevel ℚ)) :
    ∃ others, offers side levels = offersWithin side limit levels ++ others := by
  refine ⟨offers side (levels.dropWhile fun level => withinLimit side limit level.price), ?_⟩
  unfold offersWithin offers
  rw [← List.map_append, List.takeWhile_append_dropWhile]

theorem offersWithin_cost_le {side : Side} {limit : ℚ} {levels : List (DepthLevel ℚ)} :
    ∀ offer ∈ offersWithin side limit levels, offer.1 ≤ cost side limit := by
  intro offer hoffer
  obtain ⟨level, hlevel, rfl⟩ := List.mem_map.mp hoffer
  have hwithin : withinLimit side limit level.price = true :=
    @List.mem_takeWhile_imp _ (fun other => withinLimit side limit other.price) _ level hlevel
  exact withinLimit_iff_cost.mp hwithin

theorem offersWithin_eq_nil_of_nil {side : Side} {limit : ℚ} {levels : List (DepthLevel ℚ)}
    (h : levels.head? = none) : offersWithin side limit levels = [] := by
  rw [List.head?_eq_none_iff] at h
  rw [h]
  rfl

theorem cost_div (side : Side) (value quantity : ℚ) :
    cost side (value / quantity) = cost side value / quantity := by
  cases side
  · rfl
  · exact (neg_div _ _).symm

theorem PlanParts.covered {side : Side} {quantity : ℚ} {snapshot : ShadowMarketSnapshot ℚ}
    {reference cushion maximumSlippage tick : ℚ} {plan : MarketableIocPlan ℚ}
    (h : PlanParts side quantity snapshot reference cushion maximumSlippage tick plan)
    (hmode : plan.pricingMode = .completeVisibleDepth) :
    quantity ≤ depthOf ((snapshot.executable side).takeWhile fun level =>
      withinLimit side plan.limitPrice level.price) := by
  obtain ⟨hpositive, hsorted⟩ := validateBook_spec h.book side
  simp only [zero_eq, toRat_eq] at hpositive
  rcases h.priced with ⟨-, before, level, hcovered, hlimit⟩ | ⟨hfallback, -⟩
  · have hinitial := hcovered.initial
    have hmem : level ∈ snapshot.executable side := hinitial.subset (by simp)
    have hlevel := cost_le_limit (hpositive level hmem).1 h.cushionNonneg hlimit
    -- every level up to the covering one is within the limit
    have hleading : before ++ [level] <+: (snapshot.executable side).takeWhile fun level =>
        withinLimit side plan.limitPrice level.price := by
      obtain ⟨rest, hrest⟩ := hinitial
      rw [← hrest] at hsorted ⊢
      rw [List.takeWhile_append_of_pos]
      · exact List.prefix_append _ _
      · intro other hother
        rw [withinLimit_iff_cost]
        rw [List.pairwise_append, List.pairwise_append] at hsorted
        rcases List.mem_append.mp hother with hbefore | hlast
        · have hnoWorse := hsorted.1.2.2 other hbefore level (List.mem_singleton.mpr rfl)
          exact (withinLimit_iff_cost.mp hnoWorse).trans hlevel
        · rw [List.mem_singleton.mp hlast]
          exact hlevel
    apply hcovered.covers.trans
    apply depthOf_le_of_initial hleading
    intro other hother
    exact (hpositive other ((List.takeWhile_sublist _).subset hother)).2.le
  · rw [hmode] at hfallback
    cases hfallback

theorem PlanParts.agrees {side : Side} {quantity : ℚ} {snapshot : ShadowMarketSnapshot ℚ}
    {reference cushion maximumSlippage tick : ℚ} {plan : MarketableIocPlan ℚ}
    (h : PlanParts side quantity snapshot reference cushion maximumSlippage tick plan)
    {input : ShadowExecutionInput ℚ} (hinput : ExecutesPlan side snapshot plan input)
    (hlimit : 0 < plan.limitPrice) :
    ∃ execution, executeShadowIoc input = .ok execution ∧
      AgreesWithPlan side snapshot plan input execution := by
  have hquantity : 0 < plan.requestedQuantity := h.requested ▸ h.quantityPositive
  obtain ⟨hoffered, hascending⟩ := offers_of_validateBook h.book side
  obtain ⟨execution, hok, hfilled, hnotional, hremainder, haverage, hafter⟩ :=
    executeShadowIoc_eq hinput h.book hquantity hlimit rfl
  obtain ⟨others, hothers⟩ := offers_eq_append side plan.limitPrice (snapshot.executable side)
  have hdepth : supply (offersWithin side plan.limitPrice (snapshot.executable side)) =
      depthOf ((snapshot.executable side).takeWhile fun level =>
        withinLimit side plan.limitPrice level.price) := supply_offers side _
  have hlimitCost := @offersWithin_cost_le side plan.limitPrice (snapshot.executable side)
  generalize hwithin : offersWithin side plan.limitPrice (snapshot.executable side) = within at *
  have hwithinOffered : Offered within := by
    intro offer hoffer
    apply hoffered offer
    rw [hothers]
    exact List.mem_append_left _ hoffer
  have hothersOffered : Offered others := by
    intro offer hoffer
    apply hoffered offer
    rw [hothers]
    exact List.mem_append_right _ hoffer
  have hsum := sum_fill hquantity.le hwithinOffered
  have hsplit := split_fill hquantity.le hwithinOffered
  obtain ⟨hworth, hfront⟩ := worth_fill_front hquantity.le hwithinOffered hothersOffered
  have hnonneg : 0 ≤ (fill plan.requestedQuantity within).sum := by
    rw [hsum]
    exact le_min hquantity.le (supply_nonneg hwithinOffered)
  refine ⟨execution, hok, ⟨?_, ?_, ?_, ?_, ?_, ?_, ?_⟩⟩
  · rw [hfilled, hsum, h.visible, hdepth, h.requested, min_comm]
  · rw [hfilled, hremainder]
    ring
  · intro hmode
    have hcovered := h.covered hmode
    rw [← hdepth, ← h.requested] at hcovered
    rw [hremainder, hsum, min_eq_left hcovered, sub_self]
  · intro hnonzero
    rw [hfilled] at hnonzero
    have hpositive : 0 < (fill plan.requestedQuantity within).sum :=
      lt_of_le_of_ne hnonneg hnonzero.symm
    cases hhead : (snapshot.executable side).head? with
    | none =>
      rw [offersWithin_eq_nil_of_nil hhead] at hwithin
      subst hwithin
      exact absurd rfl hnonzero
    | some best =>
      refine ⟨best, _, rfl, haverage hnonzero, ?_, ?_⟩
      · rw [cost_div, cost_cost, le_div_iff₀ hpositive, mul_comm]
        apply le_worth hsplit
        intro offer hoffer
        have hmem : offer ∈ offers side (snapshot.executable side) := by
          rw [hothers]
          exact List.mem_append_left _ hoffer
        obtain ⟨rest, hlevels⟩ := List.head?_eq_some_iff.mp hhead
        rw [hlevels] at hmem hascending
        rcases List.mem_cons.mp hmem with rfl | hrest
        · exact le_rfl
        · exact (List.pairwise_cons.mp hascending).1 offer hrest
      · rw [cost_div, cost_cost, div_le_iff₀ hpositive, mul_comm]
        exact worth_le hsplit hlimitCost
  · rw [hafter, hfilled]
  · refine ⟨fill (fill plan.requestedQuantity within).sum (offers side (snapshot.executable side)),
      split_fill hnonneg hoffered, ?_, ?_⟩
    · rw [hothers, hfront, hfilled]
    · rw [hothers, hworth, hnotional, cost_cost]
  · intro amounts hamounts htotal
    have hcheapest := worth_fill_le hoffered hascending hnonneg hamounts
      (by rw [htotal, hfilled, hothers, hfront])
    rwa [hothers, hworth, ← hothers, ← cost_cost side (worth within _), ← hnotional] at hcheapest

theorem PlanParts.limit_pos_iff {side : Side} {quantity : ℚ} {snapshot : ShadowMarketSnapshot ℚ}
    {reference cushion maximumSlippage tick : ℚ} {plan : MarketableIocPlan ℚ}
    (h : PlanParts side quantity snapshot reference cushion maximumSlippage tick plan) :
    0 < plan.limitPrice ↔
      side = .buy ∨ SaleAboveTick quantity snapshot reference cushion maximumSlippage tick := by
  have hlevels : ∀ level ∈ snapshot.executable side, 0 ≤ level.quantity := by
    intro level hlevel
    have hquantity := ((validateBook_spec h.book side).1 level hlevel).2
    rw [zero_eq] at hquantity
    exact hquantity.le
  rcases h.priced with ⟨-, before, level, hcovered, hlimit⟩ | ⟨-, hshort, hlimit⟩
  · rw [isLimit_pos_iff hlimit]
    cases side with
    | buy => simp
    | sell =>
      simp only [reduceCtorEq, false_or, moved]
      constructor
      · intro htick
        refine ⟨?_, ?_⟩
        · intro before' level' hcovered'
          rw [← hcovered.unique hlevels hcovered']
          exact htick
        · intro hshort
          have hle := depthOf_le_of_initial hcovered.initial hlevels
          have hcovers := hcovered.covers
          have hbids : depthOf (snapshot.executable .sell) < quantity := hshort
          linarith
      · intro habove
        exact habove.covered before level hcovered
  · rw [isLimit_pos_iff hlimit]
    cases side with
    | buy => simp
    | sell =>
      simp only [reduceCtorEq, false_or, moved]
      constructor
      · intro htick
        refine ⟨?_, fun _ => htick⟩
        intro before' level' hcovered'
        have hle := depthOf_le_of_initial hcovered'.initial hlevels
        have hcovers := hcovered'.covers
        have hbids : depthOf snapshot.bids < quantity := hshort
        linarith
      · intro habove
        exact habove.uncovered hshort

/-- **Plan and execution.**  The execution of a plan against its own book fills what the plan counts,
as cheaply as the book allows, exactly when the order is a purchase or the raw limit of the sale is at
least one tick. -/
theorem plan_execution_agree_iff {side : Side} {quantity : ℚ} {snapshot : ShadowMarketSnapshot ℚ}
    {reference cushion maximumSlippage tick : ℚ} {plan : MarketableIocPlan ℚ}
    (hplan : planMarketableIoc side quantity snapshot reference cushion maximumSlippage tick =
      .ok plan)
    {input : ShadowExecutionInput ℚ} (hinput : ExecutesPlan side snapshot plan input) :
    (∃ execution, executeShadowIoc input = .ok execution ∧
        AgreesWithPlan side snapshot plan input execution) ↔
      side = .buy ∨ SaleAboveTick quantity snapshot reference cushion maximumSlippage tick := by
  have hparts := planMarketableIoc_parts hplan
  have hquantity : 0 < plan.requestedQuantity := hparts.requested ▸ hparts.quantityPositive
  rw [← hparts.limit_pos_iff]
  constructor
  · rintro ⟨execution, hok, -⟩
    obtain ⟨⟨⟩, hvalid, -⟩ := of_bind hok
    exact (execution_validate_iff hinput hparts.book hquantity).mp hvalid
  · exact hparts.agrees hinput

def sampleBids (price : ℚ) : ShadowMarketSnapshot ℚ where
  observedAtMono := 2
  midpoint := 100
  bids := [⟨price, 10⟩]
  asks := []

/-- A sale of five units against that book at a limit, from a position of five. -/
def sampleSale (price limit : ℚ) : ShadowExecutionInput ℚ where
  action := {
    decisionId := Bytes.replicate 32 0
    targetVersion := 1
    asset := "BTC"
    side := .sell
    roundedNotional := 500
    reduceOnly := true
    actionOrdinal := 0
    retryGeneration := 0
    plannedCloid := Bytes.replicate 16 0 }
  decisionTimestampMono := 1
  decisionMarketSnapshot := sampleBids price
  evaluationMarketSnapshot := sampleBids price
  configuredLatencyMs := 1
  proposedLimitPrice := limit
  roundedQuantity := 5
  takerFeeRate := 0
  fundingAttribution := 0
  positionBefore := 5

theorem sampleSale_executes {price limit : ℚ} (hprice : 0 < price) (visible : ℚ) :
    ExecutesPlan .sell (sampleBids price) ⟨limit, 5, visible, some price, .completeVisibleDepth⟩
      (sampleSale price limit) := by
  refine ⟨rfl, rfl, rfl, rfl, le_rfl, ?_, ?_, 2, ?_, le_rfl⟩
  · norm_num [sampleSale, sampleBids]
  · simp [sampleSale, sampleBids, validateBook, someNeighbours, hprice]
  · change checkedAddU64 1 1 = some 2
    decide

/-- At a price of 99 and a tick of one the sale is filled as planned. -/
theorem plan_execution_agree_iff_whole :
    (∃ execution, executeShadowIoc (sampleSale 99 99) = .ok execution ∧
        AgreesWithPlan .sell (sampleBids 99) ⟨99, 5, 5, some 99, .completeVisibleDepth⟩
          (sampleSale 99 99) execution) ↔
      Side.sell = .buy ∨ SaleAboveTick 5 (sampleBids 99) 100 0 (3 / 100) 1 := by
  have hplan : planMarketableIoc .sell 5 (sampleBids 99) 100 0 (3 / 100) 1 =
      .ok ⟨99, 5, 5, some 99, .completeVisibleDepth⟩ := by
    decide +kernel
  exact plan_execution_agree_iff hplan (sampleSale_executes (by norm_num) 5)

/-- At half a tick the plan succeeds with a limit of zero, which the execution refuses. -/
theorem planned_sale_refused :
    planMarketableIoc .sell 5 (sampleBids (1 / 2)) (1 / 2) 0 (3 / 100) 1 =
        .ok ⟨0, 5, 5, some (1 / 2), .completeVisibleDepth⟩ ∧
      ExecutesPlan .sell (sampleBids (1 / 2)) ⟨0, 5, 5, some (1 / 2), .completeVisibleDepth⟩
        (sampleSale (1 / 2) 0) ∧
      executeShadowIoc (sampleSale (1 / 2) 0) =
        .error (.invalidInput "quantity, prices, midpoint, and fee rate") := by
  refine ⟨by decide +kernel, sampleSale_executes (by norm_num) 5, by decide +kernel⟩

end CopyTrade.Analysis
