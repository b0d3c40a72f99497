import CopyTrade.Analysis.Risk.FinalValidation
import Mathlib.Algebra.Order.Group.MinMax

/-!
# Every outcome of a projection

After a projection each active open order may be filled in part, and so may each rounded
delta.  Whatever is filled, the exposure of an asset lies in its projected range, so the caps
that the ranges respect hold of every outcome; where the filled positions breach a cap already,
no outcome is worse than the worst one without any delta.
-/

namespace CopyTrade.Analysis

open Foundation Model Model.PortfolioRisk
open Model.ExactDecimal
open Std (ExtTreeMap)

/-- An order with the part of its notional that is filled. -/
abbrev OrderFill := OpenOrderExposure ℚ × ℚ

/-- What a fill changes; an order that is not active changes nothing. -/
def signedFill (fill : OrderFill) : ℚ :=
  if isActive fill.1 then
    match fill.1.side with
    | some .buy => fill.2
    | some .sell => -fill.2
    | none => 0
  else 0

/-- A choice of partial fills: each active open order is filled between zero and its notional,
each delta between zero and its full size. -/
structure FillOutcome (input : PortfolioProjectionInput ℚ) (deltas : ExtTreeMap String ℚ) where
  fills : List OrderFill
  taken : String → ℚ
  orders : fills.map Prod.fst = input.acknowledgedOpenOrders
  nonneg : ∀ fill ∈ fills, isActive fill.1 = true → 0 ≤ fill.2
  within : ∀ fill ∈ fills, isActive fill.1 = true → fill.2 ≤ fill.1.notional.getD 0
  low : ∀ asset, min 0 (valueAt deltas asset) ≤ taken asset
  high : ∀ asset, taken asset ≤ max 0 (valueAt deltas asset)

namespace FillOutcome

variable {input : PortfolioProjectionInput ℚ} {deltas : ExtTreeMap String ℚ}

def openChange (outcome : FillOutcome input deltas) (asset : String) : ℚ :=
  ((outcome.fills.filter fun fill => fill.1.asset == asset).map signedFill).sum

def exposure (outcome : FillOutcome input deltas) (asset : String) : ℚ :=
  valueAt input.filledPositions asset + outcome.openChange asset + outcome.taken asset

def gross (outcome : FillOutcome input deltas) : ℚ :=
  ((portfolioAssets input).toList.map fun asset => |outcome.exposure asset|).sum

def net (outcome : FillOutcome input deltas) : ℚ :=
  ((portfolioAssets input).toList.map outcome.exposure).sum

end FillOutcome

theorem signedFill_within {fill : OrderFill} (hknown : KnownOrder fill.1)
    (hnonneg : isActive fill.1 = true → 0 ≤ fill.2)
    (hwithin : isActive fill.1 = true → fill.2 ≤ fill.1.notional.getD 0) :
    -sellsOf fill.1 ≤ signedFill fill ∧ signedFill fill ≤ buysOf fill.1 := by
  cases hactive : isActive fill.1 with
  | false =>
    unfold signedFill sellsOf buysOf
    simp [hactive]
  | true =>
    have hlow := hnonneg hactive
    have hhigh := hwithin hactive
    obtain ⟨side, hside⟩ := hknown.side hactive
    unfold signedFill sellsOf buysOf
    cases side with
    | buy =>
      simp only [hactive, hside, if_true, Bool.true_and, beq_self_eq_true]
      simp [hlow, hhigh]
    | sell =>
      simp only [hactive, hside, if_true, Bool.true_and, beq_self_eq_true]
      constructor
      · linarith
      · simp [hlow]

section

variable {input : PortfolioProjectionInput ℚ} {deltas : ExtTreeMap String ℚ}
  {openByAsset : ExtTreeMap String (ℚ × ℚ)}

theorem FillOutcome.sum_orders (outcome : FillOutcome input deltas) (asset : String)
    (amount : OpenOrderExposure ℚ → ℚ) :
    ((input.acknowledgedOpenOrders.filter fun order => order.asset == asset).map amount).sum =
      ((outcome.fills.filter fun fill => fill.1.asset == asset).map fun fill =>
        amount fill.1).sum := by
  rw [← outcome.orders, List.filter_map, List.map_map]
  rfl

theorem FillOutcome.openChange_within (outcome : FillOutcome input deltas)
    (hopen : activeOpenExposure input = .ok openByAsset) (asset : String) :
    -(openAt openByAsset asset).2 ≤ outcome.openChange asset ∧
      outcome.openChange asset ≤ (openAt openByAsset asset).1 := by
  obtain ⟨hknown, hsums⟩ := activeOpenExposure_eq_ok hopen
  rw [hsums, outcome.sum_orders, outcome.sum_orders]
  have hfill : ∀ fill ∈ outcome.fills.filter fun fill => fill.1.asset == asset,
      Within (fun fill : OrderFill => -sellsOf fill.1) (fun fill => buysOf fill.1) signedFill
        fill := by
    intro fill hmem
    have hin := (List.mem_filter.mp hmem).1
    have horder : fill.1 ∈ input.acknowledgedOpenOrders := by
      rw [← outcome.orders]
      exact List.mem_map_of_mem hin
    obtain ⟨hlow, hhigh⟩ := signedFill_within (hknown fill.1 horder) (outcome.nonneg fill hin)
      (outcome.within fill hin)
    exact ⟨hlow, hhigh⟩
  refine ⟨?_, sum_le_high hfill⟩
  have hneg : (fun fill : OrderFill => -sellsOf fill.1) =
      Neg.neg ∘ fun fill : OrderFill => sellsOf fill.1 := rfl
  have hlow := sum_low_le hfill
  rw [hneg, ← List.map_map, ← List.sum_neg] at hlow
  exact hlow

theorem FillOutcome.exposure_within (outcome : FillOutcome input deltas)
    (hopen : activeOpenExposure input = .ok openByAsset) (asset : String) :
    Within (rangeLow input openByAsset deltas) (rangeHigh input openByAsset deltas)
      outcome.exposure asset := by
  obtain ⟨hlow, hhigh⟩ := outcome.openChange_within hopen asset
  have hneg : min 0 (valueAt deltas asset) = -max (-valueAt deltas asset) 0 := by
    rw [max_comm, ← min_neg_neg, neg_zero, neg_neg]
  have htakenLow := outcome.low asset
  have htakenHigh := outcome.high asset
  rw [hneg] at htakenLow
  rw [max_comm] at htakenHigh
  unfold rangeLow rangeHigh FillOutcome.exposure
  constructor
  · linarith
  · linarith

theorem FillOutcome.gross_le (outcome : FillOutcome input deltas)
    (hopen : activeOpenExposure input = .ok openByAsset) :
    outcome.gross ≤ ((portfolioAssets input).toList.map fun asset =>
      peak (rangeLow input openByAsset deltas asset)
        (rangeHigh input openByAsset deltas asset)).sum :=
  sum_abs_le_sum_peak fun asset _ => outcome.exposure_within hopen asset

theorem FillOutcome.abs_net_le (outcome : FillOutcome input deltas)
    (hopen : activeOpenExposure input = .ok openByAsset) :
    |outcome.net| ≤ peak ((portfolioAssets input).toList.map (rangeLow input openByAsset deltas)).sum
      ((portfolioAssets input).toList.map (rangeHigh input openByAsset deltas)).sum :=
  abs_sum_le_peak fun asset _ => outcome.exposure_within hopen asset

theorem FillOutcome.exposure_eq_zero (outcome : FillOutcome input deltas)
    (hdeltas : DeltasWithin (portfolioAssets input) deltas) {asset : String}
    (hasset : asset ∉ portfolioAssets input) : outcome.exposure asset = 0 := by
  have hdelta : valueAt deltas asset = 0 := by
    unfold valueAt
    rw [hdeltas asset hasset, Option.getD_none, zero_eq]
  unfold portfolioAssets at hasset
  rw [mem_set_ofList, List.mem_append, List.mem_append, not_or, not_or] at hasset
  obtain ⟨⟨hfilled, -⟩, horders⟩ := hasset
  have hposition : valueAt input.filledPositions asset = 0 := by
    unfold valueAt
    rw [ExtTreeMap.mem_keys] at hfilled
    rw [ExtTreeMap.getElem?_eq_none hfilled, Option.getD_none, zero_eq]
  have htaken : outcome.taken asset = 0 := by
    have hlow := outcome.low asset
    have hhigh := outcome.high asset
    rw [hdelta, min_self] at hlow
    rw [hdelta, max_self] at hhigh
    exact le_antisymm hhigh hlow
  have hopenChange : outcome.openChange asset = 0 := by
    refine List.sum_eq_zero ?_
    intro change hchange
    obtain ⟨fill, hfill, rfl⟩ := List.mem_map.mp hchange
    obtain ⟨hmem, hsame⟩ := List.mem_filter.mp hfill
    have horder : fill.1 ∈ input.acknowledgedOpenOrders := by
      rw [← outcome.orders]
      exact List.mem_map_of_mem hmem
    have hactive : isActive fill.1 = false := by
      rw [← Bool.not_eq_true]
      intro hactive
      refine horders (List.mem_map.mpr ⟨fill.1, List.mem_filter.mpr ⟨horder, hactive⟩, ?_⟩)
      exact beq_iff_eq.mp hsame
    unfold signedFill
    rw [hactive]
    rfl
  unfold FillOutcome.exposure
  rw [hposition, hopenChange, htaken, add_zero, add_zero]

end

section

variable {input : PortfolioProjectionInput ℚ} {openByAsset : ExtTreeMap String (ℚ × ℚ)}

def oneSided (hknown : ∀ order ∈ input.acknowledgedOpenOrders, KnownOrder order)
    (upper : String → Bool) : FillOutcome input ∅ where
  fills := input.acknowledgedOpenOrders.map fun order =>
    (order, if upper order.asset then buysOf order else sellsOf order)
  taken := fun _ => 0
  orders := by
    rw [List.map_map]
    exact List.map_id _
  nonneg := by
    intro fill hfill _
    obtain ⟨order, horder, rfl⟩ := List.mem_map.mp hfill
    split
    · exact (hknown order horder).buysOf_nonneg
    · exact (hknown order horder).sellsOf_nonneg
  within := by
    intro fill hfill hactive
    obtain ⟨order, horder, rfl⟩ := List.mem_map.mp hfill
    have hnotional := (hknown order horder).notional hactive
    unfold buysOf sellsOf
    split <;> split <;> first | exact le_refl _ | exact hnotional
  low := by
    intro asset
    exact min_le_left _ _
  high := by
    intro asset
    exact le_max_left _ _

theorem signedFill_oneSided {order : OpenOrderExposure ℚ} (hknown : KnownOrder order)
    (upper : Bool) :
    signedFill (order, if upper then buysOf order else sellsOf order) =
      if upper then buysOf order else -sellsOf order := by
  cases hactive : isActive order with
  | false =>
    unfold signedFill buysOf sellsOf
    simp [hactive]
  | true =>
    obtain ⟨side, hside⟩ := hknown.side hactive
    unfold signedFill buysOf sellsOf
    cases side <;> cases upper <;> simp [hactive, hside]

theorem exposure_oneSided (hopen : activeOpenExposure input = .ok openByAsset)
    (upper : String → Bool) (asset : String) :
    (oneSided (activeOpenExposure_eq_ok hopen).1 upper).exposure asset =
      if upper asset then rangeHigh input openByAsset ∅ asset
      else rangeLow input openByAsset ∅ asset := by
  obtain ⟨hknown, hsums⟩ := activeOpenExposure_eq_ok hopen
  have hchange : (oneSided hknown upper).openChange asset =
      if upper asset then (openAt openByAsset asset).1 else -(openAt openByAsset asset).2 := by
    have hfills : ∀ order ∈ input.acknowledgedOpenOrders.filter (fun order => order.asset == asset),
        signedFill (order, if upper order.asset then buysOf order else sellsOf order) =
          if upper asset then buysOf order else -sellsOf order := by
      intro order hmem
      obtain ⟨horder, hsame⟩ := List.mem_filter.mp hmem
      rw [signedFill_oneSided (hknown order horder), beq_iff_eq.mp hsame]
    have hsum : (oneSided hknown upper).openChange asset =
        ((input.acknowledgedOpenOrders.filter fun order => order.asset == asset).map fun order =>
          if upper asset then buysOf order else -sellsOf order).sum := by
      unfold FillOutcome.openChange oneSided
      rw [List.filter_map, List.map_map]
      exact congrArg List.sum (List.map_congr_left hfills)
    rw [hsum, hsums]
    cases upper asset with
    | true => rfl
    | false =>
      have hneg : (fun order => -sellsOf order) = Neg.neg ∘ sellsOf := rfl
      simp only [Bool.false_eq_true, if_false]
      rw [hneg, ← List.map_map, ← List.sum_neg]
  have hnone : valueAt (∅ : ExtTreeMap String ℚ) asset = (0 : ℚ) := by
    unfold valueAt
    rw [ExtTreeMap.getElem?_empty, Option.getD_none, zero_eq]
  unfold FillOutcome.exposure rangeHigh rangeLow
  rw [hchange, hnone]
  have htaken : (oneSided hknown upper).taken asset = 0 := rfl
  rw [htaken]
  cases upper asset with
  | true => simp
  | false => simp [sub_eq_add_neg]

theorem exists_worst_gross (hopen : activeOpenExposure input = .ok openByAsset) :
    ∃ worst : FillOutcome input ∅, worst.gross =
      ((portfolioAssets input).toList.map fun asset =>
        peak (rangeLow input openByAsset ∅ asset) (rangeHigh input openByAsset ∅ asset)).sum := by
  refine ⟨oneSided (activeOpenExposure_eq_ok hopen).1 fun asset =>
    |rangeLow input openByAsset ∅ asset| ≤ |rangeHigh input openByAsset ∅ asset|, ?_⟩
  refine congrArg List.sum (List.map_congr_left fun asset _ => ?_)
  rw [exposure_oneSided hopen]
  unfold peak
  by_cases hle : |rangeLow input openByAsset ∅ asset| ≤ |rangeHigh input openByAsset ∅ asset|
  · rw [decide_eq_true hle, if_pos rfl, max_eq_right hle]
  · rw [decide_eq_false hle, if_neg Bool.false_ne_true, max_eq_left (not_le.mp hle).le]

theorem exists_worst_net (hopen : activeOpenExposure input = .ok openByAsset) :
    ∃ worst : FillOutcome input ∅, |worst.net| =
      peak ((portfolioAssets input).toList.map (rangeLow input openByAsset ∅)).sum
        ((portfolioAssets input).toList.map (rangeHigh input openByAsset ∅)).sum := by
  have hside : ∀ upper : Bool,
      (oneSided (activeOpenExposure_eq_ok hopen).1 fun _ => upper).net =
        if upper then ((portfolioAssets input).toList.map (rangeHigh input openByAsset ∅)).sum
        else ((portfolioAssets input).toList.map (rangeLow input openByAsset ∅)).sum := by
    intro upper
    unfold FillOutcome.net
    rw [List.map_congr_left fun asset _ => exposure_oneSided hopen (fun _ => upper) asset]
    cases upper <;> rfl
  rcases peak_eq_or ((portfolioAssets input).toList.map (rangeLow input openByAsset ∅)).sum
    ((portfolioAssets input).toList.map (rangeHigh input openByAsset ∅)).sum with hlow | hhigh
  · refine ⟨oneSided (activeOpenExposure_eq_ok hopen).1 fun _ => false, ?_⟩
    rw [hside, hlow]
    rfl
  · refine ⟨oneSided (activeOpenExposure_eq_ok hopen).1 fun _ => true, ?_⟩
    rw [hside, hhigh]
    rfl

end

theorem assetCap_nonneg {input : PortfolioProjectionInput ℚ} (h : validateInput input = .ok ()) :
    0 ≤ (portfolioCaps input).asset := by
  unfold validateInput at h
  split at h
  · cases h
  rename_i hequity
  split at h
  · cases h
  split at h
  · cases h
  obtain ⟨_, hfields, h⟩ := of_bind h
  rw [checkAll_eq_ok_iff] at hfields
  have hpct := hfields ("max_single_asset_equity_pct", input.maxSingleAssetEquityPct) (by simp)
  split at hpct
  · cases hpct
  rename_i hrange
  rw [le_iff_le, zero_eq, not_le] at hequity
  simp only [Bool.not_eq_true', Bool.not_eq_false, Bool.and_eq_true, le_iff_le, zero_eq] at hrange
  exact mul_nonneg hequity.le hrange.1

/-- **Worst-case soundness.**  Whatever is filled of the open orders and of the rounded deltas, the
exposures respect the caps when the filled positions do; when they do not, they are no larger than
in the worst outcome without any delta. -/
theorem projection_worst_case_sound {input : PortfolioProjectionInput ℚ}
    {projection : PortfolioProjection ℚ}
    (h : projectAndValidatePortfolio input = .ok projection)
    (outcome : FillOutcome input projection.roundedDeltas) :
    (FilledWithinCaps input →
      (∀ asset, |outcome.exposure asset| ≤ (portfolioCaps input).asset) ∧
        outcome.gross ≤ (portfolioCaps input).gross ∧ |outcome.net| ≤ (portfolioCaps input).net) ∧
    (¬ FilledWithinCaps input →
      (∃ worst : FillOutcome input ∅, (∀ other : FillOutcome input ∅, other.gross ≤ worst.gross) ∧
        outcome.gross ≤ worst.gross) ∧
      ∃ worst : FillOutcome input ∅, (∀ other : FillOutcome input ∅, |other.net| ≤ |worst.net|) ∧
        |outcome.net| ≤ |worst.net|) := by
  obtain ⟨hvalid, hdeltas, openByAsset, ranges, metrics, hopen, hranges, hmetrics, hfinal⟩ :=
    projectAndValidatePortfolio_eq_ok h
  obtain ⟨hgross, hminimum, hmaximum⟩ := rangeMetrics_eq_ok hranges hmetrics
  have hgrossLe := outcome.gross_le hopen
  have hnetLe := outcome.abs_net_le hopen
  rw [← hgross] at hgrossLe
  rw [← hminimum, ← hmaximum] at hnetLe
  rcases validateFinalRanges_eq_ok hfinal with
    ⟨hwithin, hassets, hgrossCap, hnetCap⟩ |
      ⟨hbreach, baseline, baselineMetrics, hbaseline, hbaselineMetrics, hnotWorse, hnotWorseNet⟩
  · refine ⟨fun _ => ⟨?_, hgrossLe.trans hgrossCap, hnetLe.trans hnetCap⟩,
      fun hbreach => absurd hwithin hbreach⟩
    intro asset
    by_cases hasset : asset ∈ portfolioAssets input
    · have hrange := projectedRanges_eq_ok hranges asset
      rw [if_pos hasset] at hrange
      have hcap := hassets asset _ hrange
      unfold assetRange at hcap
      have hin := outcome.exposure_within hopen asset
      exact (abs_le_peak hin.low hin.high).trans hcap
    · rw [outcome.exposure_eq_zero hdeltas hasset, abs_zero]
      exact assetCap_nonneg hvalid
  · refine ⟨fun hwithin => absurd hwithin hbreach, fun _ => ⟨?_, ?_⟩⟩
    · obtain ⟨worst, hworst⟩ := exists_worst_gross hopen
      have hbaselineGross := (rangeMetrics_eq_ok hbaseline hbaselineMetrics).1
      refine ⟨worst, ?_, ?_⟩
      · intro other
        rw [hworst]
        exact other.gross_le hopen
      · rw [hworst, ← hbaselineGross]
        exact hgrossLe.trans hnotWorse
    · obtain ⟨worst, hworst⟩ := exists_worst_net hopen
      obtain ⟨-, hbaselineMinimum, hbaselineMaximum⟩ := rangeMetrics_eq_ok hbaseline hbaselineMetrics
      refine ⟨worst, ?_, ?_⟩
      · intro other
        rw [hworst]
        exact other.abs_net_le hopen
      · rw [hworst, ← hbaselineMinimum, ← hbaselineMaximum]
        exact hnetLe.trans hnotWorseNet

def openSellPortfolio : PortfolioProjectionInput ℚ where
  currentEquity := 1000
  curveLeverage := 10
  globalRiskScale := 1 / 10
  maxSingleAssetEquityPct := 1
  maxNetEquityPct := 1
  filledPositions := ExtTreeMap.ofList [("BTC", 200)] compare
  filledPositionStateComplete := true
  acknowledgedOpenOrders :=
    [{ asset := "BTC", side := some .sell, notional := some 100, lifecycle := .acknowledged }]
  openOrderStateComplete := true
  unconstrainedTargets := ExtTreeMap.ofList [("BTC", 500)] compare
  marketRules := ExtTreeMap.ofList [("BTC", ⟨10, 1, 1⟩)] compare

theorem projection_worst_case_sound_openSell :
    ∃ projection, projectAndValidatePortfolio openSellPortfolio = .ok projection ∧
      ∀ outcome : FillOutcome openSellPortfolio projection.roundedDeltas,
        outcome.gross ≤ (portfolioCaps openSellPortfolio).gross := by
  have hwithin : FilledWithinCaps openSellPortfolio :=
    (filledViolation_eq_false_iff _).mp (by decide +kernel)
  have hok : (projectAndValidatePortfolio openSellPortfolio).isOk = true := by decide +kernel
  cases h : projectAndValidatePortfolio openSellPortfolio with
  | error violation =>
    rw [h] at hok
    cases hok
  | ok projection =>
    exact ⟨projection, rfl, fun outcome =>
      ((projection_worst_case_sound h outcome).1 hwithin).2.1⟩

end CopyTrade.Analysis
