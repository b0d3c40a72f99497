import CopyTrade.Analysis.Risk.ConstrainedTargets
import CopyTrade.Analysis.Risk.PruningLoop

/-!
# Bounds of the constrained targets and of the rounded deltas

A projection that is returned holds the constrained targets, the delta that each asset's target asks
for, and the rounded deltas: those of the first pass, or what staging left of them.  Clamping and
scaling move a target towards zero, and the rounding moves a delta towards zero by less than one
lot.  So no target changes sides or grows, and what one pass has established the next ones keep.
-/

namespace CopyTrade.Analysis

open Foundation Model Model.PortfolioRisk Model.ExactDecimal
open Std (ExtTreeMap ExtTreeSet)

section

variable {input : PortfolioProjectionInput ℚ} {assets : ExtTreeSet String}
  {openByAsset : ExtTreeMap String (ℚ × ℚ)}

theorem pruneStaged_value {worst : ℚ} {rounds : ℕ} {staged next : ExtTreeMap String ℚ}
    (h : pruneStaged input assets openByAsset worst rounds staged = .ok next) (asset : String) :
    valueAt next asset = valueAt staged asset ∨ valueAt next asset = (0 : ℚ) := by
  induction rounds generalizing staged with
  | zero =>
    cases h
    exact .inl rfl
  | succ rounds ih =>
    unfold pruneStaged at h
    obtain ⟨ranges, hranges, h⟩ := of_bind h
    obtain ⟨metrics, hmetrics, h⟩ := of_bind h
    dsimp only at h
    split at h
    · rw [pure_eq_ok_iff] at h
      subst h
      exact .inl rfl
    · split at h
      · cases h
      · rename_i remove delta hsmallest
        rcases ih h with hsame | hzero
        · rw [zero_eq, valueAt_insert] at hsame
          split at hsame
          · exact .inr hsame
          · exact .inl hsame
        · exact .inr hzero

theorem stageRiskReducingDeltas_value {deltas next : ExtTreeMap String ℚ}
    (h : stageRiskReducingDeltas input assets openByAsset deltas = .ok next) {asset : String}
    (hasset : asset ∈ assets) :
    valueAt next asset = valueAt deltas asset ∨ valueAt next asset = (0 : ℚ) := by
  unfold stageRiskReducingDeltas at h
  obtain ⟨baseline, hbaseline, h⟩ := of_bind h
  obtain ⟨candidates, hasReduction, hloop, hcandidates, -⟩ :=
    @candidateDeltas_eq_ok input assets openByAsset deltas baseline hbaseline
  unfold candidateDeltas at hloop
  rw [hloop, ok_bind] at h
  have hcandidate : valueAt candidates asset = valueAt deltas asset ∨
      valueAt candidates asset = (0 : ℚ) := by
    have hvalue : valueAt candidates asset = candidateDelta input openByAsset deltas asset := by
      unfold valueAt
      rw [hcandidates, if_pos hasset, Option.getD_some]
    rw [hvalue]
    unfold candidateDelta
    split
    · exact .inl rfl
    · exact .inr rfl
  dsimp only at h
  split at h
  · obtain ⟨metrics, hmetrics, h⟩ := of_bind h
    rcases pruneStaged_value h asset with hsame | hzero
    · rw [hsame]
      exact hcandidate
    · exact .inr hzero
  · rw [pure_eq_ok_iff] at h
    subst h
    exact hcandidate

end

def firstPass (input : PortfolioProjectionInput ℚ) (openByAsset : ExtTreeMap String (ℚ × ℚ))
    (constrainedTargets : ExtTreeMap String ℚ) :
    Except (RiskViolation ℚ) (ExtTreeMap String ℚ × ExtTreeMap String ℚ) :=
  (portfolioAssets input).toList.foldlM (fun acc asset => do
    let (proposed, rounded) ← assetDelta input openByAsset constrainedTargets asset
    pure (acc.1.insert asset proposed, acc.2.insert asset rounded)) (∅, ∅)

section

variable {input : PortfolioProjectionInput ℚ} {openByAsset : ExtTreeMap String (ℚ × ℚ)}
  {constrained proposed initial : ExtTreeMap String ℚ}

theorem firstPass_eq_ok (h : firstPass input openByAsset constrained = .ok (proposed, initial))
    {asset : String} (hasset : asset ∈ portfolioAssets input) :
    ∃ delta rounded, assetDelta input openByAsset constrained asset = .ok (delta, rounded) ∧
      proposed[asset]? = some delta ∧ initial[asset]? = some rounded := by
  exact (getElem?_foldlM_insert_pair h asset).1 (ExtTreeSet.mem_toList.mpr hasset)

end

/-- How the deltas of a projection come about. -/
structure ProjectionParts (input : PortfolioProjectionInput ℚ) (projection : PortfolioProjection ℚ)
    (openByAsset : ExtTreeMap String (ℚ × ℚ)) (initial : ExtTreeMap String ℚ)
    (ranges : ExtTreeMap String (ExposureRange ℚ)) (metrics : ℚ × ℚ × ℚ) : Prop where
  valid : validateInput input = .ok ()
  openOrders : activeOpenExposure input = .ok openByAsset
  targets : ∃ scaled, scaleTargetsToGrossCap
      (clampedTargets input (portfolioAssets input) (portfolioCaps input).asset)
      (portfolioCaps input).gross = .ok scaled ∧
    enforceTargetNetCap scaled (portfolioCaps input).net = .ok projection.constrainedTargets
  proposed : firstPass input openByAsset projection.constrainedTargets =
    .ok (projection.proposedDeltas, initial)
  firstRanges : projectedRanges input (portfolioAssets input) openByAsset initial = .ok ranges
  firstMetrics : rangeMetrics ranges = .ok metrics
  rounded : if transitionBreaches ranges (portfolioCaps input) metrics then
      stageRiskReducingDeltas input (portfolioAssets input) openByAsset initial =
        .ok projection.roundedDeltas
    else projection.roundedDeltas = initial
  finalRanges : projectedRanges input (portfolioAssets input) openByAsset projection.roundedDeltas =
    .ok projection.projectedRanges

/-- **Every projection that is returned has these parts.** -/
theorem projectAndValidatePortfolio_parts {input : PortfolioProjectionInput ℚ}
    {projection : PortfolioProjection ℚ} (h : projectAndValidatePortfolio input = .ok projection) :
    ∃ openByAsset initial ranges metrics,
      ProjectionParts input projection openByAsset initial ranges metrics := by
  unfold projectAndValidatePortfolio at h
  obtain ⟨_, hvalid, h⟩ := of_bind h
  simp only [checkedMul_eq_ok, ok_bind] at h
  obtain ⟨openByAsset, hopen, h⟩ := of_bind h
  obtain ⟨scaled, hscaled, h⟩ := of_bind h
  obtain ⟨constrained, hconstrained, h⟩ := of_bind h
  obtain ⟨⟨proposed, initial⟩, hinitial, h⟩ := of_bind h
  obtain ⟨ranges, hranges, h⟩ := of_bind h
  obtain ⟨metrics, hmetrics, h⟩ := of_bind h
  obtain ⟨⟨rounded, finalRanges, finalMetrics⟩, hstaged, h⟩ := of_bind h
  obtain ⟨_, hfinal, h⟩ := of_bind h
  rw [pure_eq_ok_iff] at h
  subst h
  have hrounded : (if transitionBreaches ranges (portfolioCaps input) metrics then
        stageRiskReducingDeltas input (portfolioAssets input) openByAsset initial = .ok rounded
      else rounded = initial) ∧
      projectedRanges input (portfolioAssets input) openByAsset rounded = .ok finalRanges := by
    have hcaps : (Caps.mk (input.currentEquity * input.maxSingleAssetEquityPct)
        (input.currentEquity * input.curveLeverage * input.globalRiskScale)
        (input.currentEquity * input.maxNetEquityPct)) = portfolioCaps input := rfl
    rw [hcaps] at hstaged
    split at hstaged
    · rename_i hbreaches
      obtain ⟨staged, hreduced, hstaged⟩ := of_bind hstaged
      obtain ⟨stagedRanges, hstagedRanges, hstaged⟩ := of_bind hstaged
      obtain ⟨stagedMetrics, hstagedMetrics, hstaged⟩ := of_bind hstaged
      rw [pure_eq_ok_iff] at hstaged
      cases hstaged
      rw [if_pos hbreaches]
      exact ⟨hreduced, hstagedRanges⟩
    · rename_i hfits
      rw [pure_eq_ok_iff] at hstaged
      cases hstaged
      rw [if_neg hfits]
      exact ⟨rfl, hranges⟩
  refine ⟨openByAsset, initial, ranges, metrics, ?_⟩
  exact {
    valid := hvalid
    openOrders := hopen
    targets := ⟨scaled, hscaled, hconstrained⟩
    proposed := hinitial
    firstRanges := hranges
    firstMetrics := hmetrics
    rounded := hrounded.1
    finalRanges := hrounded.2 }

variable {input : PortfolioProjectionInput ℚ} {projection : PortfolioProjection ℚ}
  {openByAsset : ExtTreeMap String (ℚ × ℚ)} {initial : ExtTreeMap String ℚ}
  {ranges : ExtTreeMap String (ExposureRange ℚ)} {metrics : ℚ × ℚ × ℚ}

theorem ProjectionParts.roundedDelta_eq_or
    (h : ProjectionParts input projection openByAsset initial ranges metrics) {asset : String}
    (hasset : asset ∈ portfolioAssets input) :
    ∃ delta rounded, assetDelta input openByAsset projection.constrainedTargets asset =
        .ok (delta, rounded) ∧
      valueAt projection.proposedDeltas asset = delta ∧ valueAt initial asset = rounded ∧
      (valueAt projection.roundedDeltas asset = rounded ∨
        valueAt projection.roundedDeltas asset = (0 : ℚ)) := by
  obtain ⟨delta, rounded, hdelta, hproposed, hinitial⟩ := firstPass_eq_ok h.proposed hasset
  have hvalue : valueAt initial asset = rounded := by
    unfold valueAt
    rw [hinitial, Option.getD_some]
  refine ⟨delta, rounded, hdelta, ?_, hvalue, ?_⟩
  · unfold valueAt
    rw [hproposed, Option.getD_some]
  · have hrounded := h.rounded
    split at hrounded
    · rw [← hvalue]
      exact stageRiskReducingDeltas_value hrounded hasset
    · rw [hrounded]
      exact .inl hvalue

def TowardsZero (value moved : ℚ) : Prop :=
  (0 ≤ value → 0 ≤ moved ∧ moved ≤ value) ∧ (value ≤ 0 → value ≤ moved ∧ moved ≤ 0)

section

variable {value moved next : ℚ}

theorem TowardsZero.trans (h : TowardsZero value moved) (h' : TowardsZero moved next) :
    TowardsZero value next := by
  constructor
  · intro hvalue
    obtain ⟨hlow, hhigh⟩ := h.1 hvalue
    obtain ⟨hlow', hhigh'⟩ := h'.1 hlow
    exact ⟨hlow', hhigh'.trans hhigh⟩
  · intro hvalue
    obtain ⟨hlow, hhigh⟩ := h.2 hvalue
    obtain ⟨hlow', hhigh'⟩ := h'.2 hhigh
    exact ⟨hlow.trans hlow', hhigh'⟩

theorem TowardsZero.abs_le (h : TowardsZero value moved) : |moved| ≤ |value| := by
  rcases le_total 0 value with hvalue | hvalue
  · obtain ⟨hlow, hhigh⟩ := h.1 hvalue
    rwa [abs_of_nonneg hlow, abs_of_nonneg hvalue]
  · obtain ⟨hlow, hhigh⟩ := h.2 hvalue
    rw [abs_of_nonpos hhigh, abs_of_nonpos hvalue]
    linarith

theorem towardsZero_mul {scale : ℚ} (hlow : 0 ≤ scale) (hhigh : scale ≤ 1) (value : ℚ) :
    TowardsZero value (value * scale) := by
  constructor
  · intro h
    exact ⟨mul_nonneg h hlow, mul_le_of_le_one_right h hhigh⟩
  · intro h
    refine ⟨?_, mul_nonpos_of_nonpos_of_nonneg h hlow⟩
    nlinarith

theorem towardsZero_clamp {cap : ℚ} (hcap : 0 ≤ cap) (value : ℚ) :
    TowardsZero value (max (-cap) (min value cap)) := by
  constructor
  · intro h
    rw [max_eq_right (le_min (by linarith) (by linarith))]
    exact ⟨le_min h hcap, min_le_left _ _⟩
  · intro h
    rw [min_eq_left (h.trans hcap)]
    exact ⟨le_max_right _ _, max_le (by linarith) h⟩

end

section

variable {input : PortfolioProjectionInput ℚ}

theorem grossScale_bounds (h : ValidInput input) :
    0 ≤ grossScale input ∧ grossScale input ≤ 1 := by
  have hcap := h.grossCap
  unfold grossScale
  dsimp only
  split
  · exact ⟨zero_le_one, le_rfl⟩
  · rename_i hlarger
    rw [not_le] at hlarger
    exact ⟨(div_pos hcap (hcap.trans hlarger)).le, (div_le_one (hcap.trans hlarger)).mpr hlarger.le⟩

theorem longTotal_nonneg : 0 ≤ longTotal input := Finset.sum_nonneg fun _ _ => le_max_right _ _

theorem shortTotal_nonneg : 0 ≤ shortTotal input := Finset.sum_nonneg fun _ _ => le_max_right _ _

theorem netScale_bounds {cap larger smaller : ℚ} (hcap : 0 ≤ cap) (hsmaller : 0 ≤ smaller) :
    0 ≤ netScale cap larger smaller ∧ netScale cap larger smaller ≤ 1 := by
  unfold netScale
  split
  · rename_i hnet
    have hlarger : 0 < larger := by linarith
    exact ⟨div_nonneg (by linarith) hlarger.le, (div_le_one hlarger).mpr (by linarith)⟩
  · exact ⟨zero_le_one, le_rfl⟩

theorem mul_netScale {cap larger smaller : ℚ} (hcap : 0 ≤ cap) (hsmaller : 0 ≤ smaller) :
    larger * netScale cap larger smaller = min larger (smaller + cap) := by
  unfold netScale
  split
  · rename_i hnet
    have hlarger : larger ≠ 0 := by
      intro hzero
      linarith
    rw [mul_div_cancel₀ _ hlarger, min_eq_right (by linarith)]
  · rename_i hnet
    rw [mul_one, min_eq_left (by linarith)]

theorem abs_clampedTarget_le (h : ValidInput input) (asset : String) :
    |clampedTarget input asset| ≤ (portfolioCaps input).asset := by
  rw [abs_le]
  unfold clampedTarget
  have hcap := h.assetCap
  exact ⟨le_max_left _ _, max_le (by linarith) (min_le_right _ _)⟩

theorem towardsZero_grossTarget (h : ValidInput input) (asset : String) :
    TowardsZero (clampedTarget input asset) (grossTarget input asset) := by
  obtain ⟨hlow, hhigh⟩ := grossScale_bounds h
  exact towardsZero_mul hlow hhigh _

theorem towardsZero_constrainedTarget (h : ValidInput input) (asset : String) :
    TowardsZero (grossTarget input asset) (constrainedTarget input asset) := by
  unfold constrainedTarget
  split
  · obtain ⟨hlow, hhigh⟩ := @netScale_bounds _ (longTotal input) _ h.netCap
      (@shortTotal_nonneg input)
    exact towardsZero_mul hlow hhigh _
  · obtain ⟨hlow, hhigh⟩ := @netScale_bounds _ (shortTotal input) _ h.netCap
      (@longTotal_nonneg input)
    exact towardsZero_mul hlow hhigh _

theorem sum_abs_grossTarget_le (h : ValidInput input) :
    ∑ asset ∈ assetsOf input, |grossTarget input asset| ≤ (portfolioCaps input).gross := by
  have hcap := h.grossCap
  have hscaled : ∑ asset ∈ assetsOf input, |grossTarget input asset| =
      (∑ asset ∈ assetsOf input, |clampedTarget input asset|) * grossScale input := by
    rw [Finset.sum_mul]
    refine Finset.sum_congr rfl fun asset _ => ?_
    unfold grossTarget
    rw [abs_mul, abs_of_nonneg (grossScale_bounds h).1]
  rw [hscaled]
  unfold grossScale
  dsimp only
  split
  · rename_i hfits
    rwa [mul_one]
  · rename_i hlarger
    rw [not_le] at hlarger
    rw [mul_div_cancel₀ _ (hcap.trans hlarger).ne']

theorem constrainedTarget_eq_sub (asset : String) :
    constrainedTarget input asset =
      max (grossTarget input asset) 0 *
          netScale (portfolioCaps input).net (longTotal input) (shortTotal input) -
        max (-grossTarget input asset) 0 *
          netScale (portfolioCaps input).net (shortTotal input) (longTotal input) := by
  unfold constrainedTarget
  split
  · rename_i hlong
    rw [max_eq_left hlong.le, max_eq_right (by linarith), zero_mul, sub_zero]
  · rename_i hshort
    rw [not_lt] at hshort
    rw [max_eq_right hshort, max_eq_left (by linarith), zero_mul, zero_sub, neg_mul, neg_neg]

theorem abs_sum_constrainedTarget_le (h : ValidInput input) :
    |∑ asset ∈ assetsOf input, constrainedTarget input asset| ≤ (portfolioCaps input).net := by
  have hcap := h.netCap
  have hlong := @longTotal_nonneg input
  have hshort := @shortTotal_nonneg input
  have hsum : ∑ asset ∈ assetsOf input, constrainedTarget input asset =
      min (longTotal input) (shortTotal input + (portfolioCaps input).net) -
        min (shortTotal input) (longTotal input + (portfolioCaps input).net) := by
    rw [← mul_netScale hcap hshort, ← mul_netScale hcap hlong, longTotal, shortTotal,
      Finset.sum_mul, Finset.sum_mul, ← Finset.sum_sub_distrib]
    exact Finset.sum_congr rfl fun asset _ => constrainedTarget_eq_sub asset
  rw [hsum, abs_le]
  rcases min_cases (longTotal input) (shortTotal input + (portfolioCaps input).net) with
    ⟨hleft, _⟩ | ⟨hleft, _⟩
  · rcases min_cases (shortTotal input) (longTotal input + (portfolioCaps input).net) with
      ⟨hright, _⟩ | ⟨hright, _⟩
    · rw [hleft, hright]
      constructor <;> linarith
    · rw [hleft, hright]
      constructor <;> linarith
  · rcases min_cases (shortTotal input) (longTotal input + (portfolioCaps input).net) with
      ⟨hright, _⟩ | ⟨hright, _⟩
    · rw [hleft, hright]
      constructor <;> linarith
    · rw [hleft, hright]
      constructor <;> linarith

structure TargetsBounded (input : PortfolioProjectionInput ℚ)
    (constrained : ExtTreeMap String ℚ) : Prop where
  keys : ∀ asset, asset ∉ portfolioAssets input → constrained[asset]? = none
  target : ∀ asset ∈ portfolioAssets input, ∃ target, constrained[asset]? = some target ∧
    TowardsZero (valueAt input.unconstrainedTargets asset) target ∧
    |target| ≤ (portfolioCaps input).asset
  gross : (constrained.values.map fun target => |target|).sum ≤ (portfolioCaps input).gross
  net : |constrained.values.sum| ≤ (portfolioCaps input).net

theorem targetsBounded_of_tabulates {constrained : ExtTreeMap String ℚ} (h : ValidInput input)
    (htable : Tabulates input (constrainedTarget input) constrained) :
    TargetsBounded input constrained where
  keys asset hout := by
    rw [htable, if_neg hout]
  target asset hasset := by
    refine ⟨constrainedTarget input asset, ?_, ?_, ?_⟩
    · rw [htable, if_pos hasset]
    · have hclamped : TowardsZero (valueAt input.unconstrainedTargets asset)
          (clampedTarget input asset) := towardsZero_clamp h.assetCap _
      exact (hclamped.trans (towardsZero_grossTarget h asset)).trans
        (towardsZero_constrainedTarget h asset)
    · calc |constrainedTarget input asset|
          ≤ |grossTarget input asset| := (towardsZero_constrainedTarget h asset).abs_le
        _ ≤ |clampedTarget input asset| := (towardsZero_grossTarget h asset).abs_le
        _ ≤ (portfolioCaps input).asset := abs_clampedTarget_le h asset
  gross := by
    rw [htable.sum_values]
    calc ∑ asset ∈ assetsOf input, |constrainedTarget input asset|
        ≤ ∑ asset ∈ assetsOf input, |grossTarget input asset| :=
          Finset.sum_le_sum fun asset _ => (towardsZero_constrainedTarget h asset).abs_le
      _ ≤ (portfolioCaps input).gross := sum_abs_grossTarget_le h
  net := by
    have hsum := htable.sum_values fun target => target
    rw [List.map_id'] at hsum
    rw [hsum]
    exact abs_sum_constrainedTarget_le h

end

/-- The mark, rounded against the order as the code does it. -/
def roundedPrice (delta : ℚ) (rules : MarketRules ℚ) : Except (RiskViolation ℚ) ℚ :=
  if Decimal.lt Decimal.zero delta then roundUpToStep rules.markPrice rules.priceTick
  else roundDownToStep rules.markPrice rules.priceTick

/-- A delta is rounded towards zero, by less than one lot at the rounded price. -/
structure RoundedWithinLot (rules : MarketRules ℚ) (proposed rounded : ℚ) : Prop where
  towardsZero : TowardsZero proposed rounded
  lot : proposed ≠ 0 → ∃ price, roundedPrice proposed rules = .ok price ∧ 0 < price ∧
    |proposed - rounded| < rules.sizeStep * price

section

variable {rules : MarketRules ℚ} {delta : ℚ}

theorem roundedPrice_eq (htick : 0 < rules.priceTick) :
    roundedPrice delta rules = .ok (outwardMark rules (decide (0 < delta))) := by
  unfold roundedPrice outwardMark
  simp only [lt_iff_lt, zero_eq, decide_eq_true_eq]
  split
  · exact roundUpToStep_eq htick.ne'
  · exact roundDownToStep_eq htick.ne'

theorem roundDelta_below_tick (htick : 0 < rules.priceTick) (hmark : 0 < rules.markPrice)
    (hsell : delta < 0) (hbelow : rules.markPrice < rules.priceTick) :
    roundDelta delta rules = .error (.arithmeticOverflow "unrounded quantity") := by
  have hprice : roundDownToStep rules.markPrice rules.priceTick = .ok 0 := by
    have hfloor : ⌊rules.markPrice / rules.priceTick⌋ = 0 := by
      rw [Int.floor_eq_zero_iff]
      exact ⟨(div_pos hmark htick).le, (div_lt_one htick).mpr hbelow⟩
    rw [roundDownToStep_eq htick.ne', hfloor, Int.cast_zero, zero_mul]
  unfold roundDelta
  rw [if_neg (mt (isZero_iff_eq_zero _).mp hsell.ne)]
  simp only [lt_iff_lt, zero_eq, if_neg hsell.le.not_gt]
  rw [hprice, ok_bind]
  rfl

theorem wholeLots_within {price step notional : ℚ} (hprice : 0 < price) (hstep : 0 < step) :
    notional - wholeLots price step notional < step * price := by
  have hfloor := Int.lt_floor_add_one (notional / price / step)
  have hlot : 0 < step * price := mul_pos hstep hprice
  have hsame : notional = notional / price / step * (step * price) := by
    rw [← mul_assoc, div_mul_cancel₀ _ hstep.ne', div_mul_cancel₀ _ hprice.ne']
  unfold wholeLots
  rw [mul_assoc]
  nlinarith

theorem roundedWithinLot_lotsOf (htick : 0 < rules.priceTick) (hstep : 0 < rules.sizeStep)
    (hmark : 0 < rules.markPrice) (hsell : delta < 0 → rules.priceTick ≤ rules.markPrice) :
    RoundedWithinLot rules delta (lotsOf rules delta) where
  towardsZero := lotsOf_between htick hstep hmark delta hsell
  lot hne := by
    refine ⟨_, roundedPrice_eq htick, ?_⟩
    rcases lt_or_gt_of_ne hne with hnegative | hpositive
    · have hprice := outwardMark_pos htick hmark false fun _ => hsell hnegative
      have hlots := (lotsOf_between htick hstep hmark delta hsell).2 hnegative.le
      rw [decide_eq_false hnegative.le.not_gt]
      refine ⟨hprice, ?_⟩
      rw [abs_of_nonpos (by linarith)]
      have hwithin := @wholeLots_within _ rules.sizeStep (-delta) hprice hstep
      unfold lotsOf
      rw [if_neg hnegative.le.not_gt]
      linarith
    · have hprice := outwardMark_pos htick hmark true (by simp)
      have hlots := (lotsOf_between htick hstep hmark delta hsell).1 hpositive.le
      rw [decide_eq_true hpositive]
      refine ⟨hprice, ?_⟩
      rw [abs_of_nonneg (by linarith)]
      have hwithin := @wholeLots_within _ rules.sizeStep delta hprice hstep
      unfold lotsOf
      rwa [if_pos hpositive]

theorem roundDelta_cases (htick : 0 < rules.priceTick) (hstep : 0 < rules.sizeStep)
    (hmark : 0 < rules.markPrice) :
    ((delta < 0 → rules.priceTick ≤ rules.markPrice) ∧
        roundDelta delta rules = .ok (lotsOf rules delta)) ∨
      (delta < 0 ∧ rules.markPrice < rules.priceTick ∧
        roundDelta delta rules = .error (.arithmeticOverflow "unrounded quantity")) := by
  by_cases hsell : delta < 0 → rules.priceTick ≤ rules.markPrice
  · exact .inl ⟨hsell, roundDelta_eq htick hstep hmark hsell⟩
  · rw [Classical.not_imp, not_le] at hsell
    exact .inr ⟨hsell.1, hsell.2, roundDelta_below_tick htick hmark hsell.1 hsell.2⟩

end

section

variable {input : PortfolioProjectionInput ℚ}

/-- The delta that leads to the constrained target of an asset, once all open orders are filled. -/
def askedDelta (input : PortfolioProjectionInput ℚ) (openByAsset : ExtTreeMap String (ℚ × ℚ))
    (constrained : ExtTreeMap String ℚ) (asset : String) : ℚ :=
  valueAt constrained asset - valueAt input.filledPositions asset -
    ((openAt openByAsset asset).1 - (openAt openByAsset asset).2)

/-- The delta of an asset is rounded to within a lot, or refused because the asset is sold and its
mark is below its tick. -/
def DeltaRounded (input : PortfolioProjectionInput ℚ) (openByAsset : ExtTreeMap String (ℚ × ℚ))
    (constrained : ExtTreeMap String ℚ) (asset : String) (rules : MarketRules ℚ) : Prop :=
  (∃ rounded, assetDelta input openByAsset constrained asset =
      .ok (askedDelta input openByAsset constrained asset, rounded) ∧
    RoundedWithinLot rules (askedDelta input openByAsset constrained asset) rounded) ∨
  (askedDelta input openByAsset constrained asset < 0 ∧ rules.markPrice < rules.priceTick ∧
    assetDelta input openByAsset constrained asset =
      .error (.arithmeticOverflow "unrounded quantity"))

theorem deltaRounded (h : ValidInput input) (openByAsset : ExtTreeMap String (ℚ × ℚ))
    (constrained : ExtTreeMap String ℚ) {asset : String} (hasset : asset ∈ portfolioAssets input) :
    ∃ rules, input.marketRules[asset]? = some rules ∧
      DeltaRounded input openByAsset constrained asset rules := by
  obtain ⟨rules, hget, hmark, htick, hstep⟩ := h.rules asset (mem_assetsOf.mpr hasset)
  have hdelta : assetDelta input openByAsset constrained asset =
      (do
        let rounded ← roundDelta (askedDelta input openByAsset constrained asset) rules
        pure (askedDelta input openByAsset constrained asset, rounded)) := by
    unfold assetDelta askedDelta openAt
    simp only [checkedSub_eq_ok, ok_bind, zero_eq]
    rw [hget]
  refine ⟨rules, hget, ?_⟩
  unfold DeltaRounded
  rw [hdelta]
  rcases @roundDelta_cases rules (askedDelta input openByAsset constrained asset) htick hstep hmark
    with ⟨hsell, hrounded⟩ | ⟨hsell, hbelow, hrefused⟩
  · rw [hrounded]
    exact .inl ⟨_, rfl, roundedWithinLot_lotsOf htick hstep hmark hsell⟩
  · rw [hrefused]
    exact .inr ⟨hsell, hbelow, rfl⟩

/-- What a projection that is returned says about an asset: its proposed delta was rounded to within a
lot, and the rounded delta is returned unless staging has withheld it. -/
def ReturnedDelta (input : PortfolioProjectionInput ℚ) (projection : PortfolioProjection ℚ)
    (asset : String) : Prop :=
  ∃ rules rounded, input.marketRules[asset]? = some rules ∧
    RoundedWithinLot rules (valueAt projection.proposedDeltas asset) rounded ∧
    (valueAt projection.roundedDeltas asset = rounded ∨
      valueAt projection.roundedDeltas asset = (0 : ℚ))

theorem returnedDelta {projection : PortfolioProjection ℚ}
    (h : projectAndValidatePortfolio input = .ok projection) {asset : String}
    (hasset : asset ∈ portfolioAssets input) : ReturnedDelta input projection asset := by
  obtain ⟨openByAsset, initial, ranges, metrics, hparts⟩ := projectAndValidatePortfolio_parts h
  obtain ⟨delta, rounded, hdelta, hproposed, -, hreturned⟩ := hparts.roundedDelta_eq_or hasset
  obtain ⟨rules, hget, hrounded⟩ := deltaRounded (validInput_of_validateInput hparts.valid)
    openByAsset projection.constrainedTargets hasset
  rcases hrounded with ⟨rounded', hok, hlot⟩ | ⟨-, -, hrefused⟩
  · rw [hdelta] at hok
    cases hok
    exact ⟨rules, rounded, hget, hproposed ▸ hlot, hreturned⟩
  · rw [hdelta] at hrefused
    cases hrefused

/-- **Targets and rounding.**  For every valid input, in exact arithmetic: each constrained target
lies between zero and its unconstrained target, all caps hold, and each proposed delta is rounded
towards zero by less than one lot.  A returned projection holds these targets and, where staging has
not withheld it, the rounded delta. -/
theorem targets_and_deltas_bounded (input : PortfolioProjectionInput ℚ)
    (h : validateInput input = .ok ()) :
    ∃ scaled constrained,
      scaleTargetsToGrossCap (clampedTargets input (portfolioAssets input)
        (portfolioCaps input).asset) (portfolioCaps input).gross = .ok scaled ∧
      enforceTargetNetCap scaled (portfolioCaps input).net = .ok constrained ∧
      TargetsBounded input constrained ∧
      (∀ openByAsset, ∀ asset ∈ portfolioAssets input, ∃ rules,
        input.marketRules[asset]? = some rules ∧
          DeltaRounded input openByAsset constrained asset rules) ∧
      ∀ projection, projectAndValidatePortfolio input = .ok projection →
        projection.constrainedTargets = constrained ∧
          ∀ asset ∈ portfolioAssets input, ReturnedDelta input projection asset := by
  have hvalid := validInput_of_validateInput h
  obtain ⟨scaled, hscaled, hscaledTable⟩ :=
    scaleTargetsToGrossCap_spec hvalid (clampedTargets_tabulates hvalid)
  obtain ⟨constrained, hconstrained, htable⟩ := enforceTargetNetCap_spec hvalid hscaledTable
  refine ⟨scaled, constrained, hscaled, hconstrained, targetsBounded_of_tabulates hvalid htable, ?_, ?_⟩
  · intro openByAsset asset hasset
    exact deltaRounded hvalid openByAsset constrained hasset
  · intro projection hprojection
    refine ⟨?_, fun asset hasset => returnedDelta hprojection hasset⟩
    obtain ⟨openByAsset, initial, ranges, metrics, hparts⟩ :=
      projectAndValidatePortfolio_parts hprojection
    obtain ⟨scaled', hscaled', hconstrained'⟩ := hparts.targets
    rw [hscaled, Except.ok.injEq] at hscaled'
    rw [← hscaled', hconstrained, Except.ok.injEq] at hconstrained'
    exact hconstrained'.symm

end

theorem targets_and_deltas_bounded_openSell :
    ∃ constrained, TargetsBounded openSellPortfolio constrained ∧
      ∀ projection, projectAndValidatePortfolio openSellPortfolio = .ok projection →
        projection.constrainedTargets = constrained := by
  have hvalid : validateInput openSellPortfolio = .ok () := by decide +kernel
  obtain ⟨scaled, constrained, -, -, hbounded, -, hreturned⟩ :=
    targets_and_deltas_bounded openSellPortfolio hvalid
  exact ⟨constrained, hbounded, fun projection h => (hreturned projection h).1⟩

end CopyTrade.Analysis
