import CopyTrade.Analysis.Risk.ConstrainedTargets

/-!
# The outcome of a projection without open orders

The deltas that a projection returns are the requested ones where the whole transition respects the
caps, and the staged and pruned ones otherwise.  They always pass the final validation, unless the
filled positions breach a cap and staging has kept a delta larger than the position it closes.
-/

namespace CopyTrade.Analysis

open Foundation Model Model.PortfolioRisk
open Model.ExactDecimal
open Std (ExtTreeMap ExtTreeSet)

/-- Every range of the deltas is within the caps on one asset, on the gross and on the net exposure. -/
structure WithinCaps (input : PortfolioProjectionInput ℚ) (delta : String → ℚ) : Prop where
  asset : ∀ asset ∈ assetsOf input,
    max |filledOf input asset| |filledOf input asset + delta asset| ≤ (portfolioCaps input).asset
  gross : ∑ asset ∈ assetsOf input, max |filledOf input asset| |filledOf input asset + delta asset| ≤
    (portfolioCaps input).gross
  net : peak (filledNet input - ∑ asset ∈ sideOf input true delta, |delta asset|)
    (filledNet input + ∑ asset ∈ sideOf input false delta, |delta asset|) ≤ (portfolioCaps input).net

theorem withinCaps_iff {input : PortfolioProjectionInput ℚ} {delta : String → ℚ} :
    WithinCaps input delta ↔
      (∀ asset ∈ assetsOf input, max |filledOf input asset| |filledOf input asset + delta asset| ≤
          (portfolioCaps input).asset) ∧
        ∑ asset ∈ assetsOf input, max |filledOf input asset| |filledOf input asset + delta asset| ≤
          (portfolioCaps input).gross ∧
        peak (filledNet input - ∑ asset ∈ sideOf input true delta, |delta asset|)
          (filledNet input + ∑ asset ∈ sideOf input false delta, |delta asset|) ≤
            (portfolioCaps input).net :=
  ⟨fun h => ⟨h.asset, h.gross, h.net⟩, fun h => ⟨h.1, h.2.1, h.2.2⟩⟩

instance (input : PortfolioProjectionInput ℚ) (delta : String → ℚ) :
    Decidable (WithinCaps input delta) :=
  decidable_of_iff _ withinCaps_iff.symm

def finalDelta (input : PortfolioProjectionInput ℚ) : String → ℚ :=
  if WithinCaps input (requestedDelta input) then requestedDelta input
  else prunedDelta input (stagedDelta input (requestedDelta input))

section

variable {input : PortfolioProjectionInput ℚ} {delta : String → ℚ}
  {deltas : ExtTreeMap String ℚ} {ranges : ExtTreeMap String (ExposureRange ℚ)}
  {metrics : ℚ × ℚ × ℚ}

def HasDeltas (input : PortfolioProjectionInput ℚ) (delta : String → ℚ)
    (deltas : ExtTreeMap String ℚ) : Prop :=
  ∀ asset ∈ assetsOf input, valueAt deltas asset = delta asset

theorem sideOf_congr {other : String → ℚ} (h : ∀ asset ∈ assetsOf input, other asset = delta asset)
    (sells : Bool) : sideOf input sells other = sideOf input sells delta := by
  ext asset
  rw [mem_sideOf, mem_sideOf]
  refine and_congr_right fun hasset => ?_
  rw [h asset hasset]

theorem sum_sideOf_congr {other : String → ℚ}
    (h : ∀ asset ∈ assetsOf input, other asset = delta asset) (sells : Bool) :
    ∑ asset ∈ sideOf input sells other, |other asset| =
      ∑ asset ∈ sideOf input sells delta, |delta asset| := by
  rw [sideOf_congr h]
  refine Finset.sum_congr rfl fun asset hasset => ?_
  rw [h asset (mem_sideOf.mp hasset).1]

theorem HasDeltas.rangeMetrics (h : HasDeltas input delta deltas)
    (hranges : projectedRanges input (portfolioAssets input) ∅ deltas = .ok ranges)
    (hmetrics : PortfolioRisk.rangeMetrics ranges = .ok metrics) :
    metrics.1 = ∑ asset ∈ assetsOf input,
        max |filledOf input asset| |filledOf input asset + delta asset| ∧
      metrics.2.1 = filledNet input - ∑ asset ∈ sideOf input true delta, |delta asset| ∧
      metrics.2.2 = filledNet input + ∑ asset ∈ sideOf input false delta, |delta asset| := by
  obtain ⟨hgross, hlow, hhigh⟩ := rangeMetrics_of_noOpenOrders hranges hmetrics
  rw [sum_sideOf_congr h] at hlow hhigh
  refine ⟨?_, hlow, hhigh⟩
  rw [hgross]
  refine Finset.sum_congr rfl fun asset hasset => ?_
  rw [peak_delta, h asset hasset]

theorem HasDeltas.magnitudeAt (h : HasDeltas input delta deltas)
    (hranges : projectedRanges input (portfolioAssets input) ∅ deltas = .ok ranges)
    {asset : String} (hasset : asset ∈ assetsOf input) :
    PortfolioRisk.magnitudeAt ranges asset =
      max |filledOf input asset| |filledOf input asset + delta asset| := by
  rw [magnitudeAt_eq hranges (mem_assetsOf.mp hasset), h asset hasset]

theorem mem_assetsOf_of_range
    (hranges : projectedRanges input (portfolioAssets input) ∅ deltas = .ok ranges)
    {asset : String} {range : ExposureRange ℚ} (hget : ranges[asset]? = some range) :
    asset ∈ assetsOf input ∧ magnitude range = PortfolioRisk.magnitudeAt ranges asset := by
  refine ⟨?_, ?_⟩
  · rw [projectedRanges_eq_ok hranges] at hget
    split at hget
    · rename_i hmem
      exact mem_assetsOf.mpr hmem
    · cases hget
  · unfold PortfolioRisk.magnitudeAt
    rw [hget, Option.getD_some]

theorem exists_range
    (hranges : projectedRanges input (portfolioAssets input) ∅ deltas = .ok ranges)
    {asset : String} (hasset : asset ∈ assetsOf input) : ∃ range, ranges[asset]? = some range := by
  rw [projectedRanges_eq_ok hranges, if_pos (mem_assetsOf.mp hasset)]
  exact ⟨_, rfl⟩

theorem transitionBreaches_iff (h : HasDeltas input delta deltas)
    (hranges : projectedRanges input (portfolioAssets input) ∅ deltas = .ok ranges)
    (hmetrics : rangeMetrics ranges = .ok metrics) :
    transitionBreaches ranges (portfolioCaps input) metrics = true ↔ ¬ WithinCaps input delta := by
  obtain ⟨hgross, hlow, hhigh⟩ := h.rangeMetrics hranges hmetrics
  unfold transitionBreaches
  rw [← Bool.not_eq_false, Bool.or_eq_false_iff, Bool.or_eq_false_iff, withinCaps_iff,
    worstNet_eq_peak, hgross, hlow, hhigh]
  simp only [← Bool.not_eq_true, lt_iff_lt, not_lt]
  rw [and_assoc]
  refine not_congr (and_congr ?_ Iff.rfl)
  rw [List.any_eq_true, not_exists]
  constructor
  · intro hnone asset hasset
    obtain ⟨range, hget⟩ := exists_range hranges hasset
    have hrange := hnone range
    rw [not_and, lt_iff_lt, not_lt, (mem_assetsOf_of_range hranges hget).2,
      h.magnitudeAt hranges hasset] at hrange
    exact hrange (mem_values_iff.mpr ⟨asset, hget⟩)
  · rintro hall range ⟨hmem, hbreach⟩
    obtain ⟨asset, hget⟩ := mem_values_iff.mp hmem
    obtain ⟨hasset, hmagnitude⟩ := mem_assetsOf_of_range hranges hget
    rw [lt_iff_lt, hmagnitude, h.magnitudeAt hranges hasset] at hbreach
    exact absurd (hall asset hasset) (not_le.mpr hbreach)

end

section

variable {input : PortfolioProjectionInput ℚ}

theorem assetDelta_eq (hvalid : ValidInput input) (hsells : SellsPriced input)
    {constrained : ExtTreeMap String ℚ} (h : Tabulates input (constrainedTarget input) constrained)
    {asset : String} (hasset : asset ∈ assetsOf input) :
    assetDelta input ∅ constrained asset =
      .ok (constrainedTarget input asset - filledOf input asset, requestedDelta input asset) := by
  obtain ⟨rules, hget, hmark, htick, hstep⟩ := hvalid.rules asset hasset
  unfold assetDelta requestedDelta
  rw [ExtTreeMap.getElem?_empty, Option.getD_none]
  dsimp only
  rw [checkedSub_eq_ok, ok_bind, checkedSub_eq_ok, ok_bind, checkedSub_eq_ok, ok_bind, hget,
    h.valueAt hasset, sub_self, sub_zero]
  dsimp only
  rw [show valueAt input.filledPositions asset = filledOf input asset from rfl,
    roundDelta_eq htick hstep hmark fun hsell =>
      hsells asset hasset (sub_neg.mp hsell) rules hget, ok_bind]
  rfl

theorem projectAndValidatePortfolio_of_noOpenOrders (hvalidated : validateInput input = .ok ())
    (hopen : NoOpenOrders input) (hsells : SellsPriced input) :
    ∃ projection ranges metrics,
      Tabulates input (constrainedTarget input) projection.constrainedTargets ∧
        HasDeltas input (finalDelta input) projection.roundedDeltas ∧
        DeltasWithin (portfolioAssets input) projection.roundedDeltas ∧
        projectedRanges input (portfolioAssets input) ∅ projection.roundedDeltas = .ok ranges ∧
        rangeMetrics ranges = .ok metrics ∧
        projectAndValidatePortfolio input = (do
          validateFinalRanges input ranges projection.roundedDeltas (portfolioCaps input) metrics.1
            metrics.2.1 metrics.2.2 ∅
          pure projection) := by
  have hvalid := validInput_of_validateInput hvalidated
  obtain ⟨scaled, hscaled, hscaledTable⟩ :=
    scaleTargetsToGrossCap_spec hvalid (clampedTargets_tabulates hvalid)
  obtain ⟨constrained, hconstrained, htable⟩ := enforceTargetNetCap_spec hvalid hscaledTable
  let proposed := (portfolioAssets input).toList.foldl (fun deltas asset => deltas.insert asset
    (constrainedTarget input asset - filledOf input asset)) (∅ : ExtTreeMap String ℚ)
  let initial := (portfolioAssets input).toList.foldl (fun deltas asset => deltas.insert asset
    (requestedDelta input asset)) (∅ : ExtTreeMap String ℚ)
  have hdeltas := foldlM_insert_eq_ok
    (fun asset => (constrainedTarget input asset - filledOf input asset,
      requestedDelta input asset))
    (fun (deltas : ExtTreeMap String ℚ) asset rounded => deltas.insert asset rounded)
    (fun asset hasset => assetDelta_eq hvalid hsells htable
      (mem_assetsOf.mpr (ExtTreeSet.mem_toList.mp hasset)))
    ((∅ : ExtTreeMap String ℚ), (∅ : ExtTreeMap String ℚ))
  have hinitialTable : Tabulates input (requestedDelta input) initial := by
    intro asset
    rw [getElem?_foldl_insert, ExtTreeMap.getElem?_empty]
    simp only [ExtTreeSet.mem_toList]
  have hinitial : HasDeltas input (requestedDelta input) initial :=
    fun asset hasset => hinitialTable.valueAt hasset
  have hinitialValues : valueAt initial = requestedDelta input := by
    funext asset
    by_cases hasset : asset ∈ assetsOf input
    · exact hinitial asset hasset
    · unfold valueAt
      rw [hinitialTable, if_neg (mt mem_assetsOf.mpr hasset), requestedDelta_of_not_mem hvalid hasset]
      exact zero_eq
  obtain ⟨initialRanges, hinitialRanges⟩ :=
    @exists_projectedRanges input ∅ initial (portfolioAssets input)
  obtain ⟨initialMetrics, hinitialMetrics⟩ := exists_rangeMetrics initialRanges
  have hbreaches := transitionBreaches_iff hinitial hinitialRanges hinitialMetrics
  have hscaled : scaleTargetsToGrossCap (clampedTargets input (portfolioAssets input)
      (input.currentEquity * input.maxSingleAssetEquityPct))
      (input.currentEquity * input.curveLeverage * input.globalRiskScale) = .ok scaled := hscaled
  have hconstrained : enforceTargetNetCap scaled (input.currentEquity * input.maxNetEquityPct) =
      .ok constrained := hconstrained
  have hcaps : (Caps.mk (input.currentEquity * input.maxSingleAssetEquityPct)
      (input.currentEquity * input.curveLeverage * input.globalRiskScale)
      (input.currentEquity * input.maxNetEquityPct)) = portfolioCaps input := rfl
  unfold projectAndValidatePortfolio
  rw [hvalidated, ok_bind, checkedMul_eq_ok, ok_bind, checkedMul_eq_ok, ok_bind, checkedMul_eq_ok,
    ok_bind, checkedMul_eq_ok, ok_bind, activeOpenExposure_of_noOpenOrders hopen, ok_bind]
  rw [hcaps]
  rw [hscaled, ok_bind, hconstrained, ok_bind, hdeltas, ok_bind]
  dsimp only
  rw [hinitialRanges, ok_bind, hinitialMetrics, ok_bind]
  by_cases hwithin : WithinCaps input (requestedDelta input)
  · have hfinal : finalDelta input = requestedDelta input := if_pos hwithin
    rw [if_neg (fun hbreach => hbreaches.mp hbreach hwithin), pure_bind]
    refine ⟨{
      constrainedTargets := constrained
      proposedDeltas := proposed
      roundedDeltas := initial
      projectedRanges := initialRanges
      maximumProjectedGross := initialMetrics.1
      minimumProjectedNet := initialMetrics.2.1
      maximumProjectedNet := initialMetrics.2.2 }, initialRanges, initialMetrics, htable,
      ?_, ?_, hinitialRanges, hinitialMetrics, rfl⟩
    · rw [hfinal]
      exact hinitial
    · intro asset hout
      rw [hinitialTable, if_neg hout]
  · have hfinal : finalDelta input = prunedDelta input (stagedDelta input (requestedDelta input)) :=
      if_neg hwithin
    obtain ⟨staged, hstage, hstaged⟩ := @stageRiskReducingDeltas_eq input initial
    obtain ⟨ranges, hranges⟩ := @exists_projectedRanges input ∅ staged (portfolioAssets input)
    obtain ⟨metrics, hmetrics⟩ := exists_rangeMetrics ranges
    rw [if_pos (hbreaches.mpr hwithin), hstage, ok_bind, hranges, ok_bind, hmetrics, ok_bind,
      pure_bind]
    refine ⟨{
      constrainedTargets := constrained
      proposedDeltas := proposed
      roundedDeltas := staged
      projectedRanges := ranges
      maximumProjectedGross := metrics.1
      minimumProjectedNet := metrics.2.1
      maximumProjectedNet := metrics.2.2 }, ranges, metrics, htable, ?_,
      stageRiskReducingDeltas_within hstage, hranges, hmetrics, rfl⟩
    rw [hfinal, ← hinitialValues]
    exact hstaged

end

section

variable {input : PortfolioProjectionInput ℚ} {delta : String → ℚ} {asset : String}

theorem prunedDelta_eq_or : prunedDelta input delta asset = delta asset ∨
    prunedDelta input delta asset = 0 := by
  unfold prunedDelta
  split
  · exact .inl rfl
  · exact .inr rfl

theorem mem_keptOn {sells : Bool} : asset ∈ keptOn input sells delta ↔
    (asset ∈ assetsOf input ∧ OnSide sells (delta asset)) ∧
      fromOn (fun asset => |delta asset|) (sideOf input sells delta) asset ≤ roomFor input sells := by
  unfold keptOn survivors
  rw [Finset.mem_filter, mem_sideOf]

theorem sideOf_prunedDelta (sells : Bool) :
    sideOf input sells (prunedDelta input delta) = keptOn input sells delta := by
  ext asset
  rw [mem_sideOf]
  unfold prunedDelta
  constructor
  · rintro ⟨-, hside⟩
    split at hside
    · rename_i hkept
      rcases hkept with hkept | hkept
      · exact hside.unique (mem_keptOn.mp hkept).1.2 ▸ hkept
      · exact hside.unique (mem_keptOn.mp hkept).1.2 ▸ hkept
    · exact absurd rfl hside.ne_zero
  · intro hkept
    have hfits : asset ∈ keptOn input true delta ∨ asset ∈ keptOn input false delta := by
      cases sells with
      | true => exact .inl hkept
      | false => exact .inr hkept
    rw [if_pos hfits]
    exact (mem_keptOn.mp hkept).1

theorem sum_prunedDelta_le (sells : Bool) :
    ∑ asset ∈ sideOf input sells (prunedDelta input delta), |prunedDelta input delta asset| ≤
      roomFor input sells := by
  have hvalue : ∑ asset ∈ sideOf input sells (prunedDelta input delta),
      |prunedDelta input delta asset| = ∑ asset ∈ keptOn input sells delta, |delta asset| := by
    rw [sideOf_prunedDelta]
    refine Finset.sum_congr rfl fun asset hasset => ?_
    rcases @prunedDelta_eq_or input delta asset with hsame | hzero
    · rw [hsame]
    · rw [← sideOf_prunedDelta, mem_sideOf, hzero] at hasset
      exact absurd rfl hasset.2.ne_zero
  rw [hvalue]
  exact sum_survivors_le (fun _ _ => abs_nonneg _) (room_nonneg _)

theorem peak_prunedDelta_le :
    peak (filledNet input - ∑ asset ∈ sideOf input true (prunedDelta input delta),
        |prunedDelta input delta asset|)
      (filledNet input + ∑ asset ∈ sideOf input false (prunedDelta input delta),
        |prunedDelta input delta asset|) ≤ |filledNet input| :=
  (peak_le_abs_iff (sum_abs_nonneg _) (sum_abs_nonneg _)).mpr
    ⟨sum_prunedDelta_le true, sum_prunedDelta_le false⟩

theorem abs_add_stagedDelta_le :
    |filledOf input asset + stagedDelta input delta asset| ≤ |filledOf input asset| := by
  unfold stagedDelta
  split
  · assumption
  · rw [add_zero]

theorem abs_add_prunedDelta_le :
    |filledOf input asset + prunedDelta input (stagedDelta input delta) asset| ≤
      |filledOf input asset| := by
  rcases @prunedDelta_eq_or input (stagedDelta input delta) asset with hsame | hzero
  · rw [hsame]
    exact abs_add_stagedDelta_le
  · rw [hzero, add_zero]

end

variable {input : PortfolioProjectionInput ℚ} {delta : String → ℚ}
  {deltas : ExtTreeMap String ℚ} {ranges : ExtTreeMap String (ExposureRange ℚ)}
  {metrics : ℚ × ℚ × ℚ}

theorem total_filled {f : ℚ → ℚ} (hf : f 0 = 0) :
    total (fun _ filled => f filled) input.filledPositions =
      ∑ asset ∈ assetsOf input, f (filledOf input asset) := by
  rw [total_eq_sum_getD hf fun asset value hget => mem_assetsOf_of_getElem? (.inl hget)]
  refine Finset.sum_congr rfl fun asset _ => ?_
  unfold filledOf valueAt
  rw [zero_eq]

theorem WithinCaps.filled (h : WithinCaps input delta) : FilledWithinCaps input where
  asset asset filled hget := by
    have hasset := h.asset asset (mem_assetsOf_of_getElem? (.inl hget))
    have hfilled : filledOf input asset = filled := by
      unfold filledOf valueAt
      rw [hget, Option.getD_some]
    rw [hfilled] at hasset
    exact (le_max_left _ _).trans hasset
  gross := by
    rw [total_filled abs_zero]
    exact (Finset.sum_le_sum fun asset _ => le_max_left _ _).trans h.gross
  net := by
    rw [total_filled rfl]
    refine (abs_le_peak ?_ ?_).trans h.net
    · exact sub_le_self _ (sum_abs_nonneg _)
    · exact le_add_of_nonneg_right (sum_abs_nonneg _)

theorem FilledWithinCaps.withinCaps (h : FilledWithinCaps input) (hvalid : ValidInput input)
    (hreduces : ∀ asset ∈ assetsOf input,
      |filledOf input asset + delta asset| ≤ |filledOf input asset|)
    (hnet : peak (filledNet input - ∑ asset ∈ sideOf input true delta, |delta asset|)
      (filledNet input + ∑ asset ∈ sideOf input false delta, |delta asset|) ≤ |filledNet input|) :
    WithinCaps input delta where
  asset asset hasset := by
    rw [max_eq_left (hreduces asset hasset)]
    unfold filledOf valueAt
    cases hget : input.filledPositions[asset]? with
    | none =>
      rw [Option.getD_none, zero_eq, abs_zero]
      exact hvalid.assetCap
    | some filled => exact h.asset asset filled hget
  gross := by
    rw [Finset.sum_congr rfl fun asset hasset => max_eq_left (hreduces asset hasset),
      ← total_filled abs_zero]
    exact h.gross
  net := by
    refine hnet.trans ?_
    have hfilled := h.net
    rwa [total_filled (f := fun filled => filled) rfl] at hfilled

theorem validateFinalRanges_of_withinCaps (hwithin : WithinCaps input delta)
    (h : HasDeltas input delta deltas)
    (hranges : projectedRanges input (portfolioAssets input) ∅ deltas = .ok ranges)
    (hmetrics : rangeMetrics ranges = .ok metrics) :
    validateFinalRanges input ranges deltas (portfolioCaps input) metrics.1 metrics.2.1 metrics.2.2
      ∅ = .ok () := by
  obtain ⟨hgross, hlow, hhigh⟩ := h.rangeMetrics hranges hmetrics
  obtain ⟨⟨filledGross, filledMinimum, filledMaximum⟩, hfilledMetrics⟩ := exists_rangeMetrics
    (input.filledPositions.map fun _ filled => ExposureRange.mk filled filled)
  obtain ⟨rfl, rfl, rfl⟩ := rangeMetrics_filled hfilledMetrics
  have hchecked := (filledViolation_eq_false_iff input).mpr hwithin.filled
  unfold validateFinalRanges
  dsimp only
  rw [hfilledMetrics, ok_bind]
  rw [hchecked, if_pos Bool.not_false]
  have hnone : (ranges.toList.find? fun entry =>
      Decimal.lt (portfolioCaps input).asset (magnitude entry.2)) = none := by
    rw [List.find?_eq_none]
    rintro ⟨asset, range⟩ hentry
    obtain ⟨hasset, hmagnitude⟩ := mem_assetsOf_of_range hranges
      (ExtTreeMap.mem_toList_iff_getElem?_eq_some.mp hentry)
    rw [lt_iff_lt, not_lt, hmagnitude, h.magnitudeAt hranges hasset]
    exact hwithin.asset asset hasset
  rw [hnone]
  rw [if_neg, if_neg]
  · rfl
  · rw [lt_iff_lt, not_lt, worstNet_eq_peak, hlow, hhigh]
    exact hwithin.net
  · rw [lt_iff_lt, not_lt, hgross]
    exact hwithin.gross

theorem signum_eq_iff {q r : ℚ} (hq : q ≠ 0) (hr : r ≠ 0) :
    Decimal.signum q = Decimal.signum r ↔ (0 < q ↔ 0 < r) := by
  unfold Decimal.signum
  rw [toRat_eq, toRat_eq, if_neg hq, if_neg hr]
  rcases lt_or_gt_of_ne hq with hqneg | hqpos
  · rcases lt_or_gt_of_ne hr with hrneg | hrpos
    · simp [hqneg, hrneg, hqneg.le.not_gt, hrneg.le.not_gt]
    · simp [hqneg, hrpos, hqneg.le.not_gt, hrpos.le.not_gt]
  · rcases lt_or_gt_of_ne hr with hrneg | hrpos
    · simp [hqpos, hrneg, hqpos.le.not_gt, hrneg.le.not_gt]
    · simp [hqpos, hrpos, hqpos.le.not_gt, hrpos.le.not_gt]

theorem opposite_of_abs_add_le {filled value : ℚ} (hvalue : value ≠ 0)
    (h : |filled + value| ≤ |filled|) : filled ≠ 0 ∧ ¬ (0 < value ↔ 0 < filled) := by
  have hfilled : filled ≠ 0 := by
    rintro rfl
    rw [zero_add, abs_zero] at h
    exact hvalue (abs_nonpos_iff.mp h)
  refine ⟨hfilled, fun hsame => ?_⟩
  rcases lt_or_gt_of_ne hfilled with hneg | hpos
  · have hvalueNeg : value < 0 :=
      lt_of_le_of_ne (not_lt.mp fun hpos => hneg.le.not_gt (hsame.mp hpos)) hvalue
    rw [abs_of_neg hneg, abs_of_neg (add_neg hneg hvalueNeg)] at h
    linarith
  · have hvaluePos := hsame.mpr hpos
    rw [abs_of_pos hpos, abs_of_pos (add_pos hpos hvaluePos)] at h
    linarith

theorem increasesExistingRisk_iff {baseline : ExtTreeMap String (ExposureRange ℚ)}
    (h : HasDeltas input delta deltas)
    (hranges : projectedRanges input (portfolioAssets input) ∅ deltas = .ok ranges)
    (hbaseline : projectedRanges input (portfolioAssets input) ∅ ∅ = .ok baseline)
    {asset : String} (hasset : asset ∈ assetsOf input)
    (hreduces : |filledOf input asset + delta asset| ≤ |filledOf input asset|) :
    increasesExistingRisk input ranges baseline (asset, delta asset) = true ↔
      |filledOf input asset| < |delta asset| := by
  have hmagnitudes : ¬ magnitudeAt baseline asset < magnitudeAt ranges asset := by
    have hempty : HasDeltas input (fun _ => 0) ∅ := fun asset _ => valueAt_empty asset
    rw [h.magnitudeAt hranges hasset, hempty.magnitudeAt hbaseline hasset, add_zero, max_self,
      max_eq_left hreduces]
    exact lt_irrefl _
  unfold increasesExistingRisk
  simp only [Bool.and_eq_true, Bool.or_eq_true, Bool.not_eq_true', isZero_eq_false_iff_ne,
    isZero_iff_eq_zero, lt_iff_lt, beq_iff_eq, hmagnitudes, or_false, ExactDecimal.abs_eq]
  rw [show valueAt input.filledPositions asset = filledOf input asset from rfl]
  by_cases hzero : delta asset = 0
  · rw [hzero, abs_zero]
    exact iff_of_false (fun hrefused => hrefused.1 rfl) (not_lt.mpr (abs_nonneg _))
  · obtain ⟨hfilled, hopposite⟩ := opposite_of_abs_add_le hzero hreduces
    rw [signum_eq_iff hzero hfilled]
    simp only [hfilled, hopposite, false_or]
    exact and_iff_right hzero

/-- From filled positions that breach a cap, deltas that leave no position larger and the net exposure
no worse pass unless one of them is larger than its position. -/
theorem validateFinalRanges_of_breach (hbreach : ¬ FilledWithinCaps input)
    (h : HasDeltas input delta deltas) (hdeltas : DeltasWithin (portfolioAssets input) deltas)
    (hreduces : ∀ asset ∈ assetsOf input,
      |filledOf input asset + delta asset| ≤ |filledOf input asset|)
    (hnet : peak (filledNet input - ∑ asset ∈ sideOf input true delta, |delta asset|)
      (filledNet input + ∑ asset ∈ sideOf input false delta, |delta asset|) ≤ |filledNet input|)
    (hranges : projectedRanges input (portfolioAssets input) ∅ deltas = .ok ranges)
    (hmetrics : rangeMetrics ranges = .ok metrics) :
    validateFinalRanges input ranges deltas (portfolioCaps input) metrics.1 metrics.2.1 metrics.2.2
        ∅ = .ok () ↔
      ∀ asset ∈ assetsOf input, ¬ |filledOf input asset| < |delta asset| := by
  obtain ⟨hgross, hlow, hhigh⟩ := h.rangeMetrics hranges hmetrics
  obtain ⟨⟨filledGross, filledMinimum, filledMaximum⟩, hfilledMetrics⟩ := exists_rangeMetrics
    (input.filledPositions.map fun _ filled => ExposureRange.mk filled filled)
  obtain ⟨rfl, rfl, rfl⟩ := rangeMetrics_filled hfilledMetrics
  obtain ⟨baseline, hbaseline⟩ := @exists_projectedRanges input ∅ ∅ (portfolioAssets input)
  obtain ⟨⟨baselineGross, baselineMinimum, baselineMaximum⟩, hbaselineMetrics⟩ :=
    exists_rangeMetrics baseline
  have hempty : HasDeltas input (fun _ => 0) ∅ := fun asset _ => valueAt_empty asset
  obtain ⟨hbaselineGross, hbaselineLow, hbaselineHigh⟩ :=
    hempty.rangeMetrics hbaseline hbaselineMetrics
  dsimp only at hbaselineGross hbaselineLow hbaselineHigh
  have hchecked := mt (filledViolation_eq_false_iff input).mp hbreach
  rw [Bool.not_eq_false] at hchecked
  unfold validateFinalRanges
  dsimp only
  rw [hfilledMetrics, ok_bind]
  rw [hchecked, if_neg (by decide), hbaseline, ok_bind, hbaselineMetrics, ok_bind]
  have hnotWorse : (Decimal.lt baselineGross metrics.1 ||
      Decimal.lt (worstNet baselineMinimum baselineMaximum)
        (worstNet metrics.2.1 metrics.2.2)) = false := by
    rw [Bool.or_eq_false_iff, ← Bool.not_eq_true, ← Bool.not_eq_true, lt_iff_lt, lt_iff_lt, not_lt,
      not_lt]
    refine ⟨?_, ?_⟩
    · rw [hgross, hbaselineGross]
      refine (Finset.sum_congr rfl fun asset hasset => ?_).le
      rw [max_eq_left (hreduces asset hasset), add_zero, max_self]
    · rw [worstNet_eq_peak, worstNet_eq_peak, hlow, hhigh, hbaselineLow, hbaselineHigh]
      refine hnet.trans ?_
      rw [Finset.sum_eq_zero fun asset _ => abs_zero, Finset.sum_eq_zero fun asset _ => abs_zero,
        sub_zero, add_zero, peak, max_self]
  rw [hnotWorse]
  rw [bind_eq_ok_iff]
  simp only [Bool.false_eq_true, if_false, pure_eq_ok_iff, and_true]
  have hrefused {asset : String} (hasset : asset ∈ assetsOf input) :=
    increasesExistingRisk_iff h hranges hbaseline hasset (hreduces asset hasset)
  constructor
  · rintro ⟨_, hpassed⟩ asset hasset hlarger
    rw [checkAll_eq_ok_iff] at hpassed
    have hnonzero : delta asset ≠ 0 := abs_pos.mp ((abs_nonneg _).trans_lt hlarger)
    have hget : deltas[asset]? = some (delta asset) := by
      have hvalue := h asset hasset
      unfold valueAt at hvalue
      cases hget : deltas[asset]? with
      | some value => rw [← hvalue, hget, Option.getD_some]
      | none =>
        rw [hget, Option.getD_none, zero_eq] at hvalue
        exact absurd hvalue.symm hnonzero
    have hentry := hpassed _ (ExtTreeMap.mem_toList_iff_getElem?_eq_some.mpr hget)
    rw [if_pos ((hrefused hasset).mpr hlarger)] at hentry
    cases hentry
  · intro hsmall
    refine ⟨(), (checkAll_eq_ok_iff _ _).mpr ?_⟩
    rintro ⟨asset, value⟩ hentry
    have hget := ExtTreeMap.mem_toList_iff_getElem?_eq_some.mp hentry
    have hasset : asset ∈ assetsOf input := by
      by_contra hout
      rw [hdeltas asset (mt mem_assetsOf.mpr hout)] at hget
      cases hget
    have hvalue : value = delta asset := by
      have hvalue := h asset hasset
      unfold valueAt at hvalue
      rwa [hget, Option.getD_some] at hvalue
    rw [hvalue, if_neg (mt (hrefused hasset).mp (hsmall asset hasset))]

end CopyTrade.Analysis
