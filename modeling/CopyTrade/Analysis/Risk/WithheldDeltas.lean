import CopyTrade.Analysis.Risk.TargetBounds

/-!
# The deltas that staging withholds

With open orders as without, what staging leaves of the requested deltas has a closed form: of the
deltas that leave their asset's worst exposure no larger, those of each side stay that fit, with all
larger ones of the side, into what the worst net exposure spares on that side.
-/

namespace CopyTrade.Analysis

open Foundation Model Model.PortfolioRisk
open Model.ExactDecimal
open Std (ExtTreeMap ExtTreeSet)

section

variable {input : PortfolioProjectionInput ℚ} {assets : ExtTreeSet String}
  {openByAsset : ExtTreeMap String (ℚ × ℚ)} {delta : String → ℚ} {staged : ExtTreeMap String ℚ}

def netLow (input : PortfolioProjectionInput ℚ) (assets : ExtTreeSet String)
    (openByAsset : ExtTreeMap String (ℚ × ℚ)) (deltas : ExtTreeMap String ℚ) : ℚ :=
  (assets.toList.map (rangeLow input openByAsset deltas)).sum

def netHigh (input : PortfolioProjectionInput ℚ) (assets : ExtTreeSet String)
    (openByAsset : ExtTreeMap String (ℚ × ℚ)) (deltas : ExtTreeMap String ℚ) : ℚ :=
  (assets.toList.map (rangeHigh input openByAsset deltas)).sum

/-- What can be sold, or bought, before the worst net exposure gets worse. -/
def spare (input : PortfolioProjectionInput ℚ) (assets : ExtTreeSet String)
    (openByAsset : ExtTreeMap String (ℚ × ℚ)) (sells : Bool) : ℚ :=
  peak (netLow input assets openByAsset ∅) (netHigh input assets openByAsset ∅) +
    if sells then netLow input assets openByAsset ∅ else -netHigh input assets openByAsset ∅

def sideIn (assets : ExtTreeSet String) (sells : Bool) (delta : String → ℚ) : Finset String :=
  assets.toList.toFinset.filter fun asset => OnSide sells (delta asset)

/-- The deltas of a side that fit, with all larger ones, into its room. -/
def fitting (input : PortfolioProjectionInput ℚ) (assets : ExtTreeSet String)
    (openByAsset : ExtTreeMap String (ℚ × ℚ)) (sells : Bool) (delta : String → ℚ) : Finset String :=
  survivors (fun asset => |delta asset|) (spare input assets openByAsset sells)
    (sideIn assets sells delta)

theorem mem_sideIn {sells : Bool} {asset : String} :
    asset ∈ sideIn assets sells delta ↔ asset ∈ assets ∧ OnSide sells (delta asset) := by
  unfold sideIn
  rw [Finset.mem_filter, List.mem_toFinset, ExtTreeSet.mem_toList]

theorem soldBy_eq_sum (assets : ExtTreeSet String) (staged : ExtTreeMap String ℚ) :
    soldBy assets staged = ∑ asset ∈ sideIn assets true (valueAt staged), |valueAt staged asset| := by
  unfold soldBy sideIn
  rw [Finset.sum_filter]
  refine Finset.sum_congr rfl fun asset _ => ?_
  split
  · rename_i hsell
    rw [onSide_true] at hsell
    rw [abs_of_neg hsell, max_eq_left (by linarith)]
  · rename_i hnot
    rw [onSide_true, not_lt] at hnot
    rw [max_eq_right (by linarith)]

theorem boughtBy_eq_sum (assets : ExtTreeSet String) (staged : ExtTreeMap String ℚ) :
    boughtBy assets staged =
      ∑ asset ∈ sideIn assets false (valueAt staged), |valueAt staged asset| := by
  unfold boughtBy sideIn
  rw [Finset.sum_filter]
  refine Finset.sum_congr rfl fun asset _ => ?_
  split
  · rename_i hbuy
    rw [onSide_false] at hbuy
    rw [abs_of_pos hbuy, max_eq_left hbuy.le]
  · rename_i hnot
    rw [onSide_false, not_lt] at hnot
    rw [max_eq_right hnot]

theorem sum_sideIn_le_spare {ranges baseline : ExtTreeMap String (ExposureRange ℚ)}
    {metrics baselineMetrics : ℚ × ℚ × ℚ}
    (hranges : projectedRanges input assets openByAsset staged = .ok ranges)
    (hmetrics : rangeMetrics ranges = .ok metrics)
    (hbaseline : projectedRanges input assets openByAsset ∅ = .ok baseline)
    (hbaselineMetrics : rangeMetrics baseline = .ok baselineMetrics)
    (hexit : worstNet metrics.2.1 metrics.2.2 ≤
      worstNet baselineMetrics.2.1 baselineMetrics.2.2) (sells : Bool) :
    ∑ asset ∈ sideIn assets sells (valueAt staged), |valueAt staged asset| ≤
      spare input assets openByAsset sells := by
  obtain ⟨hlow, hhigh⟩ := netEnds_eq hranges hmetrics hbaseline hbaselineMetrics
  obtain ⟨-, hlow', hhigh'⟩ := rangeMetrics_eq_ok hbaseline hbaselineMetrics
  rw [worstNet_eq_peak, worstNet_eq_peak, hlow', hhigh'] at hexit
  unfold spare netLow netHigh
  unfold peak at hexit ⊢
  obtain ⟨hfirst, hsecond⟩ := max_le_iff.mp hexit
  have hshort := (abs_le.mp hfirst).1
  have hlong := (abs_le.mp hsecond).2
  cases sells with
  | true =>
    rw [← soldBy_eq_sum, if_pos rfl]
    linarith
  | false =>
    rw [← boughtBy_eq_sum, if_neg Bool.false_ne_true]
    linarith

theorem spare_lt_sum_sideIn {ranges baseline : ExtTreeMap String (ExposureRange ℚ)}
    {metrics baselineMetrics : ℚ × ℚ × ℚ}
    (hranges : projectedRanges input assets openByAsset staged = .ok ranges)
    (hmetrics : rangeMetrics ranges = .ok metrics)
    (hbaseline : projectedRanges input assets openByAsset ∅ = .ok baseline)
    (hbaselineMetrics : rangeMetrics baseline = .ok baselineMetrics)
    (hworse : worstNet baselineMetrics.2.1 baselineMetrics.2.2 <
      worstNet metrics.2.1 metrics.2.2) :
    spare input assets openByAsset (offendsBelow metrics) <
      ∑ asset ∈ sideIn assets (offendsBelow metrics) (valueAt staged), |valueAt staged asset| := by
  obtain ⟨hlow, hhigh⟩ := netEnds_eq hranges hmetrics hbaseline hbaselineMetrics
  obtain ⟨-, hlow', hhigh'⟩ := rangeMetrics_eq_ok hbaseline hbaselineMetrics
  have hsells := @soldBy_nonneg assets staged
  have hbuys := @boughtBy_nonneg assets staged
  rw [worstNet_eq_peak, worstNet_eq_peak] at hworse
  have hlowest : |baselineMetrics.2.1| ≤ peak baselineMetrics.2.1 baselineMetrics.2.2 :=
    le_max_left _ _
  have hhighest : |baselineMetrics.2.2| ≤ peak baselineMetrics.2.1 baselineMetrics.2.2 :=
    le_max_right _ _
  have hspare (sells : Bool) : spare input assets openByAsset sells =
      peak baselineMetrics.2.1 baselineMetrics.2.2 +
        if sells then baselineMetrics.2.1 else -baselineMetrics.2.2 := by
    unfold spare netLow netHigh
    rw [hlow', hhigh']
  rw [hspare]
  set worst := peak baselineMetrics.2.1 baselineMetrics.2.2
  cases hside : offendsBelow metrics with
  | true =>
    rw [← soldBy_eq_sum, if_pos rfl]
    unfold offendsBelow at hside
    rw [Bool.and_eq_true, le_iff_le, lt_iff_lt, ExactDecimal.abs_eq, ExactDecimal.abs_eq,
      zero_eq] at hside
    rw [peak, max_eq_left hside.1, abs_of_neg hside.2] at hworse
    linarith
  | false =>
    rw [← boughtBy_eq_sum, if_neg Bool.false_ne_true]
    unfold offendsBelow at hside
    rw [Bool.and_eq_false_iff, ← Bool.not_eq_true, ← Bool.not_eq_true, le_iff_le, lt_iff_lt,
      ExactDecimal.abs_eq, ExactDecimal.abs_eq, zero_eq, not_le, not_lt] at hside
    have hnotShort : -worst ≤ metrics.2.2 := by
      have hbefore := neg_abs_le baselineMetrics.2.2
      linarith
    rcases le_or_gt |metrics.2.2| |metrics.2.1| with hlarger | hsmaller
    · -- The lower end is the larger one and not short, so it has only come closer to zero.
      have hlong : 0 ≤ metrics.2.1 := hside.resolve_left (not_lt.mpr hlarger)
      rw [peak, max_eq_left hlarger, abs_of_nonneg hlong] at hworse
      have hbefore := le_abs_self baselineMetrics.2.1
      linarith
    · rw [peak, max_eq_right hsmaller.le] at hworse
      rcases abs_cases metrics.2.2 with ⟨hsame, -⟩ | ⟨hnegated, -⟩
      · rw [hsame] at hworse
        linarith
      · rw [hnegated] at hworse
        linarith

end

/-- Some deltas have been set to zero, on each side the smallest ones. -/
structure SidesPruned (input : PortfolioProjectionInput ℚ) (assets : ExtTreeSet String)
    (openByAsset : ExtTreeMap String (ℚ × ℚ)) (delta : String → ℚ)
    (staged : ExtTreeMap String ℚ) : Prop where
  value : ∀ asset, valueAt staged asset = delta asset ∨ valueAt staged asset = 0
  within : DeltasWithin assets staged
  sides : ∀ sells, PrunedTo (fun asset => |delta asset|) (spare input assets openByAsset sells)
    (sideIn assets sells delta) (sideIn assets sells (valueAt staged))

section

variable {input : PortfolioProjectionInput ℚ} {assets : ExtTreeSet String}
  {openByAsset : ExtTreeMap String (ℚ × ℚ)} {delta : String → ℚ}
  {staged next : ExtTreeMap String ℚ}

variable {asset : String} {deltas : ExtTreeMap String ℚ}

theorem SidesPruned.value_of_onSide (h : SidesPruned input assets openByAsset delta staged)
    {sells : Bool} (hside : OnSide sells (valueAt staged asset)) :
    valueAt staged asset = delta asset :=
  (h.value asset).resolve_right hside.ne_zero

theorem SidesPruned.sum_side (h : SidesPruned input assets openByAsset delta staged)
    (sells : Bool) :
    ∑ asset ∈ sideIn assets sells (valueAt staged), |valueAt staged asset| =
      ∑ asset ∈ sideIn assets sells (valueAt staged), |delta asset| := by
  refine Finset.sum_congr rfl fun asset hasset => ?_
  rw [h.value_of_onSide (mem_sideIn.mp hasset).2]

theorem sideIn_insert_zero {sells side : Bool} (hside : OnSide sells (valueAt staged asset)) :
    sideIn assets side (valueAt (staged.insert asset 0)) =
      if side = sells then (sideIn assets side (valueAt staged)).erase asset
      else sideIn assets side (valueAt staged) := by
  ext other
  rw [mem_sideIn, valueAt_insert]
  by_cases hother : asset = other
  · subst hother
    rw [if_pos rfl]
    refine iff_of_false (fun hzero => hzero.2.ne_zero rfl) ?_
    split
    · exact Finset.notMem_erase _ _
    · rename_i hdifferent
      intro hmem
      exact hdifferent ((mem_sideIn.mp hmem).2.unique hside)
  · rw [if_neg hother]
    split
    · rw [Finset.mem_erase, mem_sideIn]
      exact ⟨fun hon => ⟨Ne.symm hother, hon⟩, fun hon => hon.2⟩
    · rw [mem_sideIn]

theorem SidesPruned.remove (h : SidesPruned input assets openByAsset delta staged) {sells : Bool}
    (hmem : asset ∈ assets) (hside : OnSide sells (valueAt staged asset))
    (hleast : ∀ other, OnSide sells (valueAt staged other) → other ≠ asset →
      Before (fun asset => |valueAt staged asset|) asset other)
    (hlarge : spare input assets openByAsset sells <
      ∑ asset ∈ sideIn assets sells (valueAt staged), |valueAt staged asset|) :
    SidesPruned input assets openByAsset delta (staged.insert asset 0) where
  value other := by
    rw [valueAt_insert]
    split
    · exact .inr rfl
    · exact h.value other
  within := h.within.insert hmem 0
  sides side := by
    rw [sideIn_insert_zero hside]
    split
    · rename_i hsame
      subst hsame
      refine (h.sides side).erase (mem_sideIn.mpr ⟨hmem, hside⟩) ?_ (h.sum_side side ▸ hlarge)
      intro other hother hne
      have hon := (mem_sideIn.mp hother).2
      have hbefore := hleast other hon hne
      unfold Before at *
      dsimp only at *
      rwa [h.value_of_onSide hside, h.value_of_onSide hon] at hbefore
    · exact h.sides side

/-- **What a run leaves.**  The deltas of each side that fit into its room. -/
theorem PruneRun.fits {baseline : ExtTreeMap String (ExposureRange ℚ)} {baselineMetrics : ℚ × ℚ × ℚ}
    {removed : List (String × ℚ)}
    (hbaseline : projectedRanges input assets openByAsset ∅ = .ok baseline)
    (hbaselineMetrics : rangeMetrics baseline = .ok baselineMetrics)
    (h : PruneRun input assets openByAsset (worstNet baselineMetrics.2.1 baselineMetrics.2.2)
      staged removed next) (hstaged : SidesPruned input assets openByAsset delta staged)
    (hasset : asset ∈ assets) :
    valueAt next asset =
      if asset ∈ fitting input assets openByAsset true delta ∨
          asset ∈ fitting input assets openByAsset false delta then delta asset
      else 0 := by
  induction h with
  | @stop staged ranges metrics hranges hmetrics hexit =>
    have hroom := sum_sideIn_le_spare hranges hmetrics hbaseline hbaselineMetrics hexit
    have hkept (sells : Bool) : sideIn assets sells (valueAt staged) =
        fitting input assets openByAsset sells delta :=
      (hstaged.sides sells).eq_survivors (fun _ _ => abs_nonneg _)
        (hstaged.sum_side sells ▸ hroom sells)
    rw [← hkept, ← hkept]
    split
    · rename_i hside
      rcases hside with hside | hside
      · exact hstaged.value_of_onSide (mem_sideIn.mp hside).2
      · exact hstaged.value_of_onSide (mem_sideIn.mp hside).2
    · rename_i hnone
      rw [not_or] at hnone
      by_contra hne
      rcases lt_or_gt_of_ne hne with hsell | hbuy
      · exact hnone.1 (mem_sideIn.mpr ⟨hasset, hsell⟩)
      · exact hnone.2 (mem_sideIn.mpr ⟨hasset, hbuy⟩)
  | @round staged next removed ranges metrics removedAsset value hranges hmetrics hworse hremove
      hrest ih =>
    obtain ⟨hentry, hside, hleast⟩ := smallestOffending_spec hremove
    have hmem : removedAsset ∈ assets := by
      by_contra hout
      rw [hstaged.within _ hout] at hentry
      cases hentry
    exact ih (hstaged.remove hmem hside hleast
      (spare_lt_sum_sideIn hranges hmetrics hbaseline hbaselineMetrics hworse))

theorem exists_pruneRun_of_staged
    (h : stageRiskReducingDeltas input assets openByAsset deltas = .ok next) :
    ∃ baseline baselineMetrics candidates removed,
      projectedRanges input assets openByAsset ∅ = .ok baseline ∧
      rangeMetrics baseline = .ok baselineMetrics ∧
      (∀ asset, candidates[asset]? =
        if asset ∈ assets then some (candidateDelta input openByAsset deltas asset) else none) ∧
      PruneRun input assets openByAsset (worstNet baselineMetrics.2.1 baselineMetrics.2.2)
        candidates removed next := by
  obtain ⟨baseline, hbaseline⟩ := @exists_projectedRanges input openByAsset ∅ assets
  obtain ⟨baselineMetrics, hbaselineMetrics⟩ := exists_rangeMetrics baseline
  obtain ⟨candidates, hasReduction, hloop, hcandidates, hnone⟩ :=
    @candidateDeltas_eq_ok input assets openByAsset deltas baseline hbaseline
  have hwithin : DeltasWithin assets candidates := by
    intro asset hout
    rw [hcandidates, if_neg hout]
  obtain ⟨removed, last, hlength, hrun⟩ := exists_pruneRun hbaseline hbaselineMetrics hwithin
  have hreturns := hrun.returns (hlength.trans (card_deltasLeft_le _ _)) hbaseline hbaselineMetrics
    hloop hcandidates hnone
  rw [h, Except.ok.injEq] at hreturns
  subst hreturns
  exact ⟨baseline, baselineMetrics, candidates, removed, hbaseline, hbaselineMetrics, hcandidates,
    hrun⟩

theorem exists_staged (h : stageRiskReducingDeltas input assets openByAsset deltas = .ok next)
    (hasset : asset ∈ assets) : ∃ delta, next[asset]? = some delta := by
  obtain ⟨baseline, baselineMetrics, candidates, removed, -, -, hcandidates, hrun⟩ :=
    exists_pruneRun_of_staged h
  rw [hrun.getElem?_eq.2.2, hcandidates, if_pos hasset]
  split
  · exact ⟨0, rfl⟩
  · exact ⟨_, rfl⟩

/-- **What staging leaves.**  Of the deltas that leave their asset's worst exposure no larger, those
of each side that fit into its room. -/
theorem stageRiskReducingDeltas_value_eq
    (h : stageRiskReducingDeltas input assets openByAsset deltas = .ok next)
    (hasset : asset ∈ assets) :
    valueAt next asset =
      if asset ∈ fitting input assets openByAsset true (candidateDelta input openByAsset deltas) ∨
          asset ∈ fitting input assets openByAsset false (candidateDelta input openByAsset deltas)
        then candidateDelta input openByAsset deltas asset
      else 0 := by
  obtain ⟨baseline, baselineMetrics, candidates, removed, hbaseline, hbaselineMetrics, hcandidates,
    hrun⟩ := exists_pruneRun_of_staged h
  have hvalue {other : String} (hother : other ∈ assets) :
      valueAt candidates other = candidateDelta input openByAsset deltas other := by
    unfold valueAt
    rw [hcandidates, if_pos hother, Option.getD_some]
  have hwithin : DeltasWithin assets candidates := by
    intro other hout
    rw [hcandidates, if_neg hout]
  have hsides (sells : Bool) : sideIn assets sells (valueAt candidates) =
      sideIn assets sells (candidateDelta input openByAsset deltas) := by
    ext other
    rw [mem_sideIn, mem_sideIn]
    refine and_congr_right fun hother => ?_
    rw [hvalue hother]
  have hstart : SidesPruned input assets openByAsset (candidateDelta input openByAsset deltas)
      candidates := by
    refine ⟨fun other => ?_, hwithin, fun sells => ?_⟩
    · by_cases hother : other ∈ assets
      · exact .inl (hvalue hother)
      · unfold valueAt
        rw [hcandidates, if_neg hother]
        exact .inr zero_eq
    · rw [hsides]
      exact prunedTo_self
  exact hrun.fits hbaseline hbaselineMetrics hstart hasset

end

def openOrdersOf (input : PortfolioProjectionInput ℚ) : ExtTreeMap String (ℚ × ℚ) :=
  (activeOpenExposure input).toOption.getD ∅

/-- The delta that leads to the constrained target of an asset once all open orders are filled. -/
def proposedOf (input : PortfolioProjectionInput ℚ) (asset : String) : ℚ :=
  constrainedTarget input asset - filledOf input asset -
    ((openAt (openOrdersOf input) asset).1 - (openAt (openOrdersOf input) asset).2)

def requestedOf (input : PortfolioProjectionInput ℚ) (asset : String) : ℚ :=
  match input.marketRules[asset]? with
  | none => 0
  | some rules => lotsOf rules (proposedOf input asset)

def requestedDeltas (input : PortfolioProjectionInput ℚ) : ExtTreeMap String ℚ :=
  (portfolioAssets input).toList.foldl (fun deltas asset =>
    deltas.insert asset (requestedOf input asset)) ∅

/-- Every range of the deltas is within the caps on one asset, on the gross and on the net exposure. -/
structure RespectsCaps (input : PortfolioProjectionInput ℚ) (deltas : ExtTreeMap String ℚ) : Prop where
  asset : ∀ asset ∈ (portfolioAssets input).toList,
    peak (rangeLow input (openOrdersOf input) deltas asset)
      (rangeHigh input (openOrdersOf input) deltas asset) ≤ (portfolioCaps input).asset
  gross : ((portfolioAssets input).toList.map fun asset =>
    peak (rangeLow input (openOrdersOf input) deltas asset)
      (rangeHigh input (openOrdersOf input) deltas asset)).sum ≤ (portfolioCaps input).gross
  net : peak (netLow input (portfolioAssets input) (openOrdersOf input) deltas)
    (netHigh input (portfolioAssets input) (openOrdersOf input) deltas) ≤ (portfolioCaps input).net

/-- The delta fits, with all larger ones of its side that leave their asset's worst exposure no
larger, into the room of its side. -/
def FitsRoom (input : PortfolioProjectionInput ℚ) (asset : String) : Prop :=
  let candidates := candidateDelta input (openOrdersOf input) (requestedDeltas input)
  asset ∈ fitting input (portfolioAssets input) (openOrdersOf input) true candidates ∨
    asset ∈ fitting input (portfolioAssets input) (openOrdersOf input) false candidates

instance (input : PortfolioProjectionInput ℚ) (asset : String) : Decidable (FitsRoom input asset) :=
  inferInstanceAs (Decidable (_ ∨ _))

/-- Staging withholds the requested delta of an asset: the whole transition breaches a cap, and the
delta enlarges the worst exposure of its asset or does not fit into the room of its side. -/
def Withholds (input : PortfolioProjectionInput ℚ) (asset : String) : Prop :=
  requestedOf input asset ≠ 0 ∧ ¬ RespectsCaps input (requestedDeltas input) ∧
    ¬ (LeavesNoLarger input (openOrdersOf input) (requestedDeltas input) asset ∧
      FitsRoom input asset)

variable {input : PortfolioProjectionInput ℚ} {projection : PortfolioProjection ℚ}
  {openByAsset : ExtTreeMap String (ℚ × ℚ)} {initial : ExtTreeMap String ℚ}
  {ranges : ExtTreeMap String (ExposureRange ℚ)} {metrics : ℚ × ℚ × ℚ}

theorem getElem?_requestedDeltas (asset : String) : (requestedDeltas input)[asset]? =
    if asset ∈ portfolioAssets input then some (requestedOf input asset) else none := by
  unfold requestedDeltas
  rw [getElem?_foldl_insert, ExtTreeMap.getElem?_empty]
  simp only [ExtTreeSet.mem_toList]

variable {asset : String}

theorem valueAt_requestedDeltas (h : asset ∈ portfolioAssets input) :
    valueAt (requestedDeltas input) asset = requestedOf input asset := by
  unfold valueAt
  rw [getElem?_requestedDeltas, if_pos h, Option.getD_some]

theorem ProjectionParts.openOrders_eq
    (h : ProjectionParts input projection openByAsset initial ranges metrics) :
    openOrdersOf input = openByAsset := by
  unfold openOrdersOf
  rw [h.openOrders]
  rfl

theorem ProjectionParts.tabulates
    (h : ProjectionParts input projection openByAsset initial ranges metrics) :
    Tabulates input (constrainedTarget input) projection.constrainedTargets := by
  have hvalid := validInput_of_validateInput h.valid
  obtain ⟨scaled, hscaled, hscaledTable⟩ :=
    scaleTargetsToGrossCap_spec hvalid (clampedTargets_tabulates hvalid)
  obtain ⟨constrained, hconstrained, htable⟩ := enforceTargetNetCap_spec hvalid hscaledTable
  obtain ⟨scaled', hscaled', hconstrained'⟩ := h.targets
  rw [hscaled, Except.ok.injEq] at hscaled'
  rw [← hscaled', hconstrained, Except.ok.injEq] at hconstrained'
  rwa [← hconstrained']

/-- The proposed and the rounded delta of the first pass, which refuses to sell an asset whose mark
is below its tick. -/
theorem ProjectionParts.requested
    (h : ProjectionParts input projection openByAsset initial ranges metrics)
    (hasset : asset ∈ portfolioAssets input) :
    projection.proposedDeltas[asset]? = some (proposedOf input asset) ∧
      initial[asset]? = some (requestedOf input asset) ∧
      ∀ rules, input.marketRules[asset]? = some rules → proposedOf input asset < 0 →
        rules.priceTick ≤ rules.markPrice := by
  have hvalid := validInput_of_validateInput h.valid
  obtain ⟨delta, rounded, hdelta, hproposed, hinitial⟩ := firstPass_eq_ok h.proposed hasset
  obtain ⟨rules, hget, hmark, htick, hstep⟩ := hvalid.rules asset (mem_assetsOf.mpr hasset)
  have hasked : askedDelta input openByAsset projection.constrainedTargets asset =
      proposedOf input asset := by
    unfold askedDelta proposedOf filledOf
    rw [h.tabulates.valueAt (mem_assetsOf.mpr hasset), h.openOrders_eq]
  have hsame : assetDelta input openByAsset projection.constrainedTargets asset =
      (do
        let rounded ← roundDelta (proposedOf input asset) rules
        pure (proposedOf input asset, rounded)) := by
    rw [← hasked]
    unfold assetDelta askedDelta openAt
    simp only [checkedSub_eq_ok, ok_bind, zero_eq]
    rw [hget]
  rw [hsame] at hdelta
  obtain ⟨value, hvalue, hdelta⟩ := of_bind hdelta
  rw [pure_eq_ok_iff, Prod.mk.injEq] at hdelta
  obtain ⟨rfl, rfl⟩ := hdelta
  rcases @roundDelta_cases rules (proposedOf input asset) htick hstep hmark with
    ⟨hsells, hrounded⟩ | ⟨-, -, hrefused⟩
  · refine ⟨hproposed, ?_, fun found hfound => ?_⟩
    · rw [hrounded, Except.ok.injEq] at hvalue
      unfold requestedOf
      rw [hget, hinitial, ← hvalue]
    · rw [hget, Option.some.injEq] at hfound
      exact hfound ▸ hsells
  · rw [hrefused] at hvalue
    cases hvalue

theorem ProjectionParts.initial_eq
    (h : ProjectionParts input projection openByAsset initial ranges metrics) :
    initial = requestedDeltas input := by
  apply ExtTreeMap.ext_getElem?
  intro asset
  rw [getElem?_requestedDeltas]
  split
  · rename_i hasset
    exact (h.requested hasset).2.1
  · rename_i hout
    have hloop := (getElem?_foldlM_insert_pair h.proposed asset).2
      (mt ExtTreeSet.mem_toList.mp hout)
    rw [hloop.2, ExtTreeMap.getElem?_empty]

theorem ProjectionParts.transitionBreaches_iff
    (h : ProjectionParts input projection openByAsset initial ranges metrics) :
    transitionBreaches ranges (portfolioCaps input) metrics = true ↔
      ¬ RespectsCaps input (requestedDeltas input) := by
  obtain ⟨hgross, hlow, hhigh⟩ := rangeMetrics_eq_ok h.firstRanges h.firstMetrics
  have hranges := h.firstRanges
  rw [h.initial_eq, ← h.openOrders_eq] at hgross hlow hhigh hranges
  have hcaps : RespectsCaps input (requestedDeltas input) ↔
      (∀ asset ∈ (portfolioAssets input).toList,
        peak (rangeLow input (openOrdersOf input) (requestedDeltas input) asset)
          (rangeHigh input (openOrdersOf input) (requestedDeltas input) asset) ≤
            (portfolioCaps input).asset) ∧
        metrics.1 ≤ (portfolioCaps input).gross ∧
        peak metrics.2.1 metrics.2.2 ≤ (portfolioCaps input).net := by
    rw [hgross, hlow, hhigh]
    exact ⟨fun hall => ⟨hall.asset, hall.gross, hall.net⟩, fun hall => ⟨hall.1, hall.2.1, hall.2.2⟩⟩
  unfold transitionBreaches
  rw [hcaps, ← Bool.not_eq_false, Bool.or_eq_false_iff, Bool.or_eq_false_iff, worstNet_eq_peak]
  simp only [← Bool.not_eq_true, lt_iff_lt, not_lt]
  rw [and_assoc]
  refine not_congr (and_congr ?_ Iff.rfl)
  rw [List.any_eq_true, not_exists]
  constructor
  · intro hnone asset hasset
    have hget : ranges[asset]? =
        some (assetRange input (openOrdersOf input) (requestedDeltas input) asset) := by
      rw [projectedRanges_eq_ok hranges, if_pos (ExtTreeSet.mem_toList.mp hasset)]
    have hrange := hnone (assetRange input (openOrdersOf input) (requestedDeltas input) asset)
    rw [not_and, lt_iff_lt, not_lt, magnitude_eq_peak] at hrange
    exact hrange (mem_values_iff.mpr ⟨asset, hget⟩)
  · rintro hall range ⟨hmem, hbreach⟩
    obtain ⟨asset, hget⟩ := mem_values_iff.mp hmem
    rw [projectedRanges_eq_ok hranges] at hget
    split at hget
    · rename_i hasset
      cases hget
      rw [lt_iff_lt, magnitude_eq_peak] at hbreach
      exact absurd (hall asset (ExtTreeSet.mem_toList.mpr hasset)) (not_le.mpr hbreach)
    · cases hget

/-- **The rounded delta of a projection.**  It is the requested one, unless staging withholds it. -/
theorem ProjectionParts.roundedDelta_eq
    (h : ProjectionParts input projection openByAsset initial ranges metrics)
    (hasset : asset ∈ portfolioAssets input) :
    (¬ Withholds input asset → valueAt projection.roundedDeltas asset = requestedOf input asset) ∧
      (Withholds input asset → valueAt projection.roundedDeltas asset = 0) := by
  have hrequested := valueAt_requestedDeltas hasset
  have hrounded := h.rounded
  rw [h.initial_eq, ← h.openOrders_eq] at hrounded
  split at hrounded
  · rename_i hbreaches
    rw [h.transitionBreaches_iff] at hbreaches
    have hcandidate : candidateDelta input (openOrdersOf input) (requestedDeltas input) asset =
        if LeavesNoLarger input (openOrdersOf input) (requestedDeltas input) asset then
          requestedOf input asset else 0 := by
      unfold candidateDelta
      rw [hrequested]
    have hvalue : valueAt projection.roundedDeltas asset =
        if FitsRoom input asset then
          candidateDelta input (openOrdersOf input) (requestedDeltas input) asset else 0 :=
      stageRiskReducingDeltas_value_eq hrounded hasset
    rw [hvalue, hcandidate]
    constructor
    · intro hkept
      by_cases hzero : requestedOf input asset = 0
      · rw [hzero, ite_self, ite_self]
      · have hstays : LeavesNoLarger input (openOrdersOf input) (requestedDeltas input) asset ∧
            FitsRoom input asset := by
          by_contra hnot
          exact hkept ⟨hzero, hbreaches, hnot⟩
        rw [if_pos hstays.2, if_pos hstays.1]
    · rintro ⟨-, -, hnot⟩
      by_cases hfits : FitsRoom input asset
      · rw [if_pos hfits, if_neg fun hleaves => hnot ⟨hleaves, hfits⟩]
      · rw [if_neg hfits]
  · rename_i hfits
    rw [h.transitionBreaches_iff, not_not] at hfits
    rw [hrounded, hrequested]
    exact ⟨fun _ => rfl, fun hwithheld => absurd hfits hwithheld.2.1⟩

theorem ProjectionParts.exists_rounded
    (h : ProjectionParts input projection openByAsset initial ranges metrics)
    (hasset : asset ∈ portfolioAssets input) :
    projection.roundedDeltas[asset]? = some (valueAt projection.roundedDeltas asset) := by
  have hstored : ∃ delta, projection.roundedDeltas[asset]? = some delta := by
    have hrounded := h.rounded
    split at hrounded
    · exact exists_staged hrounded hasset
    · rw [hrounded]
      exact ⟨_, (h.requested hasset).2.1⟩
  obtain ⟨delta, hdelta⟩ := hstored
  unfold valueAt
  rw [hdelta, Option.getD_some]

end CopyTrade.Analysis
