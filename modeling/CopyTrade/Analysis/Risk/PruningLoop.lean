import CopyTrade.Analysis.Risk.StagedReductions

/-!
# The pruning loop ends

The loop of the staging has no counter: it runs until the worst net exposure is no larger than
before the deltas.  With open orders on any asset and positions of any sign it ends, because the end
of the net range that got worse can only have got worse by a delta of its own sign, so there is one
to remove.
-/

namespace CopyTrade.Analysis

open Foundation Model Model.PortfolioRisk
open Model.ExactDecimal
open Std (ExtTreeMap ExtTreeSet)

/-- The lower end of the net range is the worse one, and is short. -/
def offendsBelow (metrics : ℚ × ℚ × ℚ) : Bool :=
  Decimal.le (Decimal.abs metrics.2.2) (Decimal.abs metrics.2.1)
    && Decimal.lt metrics.2.1 Decimal.zero

/-- A run of the loop as the source writes it, without a counter, with the entries it sets to zero.
-/
inductive PruneRun (input : PortfolioProjectionInput ℚ) (assets : ExtTreeSet String)
    (openByAsset : ExtTreeMap String (ℚ × ℚ)) (baselineWorstNet : ℚ) :
    ExtTreeMap String ℚ → List (String × ℚ) → ExtTreeMap String ℚ → Prop
  | stop {staged : ExtTreeMap String ℚ} {ranges : ExtTreeMap String (ExposureRange ℚ)}
      {metrics : ℚ × ℚ × ℚ} (hranges : projectedRanges input assets openByAsset staged = .ok ranges)
      (hmetrics : rangeMetrics ranges = .ok metrics)
      (hexit : worstNet metrics.2.1 metrics.2.2 ≤ baselineWorstNet) :
      PruneRun input assets openByAsset baselineWorstNet staged [] staged
  | round {staged next : ExtTreeMap String ℚ} {removed : List (String × ℚ)}
      {ranges : ExtTreeMap String (ExposureRange ℚ)} {metrics : ℚ × ℚ × ℚ} {asset : String}
      {value : ℚ} (hranges : projectedRanges input assets openByAsset staged = .ok ranges)
      (hmetrics : rangeMetrics ranges = .ok metrics)
      (hworse : baselineWorstNet < worstNet metrics.2.1 metrics.2.2)
      (hremove : smallestOffending staged (offendsBelow metrics) = some (asset, value))
      (hrest : PruneRun input assets openByAsset baselineWorstNet (staged.insert asset 0) removed
        next) :
      PruneRun input assets openByAsset baselineWorstNet staged ((asset, value) :: removed) next

section

variable {input : PortfolioProjectionInput ℚ} {assets : ExtTreeSet String}
  {openByAsset : ExtTreeMap String (ℚ × ℚ)} {worst : ℚ} {staged next : ExtTreeMap String ℚ}
  {removed : List (String × ℚ)}

theorem PruneRun.pruneStaged_eq_ok (h : PruneRun input assets openByAsset worst staged removed next)
    {rounds : ℕ} (hrounds : removed.length < rounds) :
    pruneStaged input assets openByAsset worst rounds staged = .ok next := by
  induction h generalizing rounds with
  | stop hranges hmetrics hexit =>
    cases rounds with
    | zero => exact absurd hrounds (Nat.not_lt_zero _)
    | succ rounds =>
      unfold pruneStaged
      rw [hranges, ok_bind, hmetrics, ok_bind]
      dsimp only
      rw [if_pos ((le_iff_le _ _).mpr hexit)]
      rfl
  | round hranges hmetrics hworse hremove hrest ih =>
    cases rounds with
    | zero => exact absurd hrounds (Nat.not_lt_zero _)
    | succ rounds =>
      unfold pruneStaged
      unfold offendsBelow at hremove
      rw [hranges, ok_bind, hmetrics, ok_bind]
      dsimp only
      rw [if_neg (mt (le_iff_le _ _).mp (not_le.mpr hworse)), hremove]
      rw [zero_eq]
      apply ih
      rw [List.length_cons] at hrounds
      omega

theorem PruneRun.getElem?_eq (h : PruneRun input assets openByAsset worst staged removed next) :
    (∀ entry ∈ removed, staged[entry.1]? = some entry.2 ∧ entry.2 ≠ 0) ∧
      (removed.map Prod.fst).Nodup ∧
      ∀ asset, next[asset]? =
        if asset ∈ removed.map Prod.fst then some 0 else staged[asset]? := by
  induction h with
  | stop => simp
  | @round staged next removed ranges metrics asset value hranges hmetrics hworse hremove hrest ih =>
    obtain ⟨hentries, hnodup, hnext⟩ := ih
    obtain ⟨hentry, hside, -⟩ := smallestOffending_spec hremove
    have hvalue : valueAt staged asset = value := by
      unfold valueAt
      rw [hentry, Option.getD_some]
    -- The value under the asset is zero from here on, so it is not removed again.
    have hfresh : ∀ entry ∈ removed, entry.1 ≠ asset := by
      intro entry hmem heq
      obtain ⟨hget, hne⟩ := hentries entry hmem
      rw [heq, getElem?_insert_eq, if_pos rfl, Option.some.injEq] at hget
      exact hne hget.symm
    refine ⟨?_, ?_, ?_⟩
    · intro entry hmem
      rcases List.mem_cons.mp hmem with rfl | hmem
      · exact ⟨hentry, hvalue ▸ hside.ne_zero⟩
      · obtain ⟨hget, hne⟩ := hentries entry hmem
        rw [getElem?_insert_of_ne (Ne.symm (hfresh entry hmem))] at hget
        exact ⟨hget, hne⟩
    · rw [List.map_cons, List.nodup_cons]
      refine ⟨fun hmem => ?_, hnodup⟩
      obtain ⟨entry, hentry, heq⟩ := List.mem_map.mp hmem
      exact hfresh entry hentry heq
    · intro other
      rw [hnext, getElem?_insert_eq, List.map_cons]
      by_cases hother : other ∈ removed.map Prod.fst
      · rw [if_pos hother, if_pos (List.mem_cons_of_mem _ hother)]
      · by_cases hasset : asset = other
        · simp [hasset]
        · rw [if_neg hother, if_neg hasset, if_neg]
          simp only [List.mem_cons, not_or]
          exact ⟨Ne.symm hasset, hother⟩

theorem PruneRun.exit (h : PruneRun input assets openByAsset worst staged removed next) :
    ∃ ranges metrics, projectedRanges input assets openByAsset next = .ok ranges ∧
      rangeMetrics ranges = .ok metrics ∧ worstNet metrics.2.1 metrics.2.2 ≤ worst := by
  induction h with
  | stop hranges hmetrics hexit => exact ⟨_, _, hranges, hmetrics, hexit⟩
  | round _ _ _ _ _ ih => exact ih

end

section

variable {input : PortfolioProjectionInput ℚ} {assets : ExtTreeSet String}
  {openByAsset : ExtTreeMap String (ℚ × ℚ)} {baseline staged : ExtTreeMap String ℚ}

theorem sum_toList (assets : ExtTreeSet String) (f : String → ℚ) :
    (assets.toList.map f).sum = ∑ asset ∈ assets.toList.toFinset, f asset :=
  (List.sum_toFinset f (nodup_set_toList assets)).symm

def soldBy (assets : ExtTreeSet String) (staged : ExtTreeMap String ℚ) : ℚ :=
  ∑ asset ∈ assets.toList.toFinset, max (-valueAt staged asset) 0

def boughtBy (assets : ExtTreeSet String) (staged : ExtTreeMap String ℚ) : ℚ :=
  ∑ asset ∈ assets.toList.toFinset, max (valueAt staged asset) 0

theorem soldBy_nonneg : 0 ≤ soldBy assets staged :=
  Finset.sum_nonneg fun _ _ => le_max_right _ _

theorem boughtBy_nonneg : 0 ≤ boughtBy assets staged :=
  Finset.sum_nonneg fun _ _ => le_max_right _ _

variable {baselineMetrics : ℚ × ℚ × ℚ}

variable {metrics : ℚ × ℚ × ℚ}

theorem netEnds_eq {ranges baseline : ExtTreeMap String (ExposureRange ℚ)}
    (hranges : projectedRanges input assets openByAsset staged = .ok ranges)
    (hmetrics : rangeMetrics ranges = .ok metrics)
    (hbaseline : projectedRanges input assets openByAsset ∅ = .ok baseline)
    (hbaselineMetrics : rangeMetrics baseline = .ok baselineMetrics) :
    metrics.2.1 = baselineMetrics.2.1 - soldBy assets staged ∧
      metrics.2.2 = baselineMetrics.2.2 + boughtBy assets staged := by
  obtain ⟨-, hlow, hhigh⟩ := rangeMetrics_eq_ok hranges hmetrics
  obtain ⟨-, hlow', hhigh'⟩ := rangeMetrics_eq_ok hbaseline hbaselineMetrics
  have hlows (asset : String) : rangeLow input openByAsset staged asset =
      rangeLow input openByAsset ∅ asset - max (-valueAt staged asset) 0 := by
    unfold rangeLow
    rw [valueAt_empty, neg_zero, max_self, sub_zero]
  have hhighs (asset : String) : rangeHigh input openByAsset staged asset =
      rangeHigh input openByAsset ∅ asset + max (valueAt staged asset) 0 := by
    unfold rangeHigh
    rw [valueAt_empty, max_self, add_zero]
  constructor
  · rw [hlow, hlow', sum_toList, sum_toList, soldBy, ← Finset.sum_sub_distrib]
    exact Finset.sum_congr rfl fun asset _ => hlows asset
  · rw [hhigh, hhigh', sum_toList, sum_toList, boughtBy, ← Finset.sum_add_distrib]
    exact Finset.sum_congr rfl fun asset _ => hhighs asset

theorem soldBy_eq_zero (h : ∀ asset, ¬ OnSide true (valueAt staged asset)) :
    soldBy assets staged = 0 := by
  apply Finset.sum_eq_zero
  intro asset _
  have hnone := h asset
  rw [onSide_true, not_lt] at hnone
  exact max_eq_right (by linarith)

theorem boughtBy_eq_zero (h : ∀ asset, ¬ OnSide false (valueAt staged asset)) :
    boughtBy assets staged = 0 := by
  apply Finset.sum_eq_zero
  intro asset _
  have hnone := h asset
  rw [onSide_false, not_lt] at hnone
  exact max_eq_right hnone

theorem exists_smallestOffending {ranges baseline : ExtTreeMap String (ExposureRange ℚ)}
    (hranges : projectedRanges input assets openByAsset staged = .ok ranges)
    (hmetrics : rangeMetrics ranges = .ok metrics)
    (hbaseline : projectedRanges input assets openByAsset ∅ = .ok baseline)
    (hbaselineMetrics : rangeMetrics baseline = .ok baselineMetrics)
    (hworse : worstNet baselineMetrics.2.1 baselineMetrics.2.2 <
      worstNet metrics.2.1 metrics.2.2) :
    ∃ asset value, smallestOffending staged (offendsBelow metrics) = some (asset, value) := by
  obtain ⟨hlow, hhigh⟩ := netEnds_eq hranges hmetrics hbaseline hbaselineMetrics
  have hsells := @soldBy_nonneg assets staged
  rw [worstNet_eq_peak, worstNet_eq_peak, peak, peak, max_lt_iff] at hworse
  cases hpick : smallestOffending staged (offendsBelow metrics) with
  | some entry => exact ⟨entry.1, entry.2, rfl⟩
  | none =>
    exfalso
    have hempty := smallestOffending_eq_none hpick
    cases hside : offendsBelow metrics with
    | true =>
      rw [hside] at hempty
      rw [soldBy_eq_zero hempty, sub_zero] at hlow
      unfold offendsBelow at hside
      rw [Bool.and_eq_true, le_iff_le, ExactDecimal.abs_eq, ExactDecimal.abs_eq] at hside
      have hsame : max |metrics.2.1| |metrics.2.2| = |baselineMetrics.2.1| := by
        rw [max_eq_left hside.1, hlow]
      exact absurd hworse.1 (not_lt.mpr hsame.le)
    | false =>
      rw [hside] at hempty
      rw [boughtBy_eq_zero hempty, add_zero] at hhigh
      unfold offendsBelow at hside
      rw [Bool.and_eq_false_iff, ← Bool.not_eq_true, ← Bool.not_eq_true, le_iff_le, lt_iff_lt,
        ExactDecimal.abs_eq, ExactDecimal.abs_eq, zero_eq, not_le, not_lt] at hside
      rw [← hhigh] at hworse
      have hlarger : |metrics.2.2| < |metrics.2.1| := by
        rcases lt_max_iff.mp hworse.2 with hlarger | hself
        · exact hlarger
        · exact absurd hself (lt_irrefl _)
      -- The lower end is not short, so selling has only brought it closer to zero.
      rcases hside with hsmaller | hlong
      · exact absurd hsmaller (not_lt.mpr hlarger.le)
      · rw [max_eq_left hlarger.le, abs_of_nonneg hlong] at hworse
        have hbefore := le_abs_self baselineMetrics.2.1
        linarith [hworse.1]

def deltasLeft (assets : ExtTreeSet String) (staged : ExtTreeMap String ℚ) : Finset String :=
  assets.toList.toFinset.filter fun asset => valueAt staged asset ≠ 0

theorem card_deltasLeft_le (assets : ExtTreeSet String) (staged : ExtTreeMap String ℚ) :
    (deltasLeft assets staged).card ≤ assets.size := by
  rw [← ExtTreeSet.length_toList, ← List.toFinset_card_of_nodup (nodup_set_toList assets)]
  exact Finset.card_filter_le _ _

theorem deltasLeft_insert {asset : String} (hmem : asset ∈ assets)
    (hne : valueAt staged asset ≠ 0) :
    (deltasLeft assets (staged.insert asset 0)).card < (deltasLeft assets staged).card := by
  apply Finset.card_lt_card
  rw [Finset.ssubset_iff_of_subset]
  · refine ⟨asset, ?_, ?_⟩
    · simp [deltasLeft, hmem, hne]
    · simp [deltasLeft, valueAt_insert]
  · intro other hother
    unfold deltasLeft at *
    rw [Finset.mem_filter, valueAt_insert] at hother
    split at hother
    · exact absurd rfl hother.2
    · exact Finset.mem_filter.mpr hother

/-- **The loop ends.**  From deltas of the assets of the portfolio there is a run, by induction on how
many deltas are left. -/
theorem exists_pruneRun {baseline : ExtTreeMap String (ExposureRange ℚ)}
    (hbaseline : projectedRanges input assets openByAsset ∅ = .ok baseline)
    (hbaselineMetrics : rangeMetrics baseline = .ok baselineMetrics)
    (hwithin : DeltasWithin assets staged) :
    ∃ removed next, removed.length ≤ (deltasLeft assets staged).card ∧
      PruneRun input assets openByAsset
        (worstNet baselineMetrics.2.1 baselineMetrics.2.2) staged removed next := by
  induction hleft : (deltasLeft assets staged).card using Nat.strong_induction_on
    generalizing staged with
  | _ left ih =>
    obtain ⟨ranges, hranges⟩ := @exists_projectedRanges input openByAsset staged assets
    obtain ⟨metrics, hmetrics⟩ := exists_rangeMetrics ranges
    rcases le_or_gt (worstNet metrics.2.1 metrics.2.2)
      (worstNet baselineMetrics.2.1 baselineMetrics.2.2) with hexit | hworse
    · exact ⟨[], staged, Nat.zero_le _, .stop hranges hmetrics hexit⟩
    · obtain ⟨asset, value, hremove⟩ :=
        exists_smallestOffending hranges hmetrics hbaseline hbaselineMetrics hworse
      obtain ⟨hentry, hside, -⟩ := smallestOffending_spec hremove
      have hmem : asset ∈ assets := by
        by_contra hout
        rw [hwithin asset hout] at hentry
        cases hentry
      have hfewer := deltasLeft_insert hmem hside.ne_zero
      rw [hleft] at hfewer
      obtain ⟨removed, next, hlength, hrun⟩ := ih _ hfewer (hwithin.insert hmem 0) rfl
      refine ⟨(asset, value) :: removed, next, ?_, .round hranges hmetrics hworse hremove hrun⟩
      rw [List.length_cons]
      omega

end

section

variable {input : PortfolioProjectionInput ℚ} {assets : ExtTreeSet String}
  {openByAsset : ExtTreeMap String (ℚ × ℚ)} {deltas : ExtTreeMap String ℚ}

/-- The first loop of the staging: the deltas that leave their asset's worst exposure no larger, and
whether there is one. -/
def candidateDeltas (input : PortfolioProjectionInput ℚ) (assets : ExtTreeSet String)
    (openByAsset : ExtTreeMap String (ℚ × ℚ)) (baseline : ExtTreeMap String (ExposureRange ℚ))
    (deltas : ExtTreeMap String ℚ) : Except (RiskViolation ℚ) (ExtTreeMap String ℚ × Bool) :=
  assets.toList.foldlM (fun acc asset => do
    let (delta, reduces) ← stageAsset input assets openByAsset baseline (valueAt deltas asset) asset
    pure (acc.1.insert asset delta, acc.2 || reduces)) (∅, false)

/-- The delta leaves the worst exposure of its asset no larger. -/
def LeavesNoLarger (input : PortfolioProjectionInput ℚ)
    (openByAsset : ExtTreeMap String (ℚ × ℚ)) (deltas : ExtTreeMap String ℚ) (asset : String) :
    Prop :=
  peak (rangeLow input openByAsset deltas asset) (rangeHigh input openByAsset deltas asset) ≤
    peak (rangeLow input openByAsset ∅ asset) (rangeHigh input openByAsset ∅ asset)

instance (asset : String) : Decidable (LeavesNoLarger input openByAsset deltas asset) :=
  inferInstanceAs (Decidable (_ ≤ _))

def candidateDelta (input : PortfolioProjectionInput ℚ)
    (openByAsset : ExtTreeMap String (ℚ × ℚ)) (deltas : ExtTreeMap String ℚ) (asset : String) : ℚ :=
  if LeavesNoLarger input openByAsset deltas asset then valueAt deltas asset else 0

variable {asset : String}

theorem magnitudeAt_of_projectedRanges {ranges : ExtTreeMap String (ExposureRange ℚ)}
    (h : projectedRanges input assets openByAsset deltas = .ok ranges) (hasset : asset ∈ assets) :
    magnitudeAt ranges asset =
      peak (rangeLow input openByAsset deltas asset) (rangeHigh input openByAsset deltas asset) := by
  unfold magnitudeAt
  rw [projectedRanges_eq_ok h, if_pos hasset, Option.getD_some, magnitude_eq_peak]
  rfl

theorem leavesNoLarger_congr {others : ExtTreeMap String ℚ}
    (h : valueAt others asset = valueAt deltas asset) :
    LeavesNoLarger input openByAsset others asset ↔
      LeavesNoLarger input openByAsset deltas asset := by
  unfold LeavesNoLarger rangeLow rangeHigh
  rw [h]

theorem leavesNoLarger_of_zero (h : valueAt deltas asset = 0) :
    LeavesNoLarger input openByAsset deltas asset := by
  unfold LeavesNoLarger rangeLow rangeHigh
  rw [h, valueAt_empty]

variable {baseline : ExtTreeMap String (ExposureRange ℚ)}

theorem stageAsset_eq_candidateDelta
    (hbaseline : projectedRanges input assets openByAsset ∅ = .ok baseline)
    (hasset : asset ∈ assets) :
    stageAsset input assets openByAsset baseline (valueAt deltas asset) asset =
      .ok (candidateDelta input openByAsset deltas asset,
        decide (candidateDelta input openByAsset deltas asset ≠ 0)) := by
  unfold stageAsset candidateDelta
  by_cases hzero : valueAt deltas asset = 0
  · rw [if_pos ((isZero_iff_eq_zero _).mpr hzero), hzero]
    simp
  · rw [if_neg (mt (isZero_iff_eq_zero _).mp hzero)]
    have hown : valueAt ((∅ : ExtTreeMap String ℚ).insert asset (valueAt deltas asset)) asset =
        valueAt deltas asset := by
      rw [valueAt_insert, if_pos rfl]
    obtain ⟨withDelta, hwithDelta⟩ := @exists_projectedRanges input openByAsset
      ((∅ : ExtTreeMap String ℚ).insert asset (valueAt deltas asset)) assets
    rw [hwithDelta, ok_bind, magnitudeAt_of_projectedRanges hwithDelta hasset,
      magnitudeAt_of_projectedRanges hbaseline hasset]
    have hiff : LeavesNoLarger input openByAsset
          ((∅ : ExtTreeMap String ℚ).insert asset (valueAt deltas asset)) asset ↔
        LeavesNoLarger input openByAsset deltas asset := leavesNoLarger_congr hown
    by_cases hsmaller : LeavesNoLarger input openByAsset deltas asset
    · rw [if_pos ((le_iff_le _ _).mpr (hiff.mpr hsmaller)), if_pos hsmaller, decide_eq_true hzero]
      rfl
    · rw [if_neg, if_neg hsmaller]
      · simp
      · rw [le_iff_le]
        exact mt hiff.mp hsmaller

theorem candidateDeltas_eq_ok
    (hbaseline : projectedRanges input assets openByAsset ∅ = .ok baseline) :
    ∃ candidates hasReduction,
      candidateDeltas input assets openByAsset baseline deltas = .ok (candidates, hasReduction) ∧
      (∀ asset, candidates[asset]? =
        if asset ∈ assets then some (candidateDelta input openByAsset deltas asset) else none) ∧
      (hasReduction = false → ∀ asset ∈ assets,
        candidateDelta input openByAsset deltas asset = 0) := by
  refine ⟨_, _, foldlM_insert_eq_ok (fun asset => (candidateDelta input openByAsset deltas asset,
      decide (candidateDelta input openByAsset deltas asset ≠ 0)))
    (fun reduces _ reducesToo => reduces || reducesToo)
    (fun asset hasset => stageAsset_eq_candidateDelta hbaseline (ExtTreeSet.mem_toList.mp hasset))
    (∅, false), fun asset => ?_, fun hnone asset hasset => ?_⟩
  · dsimp only
    rw [getElem?_foldl_insert, ExtTreeMap.getElem?_empty]
    simp only [ExtTreeSet.mem_toList]
  · by_contra hne
    refine Bool.noConfusion (hnone.symm.trans (foldl_or_eq_true ?_))
    exact ⟨asset, ExtTreeSet.mem_toList.mpr hasset, decide_eq_true hne⟩

end

/-- What staging does: its first loop stores the candidates, its second one sets some of them to
zero, and the worst net exposure and that of every asset are no larger than without deltas. -/
structure StagingOutcome (input : PortfolioProjectionInput ℚ) (assets : ExtTreeSet String)
    (openByAsset : ExtTreeMap String (ℚ × ℚ)) (deltas : ExtTreeMap String ℚ)
    (baseline : ExtTreeMap String (ExposureRange ℚ)) (baselineMetrics : ℚ × ℚ × ℚ)
    (candidates : ExtTreeMap String ℚ) (hasReduction : Bool) (removed : List (String × ℚ))
    (next : ExtTreeMap String ℚ) (ranges : ExtTreeMap String (ExposureRange ℚ))
    (metrics : ℚ × ℚ × ℚ) : Prop where
  baselineRanges : projectedRanges input assets openByAsset ∅ = .ok baseline
  baselineNet : rangeMetrics baseline = .ok baselineMetrics
  candidateLoop : candidateDeltas input assets openByAsset baseline deltas =
    .ok (candidates, hasReduction)
  run : PruneRun input assets openByAsset (worstNet baselineMetrics.2.1 baselineMetrics.2.2)
    candidates removed next
  rounds : removed.length ≤ assets.size
  wasCandidate : ∀ entry ∈ removed, candidates[entry.1]? = some entry.2 ∧ entry.2 ≠ 0
  once : (removed.map Prod.fst).Nodup
  returns : stageRiskReducingDeltas input assets openByAsset deltas = .ok next
  finalRanges : projectedRanges input assets openByAsset next = .ok ranges
  finalNet : rangeMetrics ranges = .ok metrics
  noWorse : worstNet metrics.2.1 metrics.2.2 ≤
    worstNet baselineMetrics.2.1 baselineMetrics.2.2
  kept : ∀ asset ∈ assets, (valueAt next asset = valueAt deltas asset ∨ valueAt next asset = 0) ∧
    magnitudeAt ranges asset ≤ magnitudeAt baseline asset

variable {input : PortfolioProjectionInput ℚ} {assets : ExtTreeSet String}
  {openByAsset : ExtTreeMap String (ℚ × ℚ)} {deltas : ExtTreeMap String ℚ}

variable {candidates : ExtTreeMap String ℚ}

theorem size_of_getElem? {f : String → ℚ}
    (h : ∀ asset, candidates[asset]? = if asset ∈ assets then some (f asset) else none) :
    candidates.size = assets.size := by
  have hcard : assets.toList.toFinset.card = assets.size := by
    rw [List.toFinset_card_of_nodup (nodup_set_toList assets), ExtTreeSet.length_toList]
  rw [← hcard]
  apply size_eq_card
  intro asset
  rw [mem_iff_exists, List.mem_toFinset, ExtTreeSet.mem_toList]
  constructor
  · rintro ⟨value, hget⟩
    by_contra hout
    rw [h, if_neg hout] at hget
    cases hget
  · intro hasset
    exact ⟨f asset, by rw [h, if_pos hasset]⟩

variable {baseline : ExtTreeMap String (ExposureRange ℚ)} {next : ExtTreeMap String ℚ}
  {removed : List (String × ℚ)}

/-- After a run over the candidates every delta is its candidate or zero, and no asset's worst
exposure is larger than without deltas. -/
theorem PruneRun.kept {worst : ℚ} {ranges : ExtTreeMap String (ExposureRange ℚ)}
    (h : PruneRun input assets openByAsset worst candidates removed next)
    (hcandidates : ∀ asset, candidates[asset]? =
      if asset ∈ assets then some (candidateDelta input openByAsset deltas asset) else none)
    (hbaseline : projectedRanges input assets openByAsset ∅ = .ok baseline)
    (hranges : projectedRanges input assets openByAsset next = .ok ranges) {asset : String}
    (hasset : asset ∈ assets) :
    (valueAt next asset = valueAt deltas asset ∨ valueAt next asset = (0 : ℚ)) ∧
      magnitudeAt ranges asset ≤ magnitudeAt baseline asset := by
  rw [magnitudeAt_of_projectedRanges hranges hasset,
    magnitudeAt_of_projectedRanges hbaseline hasset]
  have hnext : valueAt next asset = candidateDelta input openByAsset deltas asset ∨
      valueAt next asset = 0 := by
    unfold valueAt
    rw [h.getElem?_eq.2.2, hcandidates, if_pos hasset]
    split
    · exact .inr rfl
    · exact .inl rfl
  rcases hnext with hcandidate | hzero
  · unfold candidateDelta at hcandidate
    split at hcandidate
    · rename_i hsmaller
      exact ⟨.inl hcandidate, (leavesNoLarger_congr hcandidate).mpr hsmaller⟩
    · exact ⟨.inr hcandidate, leavesNoLarger_of_zero hcandidate⟩
  · exact ⟨.inr hzero, leavesNoLarger_of_zero hzero⟩

theorem PruneRun.returns {baselineMetrics : ℚ × ℚ × ℚ} {hasReduction : Bool}
    (h : PruneRun input assets openByAsset (worstNet baselineMetrics.2.1 baselineMetrics.2.2)
      candidates removed next) (hrounds : removed.length ≤ assets.size)
    (hbaseline : projectedRanges input assets openByAsset ∅ = .ok baseline)
    (hbaselineMetrics : rangeMetrics baseline = .ok baselineMetrics)
    (hloop : candidateDeltas input assets openByAsset baseline deltas =
      .ok (candidates, hasReduction)) (hcandidates : ∀ asset, candidates[asset]? =
      if asset ∈ assets then some (candidateDelta input openByAsset deltas asset) else none)
    (hnone : hasReduction = false → ∀ asset ∈ assets,
      candidateDelta input openByAsset deltas asset = 0) :
    stageRiskReducingDeltas input assets openByAsset deltas = .ok next := by
  obtain ⟨hremoved, -, hnext⟩ := h.getElem?_eq
  unfold candidateDeltas at hloop
  unfold stageRiskReducingDeltas
  rw [hbaseline, ok_bind, hloop, ok_bind]
  dsimp only
  cases hasReduction with
  | true =>
    rw [if_pos rfl, hbaselineMetrics, ok_bind]
    apply h.pruneStaged_eq_ok
    rw [size_of_getElem? hcandidates]
    omega
  | false =>
    -- Without a candidate there is nothing to remove.
    have hempty : removed = [] := by
      apply List.eq_nil_iff_forall_not_mem.mpr
      intro entry hentry
      obtain ⟨hget, hne⟩ := hremoved entry hentry
      rw [hcandidates] at hget
      split at hget
      · rename_i hasset
        rw [hnone rfl _ hasset, Option.some.injEq] at hget
        exact hne hget.symm
      · cases hget
    have hsame : next = candidates := by
      apply ExtTreeMap.ext_getElem?
      intro asset
      rw [hnext, hempty, List.map_nil]
      exact if_neg List.not_mem_nil
    rw [if_neg Bool.false_ne_true, hsame]
    rfl

/-- **Staging ends on every input.**  Each round sets to zero one delta that was not, the error for
a side without deltas is not reached, and the worst net exposure and the worst exposure of every
asset are no larger than without the deltas. -/
theorem stageRiskReducingDeltas_settles (input : PortfolioProjectionInput ℚ)
    (assets : ExtTreeSet String) (openByAsset : ExtTreeMap String (ℚ × ℚ))
    (deltas : ExtTreeMap String ℚ) :
    ∃ baseline baselineMetrics candidates hasReduction removed next ranges metrics,
      StagingOutcome input assets openByAsset deltas baseline baselineMetrics candidates hasReduction
        removed next ranges metrics := by
  obtain ⟨baseline, hbaseline⟩ := @exists_projectedRanges input openByAsset ∅ assets
  obtain ⟨baselineMetrics, hbaselineMetrics⟩ := exists_rangeMetrics baseline
  obtain ⟨candidates, hasReduction, hloop, hcandidates, hnone⟩ :=
    @candidateDeltas_eq_ok input assets openByAsset deltas baseline hbaseline
  have hwithin : DeltasWithin assets candidates := by
    intro asset hout
    rw [hcandidates, if_neg hout]
  obtain ⟨removed, next, hlength, hrun⟩ :=
    exists_pruneRun hbaseline hbaselineMetrics hwithin
  obtain ⟨ranges, metrics, hranges, hmetrics, hexit⟩ := hrun.exit
  obtain ⟨hremoved, honce, -⟩ := hrun.getElem?_eq
  have hrounds : removed.length ≤ assets.size := hlength.trans (card_deltasLeft_le _ _)
  refine ⟨baseline, baselineMetrics, candidates, hasReduction, removed, next, ranges, metrics, ?_⟩
  exact {
    baselineRanges := hbaseline
    baselineNet := hbaselineMetrics
    candidateLoop := hloop
    run := hrun
    rounds := hrounds
    wasCandidate := hremoved
    once := honce
    returns := hrun.returns hrounds hbaseline hbaselineMetrics hloop hcandidates hnone
    finalRanges := hranges
    finalNet := hmetrics
    noWorse := hexit
    kept := fun _ hasset => hrun.kept hcandidates hbaseline hranges hasset }

end CopyTrade.Analysis
