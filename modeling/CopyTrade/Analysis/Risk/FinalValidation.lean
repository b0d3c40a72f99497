import CopyTrade.Foundation.Pruning
import CopyTrade.Foundation.MapTotals
import CopyTrade.Model.Core.PortfolioRisk

/-!
# What a projection that is returned has passed

Whatever the clamping, scaling, rounding and staging did, the ranges of a projection that is
returned are the ranges of its rounded deltas, and they have passed the final validation: they
respect the caps, or, where the filled positions breach a cap, they are no worse than the
ranges without any delta.  With exact rational
arithmetic these are plain sums.
-/

namespace CopyTrade.Analysis

open Foundation Model Model.PortfolioRisk Model.ExactDecimal
open Std (ExtTreeMap ExtTreeSet)

section

@[simp] theorem checkedAdd_eq_ok (left right : ℚ) (operation : String) :
    PortfolioRisk.checkedAdd left right operation = .ok (left + right) := rfl

@[simp] theorem checkedSub_eq_ok (left right : ℚ) (operation : String) :
    PortfolioRisk.checkedSub left right operation = .ok (left - right) := rfl

@[simp] theorem checkedMul_eq_ok (left right : ℚ) (operation : String) :
    PortfolioRisk.checkedMul left right operation = .ok (left * right) := rfl

theorem sumChecked_eq_ok (values : List ℚ) (operation : String) :
    sumChecked values operation = .ok values.sum := by
  unfold sumChecked
  have hfold : ∀ total : ℚ, values.foldlM
      (fun total value => PortfolioRisk.checkedAdd total value operation) total =
        (.ok (total + values.sum) : Except (RiskViolation ℚ) ℚ) := by
    induction values with
    | nil =>
      intro total
      rw [List.foldlM_nil, List.sum_nil, add_zero]
      rfl
    | cons value values ih =>
      intro total
      rw [List.foldlM_cons, checkedAdd_eq_ok, ok_bind, ih, List.sum_cons, add_assoc]
  rw [hfold, zero_eq, zero_add]

theorem magnitude_eq_peak (range : ExposureRange ℚ) :
    magnitude range = peak range.minimum range.maximum := by
  unfold magnitude peak
  rw [max_eq, abs_eq, abs_eq]

theorem worstNet_eq_peak (minimumNet maximumNet : ℚ) :
    worstNet minimumNet maximumNet = peak minimumNet maximumNet := by
  unfold worstNet peak
  rw [max_eq, abs_eq, abs_eq]

def openAt (openByAsset : ExtTreeMap String (ℚ × ℚ)) (asset : String) : ℚ × ℚ :=
  openByAsset[asset]?.getD (0, 0)

def rangeLow (input : PortfolioProjectionInput ℚ) (openByAsset : ExtTreeMap String (ℚ × ℚ))
    (deltas : ExtTreeMap String ℚ) (asset : String) : ℚ :=
  valueAt input.filledPositions asset - (openAt openByAsset asset).2 -
    max (-valueAt deltas asset) 0

def rangeHigh (input : PortfolioProjectionInput ℚ) (openByAsset : ExtTreeMap String (ℚ × ℚ))
    (deltas : ExtTreeMap String ℚ) (asset : String) : ℚ :=
  valueAt input.filledPositions asset + (openAt openByAsset asset).1 + max (valueAt deltas asset) 0

def assetRange (input : PortfolioProjectionInput ℚ) (openByAsset : ExtTreeMap String (ℚ × ℚ))
    (deltas : ExtTreeMap String ℚ) (asset : String) : ExposureRange ℚ where
  minimum := rangeLow input openByAsset deltas asset
  maximum := rangeHigh input openByAsset deltas asset

section

variable {input : PortfolioProjectionInput ℚ} {openByAsset : ExtTreeMap String (ℚ × ℚ)}
  {deltas : ExtTreeMap String ℚ}

theorem projectedRange_eq_ok (asset : String) :
    projectedRange input openByAsset deltas asset =
      .ok (assetRange input openByAsset deltas asset) := by
  unfold projectedRange assetRange rangeLow rangeHigh openAt
  simp only [checkedSub_eq_ok, checkedAdd_eq_ok, ok_bind, zero_eq, max_eq, neg_eq]
  rfl

variable {assets : ExtTreeSet String} {ranges : ExtTreeMap String (ExposureRange ℚ)}

theorem projectedRanges_eq_ok (h : projectedRanges input assets openByAsset deltas = .ok ranges)
    (asset : String) :
    ranges[asset]? =
      if asset ∈ assets then some (assetRange input openByAsset deltas asset) else none := by
  have hloop : ∀ (l : List String) (start last : ExtTreeMap String (ExposureRange ℚ)),
      l.foldlM (fun ranges asset => do
        let range ← projectedRange input openByAsset deltas asset
        pure (ranges.insert asset range)) start = Except.ok last →
      last[asset]? =
        if asset ∈ l then some (assetRange input openByAsset deltas asset) else start[asset]? := by
    intro l
    induction l with
    | nil =>
      intro start last hlast
      rw [List.foldlM_nil, pure_eq_ok_iff] at hlast
      subst hlast
      simp
    | cons head l ih =>
      intro start last hlast
      obtain ⟨middle, hmiddle, hlast⟩ := foldlM_cons_eq_ok_iff.mp hlast
      rw [projectedRange_eq_ok, ok_bind, pure_eq_ok_iff] at hmiddle
      subst hmiddle
      rw [ih _ _ hlast, getElem?_insert_eq]
      by_cases hmem : asset ∈ l
      · simp [hmem]
      · by_cases hhead : head = asset
        · simp [hhead]
        · simp [hmem, hhead, Ne.symm hhead]
  rw [hloop _ _ _ h]
  simp only [ExtTreeSet.mem_toList, ExtTreeMap.getElem?_empty]

theorem exists_projectedRanges (assets : ExtTreeSet String) :
    ∃ ranges, projectedRanges input assets openByAsset deltas = .ok ranges := by
  unfold projectedRanges
  generalize (∅ : ExtTreeMap String (ExposureRange ℚ)) = start
  induction assets.toList generalizing start with
  | nil => exact ⟨start, rfl⟩
  | cons asset assets ih =>
    rw [List.foldlM_cons, projectedRange_eq_ok]
    exact ih _

theorem values_perm_of_projectedRanges
    (h : projectedRanges input assets openByAsset deltas = .ok ranges) :
    ranges.values.Perm (assets.toList.map (assetRange input openByAsset deltas)) := by
  rw [values_eq_map_toList]
  have hperm := (toList_perm_of_getElem? (projectedRanges_eq_ok h)).map Prod.snd
  rwa [List.map_map] at hperm

theorem rangeMetrics_eq_ok {metrics : ℚ × ℚ × ℚ}
    (h : projectedRanges input assets openByAsset deltas = .ok ranges)
    (hmetrics : rangeMetrics ranges = .ok metrics) :
    metrics.1 = (assets.toList.map fun asset => peak (rangeLow input openByAsset deltas asset)
        (rangeHigh input openByAsset deltas asset)).sum ∧
      metrics.2.1 = (assets.toList.map (rangeLow input openByAsset deltas)).sum ∧
      metrics.2.2 = (assets.toList.map (rangeHigh input openByAsset deltas)).sum := by
  have hperm := values_perm_of_projectedRanges h
  unfold rangeMetrics at hmetrics
  simp only [sumChecked_eq_ok, ok_bind, pure_eq_ok_iff] at hmetrics
  subst hmetrics
  refine ⟨?_, ?_, ?_⟩
  · rw [(hperm.map magnitude).sum_eq, List.map_map]
    refine congrArg List.sum (List.map_congr_left fun asset _ => ?_)
    exact magnitude_eq_peak _
  · rw [(hperm.map ExposureRange.minimum).sum_eq, List.map_map]
    rfl
  · rw [(hperm.map ExposureRange.maximum).sum_eq, List.map_map]
    rfl

end

def isActive (order : OpenOrderExposure ℚ) : Bool := order.lifecycle != .cancelConfirmed

def buysOf (order : OpenOrderExposure ℚ) : ℚ :=
  if isActive order && order.side == some .buy then order.notional.getD 0 else 0

def sellsOf (order : OpenOrderExposure ℚ) : ℚ :=
  if isActive order && order.side == some .sell then order.notional.getD 0 else 0

/-- The side and the notional of every active order are known. -/
structure KnownOrder (order : OpenOrderExposure ℚ) : Prop where
  side : isActive order = true → ∃ side, order.side = some side
  notional : isActive order = true → 0 ≤ order.notional.getD 0

variable {order : OpenOrderExposure ℚ}

theorem KnownOrder.buysOf_nonneg (h : KnownOrder order) : 0 ≤ buysOf order := by
  unfold buysOf
  split
  · rename_i hside
    rw [Bool.and_eq_true] at hside
    exact h.notional hside.1
  · exact le_refl 0

theorem KnownOrder.sellsOf_nonneg (h : KnownOrder order) : 0 ≤ sellsOf order := by
  unfold sellsOf
  split
  · rename_i hside
    rw [Bool.and_eq_true] at hside
    exact h.notional hside.1
  · exact le_refl 0

theorem addOpenOrder_active {exposure next : ExtTreeMap String (ℚ × ℚ)}
    (h : addOpenOrder exposure order = .ok next) (hactive : isActive order = true) :
    ∃ side notional, order.side = some side ∧ order.notional = some notional ∧ 0 ≤ notional ∧
      next = exposure.insert order.asset (match side with
        | .buy => ((openAt exposure order.asset).1 + notional, (openAt exposure order.asset).2)
        | .sell => ((openAt exposure order.asset).1, (openAt exposure order.asset).2 + notional)) := by
  obtain ⟨asset, side, notional, lifecycle⟩ := order
  -- The three active lifecycles are treated alike.
  have hstored : addOpenOrder exposure ⟨asset, side, notional, .acknowledged⟩ = .ok next := by
    cases lifecycle with
    | cancelConfirmed => cases hactive
    | unknown => cases h
    | _ => exact h
  unfold addOpenOrder at hstored
  cases side with
  | none => cases hstored
  | some side =>
    cases notional with
    | none => cases hstored
    | some notional =>
      simp only [zero_eq, checkedAdd_eq_ok, ok_bind] at hstored
      split at hstored
      · cases hstored
      rename_i hnonneg
      rw [lt_iff_lt, not_lt] at hnonneg
      refine ⟨side, notional, rfl, rfl, hnonneg, ?_⟩
      cases side with
      | buy =>
        cases hstored
        rfl
      | sell =>
        cases hstored
        rfl

theorem addOpenOrder_eq_ok {exposure next : ExtTreeMap String (ℚ × ℚ)}
    (h : addOpenOrder exposure order = .ok next) :
    KnownOrder order ∧ ∀ asset, openAt next asset =
      if order.asset = asset then
        ((openAt exposure asset).1 + buysOf order, (openAt exposure asset).2 + sellsOf order)
      else openAt exposure asset := by
  cases hactive : isActive order with
  | false =>
    have hlifecycle : order.lifecycle = .cancelConfirmed := by
      unfold isActive at hactive
      rwa [bne_eq_false_iff_eq] at hactive
    unfold addOpenOrder at h
    rw [hlifecycle] at h
    cases h
    refine ⟨⟨?_, ?_⟩, ?_⟩
    · intro hcontra
      rw [hactive] at hcontra
      cases hcontra
    · intro hcontra
      rw [hactive] at hcontra
      cases hcontra
    · intro asset
      unfold buysOf sellsOf
      simp [hactive]
  | true =>
    obtain ⟨side, notional, hside, hnotional, hnonneg, rfl⟩ := addOpenOrder_active h hactive
    refine ⟨⟨fun _ => ⟨side, hside⟩, fun _ => ?_⟩, ?_⟩
    · rw [hnotional]
      exact hnonneg
    · intro asset
      by_cases hasset : order.asset = asset
      · subst hasset
        have hstored (value : ℚ × ℚ) :
            openAt (exposure.insert order.asset value) order.asset = value := by
          unfold openAt
          rw [getElem?_insert_eq, if_pos rfl]
          rfl
        rw [hstored, if_pos rfl]
        unfold buysOf sellsOf
        cases side with
        | buy => simp [hactive, hside, hnotional]
        | sell => simp [hactive, hside, hnotional]
      · unfold openAt
        rw [getElem?_insert_of_ne hasset, if_neg hasset]

theorem activeOpenExposure_eq_ok {input : PortfolioProjectionInput ℚ}
    {openByAsset : ExtTreeMap String (ℚ × ℚ)} (h : activeOpenExposure input = .ok openByAsset) :
    (∀ order ∈ input.acknowledgedOpenOrders, KnownOrder order) ∧ ∀ asset,
      openAt openByAsset asset =
        (((input.acknowledgedOpenOrders.filter fun order => order.asset == asset).map buysOf).sum,
          ((input.acknowledgedOpenOrders.filter fun order => order.asset == asset).map
            sellsOf).sum) := by
  have hloop : ∀ (orders : List (OpenOrderExposure ℚ))
      (exposure next : ExtTreeMap String (ℚ × ℚ)),
      orders.foldlM addOpenOrder exposure = Except.ok next →
      (∀ order ∈ orders, KnownOrder order) ∧ ∀ asset, openAt next asset =
        ((openAt exposure asset).1 +
            ((orders.filter fun order => order.asset == asset).map buysOf).sum,
          (openAt exposure asset).2 +
            ((orders.filter fun order => order.asset == asset).map sellsOf).sum) := by
    intro orders
    induction orders with
    | nil =>
      intro exposure next h
      rw [List.foldlM_nil, pure_eq_ok_iff] at h
      subst h
      simp
    | cons order orders ih =>
      intro exposure next h
      obtain ⟨middle, hmiddle, h⟩ := foldlM_cons_eq_ok_iff.mp h
      obtain ⟨hknown, hadded⟩ := addOpenOrder_eq_ok hmiddle
      obtain ⟨hall, hrest⟩ := ih middle next h
      refine ⟨List.forall_mem_cons.mpr ⟨hknown, hall⟩, ?_⟩
      intro asset
      rw [hrest asset, hadded asset, List.filter_cons]
      by_cases hasset : order.asset = asset
      · simp [hasset, add_assoc]
      · simp [hasset]
  obtain ⟨hall, hsum⟩ := hloop _ _ _ h
  refine ⟨hall, ?_⟩
  intro asset
  rw [hsum asset]
  simp [openAt]

end

/-- The caps of the portfolio: on one asset, on the gross and on the net exposure. -/
def portfolioCaps (input : PortfolioProjectionInput ℚ) : Caps ℚ where
  asset := input.currentEquity * input.maxSingleAssetEquityPct
  gross := input.currentEquity * input.curveLeverage * input.globalRiskScale
  net := input.currentEquity * input.maxNetEquityPct

/-- The filled positions alone respect the caps. -/
structure FilledWithinCaps (input : PortfolioProjectionInput ℚ) : Prop where
  asset : ∀ (asset : String) (filled : ℚ), input.filledPositions[asset]? = some filled →
    |filled| ≤ (portfolioCaps input).asset
  gross : total (fun _ filled => |filled|) input.filledPositions ≤ (portfolioCaps input).gross
  net : |total (fun _ filled => filled) input.filledPositions| ≤ (portfolioCaps input).net

section

variable {input : PortfolioProjectionInput ℚ} {openByAsset : ExtTreeMap String (ℚ × ℚ)}
  {ranges : ExtTreeMap String (ExposureRange ℚ)} {deltas : ExtTreeMap String ℚ}

theorem rangeMetrics_filled {metrics : ℚ × ℚ × ℚ}
    (h : rangeMetrics (input.filledPositions.map fun _ filled => ExposureRange.mk filled filled) =
      .ok metrics) :
    metrics.1 = total (fun _ filled => |filled|) input.filledPositions ∧
      metrics.2.1 = total (fun _ filled => filled) input.filledPositions ∧
      metrics.2.2 = total (fun _ filled => filled) input.filledPositions := by
  unfold rangeMetrics at h
  simp only [sumChecked_eq_ok, ok_bind, pure_eq_ok_iff] at h
  subst h
  simp only [values_eq_map_toList, ExtTreeMap.toList_map, List.map_map]
  refine ⟨?_, rfl, rfl⟩
  refine congrArg List.sum (List.map_congr_left fun entry _ => ?_)
  show magnitude ⟨entry.2, entry.2⟩ = |entry.2|
  rw [magnitude_eq_peak, peak, max_self]

theorem filledViolation_eq_false_iff (input : PortfolioProjectionInput ℚ) :
    (((input.filledPositions.map fun _ filled => ExposureRange.mk filled filled).values.any
        fun range => Decimal.lt (portfolioCaps input).asset (magnitude range)) ||
      Decimal.lt (portfolioCaps input).gross
        (total (fun _ filled => |filled|) input.filledPositions) ||
      Decimal.lt (portfolioCaps input).net
        (worstNet (total (fun _ filled => filled) input.filledPositions)
          (total (fun _ filled => filled) input.filledPositions))) = false ↔
      FilledWithinCaps input := by
  have hself : ∀ q : ℚ, peak q q = |q| := fun q => max_self _
  rw [Bool.or_eq_false_iff, Bool.or_eq_false_iff, List.any_eq_false, worstNet_eq_peak, hself]
  simp only [lt_iff_lt, ← Bool.not_eq_true, not_lt]
  constructor
  · rintro ⟨⟨hasset, hgross⟩, hnet⟩
    refine ⟨?_, hgross, hnet⟩
    intro asset filled hentry
    rw [← hself, ← magnitude_eq_peak ⟨filled, filled⟩]
    refine hasset _ (mem_values_iff.mpr ⟨asset, ?_⟩)
    rw [ExtTreeMap.getElem?_map, hentry]
    rfl
  · intro h
    refine ⟨⟨?_, h.gross⟩, h.net⟩
    intro range hrange
    obtain ⟨asset, hentry⟩ := mem_values_iff.mp hrange
    rw [ExtTreeMap.getElem?_map] at hentry
    obtain ⟨filled, hfilled, rfl⟩ := Option.map_eq_some_iff.mp hentry
    rw [magnitude_eq_peak, hself]
    exact h.asset asset filled hfilled

theorem validateFinalRanges_eq_ok {projectedGross minimumNet maximumNet : ℚ}
    (h : validateFinalRanges input ranges deltas (portfolioCaps input) projectedGross minimumNet
      maximumNet openByAsset = .ok ()) :
    (FilledWithinCaps input ∧
      (∀ (asset : String) (range : ExposureRange ℚ), ranges[asset]? = some range →
        peak range.minimum range.maximum ≤ (portfolioCaps input).asset) ∧
      projectedGross ≤ (portfolioCaps input).gross ∧
      peak minimumNet maximumNet ≤ (portfolioCaps input).net) ∨
    (¬ FilledWithinCaps input ∧ ∃ baseline metrics,
      projectedRanges input (portfolioAssets input) openByAsset ∅ = .ok baseline ∧
        rangeMetrics baseline = .ok metrics ∧ projectedGross ≤ metrics.1 ∧
        peak minimumNet maximumNet ≤ peak metrics.2.1 metrics.2.2) := by
  unfold validateFinalRanges at h
  obtain ⟨⟨filledGross, filledMinimumNet, filledMaximumNet⟩, hfilled, h⟩ := of_bind h
  obtain ⟨hgross, hminimum, hmaximum⟩ := rangeMetrics_filled hfilled
  dsimp only at hgross hminimum hmaximum h
  subst hgross hminimum hmaximum
  have hchecked := filledViolation_eq_false_iff input
  split at h
  · rename_i hwithin
    rw [Bool.not_eq_true', hchecked] at hwithin
    refine .inl ⟨hwithin, ?_⟩
    split at h
    · cases h
    rename_i hnone
    split at h
    · cases h
    rename_i hgross
    split at h
    · cases h
    rename_i hnet
    rw [lt_iff_lt, not_lt] at hgross hnet
    rw [worstNet_eq_peak] at hnet
    refine ⟨?_, hgross, hnet⟩
    intro asset range hrange
    have hentry : (asset, range) ∈ ranges.toList :=
      ExtTreeMap.mem_toList_iff_getElem?_eq_some.mpr hrange
    have hpassed := List.find?_eq_none.mp hnone _ hentry
    rwa [lt_iff_lt, not_lt, magnitude_eq_peak] at hpassed
  · rename_i hbreach
    rw [Bool.not_eq_true', hchecked] at hbreach
    obtain ⟨baseline, hbaseline, h⟩ := of_bind h
    obtain ⟨metrics, hmetrics, h⟩ := of_bind h
    obtain ⟨_, hdeltas, h⟩ := of_bind h
    split at h
    · cases h
    rename_i hworse
    simp only [Bool.or_eq_true, not_or, lt_iff_lt, not_lt, worstNet_eq_peak] at hworse
    exact .inr ⟨hbreach, baseline, metrics, hbaseline, hmetrics, hworse⟩

end

theorem mem_of_foldl_eq_some {α : Type} {f : Option α → α → Option α}
    (hf : ∀ best a, f best a = some a ∨ f best a = best) {l : List α} {best : Option α} {a : α}
    (h : l.foldl f best = some a) : best = some a ∨ a ∈ l := by
  induction l generalizing best with
  | nil => exact .inl h
  | cons head l ih =>
    rw [List.foldl_cons] at h
    rcases ih h with hbest | hmem
    · rcases hf best head with hhead | hsame
      · rw [hhead, Option.some.injEq] at hbest
        exact .inr (hbest ▸ List.mem_cons_self)
      · exact .inl (hsame ▸ hbest)
    · exact .inr (List.mem_cons_of_mem _ hmem)

theorem smallestOffending_mem {staged : ExtTreeMap String ℚ} {negativeSide : Bool}
    {entry : String × ℚ} (h : smallestOffending staged negativeSide = some entry) :
    staged[entry.1]? = some entry.2 := by
  unfold smallestOffending at h
  have hpick := mem_of_foldl_eq_some (fun best a => by
    cases best with
    | none => exact .inl rfl
    | some current =>
      dsimp only
      split
      · exact .inl rfl
      · exact .inr rfl) h
  rcases hpick with hnone | hmem
  · cases hnone
  · exact ExtTreeMap.mem_toList_iff_getElem?_eq_some.mp (List.mem_filter.mp hmem).1

section

variable {input : PortfolioProjectionInput ℚ} {assets : ExtTreeSet String}
  {openByAsset : ExtTreeMap String (ℚ × ℚ)}

def DeltasWithin (assets : ExtTreeSet String) (deltas : ExtTreeMap String ℚ) : Prop :=
  ∀ asset, asset ∉ assets → deltas[asset]? = none

theorem DeltasWithin.insert {deltas : ExtTreeMap String ℚ} (h : DeltasWithin assets deltas)
    {asset : String} (hasset : asset ∈ assets) (delta : ℚ) :
    DeltasWithin assets (deltas.insert asset delta) := by
  intro other hother
  rw [getElem?_insert_of_ne]
  · exact h other hother
  · rintro rfl
    exact hother hasset

theorem pruneStaged_within {worst : ℚ} {rounds : ℕ} {staged next : ExtTreeMap String ℚ}
    (hstaged : DeltasWithin assets staged)
    (h : pruneStaged input assets openByAsset worst rounds staged = .ok next) :
    DeltasWithin assets next := by
  induction rounds generalizing staged with
  | zero =>
    cases h
    exact hstaged
  | succ rounds ih =>
    unfold pruneStaged at h
    obtain ⟨ranges, hranges, h⟩ := of_bind h
    obtain ⟨metrics, hmetrics, h⟩ := of_bind h
    dsimp only at h
    split at h
    · rw [pure_eq_ok_iff] at h
      subst h
      exact hstaged
    · split at h
      · cases h
      · rename_i remove delta hsmallest
        refine ih (hstaged.insert ?_ _) h
        by_contra hout
        have hentry := smallestOffending_mem hsmallest
        rw [hstaged remove hout] at hentry
        cases hentry

theorem foldlM_within {S : Type} (deltas : S → ExtTreeMap String ℚ)
    {f : S → String → Except (RiskViolation ℚ) S}
    (hf : ∀ s asset t, asset ∈ assets → DeltasWithin assets (deltas s) → f s asset = .ok t →
      DeltasWithin assets (deltas t)) {l : List String} (hl : ∀ asset ∈ l, asset ∈ assets)
    {s t : S} (hs : DeltasWithin assets (deltas s)) (h : l.foldlM f s = .ok t) :
    DeltasWithin assets (deltas t) := by
  induction l generalizing s with
  | nil =>
    rw [List.foldlM_nil, pure_eq_ok_iff] at h
    subst h
    exact hs
  | cons asset l ih =>
    obtain ⟨hasset, hl⟩ := List.forall_mem_cons.mp hl
    obtain ⟨r, hr, h⟩ := foldlM_cons_eq_ok_iff.mp h
    exact ih hl (hf s asset r hasset hs hr) h

theorem stageRiskReducingDeltas_within {deltas next : ExtTreeMap String ℚ}
    (h : stageRiskReducingDeltas input assets openByAsset deltas = .ok next) :
    DeltasWithin assets next := by
  unfold stageRiskReducingDeltas at h
  obtain ⟨baseline, hbaseline, h⟩ := of_bind h
  obtain ⟨⟨staged, hasReduction⟩, hstaged, h⟩ := of_bind h
  have hwithin : DeltasWithin assets staged := by
    refine foldlM_within Prod.fst ?_ (fun asset => ExtTreeSet.mem_toList.mp) ?_ hstaged
    · intro s asset t hasset hs ht
      obtain ⟨⟨delta, reduces⟩, hdelta, ht⟩ := of_bind ht
      rw [pure_eq_ok_iff] at ht
      subst ht
      exact hs.insert hasset delta
    · intro asset _
      exact ExtTreeMap.getElem?_empty
  dsimp only at h
  split at h
  · obtain ⟨metrics, hmetrics, h⟩ := of_bind h
    exact pruneStaged_within hwithin h
  · rw [pure_eq_ok_iff] at h
    subst h
    exact hwithin

end

theorem projectAndValidatePortfolio_eq_ok {input : PortfolioProjectionInput ℚ}
    {projection : PortfolioProjection ℚ}
    (h : projectAndValidatePortfolio input = .ok projection) :
    validateInput input = .ok () ∧
      DeltasWithin (portfolioAssets input) projection.roundedDeltas ∧
      ∃ openByAsset ranges metrics, activeOpenExposure input = .ok openByAsset ∧
        projectedRanges input (portfolioAssets input) openByAsset projection.roundedDeltas =
          .ok ranges ∧
        rangeMetrics ranges = .ok metrics ∧
        validateFinalRanges input ranges projection.roundedDeltas (portfolioCaps input) metrics.1
          metrics.2.1 metrics.2.2 openByAsset = .ok () := by
  unfold projectAndValidatePortfolio at h
  obtain ⟨_, hvalid, h⟩ := of_bind h
  simp only [checkedMul_eq_ok, ok_bind] at h
  obtain ⟨openByAsset, hopen, h⟩ := of_bind h
  obtain ⟨scaled, hscaled, h⟩ := of_bind h
  obtain ⟨constrained, hconstrained, h⟩ := of_bind h
  obtain ⟨⟨proposed, initial⟩, hinitial, h⟩ := of_bind h
  obtain ⟨initialRanges, hinitialRanges, h⟩ := of_bind h
  obtain ⟨initialMetrics, hinitialMetrics, h⟩ := of_bind h
  obtain ⟨⟨rounded, ranges, metrics⟩, hstaged, h⟩ := of_bind h
  obtain ⟨_, hfinal, h⟩ := of_bind h
  rw [pure_eq_ok_iff] at h
  subst h
  refine ⟨hvalid, ?_⟩
  split at hstaged
  · obtain ⟨staged, hreduced, hstaged⟩ := of_bind hstaged
    obtain ⟨stagedRanges, hstagedRanges, hstaged⟩ := of_bind hstaged
    obtain ⟨stagedMetrics, hstagedMetrics, hstaged⟩ := of_bind hstaged
    rw [pure_eq_ok_iff] at hstaged
    cases hstaged
    exact ⟨stageRiskReducingDeltas_within hreduced, openByAsset, _, _, hopen, hstagedRanges,
      hstagedMetrics, hfinal⟩
  · rw [pure_eq_ok_iff] at hstaged
    cases hstaged
    refine ⟨?_, openByAsset, initialRanges, initialMetrics, hopen, hinitialRanges,
      hinitialMetrics, hfinal⟩
    refine foldlM_within Prod.snd ?_ (fun asset => ExtTreeSet.mem_toList.mp) ?_ hinitial
    · intro s asset t hasset hs ht
      obtain ⟨⟨delta, rounded⟩, hdelta, ht⟩ := of_bind ht
      rw [pure_eq_ok_iff] at ht
      subst ht
      exact hs.insert hasset rounded
    · intro asset _
      exact ExtTreeMap.getElem?_empty

end CopyTrade.Analysis
