import CopyTrade.Analysis.Risk.WithheldDeltas
import CopyTrade.Model.Observer.DecisionRecord

/-!
# Planned actions and staging

An action is planned from the proposed delta of an asset that only reduces, also where staging
withholds its rounded delta.  So the actions respect the staging exactly when no such asset is
withheld.
-/

namespace CopyTrade.Analysis

open Foundation Model Model.PortfolioRisk
open Model.ExactDecimal
open Std (ExtTreeMap)

def actionableAt (decision : DecisionRecord ℚ) (reduceOnlyByAsset : ExtTreeMap String Bool)
    (asset : String) : ℚ :=
  decision.actionableDelta asset (valueAt decision.projection.roundedDeltas asset)
    (reduceOnlyByAsset[asset]?.getD false)

def signedNotional (action : Lifecycle.PlannedAction ℚ) : ℚ :=
  if action.side = .buy then action.roundedNotional else -action.roundedNotional

section

variable [Sha256] {engineInstance : Bytes 16} {decision : DecisionRecord ℚ}
  {reduceOnlyByAsset : ExtTreeMap String Bool}

theorem planActionFor_eq_ok {actions next : List (Lifecycle.PlannedAction ℚ)} {asset : String}
    {delta : ℚ}
    (h : planActionFor engineInstance decision reduceOnlyByAsset actions (asset, delta) = .ok next) :
    (decision.actionableDelta asset delta (reduceOnlyByAsset[asset]?.getD false) = 0 ∧
        next = actions) ∨
      (decision.actionableDelta asset delta (reduceOnlyByAsset[asset]?.getD false) ≠ 0 ∧
        ∃ action : Lifecycle.PlannedAction ℚ, action.asset = asset ∧
          signedNotional action =
            decision.actionableDelta asset delta (reduceOnlyByAsset[asset]?.getD false) ∧
          next = actions ++ [action]) := by
  unfold planActionFor at h
  dsimp only at h
  generalize decision.actionableDelta asset delta (reduceOnlyByAsset[asset]?.getD false) =
    actionable at *
  split at h
  · rename_i hzero
    rw [isZero_iff_eq_zero] at hzero
    cases h
    exact .inl ⟨hzero, rfl⟩
  · rename_i hne
    rw [isZero_iff_eq_zero] at hne
    split at h
    · cases h
    · obtain ⟨cloid, hcloid, h⟩ := of_bind h
      rw [pure_eq_ok_iff] at h
      refine .inr ⟨hne, _, rfl, ?_, h.symm⟩
      unfold signedNotional
      simp only [lt_iff_lt, zero_eq, ExactDecimal.abs_eq]
      by_cases hbuys : 0 < actionable
      · rw [if_pos hbuys, if_pos rfl, abs_of_pos hbuys]
      · have hsells : actionable < 0 := lt_of_le_of_ne (not_lt.mp hbuys) hne
        rw [if_neg hbuys, if_neg (by decide), abs_of_neg hsells, neg_neg]

theorem foldlM_planActionFor {entries : List (String × ℚ)}
    {actions next : List (Lifecycle.PlannedAction ℚ)}
    (h : entries.foldlM (planActionFor engineInstance decision reduceOnlyByAsset) actions =
      .ok next) :
    next.map (fun action => (action.asset, signedNotional action)) =
      actions.map (fun action => (action.asset, signedNotional action)) ++
        (entries.map fun entry => (entry.1, decision.actionableDelta entry.1 entry.2
          (reduceOnlyByAsset[entry.1]?.getD false))).filter fun planned => planned.2 ≠ 0 := by
  induction entries generalizing actions with
  | nil =>
    rw [List.foldlM_nil, pure_eq_ok_iff] at h
    subst h
    simp
  | cons entry entries ih =>
    obtain ⟨middle, hmiddle, hrest⟩ := foldlM_cons_eq_ok_iff.mp h
    rw [ih hrest, List.map_cons]
    rcases planActionFor_eq_ok hmiddle with ⟨hzero, rfl⟩ | ⟨hne, action, hasset, hnotional, rfl⟩
    · rw [List.filter_cons_of_neg (by simp [hzero])]
    · rw [List.filter_cons_of_pos (by simp [hne]), List.map_append, List.append_assoc]
      simp [hasset, hnotional]

/-- **The actions of a decision.**  One for every entry of the rounded deltas with something to do. -/
theorem constructPlannedActionsFor_eq_ok {actions : List (Lifecycle.PlannedAction ℚ)}
    (h : constructPlannedActionsFor engineInstance decision reduceOnlyByAsset = .ok actions) :
    (actions.map (·.asset)).Nodup ∧
      (∀ action ∈ actions, (decision.projection.roundedDeltas[action.asset]?).isSome ∧
        signedNotional action = actionableAt decision reduceOnlyByAsset action.asset ∧
        actionableAt decision reduceOnlyByAsset action.asset ≠ 0) ∧
      ∀ asset, (decision.projection.roundedDeltas[asset]?).isSome →
        actionableAt decision reduceOnlyByAsset asset ≠ 0 →
          ∃ action ∈ actions, action.asset = asset := by
  have hactions := foldlM_planActionFor h
  rw [List.map_nil, List.nil_append] at hactions
  have hentry {asset : String} {delta : ℚ}
      (hget : decision.projection.roundedDeltas[asset]? = some delta) :
      valueAt decision.projection.roundedDeltas asset = delta := by
    unfold valueAt
    rw [hget, Option.getD_some]
  refine ⟨?_, fun action haction => ?_, fun asset hstored hne => ?_⟩
  · have hassets : actions.map (·.asset) =
        (actions.map fun action => (action.asset, signedNotional action)).map Prod.fst := by
      rw [List.map_map]
      rfl
    rw [hassets, hactions]
    refine List.Nodup.sublist (List.Sublist.map _ List.filter_sublist) ?_
    rw [List.map_map]
    have hkeys : decision.projection.roundedDeltas.keys.Nodup := ExtTreeMap.nodup_keys
    rwa [← ExtTreeMap.map_fst_toList_eq_keys] at hkeys
  · have hmem := List.mem_map_of_mem (f := fun action => (action.asset, signedNotional action))
      haction
    rw [hactions, List.mem_filter, List.mem_map, decide_eq_true_eq] at hmem
    obtain ⟨⟨entry, hlisted, hsame⟩, hne⟩ := hmem
    rw [Prod.mk.injEq] at hsame
    obtain ⟨hasset, hnotional⟩ := hsame
    have hget : decision.projection.roundedDeltas[entry.1]? = some entry.2 :=
      ExtTreeMap.mem_toList_iff_getElem?_eq_some.mp hlisted
    have hactionable : actionableAt decision reduceOnlyByAsset action.asset =
        signedNotional action := by
      rw [← hnotional, ← hasset]
      unfold actionableAt
      rw [hentry hget]
    refine ⟨?_, hactionable.symm, ?_⟩
    · rw [← hasset, hget]
      rfl
    · rw [hactionable]
      exact hne
  · obtain ⟨delta, hget⟩ := Option.isSome_iff_exists.mp hstored
    have hlisted : (asset, delta) ∈ decision.projection.roundedDeltas.toList :=
      ExtTreeMap.mem_toList_iff_getElem?_eq_some.mpr hget
    have hplanned : (asset, actionableAt decision reduceOnlyByAsset asset) ∈
        actions.map fun action => (action.asset, signedNotional action) := by
      rw [hactions, List.mem_filter, List.mem_map, decide_eq_true_eq]
      refine ⟨⟨(asset, delta), hlisted, ?_⟩, hne⟩
      unfold actionableAt
      rw [hentry hget]
    obtain ⟨action, haction, hsame⟩ := List.mem_map.mp hplanned
    rw [Prod.mk.injEq] at hsame
    exact ⟨action, haction, hsame.1⟩

end

/-- The lots leave nothing of the proposed delta of an asset. -/
def ErasedByLots (input : PortfolioProjectionInput ℚ) (projection : PortfolioProjection ℚ)
    (asset : String) : Prop :=
  ∃ rules, input.marketRules[asset]? = some rules ∧
    roundDelta (valueAt projection.proposedDeltas asset) rules = .ok (0 : ℚ)

/-- An action whose rounded delta is zero is one whose proposed delta the lots erase. -/
def RespectsStaging (input : PortfolioProjectionInput ℚ) (projection : PortfolioProjection ℚ)
    (actions : List (Lifecycle.PlannedAction ℚ)) : Prop :=
  ∀ action ∈ actions, valueAt projection.roundedDeltas action.asset = 0 →
    ErasedByLots input projection action.asset

def executedAt (executed : List (Lifecycle.PlannedAction ℚ)) (asset : String) : ℚ :=
  ((executed.filter fun action => action.asset == asset).map signedNotional).sum

/-- One lot of an asset, at the price its proposed delta is rounded at. -/
def lotAt (rules : MarketRules ℚ) (proposed : ℚ) : ℚ :=
  rules.sizeStep * outwardMark rules (decide (0 < proposed))

/-- Whichever of the actions are executed and whatever of the open orders is filled, every asset ends
within its projected range, or less than a lot outside of it. -/
def StaysInRanges (input : PortfolioProjectionInput ℚ) (projection : PortfolioProjection ℚ)
    (actions : List (Lifecycle.PlannedAction ℚ)) : Prop :=
  ∀ executed : List (Lifecycle.PlannedAction ℚ), executed.Sublist actions →
    ∀ asset ∈ portfolioAssets input, ∀ rules range, input.marketRules[asset]? = some rules →
      projection.projectedRanges[asset]? = some range →
      ∀ opened, -(openAt (openOrdersOf input) asset).2 ≤ opened →
        opened ≤ (openAt (openOrdersOf input) asset).1 →
        let exposure := filledOf input asset + opened + executedAt executed asset
        let lot := lotAt rules (valueAt projection.proposedDeltas asset)
        (range.minimum ≤ exposure ∨ range.minimum - exposure < lot) ∧
          (exposure ≤ range.maximum ∨ exposure - range.maximum < lot)

section

variable {actions executed : List (Lifecycle.PlannedAction ℚ)}

theorem executedAt_eq (hnodup : (actions.map (·.asset)).Nodup) {action : Lifecycle.PlannedAction ℚ}
    (hmem : action ∈ actions) : executedAt actions action.asset = signedNotional action := by
  induction actions with
  | nil => cases hmem
  | cons first rest ih =>
    rw [List.map_cons, List.nodup_cons] at hnodup
    have hnone : executedAt rest first.asset = 0 := by
      unfold executedAt
      rw [List.filter_eq_nil_iff.mpr, List.map_nil, List.sum_nil]
      intro other hother hsame
      rw [beq_iff_eq] at hsame
      exact hnodup.1 (hsame ▸ List.mem_map_of_mem hother)
    have hsplit (asset : String) : executedAt (first :: rest) asset =
        (if first.asset = asset then signedNotional first else 0) + executedAt rest asset := by
      unfold executedAt
      rw [List.filter_cons]
      by_cases hsame : first.asset = asset
      · simp [hsame]
      · simp [hsame]
    rw [hsplit]
    rcases List.mem_cons.mp hmem with rfl | hrest
    · rw [if_pos rfl, hnone, add_zero]
    · have hdifferent : first.asset ≠ action.asset := by
        intro hsame
        exact hnodup.1 (hsame ▸ List.mem_map_of_mem hrest)
      rw [if_neg hdifferent, zero_add]
      exact ih hnodup.2 hrest

theorem executedAt_eq_zero {asset : String} (h : ∀ action ∈ executed, action.asset ≠ asset) :
    executedAt executed asset = 0 := by
  unfold executedAt
  rw [List.filter_eq_nil_iff.mpr, List.map_nil, List.sum_nil]
  intro action haction hsame
  exact h action haction (beq_iff_eq.mp hsame)

end

/-- No asset that only reduces has its requested delta withheld. -/
def NoneWithheld (input : PortfolioProjectionInput ℚ)
    (reduceOnlyByAsset : ExtTreeMap String Bool) : Prop :=
  ∀ asset ∈ portfolioAssets input, reduceOnlyByAsset[asset]? = some true → ¬ Withholds input asset

/-- The market rules, the proposed and the rounded delta of an asset of a projection. -/
structure AssetDeltas (input : PortfolioProjectionInput ℚ) (projection : PortfolioProjection ℚ)
    (asset : String) (rules : MarketRules ℚ) : Prop where
  market : input.marketRules[asset]? = some rules
  mark : 0 < rules.markPrice
  tick : 0 < rules.priceTick
  step : 0 < rules.sizeStep
  sells : proposedOf input asset < 0 → rules.priceTick ≤ rules.markPrice
  proposed : valueAt projection.proposedDeltas asset = proposedOf input asset
  requested : requestedOf input asset = lotsOf rules (proposedOf input asset)
  stored : projection.roundedDeltas[asset]? = some (valueAt projection.roundedDeltas asset)
  kept : ¬ Withholds input asset → valueAt projection.roundedDeltas asset = requestedOf input asset
  withheld : Withholds input asset → valueAt projection.roundedDeltas asset = 0

section

variable {input : PortfolioProjectionInput ℚ} {projection : PortfolioProjection ℚ} {asset : String}
  {rules : MarketRules ℚ}

theorem exists_assetDeltas (h : projectAndValidatePortfolio input = .ok projection)
    (hasset : asset ∈ portfolioAssets input) : ∃ rules, AssetDeltas input projection asset rules := by
  obtain ⟨openByAsset, initial, ranges, metrics, hparts⟩ := projectAndValidatePortfolio_parts h
  obtain ⟨rules, hget, hmark, htick, hstep⟩ :=
    (validInput_of_validateInput hparts.valid).rules asset (mem_assetsOf.mpr hasset)
  obtain ⟨hproposed, -, hsells⟩ := hparts.requested hasset
  obtain ⟨hkept, hwithheld⟩ := hparts.roundedDelta_eq hasset
  refine ⟨rules, hget, hmark, htick, hstep, hsells rules hget, ?_, ?_,
    hparts.exists_rounded hasset, hkept, hwithheld⟩
  · unfold valueAt
    rw [hproposed, Option.getD_some]
  · unfold requestedOf
    rw [hget]

theorem AssetDeltas.requested_eq_zero (h : AssetDeltas input projection asset rules)
    (hzero : proposedOf input asset = 0) : requestedOf input asset = 0 := by
  rw [h.requested, hzero]
  unfold lotsOf wholeLots
  simp

theorem AssetDeltas.erasedByLots_iff (h : AssetDeltas input projection asset rules) :
    ErasedByLots input projection asset ↔ requestedOf input asset = 0 := by
  have hrounded := roundDelta_eq h.tick h.step h.mark h.sells
  unfold ErasedByLots
  rw [h.proposed, h.requested]
  constructor
  · rintro ⟨found, hfound, herased⟩
    rw [h.market, Option.some.injEq] at hfound
    subst hfound
    rw [hrounded, Except.ok.injEq] at herased
    exact herased
  · intro hzero
    exact ⟨rules, h.market, by rw [hrounded, hzero]⟩

theorem AssetDeltas.lot_le (h : AssetDeltas input projection asset rules)
    (hne : requestedOf input asset ≠ 0) :
    lotAt rules (proposedOf input asset) ≤ |proposedOf input asset| := by
  have hwhole {price notional : ℚ} (hprice : 0 < price)
      (hlots : wholeLots price rules.sizeStep notional ≠ 0) (hnonneg : 0 ≤ notional) :
      rules.sizeStep * price ≤ wholeLots price rules.sizeStep notional := by
    unfold wholeLots at hlots ⊢
    have hunits : 0 ≤ notional / price / rules.sizeStep :=
      div_nonneg (div_nonneg hnonneg hprice.le) h.step.le
    have hone : (1 : ℤ) ≤ ⌊notional / price / rules.sizeStep⌋ := by
      have hfloor := Int.floor_nonneg.mpr hunits
      have hpositive : ⌊notional / price / rules.sizeStep⌋ ≠ 0 := by
        intro hzero
        rw [hzero, Int.cast_zero, zero_mul, zero_mul] at hlots
        exact hlots rfl
      omega
    have hone : (1 : ℚ) ≤ ⌊notional / price / rules.sizeStep⌋ := by exact_mod_cast hone
    rw [mul_assoc]
    exact le_mul_of_one_le_left (mul_pos h.step hprice).le hone
  rw [h.requested] at hne
  unfold lotAt
  rcases lt_trichotomy (proposedOf input asset) 0 with hsells | hzero | hbuys
  · have hprice := outwardMark_pos h.tick h.mark false fun _ => h.sells hsells
    rw [decide_eq_false hsells.le.not_gt, abs_of_neg hsells]
    unfold lotsOf at hne
    rw [if_neg hsells.le.not_gt, neg_ne_zero] at hne
    exact (hwhole hprice hne (neg_nonneg.mpr hsells.le)).trans (wholeLots_le hprice h.step)
  · rw [hzero] at hne
    unfold lotsOf wholeLots at hne
    simp at hne
  · have hprice := outwardMark_pos h.tick h.mark true (by simp)
    rw [decide_eq_true hbuys, abs_of_pos hbuys]
    unfold lotsOf at hne
    rw [if_pos hbuys] at hne
    exact (hwhole hprice hne hbuys.le).trans (wholeLots_le hprice h.step)

theorem AssetDeltas.lt_lot (h : AssetDeltas input projection asset rules)
    (hzero : requestedOf input asset = 0) (hne : proposedOf input asset ≠ 0) :
    |proposedOf input asset| < lotAt rules (proposedOf input asset) := by
  have hwithin := roundedWithinLot_lotsOf h.tick h.step h.mark h.sells
  obtain ⟨price, hprice, -, hlot⟩ := hwithin.lot hne
  rw [roundedPrice_eq h.tick, Except.ok.injEq] at hprice
  rw [← h.requested, hzero, sub_zero, ← hprice] at hlot
  exact hlot

theorem openOrdersOf_nonneg (h : projectAndValidatePortfolio input = .ok projection)
    (asset : String) :
    0 ≤ (openAt (openOrdersOf input) asset).1 ∧ 0 ≤ (openAt (openOrdersOf input) asset).2 := by
  obtain ⟨openByAsset, initial, ranges, metrics, hparts⟩ := projectAndValidatePortfolio_parts h
  obtain ⟨hknown, hsums⟩ := activeOpenExposure_eq_ok hparts.openOrders
  rw [hparts.openOrders_eq, hsums]
  constructor
  · apply List.sum_nonneg
    intro amount hamount
    obtain ⟨order, horder, rfl⟩ := List.mem_map.mp hamount
    exact (hknown order (List.mem_filter.mp horder).1).buysOf_nonneg
  · apply List.sum_nonneg
    intro amount hamount
    obtain ⟨order, horder, rfl⟩ := List.mem_map.mp hamount
    exact (hknown order (List.mem_filter.mp horder).1).sellsOf_nonneg

theorem mem_assets_of_stored (h : projectAndValidatePortfolio input = .ok projection)
    (hstored : (projection.roundedDeltas[asset]?).isSome) : asset ∈ portfolioAssets input := by
  by_contra hout
  rw [(projectAndValidatePortfolio_eq_ok h).2.1 _ hout] at hstored
  cases hstored

theorem projectedRange_of_projection (h : projectAndValidatePortfolio input = .ok projection)
    (hasset : asset ∈ portfolioAssets input) :
    projection.projectedRanges[asset]? =
      some (assetRange input (openOrdersOf input) projection.roundedDeltas asset) := by
  obtain ⟨openByAsset, initial, ranges, metrics, hparts⟩ := projectAndValidatePortfolio_parts h
  rw [projectedRanges_eq_ok hparts.finalRanges, if_pos hasset, hparts.openOrders_eq]

end

section

variable [Sha256] {engineInstance : Bytes 16} {input : PortfolioProjectionInput ℚ}
  {decision : DecisionRecord ℚ} {reduceOnlyByAsset : ExtTreeMap String Bool}
  {actions : List (Lifecycle.PlannedAction ℚ)}

omit [Sha256] in
theorem executedAt_eq_zero_or {executed : List (Lifecycle.PlannedAction ℚ)}
    (hnodup : (actions.map (·.asset)).Nodup)
    (hplanned : ∀ action ∈ actions, (decision.projection.roundedDeltas[action.asset]?).isSome ∧
      signedNotional action = actionableAt decision reduceOnlyByAsset action.asset ∧
      actionableAt decision reduceOnlyByAsset action.asset ≠ 0)
    (hsublist : executed.Sublist actions) (asset : String) :
    executedAt executed asset = 0 ∨
      (executedAt executed asset = actionableAt decision reduceOnlyByAsset asset ∧
        actionableAt decision reduceOnlyByAsset asset ≠ 0) := by
  by_cases hsome : ∃ action ∈ executed, action.asset = asset
  · obtain ⟨action, haction, rfl⟩ := hsome
    obtain ⟨-, hnotional, hne⟩ := hplanned action (hsublist.subset haction)
    rw [executedAt_eq (hnodup.sublist (hsublist.map _)) haction]
    exact .inr ⟨hnotional, hne⟩
  · refine .inl (executedAt_eq_zero fun action haction hsame => ?_)
    exact hsome ⟨action, haction, hsame⟩

theorem exists_action_of_withheld
    (h : projectAndValidatePortfolio input = .ok decision.projection)
    (hactions : constructPlannedActionsFor engineInstance decision reduceOnlyByAsset =
      .ok actions) {asset : String} (hasset : asset ∈ portfolioAssets input)
    (hreduces : reduceOnlyByAsset[asset]? = some true) (hwithheld : Withholds input asset) :
    ∃ action ∈ actions, action.asset = asset ∧ signedNotional action = proposedOf input asset := by
  obtain ⟨-, hplanned, hall⟩ := constructPlannedActionsFor_eq_ok hactions
  obtain ⟨rules, hdeltas⟩ := exists_assetDeltas h hasset
  have hactionable : actionableAt decision reduceOnlyByAsset asset = proposedOf input asset := by
    unfold actionableAt DecisionRecord.actionableDelta
    rw [hdeltas.withheld hwithheld, hreduces, Option.getD_some, if_pos (by simp)]
    exact hdeltas.proposed
  have hne : actionableAt decision reduceOnlyByAsset asset ≠ 0 := by
    rw [hactionable]
    exact fun hzero => hwithheld.1 (hdeltas.requested_eq_zero hzero)
  obtain ⟨action, haction, rfl⟩ := hall asset (by rw [hdeltas.stored]; rfl) hne
  exact ⟨action, haction, rfl, (hplanned action haction).2.1.trans hactionable⟩

omit [Sha256] in
/-- What an action without a rounded delta is planned for, where no asset that only reduces is
withheld: a proposed delta of which nothing is requested. -/
theorem requested_eq_zero_of_action
    (h : projectAndValidatePortfolio input = .ok decision.projection)
    (hnone : NoneWithheld input reduceOnlyByAsset) {asset : String}
    (hasset : asset ∈ portfolioAssets input)
    (hne : actionableAt decision reduceOnlyByAsset asset ≠ 0)
    (hzero : valueAt decision.projection.roundedDeltas asset = 0) :
    requestedOf input asset = 0 ∧
      actionableAt decision reduceOnlyByAsset asset = proposedOf input asset := by
  obtain ⟨rules, hdeltas⟩ := exists_assetDeltas h hasset
  unfold actionableAt DecisionRecord.actionableDelta at hne ⊢
  rw [hzero] at hne ⊢
  cases hreduces : reduceOnlyByAsset[asset]? with
  | none =>
    rw [hreduces, Option.getD_none, Bool.and_false, if_neg Bool.false_ne_true] at hne
    exact absurd rfl hne
  | some reduces =>
    cases reduces with
    | false =>
      rw [hreduces, Option.getD_some, Bool.and_false, if_neg Bool.false_ne_true] at hne
      exact absurd rfl hne
    | true =>
      rw [Option.getD_some, if_pos (by simp)]
      exact ⟨by rw [← hdeltas.kept (hnone asset hasset hreduces), hzero], hdeltas.proposed⟩

/-- **The actions respect the staging exactly when no asset that only reduces is withheld.** -/
theorem respectsStaging_iff
    (h : projectAndValidatePortfolio input = .ok decision.projection)
    (hactions : constructPlannedActionsFor engineInstance decision reduceOnlyByAsset =
      .ok actions) :
    RespectsStaging input decision.projection actions ↔ NoneWithheld input reduceOnlyByAsset := by
  obtain ⟨-, hplanned, -⟩ := constructPlannedActionsFor_eq_ok hactions
  constructor
  · intro hrespects asset hasset hreduces hwithheld
    obtain ⟨rules, hdeltas⟩ := exists_assetDeltas h hasset
    obtain ⟨action, haction, rfl, -⟩ := exists_action_of_withheld h hactions hasset hreduces hwithheld
    exact hwithheld.1 (hdeltas.erasedByLots_iff.mp
      (hrespects action haction (hdeltas.withheld hwithheld)))
  · intro hnone action haction hzero
    obtain ⟨hstored, -, hne⟩ := hplanned action haction
    have hasset := mem_assets_of_stored h hstored
    obtain ⟨rules, hdeltas⟩ := exists_assetDeltas h hasset
    rw [hdeltas.erasedByLots_iff]
    exact (requested_eq_zero_of_action h hnone hasset hne hzero).1

/-- **The outcomes stay in the ranges exactly when no asset that only reduces is withheld.** -/
theorem staysInRanges_iff
    (h : projectAndValidatePortfolio input = .ok decision.projection)
    (hactions : constructPlannedActionsFor engineInstance decision reduceOnlyByAsset =
      .ok actions) :
    StaysInRanges input decision.projection actions ↔ NoneWithheld input reduceOnlyByAsset := by
  obtain ⟨hnodup, hplanned, -⟩ := constructPlannedActionsFor_eq_ok hactions
  constructor
  · intro hstays asset hasset hreduces hwithheld
    obtain ⟨rules, hdeltas⟩ := exists_assetDeltas h hasset
    obtain ⟨action, haction, hsame, hnotional⟩ :=
      exists_action_of_withheld h hactions hasset hreduces hwithheld
    obtain ⟨hbuys, hsells⟩ := openOrdersOf_nonneg h asset
    have hlot := hdeltas.lot_le hwithheld.1
    have hexecuted : executedAt [action] asset = proposedOf input asset := by
      rw [← hsame, executedAt_eq (by simp) (List.mem_singleton_self action), hnotional, hsame]
    have hwhole := hstays [action] (List.singleton_sublist.mpr haction) asset hasset rules _
      hdeltas.market (projectedRange_of_projection h hasset)
    rw [hexecuted, hdeltas.proposed] at hwhole
    unfold assetRange rangeLow rangeHigh at hwhole
    rw [hdeltas.withheld hwithheld, neg_zero, max_self] at hwhole
    rcases lt_trichotomy (proposedOf input asset) 0 with hsell | hzero | hbuy
    · obtain ⟨hlow, -⟩ := hwhole _ le_rfl (by linarith)
      rw [abs_of_neg hsell] at hlot
      unfold filledOf at hlow
      rcases hlow with hlow | hlow
      · linarith
      · linarith
    · exact hwithheld.1 (hdeltas.requested_eq_zero hzero)
    · obtain ⟨-, hhigh⟩ := hwhole _ (by linarith) le_rfl
      rw [abs_of_pos hbuy] at hlot
      unfold filledOf at hhigh
      rcases hhigh with hhigh | hhigh
      · linarith
      · linarith
  · intro hnone executed hsublist asset hasset rules range hmarket hrange opened hlow hhigh
    obtain ⟨rules', hdeltas⟩ := exists_assetDeltas h hasset
    rw [hdeltas.market, Option.some.injEq] at hmarket
    rw [projectedRange_of_projection h hasset, Option.some.injEq] at hrange
    subst hmarket hrange
    rw [hdeltas.proposed]
    unfold assetRange rangeLow rangeHigh filledOf
    have hlowest := le_max_right (-valueAt decision.projection.roundedDeltas asset) 0
    have hhighest := le_max_right (valueAt decision.projection.roundedDeltas asset) 0
    rcases executedAt_eq_zero_or hnodup hplanned hsublist asset with hexecuted | ⟨hexecuted, hne⟩
    · rw [hexecuted]
      exact ⟨.inl (by linarith), .inl (by linarith)⟩
    · rw [hexecuted]
      by_cases hzero : valueAt decision.projection.roundedDeltas asset = 0
      · -- The lots have erased the proposed delta, so it is smaller than one of them.
        obtain ⟨hrequested, hproposed⟩ := requested_eq_zero_of_action h hnone hasset hne hzero
        rw [hproposed] at hne ⊢
        have hlot := hdeltas.lt_lot hrequested hne
        have hbelow := neg_abs_le (proposedOf input asset)
        have habove := le_abs_self (proposedOf input asset)
        exact ⟨.inr (by linarith), .inr (by linarith)⟩
      · have hactionable : actionableAt decision reduceOnlyByAsset asset =
            valueAt decision.projection.roundedDeltas asset := by
          unfold actionableAt DecisionRecord.actionableDelta
          rw [if_neg (by simp [hzero])]
        rw [hactionable]
        have hsells := le_max_left (-valueAt decision.projection.roundedDeltas asset) 0
        have hbuys := le_max_left (valueAt decision.projection.roundedDeltas asset) 0
        exact ⟨.inl (by linarith), .inl (by linarith)⟩

/-- **Planned actions and staging.**  Whichever actions are executed, every asset stays within less
than a lot of its projected range exactly when staging withholds the requested delta of no asset
that only reduces. -/
theorem planned_actions_staging_iff
    (h : projectAndValidatePortfolio input = .ok decision.projection)
    (hactions : constructPlannedActionsFor engineInstance decision reduceOnlyByAsset =
      .ok actions) :
    (RespectsStaging input decision.projection actions ↔ NoneWithheld input reduceOnlyByAsset) ∧
      (StaysInRanges input decision.projection actions ↔ NoneWithheld input reduceOnlyByAsset) :=
  ⟨respectsStaging_iff h hactions, staysInRanges_iff h hactions⟩

end

theorem unit_positive : Decimal.lt Decimal.zero (1 : ℚ) = true := by decide +kernel

def unitRules : AcceptedRules ℚ where
  markPrice := 1
  priceTick := 1
  sizeStep := 1
  markPrice_pos := unit_positive
  priceTick_pos := unit_positive
  sizeStep_pos := unit_positive

def hedgedPositions : ExtTreeMap String ℚ :=
  ExtTreeMap.ofList [("BTC", 100), ("ETH", -100)] compare

/-- The long position is closed and the short one halved, which is as much as the net cap allows. -/
def hedgedExit : AllocatedTargets ℚ where
  configHash := Bytes.replicate 32 0
  riskPolicyHash := Bytes.replicate 32 0
  snapshotSetId := Bytes.replicate 32 0
  eligibilityHash := Bytes.replicate 32 0
  marketSnapshotId := Bytes.replicate 32 0
  currentEquity := 1000
  curveLeverage := 10
  globalRiskScale := 1 / 10
  maxSingleAssetEquityPct := 1 / 10
  maxNetEquityPct := 1 / 20
  marketRules := ExtTreeMap.ofList [("BTC", unitRules), ("ETH", unitRules)] compare
  unconstrainedTargets := ExtTreeMap.ofList [("BTC", 0), ("ETH", -50)] compare
  admittedTargets := ExtTreeMap.ofList [("BTC", 0), ("ETH", -50)] compare
  executionFloors := ExtTreeMap.ofList [("BTC", ⟨1, 1, 10, 11⟩), ("ETH", ⟨1, 1, 10, 11⟩)] compare
  contributions := ∅

def bothReduce : ExtTreeMap String Bool := ExtTreeMap.ofList [("BTC", true), ("ETH", true)] compare

def hedgedDecision [Sha256] : Except String (DecisionRecord ℚ) :=
  constructDecision (Bytes.replicate 16 0) 0 hedgedExit hedgedPositions none 0

def hedgedActions [Sha256] (decision : DecisionRecord ℚ) :
    Except IdentityError (List (Lifecycle.PlannedAction ℚ)) :=
  constructPlannedActionsFor (Bytes.replicate 16 0) decision bothReduce

def hedgedInput : PortfolioProjectionInput ℚ :=
  hedgedExit.projectionInput hedgedPositions hedgedExit.admittedTargets

def plansWithheld (decision : DecisionRecord ℚ) (actions : List (Lifecycle.PlannedAction ℚ)) :
    Bool :=
  actions.any fun action =>
    decide (valueAt decision.projection.roundedDeltas action.asset = (0 : ℚ)) &&
      hedgedInput.marketRules[action.asset]?.all fun rules =>
        (roundDelta (valueAt decision.projection.proposedDeltas action.asset) rules).toOption !=
          some (0 : ℚ)

theorem hedged_plans_withheld [sha : Sha256] (hsha : sha = ⟨foldDigest⟩) :
    ∃ decision actions, hedgedDecision = .ok decision ∧ hedgedActions decision = .ok actions ∧
      plansWithheld decision actions = true := by
  have hplans : (hedgedDecision.toOption.bind fun decision =>
      (hedgedActions decision).toOption.map (plansWithheld decision)) = some true := by
    subst hsha
    decide +kernel
  obtain ⟨decision, hdecision, hplans⟩ := Option.bind_eq_some_iff.mp hplans
  obtain ⟨actions, hactions, hplans⟩ := Option.map_eq_some_iff.mp hplans
  exact ⟨decision, actions, eq_ok_of_toOption hdecision, eq_ok_of_toOption hactions, hplans⟩

/-- Staging withholds both deltas of the hedge, and both are planned. -/
theorem withheld_delta_planned :
    ¬ ∀ [Sha256] [DecimalNormalize ℚ] (engineInstance : Bytes 16) (decisionSequence : ℕ)
        (allocated : AllocatedTargets ℚ) (filledPositions : ExtTreeMap String ℚ)
        (previousTarget : Option PreviousTargetState) (createdAtMono : ℕ)
        (decision : DecisionRecord ℚ) (reduceOnlyByAsset : ExtTreeMap String Bool)
        (actions : List (Lifecycle.PlannedAction ℚ)),
      constructDecision engineInstance decisionSequence allocated filledPositions previousTarget
          createdAtMono = .ok decision →
        constructPlannedActionsFor engineInstance decision reduceOnlyByAsset = .ok actions →
          RespectsStaging (allocated.projectionInput filledPositions allocated.admittedTargets)
            decision.projection actions := by
  intro h
  let sha : Sha256 := ⟨foldDigest⟩
  obtain ⟨decision, actions, hdecision, hactions, hplans⟩ := hedged_plans_withheld rfl
  have hrespects := h _ _ _ _ _ _ _ _ _ hdecision hactions
  unfold plansWithheld at hplans
  obtain ⟨action, haction, hplans⟩ := List.any_eq_true.mp hplans
  rw [Bool.and_eq_true, decide_eq_true_eq] at hplans
  obtain ⟨hzero, hplans⟩ := hplans
  obtain ⟨rules, hmarket, herased⟩ := hrespects action haction hzero
  rw [show hedgedInput.marketRules[action.asset]? = some rules from hmarket, Option.all_some]
    at hplans
  apply bne_iff_ne.mp hplans
  simp only [herased, Except.toOption]

theorem planned_actions_staging_iff_hedged :
    ∃ (_ : Sha256) (decision : DecisionRecord ℚ) (actions : List (Lifecycle.PlannedAction ℚ)),
      hedgedDecision = .ok decision ∧ hedgedActions decision = .ok actions ∧
      (RespectsStaging hedgedInput decision.projection actions ↔
        NoneWithheld hedgedInput bothReduce) ∧
      (StaysInRanges hedgedInput decision.projection actions ↔
        NoneWithheld hedgedInput bothReduce) := by
  let sha : Sha256 := ⟨foldDigest⟩
  obtain ⟨decision, actions, hdecision, hactions, -⟩ := hedged_plans_withheld rfl
  refine ⟨sha, decision, actions, hdecision, hactions, ?_⟩
  apply planned_actions_staging_iff ?_ hactions
  unfold hedgedDecision constructDecision at hdecision
  obtain ⟨projection, hprojection, hrest⟩ := of_bind hdecision
  obtain ⟨version, -, hrest⟩ := of_bind hrest
  rw [pure_eq_ok_iff] at hrest
  subst hrest
  exact mapError_eq_ok_iff.mp hprojection

end CopyTrade.Analysis
