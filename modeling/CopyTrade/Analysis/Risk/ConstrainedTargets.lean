import CopyTrade.Analysis.Risk.StagedReductions
import CopyTrade.Analysis.Risk.WorstCase
import Mathlib.Algebra.BigOperators.Ring.Finset

/-!
# The constrained targets and the requested deltas

What clamping, scaling and rounding compute in exact arithmetic, asset by asset: a target is cut to
the cap on one asset, scaled down with all others to the gross cap, and scaled down with the others
of its sign to the net cap.  The requested delta leads from the filled position to the constrained
target, in whole lots.
-/

namespace CopyTrade.Analysis

open Foundation Model Model.PortfolioRisk
open Model.ExactDecimal
open Std (ExtTreeMap ExtTreeSet)

/-- The target of an asset, cut to the cap on one asset. -/
def clampedTarget (input : PortfolioProjectionInput ℚ) (asset : String) : ℚ :=
  max (-(portfolioCaps input).asset)
    (min (valueAt input.unconstrainedTargets asset) (portfolioCaps input).asset)

/-- The factor that brings the clamped targets to the gross cap. -/
def grossScale (input : PortfolioProjectionInput ℚ) : ℚ :=
  let gross := ∑ asset ∈ assetsOf input, |clampedTarget input asset|
  if gross ≤ (portfolioCaps input).gross then 1 else (portfolioCaps input).gross / gross

def grossTarget (input : PortfolioProjectionInput ℚ) (asset : String) : ℚ :=
  clampedTarget input asset * grossScale input

def longTotal (input : PortfolioProjectionInput ℚ) : ℚ :=
  ∑ asset ∈ assetsOf input, max (grossTarget input asset) 0

def shortTotal (input : PortfolioProjectionInput ℚ) : ℚ :=
  ∑ asset ∈ assetsOf input, max (-grossTarget input asset) 0

/-- The factor that brings the side of the larger total to the net cap. -/
def netScale (netCap larger smaller : ℚ) : ℚ :=
  if netCap < larger - smaller then (smaller + netCap) / larger else 1

/-- The target of an asset, scaled to the gross cap and to the net cap. -/
def constrainedTarget (input : PortfolioProjectionInput ℚ) (asset : String) : ℚ :=
  if 0 < grossTarget input asset then
    grossTarget input asset *
      netScale (portfolioCaps input).net (longTotal input) (shortTotal input)
  else
    grossTarget input asset *
      netScale (portfolioCaps input).net (shortTotal input) (longTotal input)

/-- The notional of a whole number of lots, at most the given one. -/
def wholeLots (price step notional : ℚ) : ℚ := ⌊notional / price / step⌋ * step * price

/-- The mark, rounded outward to the tick: up for a buy and down for a sell. -/
def outwardMark (rules : MarketRules ℚ) (buys : Bool) : ℚ :=
  if buys then ⌈rules.markPrice / rules.priceTick⌉ * rules.priceTick
  else ⌊rules.markPrice / rules.priceTick⌋ * rules.priceTick

def lotsOf (rules : MarketRules ℚ) (delta : ℚ) : ℚ :=
  if 0 < delta then wholeLots (outwardMark rules true) rules.sizeStep delta
  else -wholeLots (outwardMark rules false) rules.sizeStep (-delta)

/-- The delta that leads from the filled position to the constrained target, in whole lots. -/
def requestedDelta (input : PortfolioProjectionInput ℚ) (asset : String) : ℚ :=
  match input.marketRules[asset]? with
  | none => 0
  | some rules => lotsOf rules (constrainedTarget input asset - filledOf input asset)

section

variable {input : PortfolioProjectionInput ℚ}

/-- What the validation of the input promises. -/
structure ValidInput (input : PortfolioProjectionInput ℚ) : Prop where
  assetCap : 0 ≤ (portfolioCaps input).asset
  grossCap : 0 < (portfolioCaps input).gross
  netCap : 0 ≤ (portfolioCaps input).net
  rules : ∀ asset ∈ assetsOf input, ∃ rules, input.marketRules[asset]? = some rules ∧
    0 < rules.markPrice ∧ 0 < rules.priceTick ∧ 0 < rules.sizeStep

theorem validInput_of_validateInput (h : validateInput input = .ok ()) : ValidInput input := by
  have hassetCap := assetCap_nonneg h
  unfold validateInput at h
  split at h
  · cases h
  rename_i hequity
  split at h
  · cases h
  rename_i hleverage
  split at h
  · cases h
  rename_i hscale
  obtain ⟨_, hfields, h⟩ := of_bind h
  split at h
  · cases h
  split at h
  · cases h
  rw [checkAll_eq_ok_iff] at hfields h
  have hpct := hfields ("max_net_equity_pct", input.maxNetEquityPct) (by simp)
  split at hpct
  · cases hpct
  rename_i hrange
  rw [le_iff_le, zero_eq, not_le] at hequity hleverage
  simp only [Bool.not_eq_true', Bool.not_eq_false, Bool.and_eq_true, le_iff_le, zero_eq]
    at hrange hscale
  have hpositive : 0 < input.globalRiskScale := by
    refine lt_of_lt_of_le ?_ hscale.1
    decide +kernel
  refine ⟨hassetCap, mul_pos (mul_pos hequity hleverage) hpositive,
    mul_nonneg hequity.le hrange.1, fun asset hasset => ?_⟩
  have hrules := h asset (ExtTreeSet.mem_toList.mpr (mem_assetsOf.mp hasset))
  split at hrules
  · cases hrules
  rename_i rules hget
  split at hrules
  · cases hrules
  rename_i hpositive
  simp only [Bool.or_eq_true, not_or, le_iff_le, zero_eq, not_le] at hpositive
  exact ⟨rules, hget, hpositive.1.1, hpositive.1.2, hpositive.2⟩

/-- The mark of every asset that has to be sold is at or above its tick. -/
def SellsPriced (input : PortfolioProjectionInput ℚ) : Prop :=
  ∀ asset ∈ assetsOf input, constrainedTarget input asset < filledOf input asset →
    ∀ rules, input.marketRules[asset]? = some rules → rules.priceTick ≤ rules.markPrice

end

section

variable {rules : MarketRules ℚ}

theorem roundDownToStep_eq {value step : ℚ} (h : step ≠ 0) :
    roundDownToStep value step = .ok (⌊value / step⌋ * step) := by
  unfold roundDownToStep checkedDiv
  rw [checkedDiv_eq h]
  rfl

theorem roundUpToStep_eq {value step : ℚ} (h : step ≠ 0) :
    roundUpToStep value step = .ok (⌈value / step⌉ * step) := by
  unfold roundUpToStep checkedDiv
  rw [checkedDiv_eq h]
  rfl

theorem outwardMark_pos (htick : 0 < rules.priceTick) (hmark : 0 < rules.markPrice) (buys : Bool)
    (hsell : buys = false → rules.priceTick ≤ rules.markPrice) : 0 < outwardMark rules buys := by
  unfold outwardMark
  cases buys with
  | true => exact mul_pos (Int.cast_pos.mpr (Int.ceil_pos.mpr (div_pos hmark htick))) htick
  | false =>
    have hone : 1 ≤ rules.markPrice / rules.priceTick := (one_le_div htick).mpr (hsell rfl)
    exact mul_pos (Int.cast_pos.mpr (Int.floor_pos.mpr hone)) htick

theorem wholeLots_nonneg {price step notional : ℚ} (hprice : 0 < price) (hstep : 0 < step)
    (hnotional : 0 ≤ notional) : 0 ≤ wholeLots price step notional := by
  have hunits : 0 ≤ notional / price / step :=
    div_nonneg (div_nonneg hnotional hprice.le) hstep.le
  exact mul_nonneg (mul_nonneg (Int.cast_nonneg (Int.floor_nonneg.mpr hunits)) hstep.le) hprice.le

theorem wholeLots_le {price step notional : ℚ} (hprice : 0 < price) (hstep : 0 < step) :
    wholeLots price step notional ≤ notional := by
  have hunits : (⌊notional / price / step⌋ : ℚ) ≤ notional / price / step := Int.floor_le _
  calc wholeLots price step notional
      ≤ notional / price / step * step * price :=
        mul_le_mul_of_nonneg_right (mul_le_mul_of_nonneg_right hunits hstep.le) hprice.le
    _ = notional := by
        rw [div_mul_cancel₀ _ hstep.ne', div_mul_cancel₀ _ hprice.ne']

theorem lotsOf_between (htick : 0 < rules.priceTick) (hstep : 0 < rules.sizeStep)
    (hmark : 0 < rules.markPrice) (delta : ℚ)
    (hsell : delta < 0 → rules.priceTick ≤ rules.markPrice) :
    (0 ≤ delta → 0 ≤ lotsOf rules delta ∧ lotsOf rules delta ≤ delta) ∧
      (delta ≤ 0 → delta ≤ lotsOf rules delta ∧ lotsOf rules delta ≤ 0) := by
  have hzero : lotsOf rules 0 = 0 := by
    unfold lotsOf wholeLots
    simp
  rcases lt_trichotomy delta 0 with hdelta | rfl | hdelta
  · have hprice := outwardMark_pos htick hmark false fun _ => hsell hdelta
    have hlots := wholeLots_nonneg hprice hstep (neg_nonneg.mpr hdelta.le)
    have hle := @wholeLots_le _ rules.sizeStep (-delta) hprice hstep
    unfold lotsOf
    rw [if_neg hdelta.le.not_gt]
    refine ⟨fun hnot => absurd hdelta (not_lt.mpr hnot), fun _ => ⟨?_, ?_⟩⟩
    · linarith
    · linarith
  · rw [hzero]
    exact ⟨fun _ => ⟨le_rfl, le_rfl⟩, fun _ => ⟨le_rfl, le_rfl⟩⟩
  · have hprice := outwardMark_pos htick hmark true (by simp)
    unfold lotsOf
    rw [if_pos hdelta]
    exact ⟨fun _ => ⟨wholeLots_nonneg hprice hstep hdelta.le, wholeLots_le hprice hstep⟩,
      fun hnot => absurd hdelta (not_lt.mpr hnot)⟩

theorem roundDelta_eq (htick : 0 < rules.priceTick) (hstep : 0 < rules.sizeStep)
    (hmark : 0 < rules.markPrice) {delta : ℚ}
    (hsell : delta < 0 → rules.priceTick ≤ rules.markPrice) :
    roundDelta delta rules = .ok (lotsOf rules delta) := by
  unfold roundDelta
  by_cases hzero : delta = 0
  · rw [if_pos ((isZero_iff_eq_zero _).mpr hzero), hzero]
    unfold lotsOf wholeLots
    simp
  · rw [if_neg (mt (isZero_iff_eq_zero _).mp hzero)]
    simp only [lt_iff_lt, zero_eq, ExactDecimal.abs_eq]
    by_cases hbuy : 0 < delta
    · have hprice := (outwardMark_pos htick hmark true (by simp)).ne'
      have hbuyPrice : roundUpToStep rules.markPrice rules.priceTick =
          .ok (outwardMark rules true) := roundUpToStep_eq htick.ne'
      rw [if_pos hbuy, hbuyPrice, ok_bind, abs_of_pos hbuy]
      unfold checkedDiv
      rw [checkedDiv_eq hprice, ok_bind, roundDownToStep_eq hstep.ne', ok_bind,
        checkedMul_eq_ok, ok_bind, if_pos hbuy]
      unfold lotsOf wholeLots
      rw [if_pos hbuy]
      rfl
    · have hnegative : delta < 0 := lt_of_le_of_ne (not_lt.mp hbuy) hzero
      have hprice := (outwardMark_pos htick hmark false fun _ => hsell hnegative).ne'
      have hsellPrice : roundDownToStep rules.markPrice rules.priceTick =
          .ok (outwardMark rules false) := roundDownToStep_eq htick.ne'
      rw [if_neg hbuy, hsellPrice, ok_bind, abs_of_neg hnegative]
      unfold checkedDiv
      rw [checkedDiv_eq hprice, ok_bind, roundDownToStep_eq hstep.ne', ok_bind,
        checkedMul_eq_ok, ok_bind, if_neg hbuy]
      unfold lotsOf wholeLots
      rw [if_neg hbuy]
      rfl

theorem mem_assetsOf_of_getElem? {input : PortfolioProjectionInput ℚ} {asset : String} {value : ℚ}
    (h : input.filledPositions[asset]? = some value ∨
      input.unconstrainedTargets[asset]? = some value) : asset ∈ assetsOf input := by
  have hkey {m : ExtTreeMap String ℚ} (hget : m[asset]? = some value) : asset ∈ m.keys := by
    rw [ExtTreeMap.mem_keys, mem_iff_exists]
    exact ⟨value, hget⟩
  rw [mem_assetsOf]
  unfold portfolioAssets
  rw [mem_set_ofList, List.mem_append, List.mem_append]
  rcases h with hfilled | htarget
  · exact .inl (.inl (hkey hfilled))
  · exact .inl (.inr (hkey htarget))

theorem requestedDelta_of_not_mem {input : PortfolioProjectionInput ℚ} (hvalid : ValidInput input)
    {asset : String} (h : asset ∉ assetsOf input) : requestedDelta input asset = 0 := by
  have hfilled : filledOf input asset = 0 := by
    unfold filledOf valueAt
    cases hget : input.filledPositions[asset]? with
    | none => rw [Option.getD_none, zero_eq]
    | some value => exact absurd (mem_assetsOf_of_getElem? (.inl hget)) h
  have htarget : valueAt input.unconstrainedTargets asset = 0 := by
    unfold valueAt
    cases hget : input.unconstrainedTargets[asset]? with
    | none => rw [Option.getD_none, zero_eq]
    | some value => exact absurd (mem_assetsOf_of_getElem? (.inr hget)) h
  have hclamped : clampedTarget input asset = 0 := by
    unfold clampedTarget
    rw [htarget, min_eq_left hvalid.assetCap, max_eq_right (neg_nonpos.mpr hvalid.assetCap)]
  have hconstrained : constrainedTarget input asset = 0 := by
    unfold constrainedTarget grossTarget
    rw [hclamped, zero_mul, zero_mul, zero_mul, ite_self]
  unfold requestedDelta
  split
  · rfl
  · rw [hconstrained, hfilled, sub_self]
    unfold lotsOf wholeLots
    simp

end

variable {input : PortfolioProjectionInput ℚ} {m : ExtTreeMap String ℚ} {f : String → ℚ}

def Tabulates (input : PortfolioProjectionInput ℚ) (f : String → ℚ) (m : ExtTreeMap String ℚ) :
    Prop :=
  ∀ asset, m[asset]? = if asset ∈ portfolioAssets input then some (f asset) else none

theorem Tabulates.valueAt (h : Tabulates input f m) {asset : String}
    (hasset : asset ∈ assetsOf input) : PortfolioRisk.valueAt m asset = f asset := by
  unfold PortfolioRisk.valueAt
  rw [h, if_pos (mem_assetsOf.mp hasset), Option.getD_some]

theorem Tabulates.sum_values (h : Tabulates input f m) (g : ℚ → ℚ) :
    (m.values.map g).sum = ∑ asset ∈ assetsOf input, g (f asset) := by
  rw [values_eq_map_toList, List.map_map, ((toList_perm_of_getElem? h).map _).sum_eq,
    List.map_map, ← sum_assets]
  rfl

theorem Tabulates.mapValuesM (h : Tabulates input f m)
    (step : String → ℚ → Except (RiskViolation ℚ) ℚ) (g : ℚ → ℚ)
    (hstep : ∀ asset value, step asset value = .ok (g value)) :
    ∃ next, Foundation.mapValuesM step m = .ok next ∧ Tabulates input (fun asset => g (f asset)) next := by
  obtain ⟨next, hnext, hget⟩ := mapValuesM_eq_ok (m := m) fun asset value _ => hstep asset value
  refine ⟨next, hnext, fun asset => ?_⟩
  rw [hget, h]
  split
  · rfl
  · rfl

theorem sum_filter_pos (values : List ℚ) :
    (values.filter fun value => Decimal.lt Decimal.zero value).sum =
      (values.map fun value => max value 0).sum := by
  induction values with
  | nil => rfl
  | cons value values ih =>
    rw [List.filter_cons, List.map_cons, List.sum_cons, ← ih]
    simp only [lt_iff_lt, zero_eq]
    split
    · rename_i hpositive
      rw [List.sum_cons, max_eq_left hpositive.le]
    · rename_i hnot
      rw [max_eq_right (not_lt.mp hnot), zero_add]

theorem sum_filter_neg (values : List ℚ) :
    ((values.filter fun value => Decimal.lt value Decimal.zero).map Decimal.abs).sum =
      (values.map fun value => max (-value) 0).sum := by
  induction values with
  | nil => rfl
  | cons value values ih =>
    rw [List.filter_cons, List.map_cons, List.sum_cons, ← ih]
    simp only [lt_iff_lt, zero_eq]
    split
    · rename_i hnegative
      rw [List.map_cons, List.sum_cons, ExactDecimal.abs_eq, abs_of_neg hnegative,
        max_eq_left (neg_nonneg.mpr hnegative.le)]
    · rename_i hnot
      rw [max_eq_right (neg_nonpos.mpr (not_lt.mp hnot)), zero_add]

theorem clampedTargets_tabulates (hvalid : ValidInput input) :
    Tabulates input (clampedTarget input)
      (clampedTargets input (portfolioAssets input) (portfolioCaps input).asset) := by
  have hclamp (value : ℚ) : Decimal.clamp value (Decimal.neg (portfolioCaps input).asset)
      (portfolioCaps input).asset =
        max (-(portfolioCaps input).asset) (min value (portfolioCaps input).asset) := by
    have hcap := hvalid.assetCap
    unfold Decimal.clamp
    simp only [lt_iff_lt, neg_eq]
    split
    · rename_i hlow
      rw [min_eq_left (by linarith), max_eq_left hlow.le]
    · rename_i hlow
      split
      · rename_i hhigh
        rw [min_eq_right hhigh.le, max_eq_right (by linarith)]
      · rename_i hhigh
        rw [min_eq_left (not_lt.mp hhigh), max_eq_right (not_lt.mp hlow)]
  intro asset
  unfold clampedTargets
  rw [getElem?_foldl_insert, ExtTreeMap.getElem?_empty]
  simp only [ExtTreeSet.mem_toList, hclamp]
  rfl

theorem scaleTargetsToGrossCap_spec (hvalid : ValidInput input)
    (h : Tabulates input (clampedTarget input) m) :
    ∃ next, scaleTargetsToGrossCap m (portfolioCaps input).gross = .ok next ∧
      Tabulates input (grossTarget input) next := by
  have hgross : (m.values.map Decimal.abs).sum = ∑ asset ∈ assetsOf input, |clampedTarget input asset| := by
    rw [h.sum_values]
    simp only [ExactDecimal.abs_eq]
  unfold scaleTargetsToGrossCap
  rw [sumChecked_eq_ok, ok_bind, hgross]
  set gross := ∑ asset ∈ assetsOf input, |clampedTarget input asset| with hdef
  have hpositive : 0 < (portfolioCaps input).gross := hvalid.grossCap
  by_cases hfits : gross ≤ (portfolioCaps input).gross
  · rw [if_pos (by rw [Bool.or_eq_true, le_iff_le]; exact .inl hfits)]
    refine ⟨m, rfl, ?_⟩
    have hsame : grossTarget input = clampedTarget input := by
      funext asset
      unfold grossTarget grossScale
      rw [← hdef, if_pos hfits, mul_one]
    rwa [hsame]
  · have hgrossPositive : gross ≠ 0 := (hpositive.trans (not_le.mp hfits)).ne'
    rw [if_neg (by simp [hfits, hgrossPositive])]
    unfold checkedDiv
    rw [checkedDiv_eq hgrossPositive, ok_bind]
    have hscale : grossScale input = (portfolioCaps input).gross / gross := by
      unfold grossScale
      rw [← hdef, if_neg hfits]
    obtain ⟨next, hnext, htable⟩ := h.mapValuesM
      (fun _ target => PortfolioRisk.checkedMul target (grossScale input) "scaled target")
      (fun target => target * grossScale input) fun _ _ => rfl
    rw [← hscale, hnext, ok_bind]
    refine ⟨next, ?_, htable⟩
    -- The scaled targets add up to the cap itself.
    have hexact : (next.values.map Decimal.abs).sum = (portfolioCaps input).gross := by
      rw [htable.sum_values]
      simp only [ExactDecimal.abs_eq, abs_mul]
      rw [← Finset.sum_mul, ← hdef, hscale,
        abs_of_pos (div_pos hpositive (hpositive.trans (not_le.mp hfits))),
        mul_div_cancel₀ _ hgrossPositive]
    unfold trimGrossResidual
    rw [sumChecked_eq_ok, ok_bind, hexact, if_pos ((le_iff_le _ _).mpr le_rfl)]
    rfl

theorem enforceTargetNetCap_spec (hvalid : ValidInput input)
    (h : Tabulates input (grossTarget input) m) :
    ∃ next, enforceTargetNetCap m (portfolioCaps input).net = .ok next ∧
      Tabulates input (constrainedTarget input) next := by
  have hlong : (m.values.filter fun value => Decimal.lt Decimal.zero value).sum =
      longTotal input := by
    rw [sum_filter_pos, h.sum_values]
    rfl
  have hshort : ((m.values.filter fun value => Decimal.lt value Decimal.zero).map
      Decimal.abs).sum = shortTotal input := by
    rw [sum_filter_neg, h.sum_values]
    rfl
  have hnonnegLong : 0 ≤ longTotal input :=
    Finset.sum_nonneg fun asset _ => le_max_right _ _
  have hnonnegShort : 0 ≤ shortTotal input :=
    Finset.sum_nonneg fun asset _ => le_max_right _ _
  have hcap := hvalid.netCap
  unfold enforceTargetNetCap
  rw [sumChecked_eq_ok, ok_bind, sumChecked_eq_ok, ok_bind, hlong, hshort, checkedSub_eq_ok,
    ok_bind]
  simp only [neg_eq]
  have htest (cap net side : ℚ) : (Decimal.lt cap net && !Decimal.isZero side) = true ↔
      cap < net ∧ side ≠ 0 := by
    rw [Bool.and_eq_true, lt_iff_lt, Bool.not_eq_true', isZero_eq_false_iff_ne]
  by_cases hnetLong : (portfolioCaps input).net < longTotal input - shortTotal input
  · have hpositive : longTotal input ≠ 0 := by
      intro hzero
      linarith
    obtain ⟨next, hnext, htable⟩ := h.mapValuesM
      (fun _ target => if Decimal.lt Decimal.zero target then
        PortfolioRisk.checkedMul target ((shortTotal input + (portfolioCaps input).net) /
          longTotal input) "net-scaled positive target" else .ok target)
      (fun target => if 0 < target then target * ((shortTotal input +
        (portfolioCaps input).net) / longTotal input) else target) (by
        intro _ target
        simp only [lt_iff_lt, zero_eq]
        split
        · rfl
        · rfl)
    rw [if_pos ((htest _ _ _).mpr ⟨hnetLong, hpositive⟩), checkedAdd_eq_ok, ok_bind]
    unfold checkedDiv
    rw [checkedDiv_eq hpositive, ok_bind]
    refine ⟨next, hnext, ?_⟩
    have hsame : constrainedTarget input = fun asset => if 0 < grossTarget input asset then
        grossTarget input asset * ((shortTotal input + (portfolioCaps input).net) /
          longTotal input) else grossTarget input asset := by
      have hother : ¬ (portfolioCaps input).net < shortTotal input - longTotal input := by linarith
      funext asset
      unfold constrainedTarget netScale
      rw [if_pos hnetLong, if_neg hother, mul_one]
    rwa [hsame]
  · rw [if_neg (mt (htest _ _ _).mp (not_and_of_not_left _ hnetLong))]
    by_cases hnetShort : (portfolioCaps input).net < shortTotal input - longTotal input
    · have hnegative : shortTotal input ≠ 0 := by
        intro hzero
        linarith
      obtain ⟨next, hnext, htable⟩ := h.mapValuesM
        (fun _ target => if Decimal.lt target Decimal.zero then
          PortfolioRisk.checkedMul target ((longTotal input + (portfolioCaps input).net) /
            shortTotal input) "net-scaled negative target" else .ok target)
        (fun target => if target < 0 then target * ((longTotal input +
          (portfolioCaps input).net) / shortTotal input) else target) (by
          intro _ target
          simp only [lt_iff_lt, zero_eq]
          split
          · rfl
          · rfl)
      have hbelow : longTotal input - shortTotal input < -(portfolioCaps input).net := by linarith
      rw [if_pos ((htest _ _ _).mpr ⟨hbelow, hnegative⟩), checkedAdd_eq_ok, ok_bind]
      unfold checkedDiv
      rw [checkedDiv_eq hnegative, ok_bind]
      refine ⟨next, hnext, ?_⟩
      have hsame : constrainedTarget input = fun asset => if grossTarget input asset < 0 then
          grossTarget input asset * ((longTotal input + (portfolioCaps input).net) /
            shortTotal input) else grossTarget input asset := by
        funext asset
        unfold constrainedTarget netScale
        rw [if_neg hnetLong, if_pos hnetShort, mul_one]
        rcases lt_trichotomy (grossTarget input asset) 0 with hsell | hzero | hbuy
        · rw [if_neg hsell.le.not_gt, if_pos hsell]
        · rw [hzero, zero_mul, ite_self]
        · rw [if_pos hbuy, if_neg hbuy.le.not_gt]
      rwa [hsame]
    · have hbelow : ¬ longTotal input - shortTotal input < -(portfolioCaps input).net := by
        intro hbelow
        exact hnetShort (by linarith)
      rw [if_neg (mt (htest _ _ _).mp (not_and_of_not_left _ hbelow))]
      refine ⟨m, rfl, ?_⟩
      have hsame : constrainedTarget input = grossTarget input := by
        funext asset
        unfold constrainedTarget netScale
        rw [if_neg hnetLong, if_neg hnetShort, mul_one, ite_self]
      rwa [hsame]

end CopyTrade.Analysis
