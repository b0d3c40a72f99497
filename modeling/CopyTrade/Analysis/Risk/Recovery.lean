import CopyTrade.Analysis.Risk.ProjectionOutcome

/-!
# Recovery from a breach, and exits beside additions

A portfolio whose filled positions breach a cap recovers exactly when staging keeps no delta that is
larger than the position it closes.  From filled positions within the caps the projection always
returns, and it contains the exits and reductions that fit into the room of the portfolio.
-/

namespace CopyTrade.Analysis

open Foundation Model Model.PortfolioRisk
open Model.ExactDecimal
open Std (ExtTreeMap)

def MarksAboveTick (input : PortfolioProjectionInput ℚ) : Prop :=
  ∀ asset ∈ assetsOf input, ∀ rules, input.marketRules[asset]? = some rules →
    rules.priceTick ≤ rules.markPrice

/-- Staging leaves the delta of an asset: it leaves the position no larger, and fits, with the larger
ones of its side, into the room of the portfolio. -/
def Left (input : PortfolioProjectionInput ℚ) (asset : String) : Prop :=
  ∃ sells, asset ∈ keptOn input sells (stagedDelta input (requestedDelta input))

/-- The requested delta of an asset is larger than its position, and staging leaves it. -/
def LeavesFlip (input : PortfolioProjectionInput ℚ) (asset : String) : Prop :=
  Left input asset ∧ |filledOf input asset| < |requestedDelta input asset|

section

variable {input : PortfolioProjectionInput ℚ} {asset : String}

theorem Left.stagedDelta_eq (h : Left input asset) :
    asset ∈ assetsOf input ∧ requestedDelta input asset ≠ 0 ∧
      stagedDelta input (requestedDelta input) asset = requestedDelta input asset := by
  obtain ⟨sells, hkept⟩ := h
  obtain ⟨⟨hasset, hside⟩, -⟩ := mem_keptOn.mp hkept
  have hne := hside.ne_zero
  unfold stagedDelta at hne ⊢
  split at hne
  · rename_i hreduces
    rw [if_pos hreduces]
    exact ⟨hasset, hne, rfl⟩
  · exact absurd rfl hne

theorem left_iff : Left input asset ↔
    asset ∈ keptOn input true (stagedDelta input (requestedDelta input)) ∨
      asset ∈ keptOn input false (stagedDelta input (requestedDelta input)) := by
  unfold Left
  rw [Bool.exists_bool, or_comm]

theorem prunedDelta_eq [Decidable (Left input asset)] :
    prunedDelta input (stagedDelta input (requestedDelta input)) asset =
      if Left input asset then requestedDelta input asset else 0 := by
  unfold prunedDelta
  split
  · rename_i hkept
    have hleft := left_iff.mpr hkept
    rw [if_pos hleft, hleft.stagedDelta_eq.2.2]
  · rename_i hnot
    rw [if_neg (mt left_iff.mp hnot)]

/-- **Recovery.**  From filled positions that breach a cap the projection returns exactly when staging
leaves no delta that is larger than the position it closes. -/
theorem recovery_ok_iff (hvalid : validateInput input = .ok ()) (hopen : NoOpenOrders input)
    (hmarks : MarksAboveTick input) (hbreach : ¬ FilledWithinCaps input) :
    (∃ projection, projectAndValidatePortfolio input = .ok projection) ↔
      ∀ asset, ¬ LeavesFlip input asset := by
  obtain ⟨projection, ranges, metrics, -, hdeltas, hwithin, hranges, hmetrics, hproject⟩ :=
    projectAndValidatePortfolio_of_noOpenOrders hvalid hopen
      fun asset hasset _ rules hget => hmarks asset hasset rules hget
  have hfinal : finalDelta input = prunedDelta input (stagedDelta input (requestedDelta input)) :=
    if_neg fun hcaps => hbreach hcaps.filled
  rw [hfinal] at hdeltas
  have hvalidated := validateFinalRanges_of_breach hbreach hdeltas hwithin
    (fun asset _ => abs_add_prunedDelta_le) peak_prunedDelta_le hranges hmetrics
  have hreturns : (∃ projection, projectAndValidatePortfolio input = .ok projection) ↔
      validateFinalRanges input ranges projection.roundedDeltas (portfolioCaps input) metrics.1
        metrics.2.1 metrics.2.2 ∅ = .ok () := by
    rw [hproject]
    constructor
    · rintro ⟨_, hok⟩
      obtain ⟨_, hpassed, -⟩ := of_bind hok
      exact hpassed
    · intro hpassed
      exact ⟨projection, by rw [hpassed]; rfl⟩
  rw [hreturns, hvalidated]
  classical
  constructor
  · rintro hsmall asset ⟨hleft, hlarger⟩
    refine hsmall asset hleft.stagedDelta_eq.1 ?_
    rwa [prunedDelta_eq, if_pos hleft]
  · intro hnone asset _ hlarger
    rw [prunedDelta_eq] at hlarger
    split at hlarger
    · rename_i hleft
      exact hnone asset ⟨hleft, hlarger⟩
    · rw [abs_zero] at hlarger
      exact absurd hlarger (not_lt.mpr (abs_nonneg _))

end

/-- One asset, far above its cap, with a target on the other side. -/
def oversizedPortfolio (target : ℚ) : PortfolioProjectionInput ℚ where
  currentEquity := 1000
  curveLeverage := 10
  globalRiskScale := 1 / 10
  maxSingleAssetEquityPct := 8 / 1000
  maxNetEquityPct := 1
  filledPositions := ExtTreeMap.ofList [("BTC", 10)] compare
  filledPositionStateComplete := true
  acknowledgedOpenOrders := []
  openOrderStateComplete := true
  unconstrainedTargets := ExtTreeMap.ofList [("BTC", target)] compare
  marketRules := ExtTreeMap.ofList [("BTC", ⟨1, 1, 1⟩)] compare

theorem not_filledWithinCaps_oversized (target : ℚ) :
    ¬ FilledWithinCaps (oversizedPortfolio target) := by
  intro h
  have hasset := h.asset "BTC" 10 rfl
  revert hasset
  show ¬ |(10 : ℚ)| ≤ 1000 * (8 / 1000)
  norm_num

theorem marksAboveTick_oversized (target : ℚ) : MarksAboveTick (oversizedPortfolio target) := by
  intro asset _ rules hget
  have hentry : (asset, rules) ∈ [("BTC", (⟨1, 1, 1⟩ : MarketRules ℚ))] := mem_of_getElem?_ofList hget
  rw [List.mem_singleton, Prod.mk.injEq] at hentry
  rw [hentry.2]

theorem recovery_ok_iff_exit :
    (∃ projection, projectAndValidatePortfolio (oversizedPortfolio 0) = .ok projection) ↔
      ∀ asset, ¬ LeavesFlip (oversizedPortfolio 0) asset :=
  recovery_ok_iff (by decide +kernel) nofun (marksAboveTick_oversized 0)
    (not_filledWithinCaps_oversized 0)

/-- A target on the other side, at half the size of the position, is refused. -/
theorem recovery_refused :
    ¬ ∀ input : PortfolioProjectionInput ℚ, validateInput input = .ok () → NoOpenOrders input →
      MarksAboveTick input → ¬ FilledWithinCaps input →
        ∃ projection, projectAndValidatePortfolio input = .ok projection := by
  intro h
  obtain ⟨projection, hprojection⟩ := h (oversizedPortfolio (-5)) (by decide +kernel) nofun
    (marksAboveTick_oversized (-5)) (not_filledWithinCaps_oversized (-5))
  have hrefused : (projectAndValidatePortfolio (oversizedPortfolio (-5))).isOk = false := by
    decide +kernel
  rw [hprojection] at hrefused
  cases hrefused

/-- The constrained target of an asset closes its position or leaves a smaller one. -/
def IsReduction (input : PortfolioProjectionInput ℚ) (asset : String) : Prop :=
  constrainedTarget input asset = 0 ∨
    0 < constrainedTarget input asset * filledOf input asset ∧
      |constrainedTarget input asset| < |filledOf input asset|

instance (input : PortfolioProjectionInput ℚ) (asset : String) :
    Decidable (IsReduction input asset) :=
  inferInstanceAs (Decidable (_ ∨ _))

def reductionDelta (input : PortfolioProjectionInput ℚ) (asset : String) : ℚ :=
  if IsReduction input asset then requestedDelta input asset else 0

section

variable {input : PortfolioProjectionInput ℚ} {asset : String}

theorem abs_add_le_of_isReduction (hvalid : ValidInput input) (hsells : SellsPriced input)
    (h : IsReduction input asset) :
    |filledOf input asset + requestedDelta input asset| ≤ |filledOf input asset| := by
  by_cases hasset : asset ∈ assetsOf input
  · obtain ⟨rules, hget, hmark, htick, hstep⟩ := hvalid.rules asset hasset
    have hlots := lotsOf_between htick hstep hmark
      (constrainedTarget input asset - filledOf input asset) fun hsell => hsells asset hasset (sub_neg.mp hsell) rules hget
    have hrequested : requestedDelta input asset =
        lotsOf rules (constrainedTarget input asset - filledOf input asset) := by
      unfold requestedDelta
      rw [hget]
    rw [← hrequested] at hlots
    -- The target lies between zero and the position.
    rcases le_total 0 (filledOf input asset) with hlong | hshort
    · have htarget : 0 ≤ constrainedTarget input asset ∧
          constrainedTarget input asset ≤ filledOf input asset := by
        rcases h with hzero | ⟨hsame, hsmaller⟩
        · rw [hzero]
          exact ⟨le_rfl, hlong⟩
        · have hpositive : 0 < constrainedTarget input asset := pos_of_mul_pos_left hsame hlong
          rw [abs_of_pos hpositive, abs_of_nonneg hlong] at hsmaller
          exact ⟨hpositive.le, hsmaller.le⟩
      obtain ⟨hlow, hhigh⟩ := hlots.2 (sub_nonpos.mpr htarget.2)
      rw [abs_of_nonneg hlong, abs_of_nonneg (by linarith)]
      linarith
    · have htarget : constrainedTarget input asset ≤ 0 ∧
          filledOf input asset ≤ constrainedTarget input asset := by
        rcases h with hzero | ⟨hsame, hsmaller⟩
        · rw [hzero]
          exact ⟨le_rfl, hshort⟩
        · have hnegative : constrainedTarget input asset < 0 := neg_of_mul_pos_left hsame hshort
          rw [abs_of_neg hnegative, abs_of_nonpos hshort] at hsmaller
          exact ⟨hnegative.le, by linarith⟩
      obtain ⟨hlow, hhigh⟩ := hlots.1 (sub_nonneg.mpr htarget.2)
      rw [abs_of_nonpos hshort, abs_of_nonpos (by linarith)]
      linarith
  · rw [requestedDelta_of_not_mem hvalid hasset, add_zero]

/-- **Exits and reductions.**  From filled positions within the caps the projection returns.  It
contains a reduction exactly when the whole transition respects the caps or staging leaves the
reduction. -/
theorem reductions_kept_iff (hvalidated : validateInput input = .ok ()) (hopen : NoOpenOrders input)
    (hsells : SellsPriced input) (hfilled : FilledWithinCaps input) :
    ∃ projection, projectAndValidatePortfolio input = .ok projection ∧
      ∀ asset, IsReduction input asset → requestedDelta input asset ≠ 0 →
        (valueAt projection.roundedDeltas asset = requestedDelta input asset ↔
          WithinCaps input (requestedDelta input) ∨
            ∃ sells, OnSide sells (requestedDelta input asset) ∧
              fromOn (fun asset => |stagedDelta input (requestedDelta input) asset|)
                (sideOf input sells (stagedDelta input (requestedDelta input))) asset ≤
                roomFor input sells) := by
  have hvalid := validInput_of_validateInput hvalidated
  obtain ⟨projection, ranges, metrics, -, hdeltas, hwithin, hranges, hmetrics, hproject⟩ :=
    projectAndValidatePortfolio_of_noOpenOrders hvalidated hopen hsells
  have hcaps : WithinCaps input (finalDelta input) := by
    by_cases hwhole : WithinCaps input (requestedDelta input)
    · have hfinal : finalDelta input = requestedDelta input := if_pos hwhole
      rwa [hfinal]
    · have hfinal : finalDelta input =
          prunedDelta input (stagedDelta input (requestedDelta input)) := if_neg hwhole
      rw [hfinal]
      exact hfilled.withinCaps hvalid (fun asset _ => abs_add_prunedDelta_le) peak_prunedDelta_le
  refine ⟨projection, ?_, fun asset hreduction hnonzero => ?_⟩
  · rw [hproject, validateFinalRanges_of_withinCaps hcaps hdeltas hranges hmetrics]
    rfl
  · have hasset : asset ∈ assetsOf input := by
      by_contra hout
      exact hnonzero (requestedDelta_of_not_mem hvalid hout)
    have hstaged : stagedDelta input (requestedDelta input) asset = requestedDelta input asset :=
      if_pos (abs_add_le_of_isReduction hvalid hsells hreduction)
    have hleft : Left input asset ↔ ∃ sells, OnSide sells (requestedDelta input asset) ∧
        fromOn (fun asset => |stagedDelta input (requestedDelta input) asset|)
          (sideOf input sells (stagedDelta input (requestedDelta input))) asset ≤
          roomFor input sells := by
      unfold Left
      refine exists_congr fun sells => ?_
      rw [mem_keptOn, hstaged]
      simp only [hasset, true_and]
    rw [hdeltas asset hasset, ← hleft]
    classical
    by_cases hwhole : WithinCaps input (requestedDelta input)
    · have hfinal : finalDelta input = requestedDelta input := if_pos hwhole
      rw [hfinal]
      exact iff_of_true rfl (.inl hwhole)
    · have hfinal : finalDelta input =
          prunedDelta input (stagedDelta input (requestedDelta input)) := if_neg hwhole
      rw [hfinal, prunedDelta_eq]
      split
      · rename_i hkept
        exact iff_of_true rfl (.inr hkept)
      · rename_i hremoved
        exact iff_of_false hnonzero.symm (not_or.mpr ⟨hwhole, hremoved⟩)

end

/-- A hedged book that is to close its short side while another asset is bought. -/
def hedgedPortfolio : PortfolioProjectionInput ℚ where
  currentEquity := 1000
  curveLeverage := 1 / 5
  globalRiskScale := 1 / 10
  maxSingleAssetEquityPct := 1 / 10
  maxNetEquityPct := 2 / 100
  filledPositions := ExtTreeMap.ofList [("BTC", 10), ("ETH", -4)] compare
  filledPositionStateComplete := true
  acknowledgedOpenOrders := []
  openOrderStateComplete := true
  unconstrainedTargets := ExtTreeMap.ofList [("BTC", 10), ("SOL", 9)] compare
  marketRules :=
    ExtTreeMap.ofList [("BTC", ⟨1, 1, 1⟩), ("ETH", ⟨1, 1, 1⟩), ("SOL", ⟨1, 1, 1⟩)] compare

theorem filledWithinCaps_hedged : FilledWithinCaps hedgedPortfolio :=
  (filledViolation_eq_false_iff _).mp (by decide +kernel)

theorem sellsPriced_hedged : SellsPriced hedgedPortfolio := by
  intro asset _ _ rules hget
  have hentry : (asset, rules) ∈ [("BTC", (⟨1, 1, 1⟩ : MarketRules ℚ)), ("ETH", ⟨1, 1, 1⟩),
      ("SOL", ⟨1, 1, 1⟩)] := mem_of_getElem?_ofList hget
  simp only [List.mem_cons, List.not_mem_nil, or_false, Prod.mk.injEq] at hentry
  rcases hentry with ⟨-, rfl⟩ | ⟨-, rfl⟩ | ⟨-, rfl⟩
  · exact le_rfl
  · exact le_rfl
  · exact le_rfl

theorem reductions_kept_iff_hedged :
    ∃ projection, projectAndValidatePortfolio hedgedPortfolio = .ok projection ∧
      (valueAt projection.roundedDeltas "ETH" = requestedDelta hedgedPortfolio "ETH" ↔
        WithinCaps hedgedPortfolio (requestedDelta hedgedPortfolio) ∨
          ∃ sells, OnSide sells (requestedDelta hedgedPortfolio "ETH") ∧
            fromOn (fun asset => |stagedDelta hedgedPortfolio (requestedDelta hedgedPortfolio) asset|)
              (sideOf hedgedPortfolio sells
                (stagedDelta hedgedPortfolio (requestedDelta hedgedPortfolio))) "ETH" ≤
              roomFor hedgedPortfolio sells) := by
  have hopen : NoOpenOrders hedgedPortfolio := nofun
  obtain ⟨projection, hprojection, hkept⟩ :=
    reductions_kept_iff (by decide +kernel) hopen sellsPriced_hedged filledWithinCaps_hedged
  exact ⟨projection, hprojection, hkept "ETH" (by decide +kernel) (by decide +kernel)⟩

/-- The exit of the short side is left out, although it keeps to the caps alone. -/
theorem exit_suppressed :
    ¬ ∀ input : PortfolioProjectionInput ℚ, validateInput input = .ok () → NoOpenOrders input →
      FilledWithinCaps input → WithinCaps input (reductionDelta input) →
        ∃ projection, projectAndValidatePortfolio input = .ok projection ∧
          ∀ asset, IsReduction input asset → requestedDelta input asset ≠ 0 →
            valueAt projection.roundedDeltas asset = requestedDelta input asset := by
  intro h
  obtain ⟨projection, hprojection, hkept⟩ := h hedgedPortfolio (by decide +kernel) nofun
    filledWithinCaps_hedged (by decide +kernel)
  have hexit := hkept "ETH" (by decide +kernel) (by decide +kernel)
  have hleftOut : (projectAndValidatePortfolio hedgedPortfolio).toOption.map
      (fun projection => valueAt projection.roundedDeltas "ETH") = some (0 : ℚ) := by
    decide +kernel
  have hrequested : requestedDelta hedgedPortfolio "ETH" = 4 := by decide +kernel
  rw [hrequested] at hexit
  rw [hprojection] at hleftOut
  have hzero : valueAt projection.roundedDeltas "ETH" = 0 := Option.some.inj hleftOut
  rw [hexit] at hzero
  norm_num at hzero

end CopyTrade.Analysis
