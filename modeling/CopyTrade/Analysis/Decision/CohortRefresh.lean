import CopyTrade.Analysis.Decision.CohortEngine

/-!
# Evaluating the same input again

The second of two calls with one input finds the frame and the target of the first as the last ones.
The flags derived of the two, short covering and unwound additions, may change with that, and so
does an impulse whose frame was dropped.
-/

namespace CopyTrade.Analysis

open Foundation Model Model.Cohort
open Model.ExactDecimal Model.Cohort.VeryProfitableCohortEngine
open Std (ExtTreeMap)

variable {input : CohortSignalInput ℚ} {engine next : VeryProfitableCohortEngine ℚ}
  {before after : Observation ℚ} {record : CohortIndicatorRecord ℚ} {pressure : ℚ}

/-- The second call emits the targets of the first as an immaterial refresh, for the same reasons. -/
def Repeats (input : CohortSignalInput ℚ) (next : VeryProfitableCohortEngine ℚ)
    (record : CohortIndicatorRecord ℚ) : Prop :=
  ∃ again last, evaluate input next = (.ok again, last) ∧
    again.existingWalletSourceTarget = record.existingWalletSourceTarget ∧
    again.veryProfitableCohortTarget = record.veryProfitableCohortTarget ∧
    again.sourceTarget = record.sourceTarget ∧
    again.reasons.erase .immaterialRefresh = record.reasons.erase .immaterialRefresh ∧
    again.targetVersion = record.targetVersion ∧ again.independentExecutionRoot = false

/-- The flags that are derived are no others the second time, or do not matter. -/
structure FlagsAgree (input : CohortSignalInput ℚ) (engine : VeryProfitableCohortEngine ℚ)
    (before : Observation ℚ) : Prop where
  short_covering : input.riskFlags.shortCoveringNotInitiation = true ∨
    derivedShortCovering before.previousFrame before.current = false ∨
    0 ≤ input.aggregate.cohortPosition
  unwound : input.riskFlags.recentAdditionsUnwound = true ∨
    derivedRecentAdditionsUnwound engine.targets[input.aggregate.asset]? before.impulse
        input.rebalanceTolerance =
      unwinds before.impulse input.rebalanceTolerance
        (Decimal.signum input.aggregate.cohortPosition)

/-- What the second call finds leads to the same decision: the flags agree, and where the record has
changed the impulse, the reasons are the same and the change is immaterial. -/
def RefreshKeeps (input : CohortSignalInput ℚ) (engine next : VeryProfitableCohortEngine ℚ) : Prop :=
  ∀ before after pressure, look input engine = .ok before → look input next = .ok after →
    twapPressure input = .ok pressure →
    if after.impulse = before.impulse then FlagsAgree input engine before
    else ∀ target, next.targets[input.aggregate.asset]? = some target →
      (assessed input pressure after (some target)).reasons =
          (assessed input pressure before engine.targets[input.aggregate.asset]?).reasons ∧
        ¬ material input.rebalanceTolerance target
          (assessed input pressure after (some target)).proposed

theorem eq_of_eqv {a b : AggregateFrame ℚ} (h : a.eqv b = true) : a = b := by
  obtain ⟨time, net, gross⟩ := a
  simp only [AggregateFrame.eqv, Bool.and_eq_true, beq_iff_eq, eqv_iff_eq] at h
  obtain ⟨⟨rfl, rfl⟩, rfl⟩ := h
  rfl

theorem look_again (hword : input.aggregate.observedAtMs ≤ maxU64)
    (hlook : look input engine = .ok before) (settlement : Settlement ℚ) :
    ∃ after, look input (putTarget input.aggregate.asset settlement
        (recorded input.aggregate.asset before.current engine)) = .ok after ∧
      after.previousFrame = some before.current ∧ after.current = before.current := by
  obtain ⟨current, hcurrent, hobserve⟩ := of_bind hlook
  have hsame := current_of_observe hobserve
  have hframes : (putTarget input.aggregate.asset settlement
      (recorded input.aggregate.asset before.current engine)).frames input.aggregate.asset =
        recordFrame (engine.frames input.aggregate.asset) before.current := by
    have hput (engine : VeryProfitableCohortEngine ℚ) : (putTarget input.aggregate.asset settlement
        engine).frames input.aggregate.asset = engine.frames input.aggregate.asset := by
      unfold putTarget
      split <;> rfl
    rw [hput, frames_recorded, if_pos rfl]
  rw [← observedAt_of_look hlook] at hword
  obtain ⟨last, hlast, heqv⟩ := getLast?_recordFrame (engine.frames input.aggregate.asset) hword
  rw [eq_of_eqv heqv] at hlast
  have horder : checkOrder current
      (recordFrame (engine.frames input.aggregate.asset) before.current).getLast? = .ok () := by
    rw [hlast, hsame]
    simp [checkOrder, AggregateFrame.eqv]
  obtain ⟨after, hafter, hprevious⟩ := exists_observe input.maximumPositionChangeAgeMs horder
  refine ⟨after, ?_, hprevious.trans hlast, (current_of_observe hafter).trans hsame.symm⟩
  unfold look
  rw [hcurrent, ok_bind, hframes]
  exact hafter

variable {proposed : MaterialTargetState ℚ} {settlement : Settlement ℚ}

variable {tolerance : ℚ} {previousTarget : Option (MaterialTargetState ℚ)}

theorem target_after (current : AggregateFrame ℚ) (asset : String)
    (h : settle engine.targets[asset]? proposed tolerance = .ok settlement) :
    (putTarget asset settlement (recorded asset current engine)).targets[asset]? =
      some settlement.target := by
  unfold putTarget
  rcases settle_cases h with ⟨-, rfl⟩ | ⟨previous, hprevious, ⟨-, rfl⟩ | ⟨-, rfl⟩⟩
  · rw [if_pos rfl, getElem?_insert_eq, if_pos rfl]
  · rw [if_pos rfl, getElem?_insert_eq, if_pos rfl]
  · rw [if_neg (by simp)]
    exact hprevious

theorem direction_of_settle (h : settle previousTarget proposed tolerance = .ok settlement) :
    settlement.target.cohortDirection = proposed.cohortDirection := by
  rcases settle_cases h with ⟨-, rfl⟩ | ⟨previous, -, ⟨-, rfl⟩ | ⟨himmaterial, rfl⟩⟩
  · rfl
  · rfl
  · by_contra hne
    exact himmaterial (.inl hne)

theorem not_material_again (htolerance : 0 ≤ tolerance)
    (h : settle previousTarget proposed tolerance = .ok settlement) :
    ¬ material tolerance settlement.target proposed := by
  have hself (version : ℕ) : ¬ material tolerance { proposed with version } proposed := by
    unfold material MaterialTargetState.pairs
    simp [not_lt.mpr htolerance]
  rcases settle_cases h with ⟨-, rfl⟩ | ⟨previous, -, ⟨-, rfl⟩ | ⟨himmaterial, rfl⟩⟩
  · exact hself proposed.version
  · exact hself (previous.version + 1)
  · exact himmaterial

theorem not_mem_reasons (previousTarget : Option (MaterialTargetState ℚ)) :
    .immaterialRefresh ∉ (assessed input pressure before previousTarget).reasons := by
  unfold assessed
  split
  · rw [Finset.mem_singleton]
    split <;> simp
  · intro h
    exact (ne_of_mem_refusals h).2.2 rfl

theorem erase_reasons (previousTarget : Option (MaterialTargetState ℚ)) (settlement : Settlement ℚ)
    (combined : ℚ) :
    (indicatorRecord input before (assessed input pressure before previousTarget) settlement
        combined).reasons.erase .immaterialRefresh =
      (assessed input pressure before previousTarget).reasons := by
  unfold indicatorRecord
  split
  · exact Finset.erase_eq_of_notMem (not_mem_reasons previousTarget)
  · exact Finset.erase_insert (not_mem_reasons previousTarget)

theorem refusals_eq_iff {impulse score : ℚ} {covering covering' unwound unwound' : Bool} :
    refusals input impulse score covering unwound = refusals input impulse score covering' unwound' ↔
      (input.riskFlags.shortCoveringNotInitiation = true ∨ covering = covering' ∨
        0 ≤ input.aggregate.cohortPosition) ∧
      (input.riskFlags.recentAdditionsUnwound = true ∨ unwound = unwound') := by
  have hcovering (c u : Bool) : CohortDecisionReason.shortCovering ∈ refusals input impulse score c u ↔
      ((input.riskFlags.shortCoveringNotInitiation || c) &&
        Decimal.lt input.aggregate.cohortPosition Decimal.zero) = true := by
    simp [refusals]
  have hunwound (c u : Bool) : CohortDecisionReason.recentAdditionsUnwound ∈
      refusals input impulse score c u ↔
        (input.riskFlags.recentAdditionsUnwound || u) = true := by
    simp [refusals]
  constructor
  · intro h
    have hc := hcovering covering unwound
    have hu := hunwound covering unwound
    rw [h, hcovering, Bool.coe_iff_coe] at hc
    rw [h, hunwound, Bool.coe_iff_coe] at hu
    constructor
    · by_cases hside : 0 ≤ input.aggregate.cohortPosition
      · exact .inr (.inr hside)
      · have hlt : Decimal.lt input.aggregate.cohortPosition Decimal.zero = true := by
          simpa using hside
        rw [hlt, Bool.and_true, Bool.and_true] at hc
        cases hflag : input.riskFlags.shortCoveringNotInitiation with
        | true => exact .inl rfl
        | false =>
          rw [hflag, Bool.false_or, Bool.false_or] at hc
          exact .inr (.inl hc.symm)
    · cases hflag : input.riskFlags.recentAdditionsUnwound with
      | true => exact .inl rfl
      | false =>
        rw [hflag, Bool.false_or, Bool.false_or] at hu
        exact .inr hu.symm
  · rintro ⟨hc, hu⟩
    have hcovered : ((input.riskFlags.shortCoveringNotInitiation || covering) &&
          Decimal.lt input.aggregate.cohortPosition Decimal.zero) =
        ((input.riskFlags.shortCoveringNotInitiation || covering') &&
          Decimal.lt input.aggregate.cohortPosition Decimal.zero) := by
      rcases hc with hflag | rfl | hside
      · simp [hflag]
      · rfl
      · have hlt : Decimal.lt input.aggregate.cohortPosition Decimal.zero = false := by
          simpa [Decimal.lt] using hside
        rw [hlt, Bool.and_false, Bool.and_false]
    have hunwinds : (input.riskFlags.recentAdditionsUnwound || unwound) =
        (input.riskFlags.recentAdditionsUnwound || unwound') := by
      rcases hu with hflag | rfl
      · simp [hflag]
      · rfl
    unfold refusals
    simp only [hcovered, hunwinds]

theorem reasons_eq_iff {first second : Option (MaterialTargetState ℚ)}
    (himpulse : after.impulse = before.impulse) :
    (assessed input pressure after second).reasons = (assessed input pressure before first).reasons ↔
      refused input pressure after second = refused input pressure before first := by
  have hdirection : directionOf input pressure after = directionOf input pressure before := by
    unfold directionOf
    rw [himpulse]
  have hne (observation : Observation ℚ) (target : Option (MaterialTargetState ℚ)) (direction : ℤ) :
      ({if 0 < direction then .eligibleLong else .eligibleShort} : Finset CohortDecisionReason) ≠
        refused input pressure observation target := by
    intro h
    have hmem := Finset.mem_singleton_self
      (if 0 < direction then CohortDecisionReason.eligibleLong else .eligibleShort)
    rw [h] at hmem
    split at hmem
    · exact (ne_of_mem_refusals hmem).1 rfl
    · exact (ne_of_mem_refusals hmem).2.1 rfl
  simp only [assessed, hdirection]
  by_cases hsecond : refused input pressure after second = ∅
  · by_cases hfirst : refused input pressure before first = ∅
    · simp [hsecond, hfirst]
    · rw [if_pos hsecond, if_neg hfirst, hsecond]
      exact iff_of_false (hne before first _) (Ne.symm hfirst)
  · by_cases hfirst : refused input pressure before first = ∅
    · rw [if_neg hsecond, if_pos hfirst, hfirst]
      exact iff_of_false (hne after second _).symm hsecond
    · rw [if_neg hsecond, if_neg hfirst]

/-- **A refresh repeats the decision** exactly where what the second call finds leads to it. -/
theorem refresh_repeats_iff (input : CohortSignalInput ℚ) (engine : VeryProfitableCohortEngine ℚ)
    (hword : input.aggregate.observedAtMs ≤ maxU64) {record : CohortIndicatorRecord ℚ}
    {next : VeryProfitableCohortEngine ℚ} (h : evaluate input engine = (.ok record, next)) :
    Repeats input next record ↔ RefreshKeeps input engine next := by
  obtain ⟨before, pressure, settlement, hlook, hpressure, hsettle, hrecord, hnext⟩ :=
    evaluate_eq_ok_iff.mp h
  obtain ⟨after, hafter, hprevious, hcurrent⟩ := look_again hword hlook settlement
  have htarget := target_after before.current input.aggregate.asset hsettle
  rw [← hnext] at hafter htarget
  -- the second call repeats the first one where it gives the same reasons and changes nothing
  have hrepeats : Repeats input next record ↔
      (assessed input pressure after (some settlement.target)).reasons =
          (assessed input pressure before engine.targets[input.aggregate.asset]?).reasons ∧
        ¬ material input.rebalanceTolerance settlement.target
          (assessed input pressure after (some settlement.target)).proposed := by
    constructor
    · rintro ⟨again, last, hagain, -, -, -, hreasons, hversion, -⟩
      obtain ⟨seen, pressed, settled, hseen, hpressed, hsettled, hrecorded, -⟩ :=
        evaluate_eq_ok_iff.mp hagain
      cases hafter.symm.trans hseen
      cases hpressure.symm.trans hpressed
      rw [htarget] at hsettled hrecorded
      rw [hrecorded, hrecord, erase_reasons, erase_reasons] at hreasons
      rcases settle_cases hsettled with ⟨hnone, -⟩ | ⟨previous, hsome, ⟨-, rfl⟩ | ⟨himmaterial, rfl⟩⟩
      · cases hnone
      · cases hsome
        rw [hrecorded, hrecord] at hversion
        exact absurd hversion (Nat.succ_ne_self _)
      · cases hsome
        exact ⟨hreasons, himmaterial⟩
    · rintro ⟨hreasons, himmaterial⟩
      have hunchanged : materialChange settlement.target
          (assessed input pressure after (some settlement.target)).proposed
          input.rebalanceTolerance = .ok false := materialChange_eq_iff.mpr (by simp [himmaterial])
      have hsettled : settle (some settlement.target)
          (assessed input pressure after (some settlement.target)).proposed
          input.rebalanceTolerance = .ok ⟨settlement.target, false, false⟩ := by
        simp only [settle, hunchanged, ok_bind]
        rfl
      rw [← htarget] at hsettled
      refine ⟨_, _, evaluate_eq_ok_iff.mpr ⟨after, pressure, _, hafter, hpressure, hsettled, rfl, rfl⟩,
        ?_⟩
      rw [hrecord, erase_reasons, erase_reasons, htarget]
      exact ⟨rfl, rfl, rfl, hreasons, rfl, rfl⟩
  have hflags (himpulse : after.impulse = before.impulse) :
      ((assessed input pressure after (some settlement.target)).reasons =
          (assessed input pressure before engine.targets[input.aggregate.asset]?).reasons ∧
        ¬ material input.rebalanceTolerance settlement.target
          (assessed input pressure after (some settlement.target)).proposed) ↔
      FlagsAgree input engine before := by
    have hcovering : derivedShortCovering after.previousFrame after.current = false := by
      simp [derivedShortCovering, hprevious, hcurrent, Decimal.lt]
    have hunwound (impulse : ℚ) : derivedRecentAdditionsUnwound (some settlement.target) impulse
        input.rebalanceTolerance = unwinds impulse input.rebalanceTolerance
          (Decimal.signum input.aggregate.cohortPosition) := by
      rw [derivedRecentAdditionsUnwound, Option.any_some, direction_of_settle hsettle]
      rfl
    have hrefused : refused input pressure after (some settlement.target) =
        refused input pressure before engine.targets[input.aggregate.asset]? ↔
          FlagsAgree input engine before := by
      unfold refused
      rw [hcovering, hunwound, himpulse, refusals_eq_iff]
      constructor
      · rintro ⟨hc, hu⟩
        exact ⟨hc.imp_right (Or.imp_left Eq.symm), hu.imp_right Eq.symm⟩
      · rintro ⟨hc, hu⟩
        exact ⟨hc.imp_right (Or.imp_left Eq.symm), hu.imp_right Eq.symm⟩
    rw [reasons_eq_iff himpulse, hrefused, and_iff_left_iff_imp]
    intro hagree
    have hproposed : (assessed input pressure after (some settlement.target)).proposed =
        (assessed input pressure before engine.targets[input.aggregate.asset]?).proposed := by
      have hadmitted : admitted input pressure after (some settlement.target) =
          admitted input pressure before engine.targets[input.aggregate.asset]? := by
        unfold admitted
        rw [hrefused.mpr hagree, himpulse]
      unfold assessed
      rw [hadmitted, himpulse]
    rw [hproposed]
    exact not_material_again (bounds_of_look hlook).2 hsettle
  rw [hrepeats]
  unfold RefreshKeeps
  constructor
  · intro hkeeps seen seenAgain pressed hseen hseenAgain hpressed
    cases hlook.symm.trans hseen
    cases hafter.symm.trans hseenAgain
    cases hpressure.symm.trans hpressed
    split
    · rename_i himpulse
      exact (hflags himpulse).mp hkeeps
    · intro target hsome
      cases htarget.symm.trans hsome
      exact hkeeps
  · intro hkeeps
    have hcondition := hkeeps before after pressure hlook hafter hpressure
    split at hcondition
    · rename_i himpulse
      exact (hflags himpulse).mpr hcondition
    · exact hcondition settlement.target htarget

def coveredAggregate : CohortAssetAggregate ℚ :=
  { longAggregate "BTC" 300003 with
    longNotional := 0
    shortNotional := 1000
    weightedLongNotional := 0
    weightedShortNotional := 1000
    longTraderCount := 0
    shortTraderCount := 1
    notionalBias := -1
    traderCountBias := -1
    cohortPosition := -1
    weightedRealizedQuality := -1 }

def coveringSignal : CohortSignalInput ℚ :=
  { sampleSignal coveredAggregate with
    filteredWalletConsensus := -1
    marketConfirmation := -1 }

def coveredEngine : VeryProfitableCohortEngine ℚ :=
  ⟨ExtTreeMap.ofList [("BTC", [⟨1, 0, 1000⟩, ⟨300002, -2000, 2000⟩])] compare, ∅⟩

theorem covering_not_repeated : ∃ record next,
    evaluate coveringSignal coveredEngine = (.ok record, next) ∧
      ¬ Repeats coveringSignal next record := by
  have hfirst : ((evaluate coveringSignal coveredEngine).1.toOption.map
      CohortIndicatorRecord.reasons) = some {.shortCovering} := by
    decide +kernel
  have hsecond : ((evaluate coveringSignal
      (evaluate coveringSignal coveredEngine).2).1.toOption.map
        CohortIndicatorRecord.reasons) = some {.eligibleShort} := by
    decide +kernel
  rcases hrun : evaluate coveringSignal coveredEngine with ⟨error | record, next⟩
  · rw [hrun] at hfirst
    cases hfirst
  · refine ⟨record, next, rfl, ?_⟩
    rintro ⟨again, last, hagain, -, -, -, hreasons, -, -⟩
    rw [hrun] at hfirst hsecond
    rw [hagain] at hsecond
    have hrefused : record.reasons = {.shortCovering} := Option.some.inj hfirst
    have hadmitted : again.reasons = {.eligibleShort} := Option.some.inj hsecond
    rw [hrefused, hadmitted] at hreasons
    revert hreasons
    decide

theorem short_covering_admitted_again :
    ¬ ∀ (engine : VeryProfitableCohortEngine ℚ) (input : CohortSignalInput ℚ),
      input.aggregate.observedAtMs ≤ maxU64 → ∀ record next,
        evaluate input engine = (.ok record, next) → Repeats input next record := by
  intro h
  obtain ⟨record, next, hrun, hnot⟩ := covering_not_repeated
  exact hnot (h _ _ (by decide) record next hrun)

theorem refresh_repeats_covering : ∃ record next,
    evaluate coveringSignal coveredEngine = (.ok record, next) ∧
      ¬ RefreshKeeps coveringSignal coveredEngine next := by
  obtain ⟨record, next, hrun, hnot⟩ := covering_not_repeated
  refine ⟨record, next, hrun, fun hkeeps => hnot ?_⟩
  exact (refresh_repeats_iff coveringSignal coveredEngine (by decide) hrun).mpr hkeeps

end CopyTrade.Analysis
