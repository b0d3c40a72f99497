import CopyTrade.Foundation.Maps
import CopyTrade.Model.Core.Cohort

/-!
# The cohort's records of an observer

What `LiveShadowEngine` of crates/copytrade-observer/src/live_shadow.rs keeps of the very profitable
cohort: its engine and one record for every asset that `apply_very_profitable_cohort` looks at.  At
the end of a window the records are compacted, and only the compaction is written.
-/

namespace CopyTrade.Model.Cohort

open Foundation
open Std (ExtTreeMap ExtTreeSet)

/-- The fields the records read. -/
structure PreparedVeryProfitableLayer (D : Type) where
  resolution : CohortMembershipResolution
  qualifiedMembers : ExtTreeSet String
  activeTwaps : ExtTreeMap String (ActiveTwapContext D)

structure CohortRecords (D : Type) where
  engine : VeryProfitableCohortEngine D
  records : List (CohortIndicatorRecord D)

/-- The reasons the observer gives where it has nothing to evaluate. -/
def runtimeRejections : Finset CohortDecisionReason :=
  {.authoritativeWalletHydrationFailed, .missingMarketPrice, .missingAtr, .missingExpectedMove,
    .positionAggregationFailed, .filteredWalletConsensusFailed, .signalEvaluationFailed}

structure CohortDecisionCompactSummary where
  observedRecordCount : ℕ
  independentExecutionRootCount : ℕ
  reasonOccurrenceCounts : CohortDecisionReason → ℕ
  attributionOccurrenceCounts : AttributionTag → ℕ

variable {D : Type} [Decimal D]

structure CohortRejection (D : Type) where
  layer : PreparedVeryProfitableLayer D
  asset : String
  reason : { reason // reason ∈ runtimeRejections }
  aggregate : Option (CohortAssetAggregate D)
  existingWalletConsensus : D
  technicalTarget : D
  sourceBudget : D
  costEstimateFraction : D

def rejectionRecord (engine : VeryProfitableCohortEngine D) (rejection : CohortRejection D) :
    Option (CohortIndicatorRecord D) := do
  let sourceTarget ← Decimal.checkedMul rejection.sourceBudget rejection.existingWalletConsensus
  let combinedTarget ← Decimal.checkedAdd sourceTarget rejection.technicalTarget
  let resolution := rejection.layer.resolution
  let activeTwap := rejection.layer.activeTwaps[rejection.asset]?
  let aggregate := rejection.aggregate
  pure
    { asset := rejection.asset
      cohortSnapshotTimestampMs := resolution.snapshotTimestampMs
      membershipSetHash := resolution.membershipSetHash
      walletCountBeforeFiltering := resolution.walletCountBeforeFiltering
      walletCountAfterFiltering := rejection.layer.qualifiedMembers.size
      overlapWithExisting := resolution.overlapWithExisting
      longNotional := aggregate.elim Decimal.zero (·.longNotional)
      shortNotional := aggregate.elim Decimal.zero (·.shortNotional)
      longTraderCount := aggregate.elim 0 (·.longTraderCount)
      shortTraderCount := aggregate.elim 0 (·.shortTraderCount)
      impulse5m := Decimal.zero
      impulse15m := Decimal.zero
      impulse1h := Decimal.zero
      activeTwapDirection := activeTwap.elim 0 (·.direction)
      activeTwapRemainingQuantity := activeTwap.elim Decimal.zero (·.remainingQuantity)
      weightedWalletQuality := aggregate.elim Decimal.zero (·.weightedRealizedQuality)
      dominantWalletPercentage := aggregate.elim Decimal.zero (·.dominantWalletPercentage)
      cohortScore := Decimal.zero
      chaseDistanceR := none
      costEstimateFraction := rejection.costEstimateFraction
      existingWalletSourceTarget := sourceTarget
      veryProfitableCohortTarget := Decimal.zero
      sourceTarget
      technicalTarget := rejection.technicalTarget
      combinedTarget
      targetVersion := engine.targets[rejection.asset]?.elim 0 (·.version)
      independentExecutionRoot := false
      reasons := {rejection.reason.1}
      attribution := classifyAttribution sourceTarget Decimal.zero rejection.technicalTarget }

namespace CohortRecords

def push (records : CohortRecords D) (record : Option (CohortIndicatorRecord D)) :
    CohortRecords D :=
  { records with records := records.records ++ record.toList }

/-- What the observer does with an asset. -/
inductive Call (D : Type)
  | signal (layer : PreparedVeryProfitableLayer D) (input : CohortSignalInput D)
  | reject (rejection : CohortRejection D)

/-- One round of `apply_very_profitable_cohort`.  An arithmetic failure ends it without a record,
and a panic ends the process. -/
def step (records : CohortRecords D) : Call D → CohortRecords D
  | .reject rejection => records.push (rejectionRecord records.engine rejection)
  | .signal layer input =>
    match VeryProfitableCohortEngine.evaluate input records.engine with
    | (.ok record, engine) =>
      let listed := Decimal.isZero record.sourceTarget ||
        (Decimal.checkedDiv record.sourceTarget input.sourceBudgetFraction).isSome
      { records with engine }.push (if listed then some record else none)
    | (.error .panicked, engine) => { records with engine }
    | (.error _, engine) => { records with engine }.push (rejectionRecord engine
        { layer
          asset := input.aggregate.asset
          reason := ⟨.signalEvaluationFailed, by decide⟩
          aggregate := some input.aggregate
          existingWalletConsensus := input.existingWalletSourceTarget
          technicalTarget := input.technicalTarget
          sourceBudget := input.sourceBudgetFraction
          costEstimateFraction := input.estimatedRoundTripCostFraction })

def isMaterial (record : CohortIndicatorRecord D) : Bool :=
  record.independentExecutionRoot || !Decimal.isZero record.veryProfitableCohortTarget ||
    decide (0 < record.targetVersion)

/-- The key of a record in the map of the material decisions or in that of the rejection classes. -/
inductive CompactionKey
  | material (asset : String) (targetVersion : ℕ)
  | rejectionClass (asset : String) (reasons : Finset CohortDecisionReason)
deriving DecidableEq

def compactionKey (record : CohortIndicatorRecord D) : CompactionKey :=
  if isMaterial record then .material record.asset record.targetVersion
  else .rejectionClass record.asset record.reasons

def compactionOrder (left right : CohortIndicatorRecord D) : Bool :=
  decide (left.cohortSnapshotTimestampMs < right.cohortSnapshotTimestampMs ∨
    left.cohortSnapshotTimestampMs = right.cohortSnapshotTimestampMs ∧
      (left.asset < right.asset ∨
        left.asset = right.asset ∧ left.targetVersion ≤ right.targetVersion))

/-- The two maps are one with the keys of both. -/
def compactCohortDecisionRecords (records : CohortRecords D) : List (CohortIndicatorRecord D) :=
  (lastByKey compactionKey records.records).mergeSort compactionOrder

def compactCohortDecisionSummary (records : CohortRecords D) : CohortDecisionCompactSummary where
  observedRecordCount := records.records.length
  independentExecutionRootCount :=
    (records.records.filter (·.independentExecutionRoot)).length
  reasonOccurrenceCounts reason := (records.records.filter (reason ∈ ·.reasons)).length
  attributionOccurrenceCounts tag := (records.records.filter (tag ∈ ·.attribution)).length

end CohortRecords

end CopyTrade.Model.Cohort
