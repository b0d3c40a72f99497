import CopyTrade.Model.Core.TargetState
import CopyTrade.Model.Observer.ShadowFill

/-!
# Decisions and planned actions

`construct_decision` and `construct_planned_actions` of crates/copytrade-core/src/decision.rs from
the allocation on.  What comes before (the consensus of the sources, the technical and the cohort
targets, the allocation to slots) computes in floating point; here its result is an input,
`AllocatedTargets`.
-/

namespace CopyTrade.Model

open Foundation
open Std (ExtTreeMap)

/-- What the strategy hands to a decision: the hashes of its identity, the market rules, the caps
and scales of the projection, the targets it wants, the targets the allocation admits, the execution
floor of every asset and the contributions to each target. -/
structure AllocatedTargets (D : Type) [Decimal D] where
  configHash : Hash
  riskPolicyHash : Hash
  snapshotSetId : Hash
  eligibilityHash : Hash
  marketSnapshotId : Hash
  currentEquity : D
  curveLeverage : D
  globalRiskScale : D
  maxSingleAssetEquityPct : D
  maxNetEquityPct : D
  marketRules : ExtTreeMap String (AcceptedRules D)
  unconstrainedTargets : ExtTreeMap String D
  admittedTargets : ExtTreeMap String D
  executionFloors : ExtTreeMap String (AssetExecutionFloor D)
  contributions : ExtTreeMap String (ExtTreeMap String D)

/-- The fields of a slot that are read after the decision. -/
structure MicroPositionSlot (D : Type) where
  admittedNotional : D
  filledNotional : D
  executionFloor : AssetExecutionFloor D

/-- The fields of a decision that are read after it. -/
structure DecisionRecord (D : Type) where
  decisionId : Hash
  decisionSequence : ℕ
  targetVersion : ℕ
  targetHash : Hash
  configHash : Hash
  riskPolicyHash : Hash
  snapshotSetId : Hash
  unconstrainedTargets : ExtTreeMap String D
  microSlots : ExtTreeMap String (MicroPositionSlot D)
  projection : PortfolioProjection D
  createdAtMono : ℕ

/-- `to_string()`, the derived `Debug`. -/
def IdentityError.text : IdentityError → String
  | .duplicateCandidate candidate => debugVariant "DuplicateCandidate" (quoted candidate)
  | .eligibilityMismatch => "EligibilityMismatch"
  | .invalidInput message => debugVariant "InvalidInput" (quoted message)
  | .arithmeticOverflow subject => debugVariant "ArithmeticOverflow" (quoted subject)

variable {D : Type} [Decimal D]

/-- The input of the projection: no order is open, and that is all of the open orders. -/
def AllocatedTargets.projectionInput (allocated : AllocatedTargets D)
    (filledPositions unconstrainedTargets : ExtTreeMap String D) : PortfolioProjectionInput D where
  currentEquity := allocated.currentEquity
  curveLeverage := allocated.curveLeverage
  globalRiskScale := allocated.globalRiskScale
  maxSingleAssetEquityPct := allocated.maxSingleAssetEquityPct
  maxNetEquityPct := allocated.maxNetEquityPct
  filledPositions
  filledPositionStateComplete := true
  acknowledgedOpenOrders := []
  openOrderStateComplete := true
  unconstrainedTargets
  marketRules := allocated.marketRules.map fun _ rules => rules.toMarketRules

def microSlots (allocated : AllocatedTargets D) (filledPositions : ExtTreeMap String D)
    (projection : PortfolioProjection D) : ExtTreeMap String (MicroPositionSlot D) :=
  allocated.executionFloors.map fun asset floor => {
    admittedNotional := projection.constrainedTargets[asset]?.getD Decimal.zero
    filledNotional := filledPositions[asset]?.getD Decimal.zero
    executionFloor := floor }

def constructDecision [Sha256] [DecimalNormalize D] (engineInstance : Bytes 16)
    (decisionSequence : ℕ) (allocated : AllocatedTargets D)
    (filledPositions : ExtTreeMap String D) (previousTarget : Option PreviousTargetState)
    (createdAtMono : ℕ) : Except String (DecisionRecord D) := do
  let projection ← (PortfolioRisk.projectAndValidatePortfolio
    (allocated.projectionInput filledPositions allocated.admittedTargets)).mapError
      fun violation => debugVariant "Risk" violation.text
  let (targetVersion, targetHash) ←
    (resolveTargetVersion previousTarget projection.constrainedTargets).mapError
      IdentityError.text
  pure {
    decisionId := deriveDecisionId {
      engineInstanceId := engineInstance
      decisionSequence := UInt64.ofNat decisionSequence
      configHash := allocated.configHash
      riskPolicyHash := allocated.riskPolicyHash
      snapshotSetId := allocated.snapshotSetId
      eligibilityHash := allocated.eligibilityHash
      marketSnapshotId := allocated.marketSnapshotId
      targetVersion := UInt64.ofNat targetVersion }
    decisionSequence
    targetVersion
    targetHash
    configHash := allocated.configHash
    riskPolicyHash := allocated.riskPolicyHash
    snapshotSetId := allocated.snapshotSetId
    unconstrainedTargets := allocated.unconstrainedTargets
    microSlots := microSlots allocated filledPositions projection
    projection
    createdAtMono }

def requiresReduceOnly (filledNotional plannedDelta destinationNotional : D) : Bool :=
  !Decimal.isZero filledNotional && !Decimal.isZero plannedDelta
    && Decimal.isSignPositive filledNotional != Decimal.isSignPositive plannedDelta
    && (Decimal.isZero destinationNotional
      || Decimal.isSignPositive destinationNotional == Decimal.isSignPositive filledNotional)

/-- The action of an asset reduces its position. -/
def DecisionRecord.reduceOnly (decision : DecisionRecord D) (filledPositions : ExtTreeMap String D)
    (asset : String) : Bool :=
  match decision.projection.proposedDeltas[asset]?, decision.microSlots[asset]? with
  | some delta, some slot =>
    requiresReduceOnly (filledPositions[asset]?.getD Decimal.zero) delta slot.admittedNotional
  | _, _ => false

/-- The delta an action is planned for: a reduction that rounds to zero keeps its exact delta. -/
def DecisionRecord.actionableDelta (decision : DecisionRecord D) (asset : String) (delta : D)
    (reduceOnly : Bool) : D :=
  if Decimal.isZero delta && reduceOnly then
    decision.projection.proposedDeltas[asset]?.getD Decimal.zero
  else delta

/-- One round of the loop of `construct_planned_actions`. -/
def planAction [Sha256] (engineInstance : Bytes 16) (decision : DecisionRecord D)
    (filledPositions : ExtTreeMap String D) (actions : List (Lifecycle.PlannedAction D))
    (entry : String × D) : Except IdentityError (List (Lifecycle.PlannedAction D)) :=
  let (asset, delta) := entry
  let reduceOnly := decision.reduceOnly filledPositions asset
  let actionable := decision.actionableDelta asset delta reduceOnly
  if Decimal.isZero actionable then .ok actions
  else if 2 ^ 32 ≤ actions.length then .error (.arithmeticOverflow "action ordinal")
  else do
    let side := if Decimal.lt Decimal.zero actionable then Side.buy else Side.sell
    let actionOrdinal := UInt32.ofNat actions.length
    let plannedCloid ← derivePlannedCloid {
      engineInstanceId := engineInstance
      decisionId := decision.decisionId
      targetVersion := UInt64.ofNat decision.targetVersion
      asset
      side
      reduceOnly
      actionOrdinal
      retryGeneration := 0 }
    pure (actions ++ [{
      decisionId := decision.decisionId
      targetVersion := decision.targetVersion
      asset
      side
      roundedNotional := Decimal.abs actionable
      reduceOnly
      actionOrdinal
      retryGeneration := 0
      plannedCloid }])

def constructPlannedActions [Sha256] (engineInstance : Bytes 16) (decision : DecisionRecord D)
    (filledPositions : ExtTreeMap String D) :
    Except IdentityError (List (Lifecycle.PlannedAction D)) :=
  decision.projection.roundedDeltas.toList.foldlM
    (planAction engineInstance decision filledPositions) []

def reidentifyContinuationAction [Sha256] (engineInstance : Bytes 16)
    (action : Lifecycle.PlannedAction D) (retryGeneration : UInt32) :
    Except IdentityError (Lifecycle.PlannedAction D) := do
  let plannedCloid ← derivePlannedCloid {
    engineInstanceId := engineInstance
    decisionId := action.decisionId
    targetVersion := UInt64.ofNat action.targetVersion
    asset := action.asset
    side := action.side
    reduceOnly := action.reduceOnly
    actionOrdinal := action.actionOrdinal
    retryGeneration }
  pure { action with retryGeneration, plannedCloid }

/-- An action is large enough for the exchange, or reduces. -/
def DecisionRecord.meetsFloor (decision : DecisionRecord D) (action : Lifecycle.PlannedAction D) :
    Bool :=
  action.reduceOnly ||
    match decision.microSlots[action.asset]? with
    | none => false
    | some slot =>
      let required :=
        if Decimal.isZero slot.filledNotional then slot.executionFloor.minimumOpeningNotional
        else slot.executionFloor.minimumOrderNotional
      Decimal.le required action.roundedNotional

/-! ## Planned actions for a map of reductions

`construct_planned_actions` with the map of the assets that only reduce as the source takes it.  The
observer's actions are those for the map it builds. -/

/-- One round of the loop of `construct_planned_actions`. -/
def planActionFor [Sha256] (engineInstance : Bytes 16) (decision : DecisionRecord D)
    (reduceOnlyByAsset : ExtTreeMap String Bool) (actions : List (Lifecycle.PlannedAction D))
    (entry : String × D) : Except IdentityError (List (Lifecycle.PlannedAction D)) :=
  let (asset, delta) := entry
  let reduceOnly := reduceOnlyByAsset[asset]?.getD false
  let actionable := decision.actionableDelta asset delta reduceOnly
  if Decimal.isZero actionable then .ok actions
  else if 2 ^ 32 ≤ actions.length then .error (.arithmeticOverflow "action ordinal")
  else do
    let side := if Decimal.lt Decimal.zero actionable then Side.buy else Side.sell
    let actionOrdinal := UInt32.ofNat actions.length
    let plannedCloid ← derivePlannedCloid {
      engineInstanceId := engineInstance
      decisionId := decision.decisionId
      targetVersion := UInt64.ofNat decision.targetVersion
      asset
      side
      reduceOnly
      actionOrdinal
      retryGeneration := 0 }
    pure (actions ++ [{
      decisionId := decision.decisionId
      targetVersion := decision.targetVersion
      asset
      side
      roundedNotional := Decimal.abs actionable
      reduceOnly
      actionOrdinal
      retryGeneration := 0
      plannedCloid }])

def constructPlannedActionsFor [Sha256] (engineInstance : Bytes 16) (decision : DecisionRecord D)
    (reduceOnlyByAsset : ExtTreeMap String Bool) :
    Except IdentityError (List (Lifecycle.PlannedAction D)) :=
  decision.projection.roundedDeltas.toList.foldlM
    (planActionFor engineInstance decision reduceOnlyByAsset) []

/-- The map of the observer: the assets whose action reduces a position. -/
def DecisionRecord.reduceOnlyByAsset (decision : DecisionRecord D)
    (filledPositions : ExtTreeMap String D) : ExtTreeMap String Bool :=
  (decision.projection.proposedDeltas.map fun asset _ =>
    decision.reduceOnly filledPositions asset).filter fun _ reduceOnly => reduceOnly

end CopyTrade.Model
