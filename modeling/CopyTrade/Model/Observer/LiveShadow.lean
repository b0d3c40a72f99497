import CopyTrade.Model.Core.Ipc

/-!
# Preparing a production intent

The production branch of `try_execute_pending` of crates/copytrade-observer/src/live_shadow.rs:
the order that the planning before it has sized, priced and checked (`ExecutableOrder`) becomes
a sealed intent, at most once for each planned cloid.  The engine is kept to the fields this
branch reads and writes.
-/

namespace CopyTrade.Model

open Foundation
open Std (ExtTreeMap)

/-- `MonotonicClock::now_ms` at the real time `nowMs` of a clock made at the real time `epochMs`.
-/
def monotonicNow (epochMs nowMs : ℕ) : ℕ := min (nowMs - epochMs) maxU64

inductive LiveShadowError
  | core (message : String)
  | invalidMarket (asset : String)
  | arithmetic
  | duplicateBucket
  | invalidBucketInterval
deriving DecidableEq

/-- The fields of a planned action that are read here. -/
structure PlannedAction where
  decisionId : Hash
  targetVersion : ℕ
  side : Side
  reduceOnly : Bool
  retryGeneration : ℕ
  plannedCloid : PlannedCloid

/-- The fields of a pending order that are read here; of the decision's book its time and its
midpoint. -/
structure PendingShadow (D : Type) where
  action : PlannedAction
  rootPlannedCloid : String
  parentPlannedCloid : Option String
  decisionObservedAtMono : ℕ
  decisionMidpoint : D
  projectionInput : PortfolioProjectionInput D
  riskPolicyHash : Hash
  configurationHash : Hash

structure ProductionIntentIdentity where
  observerReleaseHash : Hash
  signerReleaseHash : Hash
  releaseManifestHash : Hash
  marketRulesHash : Hash
  dynamicFloorPolicyHash : Hash
  iocPolicyHash : Hash
  expiresAfterMs : ℕ

/-- What the planning before the production branch computes from the current book. -/
structure ExecutableOrder (D : Type) where
  referencePrice : D
  quantity : D
  limitPrice : D
  requiredNotional : D

/-- The engine: positions of production and of the shadow ledger, admitted targets, the asset
names of the exchange metadata, the cloids emitted so far and the intents prepared. -/
structure LiveShadowEngine (D : Type) where
  productionPositions : Option (ExtTreeMap String D)
  shadowPositions : ExtTreeMap String D
  admittedTargets : ExtTreeMap String D
  metadata : Option (List String)
  emittedProductionCloids : List PlannedCloid
  preparedAuthorizedIntents : List (AuthorizedExecutionIntent D)

variable {D : Type} [Decimal D]

/-- `ok_or(LiveShadowError::Arithmetic)`. -/
def orArithmetic {α : Type} : Option α → Except LiveShadowError α
  | none => .error .arithmetic
  | some value => .ok value

theorem orArithmetic_eq_ok_iff {α : Type} {x : Option α} {a : α} :
    orArithmetic x = .ok a ↔ x = some a := by
  cases x <;> simp [orArithmetic]

def parsePlannedCloid (value : String) : Except LiveShadowError PlannedCloid :=
  match decodePlannedCloid value with
  | none => .error (.core "invalid planned CLOID encoding")
  | some cloid => .ok cloid

/-- `parent_planned_cloid…map(parse_planned_cloid).transpose()`. -/
def parseParentCloid : Option String → Except LiveShadowError (Option PlannedCloid)
  | none => .ok none
  | some value => (parsePlannedCloid value).map some

namespace LiveShadowEngine

def authoritativePosition (engine : LiveShadowEngine D) (asset : String) : D :=
  match engine.productionPositions.bind fun positions => positions[asset]? with
  | some quantity => quantity
  | none => engine.shadowPositions[asset]?.getD Decimal.zero

/-- The index of an asset in the universe, as a `u32`. -/
def assetIndex (engine : LiveShadowEngine D) (asset : String) : Except LiveShadowError ℕ :=
  match engine.metadata.bind fun names => names.findIdx? fun name => name == asset with
  | none => .error (.invalidMarket asset)
  | some index => if index < 2 ^ 32 then .ok index else .error .arithmetic

/-- The projection input of the intent: the current price, the filled position of the asset and the
admitted targets. -/
def intentProjectionInput (engine : LiveShadowEngine D) (asset : String)
    (input : PortfolioProjectionInput D) (referencePrice committedBefore : D) :
    PortfolioProjectionInput D :=
  { input with
    marketRules :=
      match input.marketRules[asset]? with
      | none => input.marketRules
      | some rules => input.marketRules.insert asset { rules with markPrice := referencePrice }
    filledPositions := input.filledPositions.insert asset committedBefore
    unconstrainedTargets := engine.admittedTargets }

def buildIntent [Sha256] [IntentEncoding D] (engine : LiveShadowEngine D)
    (identity : ProductionIntentIdentity) (asset : String) (pending : PendingShadow D)
    (order : ExecutableOrder D) (receivedAt : ℕ) :
    Except LiveShadowError (AuthorizedExecutionIntent D) := do
  let committedBefore ← orArithmetic
    (Decimal.checkedMul (engine.authoritativePosition asset) order.referencePrice)
  let notional ← orArithmetic (Decimal.checkedMul order.quantity order.referencePrice)
  let signedDelta :=
    match pending.action.side with
    | .buy => notional
    | .sell => Decimal.neg notional
  let committedAfter ← orArithmetic (Decimal.checkedAdd committedBefore signedDelta)
  let projectionInput := engine.intentProjectionInput asset pending.projectionInput
    order.referencePrice committedBefore
  let projection ← (PortfolioRisk.projectAndValidatePortfolio projectionInput).mapError
    fun violation => LiveShadowError.core violation.text
  let projectedPortfolioHash ← (match deriveProjectionHash projection with
    | none => .error (.core (debugVariant "ArithmeticOverflow" (quoted "canonical length")))
    | some hash => .ok hash)
  let assetIndex ← engine.assetIndex asset
  let rootCloid ← parsePlannedCloid pending.rootPlannedCloid
  let parentCloid ← parseParentCloid pending.parentPlannedCloid
  let expiresAt ← orArithmetic (checkedAddU64 receivedAt identity.expiresAfterMs)
  (AuthorizedExecutionIntent.sealed {
    schemaVersion := AuthorizedExecutionIntent.supportedSchemaVersion
    decisionId := pending.action.decisionId
    targetVersion := pending.action.targetVersion
    rootCloid
    plannedCloid := pending.action.plannedCloid
    parentCloid
    continuationGeneration := pending.action.retryGeneration
    asset
    assetIndex
    side := pending.action.side
    quantity := order.quantity
    limitPrice := order.limitPrice
    reduceOnly := pending.action.reduceOnly
    timeInForce := .ioc
    projectedPortfolioHash
    riskPolicyHash := pending.riskPolicyHash
    configurationHash := pending.configurationHash
    marketRulesHash := identity.marketRulesHash
    dynamicFloorPolicyHash := identity.dynamicFloorPolicyHash
    iocPolicyHash := identity.iocPolicyHash
    observerReleaseHash := identity.observerReleaseHash
    signerReleaseHash := identity.signerReleaseHash
    releaseManifestHash := identity.releaseManifestHash
    decisionReferencePrice := pending.decisionMidpoint
    expectedCommittedBefore := committedBefore
    expectedCommittedAfter := committedAfter
    decisionTimestampMs := pending.decisionObservedAtMono
    expiresAt
    authorization := {
      nowMono := receivedAt
      deployedRiskPolicyHash := pending.riskPolicyHash
      projectionInput
      exchangeMinimumNotional := order.requiredNotional }
    canonicalHash := Bytes.replicate 32 0 }).mapError LiveShadowError.core

/-- The production branch: the cloid counts as emitted also when the intent cannot be built. -/
def emitProductionIntent [Sha256] [IntentEncoding D] (engine : LiveShadowEngine D)
    (identity : ProductionIntentIdentity) (asset : String) (pending : PendingShadow D)
    (order : ExecutableOrder D) (receivedAt : ℕ) :
    LiveShadowEngine D × Except LiveShadowError Unit :=
  if engine.emittedProductionCloids.contains pending.action.plannedCloid then (engine, .ok ())
  else
    let emitted := { engine with
      emittedProductionCloids := pending.action.plannedCloid :: engine.emittedProductionCloids }
    match emitted.buildIntent identity asset pending order receivedAt with
    | .error error => (emitted, .error error)
    | .ok intent => ({ emitted with
        preparedAuthorizedIntents := emitted.preparedAuthorizedIntents ++ [intent] }, .ok ())

end LiveShadowEngine

def priceTick (price : ℚ) (sizeDecimals : ℕ) : ℚ :=
  let integerDigits := (Nat.toDigits 10 ⌊|price|⌋₊).length
  if 5 ≤ integerDigits then 10 ^ (integerDigits - 5)
  else 1 / 10 ^ min (5 - integerDigits) (6 - sizeDecimals)

end CopyTrade.Model
