import CopyTrade.Model.Observer.DecisionEngine

/-!
# Books, orders and runs of the decision engine

`try_execute_pending` and `ingest` of crates/copytrade-observer/src/live_shadow.rs: the pending
action of a book's asset becomes a production intent or a shadow fill, and a book that an action
has waited for, or that leaves a remainder, makes the engine decide again.  A run is a sequence of
the calls the observer makes of its engine; it ends at its first error.
-/

namespace CopyTrade.Model

open Foundation
open Std (ExtTreeMap)

variable {D : Type} [Decimal D]

def completedCloseFirstReversal (reduceOnly : Bool) (rawDesiredNotional technicalDesiredNotional
    positionBefore positionAfter filledQuantity unfilledQuantity : D) : Bool :=
  reduceOnly && !Decimal.isZero rawDesiredNotional && !Decimal.isZero technicalDesiredNotional
    && Decimal.isSignPositive technicalDesiredNotional == Decimal.isSignPositive rawDesiredNotional
    && !Decimal.isZero positionBefore
    && Decimal.isSignPositive rawDesiredNotional != Decimal.isSignPositive positionBefore
    && !Decimal.isZero filledQuantity && Decimal.isZero positionAfter
    && Decimal.isZero unfilledQuantity

/-- What the production branch reads of a pending action. -/
def PendingAction.productionView (pending : PendingAction D) : PendingShadow D where
  action := {
    decisionId := pending.action.decisionId
    targetVersion := pending.action.targetVersion
    side := pending.action.side
    reduceOnly := pending.action.reduceOnly
    retryGeneration := pending.action.retryGeneration.toNat
    plannedCloid := pending.action.plannedCloid }
  rootPlannedCloid := pending.rootPlannedCloid
  parentPlannedCloid := pending.parentPlannedCloid
  decisionObservedAtMono := pending.decisionBook.observedAtMono
  decisionMidpoint := pending.decisionBook.midpoint
  projectionInput := pending.projectionInput
  riskPolicyHash := pending.riskPolicyHash
  configurationHash := pending.configurationHash

namespace DecisionEngine

/-- What the production branch reads and writes of the engine. -/
def productionView (engine : DecisionEngine D) : LiveShadowEngine D where
  productionPositions := engine.productionPositions
  shadowPositions := engine.ledger.portfolio.positions
  admittedTargets := engine.targetLedger.admittedTargets
  metadata := engine.metadata.map MarketMetadata.assetNames
  emittedProductionCloids := engine.emittedProductionCloids
  preparedAuthorizedIntents := engine.preparedAuthorizedIntents

def attemptOf (engine : DecisionEngine D) (pending : PendingAction D) (book : OrderBookResponse D)
    (receivedAt : ℕ) : ShadowAttempt D where
  action := pending.action
  decisionBook := pending.decisionBook
  contributions := pending.contributions
  constrainedTarget := pending.constrainedTarget
  rules := pending.rules
  book
  receivedAt
  admittedTarget := engine.targetLedger.admittedTarget book.asset
  accruedFunding := engine.accruedFunding[book.asset]?.getD Decimal.zero

/-- The production branch: the action stays pending. -/
def emitIntent [Sha256] [IntentEncoding D] (engine : DecisionEngine D)
    (identity : ProductionIntentIdentity) (asset : String) (pending : PendingAction D)
    (referencePrice : D) (order : SizedOrder D) (receivedAt : ℕ) :
    Except LiveShadowError (DecisionEngine D) :=
  match engine.productionView.emitProductionIntent identity asset pending.productionView
      ⟨referencePrice, order.quantity, order.limitPrice, order.requiredNotional⟩ receivedAt with
  | (_, .error error) => .error error
  | (view, .ok ()) => .ok { engine with
      emittedProductionCloids := view.emittedProductionCloids
      preparedAuthorizedIntents := view.preparedAuthorizedIntents }

/-- What is left to do after a shadow fill. -/
def recomputeAfter (execution : IocExecution D) (rawDesired technicalDesired : D)
    (reduceOnly : Bool) : ExecutionRecompute :=
  if !Decimal.isZero execution.unfilledIocRemainder then .partialIocRemainder
  else if completedCloseFirstReversal reduceOnly rawDesired technicalDesired
      execution.booked.positionBefore execution.booked.positionAfter
      execution.booked.modeledFilledQuantity execution.unfilledIocRemainder then
    .closeFirstReversal
  else .none

/-- The continuation of a fill that leaves something to do. -/
def continueAfter (continuations : ExtTreeMap String ContinuationIntent) (asset : String)
    (pending : PendingAction D) :
    ExecutionRecompute → Except LiveShadowError (ExtTreeMap String ContinuationIntent)
  | .none => .ok continuations
  | recompute =>
    if pending.action.retryGeneration.toNat < maxU32 then
      .ok (continuations.insert asset {
        rootPlannedCloid := pending.rootPlannedCloid
        parentPlannedCloid := toHex pending.action.plannedCloid
        nextRetryGeneration := pending.action.retryGeneration + 1
        kind :=
          if recompute = .closeFirstReversal then .closeFirstReversal
          else .partialIocRemainder })
    else .error .arithmetic

/-- The shadow branch: the order is executed, split, booked and reconciled, and the action is not
pending any more. -/
def fillPending [Sha256] (settings : EngineSettings D) (engine : DecisionEngine D)
    (pending : PendingAction D) (book : OrderBookResponse D) (receivedAt : ℕ)
    (evaluation : ShadowMarketSnapshot D) (order : SizedOrder D) (technicalDesired : D) :
    Except LiveShadowError (DecisionEngine D × ExecutionRecompute) := do
  let accrued ← engine.accrueFunding receivedAt
  let attempt := accrued.attemptOf pending book receivedAt
  let shadow := { settings.toShadowSettings with ledgerTimeOffset := engine.ledgerTimeOffset }
  let (execution, closedAt) ← executeOrder shadow attempt
    (accrued.ledger.portfolioPosition book.asset) evaluation order
  let componentTargets ← attempt.componentTargets
  let partition ← splitExecution accrued.ledger attempt componentTargets execution
  let report ← (settleExecution accrued.ledger attempt execution closedAt partition).mapError
    ShadowFillError.toLiveShadowError
  let rawDesired := (accrued.targetLedger.assets[book.asset]?.map
    VirtualTargetState.rawDesiredNotional).getD Decimal.zero
  let recompute := recomputeAfter execution rawDesired technicalDesired pending.action.reduceOnly
  let continuations ← continueAfter accrued.continuations book.asset pending recompute
  pure ({ accrued with
    ledger := report.ledger
    ledgerTimeHighWatermark := max accrued.ledgerTimeHighWatermark closedAt
    accruedFunding :=
      if Decimal.isZero execution.booked.modeledFilledQuantity then accrued.accruedFunding
      else accrued.accruedFunding.erase book.asset
    pending := accrued.pending.erase book.asset
    continuations }, recompute)

/-- An order of a pending action goes to production, where there is one, or to the shadow ledger. -/
def executePending [Sha256] [IntentEncoding D] (settings : EngineSettings D)
    (engine : DecisionEngine D) (pending : PendingAction D) (book : OrderBookResponse D)
    (receivedAt : ℕ) (evaluation : ShadowMarketSnapshot D) (order : SizedOrder D)
    (technicalDesired : D) : Except LiveShadowError (DecisionEngine D × ExecutionRecompute) :=
  match engine.productionIdentity with
  | some identity =>
    (engine.emitIntent identity book.asset pending evaluation.midpoint order receivedAt).map
      fun emitted => (emitted, .none)
  | none => engine.fillPending settings pending book receivedAt evaluation order technicalDesired

def tryExecutePending [Sha256] [IntentEncoding D] (settings : EngineSettings D)
    (engine : DecisionEngine D) (book : OrderBookResponse D) (receivedAt : ℕ)
    (technicalDesired : D) : Except LiveShadowError (DecisionEngine D × ExecutionRecompute) :=
  match engine.pending[book.asset]? with
  | none => .ok (engine, .none)
  | some pending =>
    let attempt := engine.attemptOf pending book receivedAt
    if attempt.isEarly settings.toShadowSettings then .ok (engine, .none)
    else do
      let some (evaluation, order) ← attemptOrder settings.toShadowSettings attempt
          (engine.authoritativePosition book.asset)
        | pure ({ engine with pending := engine.pending.erase book.asset }, .none)
      engine.executePending settings pending book receivedAt evaluation order technicalDesired

end DecisionEngine

/-- The calls the observer makes of its engine.  A decision is asked for by a tick, an accepted
candle or a source state with one; the technical target of the asset comes with a book. -/
inductive EngineCall (D : Type) [Decimal D]
  | marketSnapshot (mids : ExtTreeMap String D) (receivedAt : ℕ)
  | marketMetadata (metadata : MarketMetadata D) (receivedAt : ℕ)
  | orderBook (book : OrderBookResponse D) (receivedAt : ℕ) (technicalDesired : D)
      (strategy : Strategy D)
  | decision (now : ℕ) (strategy : Strategy D)
  | equityBoundary (now : ℕ)
  | synchronizeProductionState (state : ProductionTradingState D)
  | takePreparedAuthorizedIntents
  | releaseUnacceptedProductionIntent (cloid : PlannedCloid)

namespace DecisionEngine

def synchronizeProductionState (engine : DecisionEngine D) (state : ProductionTradingState D) :
    DecisionEngine D :=
  { engine with
    productionPositions := some state.live.positions
    productionEquities :=
      some (state.live.currentEquity, state.live.settledEquity, state.live.deploymentEquity)
    productionExposureBlocked := !state.positionMismatches.isEmpty || state.equityMismatch.isSome }

/-- The `OrderBook` branch of `ingest`. -/
def ingestBook [Sha256] [DecimalNormalize D] [IntentEncoding D] (settings : EngineSettings D)
    (engine : DecisionEngine D) (book : OrderBookResponse D) (receivedAt : ℕ)
    (technicalDesired : D) (strategy : Strategy D) :
    Except LiveShadowError (DecisionEngine D × Option (PlannedDecision D)) := do
  let booked := { engine with books := engine.books.insert book.asset (book, receivedAt) }
  let (executed, recompute) ← booked.tryExecutePending settings book receivedAt technicalDesired
  if engine.pendingBook.contains book.asset || recompute != .none then
    executed.constructNextDecision settings receivedAt strategy
  else pure (executed, none)

/-- One call, and the decision it returns or makes, if any. -/
def call [Sha256] [DecimalNormalize D] [IntentEncoding D] (settings : EngineSettings D)
    (engine : DecisionEngine D) :
    EngineCall D → Except LiveShadowError (DecisionEngine D × Option (PlannedDecision D))
  | .marketSnapshot mids receivedAt => .ok ({ engine with mids := some (mids, receivedAt) }, none)
  | .marketMetadata metadata receivedAt => do
    let accrued ← engine.accrueFunding receivedAt
    pure ({ accrued with
      metadata := some metadata
      lastFundingAccrual := some receivedAt }, none)
  | .orderBook book receivedAt technicalDesired strategy =>
    engine.ingestBook settings book receivedAt technicalDesired strategy
  | .decision now strategy => engine.constructNextDecision settings now strategy
  | .equityBoundary now => do
    let accrued ← engine.accrueFunding now
    pure (accrued, none)
  | .synchronizeProductionState state => .ok (engine.synchronizeProductionState state, none)
  | .takePreparedAuthorizedIntents => .ok ({ engine with preparedAuthorizedIntents := [] }, none)
  | .releaseUnacceptedProductionIntent cloid => .ok ({ engine with
      emittedProductionCloids := engine.emittedProductionCloids.filter (· != cloid) }, none)

def start (engineInstance : Bytes 16) (productionIdentity : Option ProductionIntentIdentity) :
    DecisionEngine D where
  engineInstance
  decisionSequence := 0
  previousTarget := none
  targetLedger := VirtualTargetLedger.empty
  mids := none
  metadata := none
  books := ∅
  pending := ∅
  pendingBook := ∅
  continuations := ∅
  ledger := DualLedger.empty
  ledgerTimeOffset := 0
  ledgerTimeHighWatermark := 0
  lastFundingAccrual := none
  accruedFunding := ∅
  productionIdentity
  productionPositions := none
  productionEquities := none
  productionExposureBlocked := false
  emittedProductionCloids := []
  preparedAuthorizedIntents := []

end DecisionEngine

def EngineCall.synchronizedState : EngineCall D → Option (ProductionTradingState D)
  | .synchronizeProductionState state => some state
  | _ => none

/-- An engine in a run: the last decision it has made, the last production state it has been
synchronized with, and the error that has ended the run. -/
structure EngineRun (D : Type) [Decimal D] where
  engine : DecisionEngine D
  lastDecision : Option (PlannedDecision D)
  lastSynchronized : Option (ProductionTradingState D)
  stopped : Option LiveShadowError

namespace EngineRun

def start (engine : DecisionEngine D) : EngineRun D := ⟨engine, none, none, none⟩

/-- A run goes on with every call until one fails. -/
def step [Sha256] [DecimalNormalize D] [IntentEncoding D] (settings : EngineSettings D)
    (run : EngineRun D) (call : EngineCall D) : EngineRun D :=
  match run.stopped with
  | some _ => run
  | none =>
    match run.engine.call settings call with
    | .error error => { run with stopped := some error }
    | .ok (engine, planned) => {
        engine
        lastDecision := planned.or run.lastDecision
        lastSynchronized := call.synchronizedState.or run.lastSynchronized
        stopped := none }

end EngineRun

end CopyTrade.Model
