import CopyTrade.Model.Observer.EngineRun

/-!
# Dispatching production intents

`dispatch_production_intents` of crates/copytrade-observer/src/qualification.rs: the prepared
intents go to the queue of the signer, the events of the signer are applied to the production state,
the engine is synchronized with it, and where an applied event asks for it the engine decides
again.  What the queue answers and which events the signer replays are inputs.
-/

namespace CopyTrade.Model

open Foundation

inductive IntentDispatchState
  | acceptedBySigner (durableSequence : ℕ)
  | retainedForReplay
  | capacityUnavailableTargetRetained
  | rejected (reason : String)
deriving DecidableEq

/-- The errors of a dispatch: of the queue, of an event, of the client or a file while events are
applied, "production replan has no exchange event timestamp", of the decision, and of the file of
the production state. -/
inductive DispatchError
  | queue (message : String)
  | event (error : ReconciliationApplyError)
  | reconciliation (message : String)
  | noEventTimestamp
  | decision (error : LiveShadowError)
  | persistence
deriving DecidableEq

/-- What a dispatch meets: the answer of the queue to every intent, the events the signer replays
and a failure while they are applied, the strategy of a decision and whether the production state
can be saved after it. -/
structure DispatchInputs (D : Type) [Decimal D] where
  queued : AuthorizedExecutionIntent D → Except String IntentDispatchState
  events : List (VerifiedReconciliationEvent D)
  reconciliationFailure : Option String
  strategy : Strategy D
  saved : Bool

variable {D : Type} [Decimal D]

def LiveTradingState.latestExchangeEventTimestamp (state : LiveTradingState D) : Option ℕ :=
  match state.verifiedFills.getLast?, state.verifiedFunding.getLast? with
  | some fill, some funding => some (max fill.occurredAt funding.occurredAt)
  | some fill, none => some fill.occurredAt
  | none, some funding => some funding.occurredAt
  | none, none => none

def DecisionEngine.recomputeAfterProductionUpdates [Sha256] [DecimalNormalize D]
    (settings : EngineSettings D) (engine : DecisionEngine D) (now : ℕ) (strategy : Strategy D) :
    Except LiveShadowError (DecisionEngine D × Option (PlannedDecision D)) :=
  if engine.productionIdentity.isSome then engine.constructNextDecision settings now strategy
  else .ok (engine, none)

namespace Dispatch

/-- One prepared intent: the queue takes it, or its cloid may be emitted again. -/
def queueIntent (queued : AuthorizedExecutionIntent D → Except String IntentDispatchState)
    (engine : DecisionEngine D) (intent : AuthorizedExecutionIntent D) :
    Except DispatchError (DecisionEngine D) := do
  let outcome ← (queued intent).mapError DispatchError.queue
  pure (if outcome = .capacityUnavailableTargetRetained then { engine with
      emittedProductionCloids :=
        engine.emittedProductionCloids.filter (· != intent.plannedCloid) }
    else engine)

def queueIntents (queued : AuthorizedExecutionIntent D → Except String IntentDispatchState)
    (engine : DecisionEngine D) : Except DispatchError (DecisionEngine D) :=
  engine.preparedAuthorizedIntents.foldlM (queueIntent queued)
    { engine with preparedAuthorizedIntents := [] }

def applyEvent [Sha256] [PayloadEncoding D] (state : ProductionTradingState D)
    (event : VerifiedReconciliationEvent D) : Except DispatchError (ProductionTradingState D) :=
  match state.applyReconciliationEvent event with
  | (.error error, _) => .error (.event error)
  | (.ok _, next) => .ok next

def reconcileInto [Sha256] [PayloadEncoding D] (inputs : DispatchInputs D)
    (state : ProductionTradingState D) : Except DispatchError (ProductionTradingState D) := do
  let next ← inputs.events.foldlM applyEvent state
  match inputs.reconciliationFailure with
  | some message => .error (.reconciliation message)
  | none => pure next

/-- The part of a dispatch before the replan: the engine, synchronized with the production state
after the events of the signer. -/
def synchronize [Sha256] [PayloadEncoding D] (inputs : DispatchInputs D)
    (engine : DecisionEngine D) (state : ProductionTradingState D) :
    Except DispatchError (DecisionEngine D × ProductionTradingState D) := do
  let queued ← queueIntents inputs.queued engine
  let reconciled ← reconcileInto inputs state
  pure (queued.synchronizeProductionState reconciled, reconciled)

/-- The replan, where an asset requires one: the time of the decision is that of the latest event of
the exchange, and afterwards no asset requires a replan any more. -/
def replan [Sha256] [DecimalNormalize D] (settings : EngineSettings D) (inputs : DispatchInputs D)
    (engine : DecisionEngine D) (state : ProductionTradingState D) :
    Except DispatchError (DecisionEngine D × ProductionTradingState D ×
      Option (PlannedDecision D)) :=
  if state.assetsRequiringReplan.isEmpty then .ok (engine, state, none)
  else do
    let timestamp ← (match state.live.latestExchangeEventTimestamp with
      | none => .error .noEventTimestamp
      | some timestamp => .ok timestamp)
    let (replanned, planned) ← (engine.recomputeAfterProductionUpdates settings timestamp
      inputs.strategy).mapError DispatchError.decision
    if inputs.saved then pure (replanned, { state with assetsRequiringReplan := ∅ }, planned)
    else .error .persistence

def dispatchProductionIntents [Sha256] [DecimalNormalize D] [PayloadEncoding D]
    (settings : EngineSettings D) (inputs : DispatchInputs D) (engine : DecisionEngine D)
    (state : ProductionTradingState D) :
    Except DispatchError (DecisionEngine D × ProductionTradingState D ×
      Option (PlannedDecision D)) := do
  let (synchronized, reconciled) ← synchronize inputs engine state
  replan settings inputs synchronized reconciled

end Dispatch

/-- What the loop of the observer does: a call of its engine, or a dispatch at a time of its
clock. -/
inductive ObserverCall (D : Type) [Decimal D]
  | engine (call : EngineCall D)
  | dispatch (now : ℕ) (inputs : DispatchInputs D)

inductive ObserverError
  | engine (error : LiveShadowError)
  | dispatch (error : DispatchError)
deriving DecidableEq

/-- The observer in production mode: its engine, the production state and the error that has ended
the run. -/
structure ProductionRun (D : Type) [Decimal D] where
  engine : DecisionEngine D
  state : ProductionTradingState D
  stopped : Option ObserverError

namespace ProductionRun

/-- A new engine in production mode with a production state. -/
def start (engineInstance : Bytes 16) (identity : ProductionIntentIdentity)
    (state : ProductionTradingState D) : ProductionRun D :=
  ⟨DecisionEngine.start engineInstance (some identity), state, none⟩

def step [Sha256] [DecimalNormalize D] [IntentEncoding D] [PayloadEncoding D]
    (settings : EngineSettings D) (run : ProductionRun D) (call : ObserverCall D) :
    ProductionRun D :=
  match run.stopped with
  | some _ => run
  | none =>
    match call with
    | .engine call =>
      match run.engine.call settings call with
      | .error error => { run with stopped := some (.engine error) }
      | .ok (engine, _) => { run with engine }
    | .dispatch _ inputs =>
      match Dispatch.dispatchProductionIntents settings inputs run.engine run.state with
      | .error error => { run with stopped := some (.dispatch error) }
      | .ok (engine, state, _) => { run with engine, state }

end ProductionRun

end CopyTrade.Model
