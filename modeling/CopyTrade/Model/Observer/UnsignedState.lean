import CopyTrade.Model.Observer.EngineRun

/-!
# The state an unsigned observer keeps between processes

`persist_unsigned_state` and `restore_unsigned_state` of
crates/copytrade-observer/src/live_shadow.rs, and the expectancy of source signals, which a decision
updates and a restore checks.  The previous target is not stored but rebuilt from the target ledger.

What the technical and the cohort engine keep is of types of its own (`StrategyTypes`): it is stored
and restored as it is.  A snapshot is the value its MessagePack bytes stand for.
-/

namespace CopyTrade.Model

open Foundation
open Std (ExtTreeMap)

inductive SourceSignalDirection
  | long
  | short
deriving DecidableEq

structure SourceExpectancyEstimate (D : Type) where
  count : ℕ
  ewmaGrossReturnBps : D
  ewmaLifetimeSeconds : D
deriving DecidableEq

structure ActiveSourceObservation (D : Type) where
  entryMidpoint : D
  entryTimestamp : ℕ
  direction : SourceSignalDirection
deriving DecidableEq

structure SourceExpectancyState (D : Type) where
  long : SourceExpectancyEstimate D
  short : SourceExpectancyEstimate D
  active : Option (ActiveSourceObservation D)
deriving DecidableEq

variable {D : Type} [Decimal D]

def SourceSignalDirection.fromTarget (target : D) : Option SourceSignalDirection :=
  if Decimal.isZero target then none
  else if Decimal.isSignPositive target then some .long
  else some .short

def SourceExpectancyEstimate.default : SourceExpectancyEstimate D :=
  ⟨0, Decimal.zero, Decimal.zero⟩

namespace SourceExpectancyState

def default : SourceExpectancyState D := ⟨.default, .default, none⟩

def estimate (state : SourceExpectancyState D) :
    SourceSignalDirection → SourceExpectancyEstimate D
  | .long => state.long
  | .short => state.short

/-- `*state.estimate_mut(direction) = estimate`. -/
def setEstimate (state : SourceExpectancyState D) (direction : SourceSignalDirection)
    (estimate : SourceExpectancyEstimate D) : SourceExpectancyState D :=
  match direction with
  | .long => { state with long := estimate }
  | .short => { state with short := estimate }

end SourceExpectancyState

def sourceExpectancyAlpha : D := Decimal.new 25 2

def bpsPerUnitReturn : D := Decimal.new 10000 0

def averagedWith (mean observed : D) : Except LiveShadowError D := do
  let retainedWeight ← orArithmetic (Decimal.checkedSub Decimal.one sourceExpectancyAlpha)
  orArithmetic ((Decimal.checkedMul mean retainedWeight).bind fun retained =>
    (Decimal.checkedMul observed sourceExpectancyAlpha).bind fun added =>
      Decimal.checkedAdd retained added)

def updateSourceExpectancy (estimate : SourceExpectancyEstimate D)
    (grossReturnBps lifetimeSeconds : D) :
    Except LiveShadowError (SourceExpectancyEstimate D) := do
  let ewmaGrossReturnBps ← averagedWith estimate.ewmaGrossReturnBps grossReturnBps
  let ewmaLifetimeSeconds ← averagedWith estimate.ewmaLifetimeSeconds lifetimeSeconds
  let count ← orArithmetic (checkedAddU64 estimate.count 1)
  pure { count, ewmaGrossReturnBps, ewmaLifetimeSeconds }

/-- An active observation ends: its estimate takes its return and its lifetime in. -/
def endObservation (state : SourceExpectancyState D) (active : ActiveSourceObservation D)
    (midpoint : D) (now : ℕ) : Except LiveShadowError (SourceExpectancyState D) := do
  let unsignedReturn ← orArithmetic
    (((Decimal.checkedSub midpoint active.entryMidpoint).bind fun delta =>
      Decimal.checkedDiv delta active.entryMidpoint).bind fun fraction =>
        Decimal.checkedMul fraction bpsPerUnitReturn)
  let grossReturnBps := match active.direction with
    | .long => unsignedReturn
    | .short => Decimal.neg unsignedReturn
  let lifetimeSeconds ← orArithmetic
    (Decimal.checkedDiv (Decimal.new (now - active.entryTimestamp : ℕ) 0) (Decimal.new 1000 0))
  let estimate ← updateSourceExpectancy (state.estimate active.direction) grossReturnBps
    lifetimeSeconds
  pure ({ state with active := none }.setEstimate active.direction estimate)

/-- The state of an asset once an observation in another direction has ended. -/
def endOtherObservation (state : SourceExpectancyState D)
    (desired : Option SourceSignalDirection) (midpoint : D) (now : ℕ) :
    Except LiveShadowError (SourceExpectancyState D) :=
  match state.active with
  | none => .ok state
  | some active =>
    if desired = some active.direction then .ok state
    else endObservation state active midpoint now

/-- A signal in a direction is observed from now on, where none is yet. -/
def beginObservation (state : SourceExpectancyState D) (direction : SourceSignalDirection)
    (midpoint : D) (now : ℕ) : SourceExpectancyState D :=
  if state.active.isNone then { state with active := some ⟨midpoint, now, direction⟩ } else state

def observeSourceSignal (states : ExtTreeMap String (SourceExpectancyState D)) (asset : String)
    (desiredTarget midpoint : D) (now : ℕ) :
    Except LiveShadowError
      (ExtTreeMap String (SourceExpectancyState D) × SourceExpectancyEstimate D) :=
  if Decimal.le midpoint Decimal.zero then .error (.invalidMarket asset)
  else
    let desired := SourceSignalDirection.fromTarget desiredTarget
    if desired.isNone && !states.contains asset then .ok (states, .default)
    else do
      let ended ← endOtherObservation (states[asset]?.getD .default) desired midpoint now
      match desired with
      | none => pure (states.insert asset ended, .default)
      | some direction =>
        let begun := beginObservation ended direction midpoint now
        pure (states.insert asset begun, begun.estimate direction)

/-- The types of what the strategy keeps: the settings of the technical engine, the candles and
scores of its assets, its decision states, and the cohort engine. -/
structure StrategyTypes where
  Configuration : Type
  Assets : Type
  DecisionStates : Type
  CohortEngine : Type

structure TechnicalFunnel where
  closedCandlesAccepted : ℕ
  identicalCandleDuplicates : ℕ
  conflictingCandles : ℕ
  evaluations : ℕ
  indicatorsReady : ℕ
  regimeClassifications : ℕ
  scoresCrossingEntryThreshold : ℕ
  primaryTriggerCandidates : ℕ
  secondaryTriggerConfirmations : ℕ
  triggerConfirmations : ℕ
  nonzeroTargetsBeforeCost : ℕ
  targetsSurvivingCostAdmission : ℕ
deriving DecidableEq

def TechnicalFunnel.default : TechnicalFunnel := ⟨0, 0, 0, 0, 0, 0, 0, 0, 0, 0, 0, 0⟩

structure TechnicalEngineState (S : StrategyTypes) where
  configuration : S.Configuration
  assets : S.Assets
  funnel : TechnicalFunnel

def TechnicalEngineState.resetFunnel {S : StrategyTypes} (engine : TechnicalEngineState S) :
    TechnicalEngineState S :=
  { engine with funnel := .default }

structure SnapshotIdentity where
  sourceTreeSha256 : String
  observerBinarySha256 : String
  configurationSha256 : String
  riskPolicySha256 : String
deriving DecidableEq

/-- The fields of `LiveShadowEngine` that a snapshot takes or a restore sets. -/
structure UnsignedObserver (D : Type) [Decimal D] (S : StrategyTypes) where
  engine : DecisionEngine D
  technicalConfiguration : S.Configuration
  technicalEngine : TechnicalEngineState S
  technicalDecisionState : S.DecisionStates
  veryProfitableLayerSha256 : Option String
  veryProfitableEngine : S.CohortEngine
  sourceExpectancy : ExtTreeMap String (SourceExpectancyState D)
  sourceExpectancyTimeOffset : ℕ
  sourceExpectancyTimeHighWatermark : ℕ
  snapshotGeneration : Option ℕ

structure UnsignedObserverState (D : Type) [Decimal D] (S : StrategyTypes) where
  ledger : DualLedger D
  targetLedger : VirtualTargetLedger D
  technicalEngine : TechnicalEngineState S
  technicalDecisionState : S.DecisionStates
  veryProfitableEngine : S.CohortEngine
  veryProfitableLayerArtifactSha256 : Option String
  decisionSequence : ℕ
  continuations : ExtTreeMap String ContinuationIntent
  accruedFunding : ExtTreeMap String D
  lastMids : Option (ExtTreeMap String D)
  sourceExpectancy : ExtTreeMap String (SourceExpectancyState D)
  sourceExpectancyTimeHighWatermark : ℕ
  ledgerTimeHighWatermark : ℕ

/-- A snapshot, the checksum of its other fields left out. -/
structure UnsignedSnapshotEnvelope (D : Type) [Decimal D] (S : StrategyTypes) where
  schemaVersion : ℕ
  generation : ℕ
  identity : SnapshotIdentity
  payload : UnsignedObserverState D S

def unsignedSnapshotSchemaVersion : ℕ := 5

variable {S : StrategyTypes}

def PendingAction.asContinuation (pending : PendingAction D) : ContinuationIntent where
  rootPlannedCloid := pending.rootPlannedCloid
  parentPlannedCloid := pending.parentPlannedCloid.getD pending.rootPlannedCloid
  nextRetryGeneration := pending.action.retryGeneration
  kind := pending.continuationKind.getD .partialIocRemainder

/-- The continuations with those of the pending retries. -/
def DecisionEngine.persistedContinuations (engine : DecisionEngine D) :
    ExtTreeMap String ContinuationIntent :=
  engine.pending.toList.foldl (fun continuations entry =>
    if 0 < entry.2.action.retryGeneration then
      continuations.insert entry.1 entry.2.asContinuation
    else continuations) engine.continuations

namespace UnsignedObserver

def unsignedState (observer : UnsignedObserver D S) : UnsignedObserverState D S where
  ledger := observer.engine.ledger
  targetLedger := observer.engine.targetLedger
  technicalEngine := observer.technicalEngine
  technicalDecisionState := observer.technicalDecisionState
  veryProfitableEngine := observer.veryProfitableEngine
  veryProfitableLayerArtifactSha256 := observer.veryProfitableLayerSha256
  decisionSequence := observer.engine.decisionSequence
  continuations := observer.engine.persistedContinuations
  accruedFunding := observer.engine.accruedFunding
  lastMids := observer.engine.mids.map Prod.fst
  sourceExpectancy := observer.sourceExpectancy
  sourceExpectancyTimeHighWatermark := observer.sourceExpectancyTimeHighWatermark
  ledgerTimeHighWatermark := observer.engine.ledgerTimeHighWatermark

def nextGeneration (observer : UnsignedObserver D S) : Except LiveShadowError ℕ :=
  match observer.snapshotGeneration with
  | some previous => orArithmetic (checkedAddU64 previous 1)
  | none => .ok 0

/-- The snapshot written, where every file operation succeeds, and the observer after it. -/
def persistUnsignedState (observer : UnsignedObserver D S) (identity : SnapshotIdentity) :
    Except LiveShadowError (UnsignedObserver D S × UnsignedSnapshotEnvelope D S) := do
  let generation ← observer.nextGeneration
  pure ({ observer with snapshotGeneration := some generation }, {
    schemaVersion := unsignedSnapshotSchemaVersion
    generation
    identity
    payload := observer.unsignedState })

def decodeUnsignedSnapshot (envelope : UnsignedSnapshotEnvelope D S)
    (expectedIdentity : SnapshotIdentity) :
    Except LiveShadowError (UnsignedSnapshotEnvelope D S) :=
  if envelope.schemaVersion != unsignedSnapshotSchemaVersion then
    .error (.core "unsupported unsigned snapshot schema")
  else if envelope.identity != expectedIdentity then
    .error (.core "unsigned snapshot identity mismatch")
  else .ok envelope

def validateEstimate (estimate : SourceExpectancyEstimate D) : Except LiveShadowError Unit :=
  if Decimal.lt estimate.ewmaLifetimeSeconds Decimal.zero
      || (estimate.count == 0 && (!Decimal.isZero estimate.ewmaGrossReturnBps
        || !Decimal.isZero estimate.ewmaLifetimeSeconds)) then
    .error (.core "unsigned shadow source expectancy is invalid")
  else .ok ()

/-- The check of the expectancy of one asset. -/
def validateSourceState (highWatermark : ℕ) (entry : String × SourceExpectancyState D) :
    Except LiveShadowError Unit :=
  if entry.1.isEmpty then
    .error (.core "unsigned shadow source expectancy has empty asset")
  else do
    checkAll validateEstimate [entry.2.long, entry.2.short]
    if entry.2.active.any fun active =>
        Decimal.le active.entryMidpoint Decimal.zero || highWatermark < active.entryTimestamp then
      .error (.core "unsigned shadow active source observation is invalid")
    else .ok ()

/-- Every asset with a position has a mark. -/
def validateMark (lastMids : Option (ExtTreeMap String D)) (asset : String) :
    Except LiveShadowError Unit :=
  if (lastMids.bind fun mids => mids[asset]?).isNone then
    .error (.core ("unsigned shadow state missing mark for open asset " ++ asset))
  else .ok ()

/-- The checks of a state before anything of it is taken over. -/
def validateState [DecidableEq S.Configuration] (observer : UnsignedObserver D S)
    (state : UnsignedObserverState D S) : Except LiveShadowError Unit := do
  state.ledger.validateIntegrity.mapError fun error => .core error.text
  state.targetLedger.validateIntegrity.mapError fun error => .core error.text
  checkAll (validateSourceState state.sourceExpectancyTimeHighWatermark)
    state.sourceExpectancy.toList
  if state.technicalEngine.configuration ≠ observer.technicalConfiguration then
    .error (.core "unsigned shadow technical configuration mismatch")
  else if state.veryProfitableLayerArtifactSha256 ≠ observer.veryProfitableLayerSha256 then
    .error (.core "unsigned shadow cohort-layer identity mismatch")
  else checkAll (validateMark state.lastMids) state.ledger.portfolio.positions.keys

def rebuiltPreviousTarget [Sha256] [DecimalNormalize D] (targetLedger : VirtualTargetLedger D) :
    Except LiveShadowError (Option PreviousTargetState) :=
  match targetLedger.latestTargetVersion with
  | none => .ok none
  | some version => do
    let targetHash ← orIdentity (canonicalTargetHash targetLedger.admittedTargets)
    pure (some ⟨version, targetHash⟩)

def takeOver [Sha256] [DecimalNormalize D] (observer : UnsignedObserver D S) (generation : ℕ)
    (state : UnsignedObserverState D S) : Except LiveShadowError (UnsignedObserver D S) := do
  let sourceExpectancyTimeOffset ← orArithmetic
    (checkedAddU64 state.sourceExpectancyTimeHighWatermark 1)
  let ledgerTimeOffset ← orArithmetic (checkedAddU64 state.ledgerTimeHighWatermark 1)
  let previousTarget ← rebuiltPreviousTarget state.targetLedger
  pure { observer with
    engine := { observer.engine with
      ledger := state.ledger
      targetLedger := state.targetLedger
      decisionSequence := state.decisionSequence
      continuations := state.continuations
      accruedFunding := state.accruedFunding
      mids := state.lastMids.map fun mids => (mids, 0)
      ledgerTimeOffset
      ledgerTimeHighWatermark := state.ledgerTimeHighWatermark
      lastFundingAccrual := none
      previousTarget
      pending := ∅
      pendingBook := ∅ }
    technicalEngine := state.technicalEngine.resetFunnel
    technicalDecisionState := state.technicalDecisionState
    veryProfitableEngine := state.veryProfitableEngine
    sourceExpectancy := state.sourceExpectancy
    sourceExpectancyTimeOffset
    sourceExpectancyTimeHighWatermark := state.sourceExpectancyTimeHighWatermark
    snapshotGeneration := some generation }

def restoreUnsignedState [Sha256] [DecimalNormalize D] [DecidableEq S.Configuration]
    (observer : UnsignedObserver D S) (envelope : UnsignedSnapshotEnvelope D S)
    (expectedIdentity : SnapshotIdentity) : Except LiveShadowError (UnsignedObserver D S) := do
  let decoded ← decodeUnsignedSnapshot envelope expectedIdentity
  observer.validateState decoded.payload
  observer.takeOver decoded.generation decoded.payload

/-- An observer before its first call. -/
def start (engineInstance : Bytes 16) (productionIdentity : Option ProductionIntentIdentity)
    (technicalConfiguration : S.Configuration) (layerSha256 : Option String)
    (assets : S.Assets) (decisionStates : S.DecisionStates) (cohort : S.CohortEngine) :
    UnsignedObserver D S where
  engine := .start engineInstance productionIdentity
  technicalConfiguration
  technicalEngine := ⟨technicalConfiguration, assets, .default⟩
  technicalDecisionState := decisionStates
  veryProfitableLayerSha256 := layerSha256
  veryProfitableEngine := cohort
  sourceExpectancy := ∅
  sourceExpectancyTimeOffset := 0
  sourceExpectancyTimeHighWatermark := 0
  snapshotGeneration := none

end UnsignedObserver

/-- A call of the engine, with what the strategy keeps after it and the signals a decision observes,
the desired source target of every asset of its universe.  No asset of the universe has an empty
name: responses and candles that name one are refused. -/
structure ObservedCall (D : Type) [Decimal D] (S : StrategyTypes) where
  call : EngineCall D
  assets : S.Assets
  funnel : TechnicalFunnel
  decisionStates : S.DecisionStates
  cohort : S.CohortEngine
  signals : List (String × D)
  named : ∀ signal ∈ signals, signal.1.isEmpty = false

namespace UnsignedObserver

/-- The signal of one asset, at the price the decision reads. -/
def observeSignal (mids : ExtTreeMap String D) (now : ℕ)
    (states : ExtTreeMap String (SourceExpectancyState D)) (signal : String × D) :
    Except LiveShadowError (ExtTreeMap String (SourceExpectancyState D)) :=
  match mids[signal.1]? with
  | none => .error (.invalidMarket signal.1)
  | some mark => (observeSourceSignal states signal.1 signal.2 mark now).map Prod.fst

/-- What a decision does to the expectancy of the sources. -/
def observeSignals (observer : UnsignedObserver D S) (now : ℕ) (signals : List (String × D)) :
    Except LiveShadowError (UnsignedObserver D S) := do
  let expectancyNow ← orArithmetic (checkedAddU64 observer.sourceExpectancyTimeOffset now)
  let mids := (observer.engine.mids.map Prod.fst).getD ∅
  let sourceExpectancy ← signals.foldlM (observeSignal mids expectancyNow)
    observer.sourceExpectancy
  pure { observer with
    sourceExpectancy
    sourceExpectancyTimeHighWatermark :=
      max observer.sourceExpectancyTimeHighWatermark expectancyNow }

def withStrategy (observer : UnsignedObserver D S) (observed : ObservedCall D S) :
    UnsignedObserver D S :=
  { observer with
    technicalEngine := ⟨observer.technicalEngine.configuration, observed.assets, observed.funnel⟩
    technicalDecisionState := observed.decisionStates
    veryProfitableEngine := observed.cohort }

/-- One call, and the decision it makes, if any. -/
def call [Sha256] [DecimalNormalize D] [IntentEncoding D] (settings : EngineSettings D)
    (observer : UnsignedObserver D S) (observed : ObservedCall D S) :
    Except LiveShadowError (UnsignedObserver D S × Option (PlannedDecision D)) := do
  let (engine, planned) ← observer.engine.call settings observed.call
  let called := { observer with engine }.withStrategy observed
  match planned with
  | none => pure (called, none)
  | some planned => do
    let decided ← called.observeSignals planned.decision.createdAtMono observed.signals
    pure (decided, some planned)

end UnsignedObserver

/-- What every process of an observer has in common: its settings, the identity of its snapshots,
the settings of its technical engine, its cohort layer, and what the strategy keeps before its
first candle. -/
structure ObserverSetup (S : StrategyTypes) where
  identity : SnapshotIdentity
  technicalConfiguration : S.Configuration
  layerSha256 : Option String
  assets : S.Assets
  decisionStates : S.DecisionStates
  cohort : S.CohortEngine

def ObserverSetup.fresh (setup : ObserverSetup S) (engineInstance : Bytes 16)
    (productionIdentity : Option ProductionIntentIdentity) : UnsignedObserver D S :=
  .start engineInstance productionIdentity setup.technicalConfiguration setup.layerSha256
    setup.assets setup.decisionStates setup.cohort

/-- An observer's process.  The clock of a process shows zero at the real time `epochMs`; the prices
of its engine have been received at the real time `midsReceivedAtMs`, in this process or in one
whose snapshot it has restored. -/
structure UnsignedRun (D : Type) [Decimal D] (S : StrategyTypes) where
  observer : UnsignedObserver D S
  epochMs : ℕ
  midsReceivedAtMs : Option ℕ
  midsRestored : Bool
  lastTargets : Option (ExtTreeMap String D)
  snapshot : Option (UnsignedSnapshotEnvelope D S × Option ℕ)
  stopped : Option LiveShadowError

/-- What happens to an observer: a call of its engine at a real time, a snapshot, or the start of a
new process. -/
inductive UnsignedCall (D : Type) [Decimal D] (S : StrategyTypes)
  | engine (atMs : ℕ) (observed : ObservedCall D S)
  | persist
  | restart (epochMs : ℕ) (engineInstance : Bytes 16)
      (productionIdentity : Option ProductionIntentIdentity)

namespace UnsignedRun

/-- The first process of an observer, without a snapshot. -/
def start (setup : ObserverSetup S) (epochMs : ℕ) (engineInstance : Bytes 16)
    (productionIdentity : Option ProductionIntentIdentity) : UnsignedRun D S where
  observer := setup.fresh engineInstance productionIdentity
  epochMs
  midsReceivedAtMs := none
  midsRestored := false
  lastTargets := none
  snapshot := none
  stopped := none

def afterCall (run : UnsignedRun D S) (observed : ObservedCall D S)
    (observer : UnsignedObserver D S) (planned : Option (PlannedDecision D)) : UnsignedRun D S :=
  let called := { run with
    observer
    lastTargets := (planned.map fun planned =>
      planned.decision.projection.constrainedTargets).or run.lastTargets }
  match observed.call with
  | .marketSnapshot _ receivedAt =>
    { called with midsReceivedAtMs := some (run.epochMs + receivedAt), midsRestored := false }
  | _ => called

/-- The run after a restore: its prices are those of the snapshot, and its targets the admitted
ones. -/
def afterRestore (run : UnsignedRun D S) (receivedAtMs : Option ℕ)
    (observer : UnsignedObserver D S) : UnsignedRun D S :=
  { run with
    observer
    midsReceivedAtMs := receivedAtMs
    midsRestored := true
    lastTargets := observer.engine.previousTarget.map fun _ =>
      observer.engine.targetLedger.admittedTargets }

section

variable [Sha256] [DecimalNormalize D] [IntentEncoding D] [DecidableEq S.Configuration]

/-- A new process: it restores the snapshot, where there is one. -/
def restart (setup : ObserverSetup S) (run : UnsignedRun D S) (epochMs : ℕ)
    (engineInstance : Bytes 16) (productionIdentity : Option ProductionIntentIdentity) :
    UnsignedRun D S :=
  let fresh := { UnsignedRun.start setup epochMs engineInstance productionIdentity with
    snapshot := run.snapshot }
  match run.snapshot with
  | none => fresh
  | some (envelope, receivedAtMs) =>
    match fresh.observer.restoreUnsignedState envelope setup.identity with
    | .error error => { fresh with stopped := some error }
    | .ok observer => fresh.afterRestore receivedAtMs observer

/-- A process goes on until a call fails; then only a new process does something. -/
def step (settings : EngineSettings D) (setup : ObserverSetup S) (run : UnsignedRun D S)
    (call : UnsignedCall D S) : UnsignedRun D S :=
  match call with
  | .restart epochMs engineInstance productionIdentity =>
    run.restart setup epochMs engineInstance productionIdentity
  | .engine _ observed =>
    if run.stopped.isSome then run
    else
      match run.observer.call settings observed with
      | .error error => { run with stopped := some error }
      | .ok (observer, planned) => run.afterCall observed observer planned
  | .persist =>
    if run.stopped.isSome then run
    else
      match run.observer.persistUnsignedState setup.identity with
      | .error error => { run with stopped := some error }
      | .ok (observer, envelope) => { run with
          observer
          snapshot := some (envelope, run.midsReceivedAtMs) }

end

end UnsignedRun

end CopyTrade.Model
