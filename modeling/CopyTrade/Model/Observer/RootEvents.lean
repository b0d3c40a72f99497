import CopyTrade.Model.Observer.UnsignedState

/-!
# The roots of actions

`executable_density_summary` of crates/copytrade-observer/src/live_shadow.rs, as far as it counts
roots, and the two logs of events it counts them from.  A decision and the attempt at a book write
these logs; the functions below say which events each of them writes, beside the functions of the
engine that say what it does.  A new process starts with empty logs.
-/

namespace CopyTrade.Model

open Foundation
open Std (ExtTreeMap ExtTreeSet)

inductive BookEvaluationOutcome
  | pendingBookEvaluation
  | recomputedAction
  | noLongerRequired
  | belowExchangeMinimumAfterCurrentRecompute
deriving DecidableEq

/-- What has become of an action that waited for a book, without what only goes into reports. -/
structure BookEvaluationEvent where
  asset : String
  originalPlannedCloid : String
  outcome : BookEvaluationOutcome
deriving DecidableEq

inductive ActionAttemptOutcome
  | executedFully
  | executedPartiallyRemainderReplanned
  | closeFirstCompletedRecompute
  | supersededByNewTarget
  | noLongerRequired
  | blockedByCurrentRisk
  | belowExchangeMinimumAfterCurrentRecompute
  | exchangeRejected
deriving DecidableEq

/-- What has become of an action, without what only goes into reports. -/
structure ActionLifecycleEvent where
  asset : String
  rootPlannedCloid : String
  outcome : ActionAttemptOutcome
deriving DecidableEq

structure RootLog where
  bookEvaluationEvents : List BookEvaluationEvent
  actionLifecycleEvents : List ActionLifecycleEvent
deriving DecidableEq

namespace RootLog

def empty : RootLog := ⟨[], []⟩

def append (log events : RootLog) : RootLog where
  bookEvaluationEvents := log.bookEvaluationEvents ++ events.bookEvaluationEvents
  actionLifecycleEvents := log.actionLifecycleEvents ++ events.actionLifecycleEvents

end RootLog

/-- The terminal class of an outcome, if it is one. -/
def BookEvaluationOutcome.terminal : BookEvaluationOutcome → Option String
  | noLongerRequired => some "no_longer_required"
  | belowExchangeMinimumAfterCurrentRecompute => some "below_minimum"
  | pendingBookEvaluation | recomputedAction => none

def ActionAttemptOutcome.terminal : ActionAttemptOutcome → Option String
  | executedFully => some "satisfied"
  | supersededByNewTarget | noLongerRequired => some "no_longer_required"
  | belowExchangeMinimumAfterCurrentRecompute => some "below_minimum"
  | blockedByCurrentRisk | exchangeRejected => some "hard_blocked_or_rejected"
  | executedPartiallyRemainderReplanned | closeFirstCompletedRecompute => none

/-- The roots the events name, each with the terminal class of its event. -/
def RootLog.entries (log : RootLog) : List (String × Option String) :=
  log.bookEvaluationEvents.map (fun event => (event.originalPlannedCloid, event.outcome.terminal)) ++
    log.actionLifecycleEvents.map fun event => (event.rootPlannedCloid, event.outcome.terminal)

/-- A terminal outcome is the class of its root, in place of any other. -/
def recordTerminal (terminal : ExtTreeMap String String) (entry : String × Option String) :
    ExtTreeMap String String :=
  match entry.2 with
  | some value => terminal.insert entry.1 value
  | none => terminal

/-- The class of every root with a terminal outcome; the last event decides. -/
def RootLog.terminal (log : RootLog) : ExtTreeMap String String :=
  log.entries.foldl recordTerminal ∅

structure RootSummary where
  rootActionableTargets : ℕ
  terminallySatisfiedTargets : ℕ
  noLongerRequiredTargets : ℕ
  belowMinimumCurrentResiduals : ℕ
  hardBlockedOrRejectedTargets : ℕ
  unresolvedActionableTargets : ℕ
  rootConservationVerified : Bool
deriving DecidableEq

variable {D : Type} [Decimal D] {S : StrategyTypes}

namespace DecisionEngine

/-- The roots of the events, the pending actions and the continuations. -/
def roots (engine : DecisionEngine D) (log : RootLog) : ExtTreeSet String :=
  ExtTreeSet.ofList (log.entries.map Prod.fst ++
    engine.pending.values.map PendingAction.rootPlannedCloid ++
      engine.continuations.values.map ContinuationIntent.rootPlannedCloid) compare

/-- The roots without a terminal outcome. -/
def unresolvedRoots (engine : DecisionEngine D) (log : RootLog) : List String :=
  (engine.roots log).toList.filter fun root => !log.terminal.contains root

def rootSummary (engine : DecisionEngine D) (log : RootLog) : RootSummary :=
  let countTerminal := fun name => (log.terminal.values.filter (· == name)).length
  let satisfied := countTerminal "satisfied"
  let noLongerRequired := countTerminal "no_longer_required"
  let belowMinimum := countTerminal "below_minimum"
  let hardBlockedOrRejected := countTerminal "hard_blocked_or_rejected"
  let unresolved := (engine.unresolvedRoots log).length
  { rootActionableTargets := (engine.roots log).size
    terminallySatisfiedTargets := satisfied
    noLongerRequiredTargets := noLongerRequired
    belowMinimumCurrentResiduals := belowMinimum
    hardBlockedOrRejectedTargets := hardBlockedOrRejected
    unresolvedActionableTargets := unresolved
    rootConservationVerified := (engine.roots log).size ==
      satisfied + noLongerRequired + belowMinimum + hardBlockedOrRejected + unresolved }

/-- The notional of every action of a decision, executable or not. -/
def proposedNotionals [Sha256] (engine : DecisionEngine D) (decision : DecisionRecord D)
    (filled : ExtTreeMap String D) : Except LiveShadowError (ExtTreeMap String D) := do
  let actions ← engine.plannedActions decision filled
  pure (ExtTreeMap.ofList (actions.map fun action => (action.asset, action.roundedNotional)) compare)

/-- The events of what a decision does not require any more. -/
def dropEvents (engine : DecisionEngine D) (now : ℕ)
    (executable : ExtTreeMap String (Lifecycle.PlannedAction D))
    (proposed : ExtTreeMap String D) : RootLog :=
  let stillProposed := fun asset => proposed[asset]?.any fun value => !Decimal.isZero value
  { bookEvaluationEvents :=
      (engine.pendingBook.toList.filter fun entry =>
        engine.invalidated now executable entry.1).map fun entry => {
          asset := entry.1
          originalPlannedCloid := entry.2
          outcome :=
            if stillProposed entry.1 then .belowExchangeMinimumAfterCurrentRecompute
            else .noLongerRequired }
    actionLifecycleEvents :=
      (engine.continuations.toList.filter fun entry => !executable.contains entry.1).map
        fun entry => {
          asset := entry.1
          rootPlannedCloid := entry.2.rootPlannedCloid
          outcome :=
            if stillProposed entry.1 then .belowExchangeMinimumAfterCurrentRecompute
            else .noLongerRequired } }

/-- The events of one executable action, where its asset has a book: the action that waited for it
is recomputed, and the pending one superseded. -/
def planAssetEvents (allocated : AllocatedTargets D) (engine : DecisionEngine D) (asset : String)
    (action : Lifecycle.PlannedAction D) : Except LiveShadowError RootLog := do
  let rules ← (match allocated.marketRules[asset]? with
    | none => .error (.invalidMarket asset)
    | some rules => .ok rules)
  let tolerance ← orArithmetic (Decimal.checkedMul rules.markPrice rules.sizeStep)
  match engine.preserved asset action tolerance with
  | some _ => pure .empty
  | none => pure {
      bookEvaluationEvents := engine.pendingBook[asset]?.toList.map fun cloid =>
        ⟨asset, cloid, .recomputedAction⟩
      actionLifecycleEvents := (engine.pending[asset]?.filter fun previous =>
        previous.action.plannedCloid != action.plannedCloid).toList.map fun previous =>
          ⟨asset, previous.rootPlannedCloid, .supersededByNewTarget⟩ }

/-- The events of one round of the loop over the executable actions. -/
def planExecutableEvents (allocated : AllocatedTargets D) (now : ℕ) (engine : DecisionEngine D)
    (entry : String × Lifecycle.PlannedAction D) : Except LiveShadowError RootLog :=
  match engine.freshBook now entry.1 with
  | none => .ok (if engine.pendingBook.contains entry.1 then .empty
      else ⟨[⟨entry.1, toHex entry.2.plannedCloid, .pendingBookEvaluation⟩], []⟩)
  | some _ => planAssetEvents allocated engine entry.1 entry.2

def planExecutableLogged (allocated : AllocatedTargets D) (decision : DecisionRecord D)
    (input : PortfolioProjectionInput D) (now : ℕ) (state : DecisionEngine D × RootLog)
    (entry : String × Lifecycle.PlannedAction D) :
    Except LiveShadowError (DecisionEngine D × RootLog) := do
  let engine ← planExecutable allocated decision input now state.1 entry
  let events ← planExecutableEvents allocated now state.1 entry
  pure (engine, state.2.append events)

def commitEvents (engine : DecisionEngine D) (now : ℕ) (allocated : AllocatedTargets D)
    (planned : PlannedDecision D) (proposed : ExtTreeMap String D) :
    Except LiveShadowError RootLog := do
  let filled := engine.filledPositions allocated.marketRules
  let placed ← planned.executable.toList.foldlM
    (planExecutableLogged allocated planned.decision (allocated.projectionInput filled ∅) now)
    (engine.dropUnrequired now planned.executable,
      engine.dropEvents now planned.executable proposed)
  pure placed.2

def decisionEvents [Sha256] [DecimalNormalize D] (settings : EngineSettings D)
    (engine : DecisionEngine D) (now : ℕ) (strategy : Strategy D) :
    Except LiveShadowError RootLog := do
  let accrued ← engine.accrueFunding now
  match accrued.freshMids settings now, accrued.metadata with
  | some mids, some metadata => do
    let allocated ← strategy (accrued.strategyView mids metadata now)
    let (numbered, planned) ← accrued.planDecision now allocated
    let proposed ← numbered.proposedNotionals planned.decision
      (accrued.filledPositions allocated.marketRules)
    numbered.commitEvents now allocated planned proposed
  | _, _ => pure .empty

def fillOutcome : ExecutionRecompute → ActionAttemptOutcome
  | .none => .executedFully
  | .partialIocRemainder => .executedPartiallyRemainderReplanned
  | .closeFirstReversal => .closeFirstCompletedRecompute

/-- The events of an attempt at a book that leaves `recompute` to be done: an order below the
exchange minimum is dropped, one in the shadow ledger has an outcome, and one that goes to
production has none. -/
def attemptEvents (settings : EngineSettings D) (engine : DecisionEngine D)
    (book : OrderBookResponse D) (receivedAt : ℕ) (recompute : ExecutionRecompute) :
    Except LiveShadowError RootLog :=
  match engine.pending[book.asset]? with
  | none => .ok .empty
  | some pending =>
    let attempt := engine.attemptOf pending book receivedAt
    if attempt.isEarly settings.toShadowSettings then .ok .empty
    else do
      match ← attemptOrder settings.toShadowSettings attempt
          (engine.authoritativePosition book.asset), engine.productionIdentity with
      | none, _ => pure ⟨[], [⟨book.asset, pending.rootPlannedCloid,
          .belowExchangeMinimumAfterCurrentRecompute⟩]⟩
      | some _, some _ => pure .empty
      | some _, none => pure ⟨[], [⟨book.asset, pending.rootPlannedCloid, fillOutcome recompute⟩]⟩

def callEvents [Sha256] [DecimalNormalize D] [IntentEncoding D] (settings : EngineSettings D)
    (engine : DecisionEngine D) : EngineCall D → Except LiveShadowError RootLog
  | .orderBook book receivedAt technicalDesired strategy => do
    let booked := { engine with books := engine.books.insert book.asset (book, receivedAt) }
    let (executed, recompute) ← booked.tryExecutePending settings book receivedAt technicalDesired
    let attempted ← booked.attemptEvents settings book receivedAt recompute
    if engine.pendingBook.contains book.asset || recompute != .none then do
      let decided ← executed.decisionEvents settings receivedAt strategy
      pure (attempted.append decided)
    else pure attempted
  | .decision now strategy => engine.decisionEvents settings now strategy
  | _ => .ok .empty

end DecisionEngine

/-- An observer's process with the logs of its engine. -/
structure RootRun (D : Type) [Decimal D] (S : StrategyTypes) where
  run : UnsignedRun D S
  log : RootLog

namespace RootRun

def start (setup : ObserverSetup S) (epochMs : ℕ) (engineInstance : Bytes 16)
    (productionIdentity : Option ProductionIntentIdentity) : RootRun D S :=
  ⟨.start setup epochMs engineInstance productionIdentity, .empty⟩

def engine (state : RootRun D S) : DecisionEngine D := state.run.observer.engine

/-- A call that succeeds writes its events; a new process has no events. -/
def step [Sha256] [DecimalNormalize D] [IntentEncoding D] [DecidableEq S.Configuration]
    (settings : EngineSettings D) (setup : ObserverSetup S) (state : RootRun D S)
    (call : UnsignedCall D S) : RootRun D S where
  run := state.run.step settings setup call
  log :=
    match call with
    | .restart _ _ _ => .empty
    | .persist => state.log
    | .engine _ observed =>
      if state.run.stopped.isSome then state.log
      else
        match state.run.observer.call settings observed,
            state.engine.callEvents settings observed.call with
        | .ok _, .ok events => state.log.append events
        | _, _ => state.log

end RootRun

end CopyTrade.Model
