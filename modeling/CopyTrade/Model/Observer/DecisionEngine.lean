import CopyTrade.Model.Observer.DecisionRecord
import CopyTrade.Model.Observer.ProductionState

/-!
# The decision engine

`construct_next_decision`, `try_execute_pending` and `ingest` of
crates/copytrade-observer/src/live_shadow.rs with the state they share: the pending actions, the
actions that wait for a book, the continuations, the books, the prices, the targets, the shadow
ledger and the production state.  The strategy (consensus, technical and cohort targets, allocation)
is an input of every decision, a function of what it reads of the engine (`StrategyView`).

An error of any of these calls ends the process, so the engine an error leaves behind is not
modelled.  Counters, metrics and the records written for reports are left out.
-/

namespace CopyTrade.Model

open Foundation
open Std (ExtTreeMap)

/-- The names of the `universe` in order, and the hourly funding rate of each asset. -/
structure MarketMetadata (D : Type) where
  assetNames : List String
  fundingRateHourly : ExtTreeMap String D

inductive ContinuationKind
  | partialIocRemainder
  | closeFirstReversal
deriving DecidableEq

structure ContinuationIntent where
  rootPlannedCloid : String
  parentPlannedCloid : String
  nextRetryGeneration : UInt32
  kind : ContinuationKind
deriving DecidableEq

/-- A pending action.  The component targets are kept as what they are computed from, the
contributions and the constrained target of the asset. -/
structure PendingAction (D : Type) [Decimal D] where
  action : Lifecycle.PlannedAction D
  rootPlannedCloid : String
  parentPlannedCloid : Option String
  decisionBook : ShadowMarketSnapshot D
  contributions : Option (ExtTreeMap String D)
  constrainedTarget : D
  rules : AcceptedRules D
  projectionInput : PortfolioProjectionInput D
  riskPolicyHash : Hash
  configurationHash : Hash
  continuationKind : Option ContinuationKind

structure EngineSettings (D : Type) extends ShadowSettings D where
  sourceSnapshotMaxAgeMs : ℕ

/-- The part of `LiveShadowEngine` that decisions, books and orders read and write.  An action that
waits for a book is kept as its planned cloid. -/
structure DecisionEngine (D : Type) [Decimal D] where
  engineInstance : Bytes 16
  decisionSequence : ℕ
  previousTarget : Option PreviousTargetState
  targetLedger : VirtualTargetLedger D
  mids : Option (ExtTreeMap String D × ℕ)
  metadata : Option (MarketMetadata D)
  books : ExtTreeMap String (OrderBookResponse D × ℕ)
  pending : ExtTreeMap String (PendingAction D)
  pendingBook : ExtTreeMap String String
  continuations : ExtTreeMap String ContinuationIntent
  ledger : DualLedger D
  ledgerTimeOffset : ℕ
  ledgerTimeHighWatermark : ℕ
  lastFundingAccrual : Option ℕ
  accruedFunding : ExtTreeMap String D
  productionIdentity : Option ProductionIntentIdentity
  productionPositions : Option (ExtTreeMap String D)
  productionEquities : Option (D × D × D)
  productionExposureBlocked : Bool
  emittedProductionCloids : List PlannedCloid
  preparedAuthorizedIntents : List (AuthorizedExecutionIntent D)

/-- What the strategy reads of an engine: the time, the prices, the positions and held assets, the
equities of production or the shadow ledger they are computed from without these, and the
positions of the components of each asset. -/
structure StrategyView (D : Type) where
  now : ℕ
  mids : ExtTreeMap String D
  metadata : MarketMetadata D
  position : String → D
  heldAssets : List String
  productionEquities : Option (D × D × D)
  shadowLedger : Option (DualLedger D)
  sourcePositions : String → ExtTreeMap String D

abbrev Strategy (D : Type) [Decimal D] :=
  StrategyView D → Except LiveShadowError (AllocatedTargets D)

/-- A decision, the market rules it was made under and the actions that can be executed for it. -/
structure PlannedDecision (D : Type) [Decimal D] where
  decision : DecisionRecord D
  marketRules : ExtTreeMap String (AcceptedRules D)
  executable : ExtTreeMap String (Lifecycle.PlannedAction D)

inductive ExecutionRecompute
  | none
  | partialIocRemainder
  | closeFirstReversal
deriving DecidableEq

inductive BookActionResolution
  | awaitBook
  | recomputeWithFreshBook
  | invalidateAfterRecompute
  | noIntent
deriving DecidableEq

def resolveBookAction (waiting freshBook executableNow : Bool) : BookActionResolution :=
  match waiting, freshBook, executableNow with
  | _, false, true => .awaitBook
  | true, true, true => .recomputeWithFreshBook
  | true, true, false => .invalidateAfterRecompute
  | _, _, _ => .noIntent

variable {D : Type} [Decimal D]

def pendingActionIsImmaterialReplacement (previous next : Lifecycle.PlannedAction D)
    (notionalTolerance : D) : Bool :=
  previous.asset == next.asset && previous.side == next.side
    && previous.reduceOnly == next.reduceOnly
    && (Decimal.checkedSub previous.roundedNotional next.roundedNotional).any fun difference =>
      Decimal.lt (Decimal.abs difference) notionalTolerance

/-- `map_err(core)` of an identity error. -/
def orIdentity {α : Type} (step : Except IdentityError α) : Except LiveShadowError α :=
  step.mapError fun error => .core error.text

/-- `map_err(core)` of a target error. -/
def orTargetState {α : Type} (step : Except TargetStateError α) : Except LiveShadowError α :=
  step.mapError fun error => .core error.text

namespace DecisionEngine

def authoritativePosition (engine : DecisionEngine D) (asset : String) : D :=
  match engine.productionPositions.bind fun positions => positions[asset]? with
  | some quantity => quantity
  | none => engine.ledger.portfolioPosition asset

def authoritativeAssets (engine : DecisionEngine D) : List String :=
  match engine.productionPositions with
  | some positions => positions.keys
  | none => engine.ledger.portfolio.positions.keys

def strategyView (engine : DecisionEngine D) (mids : ExtTreeMap String D)
    (metadata : MarketMetadata D) (now : ℕ) : StrategyView D where
  now
  mids
  metadata
  position := engine.authoritativePosition
  heldAssets := engine.authoritativeAssets
  productionEquities := engine.productionEquities
  shadowLedger := if engine.productionEquities.isSome then none else some engine.ledger
  sourcePositions := engine.ledger.sourcePositionsForAsset

/-- The prices, unless they are too old. -/
def freshMids (engine : DecisionEngine D) (settings : EngineSettings D) (now : ℕ) :
    Option (ExtTreeMap String D) :=
  match engine.mids with
  | none => none
  | some (mids, receivedAt) =>
    if settings.sourceSnapshotMaxAgeMs < now - receivedAt then none else some mids

/-- The book of an asset, unless it is too old. -/
def freshBook (engine : DecisionEngine D) (now : ℕ) (asset : String) :
    Option (OrderBookResponse D × ℕ) :=
  engine.books[asset]?.filter fun book => now - book.2 ≤ 40000

def filledPositions (engine : DecisionEngine D) (rules : ExtTreeMap String (AcceptedRules D)) :
    ExtTreeMap String D :=
  rules.filterMap fun asset rules =>
    let quantity := engine.authoritativePosition asset
    if Decimal.isZero quantity then none else Decimal.checkedMul quantity rules.markPrice

def accrueAsset (ledger : DualLedger D) (mids : ExtTreeMap String D) (hours : D)
    (accrued : ExtTreeMap String D) (context : String × D) :
    Except LiveShadowError (ExtTreeMap String D) :=
  let quantity := ledger.portfolioPosition context.1
  match mids[context.1]? with
  | none => .ok accrued
  | some mark =>
    if Decimal.isZero quantity then .ok accrued
    else do
      let cost ← orArithmetic (((Decimal.checkedMul quantity mark).bind fun value =>
        Decimal.checkedMul value context.2).bind fun value => Decimal.checkedMul value hours)
      let entry ← orArithmetic
        (Decimal.checkedAdd (accrued[context.1]?.getD Decimal.zero) cost)
      pure (accrued.insert context.1 entry)

/-- The funding since the last accrual. -/
def accruedSince (engine : DecisionEngine D) (elapsed : ℕ) :
    Except LiveShadowError (ExtTreeMap String D) :=
  match engine.metadata, engine.mids with
  | some metadata, some (mids, _) => do
    let hours ← orArithmetic
      (Decimal.checkedDiv (Decimal.new elapsed 0) (Decimal.new 3600000 0))
    metadata.fundingRateHourly.toList.foldlM (accrueAsset engine.ledger mids hours)
      engine.accruedFunding
  | _, _ => .ok engine.accruedFunding

def accrueFunding (engine : DecisionEngine D) (now : ℕ) :
    Except LiveShadowError (DecisionEngine D) :=
  match engine.lastFundingAccrual with
  | none => .ok { engine with lastFundingAccrual := some now }
  | some previous =>
    if now - previous = 0 then .ok engine
    else do
      let accruedFunding ← engine.accruedSince (now - previous)
      pure { engine with accruedFunding, lastFundingAccrual := some now }

def replaceTargets (engine : DecisionEngine D) (decision : DecisionRecord D)
    (filledPositions acknowledgedOpen : ExtTreeMap String D) :
    Except LiveShadowError (DecisionEngine D) := do
  let targetLedger ← orTargetState (engine.targetLedger.replaceAbsoluteTargets {
    rawDesired := decision.unconstrainedTargets
    admittedTargets := decision.projection.constrainedTargets
    filled := filledPositions
    acknowledgedOpen
    unknownResult := ∅
    targetVersion := decision.targetVersion
    sourceSetId := decision.snapshotSetId })
  pure { engine with targetLedger }

/-- The actions of a decision; those of a continuation are identified anew. -/
def plannedActions [Sha256] (engine : DecisionEngine D) (decision : DecisionRecord D)
    (filledPositions : ExtTreeMap String D) :
    Except LiveShadowError (List (Lifecycle.PlannedAction D)) := do
  let actions ← orIdentity
    (constructPlannedActions engine.engineInstance decision filledPositions)
  orIdentity (actions.mapM fun action =>
    match engine.continuations[action.asset]? with
    | none => .ok action
    | some continuation => reidentifyContinuationAction engine.engineInstance action
        continuation.nextRetryGeneration)

/-- The actions that can be executed, by asset. -/
def executableActions (engine : DecisionEngine D) (decision : DecisionRecord D)
    (actions : List (Lifecycle.PlannedAction D)) : ExtTreeMap String (Lifecycle.PlannedAction D) :=
  ExtTreeMap.ofList (((actions.filter fun action =>
    !engine.productionExposureBlocked || action.reduceOnly).filter decision.meetsFloor).map
      fun action => (action.asset, action)) compare

/-- An asset has waited for a book that has come, and has no executable action any more. -/
def invalidated (engine : DecisionEngine D) (now : ℕ)
    (executable : ExtTreeMap String (Lifecycle.PlannedAction D)) (asset : String) : Bool :=
  engine.pendingBook.contains asset &&
    resolveBookAction true (engine.freshBook now asset).isSome (executable.contains asset) ==
      .invalidateAfterRecompute

/-- What the decision does not require any more is dropped: the waiting and pending actions of
invalidated assets and the continuations without an executable action. -/
def dropUnrequired (engine : DecisionEngine D) (now : ℕ)
    (executable : ExtTreeMap String (Lifecycle.PlannedAction D)) : DecisionEngine D :=
  { engine with
    pendingBook := engine.pendingBook.filter fun asset _ =>
      !engine.invalidated now executable asset
    pending := engine.pending.filter fun asset _ => !engine.invalidated now executable asset
    continuations := engine.continuations.filter fun asset _ => executable.contains asset }

/-- The root and the parent of a new pending action: those of the continuation, else the cloid that
waited for the book, else its own. -/
def rootAndParent (continuation : Option ContinuationIntent) (waiting : Option String)
    (action : Lifecycle.PlannedAction D) : String × Option String :=
  match continuation with
  | some continuation => (continuation.rootPlannedCloid, some continuation.parentPlannedCloid)
  | none => (waiting.getD (toHex action.plannedCloid), none)

/-- An executable action without a fresh book waits for one. -/
def awaitBook (engine : DecisionEngine D) (asset : String) (action : Lifecycle.PlannedAction D) :
    DecisionEngine D :=
  if engine.pendingBook.contains asset then engine
  else { engine with
    pendingBook := engine.pendingBook.insert asset (toHex action.plannedCloid) }

/-- The pending action of the asset, where the new action does not replace it. -/
def preserved (engine : DecisionEngine D) (asset : String) (action : Lifecycle.PlannedAction D)
    (tolerance : D) : Option (PendingAction D) :=
  engine.pending[asset]?.filter fun previous =>
    pendingActionIsImmaterialReplacement previous.action action tolerance

/-- What the loop over the executable actions does for one asset with a fresh book. -/
def planAsset (allocated : AllocatedTargets D) (decision : DecisionRecord D)
    (input : PortfolioProjectionInput D) (engine : DecisionEngine D) (asset : String)
    (action : Lifecycle.PlannedAction D) (book : OrderBookResponse D × ℕ) :
    Except LiveShadowError (DecisionEngine D) := do
  let rules ← (match allocated.marketRules[asset]? with
    | none => .error (.invalidMarket asset)
    | some rules => .ok rules)
  let snapshot ← shadowSnapshot book.1 book.2
  let constrainedTarget := decision.projection.constrainedTargets[asset]?.getD Decimal.zero
  let contributions := allocated.contributions[asset]?
  let _ ← absoluteDirectionalComponentTargets contributions constrainedTarget
  let tolerance ← orArithmetic (Decimal.checkedMul rules.markPrice rules.sizeStep)
  match engine.preserved asset action tolerance with
  | some previous => pure { engine with
      pending := engine.pending.insert asset { previous with contributions, constrainedTarget } }
  | none =>
    let continuation := engine.continuations[asset]?
    let (rootPlannedCloid, parentPlannedCloid) :=
      rootAndParent continuation engine.pendingBook[asset]? action
    pure { engine with
      pendingBook := engine.pendingBook.erase asset
      continuations := engine.continuations.erase asset
      pending := engine.pending.insert asset {
        action
        rootPlannedCloid
        parentPlannedCloid
        decisionBook := snapshot
        contributions
        constrainedTarget
        rules
        projectionInput :=
          { input with unconstrainedTargets := decision.projection.constrainedTargets }
        riskPolicyHash := decision.riskPolicyHash
        configurationHash := decision.configHash
        continuationKind := continuation.map ContinuationIntent.kind } }

/-- One round of the loop over the executable actions. -/
def planExecutable (allocated : AllocatedTargets D) (decision : DecisionRecord D)
    (input : PortfolioProjectionInput D) (now : ℕ) (engine : DecisionEngine D)
    (entry : String × Lifecycle.PlannedAction D) : Except LiveShadowError (DecisionEngine D) :=
  match engine.freshBook now entry.1 with
  | none => .ok (engine.awaitBook entry.1 entry.2)
  | some book => planAsset allocated decision input engine entry.1 entry.2 book

/-- The notional of every pending action, with its sign. -/
def pendingCommitted (engine : DecisionEngine D) : ExtTreeMap String D :=
  engine.pending.map fun _ pending =>
    match pending.action.side with
    | .buy => pending.action.roundedNotional
    | .sell => Decimal.neg pending.action.roundedNotional

/-- The error of a decision that cannot be constructed. -/
def decisionError (allocated : AllocatedTargets D) (filledPositions : ExtTreeMap String D)
    (error : String) : LiveShadowError :=
  let filled := filledPositions.toList.map fun entry =>
    quoted entry.1 ++ ": " ++ Decimal.text entry.2
  .core (error ++ "; equity=" ++ Decimal.text allocated.currentEquity ++ "; leverage=" ++
    Decimal.text allocated.curveLeverage ++ "; filled_positions=\x7b" ++
    String.intercalate ", " filled ++ "\x7d")

/-- The decision for the targets the strategy has allocated and the actions that can be executed for
it; the targets are replaced. -/
def planDecision [Sha256] [DecimalNormalize D] (engine : DecisionEngine D) (now : ℕ)
    (allocated : AllocatedTargets D) :
    Except LiveShadowError (DecisionEngine D × PlannedDecision D) := do
  let filled := engine.filledPositions allocated.marketRules
  let decision ← (constructDecision engine.engineInstance engine.decisionSequence allocated filled
    engine.previousTarget now).mapError (decisionError allocated filled)
  let targeted ← engine.replaceTargets decision filled ∅
  let decisionSequence ← orArithmetic (checkedAddU64 engine.decisionSequence 1)
  let numbered := { targeted with
    decisionSequence
    previousTarget := some ⟨decision.targetVersion, decision.targetHash⟩ }
  let actions ← numbered.plannedActions decision filled
  pure (numbered, ⟨decision, allocated.marketRules, numbered.executableActions decision actions⟩)

/-- The executable actions of a decision become pending or wait for a book, and the targets count
what is pending. -/
def commitDecision (engine : DecisionEngine D) (now : ℕ) (allocated : AllocatedTargets D)
    (planned : PlannedDecision D) : Except LiveShadowError (DecisionEngine D) := do
  let filled := engine.filledPositions allocated.marketRules
  let placed ← planned.executable.toList.foldlM
    (planExecutable allocated planned.decision (allocated.projectionInput filled ∅) now)
    (engine.dropUnrequired now planned.executable)
  placed.replaceTargets planned.decision filled placed.pendingCommitted

def decide [Sha256] [DecimalNormalize D] (engine : DecisionEngine D) (now : ℕ)
    (allocated : AllocatedTargets D) :
    Except LiveShadowError (DecisionEngine D × PlannedDecision D) := do
  let (numbered, planned) ← engine.planDecision now allocated
  let committed ← numbered.commitDecision now allocated planned
  pure (committed, planned)

def constructNextDecision [Sha256] [DecimalNormalize D] (settings : EngineSettings D)
    (engine : DecisionEngine D) (now : ℕ) (strategy : Strategy D) :
    Except LiveShadowError (DecisionEngine D × Option (PlannedDecision D)) := do
  let accrued ← engine.accrueFunding now
  match accrued.freshMids settings now, accrued.metadata with
  | some mids, some metadata => do
    let allocated ← strategy (accrued.strategyView mids metadata now)
    let (decided, planned) ← accrued.decide now allocated
    pure (decided, some planned)
  | _, _ => pure (accrued, none)

end DecisionEngine

end CopyTrade.Model
