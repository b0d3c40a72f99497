import CopyTrade.Model.Decimal
import CopyTrade.Model.Identity

/-!
# The lifecycle of a planned order

`apply_lifecycle_event` of crates/copytrade-core/src/lifecycle.rs: a pure transition function
from the construction of a decision to what the exchange is known to have done with its order.
Timestamps are natural numbers; the counters of the policy are the 32-bit words they are in the
source.
-/

namespace CopyTrade.Model

structure Lifecycle.PlannedAction (D : Type) where
  decisionId : Hash
  targetVersion : ℕ
  asset : String
  side : Side
  roundedNotional : D
  reduceOnly : Bool
  actionOrdinal : UInt32
  retryGeneration : UInt32
  plannedCloid : PlannedCloid
deriving DecidableEq

inductive LifecycleState (D : Type)
  | decisionConstructed (decisionId : Hash)
  | riskValidated (decisionId : Hash)
  | actionPlanned (action : Lifecycle.PlannedAction D)
  | awaitingFutureSubmission (action : Lifecycle.PlannedAction D)
  | submissionUnknown (action : Lifecycle.PlannedAction D) (firstUnknownAt : ℕ)
      (reconciliationAttempts : UInt32) (notFoundConfirmations : List ℕ)
  | reconciledNotFound (action : Lifecycle.PlannedAction D)
  | reconciledOpen (action : Lifecycle.PlannedAction D) (exchangeOrderRef : String)
  | reconciledPartiallyFilled (action : Lifecycle.PlannedAction D) (exchangeOrderRef : String)
      (filledQuantity : D)
  | reconciledFilled (action : Lifecycle.PlannedAction D) (exchangeOrderRef : String)
      (filledQuantity : D)
  | reconciledCancelled (action : Lifecycle.PlannedAction D) (exchangeOrderRef : Option String)
  | reconciledRejected (action : Lifecycle.PlannedAction D) (reason : String)
deriving DecidableEq

inductive ReconciliationObservation (D : Type)
  | notFound (observedAt : ℕ)
  | opened (orderRef : String) (originalQuantity remainingQuantity : D) (observedAt : ℕ)
  | filled (orderRef : String) (filledQuantity : D) (observedAt : ℕ)
  | cancelled (orderRef : String) (filledQuantity : D) (observedAt : ℕ)
  | rejected (reason : String) (observedAt : ℕ)
deriving DecidableEq

inductive LifecycleEvent (D : Type)
  | riskValidated (decisionId : Hash)
  | actionPlanned (action : Lifecycle.PlannedAction D)
  | awaitFutureSubmission
  | futureSubmissionUnknown (observedAt : ℕ)
  | reconciliationObserved (observation : ReconciliationObservation D)
deriving DecidableEq

inductive TransitionError
  | invalidTransition
  | identityMismatch
  | invalidObservation
  | reconciliationAttemptLimit
  | unknownLifetimeExceeded
  | reconciliationConflict
  | invalidPolicy
  | retryGenerationNotAuthorized
  | retryGenerationOverflow
deriving DecidableEq

structure ReconciliationPolicy where
  requiredNotFoundConfirmations : UInt32
  minimumConfirmationIntervalMs : ℕ
  maximumAttempts : UInt32
  maximumUnknownLifetimeMs : ℕ
deriving DecidableEq

def ReconciliationPolicy.validate (policy : ReconciliationPolicy) :
    Except TransitionError ReconciliationPolicy :=
  if policy.requiredNotFoundConfirmations == 0 || policy.minimumConfirmationIntervalMs == 0
      || decide (policy.maximumAttempts < policy.requiredNotFoundConfirmations)
      || policy.maximumUnknownLifetimeMs == 0 then
    .error .invalidPolicy
  else .ok policy

variable {D : Type} [Decimal D]

def ReconciliationObservation.observedAt : ReconciliationObservation D → ℕ
  | notFound observedAt | opened _ _ _ observedAt | filled _ _ observedAt
  | cancelled _ _ observedAt | rejected _ observedAt => observedAt

def ReconciliationObservation.orderRef : ReconciliationObservation D → Option String
  | opened orderRef _ _ _ | filled orderRef _ _ | cancelled orderRef _ _ => some orderRef
  | notFound _ | rejected _ _ => none

/-- The derived `==`, which compares decimals by value. -/
def Lifecycle.PlannedAction.eqv (a b : Lifecycle.PlannedAction D) : Bool :=
  a.decisionId == b.decisionId && a.targetVersion == b.targetVersion && a.asset == b.asset &&
    a.side == b.side && Decimal.eqv a.roundedNotional b.roundedNotional &&
    a.reduceOnly == b.reduceOnly && a.actionOrdinal == b.actionOrdinal &&
    a.retryGeneration == b.retryGeneration && a.plannedCloid == b.plannedCloid

@[simp] theorem Lifecycle.PlannedAction.eqv_refl (a : Lifecycle.PlannedAction D) :
    a.eqv a = true := by
  simp [Lifecycle.PlannedAction.eqv]

/-- The derived `==` of the states, which compares decimals by value. -/
def LifecycleState.eqv : LifecycleState D → LifecycleState D → Bool
  | decisionConstructed a, decisionConstructed b => a == b
  | riskValidated a, riskValidated b => a == b
  | actionPlanned a, actionPlanned b => a.eqv b
  | awaitingFutureSubmission a, awaitingFutureSubmission b => a.eqv b
  | submissionUnknown a at₁ n₁ times₁, submissionUnknown b at₂ n₂ times₂ =>
    a.eqv b && at₁ == at₂ && n₁ == n₂ && times₁ == times₂
  | reconciledNotFound a, reconciledNotFound b => a.eqv b
  | reconciledOpen a ref₁, reconciledOpen b ref₂ => a.eqv b && ref₁ == ref₂
  | reconciledPartiallyFilled a ref₁ filled₁, reconciledPartiallyFilled b ref₂ filled₂ =>
    a.eqv b && ref₁ == ref₂ && Decimal.eqv filled₁ filled₂
  | reconciledFilled a ref₁ filled₁, reconciledFilled b ref₂ filled₂ =>
    a.eqv b && ref₁ == ref₂ && Decimal.eqv filled₁ filled₂
  | reconciledCancelled a ref₁, reconciledCancelled b ref₂ => a.eqv b && ref₁ == ref₂
  | reconciledRejected a reason₁, reconciledRejected b reason₂ => a.eqv b && reason₁ == reason₂
  | _, _ => false

@[simp] theorem LifecycleState.eqv_refl (state : LifecycleState D) : state.eqv state = true := by
  cases state <;> simp [eqv]

def validateFilled (filled : D) : Except TransitionError Unit :=
  if Decimal.le filled Decimal.zero then .error .invalidObservation else .ok ()

def positiveState (action : Lifecycle.PlannedAction D) :
    ReconciliationObservation D → Except TransitionError (LifecycleState D)
  | .opened orderRef originalQuantity remainingQuantity _ =>
    if Decimal.le originalQuantity Decimal.zero || Decimal.lt remainingQuantity Decimal.zero
        || Decimal.lt originalQuantity remainingQuantity then
      .error .invalidObservation
    else
      match Decimal.checkedSub originalQuantity remainingQuantity with
      | none => .error .invalidObservation
      | some filled =>
        if Decimal.isZero filled then .ok (.reconciledOpen action orderRef)
        else .ok (.reconciledPartiallyFilled action orderRef filled)
  | .filled orderRef filledQuantity _ => do
    validateFilled filledQuantity
    .ok (.reconciledFilled action orderRef filledQuantity)
  | .cancelled orderRef filledQuantity _ =>
    if Decimal.lt filledQuantity Decimal.zero then .error .invalidObservation
    else .ok (.reconciledCancelled action (some orderRef))
  | .rejected reason _ => .ok (.reconciledRejected action reason)
  | .notFound _ => .error .invalidObservation

/-- The last match of `reconcile_known_positive`: what a known state may be replaced by. -/
def replaceKnown (current candidate : LifecycleState D) :
    Except TransitionError (LifecycleState D) :=
  match current with
  | .reconciledOpen _ _ => .ok candidate
  | .reconciledPartiallyFilled _ _ filledQuantity =>
    match candidate with
    | .reconciledPartiallyFilled _ _ next | .reconciledFilled _ _ next =>
      if Decimal.le filledQuantity next then .ok candidate else .error .reconciliationConflict
    | .reconciledCancelled _ _ => .ok candidate
    | _ => .error .reconciliationConflict
  | .reconciledFilled _ _ _ | .reconciledCancelled _ _ => .error .reconciliationConflict
  | _ => .error .invalidTransition

def reconcileKnownPositive (current : LifecycleState D) (action : Lifecycle.PlannedAction D)
    (knownRef : Option String) (observation : ReconciliationObservation D) :
    Except TransitionError (LifecycleState D) :=
  match observation with
  | .notFound _ => .ok current
  | .rejected _ _ => .error .reconciliationConflict
  | positive =>
    if knownRef.any fun known => some known != positive.orderRef then
      .error .reconciliationConflict
    else do
      let candidate ← positiveState action positive
      if candidate.eqv current then .ok current else replaceKnown current candidate

/-- The `NotFound` branch of an order whose submission is unknown. -/
def observeNotFound (current : LifecycleState D) (action : Lifecycle.PlannedAction D)
    (firstUnknownAt : ℕ) (reconciliationAttempts : UInt32) (notFoundConfirmations : List ℕ)
    (observedAt : ℕ) (policy : ReconciliationPolicy) :
    Except TransitionError (LifecycleState D) :=
  if policy.maximumUnknownLifetimeMs < observedAt - firstUnknownAt then
    .error .unknownLifetimeExceeded
  else if notFoundConfirmations.getLast? == some observedAt then .ok current
  else if policy.maximumAttempts ≤ reconciliationAttempts then .error .reconciliationAttemptLimit
  else if notFoundConfirmations.getLast?.any fun previous =>
      decide (observedAt - previous < policy.minimumConfirmationIntervalMs) then
    .error .invalidObservation
  else
    let confirmations := notFoundConfirmations ++ [observedAt]
    if policy.requiredNotFoundConfirmations ≤ UInt32.ofNat confirmations.length then
      .ok (.reconciledNotFound action)
    else
      .ok (.submissionUnknown action firstUnknownAt (reconciliationAttempts + 1) confirmations)

def applyReconciliationObservation (current : LifecycleState D)
    (observation : ReconciliationObservation D) (policy : ReconciliationPolicy) :
    Except TransitionError (LifecycleState D) :=
  match current with
  | .submissionUnknown action firstUnknownAt reconciliationAttempts notFoundConfirmations =>
    if observation.observedAt < firstUnknownAt then .error .invalidObservation
    else
      match observation with
      | .notFound observedAt => observeNotFound current action firstUnknownAt
          reconciliationAttempts notFoundConfirmations observedAt policy
      | positive => positiveState action positive
  | .reconciledNotFound action =>
    match observation with
    | .notFound _ => .ok current
    | positive => positiveState action positive
  | .reconciledOpen action exchangeOrderRef =>
    reconcileKnownPositive current action (some exchangeOrderRef) observation
  | .reconciledPartiallyFilled action exchangeOrderRef _
  | .reconciledFilled action exchangeOrderRef _ =>
    reconcileKnownPositive current action (some exchangeOrderRef) observation
  | .reconciledCancelled action exchangeOrderRef =>
    reconcileKnownPositive current action exchangeOrderRef observation
  | .reconciledRejected _ reason =>
    match observation with
    | .rejected observed _ =>
      if reason = observed then .ok current else .error .reconciliationConflict
    | .notFound _ => .ok current
    | _ => .error .reconciliationConflict
  | _ => .error .invalidTransition

def applyLifecycleEvent (current : LifecycleState D) (event : LifecycleEvent D)
    (policy : ReconciliationPolicy) : Except TransitionError (LifecycleState D) := do
  let policy ← policy.validate
  match current, event with
  | .decisionConstructed decisionId, .riskValidated eventId =>
    if decisionId = eventId then .ok (.riskValidated decisionId) else .error .invalidTransition
  | .riskValidated decisionId, .riskValidated eventId =>
    if decisionId = eventId then .ok current else .error .invalidTransition
  | .riskValidated decisionId, .actionPlanned action =>
    if decisionId = action.decisionId then .ok (.actionPlanned action)
    else .error .invalidTransition
  | .actionPlanned currentAction, .actionPlanned action =>
    if currentAction.eqv action then .ok current else .error .invalidTransition
  | .actionPlanned action, .awaitFutureSubmission => .ok (.awaitingFutureSubmission action)
  | .awaitingFutureSubmission _, .awaitFutureSubmission => .ok current
  | .awaitingFutureSubmission action, .futureSubmissionUnknown observedAt =>
    .ok (.submissionUnknown action observedAt 0 [])
  | .submissionUnknown _ firstUnknownAt _ _, .futureSubmissionUnknown observedAt =>
    if firstUnknownAt = observedAt then .ok current else .error .invalidTransition
  | state, .reconciliationObserved observation =>
    applyReconciliationObservation state observation policy
  | _, _ => .error .invalidTransition

/-- The state after an event; an event that is refused leaves it as it was. -/
def lifecycleStep (policy : ReconciliationPolicy) (current : LifecycleState D)
    (event : LifecycleEvent D) : LifecycleState D :=
  match applyLifecycleEvent current event policy with
  | .ok next => next
  | .error _ => current

end CopyTrade.Model
