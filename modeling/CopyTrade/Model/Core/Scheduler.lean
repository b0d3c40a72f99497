import CopyTrade.Model.Core.ReadBudget

/-!
# The request scheduler

`RequestScheduler` of crates/copytrade-core/src/scheduler.rs: a bounded queue of read requests,
the permits for concurrent dispatches and the budget.  Each method locks the queue for as long
as it works on it and reads the clock once; the readings are arguments.  Sorting is the standard
library's: a sequence is permuted, and is sorted where the comparison is a total preorder on its
elements (`SliceSort`).
-/

namespace CopyTrade.Model

open Foundation
open Std (ExtTreeMap ExtTreeSet)

inductive ReadFailure
  | rateLimited (retryAfterMs : Option ℕ)
  | timeout
  | transport
  | server
  | invalidResponse
  | permanent
deriving DecidableEq

structure ReadResponse where
  receivedAt : ℕ
  validUntil : ℕ
  payloadValid : Bool
deriving DecidableEq

structure RetryPolicy where
  initialBackoffMs : ℕ
  maximumBackoffMs : ℕ
  maximumAttempts : ℕ
  maximumLifetimeMs : ℕ
  jitterBps : ℕ
  deterministicSeed : ℕ
deriving DecidableEq

def stableRequestHash (key : RequestKey) (attempt seed : ℕ) : ℕ :=
  let start : UInt64 := 0xcbf29ce484222325 ^^^ UInt64.ofNat seed
  let hash := (textBytes (key.debug ++ ":" ++ Nat.repr attempt)).foldl
    (fun hash byte => (hash ^^^ byte.toUInt64) * 0x100000001b3) start
  hash.toNat

namespace RetryPolicy

def validate (policy : RetryPolicy) : Except PolicyError Unit :=
  if policy.initialBackoffMs = 0 ∨ policy.maximumBackoffMs < policy.initialBackoffMs
      ∨ policy.maximumAttempts = 0 ∨ policy.maximumLifetimeMs = 0 ∨ 10000 < policy.jitterBps then
    .error ⟨"invalid retry policy"⟩
  else .ok ()

/-- The delay before a retry without a delay from the server; the shift is below 64, so only the
product can leave the word. -/
def backoffMs (policy : RetryPolicy) (request : ScheduledReadRequest) : ℕ :=
  let exponential :=
    min (min (policy.initialBackoffMs * 2 ^ min request.attempt 63) maxU64) policy.maximumBackoffMs
  let jitterSpan := exponential * policy.jitterBps / 10000
  if jitterSpan = 0 then max exponential 1
  else
    let hash := stableRequestHash request.key ((request.attempt + 1) % 2 ^ 32)
      policy.deterministicSeed
    min (exponential - jitterSpan + hash % (jitterSpan * 2 + 1)) maxU64

def delayMs (policy : RetryPolicy) (request : ScheduledReadRequest) : ReadFailure → Option ℕ
  | .invalidResponse | .permanent => none
  | .rateLimited (some delay) => if 0 < delay then some delay else none
  | .rateLimited none | .timeout | .transport | .server => some (policy.backoffMs request)

end RetryPolicy

inductive ScheduleOutcome
  | enqueued
  | replacedOlder
  | successorRecorded
  | rejectedOlder
  | rejectedQueueFull
  | rejectedInvalid
  | rejectedOverweight
  | expired
deriving DecidableEq

inductive ExecutionOutcome
  | completedFresh
  | completedButStale
  | superseded
  | retryScheduled
  | retryExhausted
  | invalidResponse
  | permanentFailure
deriving DecidableEq

structure QueueState where
  pending : ExtTreeMap RequestKey ScheduledReadRequest
  inFlight : ExtTreeSet RequestKey
  successors : ExtTreeMap RequestKey ScheduledReadRequest
  expiredInQueue : ExtTreeMap SourceTier ℕ
  supersededPending : ExtTreeMap SourceTier ℕ
  supersededInFlight : ExtTreeMap SourceTier ℕ
  dispatchCount : ExtTreeMap SourceTier ℕ
  dispatchWindowCount : ExtTreeMap SourceTier ℕ
  dispatchWindowStartedMs : ℕ

/-- `*counts.entry(tier).or_default() += 1` on words of a width, for a request with a tier. -/
def countTier (width : ℕ) (counts : ExtTreeMap SourceTier ℕ) :
    Option SourceTier → ExtTreeMap SourceTier ℕ
  | none => counts
  | some tier => counts.insert tier ((counts[tier]?.getD 0 + 1) % 2 ^ width)

def isNewer (incoming existing : ScheduledReadRequest) : Bool :=
  existing.createdAt < incoming.createdAt ||
    (incoming.createdAt == existing.createdAt && existing.attempt < incoming.attempt)

def compareValue (left right : ScheduledReadRequest) : Ordering :=
  (compare left.priority right.priority).then
    ((compare right.expiresAt left.expiresAt).then (compare right.createdAt left.createdAt))

/-- `Iterator::min_by`: the first of the least elements. -/
def minBy {α : Type} (compare : α → α → Ordering) : List α → Option α
  | [] => none
  | a :: rest => some (rest.foldl (fun least b => if compare least b = .gt then b else least) a)

namespace QueueState

/-- `QueueState::default()`. -/
def empty : QueueState where
  pending := ∅
  inFlight := ∅
  successors := ∅
  expiredInQueue := ∅
  supersededPending := ∅
  supersededInFlight := ∅
  dispatchCount := ∅
  dispatchWindowCount := ∅
  dispatchWindowStartedMs := 0

def queuedLen (queue : QueueState) : ℕ := queue.pending.size + queue.successors.size

def purgeExpired (queue : QueueState) (nowMs : ℕ) : QueueState :=
  let expired := (queue.pending.values ++ queue.successors.values).filter
    fun request => request.expiresAt ≤ nowMs
  { queue with
    expiredInQueue := expired.foldl
      (fun counts request => countTier 64 counts request.sourceTier) queue.expiredInQueue
    pending := queue.pending.filter fun _ request => nowMs < request.expiresAt
    successors := queue.successors.filter fun _ request => nowMs < request.expiresAt }

/-- The key is no longer in flight, and its successor, if it has one, waits in its place. -/
def release (queue : QueueState) (key : RequestKey) : Bool × QueueState :=
  let queue := { queue with inFlight := queue.inFlight.erase key }
  match queue.successors[key]? with
  | some successor => (true, { queue with
      successors := queue.successors.erase key
      pending := queue.pending.insert key successor })
  | none => (false, queue)

def evictableOf (isSuccessor : Bool) (requests : ExtTreeMap RequestKey ScheduledReadRequest) :
    List (Bool × RequestKey × ScheduledReadRequest) :=
  (requests.toList.filter fun entry => entry.2.priority != RequestPriority.critical).map
    fun entry => (isSuccessor, entry)

def evictable (queue : QueueState) : List (Bool × RequestKey × ScheduledReadRequest) :=
  evictableOf false queue.pending ++ evictableOf true queue.successors

def makeQueueRoom (queue : QueueState) (capacity : ℕ) (incoming : ScheduledReadRequest) :
    Bool × QueueState :=
  if queue.queuedLen < capacity then (true, queue)
  else
    match minBy (fun left right => compareValue left.2.2 right.2.2) queue.evictable with
    | none => (false, queue)
    | some (isSuccessor, key, lowest) =>
      if compareValue incoming lowest ≠ .gt then (false, queue)
      else if isSuccessor then (true, { queue with successors := queue.successors.erase key })
      else (true, { queue with pending := queue.pending.erase key })

end QueueState

/-- `<[T]>::sort_by`. -/
class SliceSort where
  sortBy : {α : Type} → (α → α → Ordering) → List α → List α

/-- A comparison that is a total preorder on the elements of a list. -/
def TotalOn {α : Type} (compare : α → α → Ordering) (items : List α) : Prop :=
  (∀ a ∈ items, ∀ b ∈ items, compare a b = (compare b a).swap) ∧
    ∀ a ∈ items, ∀ b ∈ items, ∀ c ∈ items,
      compare a b ≠ .gt → compare b c ≠ .gt → compare a c ≠ .gt

/-- The sorted slice has the same elements; where the comparison is a total preorder it is the
result of a stable sort. -/
class LawfulSliceSort [SliceSort] : Prop where
  perm : ∀ {α : Type} (compare : α → α → Ordering) (items : List α),
    (SliceSort.sortBy compare items).Perm items
  sorted : ∀ {α : Type} (compare : α → α → Ordering) (items : List α), TotalOn compare items →
    SliceSort.sortBy compare items = items.mergeSort fun a b => compare a b != .gt

def dispatchOrderWithFairness (left right : ScheduledReadRequest)
    (counts targets : ExtTreeMap SourceTier ℕ) : Ordering :=
  let byAge := (compare left.expiresAt right.expiresAt).then
    ((compare left.createdAt right.createdAt).then (compare left.key right.key))
  (compare right.priority left.priority).then <|
    match left.sourceTier, right.sourceTier with
    | some leftTier, some rightTier =>
      -- A valid policy has a target for both tiers.
      (compare (counts[leftTier]?.getD 0 * targets[rightTier]?.getD 0)
        (counts[rightTier]?.getD 0 * targets[leftTier]?.getD 0)).then byAge
    | _, _ => byAge

/-- The same with the index into the targets as it is written: a tier without a target panics. -/
def dispatchOrder? (left right : ScheduledReadRequest) (counts targets : ExtTreeMap SourceTier ℕ) :
    Option Ordering :=
  let byAge := (compare left.expiresAt right.expiresAt).then
    ((compare left.createdAt right.createdAt).then (compare left.key right.key))
  if compare right.priority left.priority ≠ .eq then some (compare right.priority left.priority)
  else
    match left.sourceTier, right.sourceTier with
    | some leftTier, some rightTier => do
      let leftTarget ← targets[leftTier]?
      let rightTarget ← targets[rightTier]?
      some ((compare (counts[leftTier]?.getD 0 * rightTarget)
        (counts[rightTier]?.getD 0 * leftTarget)).then byAge)
    | _, _ => some byAge

/-- A dispatch in the hands of the caller. -/
structure ScheduledDispatch where
  request : ScheduledReadRequest
  permit : Bool
  active : Bool
deriving DecidableEq

structure RequestScheduler where
  policy : ReadApiPolicy
  budget : WeightedTokenBucket
  availablePermits : ℕ
  queue : QueueState
  retryPolicy : RetryPolicy

namespace RequestScheduler

def new (policy : ReadApiPolicy) (retryPolicy : RetryPolicy) (nowMs : ℕ) :
    Except PolicyError RequestScheduler := do
  policy.validate
  retryPolicy.validate
  let budget ← WeightedTokenBucket.new policy nowMs
  pure {
    policy
    budget
    availablePermits := policy.maxConcurrency
    queue := QueueState.empty
    retryPolicy }

def expectedCandidate : RequestSubject → Option String
  | .candidate candidate => some candidate
  | .follower _ | .asset _ | .market => none

def validateRequest (scheduler : RequestScheduler) (request : ScheduledReadRequest) (nowMs : ℕ) :
    Option ScheduleOutcome :=
  match scheduler.policy.endpointWeights[request.kind]? with
  | none => some .rejectedInvalid
  | some policyWeight =>
    if request.kind != request.key.kind
        || request.weight == 0
        || request.weight != policyWeight
        || request.notBefore < request.createdAt
        || request.expiresAt ≤ request.createdAt
        || (request.budgetClass == .critical && !request.kind.permitsReservedBudget)
        || ((request.kind == .sourceState) != (request.budgetClass == .sourcePolling))
        || request.candidateId != expectedCandidate request.key.subject
        || (request.kind == .sourceState) != request.sourceTier.isSome then
      some .rejectedInvalid
    else if request.expiresAt ≤ nowMs then some .expired
    else if scheduler.policy.totalWeightPerWindow < request.weight
        ∨ (request.budgetClass ≠ .critical ∧ scheduler.policy.normalWeight < request.weight) then
      some .rejectedOverweight
    else none

/-- A new window for the dispatch counts once the old one is over. -/
def startWindow (queue : QueueState) (windowMs nowMs : ℕ) : QueueState :=
  if windowMs ≤ nowMs - queue.dispatchWindowStartedMs then { queue with
    dispatchWindowStartedMs := nowMs
    dispatchWindowCount := ∅ }
  else queue

/-- The part of `schedule` that puts a valid request into the queue. -/
def enterQueue (queue : QueueState) (capacity : ℕ) (request : ScheduledReadRequest) :
    ScheduleOutcome × QueueState :=
  if request.key ∈ queue.inFlight then
    match queue.successors[request.key]? with
    | some existing =>
      if !isNewer request existing then (.rejectedOlder, queue)
      else (.successorRecorded, { queue with
        successors := queue.successors.insert request.key request
        supersededInFlight := countTier 64 queue.supersededInFlight existing.sourceTier })
    | none =>
      match queue.makeQueueRoom capacity request with
      | (false, queue) => (.rejectedQueueFull, queue)
      | (true, queue) => (.successorRecorded, { queue with
          supersededInFlight := countTier 64 queue.supersededInFlight request.sourceTier
          successors := queue.successors.insert request.key request })
  else
    match queue.pending[request.key]? with
    | some existing =>
      if !isNewer request existing then (.rejectedOlder, queue)
      else (.replacedOlder, { queue with
        pending := queue.pending.insert request.key request
        supersededPending := countTier 64 queue.supersededPending existing.sourceTier })
    | none =>
      match queue.makeQueueRoom capacity request with
      | (false, queue) => (.rejectedQueueFull, queue)
      | (true, queue) =>
        (.enqueued, { queue with pending := queue.pending.insert request.key request })

def schedule (scheduler : RequestScheduler) (request : ScheduledReadRequest) (nowMs : ℕ) :
    ScheduleOutcome × RequestScheduler :=
  match scheduler.validateRequest request nowMs with
  | some outcome => (outcome, scheduler)
  | none =>
    let purged := scheduler.queue.purgeExpired nowMs
    let queue := startWindow purged scheduler.policy.windowMs nowMs
    let (outcome, queue) := enterQueue queue scheduler.policy.queueCapacity request
    (outcome, { scheduler with queue })

/-- The first request the budget can pay for; the ones before it are only asked about. -/
def chargeFirst (nowMs : ℕ) : WeightedTokenBucket → List ScheduledReadRequest →
    Option ScheduledReadRequest × WeightedTokenBucket
  | budget, [] => (none, budget)
  | budget, request :: rest =>
    match budget.tryCharge request.budgetClass request.weight nowMs with
    | (.charged, budget) => (some request, budget)
    | (_, budget) => chargeFirst nowMs budget rest

/-- The requests that are due, in the order in which they are considered. -/
def ordered [SliceSort] (queue : QueueState) (policy : ReadApiPolicy) (nowMs : ℕ) :
    List ScheduledReadRequest :=
  SliceSort.sortBy
    (fun left right => dispatchOrderWithFairness left right queue.dispatchWindowCount
      policy.sourceTierDispatchTargetsPerWindow)
    (queue.pending.values.filter fun request => request.notBefore ≤ nowMs)

/-- The permit goes back when nothing is dispatched. -/
def beginNext [SliceSort] (scheduler : RequestScheduler) (nowMs : ℕ) :
    Option ScheduledDispatch × RequestScheduler :=
  if scheduler.availablePermits = 0 then (none, scheduler)
  else
    let queue := scheduler.queue.purgeExpired nowMs
    match chargeFirst nowMs scheduler.budget (ordered queue scheduler.policy nowMs) with
    | (none, budget) => (none, { scheduler with queue, budget })
    | (some request, budget) =>
      (some { request, permit := true, active := true }, { scheduler with
        budget
        availablePermits := scheduler.availablePermits - 1
        queue := { queue with
          pending := queue.pending.erase request.key
          inFlight := queue.inFlight.insert request.key
          dispatchCount := countTier 64 queue.dispatchCount request.sourceTier
          dispatchWindowCount := countTier 32 queue.dispatchWindowCount request.sourceTier } })

/-- `ScheduledDispatch::release`: whether a successor took the place of the request, and the
dispatch and the scheduler afterwards. -/
def release (scheduler : RequestScheduler) (dispatch : ScheduledDispatch) :
    Bool × ScheduledDispatch × RequestScheduler :=
  if !dispatch.active then (false, dispatch, scheduler)
  else
    let (successor, queue) := scheduler.queue.release dispatch.request.key
    (successor, { dispatch with permit := false, active := false }, { scheduler with
      queue
      availablePermits := scheduler.availablePermits + if dispatch.permit then 1 else 0 })

def drop (scheduler : RequestScheduler) (dispatch : ScheduledDispatch) : RequestScheduler :=
  (scheduler.release dispatch).2.2

/-- The clock is read once more when the request is scheduled again. -/
def scheduleRetry (scheduler : RequestScheduler) (request : ScheduledReadRequest)
    (failure : ReadFailure) (nowMs scheduleNowMs : ℕ) : ExecutionOutcome × RequestScheduler :=
  let nextAttempt := request.attempt + 1
  if maxU32 < nextAttempt ∨ scheduler.retryPolicy.maximumAttempts ≤ nextAttempt then
    (.retryExhausted, scheduler)
  else if scheduler.retryPolicy.maximumLifetimeMs ≤ nowMs - request.createdAt then
    (.retryExhausted, scheduler)
  else
    match scheduler.retryPolicy.delayMs request failure with
    | none =>
      (if failure = .invalidResponse then .invalidResponse else .permanentFailure, scheduler)
    | some delay =>
      match checkedAddU64 nowMs delay with
      | none => (.retryExhausted, scheduler)
      | some notBefore =>
        if notBefore ≤ nowMs ∨ request.expiresAt ≤ notBefore
            ∨ scheduler.retryPolicy.maximumLifetimeMs < notBefore - request.createdAt then
          (.retryExhausted, scheduler)
        else
          match scheduler.schedule { request with attempt := nextAttempt, notBefore }
            scheduleNowMs with
          | (.enqueued, scheduler) | (.replacedOlder, scheduler)
          | (.successorRecorded, scheduler) => (.retryScheduled, scheduler)
          | (_, scheduler) => (.retryExhausted, scheduler)

/-- `finish`; the dispatch it takes is dropped at its end, no longer active. -/
def finish (scheduler : RequestScheduler) (dispatch : ScheduledDispatch)
    (result : Except ReadFailure ReadResponse) (nowMs scheduleNowMs : ℕ) :
    ExecutionOutcome × RequestScheduler :=
  let request := dispatch.request
  match scheduler.release dispatch with
  | (true, _, scheduler) => (.superseded, scheduler)
  | (false, _, scheduler) =>
    match result with
    | .ok response =>
      if response.payloadValid && request.createdAt ≤ response.receivedAt
          && response.receivedAt ≤ response.validUntil && nowMs ≤ response.validUntil
          && nowMs < request.expiresAt then
        (.completedFresh, scheduler)
      else if response.payloadValid then (.completedButStale, scheduler)
      else (.invalidResponse, scheduler)
    | .error .invalidResponse => (.invalidResponse, scheduler)
    | .error .permanent => (.permanentFailure, scheduler)
    | .error failure => scheduler.scheduleRetry request failure nowMs scheduleNowMs

end RequestScheduler

/-- A scheduler and the dispatches its callers hold. -/
structure SchedulerRun where
  scheduler : RequestScheduler
  held : List ScheduledDispatch

/-- A call of the scheduler; `finish` and `drop` are about one of the held dispatches. -/
inductive SchedulerCall
  | schedule (request : ScheduledReadRequest) (nowMs : ℕ)
  | beginNext (nowMs : ℕ)
  | finish (index : ℕ) (result : Except ReadFailure ReadResponse) (nowMs scheduleNowMs : ℕ)
  | drop (index : ℕ)

def SchedulerRun.after [SliceSort] (state : SchedulerRun) : SchedulerCall → SchedulerRun
  | .schedule request nowMs =>
    { state with scheduler := (state.scheduler.schedule request nowMs).2 }
  | .beginNext nowMs =>
    let (dispatch, scheduler) := state.scheduler.beginNext nowMs
    { scheduler, held := state.held ++ dispatch.toList }
  | .finish index result nowMs scheduleNowMs =>
    match state.held[index]? with
    | none => state
    | some dispatch =>
      { scheduler := (state.scheduler.finish dispatch result nowMs scheduleNowMs).2
        held := state.held.eraseIdx index }
  | .drop index =>
    match state.held[index]? with
    | none => state
    | some dispatch =>
      { scheduler := state.scheduler.drop dispatch, held := state.held.eraseIdx index }

end CopyTrade.Model
