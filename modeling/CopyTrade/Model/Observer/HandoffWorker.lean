import CopyTrade.Model.Observer.Dispatch
import CopyTrade.Model.Observer.HandoffQueue
import Mathlib.Data.List.MinMax
import Mathlib.Data.Prod.Lex

/-!
# The dispatch worker

`ObserverSignerClient::handoff`, `next_dispatchable`, `dispatch_persisted` and the inner loop of
`spawn_bounded_worker` of crates/copytrade-observer/src/ipc_client.rs.  What the connection and the
files do in a handoff are inputs.
-/

namespace CopyTrade.Model

open Foundation

/-- The derived `Debug`. -/
def SignerRejection.text : SignerRejection → String
  | invalidIntent reason => debugVariant "InvalidIntent" (quoted reason)
  | duplicateCloid => "DuplicateCloid"
  | expired => "Expired"
  | policyMismatch => "PolicyMismatch"
  | riskChanged => "RiskChanged"
  | notReady => "NotReady"
  | capacityExhausted => "CapacityExhausted"
  | internal reason => debugVariant "Internal" (quoted reason)

namespace IpcClient

variable {D : Type} [Decimal D]

/-- What a handoff meets: whether its first write succeeds, whether the queue can be saved after it,
the reply, or that none comes in time, then the same of the frame that is replayed, and whether the
queue can be saved after the reply. -/
structure HandoffInputs (D : Type) [Decimal D] where
  requestWritten : Except ObserverIpcError Unit
  sentSaved : Except String Unit
  reply : Except ObserverIpcError (SignerResponse D)
  frameWritten : Except ObserverIpcError Unit
  secondReply : Except ObserverIpcError (SignerResponse D)
  settledSaved : Except String Unit

/-- The states `next_dispatchable` looks for. -/
def dispatchable : ObserverIntentState → Bool
  | .persisted | .sent | .submissionUnknown => true
  | _ => false

def isNotFound (cloid : PlannedCloid) : SignerResponse D → Bool
  | .notFound response => response == cloid
  | _ => false

/-- The reply, or the second one where the first does not find an intent whose submission is
unknown. -/
def receiveReply (inputs : HandoffInputs D) (cloid : PlannedCloid) (state : ObserverIntentState) :
    Except ObserverIpcError (SignerResponse D) := do
  let reply ← inputs.reply
  if isNotFound cloid reply && state == .submissionUnknown then do
    inputs.frameWritten
    inputs.secondReply
  else pure reply

namespace DurableHandoffQueue

/-- What orders the entries: reduce-only intents first, then the oldest. -/
def priority (entry : PlannedCloid × PendingHandoff D) : Bool ×ₗ ℕ :=
  toLex (!entry.2.intent.reduceOnly, entry.2.observerSequence)

def nextDispatchable (queue : DurableHandoffQueue D) : Option PlannedCloid :=
  ((queue.byCloid.toList.filter fun entry => dispatchable entry.2.state).argmin priority).map
    Prod.fst

/-- The entry that the reply is about is marked; another reply is unexpected. -/
def settleReply (queue : DurableHandoffQueue D) (cloid : PlannedCloid)
    (intent : AuthorizedExecutionIntent D) :
    SignerResponse D → Except ObserverIpcError (DurableHandoffQueue D)
  | .accepted identity _ _ =>
    if identity.plannedCloid = cloid ∧ identity.targetVersion = intent.targetVersion
        ∧ identity.canonicalIntentHash = intent.canonicalHash then queue.markAccepted cloid
    else .error .unexpectedResponse
  | .rejected response reason =>
    if response = cloid then queue.markRejected cloid reason.text
    else .error .unexpectedResponse
  | _ => .error .unexpectedResponse

variable [DecimalText D] [JsonText]

/-- `queue.persist(queue_path)`: the text of the queue, written to its file. -/
def saveTo (queue : DurableHandoffQueue D) (written : Except String Unit) :
    Except ObserverIpcError Unit := do
  let _ ← queue.persist
  written.mapError ObserverIpcError.io

/-- The first write of a handoff and the queue it leaves behind. -/
def sendRequest (inputs : HandoffInputs D) (queue : DurableHandoffQueue D) (cloid : PlannedCloid)
    (pending : PendingHandoff D) : Except ObserverIpcError Unit × DurableHandoffQueue D :=
  match pending.state with
  | .submissionUnknown => (inputs.requestWritten, queue)
  | .persisted | .sent =>
    match inputs.requestWritten with
    | .error error => (.error error, queue)
    | .ok () =>
      let sent := { queue with
        byCloid := queue.byCloid.insert cloid { pending with state := .sent } }
      (sent.saveTo inputs.sentSaved, sent)
  | _ => (.error .invalidState, queue)

/-- `handoff`: the result and the queue it leaves behind, also on an error. -/
def handoff (inputs : HandoffInputs D) (queue : DurableHandoffQueue D) (cloid : PlannedCloid) :
    Except ObserverIpcError (SignerResponse D) × DurableHandoffQueue D :=
  match queue.byCloid[cloid]? with
  | none => (.error .unknownCloid, queue)
  | some pending =>
    match queue.sendRequest inputs cloid pending with
    | (.error error, sent) => (.error error, sent)
    | (.ok (), sent) =>
      match receiveReply inputs cloid pending.state with
      | .error error => (.error error, sent)
      | .ok reply =>
        match sent.settleReply cloid pending.intent reply with
        | .error error => (.error error, sent)
        | .ok settled => ((settled.saveTo inputs.settledSaved).map fun _ => reply, settled)

/-- `dispatch_persisted`: the result and the queue it leaves behind. -/
def dispatchPersisted (inputs : HandoffInputs D) (queue : DurableHandoffQueue D)
    (cloid : PlannedCloid) : Except ObserverIpcError IntentDispatchState × DurableHandoffQueue D :=
  match queue.handoff inputs cloid with
  | (.ok (.accepted _ durableSequence _), next) => (.ok (.acceptedBySigner durableSequence), next)
  | (.ok (.rejected _ reason), next) => (.ok (.rejected reason.text), next)
  | (.ok _, next) => (.error .unexpectedResponse, next)
  | (.error _, next) =>
    (.ok .retainedForReplay,
      match next.markDisconnect cloid with
      | .error _ => next
      | .ok disconnected => disconnected)

end DurableHandoffQueue

/-- The inner loop of the worker: the queue and the intents it has attempted, in order. -/
structure WorkerLoop (D : Type) [Decimal D] where
  queue : DurableHandoffQueue D
  attempts : List PlannedCloid

/-- One round of the inner loop, and nothing once no intent is dispatchable.  The connection
answers every handoff of an intent. -/
def WorkerLoop.step [DecimalText D] [JsonText]
    (connection : PlannedCloid → ℕ → HandoffInputs D) (worker : WorkerLoop D) : WorkerLoop D :=
  match worker.queue.nextDispatchable with
  | none => worker
  | some cloid => {
      queue := (worker.queue.dispatchPersisted
        (connection cloid (worker.attempts.count cloid)) cloid).2
      attempts := worker.attempts ++ [cloid] }

/-! ## Events that are reconciled

`reconcile_into`: every event that the signer replays is applied to the production state, and an
intent that was authorized and not submitted goes back to the queue. -/

/-- What the loop works on. -/
structure HandoffBooks (D : Type) where
  queue : DurableHandoffQueue D
  production : ProductionTradingState D

/-- An event that the signer replays, and whether the two files can be written after it. -/
structure ReplayedEvent (D : Type) where
  event : VerifiedReconciliationEvent D
  stateWritten : Except String Unit
  queueWritten : Except String Unit

/-- The intent of an `AuthorizedNotSubmitted` event. -/
def authorizedNotSubmitted {D : Type} : VerifiedReconciliationPayload D → Option PlannedCloid
  | .authorizedNotSubmitted cloid => some cloid
  | _ => none

namespace HandoffBooks

variable {D : Type} [Decimal D] [Sha256] [PayloadEncoding D] [DecimalText D] [JsonText]

/-- `state.save_atomic(state_path)`: the text of the state, written to its file. -/
def savesState (production : ProductionTradingState D) (written : Except String Unit) : Bool :=
  production.saveAtomic.isOk && written.isOk

/-- One round of the loop: whether the loop goes on, and the books it leaves behind, also on an
error. -/
def reconcileEvent (books : HandoffBooks D) (replayed : ReplayedEvent D) : Bool × HandoffBooks D :=
  match books.production.applyReconciliationEvent replayed.event with
  | (.error _, production) => (false, { books with production })
  | (.ok _, production) =>
    if !savesState production replayed.stateWritten then (false, { books with production })
    else
      match authorizedNotSubmitted replayed.event.payload with
      | none => (true, { books with production })
      | some cloid =>
        match books.queue.changeState cloid fun _ => .persisted with
        | .error _ => (false, { books with production })
        | .ok queue => ((queue.saveTo replayed.queueWritten).isOk, { queue, production })

/-- `reconcile_into`: the books it leaves behind. -/
def reconcileInto : HandoffBooks D → List (ReplayedEvent D) → HandoffBooks D
  | books, [] => books
  | books, replayed :: rest =>
    match books.reconcileEvent replayed with
    | (false, next) => next
    | (true, next) => next.reconcileInto rest

end HandoffBooks

inductive HandoffCall (D : Type)
  | enqueue (intent : AuthorizedExecutionIntent D)
  | markAccepted (cloid : PlannedCloid)
  | markRejected (cloid : PlannedCloid) (reason : String)
  | markDisconnect (cloid : PlannedCloid)
  | reconcileInto (events : List (ReplayedEvent D))

def DurableHandoffQueue.orKept {D : Type} (queue : DurableHandoffQueue D) :
    Except ObserverIpcError (DurableHandoffQueue D) → DurableHandoffQueue D
  | .error _ => queue
  | .ok changed => changed

def HandoffBooks.after {D : Type} [Decimal D] [Sha256] [MessagePack] [IntentEncoding D]
    [PayloadEncoding D] [DecimalText D] [JsonText] (books : HandoffBooks D) :
    HandoffCall D → HandoffBooks D
  | .enqueue intent => { books with queue := (books.queue.enqueue intent).2 }
  | .markAccepted cloid => { books with queue := books.queue.orKept (books.queue.markAccepted cloid) }
  | .markRejected cloid reason =>
    { books with queue := books.queue.orKept (books.queue.markRejected cloid reason) }
  | .markDisconnect cloid =>
    { books with queue := books.queue.orKept (books.queue.markDisconnect cloid) }
  | .reconcileInto events => books.reconcileInto events

end IpcClient

end CopyTrade.Model
