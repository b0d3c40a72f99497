import CopyTrade.Model.Observer.ProductionState
import CopyTrade.Model.Signer.Outbox

/-!
# The stream of events between signer and observer

The file of the outbox, the arms of the signer's loop in crates/copytrade-signer/src/main.rs that
send and acknowledge events, and `reconcile_into` of crates/copytrade-observer/src/ipc_client.rs,
one save after the other.  The registry and the ledger that the signer synchronises with its outbox
are inputs.  Frames in flight arrive late, in any order, again or never, as one that cannot be
encoded.  An error ends a process, and a process starts with what its file holds.
-/

namespace CopyTrade.Model

open Foundation

variable {D : Type} [Decimal D] [DecimalText D] [JsonText]

def Derived.durableReconciliationOutbox : Serde (DurableReconciliationOutbox D) :=
  StructSerde.start DurableReconciliationOutbox.mk
    |>.field "schema_version" (·.schemaVersion) .nat
    |>.field "signer_instance_id" (·.signerInstanceId) (bytes 16)
    |>.field "next_sequence" (·.nextSequence) .nat
    |>.field "highest_acknowledged_sequence" (·.highestAcknowledgedSequence) .nat
    |>.field "source_keys" (·.sourceKeys) (.set .string)
    |>.field "events" (·.events) (.list verifiedReconciliationEvent)
    |>.field "maximum_events" (·.maximumEvents) .nat
    |>.toSerde false (fun _ => rfl) fun _ => by trivial

namespace DurableReconciliationOutbox

/-- `save_atomic`: the text of the file. -/
def saveAtomic (outbox : DurableReconciliationOutbox D) : Except String String :=
  writeJson Derived.durableReconciliationOutbox.toPartial outbox

def load [Sha256] [PayloadEncoding D] (text : String) :
    Except String (DurableReconciliationOutbox D) := do
  let state ← readJson Derived.durableReconciliationOutbox.toPartial text
  if state.schemaVersion ≠ 1 ∨ state.maximumEvents = 0 ∨ state.maximumEvents < state.events.length
      ∨ state.events.zipIdx.any (fun (event, index) =>
        event.identity.sequence != index + 1 ||
          (canonicalPayloadHash event.payload).toOption != some event.identity.eventHash) =
        true then
    .error "invalid reconciliation outbox"
  else pure state

end DurableReconciliationOutbox

/-- How an atomic save ends.  The last error comes after the file has been replaced. -/
inductive SaveOutcome
  | done
  | failed
  | failedBehindRename

/-- What the file holds after a save, and whether the process goes on. -/
def SaveOutcome.write {ε : Type} (outcome : SaveOutcome) (text : Except ε String)
    (file : Option String) : Option String × Bool :=
  match text, outcome with
  | .ok text, .done => (some text, true)
  | .ok text, .failedBehindRename => (some text, false)
  | _, _ => (file, false)

/-- The two processes, where they run, their files, and the frames in flight. -/
structure EventStream (D : Type) where
  outbox : Option (DurableReconciliationOutbox D)
  outboxFile : Option String
  replies : List (List (VerifiedReconciliationEvent D))
  acknowledgements : List ℕ
  production : Option (ProductionTradingState D)
  stateFile : Option String

/-- What the processes are started with where they have no file. -/
structure StreamStart (D : Type) where
  signerInstanceId : Bytes 16
  maximumEvents : ℕ
  live : LiveTradingState D

/-- An action of one of the processes; `replayFrom` is the sequence that is asked for, where the
synchronisation belongs to such a request. -/
inductive StreamStep (D : Type)
  | startSigner (registry : SubmissionRegistry D) (live : LiveTradingState D) (save : SaveOutcome)
  | synchronise (registry : SubmissionRegistry D) (live : LiveTradingState D)
      (replayFrom : Option ℕ) (save : SaveOutcome)
  | takeAcknowledgement (frame : ℕ) (save : SaveOutcome)
  | stopSigner
  | startObserver
  | applyEvent (frame index : ℕ) (save : SaveOutcome)
  | clearReplans (save : SaveOutcome)
  | sendAcknowledgement
  | stopObserver

namespace EventStream

variable [Sha256] [PayloadEncoding D]

def storedOutbox (start : StreamStart D) (stream : EventStream D) :
    Except String (DurableReconciliationOutbox D) :=
  match stream.outboxFile with
  | some text => DurableReconciliationOutbox.load text
  | none => DurableReconciliationOutbox.new start.signerInstanceId start.maximumEvents

def storedState (start : StreamStart D) (stream : EventStream D) :
    Except ReconciliationApplyError (ProductionTradingState D) :=
  match stream.stateFile with
  | some text => ProductionTradingState.load text
  | none => .ok (.new start.live)

/-- The signer saves its outbox and goes on with it, or ends. -/
def saveOutbox (stream : EventStream D) (outbox : DurableReconciliationOutbox D)
    (save : SaveOutcome) : EventStream D × Bool :=
  match save.write outbox.saveAtomic stream.outboxFile with
  | (outboxFile, true) => ({ stream with outbox := some outbox, outboxFile }, true)
  | (outboxFile, false) => ({ stream with outbox := none, outboxFile }, false)

/-- The observer saves its state and goes on with it, or ends. -/
def saveState (stream : EventStream D) (production : ProductionTradingState D)
    (save : SaveOutcome) : EventStream D :=
  match save.write production.saveAtomic stream.stateFile with
  | (stateFile, true) => { stream with production := some production, stateFile }
  | (stateFile, false) => { stream with production := none, stateFile }

/-- `sync_outbox` and the save behind it. -/
def synchronise (stream : EventStream D) (outbox : DurableReconciliationOutbox D)
    (registry : SubmissionRegistry D) (live : LiveTradingState D) (replayFrom : Option ℕ)
    (save : SaveOutcome) : EventStream D :=
  match syncOutbox registry live outbox with
  | .error _ => { stream with outbox := none }
  | .ok next =>
    match stream.saveOutbox next save, replayFrom with
    | (saved, true), some sequence =>
      { saved with replies := next.eventsAfter sequence :: saved.replies }
    | (saved, _), _ => saved

/-- One action; a frame that was not sent is not received. -/
def step (start : StreamStart D) (stream : EventStream D) : StreamStep D → EventStream D
  | .startSigner registry live save =>
    match stream.storedOutbox start with
    | .error _ => stream
    | .ok outbox => stream.synchronise outbox registry live none save
  | .synchronise registry live replayFrom save =>
    match stream.outbox with
    | none => stream
    | some outbox => stream.synchronise outbox registry live replayFrom save
  | .takeAcknowledgement frame save =>
    match stream.outbox, stream.acknowledgements[frame]? with
    | some outbox, some sequence =>
      match outbox.acknowledge sequence with
      | .error _ => { stream with outbox := none }
      | .ok next => (stream.saveOutbox next save).1
    | _, _ => stream
  | .stopSigner => { stream with outbox := none }
  | .startObserver =>
    match stream.storedState start with
    | .error _ => stream
    | .ok production => { stream with production := some production }
  | .applyEvent frame index save =>
    match stream.production, stream.replies[frame]?.bind (·[index]?) with
    | some production, some event =>
      match production.applyReconciliationEvent event with
      | (.error _, _) => { stream with production := none }
      | (.ok _, next) => stream.saveState next save
    | _, _ => stream
  | .clearReplans save =>
    match stream.production with
    | none => stream
    | some production => stream.saveState { production with assetsRequiringReplan := ∅ } save
  | .sendAcknowledgement =>
    match stream.production with
    | none => stream
    | some production => { stream with
        acknowledgements := production.highestContiguousSignerSequence :: stream.acknowledgements }
  | .stopObserver => { stream with production := none }

/-- Before both processes have ever run. -/
def initial : EventStream D := ⟨none, none, [], [], none, none⟩

end EventStream

end CopyTrade.Model
