import CopyTrade.Model.Core.Ipc
import CopyTrade.Model.Signer.Registry

/-!
# The reconciliation outbox

`DurableReconciliationOutbox` of crates/copytrade-signer/src/outbox.rs and `sync_outbox` of
crates/copytrade-signer/src/main.rs: every registry transition, applied fill and applied
funding event becomes one numbered event, once.
-/

namespace CopyTrade.Model

open Foundation
open Std (ExtTreeSet)

structure DurableReconciliationOutbox (D : Type) where
  schemaVersion : ℕ
  signerInstanceId : Bytes 16
  nextSequence : ℕ
  highestAcknowledgedSequence : ℕ
  sourceKeys : ExtTreeSet String
  events : List (VerifiedReconciliationEvent D)
  maximumEvents : ℕ
deriving DecidableEq

variable {D : Type} [Decimal D]

namespace DurableReconciliationOutbox

/-- The outbox `new` builds. -/
def empty (signerInstanceId : Bytes 16) (maximumEvents : ℕ) : DurableReconciliationOutbox D where
  schemaVersion := 1
  signerInstanceId
  nextSequence := 1
  highestAcknowledgedSequence := 0
  sourceKeys := ∅
  events := []
  maximumEvents

def new (signerInstanceId : Bytes 16) (maximumEvents : ℕ) :
    Except String (DurableReconciliationOutbox D) :=
  if maximumEvents = 0 then .error "outbox capacity must be nonzero"
  else .ok (empty signerInstanceId maximumEvents)

/-- `append_once`, without the sequence it returns.  On an error the caller drops the outbox. -/
def appendOnce [Sha256] [PayloadEncoding D] (outbox : DurableReconciliationOutbox D)
    (sourceKey : String) (payload : VerifiedReconciliationPayload D) :
    Except String (DurableReconciliationOutbox D) :=
  if outbox.sourceKeys.contains sourceKey then .ok outbox
  else if outbox.maximumEvents ≤ outbox.events.length then
    .error "reconciliation outbox capacity exhausted"
  else
    match checkedAddU64 outbox.nextSequence 1 with
    | none => .error "reconciliation sequence overflow"
    | some nextSequence => do
      let eventHash ← canonicalPayloadHash payload
      pure { outbox with
        nextSequence
        sourceKeys := outbox.sourceKeys.insert sourceKey
        events := outbox.events ++ [{
          identity := {
            signerInstanceId := outbox.signerInstanceId
            sequence := outbox.nextSequence
            eventHash }
          payload }] }

def eventsAfter (outbox : DurableReconciliationOutbox D) (sequence : ℕ) :
    List (VerifiedReconciliationEvent D) :=
  outbox.events.filter fun event => sequence < event.identity.sequence

def highestSequence (outbox : DurableReconciliationOutbox D) : ℕ := outbox.nextSequence - 1

def acknowledge (outbox : DurableReconciliationOutbox D) (sequence : ℕ) :
    Except String (DurableReconciliationOutbox D) :=
  if sequence < outbox.highestAcknowledgedSequence ∨ outbox.nextSequence - 1 < sequence then
    .error "invalid reconciliation acknowledgment"
  else .ok { outbox with highestAcknowledgedSequence := sequence }

/-! The two calls with the outbox that they leave behind, also when they fail. -/

/-- `append_once`: the result, with the sequence it returns, and the outbox.  The next sequence is
taken before the payload is hashed. -/
def appendOnceCall [Sha256] [PayloadEncoding D] (outbox : DurableReconciliationOutbox D)
    (sourceKey : String) (payload : VerifiedReconciliationPayload D) :
    Except String (Option ℕ) × DurableReconciliationOutbox D :=
  if outbox.sourceKeys.contains sourceKey then (.ok none, outbox)
  else if outbox.maximumEvents ≤ outbox.events.length then
    (.error "reconciliation outbox capacity exhausted", outbox)
  else
    match checkedAddU64 outbox.nextSequence 1 with
    | none => (.error "reconciliation sequence overflow", outbox)
    | some nextSequence =>
      match canonicalPayloadHash payload with
      | .error message => (.error message, { outbox with nextSequence })
      | .ok eventHash => (.ok (some outbox.nextSequence), { outbox with
          nextSequence
          sourceKeys := outbox.sourceKeys.insert sourceKey
          events := outbox.events ++ [{
            identity := {
              signerInstanceId := outbox.signerInstanceId
              sequence := outbox.nextSequence
              eventHash }
            payload }] })

def acknowledgeCall (outbox : DurableReconciliationOutbox D) (sequence : ℕ) :
    DurableReconciliationOutbox D :=
  match outbox.acknowledge sequence with
  | .error _ => outbox
  | .ok acknowledged => acknowledged

end DurableReconciliationOutbox

inductive OutboxCall (D : Type)
  | append (sourceKey : String) (payload : VerifiedReconciliationPayload D)
  | acknowledge (sequence : ℕ)

def DurableReconciliationOutbox.after [Sha256] [PayloadEncoding D]
    (outbox : DurableReconciliationOutbox D) : OutboxCall D → DurableReconciliationOutbox D
  | .append sourceKey payload => (outbox.appendOnceCall sourceKey payload).2
  | .acknowledge sequence => outbox.acknowledgeCall sequence

/-- The errors that end the process of the signer, boxed by `run` and the functions it calls
with `?`: a plain text or an error of the signer. -/
inductive RunError
  | text (message : String)
  | signer (error : SignerError)
deriving DecidableEq

def textResult {α : Type} : Except String α → Except RunError α
  | .error message => .error (.text message)
  | .ok value => .ok value

def signerResult {α : Type} : Except SignerError α → Except RunError α
  | .error error => .error (.signer error)
  | .ok value => .ok value

/-- An entry of the outbox before it is numbered: its source key and its payload. -/
abbrev OutboxItem (D : Type) := String × VerifiedReconciliationPayload D

def parseCloid (value : String) : Except RunError PlannedCloid :=
  match decodePlannedCloid value with
  | none => .error (.text "invalid CLOID")
  | some cloid => .ok cloid

def intentIdentity (registry : SubmissionRegistry D) (cloid : PlannedCloid) :
    Except SignerError IntentIdentity :=
  match registry.intent (toHex cloid) with
  | none => .error .unknownCloid
  | some intent =>
    match decodeHex32 intent.canonicalIntentHash with
    | none => .error (.decode "expected 32-byte hex value")
    | some canonicalIntentHash => .ok {
        plannedCloid := cloid
        targetVersion := intent.targetVersion
        canonicalIntentHash }

/-- The payload of a transition; `NonceAllocated` and `Signed` have none. -/
def transitionPayload (registry : SubmissionRegistry D) (sequence : ℕ) (cloid : PlannedCloid) :
    SubmissionState D → Except RunError (Option (VerifiedReconciliationPayload D))
  | .authorized => do
    let identity ← signerResult (intentIdentity registry cloid)
    pure (some (.intentAccepted identity sequence))
  | .authorizedNotSubmitted => .ok (some (.authorizedNotSubmitted cloid))
  | .submissionStarted _ => .ok (some (.submissionStarted cloid))
  | .unknownResult _ => .ok (some (.submissionUnknown cloid))
  | .acknowledged orderId => .ok (some (.orderAcknowledged cloid orderId))
  | .partiallyFilled orderId filled => .ok (some (.orderPartiallyFilled cloid orderId filled))
  | .filled _ _ | .reconciledNotFound => .ok (some (.reconciled cloid))
  | .cancelled _ filled => .ok (some (.orderCancelled cloid filled))
  | .rejected reason => .ok (some (.orderRejected cloid reason))
  | .nonceAllocated _ | .signed _ => .ok none

/-- The item of the `sequence`-th history record. -/
def transitionItem (registry : SubmissionRegistry D) (sequence : ℕ)
    (transition : SubmissionTransitionRecord D) : Except RunError (Option (OutboxItem D)) := do
  let cloid ← parseCloid transition.cloid
  let payload ← transitionPayload registry sequence cloid transition.state
  pure (payload.map fun payload => ("transition:" ++ toString sequence, payload))

def fillItem (fill : VerifiedExchangeFill D) : OutboxItem D :=
  ("fill:" ++ fill.identity.exchangeOrderId ++ ":" ++ fill.identity.tradeId, .fill fill)

def fundingItem (event : VerifiedFundingEvent D) : OutboxItem D :=
  ("funding:" ++ hex32 event.eventId, .funding event)

def appendItem [Sha256] [PayloadEncoding D] (outbox : DurableReconciliationOutbox D)
    (item : OutboxItem D) : Except RunError (DurableReconciliationOutbox D) :=
  textResult (outbox.appendOnce item.1 item.2)

/-- The transition loop of `sync_outbox`. -/
def syncTransitions [Sha256] [PayloadEncoding D] (registry : SubmissionRegistry D) :
    List (SubmissionTransitionRecord D × ℕ) → DurableReconciliationOutbox D →
      Except RunError (DurableReconciliationOutbox D)
  | [], outbox => .ok outbox
  | (transition, index) :: rest, outbox => do
    match ← transitionItem registry (index + 1) transition with
    | none => syncTransitions registry rest outbox
    | some item =>
      let next ← appendItem outbox item
      syncTransitions registry rest next

/-- `sync_outbox`.  An error ends the process of its only caller, which reads the outbox back from
the last save, so the model drops what was appended before the error. -/
def syncOutbox [Sha256] [PayloadEncoding D] (registry : SubmissionRegistry D)
    (live : LiveTradingState D) (outbox : DurableReconciliationOutbox D) :
    Except RunError (DurableReconciliationOutbox D) := do
  let transitions ← syncTransitions registry registry.history.zipIdx outbox
  let fills ← (live.verifiedFills.map fillItem).foldlM appendItem transitions
  (live.verifiedFunding.map fundingItem).foldlM appendItem fills

end CopyTrade.Model
