import CopyTrade.Model.Core.Frame
import CopyTrade.Model.Core.LiveTradingFile
import CopyTrade.Model.Core.Messages

/-!
# The observer's handoff queue

`DurableHandoffQueue` of crates/copytrade-observer/src/ipc_client.rs: the intents on their way to
the signer, each with the frame it is sent in.  The queue is saved as JSON before a frame is
written to the socket.
-/

namespace CopyTrade.Model.IpcClient

open Foundation
open Std (ExtTreeMap)

inductive ObserverIntentState
  | planned
  | persisted
  | sent
  | acceptedBySigner
  | submissionUnknown
  | acknowledgedByExchange
  | partiallyFilled
  | filled
  | cancelled
  | rejected (reason : String)
  | superseded
  | reconciled
deriving DecidableEq

structure PendingHandoff (D : Type) where
  intent : AuthorizedExecutionIntent D
  state : ObserverIntentState
  observerSequence : ℕ
  canonicalFrame : List UInt8
  canonicalFrameHash : Hash
deriving DecidableEq

structure DurableHandoffQueue (D : Type) where
  schemaVersion : ℕ
  maximumPendingIntents : ℕ
  maximumPendingRiskReducing : ℕ
  maximumPendingExposureIncreasing : ℕ
  nextSequence : ℕ
  byCloid : ExtTreeMap PlannedCloid (PendingHandoff D)
deriving DecidableEq

inductive ObserverIpcError
  | io (message : String)
  | codec (error : IpcError)
  | capacityExhausted
  | duplicateConflict
  | unknownCloid
  | unexpectedResponse
  | peerMismatch
  | handshakeMismatch
  | invalidState
  | sequenceOverflow
deriving DecidableEq

section

variable {D : Type} [Decimal D]

/-- `==` of two optional values. -/
def sameOption {α : Type} (same : α → α → Bool) : Option α → Option α → Bool
  | none, none => true
  | some a, some b => same a b
  | _, _ => false

def sameList {α : Type} (same : α → α → Bool) (a b : List α) : Bool :=
  a.length == b.length && (a.zip b).all fun pair => same pair.1 pair.2

def sameMap {α : Type} (same : α → α → Bool) (a b : ExtTreeMap String α) : Bool :=
  sameList (fun x y => x.1 == y.1 && same x.2 y.2) a.toList b.toList

/-- The derived `==` of two open orders, which compares decimals by value. -/
def sameOpenOrder (a b : OpenOrderExposure D) : Bool :=
  a.asset == b.asset && a.side == b.side && sameOption Decimal.eqv a.notional b.notional &&
    a.lifecycle == b.lifecycle

/-- The derived `==` of two market rules. -/
def sameMarketRules (a b : MarketRules D) : Bool :=
  Decimal.eqv a.markPrice b.markPrice && Decimal.eqv a.priceTick b.priceTick &&
    Decimal.eqv a.sizeStep b.sizeStep

/-- The derived `==` of two projection inputs. -/
def sameProjectionInput (a b : PortfolioProjectionInput D) : Bool :=
  Decimal.eqv a.currentEquity b.currentEquity && Decimal.eqv a.curveLeverage b.curveLeverage &&
    Decimal.eqv a.globalRiskScale b.globalRiskScale &&
    Decimal.eqv a.maxSingleAssetEquityPct b.maxSingleAssetEquityPct &&
    Decimal.eqv a.maxNetEquityPct b.maxNetEquityPct &&
    sameMap Decimal.eqv a.filledPositions b.filledPositions &&
    a.filledPositionStateComplete == b.filledPositionStateComplete &&
    sameList sameOpenOrder a.acknowledgedOpenOrders b.acknowledgedOpenOrders &&
    a.openOrderStateComplete == b.openOrderStateComplete &&
    sameMap Decimal.eqv a.unconstrainedTargets b.unconstrainedTargets &&
    sameMap sameMarketRules a.marketRules b.marketRules

/-- The derived `==` of two authorization contexts. -/
def samePreSigningContext (a b : PreSigningContext D) : Bool :=
  a.nowMono == b.nowMono && a.deployedRiskPolicyHash == b.deployedRiskPolicyHash &&
    sameProjectionInput a.projectionInput b.projectionInput &&
    Decimal.eqv a.exchangeMinimumNotional b.exchangeMinimumNotional

/-- The derived `==` of two intents. -/
def sameIntent (a b : AuthorizedExecutionIntent D) : Bool :=
  a.schemaVersion == b.schemaVersion && a.decisionId == b.decisionId &&
    a.targetVersion == b.targetVersion && a.rootCloid == b.rootCloid &&
    a.plannedCloid == b.plannedCloid && a.parentCloid == b.parentCloid &&
    a.continuationGeneration == b.continuationGeneration && a.asset == b.asset &&
    a.assetIndex == b.assetIndex && a.side == b.side && Decimal.eqv a.quantity b.quantity &&
    Decimal.eqv a.limitPrice b.limitPrice && a.reduceOnly == b.reduceOnly &&
    a.timeInForce == b.timeInForce && a.projectedPortfolioHash == b.projectedPortfolioHash &&
    a.riskPolicyHash == b.riskPolicyHash && a.configurationHash == b.configurationHash &&
    a.marketRulesHash == b.marketRulesHash &&
    a.dynamicFloorPolicyHash == b.dynamicFloorPolicyHash &&
    a.iocPolicyHash == b.iocPolicyHash && a.observerReleaseHash == b.observerReleaseHash &&
    a.signerReleaseHash == b.signerReleaseHash &&
    a.releaseManifestHash == b.releaseManifestHash &&
    Decimal.eqv a.decisionReferencePrice b.decisionReferencePrice &&
    Decimal.eqv a.expectedCommittedBefore b.expectedCommittedBefore &&
    Decimal.eqv a.expectedCommittedAfter b.expectedCommittedAfter &&
    a.decisionTimestampMs == b.decisionTimestampMs && a.expiresAt == b.expiresAt &&
    samePreSigningContext a.authorization b.authorization && a.canonicalHash == b.canonicalHash

end

section

variable {D : Type} [Decimal D] [DecimalText D]

def observerIntentState : Serde ObserverIntentState where
  serialize
    | .planned => .unitVariant "planned"
    | .persisted => .unitVariant "persisted"
    | .sent => .unitVariant "sent"
    | .acceptedBySigner => .unitVariant "accepted_by_signer"
    | .submissionUnknown => .unitVariant "submission_unknown"
    | .acknowledgedByExchange => .unitVariant "acknowledged_by_exchange"
    | .partiallyFilled => .unitVariant "partially_filled"
    | .filled => .unitVariant "filled"
    | .cancelled => .unitVariant "cancelled"
    | .rejected reason => .structVariant "rejected" [("reason", .text reason)]
    | .superseded => .unitVariant "superseded"
    | .reconciled => .unitVariant "reconciled"
  deserialize
    | .text "planned" => .ok .planned
    | .text "persisted" => .ok .persisted
    | .text "sent" => .ok .sent
    | .text "accepted_by_signer" => .ok .acceptedBySigner
    | .text "submission_unknown" => .ok .submissionUnknown
    | .text "acknowledged_by_exchange" => .ok .acknowledgedByExchange
    | .text "partially_filled" => .ok .partiallyFilled
    | .text "filled" => .ok .filled
    | .text "cancelled" => .ok .cancelled
    | .map [(.text "rejected", .seq [.text reason])] => .ok (.rejected reason)
    | .map [(.text "rejected", .map [(.text "reason", .text reason)])] => .ok (.rejected reason)
    | .text "superseded" => .ok .superseded
    | .text "reconciled" => .ok .reconciled
    | _ => .error "unknown variant"
  compact_ok a := by cases a <;> rfl
  json_ok a := by cases a <;> exact ⟨_, rfl, rfl⟩

def pendingHandoff : Serde (PendingHandoff D) :=
  StructSerde.start PendingHandoff.mk
    |>.field "intent" (·.intent) Derived.authorizedExecutionIntent
    |>.field "state" (·.state) observerIntentState
    |>.field "observer_sequence" (·.observerSequence) .nat
    |>.field "canonical_frame" (·.canonicalFrame) (.list Derived.byte)
    |>.field "canonical_frame_hash" (·.canonicalFrameHash) (Derived.bytes 32)
    |>.toSerde true (fun _ => rfl) fun _ => trivial

theorem cloid_refused (cloid : PlannedCloid) :
    ∃ message, jsonKey ((Derived.byteId 16).serialize cloid) = .error message := ⟨_, rfl⟩

def durableHandoffQueue : PartialSerde (DurableHandoffQueue D) :=
  StructSerde.start DurableHandoffQueue.mk
    |>.field "schema_version" (·.schemaVersion) .nat
    |>.field "maximum_pending_intents" (·.maximumPendingIntents) .nat
    |>.fieldOr "maximum_pending_risk_reducing" (·.maximumPendingRiskReducing) .nat (some 0)
    |>.fieldOr "maximum_pending_exposure_increasing" (·.maximumPendingExposureIncreasing) .nat
      (some 0)
    |>.field "next_sequence" (·.nextSequence) .nat
    |>.partialField "by_cloid" (·.byCloid) (.map (Derived.byteId 16) cloid_refused pendingHandoff)
      none
    |>.toPartial true fun _ => rfl

theorem durableHandoffQueue_writable_iff (queue : DurableHandoffQueue D) :
    durableHandoffQueue.Writable queue ↔ queue.byCloid = ∅ :=
  ⟨fun h => h.2, fun h => ⟨trivial, h⟩⟩

end

namespace DurableHandoffQueue

variable {D : Type} [Decimal D]

def handoffSchemaVersion : ℕ := 1

omit [Decimal D] in
def new (maximumPendingIntents : ℕ) : Except ObserverIpcError (DurableHandoffQueue D) :=
  if maximumPendingIntents = 0 then .error .capacityExhausted
  else .ok {
    schemaVersion := handoffSchemaVersion
    maximumPendingIntents
    maximumPendingRiskReducing := maximumPendingIntents
    maximumPendingExposureIncreasing := maximumPendingIntents
    nextSequence := 1
    byCloid := ∅ }

omit [Decimal D] in
def withLanes (maximumPendingRiskReducing maximumPendingExposureIncreasing : ℕ) :
    Except ObserverIpcError (DurableHandoffQueue D) :=
  match checkedAddU64 maximumPendingRiskReducing maximumPendingExposureIncreasing with
  | none => .error .capacityExhausted
  | some maximumPendingIntents =>
    if maximumPendingRiskReducing = 0 ∨ maximumPendingExposureIncreasing = 0 then
      .error .capacityExhausted
    else .ok {
      schemaVersion := handoffSchemaVersion
      maximumPendingIntents
      maximumPendingRiskReducing
      maximumPendingExposureIncreasing
      nextSequence := 1
      byCloid := ∅ }

/-- The states `unresolved_len` passes over. -/
def resolved : ObserverIntentState → Bool
  | .acceptedBySigner | .rejected _ | .superseded | .reconciled => true
  | _ => false

def leftLane : ObserverIntentState → Bool
  | .rejected _ | .superseded | .reconciled => true
  | _ => false

def unresolvedLen (queue : DurableHandoffQueue D) : ℕ :=
  queue.byCloid.values.countP fun entry => !resolved entry.state

/-- The entries in the lane of an intent. -/
def laneCount (queue : DurableHandoffQueue D) (reduceOnly : Bool) : ℕ :=
  queue.byCloid.values.countP fun entry =>
    entry.intent.reduceOnly == reduceOnly && !leftLane entry.state

def laneCapacity (queue : DurableHandoffQueue D) (reduceOnly : Bool) : ℕ :=
  if reduceOnly then queue.maximumPendingRiskReducing
  else queue.maximumPendingExposureIncreasing

/-- The frame of a submission and the hash of its payload. -/
def submission [Sha256] [MessagePack] [DecimalText D] (intent : AuthorizedExecutionIntent D)
    (sequence : ℕ) : Except ObserverIpcError (List UInt8 × Hash) := do
  let serialize := serializeTagged "type" Derived.observerRequestVariants
  let frame ← (encodeFrame serialize observerMessageType sequence (ObserverRequest.submit intent)
    (16 * 1024 * 1024)).mapError .codec
  let value ← (serialize (ObserverRequest.submit intent)).mapError fun message =>
    .codec (.encode message)
  pure (frame, Sha256.digest (framedPayload value))

/-- `enqueue`: the result and the queue it leaves behind, also on an error. -/
def enqueue [Sha256] [MessagePack] [IntentEncoding D] [DecimalText D]
    (queue : DurableHandoffQueue D) (intent : AuthorizedExecutionIntent D) :
    Except ObserverIpcError ℕ × DurableHandoffQueue D :=
  match queue.byCloid[intent.plannedCloid]? with
  | some existing =>
    if sameIntent existing.intent intent then (.ok existing.observerSequence, queue)
    else (.error .duplicateConflict, queue)
  | none =>
    match intent.validateCanonical with
    | .error _ => (.error .duplicateConflict, queue)
    | .ok _ =>
      if queue.maximumPendingIntents ≤ queue.unresolvedLen then (.error .capacityExhausted, queue)
      else if queue.laneCapacity intent.reduceOnly ≤ queue.laneCount intent.reduceOnly then
        (.error .capacityExhausted, queue)
      else
        match checkedAddU64 queue.nextSequence 1 with
        | none => (.error .sequenceOverflow, queue)
        | some next =>
          let advanced := { queue with nextSequence := next }
          match submission intent queue.nextSequence with
          | .error error => (.error error, advanced)
          | .ok (canonicalFrame, canonicalFrameHash) =>
            (.ok queue.nextSequence, { advanced with
              byCloid := queue.byCloid.insert intent.plannedCloid {
                intent
                state := .persisted
                observerSequence := queue.nextSequence
                canonicalFrame
                canonicalFrameHash } })

/-- `get_mut(&cloid).ok_or(UnknownCloid)?` and a change of the state of that entry. -/
def changeState (queue : DurableHandoffQueue D) (cloid : PlannedCloid)
    (change : ObserverIntentState → ObserverIntentState) :
    Except ObserverIpcError (DurableHandoffQueue D) :=
  match queue.byCloid[cloid]? with
  | none => .error .unknownCloid
  | some pending => .ok { queue with
      byCloid := queue.byCloid.insert cloid { pending with state := change pending.state } }

def markDisconnect (queue : DurableHandoffQueue D) (cloid : PlannedCloid) :
    Except ObserverIpcError (DurableHandoffQueue D) :=
  queue.changeState cloid fun state => if state = .sent then .submissionUnknown else state

def markAccepted (queue : DurableHandoffQueue D) (cloid : PlannedCloid) :
    Except ObserverIpcError (DurableHandoffQueue D) :=
  queue.changeState cloid fun _ => .acceptedBySigner

def markRejected (queue : DurableHandoffQueue D) (cloid : PlannedCloid) (reason : String) :
    Except ObserverIpcError (DurableHandoffQueue D) :=
  queue.changeState cloid fun _ => .rejected reason

variable [DecimalText D] [JsonText]

/-- `persist`: the text of the file, which ends with a line break. -/
def persist (queue : DurableHandoffQueue D) : Except ObserverIpcError String := do
  let text ← (writeJson durableHandoffQueue queue).mapError ObserverIpcError.io
  pure (text ++ "\n")

theorem persist_eq_error {queue : DurableHandoffQueue D} (h : queue.byCloid ≠ ∅) :
    ∃ message, queue.persist = .error (.io message) := by
  obtain ⟨message, hmessage⟩ :=
    writeJson_eq_error (mt (durableHandoffQueue_writable_iff queue).mp h)
  refine ⟨message, ?_⟩
  unfold persist
  rw [hmessage]
  rfl

def restore (text : String) (expectedCapacity : ℕ) :
    Except ObserverIpcError (DurableHandoffQueue D) := do
  let state ← (readJson durableHandoffQueue text).mapError ObserverIpcError.io
  if state.schemaVersion ≠ handoffSchemaVersion ∨ state.maximumPendingIntents ≠ expectedCapacity
      ∨ state.maximumPendingIntents < state.byCloid.size ∨ state.nextSequence = 0 then
    .error .invalidState
  else pure state

end DurableHandoffQueue

end CopyTrade.Model.IpcClient
