import CopyTrade.Model.Core.Derived

/-!
# The messages on the wire

`ObserverRequest` and `SignerResponse` of crates/copytrade-core/src/ipc.rs with their serialized
form.  Both are internally tagged enumerations, as is the payload of an event.
-/

namespace CopyTrade.Model

open Foundation

inductive ProcessRole
  | observer
  | signer
deriving DecidableEq

structure ProductionHandshake where
  protocolVersion : ℕ
  processRole : ProcessRole
  releaseBinaryHash : Hash
  sourceTreeSha256 : String
  ipcPolicyHash : Hash
  stateSchemaVersion : ℕ
  nonce : Hash
  peerNonce : Option Hash
deriving DecidableEq

inductive ObserverRequest (D : Type)
  | handshake (handshake : ProductionHandshake)
  | submit (intent : AuthorizedExecutionIntent D)
  | reconcile (cloid : PlannedCloid)
  | replayFrom (highestContiguousSequence : ℕ)
  | acknowledgeEvents (highestContiguousSequence : ℕ)
  | status
deriving DecidableEq

inductive SignerRejection
  | invalidIntent (reason : String)
  | duplicateCloid
  | expired
  | policyMismatch
  | riskChanged
  | notReady
  | capacityExhausted
  | internal (reason : String)
deriving DecidableEq

inductive SignerResponse (D : Type)
  | handshake (handshake : ProductionHandshake)
  | accepted (identity : IntentIdentity) (durableSequence : ℕ) (durableState : String)
  | rejected (cloid : PlannedCloid) (reason : SignerRejection)
  | notFound (cloid : PlannedCloid)
  | status (ready : Bool) (reconciled : Bool) (highestEventSequence : ℕ)
  | reconciliationEvent (event : VerifiedReconciliationEvent D)
  | reconciliationEvents (events : List (VerifiedReconciliationEvent D))
  | eventsAcknowledged (highestContiguousSequence : ℕ)
deriving DecidableEq

namespace Derived

def noFields : Serde Unit :=
  StructSerde.start () |>.toSerde false (fun _ => rfl) fun _ => trivial

def oneField {α : Type} (name : String) (c : Serde α) : Serde α :=
  StructSerde.start (fun a => a)
    |>.field name (fun a => a) c
    |>.toSerde true (fun _ => rfl) fun _ => trivial

def twoFields {α β : Type} (first : String) (c : Serde α) (second : String) (d : Serde β) :
    Serde (α × β) :=
  StructSerde.start Prod.mk
    |>.field first Prod.fst c
    |>.field second Prod.snd d
    |>.toSerde true (fun _ => rfl) fun _ => trivial

def threeFields {α β γ : Type} (first : String) (c : Serde α) (second : String) (d : Serde β)
    (third : String) (e : Serde γ) : Serde (α × β × γ) :=
  StructSerde.start (fun (a : α) (b : β) (c : γ) => (a, b, c))
    |>.field first (fun content : α × β × γ => content.1) c
    |>.field second (fun content => content.2.1) d
    |>.field third (fun content => content.2.2) e
    |>.toSerde true (fun _ => rfl) fun _ => trivial

def intentIdentity : Serde IntentIdentity :=
  StructSerde.start IntentIdentity.mk
    |>.field "planned_cloid" (·.plannedCloid) (byteId 16)
    |>.field "target_version" (·.targetVersion) (.newtype .nat)
    |>.field "canonical_intent_hash" (·.canonicalIntentHash) (bytes 32)
    |>.toSerde true (fun _ => rfl) fun _ => trivial

def reconciliationEventIdentity : Serde ReconciliationEventIdentity :=
  StructSerde.start ReconciliationEventIdentity.mk
    |>.field "signer_instance_id" (·.signerInstanceId) (bytes 16)
    |>.field "sequence" (·.sequence) .nat
    |>.field "event_hash" (·.eventHash) (bytes 32)
    |>.toSerde true (fun _ => rfl) fun _ => trivial

variable {D : Type} [Decimal D] [DecimalText D]

def payloadVariants : List (Variant (VerifiedReconciliationPayload D)) := [
  .of "intent_accepted" (fun
      | .intentAccepted identity sequence => some (identity, sequence)
      | _ => none)
    (fun content => .intentAccepted content.1 content.2) (fun a b h => by cases a <;> cases h; rfl)
    (twoFields "identity" intentIdentity "durable_sequence" .nat),
  .of "submission_started" (fun
      | .submissionStarted cloid => some cloid
      | _ => none)
    .submissionStarted (fun a b h => by cases a <;> cases h; rfl) (oneField "cloid" (byteId 16)),
  .of "submission_unknown" (fun
      | .submissionUnknown cloid => some cloid
      | _ => none)
    .submissionUnknown (fun a b h => by cases a <;> cases h; rfl) (oneField "cloid" (byteId 16)),
  .of "order_acknowledged" (fun
      | .orderAcknowledged cloid orderId => some (cloid, orderId)
      | _ => none)
    (fun content => .orderAcknowledged content.1 content.2)
    (fun a b h => by cases a <;> cases h; rfl)
    (twoFields "cloid" (byteId 16) "order_id" .string),
  .of "order_rejected" (fun
      | .orderRejected cloid reason => some (cloid, reason)
      | _ => none)
    (fun content => .orderRejected content.1 content.2) (fun a b h => by cases a <;> cases h; rfl)
    (twoFields "cloid" (byteId 16) "reason" .string),
  .of "order_cancelled" (fun
      | .orderCancelled cloid filled => some (cloid, filled)
      | _ => none)
    (fun content => .orderCancelled content.1 content.2) (fun a b h => by cases a <;> cases h; rfl)
    (twoFields "cloid" (byteId 16) "filled_quantity" decimal),
  .of "order_partially_filled" (fun
      | .orderPartiallyFilled cloid orderId filled => some (cloid, orderId, filled)
      | _ => none)
    (fun content => .orderPartiallyFilled content.1 content.2.1 content.2.2)
    (fun a b h => by cases a <;> cases h; rfl)
    (threeFields "cloid" (byteId 16) "order_id" .string "filled_quantity" decimal),
  .of "fill" (fun
      | .fill fill => some fill
      | _ => none)
    .fill (fun a b h => by cases a <;> cases h; rfl) verifiedExchangeFill,
  .of "funding" (fun
      | .funding event => some event
      | _ => none)
    .funding (fun a b h => by cases a <;> cases h; rfl) verifiedFundingEvent,
  .of "position_snapshot" (fun
      | .positionSnapshot positions observedAt => some (positions, observedAt)
      | _ => none)
    (fun content => .positionSnapshot content.1 content.2)
    (fun a b h => by cases a <;> cases h; rfl)
    (twoFields "positions" (byName decimal) "observed_at" .nat),
  .of "equity_snapshot" (fun
      | .equitySnapshot equity observedAt => some (equity, observedAt)
      | _ => none)
    (fun content => .equitySnapshot content.1 content.2) (fun a b h => by cases a <;> cases h; rfl)
    (twoFields "equity" decimal "observed_at" .nat),
  .of "reconciled" (fun
      | .reconciled cloid => some cloid
      | _ => none)
    .reconciled (fun a b h => by cases a <;> cases h; rfl) (oneField "cloid" (byteId 16)),
  .of "authorized_not_submitted" (fun
      | .authorizedNotSubmitted cloid => some cloid
      | _ => none)
    .authorizedNotSubmitted (fun a b h => by cases a <;> cases h; rfl)
    (oneField "cloid" (byteId 16))]

theorem payloadVariants_nodup :
    ((payloadVariants : List (Variant (VerifiedReconciliationPayload D))).map Variant.name).Nodup := by
  simp [payloadVariants, Variant.of]

theorem payload_tagged (payload : VerifiedReconciliationPayload D) :
    ∃ value, serializeTagged "event" payloadVariants payload = .ok value := by
  cases payload <;> exact ⟨_, rfl⟩

def verifiedReconciliationPayload : Serde (VerifiedReconciliationPayload D) :=
  .taggedEnum "event" payloadVariants payloadVariants_nodup payload_tagged

def verifiedReconciliationEvent : Serde (VerifiedReconciliationEvent D) :=
  StructSerde.start VerifiedReconciliationEvent.mk
    |>.field "identity" (·.identity) reconciliationEventIdentity
    |>.field "payload" (·.payload) verifiedReconciliationPayload
    |>.toSerde true (fun _ => rfl) fun _ => trivial

def processRole : Serde ProcessRole :=
  .unitEnum (fun
    | .observer => "observer"
    | .signer => "signer") [.observer, .signer] fun a => by cases a <;> rfl

def productionHandshake : Serde ProductionHandshake :=
  StructSerde.start ProductionHandshake.mk
    |>.field "protocol_version" (·.protocolVersion) .nat
    |>.field "process_role" (·.processRole) processRole
    |>.field "release_binary_hash" (·.releaseBinaryHash) (bytes 32)
    |>.field "source_tree_sha256" (·.sourceTreeSha256) .string
    |>.field "ipc_policy_hash" (·.ipcPolicyHash) (bytes 32)
    |>.field "state_schema_version" (·.stateSchemaVersion) .nat
    |>.field "nonce" (·.nonce) (bytes 32)
    |>.field "peer_nonce" (·.peerNonce) (.option (bytes 32) fun _ => rfl)
    |>.toSerde true (fun _ => rfl) fun _ => trivial

def signerRejection : Serde SignerRejection where
  serialize
    | .invalidIntent reason => .newtypeVariant "invalid_intent" (.text reason)
    | .duplicateCloid => .unitVariant "duplicate_cloid"
    | .expired => .unitVariant "expired"
    | .policyMismatch => .unitVariant "policy_mismatch"
    | .riskChanged => .unitVariant "risk_changed"
    | .notReady => .unitVariant "not_ready"
    | .capacityExhausted => .unitVariant "capacity_exhausted"
    | .internal reason => .newtypeVariant "internal" (.text reason)
  deserialize
    | .map [(.text "invalid_intent", .text reason)] => .ok (.invalidIntent reason)
    | .text "duplicate_cloid" => .ok .duplicateCloid
    | .text "expired" => .ok .expired
    | .text "policy_mismatch" => .ok .policyMismatch
    | .text "risk_changed" => .ok .riskChanged
    | .text "not_ready" => .ok .notReady
    | .text "capacity_exhausted" => .ok .capacityExhausted
    | .map [(.text "internal", .text reason)] => .ok (.internal reason)
    | _ => .error "unknown variant"
  compact_ok a := by cases a <;> rfl
  json_ok a := by cases a <;> exact ⟨_, rfl, rfl⟩

def observerRequestVariants : List (Variant (ObserverRequest D)) := [
  .of "handshake" (fun
      | .handshake handshake => some handshake
      | _ => none)
    .handshake (fun a b h => by cases a <;> cases h; rfl) productionHandshake,
  .of "submit" (fun
      | .submit intent => some intent
      | _ => none)
    .submit (fun a b h => by cases a <;> cases h; rfl) authorizedExecutionIntent,
  .of "reconcile" (fun
      | .reconcile cloid => some cloid
      | _ => none)
    .reconcile (fun a b h => by cases a <;> cases h; rfl) (byteId 16),
  .of "replay_from" (fun
      | .replayFrom sequence => some sequence
      | _ => none)
    .replayFrom (fun a b h => by cases a <;> cases h; rfl)
    (oneField "highest_contiguous_sequence" .nat),
  .of "acknowledge_events" (fun
      | .acknowledgeEvents sequence => some sequence
      | _ => none)
    .acknowledgeEvents (fun a b h => by cases a <;> cases h; rfl)
    (oneField "highest_contiguous_sequence" .nat),
  .of "status" (fun
      | .status => some ()
      | _ => none)
    (fun _ => .status) (fun a b h => by cases a <;> cases h; rfl) noFields]

def signerResponseVariants : List (Variant (SignerResponse D)) := [
  .of "handshake" (fun
      | .handshake handshake => some handshake
      | _ => none)
    .handshake (fun a b h => by cases a <;> cases h; rfl) productionHandshake,
  .of "accepted" (fun
      | .accepted identity sequence state => some (identity, sequence, state)
      | _ => none)
    (fun content => .accepted content.1 content.2.1 content.2.2)
    (fun a b h => by cases a <;> cases h; rfl)
    (threeFields "identity" intentIdentity "durable_sequence" .nat "durable_state" .string),
  .of "rejected" (fun
      | .rejected cloid reason => some (cloid, reason)
      | _ => none)
    (fun content => .rejected content.1 content.2) (fun a b h => by cases a <;> cases h; rfl)
    (twoFields "cloid" (byteId 16) "reason" signerRejection),
  .of "not_found" (fun
      | .notFound cloid => some cloid
      | _ => none)
    .notFound (fun a b h => by cases a <;> cases h; rfl) (oneField "cloid" (byteId 16)),
  .of "status" (fun
      | .status ready reconciled highest => some (ready, reconciled, highest)
      | _ => none)
    (fun content => .status content.1 content.2.1 content.2.2)
    (fun a b h => by cases a <;> cases h; rfl)
    (threeFields "ready" .bool "reconciled" .bool "highest_event_sequence" .nat),
  .of "reconciliation_event" (fun
      | .reconciliationEvent event => some event
      | _ => none)
    .reconciliationEvent (fun a b h => by cases a <;> cases h; rfl) verifiedReconciliationEvent,
  .of "reconciliation_events" (fun
      | .reconciliationEvents events => some events
      | _ => none)
    .reconciliationEvents (fun a b h => by cases a <;> cases h; rfl)
    (.list verifiedReconciliationEvent),
  .of "events_acknowledged" (fun
      | .eventsAcknowledged sequence => some sequence
      | _ => none)
    .eventsAcknowledged (fun a b h => by cases a <;> cases h; rfl)
    (oneField "highest_contiguous_sequence" .nat)]

end Derived

end CopyTrade.Model
