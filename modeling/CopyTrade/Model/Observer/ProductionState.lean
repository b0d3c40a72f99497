import CopyTrade.Model.Core.LiveTradingFile
import CopyTrade.Model.Core.Messages

/-!
# The observer's production state

`ProductionTradingState` of crates/copytrade-observer/src/production_state.rs: the live state
the observer keeps by replaying the signer's events, the state of every intent, and a buffer
for events that arrive ahead of their turn.
-/

namespace CopyTrade.Model

open Foundation
open Std (ExtTreeMap ExtTreeSet)

inductive ObserverIntentState
  | planned
  | persisted
  | sent
  | acceptedBySigner
  | submissionUnknown
  | acknowledgedByExchange
  | partiallyFilled
  | filled
  | cancelled
  | rejected
  | superseded
  | reconciled
  | authorizedNotSubmitted
deriving DecidableEq

structure ProductionTradingState (D : Type) where
  schemaVersion : ℕ
  live : LiveTradingState D
  intents : ExtTreeMap PlannedCloid ObserverIntentState
  highestContiguousSignerSequence : ℕ
  appliedEventHashes : ExtTreeMap ℕ Hash
  reorderBuffer : ExtTreeMap ℕ (VerifiedReconciliationEvent D)
  blockedAssets : ExtTreeSet String
  assetsRequiringReplan : ExtTreeSet String
  positionMismatches : ExtTreeMap String (D × D)
  equityMismatch : Option (D × D)
deriving DecidableEq

inductive ReconciliationApplication
  | applied (highestContiguousSequence : ℕ)
  | alreadyApplied (highestContiguousSequence : ℕ)
  | buffered (missingSequence : ℕ)
deriving DecidableEq

inductive ReconciliationApplyError
  | eventHashMismatch
  | sequenceIdentityConflict
  | sequenceRegression
  | reorderWindowExhausted
  | unknownIntent
  | ledger (message : String)
  | persistence (message : String)
  | schemaMismatch
deriving DecidableEq

variable {D : Type} [Decimal D]

namespace ProductionTradingState

def maximumReorderWindow : ℕ := 256

def new (live : LiveTradingState D) : ProductionTradingState D where
  schemaVersion := 1
  live := live
  intents := ∅
  highestContiguousSignerSequence := 0
  appliedEventHashes := ∅
  reorderBuffer := ∅
  blockedAssets := ∅
  assetsRequiringReplan := ∅
  positionMismatches := ∅
  equityMismatch := none

def requireIntent (state : ProductionTradingState D) (cloid : PlannedCloid)
    (next : ObserverIntentState) : Except ReconciliationApplyError (ProductionTradingState D) :=
  if !state.intents.contains cloid then .error .unknownIntent
  else .ok { state with intents := state.intents.insert cloid next }

/-- `map_err(|error| ReconciliationApplyError::Ledger(error.to_string()))`. -/
def ledgerResult {α : Type} : Except LedgerError α → Except ReconciliationApplyError α
  | .error error => .error (.ledger error.text)
  | .ok value => .ok value

def compareSnapshot (state : ProductionTradingState D) (positions : ExtTreeMap String D) :
    ProductionTradingState D :=
  (state.live.positions.keys ++ positions.keys).foldl (fun next asset =>
    let localValue := state.live.positions[asset]?.getD Decimal.zero
    let exchangeValue := positions[asset]?.getD Decimal.zero
    if Decimal.eqv localValue exchangeValue then next
    else { next with
      positionMismatches := next.positionMismatches.insert asset (localValue, exchangeValue)
      blockedAssets := next.blockedAssets.insert asset })
    { state with positionMismatches := ∅, blockedAssets := ∅ }

def applyPayload [Sha256] (state : ProductionTradingState D) :
    VerifiedReconciliationPayload D → Except ReconciliationApplyError (ProductionTradingState D)
  | .intentAccepted identity _ =>
    .ok { state with intents := state.intents.insert identity.plannedCloid .acceptedBySigner }
  | .submissionStarted cloid => state.requireIntent cloid .sent
  | .submissionUnknown cloid => state.requireIntent cloid .submissionUnknown
  | .orderAcknowledged cloid _ => state.requireIntent cloid .acknowledgedByExchange
  | .orderRejected cloid _ => state.requireIntent cloid .rejected
  | .orderCancelled cloid _ => state.requireIntent cloid .cancelled
  | .orderPartiallyFilled cloid _ _ => state.requireIntent cloid .partiallyFilled
  | .fill fill => do
    let (result, live) ← ledgerResult (applyExchangeFill state.live fill)
    match result with
    | .alreadyApplied => pure { state with live }
    | .applied _ _ =>
      let next ← ({ state with live } : ProductionTradingState D).requireIntent
        fill.identity.cloid .partiallyFilled
      pure { next with assetsRequiringReplan := next.assetsRequiringReplan.insert fill.asset }
  | .funding event => do
    let (result, live) ← ledgerResult (applyFundingEvent state.live event)
    match result with
    | .alreadyApplied => pure { state with live }
    | .applied _ => pure { state with
        live
        assetsRequiringReplan := state.assetsRequiringReplan.insert event.asset }
  | .positionSnapshot positions _ => .ok (state.compareSnapshot positions)
  | .equitySnapshot equity _ =>
    if Decimal.eqv state.live.currentEquity equity then do
      let live ← ledgerResult (state.live.reconcileEquity equity)
      pure { state with live, equityMismatch := none }
    else .ok { state with equityMismatch := some (state.live.currentEquity, equity) }
  | .reconciled cloid => state.requireIntent cloid .reconciled
  | .authorizedNotSubmitted cloid => state.requireIntent cloid .authorizedNotSubmitted

def applyContiguous [Sha256] (state : ProductionTradingState D)
    (event : VerifiedReconciliationEvent D) :
    Except ReconciliationApplyError (ProductionTradingState D) := do
  let next ← state.applyPayload event.payload
  pure { next with
    appliedEventHashes :=
      next.appliedEventHashes.insert event.identity.sequence event.identity.eventHash
    highestContiguousSignerSequence := event.identity.sequence }

/-- The loop that drains the reorder buffer.  Every round takes an event out of the buffer, so
as many rounds as it has events, and one more, reach the end of the loop.  An error leaves the
state of the rounds before it, with the failing event already taken out. -/
def drainBuffer [Sha256] : ℕ → ProductionTradingState D →
    Except ReconciliationApplyError Unit × ProductionTradingState D
  | 0, state => (.ok (), state)
  | rounds + 1, state =>
    match checkedAddU64 state.highestContiguousSignerSequence 1 with
    | none => (.error .sequenceRegression, state)
    | some next =>
      match state.reorderBuffer[next]? with
      | none => (.ok (), state)
      | some event =>
        let taken := { state with reorderBuffer := state.reorderBuffer.erase next }
        match taken.applyContiguous event with
        | .error error => (.error error, taken)
        | .ok applied => drainBuffer rounds applied

/-- `apply_reconciliation_event`: the result and the state it leaves behind, also on an error. -/
def applyReconciliationEvent [Sha256] [PayloadEncoding D] (state : ProductionTradingState D)
    (event : VerifiedReconciliationEvent D) :
    Except ReconciliationApplyError ReconciliationApplication × ProductionTradingState D :=
  match canonicalPayloadHash event.payload with
  | .error _ => (.error .eventHashMismatch, state)
  | .ok expectedHash =>
    if expectedHash != event.identity.eventHash then (.error .eventHashMismatch, state)
    else
      let sequence := event.identity.sequence
      match state.appliedEventHashes[sequence]? with
      | some existing =>
        if existing == event.identity.eventHash then
          (.ok (.alreadyApplied state.highestContiguousSignerSequence), state)
        else (.error .sequenceIdentityConflict, state)
      | none =>
        if sequence ≤ state.highestContiguousSignerSequence then
          (.error .sequenceRegression, state)
        else
          match checkedAddU64 state.highestContiguousSignerSequence 1 with
          | none => (.error .sequenceRegression, state)
          | some next =>
            if sequence != next then
              if maximumReorderWindow ≤ state.reorderBuffer.size then
                (.error .reorderWindowExhausted, state)
              else
                match state.reorderBuffer[sequence]? with
                | some existing =>
                  if existing.identity.eventHash != event.identity.eventHash then
                    (.error .sequenceIdentityConflict, state)
                  else (.ok (.buffered next), state)
                | none =>
                  (.ok (.buffered next),
                    { state with reorderBuffer := state.reorderBuffer.insert sequence event })
            else
              match state.applyContiguous event with
              | .error error => (.error error, state)
              | .ok applied =>
                match drainBuffer (applied.reorderBuffer.size + 1) applied with
                | (.error error, drained) => (.error error, drained)
                | (.ok _, drained) =>
                  (.ok (.applied drained.highestContiguousSignerSequence), drained)

end ProductionTradingState

/-! ## The file

The serialized form of `ProductionTradingState`, its `save_atomic` and its `load`. -/

namespace Derived

variable {D : Type} [Decimal D] [DecimalText D]

def observerIntentState : Serde ObserverIntentState :=
  .unitEnum (fun
    | .planned => "planned"
    | .persisted => "persisted"
    | .sent => "sent"
    | .acceptedBySigner => "accepted_by_signer"
    | .submissionUnknown => "submission_unknown"
    | .acknowledgedByExchange => "acknowledged_by_exchange"
    | .partiallyFilled => "partially_filled"
    | .filled => "filled"
    | .cancelled => "cancelled"
    | .rejected => "rejected"
    | .superseded => "superseded"
    | .reconciled => "reconciled"
    | .authorizedNotSubmitted => "authorized_not_submitted")
    [.planned, .persisted, .sent, .acceptedBySigner, .submissionUnknown, .acknowledgedByExchange,
      .partiallyFilled, .filled, .cancelled, .rejected, .superseded, .reconciled,
      .authorizedNotSubmitted] fun a => by cases a <;> rfl

def productionTradingState : PartialSerde (ProductionTradingState D) :=
  StructSerde.start ProductionTradingState.mk
    |>.field "schema_version" (·.schemaVersion) .nat
    |>.partialField "live" (·.live) liveTradingState none
    |>.partialField "intents" (·.intents) (.map (byteId 16) byteId_refused observerIntentState) none
    |>.field "highest_contiguous_signer_sequence" (·.highestContiguousSignerSequence) .nat
    |>.field "applied_event_hashes" (·.appliedEventHashes) (.map .nat (bytes 32))
    |>.field "reorder_buffer" (·.reorderBuffer) (.map .nat verifiedReconciliationEvent)
    |>.field "blocked_assets" (·.blockedAssets) (.set .string)
    |>.field "assets_requiring_replan" (·.assetsRequiringReplan) (.set .string)
    |>.field "position_mismatches" (·.positionMismatches) (byName (.pair decimal))
    |>.field "equity_mismatch" (·.equityMismatch) (.option (.pair decimal) fun _ => rfl)
    |>.toPartial false fun _ => rfl

/-- JSON writes the states without an intent and without a closed attribution. -/
theorem productionTradingState_writable_iff (state : ProductionTradingState D) :
    productionTradingState.Writable state ↔
      state.live.closedEpisodeAttribution = ∅ ∧ state.intents = ∅ :=
  ⟨fun h => ⟨h.1.2.2, h.2⟩, fun h => ⟨⟨trivial, trivial, h.1⟩, h.2⟩⟩

end Derived

namespace ProductionTradingState

variable {D : Type} [Decimal D]

/-- The checks `load` makes on a decoded state. -/
def validateLoaded (state : ProductionTradingState D) : Except ReconciliationApplyError Unit :=
  if state.schemaVersion ≠ 1 ∨ maximumReorderWindow < state.reorderBuffer.size
      ∨ state.appliedEventHashes.keys.getLast?.any
        (fun sequence => sequence != state.highestContiguousSignerSequence) = true then
    .error .schemaMismatch
  else .ok ()

variable [DecimalText D] [JsonText]

/-- `save_atomic`: the text of the file. -/
def saveAtomic (state : ProductionTradingState D) : Except ReconciliationApplyError String :=
  (writeJson Derived.productionTradingState state).mapError .persistence

def load (text : String) : Except ReconciliationApplyError (ProductionTradingState D) := do
  let state ← (readJson Derived.productionTradingState text).mapError
    ReconciliationApplyError.persistence
  state.validateLoaded
  pure state

end ProductionTradingState

end CopyTrade.Model
