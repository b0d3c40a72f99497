import CopyTrade.Foundation.InPlace
import CopyTrade.Model.Core.IdentityHash
import CopyTrade.Model.Core.Snapshots
import CopyTrade.Model.Observer.LiveShadow
import CopyTrade.Model.Observer.SourceReads

/-!
# The states of the sources

The `SourceState` branch of `ingest` and the loop of `construct_next_decision` that looks the states
up, in crates/copytrade-observer/src/live_shadow.rs, with the exposure book of
crates/copytrade-core/src/consensus.rs.  A response moves the sequence of its candidate on before
anything can fail, and the snapshot store and the exposure book take it one after the other; a
failure leaves what was written before it.

The bytes of a payload and the decision that a new candle starts are parameters: the decision writes
none of the four parts of the engine that are modelled here.
-/

namespace CopyTrade.Model.SourceIngest

open Foundation
open Std (ExtTreeMap)

structure SourceAssetPosition (D : Type) where
  asset : String
  signedSize : D
  signedNotional : D
  entryPrice : Option D
  unrealizedPnl : Option D

structure SourceStateResponse (D : Type) where
  candidateId : String
  accountValue : D
  sourceTimeMs : ℕ
  positions : ExtTreeMap String (SourceAssetPosition D)
  closedCandles : List (ClosedCandle D)

structure AcceptedSourceResponse (D : Type) where
  payload : SourceStateResponse D
  requestedAtMono : ℕ
  receivedAtMono : ℕ
  validUntilMono : ℕ

structure SourceExposureState (D : Type) where
  acceptedSequence : ℕ
  payloadHash : Hash
  exposures : ExtTreeMap String D

inductive SourceExposureUpdate
  | inserted
  | freshnessOnly
  | replaced
  | rejectedOlderOrEqual
deriving DecidableEq

structure SourceExposureBook (D : Type) where
  states : ExtTreeMap String (SourceExposureState D)

variable {D : Type}

def acceptSourceExposureState (current : Option (SourceExposureState D))
    (incoming : SourceExposureState D) : SourceExposureUpdate × Option (SourceExposureState D) :=
  match current with
  | none => (.inserted, some incoming)
  | some existing =>
    if incoming.acceptedSequence ≤ existing.acceptedSequence then
      (.rejectedOlderOrEqual, some existing)
    else if incoming.payloadHash = existing.payloadHash then
      (.freshnessOnly, some { existing with acceptedSequence := incoming.acceptedSequence })
    else (.replaced, some incoming)

def SourceExposureBook.accept (book : SourceExposureBook D) (candidateId : String)
    (incoming : SourceExposureState D) : SourceExposureUpdate × SourceExposureBook D :=
  let removed := book.states.erase candidateId
  let outcome := acceptSourceExposureState book.states[candidateId]? incoming
  match outcome.2 with
  | none => (outcome.1, ⟨removed⟩)
  | some state => (outcome.1, ⟨removed.insert candidateId state⟩)

/-- The parts of the engine that a source state changes. -/
structure SourceEngine (D : Type) where
  technicalEngine : TechnicalEngine D
  sourceSequences : ExtTreeMap String ℕ
  sourceStore : SnapshotStore (SourceStateResponse D)
  sourceExposureBook : SourceExposureBook D

namespace SourceEngine

/-- `LiveShadowEngine::new` has seen no source. -/
def new (technicalEngine : TechnicalEngine D) (policy : FreshnessPolicy) : SourceEngine D where
  technicalEngine
  sourceSequences := ∅
  sourceStore := ⟨policy, ∅⟩
  sourceExposureBook := ⟨∅⟩

variable [Decimal D]

/-- The candles of a response; the first one that is refused ends it, with an error whose text names
the refusal too.  The result says if one was new. -/
def offerCandles : List (ClosedCandle D) → InPlace LiveShadowError (SourceEngine D) Bool
  | [] => pure false
  | candle :: candles => fun engine =>
    match engine.technicalEngine.offerClosedCandle candle with
    | (.error _, technicalEngine) =>
      (.error (.core "invalid closed candle"), { engine with technicalEngine })
    | (.ok acceptance, technicalEngine) =>
      match offerCandles candles { engine with technicalEngine } with
      | (.error error, next) => (.error error, next)
      | (.ok changed, next) => (.ok (acceptance = .accepted || changed), next)

/-- The next sequence of a candidate, whose entry is made first. -/
def advanceSequence (candidateId : String) : InPlace LiveShadowError (SourceEngine D) ℕ :=
  fun engine =>
    let current := engine.sourceSequences[candidateId]?.getD 0
    match checkedAddU64 current 1 with
    | none => (.error .arithmetic, { engine with
        sourceSequences := engine.sourceSequences.insert candidateId current })
    | some sequence => (.ok sequence, { engine with
        sourceSequences := engine.sourceSequences.insert candidateId sequence })

def exposuresOf (state : SourceStateResponse D) :
    Except LiveShadowError (ExtTreeMap String D) :=
  state.positions.toList.foldlM (fun exposures entry => do
    let exposure ← orArithmetic
      (Decimal.checkedDiv entry.2.signedNotional state.accountValue)
    pure (exposures.insert entry.1 exposure)) ∅

/-- The store takes the snapshot, and the book the exposures if it did. -/
def acceptSnapshot (snapshot : SourceSnapshot (SourceStateResponse D))
    (exposureState : SourceExposureState D) (now : ℕ) :
    InPlace LiveShadowError (SourceEngine D) Unit := fun engine =>
  let accepted := engine.sourceStore.accept snapshot now true
  match accepted.1 with
  | .accepted => (.ok (), { engine with
      sourceStore := accepted.2
      sourceExposureBook :=
        (engine.sourceExposureBook.accept snapshot.candidateId exposureState).2 })
  | _ => (.ok (), { engine with sourceStore := accepted.2 })

/-- What a response with a source state calls: the serialisation of its payload, the hash of the
bytes, and the decision when a candle was new. -/
structure IngestCalls (D : Type) where
  toVec : SourceStateResponse D → Except String (List UInt8)
  hashPayloadBytes : List UInt8 → Hash
  constructNextDecision : SourceEngine D → ℕ → Except LiveShadowError Unit

/-- The `SourceState` branch of `ingest`. -/
def ingest (calls : IngestCalls D) (response : AcceptedSourceResponse D) (now : ℕ) :
    InPlace LiveShadowError (SourceEngine D) Unit := do
  let state := { response.payload with closedCandles := [] }
  let technicalChanged ← offerCandles response.payload.closedCandles
  let sequence ← advanceSequence state.candidateId
  let payload ← InPlace.check ((calls.toVec state).mapError .core)
  let exposures ← InPlace.check (exposuresOf state)
  acceptSnapshot
    { candidateId := state.candidateId
      payload := state
      requestedAt := response.requestedAtMono
      receivedAt := response.receivedAtMono
      sourceObservedAt := none
      validUntil := response.validUntilMono
      sequence }
    { acceptedSequence := sequence
      payloadHash := calls.hashPayloadBytes payload
      exposures } now
  let engine ← InPlace.read
  InPlace.check (if technicalChanged then calls.constructNextDecision engine response.receivedAtMono
    else .ok ())

/-- `fresh_source`, with the age that the tier of a candidate allows. -/
def freshSource (engine : SourceEngine D) (maximumAgeMs : String → ℕ) (candidate : String)
    (now : ℕ) : Option (SourceSnapshot (SourceStateResponse D)) :=
  (engine.sourceStore.fresh candidate now).filter fun snapshot =>
    now - snapshot.receivedAt ≤ maximumAgeMs candidate

/-- What the loop over the candidates has found. -/
structure SelectedSources (D : Type) where
  eligibility : SourceEligibilitySummary
  members : List SnapshotSetMember
  freshSourceStates : List (SourceStateResponse D)
  sourceReceivedAt : ExtTreeMap String ℕ

def SelectedSources.exclude (selected : SelectedSources D) (candidate : String)
    (reason : ExclusionReason) : SelectedSources D :=
  { selected with eligibility := { selected.eligibility with
      excluded := selected.eligibility.excluded.insert candidate reason } }

def SelectedSources.enlist (selected : SelectedSources D) (candidate : String)
    (snapshot : SourceSnapshot (SourceStateResponse D)) (exposureState : SourceExposureState D) :
    SelectedSources D where
  eligibility := { selected.eligibility with
    activeIds := selected.eligibility.activeIds.insert candidate }
  members := selected.members ++ [
    { candidateId := candidate
      acceptedSequence := .ofNat snapshot.sequence
      payloadHash := exposureState.payloadHash
      receivedAtMono := .ofNat snapshot.receivedAt
      validUntilMono := .ofNat snapshot.validUntil }]
  freshSourceStates := selected.freshSourceStates ++ [snapshot.payload]
  sourceReceivedAt := selected.sourceReceivedAt.insert candidate snapshot.receivedAt

/-- One candidate, by its address in lower case and whether it is enabled. -/
def selectSource (engine : SourceEngine D) (maximumAgeMs : String → ℕ) (now : ℕ)
    (selected : SelectedSources D) (candidate : String × Bool) :
    Except LiveShadowError (SelectedSources D) :=
  if !candidate.2 then
    .ok (selected.exclude candidate.1 .disabled)
  else
    match engine.freshSource maximumAgeMs candidate.1 now with
    | none => .ok (selected.exclude candidate.1 .stale)
    | some snapshot =>
      match engine.sourceExposureBook.states[candidate.1]? with
      | none => .error (.core ("missing absolute exposure state for " ++ candidate.1))
      | some exposureState =>
        if exposureState.acceptedSequence ≠ snapshot.sequence then
          .error (.core ("exposure state sequence mismatch for " ++ candidate.1))
        else .ok (selected.enlist candidate.1 snapshot exposureState)

/-- The candidates that a decision uses. -/
def selectSources (engine : SourceEngine D) (maximumAgeMs : String → ℕ) (now : ℕ)
    (candidates : List (String × Bool)) : Except LiveShadowError (SelectedSources D) :=
  candidates.foldlM (selectSource engine maximumAgeMs now) ⟨⟨∅, ∅⟩, [], [], ∅⟩

end SourceEngine

end CopyTrade.Model.SourceIngest
