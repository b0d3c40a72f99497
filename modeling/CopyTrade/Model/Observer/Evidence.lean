import CopyTrade.Model.Core.IdentityHash
import CopyTrade.Model.Core.ReadBudget

/-!
# The journals of a qualification run

`append_checkpoint`, `append_replay_event` and `verify_checkpoint_chain` of
crates/copytrade-observer/src/qualification_evidence.rs and `load_replay_events` of
crates/copytrade-observer/src/replay.rs.  A checkpoint is hashed as the text of its typed payload, a
replay event as the text of the untyped JSON value that is stored.

A journal is the list of its lines.  What `serde_json` and the derived implementations do is a
parameter, and so are the payloads that the readers only decode.
-/

namespace CopyTrade.Model.Evidence

open Foundation
open Std (ExtTreeMap)

structure LatencyEvidence where
  samples : ℕ
  totalMs : ℕ
  maximumMs : ℕ
deriving DecidableEq

structure CheckpointPayload where
  sequence : ℕ
  monotonicElapsedMs : ℕ
  acceptedSourceSnapshots : ℕ
  staleSourceSnapshots : ℕ
  rejectedSourceSnapshots : ℕ
  activeSourceCount : ℕ
  totalWeightConsumed : ℕ
  reservedWeightConsumed : ℕ
  pendingQueue : ℕ
  successorQueue : ℕ
  inFlight : ℕ
  rateLimitedResponses : ℕ
  retryCount : ℕ
  decisionCount : ℕ
  projectionViolations : ℕ
  shadowExecutionCount : ℕ
  openEpisodeCount : ℕ
  closedEpisodeCount : ℕ
  persistenceHealthy : Bool
  responseRejectedAsStale : ℕ
  acceptedSnapshotExpiredByAge : ExtTreeMap SourceTier ℕ
  candidateNeverRefreshed : ExtTreeMap SourceTier ℕ
  requestExpiredInQueue : ExtTreeMap SourceTier ℕ
  requestSupersededPending : ExtTreeMap SourceTier ℕ
  requestSupersededInFlight : ExtTreeMap SourceTier ℕ
  dispatchCountByTier : ExtTreeMap SourceTier ℕ
  acceptedCountByTier : ExtTreeMap SourceTier ℕ
  queueWaitMsByTier : ExtTreeMap SourceTier LatencyEvidence
  transportLatencyMsByKind : ExtTreeMap ReadRequestKind LatencyEvidence
  freshCandidatesByTier : ExtTreeMap SourceTier ℕ
  oldestPendingAgeByTier : ExtTreeMap SourceTier ℕ

structure ChainedCheckpoint where
  previousHash : String
  payload : CheckpointPayload
  checkpointHash : String

/-- The payloads of the responses, of the indicators and of the technical decisions are parameters.
-/
inductive ReplayPayload (Response Indicator Decision : Type)
  | runContext (replayChainVersion : ℕ) (canonicalization binarySha256 configurationSha256
      riskPolicySha256 readPolicySha256 transportPolicySha256 : String)
  | acceptedResponse (response : Response)
  | decisionTick
  | equityBoundary
  | tierSet (candidateId : String) (tier : SourceTier)
  | freshnessDecision (requestKind : ReadRequestKind) (subject : String)
      (requestedAtMono expiresAtMono attempt : ℕ) (outcome : String)
  | cohortIndicatorSnapshot (indicator : Indicator)
  | technicalDecisionSnapshot (decision : Decision)

structure ReplayEvent (R I T : Type) where
  sequence : ℕ
  observedAtMono : ℕ
  payload : ReplayPayload R I T
  previousHash : String
  eventHash : String

def replayChainVersion : ℕ := 2

def replayCanonicalization : String := "canonical_json_value_v1"

inductive EvidenceError
  | io (message : String)
  | serialize (message : String)
  | invalidChain
  | existingOutput
deriving DecidableEq

/-- What `serde_json` does: the text of a payload, of a record and of a value, and what it reads in a
line. -/
structure SerdeJson (R I T : Type) where
  payloadText : CheckpointPayload → String
  checkpointText : ChainedCheckpoint → String
  readCheckpoint : String → Except String ChainedCheckpoint
  toValue : ReplayPayload R I T → JsonValue
  valueText : JsonValue → String
  readValue : String → Except String JsonValue
  readEvent : String → Except String (ReplayEvent R I T)

def u64Value (n : ℕ) : JsonValue := .number (.posInt (.ofNat n))

/-- A map of `serde_json` is sorted by its keys, and these fields are. -/
def replayEventPreimageV2 (sequence observedAtMono : ℕ) (payload : JsonValue)
    (previousHash : String) : List (String × JsonValue) := [
  ("observed_at_mono", u64Value observedAtMono),
  ("payload", payload),
  ("previous_hash", .string previousHash),
  ("sequence", u64Value sequence)]

/-- `object.remove("event_hash")` and `as_str`: the hash and the other fields. -/
def removeEventHash (fields : List (String × JsonValue)) :
    Option (String × List (String × JsonValue)) :=
  match fields.lookup "event_hash" with
  | some (.string stored) => some (stored, fields.filter fun field => field.1 != "event_hash")
  | _ => none

variable [Sha256] {R I T : Type} (json : SerdeJson R I T)

def deriveReplayEventHashV2 (preimage : List (String × JsonValue)) : Hash :=
  Sha256.digest (textBytes (json.valueText (.object preimage)))

def checkpointPreimage (previous : Hash) (payload : CheckpointPayload) : List UInt8 :=
  previous.1 ++ (textBytes "|" ++ textBytes (json.payloadText payload))

def checkpointHash (previous : Hash) (payload : CheckpointPayload) : Hash :=
  Sha256.digest (checkpointPreimage json previous payload)

/-- The journals and what the bundle remembers of them. -/
structure EvidenceBundle where
  checkpoints : List String
  chainHead : Hash
  nextSequence : ℕ
  replayEvents : List String
  nextReplaySequence : ℕ
  replayChainHead : Hash

def EvidenceBundle.create : EvidenceBundle where
  checkpoints := []
  chainHead := .replicate 32 0
  nextSequence := 0
  replayEvents := []
  nextReplaySequence := 0
  replayChainHead := .replicate 32 0

variable (bundle : EvidenceBundle)

/-- The checkpoint that `append_checkpoint` writes. -/
def EvidenceBundle.chained (payload : CheckpointPayload) : ChainedCheckpoint :=
  let payload := { payload with sequence := bundle.nextSequence }
  { previousHash := hex32 bundle.chainHead
    payload
    checkpointHash := hex32 (checkpointHash json bundle.chainHead payload) }

/-- A call that returns; the sequence that comes next has to be a `u64`. -/
def EvidenceBundle.appendCheckpoint (payload : CheckpointPayload) :
    Except EvidenceError (String × EvidenceBundle) :=
  let payload := { payload with sequence := bundle.nextSequence }
  let current := checkpointHash json bundle.chainHead payload
  match checkedAddU64 bundle.nextSequence 1 with
  | none => .error .invalidChain
  | some nextSequence => .ok (hex32 current, { bundle with
      checkpoints := bundle.checkpoints ++ [json.checkpointText (bundle.chained json payload)]
      chainHead := current
      nextSequence })

/-- The preimage of the event that `append_replay_event` writes. -/
def EvidenceBundle.preimage (observedAtMono : ℕ) (payload : ReplayPayload R I T) :
    List (String × JsonValue) :=
  replayEventPreimageV2 bundle.nextReplaySequence observedAtMono (json.toValue payload)
    (hex32 bundle.replayChainHead)

/-- The value that is stored: its first key is `event_hash`. -/
def persisted (preimage : List (String × JsonValue)) : JsonValue :=
  .object (("event_hash", .string (hex32 (deriveReplayEventHashV2 json preimage))) :: preimage)

/-- A call that returns; the sequence that comes next has to be a `u64`. -/
def EvidenceBundle.appendReplayEvent (observedAtMono : ℕ) (payload : ReplayPayload R I T) :
    Except EvidenceError EvidenceBundle :=
  let preimage := bundle.preimage json observedAtMono payload
  match checkedAddU64 bundle.nextReplaySequence 1 with
  | none => .error .invalidChain
  | some nextReplaySequence => .ok { bundle with
      replayEvents := bundle.replayEvents ++ [json.valueText (persisted json preimage)]
      nextReplaySequence
      replayChainHead := deriveReplayEventHashV2 json preimage }

/-- One line of the loop, after the hash and the sequence that are expected. -/
def verifyCheckpoint (expected : Hash × ℕ) (line : String) : Except EvidenceError (Hash × ℕ) := do
  let checkpoint ← (json.readCheckpoint line).mapError .serialize
  let current := checkpointHash json expected.1 checkpoint.payload
  if checkpoint.payload.sequence ≠ expected.2 ∨ checkpoint.previousHash ≠ hex32 expected.1 then
    .error .invalidChain
  else if checkpoint.checkpointHash ≠ hex32 current then .error .invalidChain
  else
    match checkedAddU64 expected.2 1 with
    | none => .error .invalidChain
    | some sequence => .ok (current, sequence)

def verifyCheckpointChain (lines : List String) : Except EvidenceError String := do
  let (previous, expectedSequence) ← lines.foldlM (verifyCheckpoint json) (.replicate 32 0, 0)
  if expectedSequence = 0 then .error .invalidChain else .ok (hex32 previous)

def checkContext : ReplayPayload R I T → Except String Unit
  | .runContext version canonicalization .. =>
    if version ≠ replayChainVersion ∨ canonicalization ≠ replayCanonicalization then
      .error ("unsupported replay chain format: version " ++ toString version ++
        ", canonicalization " ++ canonicalization)
    else .ok ()
  | _ => .error "replay journal must begin with RunContext"

/-- The journal begins with the context of its format. -/
def checkFirst (expected : ℕ) (payload : ReplayPayload R I T) : Except String Unit :=
  if expected = 0 then checkContext payload else .ok ()

/-- The hash under which a line is stored, and the fields that are hashed. -/
def storedFields (line : String) : Except String (String × List (String × JsonValue)) := do
  let value ← json.readValue line
  match value with
  | .object fields =>
    match removeEventHash fields with
    | some stored => .ok stored
    | none => .error "replay event is missing a string event_hash"
  | _ => .error "replay event is missing a string event_hash"

/-- What the loop over the lines carries. -/
structure LoadedEvents (R I T : Type) where
  events : List (ReplayEvent R I T)
  expected : ℕ
  expectedPrevious : String

def atLine (expected sequence : ℕ) (fault stored : String) : String :=
  "replay " ++ fault ++ " mismatch at physical line " ++ toString (expected + 1) ++ " sequence " ++
    toString sequence ++ ": stored " ++ stored

def loadReplayEvent (loaded : LoadedEvents R I T) (line : String) :
    Except String (LoadedEvents R I T) := do
  let (stored, preimage) ← storedFields json line
  let calculated := hex32 (deriveReplayEventHashV2 json preimage)
  let event ← json.readEvent line
  checkFirst loaded.expected event.payload
  if event.sequence ≠ loaded.expected then
    .error ("replay sequence mismatch at physical line " ++ toString (loaded.expected + 1) ++
      ": expected " ++ toString loaded.expected ++ ", stored " ++ toString event.sequence)
  else if event.eventHash ≠ stored ∨ stored ≠ calculated then
    .error (atLine loaded.expected event.sequence "payload hash" stored ++ ", recomputed " ++
      calculated)
  else if event.previousHash ≠ loaded.expectedPrevious then
    .error (atLine loaded.expected event.sequence "previous-hash" event.previousHash ++
      ", expected " ++ loaded.expectedPrevious)
  else .ok ⟨loaded.events ++ [event], loaded.expected + 1, stored⟩

def loadReplayEvents (lines : List String) : Except String (List (ReplayEvent R I T)) := do
  let loaded ← lines.foldlM (loadReplayEvent json) ⟨[], 0, hex32 (.replicate 32 0)⟩
  if loaded.events.isEmpty then .error "replay journal is empty" else .ok loaded.events

def verifyReplayEventChain (lines : List String) : Except String String := do
  let events ← loadReplayEvents json lines
  match events.getLast? with
  | some event => .ok event.eventHash
  | none => .error "replay journal is empty"

end CopyTrade.Model.Evidence
