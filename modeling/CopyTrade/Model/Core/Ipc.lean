import CopyTrade.Model.Core.LiveTrading
import CopyTrade.Model.Core.PortfolioRisk
import CopyTrade.Model.Identity

/-!
# The messages between observer and signer

The immutable envelope the observer hands to the signer, the context the signer re-checks it in, the
hash of a projection, and the messages of crates/copytrade-core/src/ipc.rs.  The MessagePack
encoders of an intent and of an event payload are dependencies of the repository and stay parameters
(`IntentEncoding`, `PayloadEncoding`).
-/

namespace CopyTrade.Model

open Foundation
open Std (ExtTreeMap)

section

inductive TimeInForce
  | ioc
deriving DecidableEq

structure PreSigningContext (D : Type) where
  nowMono : ℕ
  deployedRiskPolicyHash : Hash
  projectionInput : PortfolioProjectionInput D
  exchangeMinimumNotional : D
deriving DecidableEq

structure AuthorizedExecutionIntent (D : Type) where
  schemaVersion : ℕ
  decisionId : Hash
  targetVersion : ℕ
  rootCloid : PlannedCloid
  plannedCloid : PlannedCloid
  parentCloid : Option PlannedCloid
  continuationGeneration : ℕ
  asset : String
  assetIndex : ℕ
  side : Side
  quantity : D
  limitPrice : D
  reduceOnly : Bool
  timeInForce : TimeInForce
  projectedPortfolioHash : Hash
  riskPolicyHash : Hash
  configurationHash : Hash
  marketRulesHash : Hash
  dynamicFloorPolicyHash : Hash
  iocPolicyHash : Hash
  observerReleaseHash : Hash
  signerReleaseHash : Hash
  releaseManifestHash : Hash
  decisionReferencePrice : D
  expectedCommittedBefore : D
  expectedCommittedAfter : D
  decisionTimestampMs : ℕ
  expiresAt : ℕ
  authorization : PreSigningContext D
  canonicalHash : Hash
deriving DecidableEq

/-- `rmp_serde::to_vec` of an intent. -/
class IntentEncoding (D : Type) where
  intentBytes : AuthorizedExecutionIntent D → Except String (List UInt8)

variable {D : Type} [Decimal D]

namespace AuthorizedExecutionIntent

/-- `AUTHORIZED_INTENT_SCHEMA_VERSION`. -/
def supportedSchemaVersion : ℕ := 1

def computeCanonicalHash [Sha256] [IntentEncoding D] (intent : AuthorizedExecutionIntent D) :
    Except String Hash := do
  let bytes ← IntentEncoding.intentBytes { intent with canonicalHash := Bytes.replicate 32 0 }
  pure (Sha256.digest bytes)

def sealed [Sha256] [IntentEncoding D] (intent : AuthorizedExecutionIntent D) :
    Except String (AuthorizedExecutionIntent D) := do
  let canonicalHash ← intent.computeCanonicalHash
  pure { intent with canonicalHash }

def validateCanonical [Sha256] [IntentEncoding D] (intent : AuthorizedExecutionIntent D) :
    Except String Unit :=
  if intent.schemaVersion != supportedSchemaVersion then
    .error "unsupported authorized intent schema"
  else if intent.timeInForce != .ioc then .error "authorized execution must be IOC"
  else if Decimal.le intent.quantity Decimal.zero || Decimal.le intent.limitPrice Decimal.zero
      || Decimal.le intent.decisionReferencePrice Decimal.zero || intent.expiresAt == 0 then
    .error "invalid authorized intent financial field"
  else do
    let hash ← intent.computeCanonicalHash
    if intent.canonicalHash != hash then .error "authorized intent canonical hash mismatch"
    else .ok ()

end AuthorizedExecutionIntent

namespace Canonical

/-- `Canonical::length`: lengths from `2^32` on are refused. -/
def length (n : ℕ) : Option (List UInt8) := if n < 2 ^ 32 then some (bigEndian 4 n) else none

def string (value : String) : Option (List UInt8) := do
  let prefixed ← length (textBytes value).length
  pure (prefixed ++ textBytes value)

/-- The encodings of a list of items, one after the other. -/
def items {α : Type} (encode : α → Option (List UInt8)) : List α → Option (List UInt8)
  | [] => some []
  | item :: rest => do
    let head ← encode item
    let tail ← items encode rest
    pure (head ++ tail)

def decimalMap (values : ExtTreeMap String D) : Option (List UInt8) := do
  let count ← length values.size
  let entries ← items (fun (entry : String × D) => do
    let asset ← string entry.1
    let value ← string (Decimal.normalizedText entry.2)
    pure (asset ++ value)) values.toList
  pure (count ++ entries)

def ranges (values : ExtTreeMap String (ExposureRange D)) : Option (List UInt8) := do
  let count ← length values.size
  let entries ← items (fun (entry : String × ExposureRange D) => do
    let asset ← string entry.1
    let minimum ← string (Decimal.normalizedText entry.2.minimum)
    let maximum ← string (Decimal.normalizedText entry.2.maximum)
    pure (asset ++ minimum ++ maximum)) values.toList
  pure (count ++ entries)

end Canonical

/-- `derive_projection_hash`; its only errors are lengths from `2^32` on. -/
def deriveProjectionHash [Sha256] (projection : PortfolioProjection D) : Option Hash := do
  let constrained ← Canonical.decimalMap projection.constrainedTargets
  let proposed ← Canonical.decimalMap projection.proposedDeltas
  let rounded ← Canonical.decimalMap projection.roundedDeltas
  let ranges ← Canonical.ranges projection.projectedRanges
  let gross ← Canonical.string (Decimal.normalizedText projection.maximumProjectedGross)
  let minimumNet ← Canonical.string (Decimal.normalizedText projection.minimumProjectedNet)
  let maximumNet ← Canonical.string (Decimal.normalizedText projection.maximumProjectedNet)
  pure (Sha256.digest (textBytes "LIVE/PORTFOLIO_PROJECTION/V1" ++ constrained ++ proposed ++
    rounded ++ ranges ++ gross ++ minimumNet ++ maximumNet))

end

structure IntentIdentity where
  plannedCloid : PlannedCloid
  targetVersion : ℕ
  canonicalIntentHash : Hash
deriving DecidableEq

structure ReconciliationEventIdentity where
  signerInstanceId : Bytes 16
  sequence : ℕ
  eventHash : Hash
deriving DecidableEq

inductive VerifiedReconciliationPayload (D : Type)
  | intentAccepted (identity : IntentIdentity) (durableSequence : ℕ)
  | submissionStarted (cloid : PlannedCloid)
  | submissionUnknown (cloid : PlannedCloid)
  | orderAcknowledged (cloid : PlannedCloid) (orderId : String)
  | orderRejected (cloid : PlannedCloid) (reason : String)
  | orderCancelled (cloid : PlannedCloid) (filledQuantity : D)
  | orderPartiallyFilled (cloid : PlannedCloid) (orderId : String) (filledQuantity : D)
  | fill (fill : VerifiedExchangeFill D)
  | funding (event : VerifiedFundingEvent D)
  | positionSnapshot (positions : ExtTreeMap String D) (observedAt : ℕ)
  | equitySnapshot (equity : D) (observedAt : ℕ)
  | reconciled (cloid : PlannedCloid)
  | authorizedNotSubmitted (cloid : PlannedCloid)
deriving DecidableEq

structure VerifiedReconciliationEvent (D : Type) where
  identity : ReconciliationEventIdentity
  payload : VerifiedReconciliationPayload D
deriving DecidableEq

/-- `rmp_serde::to_vec` of an event payload. -/
class PayloadEncoding (D : Type) where
  payloadBytes : VerifiedReconciliationPayload D → Except String (List UInt8)

def canonicalPayloadHash {D : Type} [Sha256] [PayloadEncoding D]
    (payload : VerifiedReconciliationPayload D) : Except String Hash := do
  let bytes ← PayloadEncoding.payloadBytes payload
  pure (Sha256.digest bytes)

end CopyTrade.Model
