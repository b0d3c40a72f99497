import CopyTrade.Model.Core.Derived

/-!
# The identities of a decision

Snapshot sets, eligibility, decisions, targets, planned orders and configurations are named by
SHA-256 hashes of canonical bytes: a domain prefix and the fields one after the other.  Each
function below is written as its pre-image and the digest of it; the pre-image of a projection is
the one of `AuthorizedIntent`.
-/

namespace CopyTrade.Model

open Foundation
open Std (ExtTreeMap ExtTreeSet)

inductive IdentityError
  | duplicateCandidate (candidate : String)
  | eligibilityMismatch
  | invalidInput (message : String)
  | arithmeticOverflow (subject : String)
deriving DecidableEq

/-- `normalize()` and `mantissa()` of `rust_decimal::Decimal`. -/
class DecimalNormalize (D : Type) where
  normalize : D → D
  mantissa : D → ℤ

instance : DecimalNormalize ℚ where
  normalize q := q
  mantissa q := (q * 10 ^ ExactDecimal.decimalPlaces q).num

/-- What `rust_decimal` documents of them: the text `normalize().to_string()`, the value of a
normalized decimal, and that equal values have one mantissa and one scale. -/
class DecimalNormalizeLaws (D : Type) [Decimal D] [DecimalNormalize D] : Prop where
  normalizedText_eq : ∀ d : D, Decimal.normalizedText d =
    Decimal.text (DecimalNormalize.normalize d)
  toRat_normalize : ∀ d : D, Decimal.toRat (DecimalNormalize.normalize d) = Decimal.toRat d
  toRat_eq : ∀ d : D, Decimal.toRat d = DecimalNormalize.mantissa d / 10 ^ Decimal.scale d
  mantissa_lt : ∀ d : D, |DecimalNormalize.mantissa d| < 2 ^ 96
  scale_le : ∀ d : D, Decimal.scale d ≤ 28

def foldDigest (bytes : List UInt8) : Bytes 32 :=
  ⟨bigEndian 32 (bytes.foldl (fun acc byte => (acc * 257 + byte.toNat + 1) % 2 ^ 256) 7),
    length_bigEndian _ _⟩

namespace Canonical

/-- The error of a length from `2^32` on. -/
def checked (written : Option (List UInt8)) : Except IdentityError (List UInt8) :=
  match written with
  | some bytes => .ok bytes
  | none => .error (.arithmeticOverflow "canonical length")

def u32 (word : UInt32) : List UInt8 := bigEndian 4 word.toNat

def u64 (word : UInt64) : List UInt8 := bigEndian 8 word.toNat

def decimal {D : Type} [Decimal D] [DecimalNormalize D] (value : D) : List UInt8 :=
  let normalized := DecimalNormalize.normalize value
  signedBigEndian 16 (DecimalNormalize.mantissa normalized) ++
    bigEndian 4 (Decimal.scale normalized)

def each {α : Type} (write : α → Except IdentityError (List UInt8)) :
    List α → Except IdentityError (List UInt8)
  | [] => .ok []
  | item :: rest => do
    let head ← write item
    let tail ← each write rest
    pure (head ++ tail)

end Canonical

open Canonical

structure SnapshotSetMember where
  candidateId : String
  acceptedSequence : UInt64
  payloadHash : Hash
  receivedAtMono : UInt64
  validUntilMono : UInt64
deriving DecidableEq

def snapshotMember (member : SnapshotSetMember) : Except IdentityError (List UInt8) :=
  if member.validUntilMono < member.receivedAtMono then
    .error (.invalidInput ("invalid freshness interval for " ++ member.candidateId))
  else do
    let candidateId ← checked (string member.candidateId)
    pure (candidateId ++ u64 member.acceptedSequence ++ member.payloadHash.1 ++
      u64 member.receivedAtMono ++ u64 member.validUntilMono)

/-- `members.sort_by`, by the candidate. -/
def sortMembers (members : List SnapshotSetMember) : List SnapshotSetMember :=
  members.mergeSort fun left right => (compare left.candidateId right.candidateId).isLE

/-- The first of two neighbours with one candidate (`windows(2)`). -/
def duplicateMember : List SnapshotSetMember → Option SnapshotSetMember
  | left :: right :: rest =>
    if left.candidateId = right.candidateId then some left else duplicateMember (right :: rest)
  | _ => none

def snapshotSetBytes (members : List SnapshotSetMember) : Except IdentityError (List UInt8) :=
  let members := sortMembers members
  match duplicateMember members with
  | some member => .error (.duplicateCandidate member.candidateId)
  | none => do
    let count ← checked (length members.length)
    let rest ← each snapshotMember members
    pure (textBytes "HL1E/SNAPSHOT_SET/V1" ++ count ++ rest)

def deriveSnapshotSetId [Sha256] (members : List SnapshotSetMember) :
    Except IdentityError Hash := do
  let bytes ← snapshotSetBytes members
  pure (Sha256.digest bytes)

inductive ExclusionReason
  | disabled
  | quarantined
  | stale
  | invalidPayload
  | zeroWeight
  | missingSnapshot
deriving DecidableEq

def ExclusionReason.code : ExclusionReason → UInt8
  | .disabled => 0
  | .quarantined => 1
  | .stale => 2
  | .invalidPayload => 3
  | .zeroWeight => 4
  | .missingSnapshot => 5

structure SourceEligibilitySummary where
  activeIds : ExtTreeSet String
  excluded : ExtTreeMap String ExclusionReason

def exclusion (entry : String × ExclusionReason) : Except IdentityError (List UInt8) := do
  let candidate ← checked (string entry.1)
  pure (candidate ++ [entry.2.code])

def eligibilityBytes (summary : SourceEligibilitySummary) : Except IdentityError (List UInt8) :=
  if summary.activeIds.toList.any (summary.excluded.contains ·) then .error .eligibilityMismatch
  else do
    let activeCount ← checked (length summary.activeIds.size)
    let active ← each (fun candidate => checked (string candidate)) summary.activeIds.toList
    let excludedCount ← checked (length summary.excluded.size)
    let excluded ← each exclusion summary.excluded.toList
    pure (textBytes "HL1E/ELIGIBILITY/V1" ++ activeCount ++ active ++ excludedCount ++ excluded)

def deriveEligibilityHash [Sha256] (summary : SourceEligibilitySummary) :
    Except IdentityError Hash := do
  let bytes ← eligibilityBytes summary
  pure (Sha256.digest bytes)

structure DecisionIdentityInput where
  engineInstanceId : Bytes 16
  decisionSequence : UInt64
  configHash : Hash
  riskPolicyHash : Hash
  snapshotSetId : Hash
  eligibilityHash : Hash
  marketSnapshotId : Hash
  targetVersion : UInt64
deriving DecidableEq

def decisionBytes (input : DecisionIdentityInput) : List UInt8 :=
  textBytes "HL1E/DECISION/V1" ++ input.engineInstanceId.1 ++ u64 input.decisionSequence ++
    input.configHash.1 ++ input.riskPolicyHash.1 ++ input.snapshotSetId.1 ++
    input.eligibilityHash.1 ++ input.marketSnapshotId.1 ++ u64 input.targetVersion

def deriveDecisionId [Sha256] (input : DecisionIdentityInput) : Hash :=
  Sha256.digest (decisionBytes input)

section

variable {D : Type} [Decimal D]

def targetEntry [DecimalNormalize D] (entry : String × D) : Except IdentityError (List UInt8) := do
  let asset ← checked (string entry.1)
  pure (asset ++ decimal entry.2)

def targetBytes [DecimalNormalize D] (targets : ExtTreeMap String D) :
    Except IdentityError (List UInt8) := do
  let count ← checked (length targets.size)
  let entries ← each targetEntry targets.toList
  pure (textBytes "HL1E/TARGET_VECTOR/V1" ++ count ++ entries)

def canonicalTargetHash [Sha256] [DecimalNormalize D] (targets : ExtTreeMap String D) :
    Except IdentityError Hash := do
  let bytes ← targetBytes targets
  pure (Sha256.digest bytes)

/-- The pre-image of `deriveProjectionHash`. -/
def projectionBytes (projection : PortfolioProjection D) : Option (List UInt8) := do
  let constrained ← Canonical.decimalMap projection.constrainedTargets
  let proposed ← Canonical.decimalMap projection.proposedDeltas
  let rounded ← Canonical.decimalMap projection.roundedDeltas
  let ranges ← Canonical.ranges projection.projectedRanges
  let gross ← Canonical.string (Decimal.normalizedText projection.maximumProjectedGross)
  let minimumNet ← Canonical.string (Decimal.normalizedText projection.minimumProjectedNet)
  let maximumNet ← Canonical.string (Decimal.normalizedText projection.maximumProjectedNet)
  pure (textBytes "LIVE/PORTFOLIO_PROJECTION/V1" ++ constrained ++ proposed ++
    rounded ++ ranges ++ gross ++ minimumNet ++ maximumNet)

end

def Side.code : Side → UInt8
  | .buy => 0
  | .sell => 1

structure PlannedCloidInput where
  engineInstanceId : Bytes 16
  decisionId : Hash
  targetVersion : UInt64
  asset : String
  side : Side
  reduceOnly : Bool
  actionOrdinal : UInt32
  retryGeneration : UInt32
deriving DecidableEq

def plannedCloidBytes (input : PlannedCloidInput) : Except IdentityError (List UInt8) :=
  if input.asset.isEmpty then .error (.invalidInput "planned action asset must not be empty")
  else do
    let asset ← checked (string input.asset)
    pure (textBytes "HL1E/PLANNED_CLOID/V1" ++ input.engineInstanceId.1 ++ input.decisionId.1 ++
      u64 input.targetVersion ++ asset ++ [input.side.code] ++ [input.reduceOnly.toUInt8] ++
      u32 input.actionOrdinal ++ u32 input.retryGeneration)

def firstBytes (hash : Hash) : PlannedCloid :=
  ⟨hash.1.take 16, by rw [List.length_take, hash.2]; rfl⟩

def derivePlannedCloid [Sha256] (input : PlannedCloidInput) :
    Except IdentityError PlannedCloid := do
  let bytes ← plannedCloidBytes input
  pure (firstBytes (Sha256.digest bytes))

/-- `serde_json::Number`: a negative integer is kept apart from the others, a float is finite. -/
inductive JsonNumber
  | posInt (value : UInt64)
  | negInt (value : ℤ) (negative : value < 0) (lower : -2 ^ 63 ≤ value)
  | float (bits : UInt64)
deriving DecidableEq

/-- `serde_json::Value`; the fields of an object in any order. -/
inductive JsonValue
  | null
  | bool (value : Bool)
  | number (value : JsonNumber)
  | string (value : String)
  | array (values : List JsonValue)
  | object (fields : List (String × JsonValue))

/-- `f64::is_finite` of the bits of a float. -/
def isFinite (bits : UInt64) : Bool := bits.toNat / 2 ^ 52 % 2 ^ 11 != 2 ^ 11 - 1

/-- The branches of `as_i64`, `as_u64` and `as_f64`. -/
def JsonNumber.encode : JsonNumber → Except IdentityError (List UInt8)
  | .posInt value =>
    if value.toNat < 2 ^ 63 then .ok ([0] ++ signedBigEndian 8 value.toNat)
    else .ok ([1] ++ u64 value)
  | .negInt value _ _ => .ok ([0] ++ signedBigEndian 8 value)
  | .float bits =>
    if isFinite bits then .ok ([2] ++ u64 bits)
    else .error (.invalidInput "non-finite canonical number")

def writeFields : List (String × Except IdentityError (List UInt8)) →
    Except IdentityError (List UInt8) :=
  each fun field => do
    let key ← checked (string field.1)
    let value ← field.2
    pure (key ++ value)

mutual

def JsonValue.encode : JsonValue → Except IdentityError (List UInt8)
  | .null => .ok [0]
  | .bool value => .ok [1, value.toUInt8]
  | .number value => do
    let number ← value.encode
    pure ([2] ++ number)
  | .string value => do
    let text ← checked (Canonical.string value)
    pure ([3] ++ text)
  | .array values => do
    let count ← checked (length values.length)
    let items ← encodeItems values
    pure ([4] ++ count ++ items)
  | .object fields => do
    let count ← checked (length fields.length)
    let entries ← writeFields ((encodeFields fields).mergeSort fun left right =>
      (compare left.1 right.1).isLE)
    pure ([5] ++ count ++ entries)

def encodeItems : List JsonValue → Except IdentityError (List UInt8)
  | [] => .ok []
  | value :: rest => do
    let head ← value.encode
    let tail ← encodeItems rest
    pure (head ++ tail)

def encodeFields : List (String × JsonValue) → List (String × Except IdentityError (List UInt8))
  | [] => []
  | (key, value) :: rest => (key, value.encode) :: encodeFields rest

end

/-- The domains under which a JSON value is hashed. -/
inductive ValueDomain
  | config
  | riskPolicy
deriving DecidableEq

/-- `CONFIG_DOMAIN`, `RISK_DOMAIN`. -/
def ValueDomain.bytes : ValueDomain → List UInt8
  | .config => textBytes "HL1E/CONFIG/V1"
  | .riskPolicy => textBytes "HL1E/RISK_POLICY/V1"

def canonicalValueBytes (domain : ValueDomain) (value : JsonValue) :
    Except IdentityError (List UInt8) := do
  let encoded ← value.encode
  pure (domain.bytes ++ encoded)

def hashCanonicalValue [Sha256] (domain : ValueDomain) (value : JsonValue) :
    Except IdentityError Hash := do
  let bytes ← canonicalValueBytes domain value
  pure (Sha256.digest bytes)

end CopyTrade.Model
