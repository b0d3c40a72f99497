import CopyTrade.Foundation.Maps
import CopyTrade.Foundation.Results
import CopyTrade.Foundation.Words
import CopyTrade.Model.Decimal
import CopyTrade.Model.Identity

/-!
# The signer's submission registry

`SubmissionRegistry` of crates/copytrade-signer/src/lib.rs: one entry per cloid, the set of
assets blocked by an unknown submission result, the not-found confirmations collected so
far, and the history of transitions that the outbox and the nonce floor are read from.

A method that returns an error leaves the registry as it was, so each mutator is a function
`… → Except SignerError …` of the registry before the call.  Times, nonces and lengths are
natural numbers; where the source saturates or checks a 64-bit sum, the model does too.
-/

namespace CopyTrade.Model

open Foundation
open Std (ExtTreeMap ExtTreeSet)

inductive SignerError
  | invalidIntent
  | invalidContinuation
  | invalidDecimal
  | invalidConfiguration
  | duplicateCloid
  | unknownCloid
  | assetBlockedByUnknownResult
  | invalidTransition
  | nonceOverflow
  | unsafeSecretPermissions
  | invalidSecret
  | secretIo (message : String)
  | encode (message : String)
  | signing (message : String)
  | transport (message : String)
  | exchangeHttp (status : ℕ)
  | decode (message : String)
  | unknownSubmissionResult (nonce : ℕ)
  | unexpectedExchangeResponse
  | iocUnexpectedlyResting (order : ℕ)
  | confirmationTooSoon
  | cloidMismatch
  | registryCapacityExhausted
  | registryIo (message : String)
  | startupNotReconciled
  | authorization (reason : String)
  | reconciliation (message : String)
  | missingMarketRules
  | invalidExchangeState
  | ledger (message : String)
  | exchangeFillMismatch
  | ambiguousExchangeEventOrdering
deriving DecidableEq

structure ApprovedExecutionIntent (D : Type) where
  decisionId : String
  targetVersion : ℕ
  rootCloid : String
  cloid : String
  parentCloid : Option String
  continuationGeneration : ℕ
  asset : String
  assetIndex : ℕ
  isBuy : Bool
  reduceOnly : Bool
  limitPrice : D
  quantity : D
  riskProjectionHash : String
  riskPolicyHash : String
  configurationHash : String
  releaseManifestHash : String
  decisionReferencePrice : D
  decisionTimestampMs : ℕ
  expiresAtMono : ℕ
  canonicalIntentHash : String
deriving DecidableEq

inductive SubmissionState (D : Type)
  | authorized
  | authorizedNotSubmitted
  | nonceAllocated (nonce : ℕ)
  | signed (nonce : ℕ)
  | submissionStarted (nonce : ℕ)
  | acknowledged (orderId : String)
  | partiallyFilled (orderId : String) (filled : D)
  | filled (orderId : String) (filled : D)
  | cancelled (orderId : Option String) (filled : D)
  | rejected (reason : String)
  | unknownResult (nonce : ℕ)
  | reconciledNotFound
deriving DecidableEq

structure SubmissionTransitionRecord (D : Type) where
  cloid : String
  state : SubmissionState D
  recordedAtMs : ℕ
deriving DecidableEq

structure SubmissionRegistry (D : Type) where
  byCloid : ExtTreeMap String (ApprovedExecutionIntent D × SubmissionState D)
  unknownAssets : ExtTreeSet String
  notFoundConfirmations : ExtTreeMap String (List ℕ)
  maximumEntries : ℕ
  history : List (SubmissionTransitionRecord D)
deriving DecidableEq

variable {D : Type} [Decimal D]

namespace ApprovedExecutionIntent

/-- The 64 lower-case hexadecimal digits that every hash field must be. -/
def isHashText (value : String) : Bool := hasByteLength value 64 && isLowerHex value

def validate (intent : ApprovedExecutionIntent D) : Except SignerError Unit :=
  if !isHashText intent.decisionId
      || !isHashText intent.riskProjectionHash
      || !isHashText intent.riskPolicyHash
      || !isHashText intent.configurationHash
      || !isHashText intent.releaseManifestHash
      || !isHashText intent.canonicalIntentHash
      || !validCloid intent.rootCloid
      || !validCloid intent.cloid
      || intent.parentCloid.any (fun value => !validCloid value)
      || intent.asset == ""
      || Decimal.le intent.limitPrice Decimal.zero
      || Decimal.le intent.quantity Decimal.zero
      || Decimal.le intent.decisionReferencePrice Decimal.zero
      || intent.expiresAtMono == 0
      || decide (8 < Decimal.scale intent.limitPrice)
      || decide (8 < Decimal.scale intent.quantity) then
    .error .invalidIntent
  else if intent.continuationGeneration == 0 && intent.parentCloid.isSome then
    .error .invalidContinuation
  else if decide (0 < intent.continuationGeneration) && intent.parentCloid.isNone then
    .error .invalidContinuation
  else .ok ()

/-- The derived `==`, which compares decimals by value. -/
def eqv (a b : ApprovedExecutionIntent D) : Bool :=
  a.decisionId == b.decisionId && a.targetVersion == b.targetVersion &&
    a.rootCloid == b.rootCloid && a.cloid == b.cloid && a.parentCloid == b.parentCloid &&
    a.continuationGeneration == b.continuationGeneration && a.asset == b.asset &&
    a.assetIndex == b.assetIndex && a.isBuy == b.isBuy && a.reduceOnly == b.reduceOnly &&
    Decimal.eqv a.limitPrice b.limitPrice && Decimal.eqv a.quantity b.quantity &&
    a.riskProjectionHash == b.riskProjectionHash && a.riskPolicyHash == b.riskPolicyHash &&
    a.configurationHash == b.configurationHash &&
    a.releaseManifestHash == b.releaseManifestHash &&
    Decimal.eqv a.decisionReferencePrice b.decisionReferencePrice &&
    a.decisionTimestampMs == b.decisionTimestampMs && a.expiresAtMono == b.expiresAtMono &&
    a.canonicalIntentHash == b.canonicalIntentHash

@[simp] theorem eqv_refl (a : ApprovedExecutionIntent D) : a.eqv a = true := by simp [eqv]

end ApprovedExecutionIntent

namespace SubmissionState

/-- The derived `==`, which compares decimals by value. -/
def eqv : SubmissionState D → SubmissionState D → Bool
  | authorized, authorized => true
  | authorizedNotSubmitted, authorizedNotSubmitted => true
  | nonceAllocated a, nonceAllocated b => a == b
  | signed a, signed b => a == b
  | submissionStarted a, submissionStarted b => a == b
  | acknowledged a, acknowledged b => a == b
  | partiallyFilled a p, partiallyFilled b q => a == b && Decimal.eqv p q
  | filled a p, filled b q => a == b && Decimal.eqv p q
  | cancelled a p, cancelled b q => a == b && Decimal.eqv p q
  | rejected a, rejected b => a == b
  | unknownResult a, unknownResult b => a == b
  | reconciledNotFound, reconciledNotFound => true
  | _, _ => false

def unresolved : SubmissionState D → Bool
  | authorized | authorizedNotSubmitted | nonceAllocated _ | signed _ | submissionStarted _
  | acknowledged _ | partiallyFilled _ _ | unknownResult _ => true
  | filled _ _ | cancelled _ _ | rejected _ | reconciledNotFound => false

def isUnknownResult : SubmissionState D → Bool
  | unknownResult _ => true
  | _ => false

/-- The states `transition_at` releases the asset for: `Filled`, `Cancelled`, `Rejected` and
`ReconciledNotFound`. -/
def isTerminal : SubmissionState D → Bool
  | filled _ _ | cancelled _ _ | rejected _ | reconciledNotFound => true
  | _ => false

def orderId : SubmissionState D → Option String
  | acknowledged orderId | partiallyFilled orderId _ | filled orderId _ => some orderId
  | cancelled (some orderId) _ => some orderId
  | _ => none

def nonce? : SubmissionState D → Option ℕ
  | nonceAllocated nonce | signed nonce | submissionStarted nonce | unknownResult nonce =>
    some nonce
  | _ => none

@[simp] theorem eqv_refl (state : SubmissionState D) : state.eqv state = true := by
  cases state <;> simp [eqv]

end SubmissionState

def validTransition : SubmissionState D → SubmissionState D → Bool
  | .authorized, .nonceAllocated _ => true
  | .authorized, .authorizedNotSubmitted => true
  | .nonceAllocated _, .authorizedNotSubmitted => true
  | .signed _, .authorizedNotSubmitted => true
  | .authorizedNotSubmitted, .nonceAllocated _ => true
  | .authorizedNotSubmitted, .authorized => true
  | .authorizedNotSubmitted, .rejected _ => true
  | .authorized, .rejected _ => true
  | .nonceAllocated _, .rejected _ => true
  | .signed _, .rejected _ => true
  | .nonceAllocated _, .signed _ => true
  | .signed _, .submissionStarted _ => true
  | .submissionStarted _, .acknowledged _ => true
  | .submissionStarted _, .unknownResult _ => true
  | .submissionStarted _, .filled _ _ => true
  | .submissionStarted _, .rejected _ => true
  | .acknowledged _, .acknowledged _ => true
  | .acknowledged _, .partiallyFilled _ _ => true
  | .acknowledged _, .filled _ _ => true
  | .acknowledged _, .cancelled _ _ => true
  | .acknowledged _, .rejected _ => true
  | .partiallyFilled _ _, .partiallyFilled _ _ => true
  | .partiallyFilled _ _, .filled _ _ => true
  | .partiallyFilled _ _, .cancelled _ _ => true
  | .unknownResult _, .acknowledged _ => true
  | .unknownResult _, .partiallyFilled _ _ => true
  | .unknownResult _, .filled _ _ => true
  | .unknownResult _, .cancelled _ _ => true
  | .unknownResult _, .rejected _ => true
  | _, _ => false

/-- The four checks `transition_at` makes on a change of state, the first three on the order
identity and the filled quantity, the last on the transition relation. -/
def transitionRefused (cloid : String) (current next : SubmissionState D) : Bool :=
  (match current.orderId, next.orderId with
    | some currentOrder, some nextOrder => currentOrder != cloid && currentOrder != nextOrder
    | _, _ => false) ||
  (match current, next with
    | .acknowledged currentOrder, .acknowledged nextOrder =>
      currentOrder != cloid || nextOrder == cloid
    | _, _ => false) ||
  (match current, next with
    | .partiallyFilled currentOrder currentFilled, .partiallyFilled nextOrder nextFilled =>
      currentOrder != nextOrder || Decimal.lt nextFilled currentFilled
    | _, _ => false) ||
  !validTransition current next

namespace SubmissionRegistry

/-- The registry `with_capacity` builds. -/
def empty (maximumEntries : ℕ) : SubmissionRegistry D where
  byCloid := ∅
  unknownAssets := ∅
  notFoundConfirmations := ∅
  maximumEntries := maximumEntries
  history := []

def withCapacity (maximumEntries : ℕ) : Except SignerError (SubmissionRegistry D) :=
  if maximumEntries = 0 then .error .invalidConfiguration else .ok (empty maximumEntries)

def pushRecord (r : SubmissionRegistry D) (cloid : String) (state : SubmissionState D)
    (recordedAtMs : ℕ) : List (SubmissionTransitionRecord D) :=
  r.history ++ [SubmissionTransitionRecord.mk cloid state recordedAtMs]

def register (r : SubmissionRegistry D) (intent : ApprovedExecutionIntent D) :
    Except SignerError (SubmissionRegistry D) := do
  intent.validate
  if r.byCloid.contains intent.cloid then
    .error .duplicateCloid
  else if !intent.reduceOnly && r.unknownAssets.contains intent.asset then
    .error .assetBlockedByUnknownResult
  else if r.maximumEntries ≤ r.byCloid.size then
    .error .registryCapacityExhausted
  else
    .ok { r with
      byCloid := r.byCloid.insert intent.cloid (intent, .authorized)
      history := r.pushRecord intent.cloid .authorized 0 }

def state (r : SubmissionRegistry D) (cloid : String) : Option (SubmissionState D) :=
  r.byCloid[cloid]?.map Prod.snd

def intent (r : SubmissionRegistry D) (cloid : String) : Option (ApprovedExecutionIntent D) :=
  r.byCloid[cloid]?.map Prod.fst

/-- `entries`, in the order of the map. -/
def entries (r : SubmissionRegistry D) :
    List (String × ApprovedExecutionIntent D × SubmissionState D) :=
  r.byCloid.toList

def approvedIntent (r : SubmissionRegistry D) (cloid : String) :
    Except SignerError (ApprovedExecutionIntent D) :=
  match r.byCloid[cloid]? with
  | none => .error .unknownCloid
  | some (intent, .authorized) | some (intent, .authorizedNotSubmitted) => .ok intent
  | some _ => .error .invalidTransition

/-- The blocked assets after an intent of `asset` moved to `next`. -/
def unknownAssetsAfter (r : SubmissionRegistry D) (asset : String) (next : SubmissionState D) :
    ExtTreeSet String :=
  if next.isUnknownResult then r.unknownAssets.insert asset
  else if next.isTerminal then r.unknownAssets.erase asset
  else r.unknownAssets

def transitionAt (r : SubmissionRegistry D) (cloid : String) (next : SubmissionState D)
    (recordedAtMs : ℕ) : Except SignerError (SubmissionRegistry D) :=
  match r.byCloid[cloid]? with
  | none => .error .unknownCloid
  | some (intent, current) =>
    if current.eqv next then .ok r
    else if transitionRefused cloid current next then .error .invalidTransition
    else
      .ok { r with
        byCloid := r.byCloid.insert cloid (intent, next)
        unknownAssets := r.unknownAssetsAfter intent.asset next
        notFoundConfirmations :=
          if next.isTerminal then r.notFoundConfirmations.erase cloid
          else r.notFoundConfirmations
        history := r.pushRecord cloid next recordedAtMs }

def hasAuthorizedNotSubmitted (r : SubmissionRegistry D) : Bool :=
  r.entries.any fun entry => entry.2.2.eqv .authorizedNotSubmitted

/-- `durable_sequence`; a list is never longer than `u64::MAX`. -/
def durableSequence (r : SubmissionRegistry D) : ℕ := r.history.length

def nextNonceFloor (r : SubmissionRegistry D) : Except SignerError ℕ :=
  match (r.history.filterMap fun event => event.state.nonce?).max? with
  | none => .ok 0
  | some nonce =>
    match checkedAddU64 nonce 1 with
    | none => .error .nonceOverflow
    | some floor => .ok floor

def permitsIncrease (r : SubmissionRegistry D) (asset : String) : Bool :=
  !r.unknownAssets.contains asset

/-- The confirmations of a cloid so far (`entry(cloid).or_default()`). -/
def confirmations (r : SubmissionRegistry D) (cloid : String) : List ℕ :=
  r.notFoundConfirmations[cloid]?.getD []

/-- A confirmation arrives before the minimum interval since the last one has passed. -/
def confirmationTooSoon (r : SubmissionRegistry D) (cloid : String)
    (observedAtMs minimumIntervalMs : ℕ) : Bool :=
  (r.confirmations cloid).getLast?.any fun last =>
    decide (observedAtMs < saturatingAdd last minimumIntervalMs)

def confirmNotFound (r : SubmissionRegistry D) (cloid : String)
    (observedAtMs requiredConfirmations minimumIntervalMs : ℕ) :
    Except SignerError (Bool × SubmissionRegistry D) :=
  if requiredConfirmations < 2 || minimumIntervalMs == 0 then .error .invalidConfiguration
  else
    match r.byCloid[cloid]? with
    | none => .error .unknownCloid
    | some (intent, current) =>
      if !current.isUnknownResult then .error .invalidTransition
      else if r.confirmationTooSoon cloid observedAtMs minimumIntervalMs then
        .error .confirmationTooSoon
      else if (r.confirmations cloid).length + 1 < requiredConfirmations then
        .ok (false, { r with
          notFoundConfirmations :=
            r.notFoundConfirmations.insert cloid (r.confirmations cloid ++ [observedAtMs]) })
      else
        .ok (true, { r with
          byCloid := r.byCloid.insert cloid (intent, .reconciledNotFound)
          unknownAssets := r.unknownAssets.erase intent.asset
          notFoundConfirmations := r.notFoundConfirmations.erase cloid })

/-- The assets with an intent in `UnknownResult`, as `restore` recomputes them. -/
def expectedUnknown (r : SubmissionRegistry D) : ExtTreeSet String :=
  ExtTreeSet.ofList (r.entries.filterMap fun entry =>
    if entry.2.2.isUnknownResult then some entry.2.1.asset else none) compare

def lastRecord (r : SubmissionRegistry D) (cloid : String) :
    Option (SubmissionTransitionRecord D) :=
  r.history.reverse.find? fun event => event.cloid == cloid

/-- One entry of the first loop of `restore`. -/
def checkEntry (entry : String × ApprovedExecutionIntent D × SubmissionState D) :
    Except SignerError Unit := do
  entry.2.1.validate
  if entry.1 != entry.2.1.cloid then .error .cloidMismatch else .ok ()

/-- One entry of the last loop of `restore`. -/
def checkHistory (r : SubmissionRegistry D)
    (entry : String × ApprovedExecutionIntent D × SubmissionState D) : Except SignerError Unit :=
  match r.lastRecord entry.1 with
  | none => .error .invalidExchangeState
  | some last => if last.state.eqv entry.2.2 then .ok () else .error .invalidExchangeState

/-- `restore`, from the value that is decoded from the persisted file on. -/
def restore (image : SubmissionRegistry D) : Except SignerError (SubmissionRegistry D) :=
  if image.maximumEntries == 0 || decide (image.maximumEntries < image.byCloid.size) then
    .error .invalidConfiguration
  else do
    checkAll checkEntry image.entries
    if image.unknownAssets != image.expectedUnknown then .error .invalidExchangeState
    else do
      checkAll image.checkHistory image.entries
      .ok image

end SubmissionRegistry

end CopyTrade.Model
