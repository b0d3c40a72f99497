import CopyTrade.Model.Core.ReadBudget

/-!
# The snapshot store

`SnapshotStore` of crates/copytrade-core/src/scheduler.rs: the latest accepted snapshot of every
candidate.
-/

namespace CopyTrade.Model

open Foundation
open Std (ExtTreeMap)

structure SourceSnapshot (T : Type) where
  candidateId : String
  payload : T
  requestedAt : ℕ
  receivedAt : ℕ
  sourceObservedAt : Option ℕ
  validUntil : ℕ
  sequence : ℕ
deriving DecidableEq

structure FreshnessPolicy where
  configuredMaxAgeMs : ℕ
  maximumFutureSkewMs : ℕ
deriving DecidableEq

def FreshnessPolicy.validate (policy : FreshnessPolicy) : Except PolicyError FreshnessPolicy :=
  if policy.configuredMaxAgeMs = 0 then .error ⟨"snapshot maximum age must be positive"⟩
  else .ok policy

inductive SnapshotAcceptance
  | accepted
  | invalidPayload
  | invalidTimestamps
  | expired
  | futureDated
  | outOfOrder
deriving DecidableEq

structure SnapshotStore (T : Type) where
  policy : FreshnessPolicy
  accepted : ExtTreeMap String (SourceSnapshot T)

namespace SnapshotStore

variable {T : Type}

def new (policy : FreshnessPolicy) : Except PolicyError (SnapshotStore T) := do
  let policy ← policy.validate
  pure { policy, accepted := ∅ }

/-- The source observed a snapshot too far in the future. -/
def observedAfter (snapshot : SourceSnapshot T) (maximumFuture : ℕ) : Bool :=
  snapshot.sourceObservedAt.any fun observedAt => maximumFuture < observedAt

def observedTooLongAgo (policy : FreshnessPolicy) (snapshot : SourceSnapshot T) (nowMs : ℕ) :
    Bool :=
  snapshot.sourceObservedAt.any fun observedAt => policy.configuredMaxAgeMs < nowMs - observedAt

/-- The order of optional times: `none` comes before every time. -/
def observedBefore : Option ℕ → Option ℕ → Bool
  | _, none => false
  | none, some _ => true
  | some a, some b => a < b

/-- A snapshot is no successor of the one that is stored. -/
def outOfOrder (current snapshot : SourceSnapshot T) : Bool :=
  snapshot.sequence ≤ current.sequence || snapshot.receivedAt < current.receivedAt
    || observedBefore snapshot.sourceObservedAt current.sourceObservedAt

/-- `accept`: the outcome and the store it leaves behind. -/
def accept (store : SnapshotStore T) (snapshot : SourceSnapshot T) (nowMs : ℕ)
    (payloadValid : Bool) : SnapshotAcceptance × SnapshotStore T :=
  if !payloadValid then (.invalidPayload, store)
  else if snapshot.receivedAt < snapshot.requestedAt
      ∨ snapshot.validUntil < snapshot.receivedAt then
    (.invalidTimestamps, store)
  else if snapshot.validUntil < nowMs
      ∨ store.policy.configuredMaxAgeMs < nowMs - snapshot.receivedAt then
    (.expired, store)
  else
    match checkedAddU64 nowMs store.policy.maximumFutureSkewMs with
    | none => (.invalidTimestamps, store)
    | some maximumFuture =>
      if maximumFuture < snapshot.requestedAt ∨ maximumFuture < snapshot.receivedAt then
        (.futureDated, store)
      else if observedAfter snapshot maximumFuture then (.futureDated, store)
      else if observedTooLongAgo store.policy snapshot nowMs then (.expired, store)
      else if store.accepted[snapshot.candidateId]?.any fun current =>
          outOfOrder current snapshot then
        (.outOfOrder, store)
      else (.accepted, { store with
        accepted := store.accepted.insert snapshot.candidateId snapshot })

def fresh (store : SnapshotStore T) (candidateId : String) (nowMs : ℕ) :
    Option (SourceSnapshot T) :=
  match store.accepted[candidateId]? with
  | none => none
  | some snapshot =>
    if nowMs ≤ snapshot.validUntil
        ∧ nowMs - snapshot.receivedAt ≤ store.policy.configuredMaxAgeMs then some snapshot
    else none

end SnapshotStore

structure AcceptCall (T : Type) where
  snapshot : SourceSnapshot T
  nowMs : ℕ
  payloadValid : Bool

def SnapshotStore.after {T : Type} (store : SnapshotStore T) (call : AcceptCall T) :
    SnapshotStore T :=
  (store.accept call.snapshot call.nowMs call.payloadValid).2

end CopyTrade.Model
