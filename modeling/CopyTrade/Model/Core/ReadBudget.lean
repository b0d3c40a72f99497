import CopyTrade.Foundation.Maps
import CopyTrade.Foundation.Words

/-!
# Read requests and their budget

The requests to the exchange's read interface, the policy they are scheduled under and the token
bucket that pays for them (crates/copytrade-core/src/scheduler.rs).  The bucket counts in units
of weight times milliseconds.  A weight has 32 bits and a time 64, so the units stay below
`2 ^ 96` and no operation on `u128` overflows or saturates.
-/

namespace CopyTrade.Model

open Foundation
open Std (ExtTreeMap)

inductive ReadRequestKind
  | sourceState
  | marketMids
  | exchangeMetadata
  | orderBook
  | followerState
  | followerOpenOrders
deriving DecidableEq

namespace ReadRequestKind

def required : List ReadRequestKind :=
  [.sourceState, .marketMids, .exchangeMetadata, .orderBook, .followerState, .followerOpenOrders]

def permitsReservedBudget : ReadRequestKind → Bool
  | .followerState | .followerOpenOrders => true
  | _ => false

def rank : ReadRequestKind → ℕ
  | .sourceState => 0
  | .marketMids => 1
  | .exchangeMetadata => 2
  | .orderBook => 3
  | .followerState => 4
  | .followerOpenOrders => 5

instance : Ord ReadRequestKind := ⟨compareOn rank⟩

instance : Std.TransOrd ReadRequestKind := inferInstanceAs (Std.TransCmp (compareOn rank))

instance : Std.LawfulEqOrd ReadRequestKind where
  eq_of_compare {a b} h := by
    have hrank : rank a = rank b := Std.LawfulEqOrd.eq_of_compare h
    cases a <;> cases b <;> first | rfl | cases hrank

/-- The name that `Debug` prints. -/
def debug : ReadRequestKind → String
  | .sourceState => "SourceState"
  | .marketMids => "MarketMids"
  | .exchangeMetadata => "ExchangeMetadata"
  | .orderBook => "OrderBook"
  | .followerState => "FollowerState"
  | .followerOpenOrders => "FollowerOpenOrders"

end ReadRequestKind

inductive RequestSubject
  | candidate (candidateId : String)
  | follower (address : String)
  | asset (asset : String)
  | market
deriving DecidableEq

namespace RequestSubject

def rank : RequestSubject → ℕ
  | .candidate _ => 0
  | .follower _ => 1
  | .asset _ => 2
  | .market => 3

def content : RequestSubject → String
  | .candidate name | .follower name | .asset name => name
  | .market => ""

/-- The text that `Debug` prints. -/
def debug : RequestSubject → String
  | .candidate name => debugVariant "Candidate" (quoted name)
  | .follower name => debugVariant "Follower" (quoted name)
  | .asset name => debugVariant "Asset" (quoted name)
  | .market => "Market"

end RequestSubject

structure RequestKey where
  subject : RequestSubject
  kind : ReadRequestKind
deriving DecidableEq

namespace RequestKey

/-- The derived order: the variant of the subject, its content, the kind. -/
def order : RequestKey → RequestKey → Ordering :=
  compareLex (compareOn fun key => key.subject.rank)
    (compareLex (compareOn fun key => key.subject.content) (compareOn RequestKey.kind))

instance : Ord RequestKey := ⟨order⟩

instance : Std.TransOrd RequestKey :=
  inferInstanceAs (Std.TransCmp (compareLex _ (compareLex _ _)))

instance : Std.LawfulEqOrd RequestKey where
  compare_self := Std.ReflCmp.compare_self
  eq_of_compare {a b} h := by
    obtain ⟨subject, kind⟩ := a
    obtain ⟨subject', kind'⟩ := b
    have hparts : order ⟨subject, kind⟩ ⟨subject', kind'⟩ = .eq := h
    simp only [order, compareLex_eq_eq, compareOn, Std.LawfulEqOrd.compare_eq_iff_eq] at hparts
    obtain ⟨hrank, hcontent, rfl⟩ := hparts
    cases subject <;> cases subject' <;>
      simp_all [RequestSubject.rank, RequestSubject.content]

/-- The text that `Debug` prints. -/
def debug (key : RequestKey) : String :=
  "RequestKey \x7b subject: " ++ key.subject.debug ++ ", kind: " ++ key.kind.debug ++ " \x7d"

end RequestKey

inductive RequestPriority
  | low
  | normal
  | high
  | critical
deriving DecidableEq

namespace RequestPriority

def rank : RequestPriority → ℕ
  | .low => 0
  | .normal => 1
  | .high => 2
  | .critical => 3

instance : Ord RequestPriority := ⟨compareOn rank⟩

instance : Std.TransOrd RequestPriority := inferInstanceAs (Std.TransCmp (compareOn rank))

instance : Std.LawfulEqOrd RequestPriority where
  eq_of_compare {a b} h := by
    have hrank : rank a = rank b := Std.LawfulEqOrd.eq_of_compare h
    cases a <;> cases b <;> first | rfl | cases hrank

end RequestPriority

inductive BudgetClass
  | normal
  | sourcePolling
  | critical
deriving DecidableEq

inductive SourceTier
  | active
  | inactive
deriving DecidableEq

namespace SourceTier

def rank : SourceTier → ℕ
  | .active => 0
  | .inactive => 1

instance : Ord SourceTier := ⟨compareOn rank⟩

instance : Std.TransOrd SourceTier := inferInstanceAs (Std.TransCmp (compareOn rank))

instance : Std.LawfulEqOrd SourceTier where
  eq_of_compare {a b} h := by
    have hrank : rank a = rank b := Std.LawfulEqOrd.eq_of_compare h
    cases a <;> cases b <;> first | rfl | cases hrank

/-- The name that `Debug` prints. -/
def debug : SourceTier → String
  | .active => "Active"
  | .inactive => "Inactive"

end SourceTier

structure ScheduledReadRequest where
  key : RequestKey
  kind : ReadRequestKind
  candidateId : Option String
  sourceTier : Option SourceTier
  weight : ℕ
  priority : RequestPriority
  budgetClass : BudgetClass
  createdAt : ℕ
  notBefore : ℕ
  expiresAt : ℕ
  attempt : ℕ
deriving DecidableEq

structure ReadApiPolicy where
  totalWeightPerWindow : ℕ
  reservedWeightPerWindow : ℕ
  sourcePollingWeightPerWindow : ℕ
  windowMs : ℕ
  maxConcurrency : ℕ
  queueCapacity : ℕ
  endpointWeights : ExtTreeMap ReadRequestKind ℕ
  sourceTierDispatchTargetsPerWindow : ExtTreeMap SourceTier ℕ
deriving DecidableEq

structure PolicyError where
  message : String
deriving DecidableEq

namespace ReadApiPolicy

def normalWeight (policy : ReadApiPolicy) : ℕ :=
  policy.totalWeightPerWindow - policy.reservedWeightPerWindow

def validateTier (policy : ReadApiPolicy) (tier : SourceTier) : Except PolicyError Unit :=
  if policy.sourceTierDispatchTargetsPerWindow[tier]?.getD 0 = 0 then
    .error ⟨"missing positive dispatch target for " ++ tier.debug⟩
  else .ok ()

def validateKind (policy : ReadApiPolicy) (kind : ReadRequestKind) : Except PolicyError Unit :=
  match policy.endpointWeights[kind]? with
  | none => .error ⟨"missing endpoint weight for " ++ kind.debug⟩
  | some weight =>
    if weight = 0 then .error ⟨"endpoint weight must be positive for " ++ kind.debug⟩
    else if policy.normalWeight < weight then
      .error ⟨"normal request " ++ kind.debug ++ " exceeds nonreserved capacity"⟩
    else .ok ()

def validate (policy : ReadApiPolicy) : Except PolicyError Unit :=
  if policy.totalWeightPerWindow = 0 then .error ⟨"total weight must be positive"⟩
  else if policy.totalWeightPerWindow ≤ policy.reservedWeightPerWindow then
    .error ⟨"reserved weight must be below total weight"⟩
  else if policy.windowMs = 0 ∨ policy.maxConcurrency = 0 ∨ policy.queueCapacity = 0 then
    .error ⟨"window, concurrency, and queue capacity must be positive"⟩
  else if policy.sourcePollingWeightPerWindow = 0
      ∨ policy.normalWeight ≤ policy.sourcePollingWeightPerWindow then
    .error ⟨"source polling budget must be positive and below normal capacity"⟩
  else do
    [SourceTier.active, SourceTier.inactive].forM policy.validateTier
    ReadRequestKind.required.forM policy.validateKind

end ReadApiPolicy

inductive BudgetDecision
  | charged
  | insufficient
  | overweight
deriving DecidableEq

structure WeightedTokenBucket where
  totalCapacityUnits : ℕ
  normalCapacityUnits : ℕ
  sourceCapacityUnits : ℕ
  enrichmentCapacityUnits : ℕ
  totalUnits : ℕ
  normalUnits : ℕ
  sourceUnits : ℕ
  enrichmentUnits : ℕ
  totalRefillPerMs : ℕ
  normalRefillPerMs : ℕ
  sourceRefillPerMs : ℕ
  enrichmentRefillPerMs : ℕ
  windowMs : ℕ
  lastRefillMs : ℕ
  accountingWindowStartedMs : ℕ
  totalConsumedInWindow : ℕ
  normalConsumedInWindow : ℕ
  sourceConsumedInWindow : ℕ
  enrichmentConsumedInWindow : ℕ
deriving DecidableEq

/-- Whether a charge of a class finds an obstacle on one of its levels: the total, the weight
that is not reserved, and the share of its class. -/
def BudgetClass.blocked (budgetClass : BudgetClass) (total normal source enrichment : Bool) : Bool :=
  total || (budgetClass != .critical && normal) || (budgetClass == .sourcePolling && source) ||
    (budgetClass == .normal && enrichment)

namespace WeightedTokenBucket

def new (policy : ReadApiPolicy) (nowMs : ℕ) : Except PolicyError WeightedTokenBucket := do
  policy.validate
  let sourceWeight := policy.sourcePollingWeightPerWindow
  let enrichmentWeight := policy.normalWeight - sourceWeight
  pure {
    totalCapacityUnits := policy.totalWeightPerWindow * policy.windowMs
    normalCapacityUnits := policy.normalWeight * policy.windowMs
    sourceCapacityUnits := sourceWeight * policy.windowMs
    enrichmentCapacityUnits := enrichmentWeight * policy.windowMs
    totalUnits := policy.totalWeightPerWindow * policy.windowMs
    normalUnits := policy.normalWeight * policy.windowMs
    sourceUnits := sourceWeight * policy.windowMs
    enrichmentUnits := enrichmentWeight * policy.windowMs
    totalRefillPerMs := policy.totalWeightPerWindow
    normalRefillPerMs := policy.normalWeight
    sourceRefillPerMs := sourceWeight
    enrichmentRefillPerMs := enrichmentWeight
    windowMs := policy.windowMs
    lastRefillMs := nowMs
    accountingWindowStartedMs := nowMs
    totalConsumedInWindow := 0
    normalConsumedInWindow := 0
    sourceConsumedInWindow := 0
    enrichmentConsumedInWindow := 0 }

def refilled (units elapsed refillPerMs capacityUnits : ℕ) : ℕ :=
  min (units + elapsed * refillPerMs) capacityUnits

def refill (bucket : WeightedTokenBucket) (nowMs : ℕ) : WeightedTokenBucket :=
  let elapsed := nowMs - bucket.lastRefillMs
  if elapsed = 0 then bucket
  else
    let bucket := { bucket with
      totalUnits := refilled bucket.totalUnits elapsed bucket.totalRefillPerMs
        bucket.totalCapacityUnits
      normalUnits := refilled bucket.normalUnits elapsed bucket.normalRefillPerMs
        bucket.normalCapacityUnits
      sourceUnits := refilled bucket.sourceUnits elapsed bucket.sourceRefillPerMs
        bucket.sourceCapacityUnits
      enrichmentUnits := refilled bucket.enrichmentUnits elapsed bucket.enrichmentRefillPerMs
        bucket.enrichmentCapacityUnits
      lastRefillMs := nowMs }
    if bucket.windowMs ≤ nowMs - bucket.accountingWindowStartedMs then { bucket with
      accountingWindowStartedMs := nowMs
      totalConsumedInWindow := 0
      normalConsumedInWindow := 0
      sourceConsumedInWindow := 0
      enrichmentConsumedInWindow := 0 }
    else bucket

/-- The weight of a capacity, `as u32`. -/
def capacityWeight (bucket : WeightedTokenBucket) (capacityUnits : ℕ) : ℕ :=
  capacityUnits / bucket.windowMs % 2 ^ 32

/-- The weight consumed in the window does not have room for a charge. -/
def windowFull (consumed weight capacityWeight : ℕ) : Bool :=
  maxU32 < consumed + weight || capacityWeight < consumed + weight

/-- The charge itself. -/
def spend (bucket : WeightedTokenBucket) (budgetClass : BudgetClass) (weight : ℕ) :
    WeightedTokenBucket :=
  let requested := weight * bucket.windowMs
  let bucket := { bucket with
    totalUnits := bucket.totalUnits - requested
    totalConsumedInWindow := bucket.totalConsumedInWindow + weight }
  let bucket := if budgetClass = .critical then bucket else { bucket with
    normalUnits := bucket.normalUnits - requested
    normalConsumedInWindow := bucket.normalConsumedInWindow + weight }
  match budgetClass with
  | .sourcePolling => { bucket with
      sourceUnits := bucket.sourceUnits - requested
      sourceConsumedInWindow := bucket.sourceConsumedInWindow + weight }
  | .normal => { bucket with
      enrichmentUnits := bucket.enrichmentUnits - requested
      enrichmentConsumedInWindow := bucket.enrichmentConsumedInWindow + weight }
  | .critical => bucket

def tryCharge (bucket : WeightedTokenBucket) (budgetClass : BudgetClass) (weight nowMs : ℕ) :
    BudgetDecision × WeightedTokenBucket :=
  let bucket := bucket.refill nowMs
  let requested := weight * bucket.windowMs
  if budgetClass.blocked (bucket.totalCapacityUnits < requested)
      (bucket.normalCapacityUnits < requested) (bucket.sourceCapacityUnits < requested)
      (bucket.enrichmentCapacityUnits < requested) then
    (.overweight, bucket)
  else if budgetClass.blocked
      (windowFull bucket.totalConsumedInWindow weight
        (bucket.capacityWeight bucket.totalCapacityUnits))
      (windowFull bucket.normalConsumedInWindow weight
        (bucket.capacityWeight bucket.normalCapacityUnits))
      (windowFull bucket.sourceConsumedInWindow weight
        (bucket.capacityWeight bucket.sourceCapacityUnits))
      (windowFull bucket.enrichmentConsumedInWindow weight
        (bucket.capacityWeight bucket.enrichmentCapacityUnits)) then
    (.insufficient, bucket)
  else if budgetClass.blocked (bucket.totalUnits < requested) (bucket.normalUnits < requested)
      (bucket.sourceUnits < requested) (bucket.enrichmentUnits < requested) then
    (.insufficient, bucket)
  else (.charged, bucket.spend budgetClass weight)

end WeightedTokenBucket

end CopyTrade.Model
