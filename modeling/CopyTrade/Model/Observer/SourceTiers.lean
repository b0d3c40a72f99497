import CopyTrade.Model.Observer.SourceReads

/-!
# The tiers of the sources

How often the source states are read, in crates/copytrade-observer/src/qualification.rs: the plan
says how many candidates are read at the cadence of the active tier, and the assignment gives that
many candidates the tier, those with positions first.  `usize` and `u64` are the same words.
-/

namespace CopyTrade.Model

open Foundation
open Std (ExtTreeMap ExtTreeSet)

structure SourceDispatchPlan where
  effectiveCandidateCount : ℕ
  activeCandidateCount : ℕ
  inactiveCandidateCount : ℕ
  activeCadenceMs : ℕ
  inactiveCadenceMs : ℕ
  sourceCallCapacityPerWindow : ℕ
  activeDispatchesPerWindow : ℕ
  inactiveDispatchesPerWindow : ℕ
  combinedDispatchesPerWindow : ℕ
deriving DecidableEq

/-- Why there is no plan: an error with its text, or the remainder by a cadence of zero, which
panics. -/
inductive SourcePlanError
  | refused (text : String)
  | divisionByZero
deriving DecidableEq

def maxActiveSourceCandidates : ℕ := 100

/-- `ok_or(text)?`. -/
def orRefused {α : Type} (text : String) : Option α → Except SourcePlanError α
  | none => .error (.refused text)
  | some value => .ok value

theorem orRefused_eq_ok_iff {α : Type} {text : String} {x : Option α} {a : α} :
    orRefused text x = .ok a ↔ x = some a := by
  cases x <;> simp [orRefused]

/-- `if refused { return Err(text) }`. -/
def refusePlan (refused : Prop) [Decidable refused] (text : String) :
    Except SourcePlanError Unit :=
  if refused then .error (.refused text) else .ok ()

theorem refusePlan_eq_ok_iff {refused : Prop} [Decidable refused] {text : String} {u : Unit} :
    refusePlan refused text = .ok u ↔ ¬refused := by
  unfold refusePlan
  split <;> simp [*]

/-- The dispatches of a window at a cadence, which divides the window. -/
def dispatchesPerCandidate (windowMs cadenceMs : ℕ) : Except SourcePlanError ℕ :=
  if cadenceMs = 0 then .error .divisionByZero
  else if windowMs % cadenceMs ≠ 0 then
    .error (.refused "source cadences must divide the scheduler accounting window exactly")
  else .ok (windowMs / cadenceMs)

def sourceStateWeight (api : ReadApiPolicy) : Except SourcePlanError ℕ := do
  let weight ← orRefused "source-state endpoint weight missing"
    api.endpointWeights[ReadRequestKind.sourceState]?
  refusePlan (weight = 0) "source-state endpoint weight must be positive"
  pure weight

def cannotRemainFresh (candidateCount demand capacity : ℕ) : String :=
  "effective candidate count " ++ toString candidateCount ++
    " cannot remain fresh: inactive source demand " ++ toString demand ++
    " exceeds unchanged source-call capacity " ++ toString capacity ++ " per window"

/-- The policies are the `api` of the scheduler and the intervals of the transport. -/
def deriveSourceDispatchPlan (candidateCount : ℕ) (api : ReadApiPolicy)
    (transport : PublicTransportPolicy) : Except SourcePlanError SourceDispatchPlan := do
  refusePlan (candidateCount = 0) "effective source candidate universe must be nonempty"
  let activeDispatchesPerCandidate ←
    dispatchesPerCandidate api.windowMs transport.activeSourceIntervalMs
  let inactiveDispatchesPerCandidate ←
    dispatchesPerCandidate api.windowMs transport.inactiveSourceIntervalMs
  refusePlan (activeDispatchesPerCandidate ≤ inactiveDispatchesPerCandidate)
    "active source cadence must dispatch more often than inactive cadence"
  let weight ← sourceStateWeight api
  let sourceCallCapacityPerWindow := api.sourcePollingWeightPerWindow / weight
  let activeDispatchTarget ← orRefused "active source dispatch target missing"
    api.sourceTierDispatchTargetsPerWindow[SourceTier.active]?
  let policyActiveCapacity ← orRefused "active source cadence must be positive"
    (checkedDivNat activeDispatchTarget activeDispatchesPerCandidate)
  let baseInactiveDispatches ← orRefused "inactive source demand overflow"
    (checkedMulU64 candidateCount inactiveDispatchesPerCandidate)
  refusePlan (sourceCallCapacityPerWindow < baseInactiveDispatches)
    (cannotRemainFresh candidateCount baseInactiveDispatches sourceCallCapacityPerWindow)
  let incrementalActiveDispatches ← orRefused "active source dispatch increment underflow"
    (checkedSubNat activeDispatchesPerCandidate inactiveDispatchesPerCandidate)
  let spareDispatches ← orRefused "source capacity underflow"
    (checkedSubNat sourceCallCapacityPerWindow baseInactiveDispatches)
  let budgetActiveCapacity ← orRefused "active source dispatch increment must be positive"
    (checkedDivNat spareDispatches incrementalActiveDispatches)
  let activeCandidateCount := min (min candidateCount maxActiveSourceCandidates)
    (min policyActiveCapacity budgetActiveCapacity)
  let inactiveCandidateCount := candidateCount - activeCandidateCount
  let activeDispatchesPerWindow ← orRefused "active source demand overflow"
    (checkedMulU64 activeCandidateCount activeDispatchesPerCandidate)
  let inactiveDispatchesPerWindow ← orRefused "inactive source demand overflow"
    (checkedMulU64 inactiveCandidateCount inactiveDispatchesPerCandidate)
  let combinedDispatchesPerWindow ← orRefused "combined source demand overflow"
    (checkedAddU64 activeDispatchesPerWindow inactiveDispatchesPerWindow)
  refusePlan (sourceCallCapacityPerWindow < combinedDispatchesPerWindow)
    "derived source dispatch plan exceeds unchanged source budget"
  pure
    { effectiveCandidateCount := candidateCount
      activeCandidateCount
      inactiveCandidateCount
      activeCadenceMs := transport.activeSourceIntervalMs
      inactiveCadenceMs := transport.inactiveSourceIntervalMs
      sourceCallCapacityPerWindow
      activeDispatchesPerWindow
      inactiveDispatchesPerWindow
      combinedDispatchesPerWindow }

/-- The candidates of the active tier: those with positions first, then the others in their order.
-/
def activeCandidates (orderedCandidates : List String) (candidatesWithPositions : ExtTreeSet String)
    (activeCapacity : ℕ) : ExtTreeSet String :=
  let holding := orderedCandidates.foldl (fun active candidate =>
    if candidatesWithPositions.contains candidate && decide (active.size < activeCapacity) then
      active.insert candidate
    else active) ∅
  -- The second loop breaks where the capacity is reached; it would insert nothing more.
  orderedCandidates.foldl (fun active candidate =>
    if activeCapacity ≤ active.size then active else active.insert candidate) holding

def assignSourceTiers (orderedCandidates : List String)
    (candidatesWithPositions : ExtTreeSet String) (activeCapacity : ℕ) :
    ExtTreeMap String SourceTier :=
  let active := activeCandidates orderedCandidates candidatesWithPositions activeCapacity
  orderedCandidates.foldl (fun tiers candidate =>
    tiers.insert candidate (if active.contains candidate then .active else .inactive)) ∅

end CopyTrade.Model
