import CopyTrade.Foundation.BoundedSet
import CopyTrade.Foundation.MapLoops
import CopyTrade.Model.Observer.SourceTiers

/-!
# Feasible and maximal plans

A candidate that moves to the active tier costs the difference of the two cadences.  The plan takes
the least of what fits, what the policy allows and the candidates there are; its last refusal never
happens, and a candidate without a position is active only where all with one are.
-/

namespace CopyTrade.Analysis

open Foundation Model
open Std (ExtTreeMap ExtTreeSet)

/-- What a number of active candidates takes of the calls of a window. -/
def sourceDemand (candidateCount active activeDispatches inactiveDispatches : ℕ) : ℕ :=
  active * activeDispatches + (candidateCount - active) * inactiveDispatches

section

variable {n k a i capacity : ℕ}

theorem sourceDemand_eq (hk : k ≤ n) (hi : i ≤ a) :
    sourceDemand n k a i = n * i + k * (a - i) := by
  obtain ⟨rest, rfl⟩ := Nat.exists_eq_add_of_le hk
  obtain ⟨more, rfl⟩ := Nat.exists_eq_add_of_le hi
  simp only [sourceDemand, Nat.add_sub_cancel_left]
  ring

theorem sourceDemand_le_iff (hk : k ≤ n) (hi : i < a) (hbase : n * i ≤ capacity) :
    sourceDemand n k a i ≤ capacity ↔ k ≤ (capacity - n * i) / (a - i) := by
  rw [sourceDemand_eq hk hi.le, Nat.le_div_iff_mul_le (by omega)]
  omega

end

theorem orRefused_eq_error_iff {α : Type} {text : String} {x : Option α} {e : SourcePlanError} :
    orRefused text x = .error e ↔ x = none ∧ e = .refused text := by
  cases x with
  | none => simp [orRefused, eq_comm]
  | some value => simp [orRefused]

theorem dispatchesPerCandidate_eq_ok_iff {windowMs cadenceMs dispatches : ℕ} :
    dispatchesPerCandidate windowMs cadenceMs = .ok dispatches ↔
      cadenceMs ≠ 0 ∧ windowMs % cadenceMs = 0 ∧ windowMs / cadenceMs = dispatches := by
  unfold dispatchesPerCandidate
  split
  · rename_i hzero
    simp [hzero]
  · split
    · rename_i hrest
      simp [hrest]
    · rename_i hcadence hrest
      simp [hcadence, not_not.mp hrest]

theorem dispatchesPerCandidate_ne_exceeds {windowMs cadenceMs : ℕ} :
    dispatchesPerCandidate windowMs cadenceMs ≠
      .error (.refused "derived source dispatch plan exceeds unchanged source budget") := by
  unfold dispatchesPerCandidate
  split
  · simp
  · split <;> simp

theorem refusePlan_eq_error_iff {refused : Prop} [Decidable refused] {text : String}
    {e : SourcePlanError} : refusePlan refused text = .error e ↔ refused ∧ e = .refused text := by
  unfold refusePlan
  split <;> simp [*, eq_comm]

theorem sourceStateWeight_ne_exceeds {api : ReadApiPolicy} :
    sourceStateWeight api ≠
      .error (.refused "derived source dispatch plan exceeds unchanged source budget") := by
  intro h
  unfold sourceStateWeight at h
  rcases bind_eq_error_iff.mp h with he | ⟨weight, -, h⟩
  · simp [orRefused_eq_error_iff] at he
  rcases bind_eq_error_iff.mp h with he | ⟨-, -, h⟩
  · simp [refusePlan_eq_error_iff] at he
  · cases h

theorem cannotRemainFresh_ne_exceeds (candidateCount demand capacity : ℕ) :
    cannotRemainFresh candidateCount demand capacity ≠
      "derived source dispatch plan exceeds unchanged source budget" := by
  intro h
  have htext : ∃ rest, (cannotRemainFresh candidateCount demand capacity).toList =
      "effective candidate count ".toList ++ rest := by
    unfold cannotRemainFresh
    rw [String.toList_append, String.toList_append, String.toList_append, String.toList_append,
      String.toList_append, String.toList_append, List.append_assoc, List.append_assoc,
      List.append_assoc, List.append_assoc, List.append_assoc]
    exact ⟨_, rfl⟩
  obtain ⟨rest, hrest⟩ := htext
  have hhead := congrArg List.head? hrest
  have hexceeds : "derived source dispatch plan exceeds unchanged source budget".toList.head? =
      some 'd' := by decide +kernel
  have hfresh : "effective candidate count ".toList.head? = some 'e' := by decide +kernel
  rw [h, hexceeds, List.head?_append, hfresh] at hhead
  cases hhead

theorem sourceStateWeight_eq_ok_iff {api : ReadApiPolicy} {weight : ℕ} :
    sourceStateWeight api = .ok weight ↔
      api.endpointWeights[ReadRequestKind.sourceState]? = some weight ∧ weight ≠ 0 := by
  unfold sourceStateWeight
  simp only [bind_eq_ok_iff, orRefused_eq_ok_iff, refusePlan_eq_ok_iff, pure_eq_ok_iff]
  constructor
  · rintro ⟨found, hfound, -, hpositive, rfl⟩
    exact ⟨hfound, hpositive⟩
  · rintro ⟨hfound, hpositive⟩
    exact ⟨weight, hfound, (), hpositive, rfl⟩

/-- What the policies say of a plan: the dispatches of a candidate in a window at each cadence, the
calls that a window holds, and how many candidates the policy lets be active. -/
structure PlanTerms (candidateCount : ℕ) (api : ReadApiPolicy) (transport : PublicTransportPolicy)
    (activeDispatches inactiveDispatches capacity policyCapacity : ℕ) : Prop where
  cadences_ne_zero : transport.activeSourceIntervalMs ≠ 0 ∧ transport.inactiveSourceIntervalMs ≠ 0
  active_eq : activeDispatches * transport.activeSourceIntervalMs = api.windowMs
  inactive_eq : inactiveDispatches * transport.inactiveSourceIntervalMs = api.windowMs
  more_often : inactiveDispatches < activeDispatches
  capacity_eq : ∃ weight, api.endpointWeights[ReadRequestKind.sourceState]? = some weight ∧
    weight ≠ 0 ∧ capacity = api.sourcePollingWeightPerWindow / weight
  policy_eq : ∃ target, api.sourceTierDispatchTargetsPerWindow[SourceTier.active]? = some target ∧
    policyCapacity = target / activeDispatches
  base_fits : candidateCount * inactiveDispatches ≤ capacity

/-- A plan that uses the calls of a window: all candidates are read, within the capacity, and no
larger number of active ones would do. -/
structure FeasiblePlan (candidateCount : ℕ) (plan : SourceDispatchPlan)
    (activeDispatches inactiveDispatches capacity policyCapacity : ℕ) : Prop where
  all_candidates : plan.activeCandidateCount + plan.inactiveCandidateCount = candidateCount
  capacity_eq : plan.sourceCallCapacityPerWindow = capacity
  active_eq : plan.activeDispatchesPerWindow = plan.activeCandidateCount * activeDispatches
  inactive_eq : plan.inactiveDispatchesPerWindow = plan.inactiveCandidateCount * inactiveDispatches
  fits : plan.activeDispatchesPerWindow + plan.inactiveDispatchesPerWindow ≤ capacity
  within_policy : plan.activeCandidateCount ≤
    min (min candidateCount maxActiveSourceCandidates) policyCapacity
  maximal : ∀ more, plan.activeCandidateCount < more →
    more ≤ min (min candidateCount maxActiveSourceCandidates) policyCapacity →
      capacity < sourceDemand candidateCount more activeDispatches inactiveDispatches

variable {candidateCount : ℕ} {api : ReadApiPolicy} {transport : PublicTransportPolicy}
  {plan : SourceDispatchPlan}

/-- **A plan that is derived is feasible and maximal.** -/
theorem feasible_of_derived (h : deriveSourceDispatchPlan candidateCount api transport = .ok plan) :
    ∃ a i capacity policyCapacity,
      PlanTerms candidateCount api transport a i capacity policyCapacity ∧
        FeasiblePlan candidateCount plan a i capacity policyCapacity := by
  unfold deriveSourceDispatchPlan at h
  obtain ⟨-, -, h⟩ := of_bind h
  obtain ⟨a, ha, h⟩ := of_bind h
  obtain ⟨i, hi, h⟩ := of_bind h
  obtain ⟨_, hoften, h⟩ := of_bind h
  obtain ⟨weight, hweight, h⟩ := of_bind h
  obtain ⟨target, htarget, h⟩ := of_bind h
  obtain ⟨policy, hpolicy, h⟩ := of_bind h
  obtain ⟨base, hbase, h⟩ := of_bind h
  obtain ⟨_, hfresh, h⟩ := of_bind h
  obtain ⟨more, hmore, h⟩ := of_bind h
  obtain ⟨spare, hspare, h⟩ := of_bind h
  obtain ⟨budget, hbudget, h⟩ := of_bind h
  obtain ⟨activeCalls, hactive, h⟩ := of_bind h
  obtain ⟨inactiveCalls, hinactive, h⟩ := of_bind h
  obtain ⟨combined, hcombined, h⟩ := of_bind h
  obtain ⟨_, hfits, h⟩ := of_bind h
  rw [pure_eq_ok_iff] at h
  subst h
  rw [refusePlan_eq_ok_iff] at hoften hfresh hfits
  obtain ⟨hcadence, hdivides, rfl⟩ := dispatchesPerCandidate_eq_ok_iff.mp ha
  obtain ⟨hcadence', hdivides', rfl⟩ := dispatchesPerCandidate_eq_ok_iff.mp hi
  obtain ⟨hget, hpositive⟩ := sourceStateWeight_eq_ok_iff.mp hweight
  rw [orRefused_eq_ok_iff] at htarget hpolicy hbase hmore hspare hbudget hactive hinactive
  rw [orRefused_eq_ok_iff] at hcombined
  obtain ⟨-, rfl⟩ := checkedDivNat_eq_some_iff.mp hpolicy
  obtain ⟨rfl, -⟩ := checkedMulU64_eq_some_iff.mp hbase
  obtain ⟨-, rfl⟩ := checkedDivNat_eq_some_iff.mp hbudget
  obtain ⟨rfl, -⟩ := checkedMulU64_eq_some_iff.mp hactive
  obtain ⟨rfl, -⟩ := checkedMulU64_eq_some_iff.mp hinactive
  obtain ⟨rfl, -⟩ := checkedAddU64_eq_some_iff.mp hcombined
  have hmore := checkedSubNat_eq_some_iff.mp hmore
  have hspare := checkedSubNat_eq_some_iff.mp hspare
  refine ⟨_, _, _, _, ⟨⟨hcadence, hcadence'⟩,
    Nat.div_mul_cancel (Nat.dvd_of_mod_eq_zero hdivides), Nat.div_mul_cancel
      (Nat.dvd_of_mod_eq_zero hdivides'), not_le.mp hoften,
    ⟨weight, hget, hpositive, rfl⟩, ⟨target, htarget, rfl⟩, not_lt.mp hfresh⟩, ?_⟩
  refine ⟨Nat.add_sub_cancel' ((min_le_left _ _).trans (min_le_left _ _)), rfl, rfl, rfl,
    not_lt.mp hfits, ?_, ?_⟩
  · exact le_min (min_le_left _ _) ((min_le_right _ _).trans (min_le_left _ _))
  · intro larger hlarger hlimit
    rw [le_min_iff] at hlimit
    by_contra hdemand
    rw [not_lt, sourceDemand_le_iff (hlimit.1.trans (min_le_left _ _)) (not_le.mp hoften)
      (not_lt.mp hfresh)] at hdemand
    have hspareEq : spare = api.sourcePollingWeightPerWindow / weight -
        candidateCount * (api.windowMs / transport.inactiveSourceIntervalMs) := by
      omega
    have hmoreEq : more = api.windowMs / transport.activeSourceIntervalMs -
        api.windowMs / transport.inactiveSourceIntervalMs := by
      omega
    rw [← hspareEq, ← hmoreEq] at hdemand
    exact absurd (le_min hlimit.1 (le_min hlimit.2 hdemand)) (not_le.mpr hlarger)

/-- **The last refusal never happens.** -/
theorem derive_ne_exceeds :
    deriveSourceDispatchPlan candidateCount api transport ≠
      .error (.refused "derived source dispatch plan exceeds unchanged source budget") := by
  intro h
  unfold deriveSourceDispatchPlan at h
  rcases bind_eq_error_iff.mp h with he | ⟨-, -, h⟩
  · simp [refusePlan_eq_error_iff] at he
  rcases bind_eq_error_iff.mp h with he | ⟨a, ha, h⟩
  · exact dispatchesPerCandidate_ne_exceeds he
  rcases bind_eq_error_iff.mp h with he | ⟨i, hi, h⟩
  · exact dispatchesPerCandidate_ne_exceeds he
  rcases bind_eq_error_iff.mp h with he | ⟨_, hoften, h⟩
  · simp [refusePlan_eq_error_iff] at he
  rcases bind_eq_error_iff.mp h with he | ⟨weight, hweight, h⟩
  · exact sourceStateWeight_ne_exceeds he
  rcases bind_eq_error_iff.mp h with he | ⟨target, htarget, h⟩
  · simp [orRefused_eq_error_iff] at he
  rcases bind_eq_error_iff.mp h with he | ⟨policy, hpolicy, h⟩
  · simp [orRefused_eq_error_iff] at he
  rcases bind_eq_error_iff.mp h with he | ⟨base, hbase, h⟩
  · simp [orRefused_eq_error_iff] at he
  rcases bind_eq_error_iff.mp h with he | ⟨_, hfresh, h⟩
  · have htext := (refusePlan_eq_error_iff.mp he).2
    rw [SourcePlanError.refused.injEq] at htext
    exact cannotRemainFresh_ne_exceeds _ _ _ htext.symm
  rcases bind_eq_error_iff.mp h with he | ⟨more, hmore, h⟩
  · simp [orRefused_eq_error_iff] at he
  rcases bind_eq_error_iff.mp h with he | ⟨spare, hspare, h⟩
  · simp [orRefused_eq_error_iff] at he
  rcases bind_eq_error_iff.mp h with he | ⟨budget, hbudget, h⟩
  · simp [orRefused_eq_error_iff] at he
  rcases bind_eq_error_iff.mp h with he | ⟨activeCalls, hactive, h⟩
  · simp [orRefused_eq_error_iff] at he
  rcases bind_eq_error_iff.mp h with he | ⟨inactiveCalls, hinactive, h⟩
  · simp [orRefused_eq_error_iff] at he
  rcases bind_eq_error_iff.mp h with he | ⟨combined, hcombined, h⟩
  · simp [orRefused_eq_error_iff] at he
  rcases bind_eq_error_iff.mp h with he | ⟨_, hfits, h⟩
  · have hexceeds := (refusePlan_eq_error_iff.mp he).1
    rw [refusePlan_eq_ok_iff] at hoften hfresh
    rw [orRefused_eq_ok_iff] at hbase hmore hspare hbudget hactive hinactive hcombined
    obtain ⟨rfl, -⟩ := checkedMulU64_eq_some_iff.mp hbase
    obtain ⟨-, rfl⟩ := checkedDivNat_eq_some_iff.mp hbudget
    obtain ⟨rfl, -⟩ := checkedMulU64_eq_some_iff.mp hactive
    obtain ⟨rfl, -⟩ := checkedMulU64_eq_some_iff.mp hinactive
    obtain ⟨rfl, -⟩ := checkedAddU64_eq_some_iff.mp hcombined
    have hmore := checkedSubNat_eq_some_iff.mp hmore
    have hspare := checkedSubNat_eq_some_iff.mp hspare
    have hspareEq : spare = api.sourcePollingWeightPerWindow / weight - candidateCount * i := by
      omega
    have hmoreEq : more = a - i := by
      omega
    have hle := sourceDemand_le_iff (k := min (min candidateCount maxActiveSourceCandidates)
      (min policy (spare / more))) ((min_le_left _ _).trans (min_le_left _ _)) (not_le.mp hoften)
      (not_lt.mp hfresh)
    rw [← hspareEq, ← hmoreEq] at hle
    exact absurd (hle.mpr ((min_le_right _ _).trans (min_le_right _ _))) (not_le.mpr hexceeds)
  · cases h

variable {ordered : List String} {withPositions : ExtTreeSet String} {capacity : ℕ}

def holdingCandidates (ordered : List String) (withPositions : ExtTreeSet String) (capacity : ℕ) :
    ExtTreeSet String :=
  fillWithin capacity withPositions.contains ordered ∅

theorem activeCandidates_eq :
    activeCandidates ordered withPositions capacity =
      fillWithin capacity (fun _ => true) ordered
        (holdingCandidates ordered withPositions capacity) := by
  have hput : (fun (active : ExtTreeSet String) (candidate : String) =>
      if capacity ≤ active.size then active else active.insert candidate) =
      putWithin capacity fun _ => true := by
    funext active candidate
    unfold putWithin
    by_cases hfull : capacity ≤ active.size
    · rw [if_pos hfull, if_neg (by simp [hfull])]
    · rw [if_neg hfull, if_pos (by simpa using hfull)]
  unfold activeCandidates
  rw [hput]
  rfl

theorem mem_of_mem_activeCandidates {candidate : String}
    (h : candidate ∈ activeCandidates ordered withPositions capacity) : candidate ∈ ordered := by
  rw [activeCandidates_eq] at h
  rcases mem_of_mem_fillWithin h with hholding | ⟨hmem, -, -⟩
  · rcases mem_of_mem_fillWithin hholding with hempty | ⟨hmem, -, -⟩
    · exact absurd hempty ExtTreeSet.not_mem_empty
    · exact hmem
  · exact hmem

theorem tier_eq (candidate : String) :
    (assignSourceTiers ordered withPositions capacity)[candidate]? =
      if candidate ∈ ordered then
        some (if (activeCandidates ordered withPositions capacity).contains candidate then .active
          else .inactive)
      else none := by
  unfold assignSourceTiers
  rw [getElem?_foldl_insert]
  rfl

theorem tier_eq_active_iff {candidate : String} :
    (assignSourceTiers ordered withPositions capacity)[candidate]? = some .active ↔
      candidate ∈ activeCandidates ordered withPositions capacity := by
  rw [tier_eq, ExtTreeSet.mem_iff_contains]
  by_cases hmem : candidate ∈ ordered
  · rw [if_pos hmem]
    split <;> simp [*]
  · rw [if_neg hmem]
    simp only [reduceCtorEq, false_iff, ← ExtTreeSet.mem_iff_contains]
    exact mt mem_of_mem_activeCandidates hmem

theorem size_activeCandidates (hcapacity : capacity ≤ ordered.length) (hnodup : ordered.Nodup) :
    (activeCandidates ordered withPositions capacity).size = capacity := by
  have hholding : (holdingCandidates ordered withPositions capacity).size ≤ capacity := by
    apply size_fillWithin_le
    simp
  rw [activeCandidates_eq]
  apply le_antisymm (size_fillWithin_le hholding)
  by_contra hroom
  have hall : ∀ candidate, candidate ∈ fillWithin capacity (fun _ => true) ordered
      (holdingCandidates ordered withPositions capacity) ↔ candidate ∈ ordered.toFinset := by
    intro candidate
    rw [List.mem_toFinset, ← activeCandidates_eq]
    refine ⟨mem_of_mem_activeCandidates, fun hmem => ?_⟩
    rw [activeCandidates_eq]
    exact mem_fillWithin_of_wanted (not_le.mp hroom) hmem rfl
  rw [set_size_eq_card hall, List.toFinset_card_of_nodup hnodup] at hroom
  exact hroom hcapacity

theorem holding_first {held free : String} (hheld : held ∈ ordered)
    (hposition : withPositions.contains held = true)
    (hfree : withPositions.contains free = false)
    (hactive : free ∈ activeCandidates ordered withPositions capacity) :
    held ∈ activeCandidates ordered withPositions capacity := by
  rw [activeCandidates_eq] at hactive ⊢
  apply mem_fillWithin_of_mem
  rcases mem_of_mem_fillWithin hactive with hholding | ⟨-, -, hroom⟩
  · rcases mem_of_mem_fillWithin hholding with hempty | ⟨-, hwanted, -⟩
    · exact absurd hempty ExtTreeSet.not_mem_empty
    · rw [hfree] at hwanted
      cases hwanted
  · exact mem_fillWithin_of_wanted hroom hheld hposition

/-- The tiers of an assignment: each candidate has one, so many are active, and no candidate with a
position is inactive while one without is active. -/
structure TiersRespect (ordered : List String) (withPositions : ExtTreeSet String) (capacity : ℕ)
    (tiers : ExtTreeMap String SourceTier) : Prop where
  assigned : ∀ candidate, tiers.contains candidate = true ↔ candidate ∈ ordered
  count : (ordered.filter fun candidate => tiers[candidate]? = some .active).length = capacity
  first : ∀ held free, withPositions.contains held = true → withPositions.contains free = false →
    tiers[held]? = some .inactive → tiers[free]? ≠ some .active

theorem tiersRespect_assignSourceTiers (withPositions : ExtTreeSet String)
    (hcapacity : capacity ≤ ordered.length) (hnodup : ordered.Nodup) :
    TiersRespect ordered withPositions capacity
      (assignSourceTiers ordered withPositions capacity) where
  assigned := by
    intro candidate
    rw [ExtTreeMap.contains_eq_isSome_getElem?, tier_eq]
    split <;> simp [*]
  count := by
    rw [← List.toFinset_card_of_nodup (hnodup.filter _)]
    rw [← set_size_eq_card (s := activeCandidates ordered withPositions capacity) ?_]
    · exact size_activeCandidates hcapacity hnodup
    · intro candidate
      rw [List.mem_toFinset, List.mem_filter, decide_eq_true_iff, tier_eq_active_iff]
      exact ⟨fun h => ⟨mem_of_mem_activeCandidates h, h⟩, fun h => h.2⟩
  first := by
    intro held free hposition hfree hinactive hactive
    have hheld : held ∈ ordered := by
      by_contra hmem
      rw [tier_eq, if_neg hmem] at hinactive
      cases hinactive
    have hmem := holding_first hheld hposition hfree (tier_eq_active_iff.mp hactive)
    rw [tier_eq_active_iff.mpr hmem] at hinactive
    cases hinactive

/-- **The plan is feasible and maximal.**  A plan fits the calls of a window, no larger number of
active candidates that the limits allow would fit, and its last refusal never happens; an assignment
makes so many active, those with positions first. -/
theorem source_dispatch_plan_maximal (candidateCount : ℕ) (api : ReadApiPolicy)
    (transport : PublicTransportPolicy) :
    deriveSourceDispatchPlan candidateCount api transport ≠
      .error (.refused "derived source dispatch plan exceeds unchanged source budget") ∧
    ∀ plan, deriveSourceDispatchPlan candidateCount api transport = .ok plan →
      (∃ activeDispatches inactiveDispatches callCapacity policyCapacity,
        PlanTerms candidateCount api transport activeDispatches inactiveDispatches callCapacity
          policyCapacity ∧
        FeasiblePlan candidateCount plan activeDispatches inactiveDispatches callCapacity
          policyCapacity) ∧
      ∀ (ordered : List String) (withPositions : ExtTreeSet String), ordered.Nodup →
        ordered.length = candidateCount →
          TiersRespect ordered withPositions plan.activeCandidateCount
            (assignSourceTiers ordered withPositions plan.activeCandidateCount) := by
  refine ⟨derive_ne_exceeds, fun plan hplan => ⟨feasible_of_derived hplan, ?_⟩⟩
  intro ordered withPositions hnodup hlength
  obtain ⟨_, _, _, _, -, hfeasible⟩ := feasible_of_derived hplan
  apply tiersRespect_assignSourceTiers withPositions _ hnodup
  rw [hlength, ← hfeasible.all_candidates]
  exact Nat.le_add_right _ _

/-- Three sources, four calls of weight two in a window of a minute. -/
def threeSources : ReadApiPolicy where
  totalWeightPerWindow := 20
  reservedWeightPerWindow := 1
  sourcePollingWeightPerWindow := 11
  windowMs := 60000
  maxConcurrency := 1
  queueCapacity := 1
  endpointWeights := (∅ : ExtTreeMap ReadRequestKind ℕ).insert .sourceState 2
  sourceTierDispatchTargetsPerWindow := (∅ : ExtTreeMap SourceTier ℕ).insert .active 30

/-- Three candidates share the five calls of a window: one of them is read three times. -/
theorem source_dispatch_plan_maximal_three :
    deriveSourceDispatchPlan 3 threeSources ⟨20000, 60000, 1, 1, 1⟩ =
      .ok ⟨3, 1, 2, 20000, 60000, 5, 3, 2, 5⟩ ∧
    TiersRespect ["a", "b", "c"] (ExtTreeSet.ofList ["c"]) 1
      (assignSourceTiers ["a", "b", "c"] (ExtTreeSet.ofList ["c"]) 1) := by
  have hplan : deriveSourceDispatchPlan 3 threeSources ⟨20000, 60000, 1, 1, 1⟩ =
      .ok ⟨3, 1, 2, 20000, 60000, 5, 3, 2, 5⟩ := by
    decide +kernel
  exact ⟨hplan, ((source_dispatch_plan_maximal 3 threeSources ⟨20000, 60000, 1, 1, 1⟩).2 _
    hplan).2 ["a", "b", "c"] _ (by decide) rfl⟩

end CopyTrade.Analysis
