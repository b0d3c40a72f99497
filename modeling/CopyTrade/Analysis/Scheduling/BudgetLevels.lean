import CopyTrade.Foundation.Results
import CopyTrade.Foundation.TokenBucket
import CopyTrade.Model.Core.ReadBudget

/-!
# The levels of the budget

The weighted bucket is four token buckets that share their clock and their accounting window:
the total, the weight that is not reserved, and the shares of source polling and enrichment.  A
charge is made when every level its class pays at grants it, and is paid at these levels.  What is
charged is bounded, at each of them, as the payments of a token bucket are.
-/

namespace CopyTrade.Analysis

open Foundation Model
open Std (ExtTreeMap)

inductive BudgetLevel
  | total
  | normal
  | source
  | enrichment
deriving DecidableEq

def Pays : BudgetClass → BudgetLevel → Bool
  | _, .total => true
  | budgetClass, .normal => budgetClass != .critical
  | budgetClass, .source => budgetClass == .sourcePolling
  | budgetClass, .enrichment => budgetClass == .normal

def levelWeight (policy : ReadApiPolicy) : BudgetLevel → ℕ
  | .total => policy.totalWeightPerWindow
  | .normal => policy.normalWeight
  | .source => policy.sourcePollingWeightPerWindow
  | .enrichment => policy.normalWeight - policy.sourcePollingWeightPerWindow

def levelOf (bucket : WeightedTokenBucket) : BudgetLevel → TokenBucket
  | .total => ⟨bucket.totalRefillPerMs, bucket.windowMs, bucket.totalUnits, bucket.lastRefillMs,
      bucket.accountingWindowStartedMs, bucket.totalConsumedInWindow⟩
  | .normal => ⟨bucket.normalRefillPerMs, bucket.windowMs, bucket.normalUnits, bucket.lastRefillMs,
      bucket.accountingWindowStartedMs, bucket.normalConsumedInWindow⟩
  | .source => ⟨bucket.sourceRefillPerMs, bucket.windowMs, bucket.sourceUnits, bucket.lastRefillMs,
      bucket.accountingWindowStartedMs, bucket.sourceConsumedInWindow⟩
  | .enrichment => ⟨bucket.enrichmentRefillPerMs, bucket.windowMs, bucket.enrichmentUnits,
      bucket.lastRefillMs, bucket.accountingWindowStartedMs, bucket.enrichmentConsumedInWindow⟩

def capacityUnitsOf (bucket : WeightedTokenBucket) : BudgetLevel → ℕ
  | .total => bucket.totalCapacityUnits
  | .normal => bucket.normalCapacityUnits
  | .source => bucket.sourceCapacityUnits
  | .enrichment => bucket.enrichmentCapacityUnits

/-- The bucket has the capacities of the policy, and its levels are within them. -/
structure Levelled (policy : ReadApiPolicy) (bucket : WeightedTokenBucket) : Prop where
  positive : 0 < bucket.windowMs
  window : bucket.windowMs = policy.windowMs
  capacity : ∀ level, (levelOf bucket level).capacity = levelWeight policy level
  units : ∀ level, capacityUnitsOf bucket level = levelWeight policy level * bucket.windowMs
  within : ∀ level, (levelOf bucket level).Within

/-- A call of `try_charge`. -/
structure Charge where
  budgetClass : BudgetClass
  weight : ℕ
  nowMs : ℕ

def chargeStep (bucket : WeightedTokenBucket) (charge : Charge) : WeightedTokenBucket :=
  (bucket.tryCharge charge.budgetClass charge.weight charge.nowMs).2

/-- The call is answered with `Charged`. -/
def IsCharged (bucket : WeightedTokenBucket) (charge : Charge) : Prop :=
  (bucket.tryCharge charge.budgetClass charge.weight charge.nowMs).1 = .charged

instance (bucket : WeightedTokenBucket) (charge : Charge) : Decidable (IsCharged bucket charge) :=
  inferInstanceAs (Decidable (_ = _))

def paidAt (level : BudgetLevel) (bucket : WeightedTokenBucket) (charge : Charge) : Payment where
  time := charge.nowMs
  weight :=
    if IsCharged bucket charge ∧ Pays charge.budgetClass level = true then charge.weight else 0

def paymentsAt (level : BudgetLevel) : WeightedTokenBucket → List Charge → List Payment
  | _, [] => []
  | bucket, charge :: charges =>
    paidAt level bucket charge :: paymentsAt level (chargeStep bucket charge) charges

section

variable {policy : ReadApiPolicy} {bucket : WeightedTokenBucket}

theorem blocked_eq_false_iff (budgetClass : BudgetClass) (obstacle : BudgetLevel → Bool) :
    budgetClass.blocked (obstacle .total) (obstacle .normal) (obstacle .source)
        (obstacle .enrichment) = false ↔
      ∀ level, Pays budgetClass level = true → obstacle level = false := by
  constructor
  · intro h level hpays
    cases budgetClass <;> cases level <;>
      simp_all [BudgetClass.blocked, Pays]
  · intro h
    cases budgetClass <;> simp_all [BudgetClass.blocked, Pays]

theorem levelled_new {startMs : ℕ} (h : WeightedTokenBucket.new policy startMs = .ok bucket) :
    Levelled policy bucket := by
  obtain ⟨_, hvalid, h⟩ := of_bind h
  cases h
  refine ⟨?_, rfl, fun level => ?_, fun level => ?_, fun level => ?_⟩
  · unfold ReadApiPolicy.validate at hvalid
    split at hvalid
    · cases hvalid
    split at hvalid
    · cases hvalid
    split at hvalid
    · cases hvalid
    rename_i hpositive
    exact Nat.pos_of_ne_zero fun hzero => hpositive (.inl hzero)
  · cases level <;> rfl
  · cases level <;> rfl
  · cases level <;> exact TokenBucket.within_full _ _ _

theorem levelOf_refill (h : Levelled policy bucket) (nowMs : ℕ) (level : BudgetLevel) :
    levelOf (bucket.refill nowMs) level = (levelOf bucket level).advance nowMs := by
  have hunits := h.units level
  rw [← h.capacity level] at hunits
  have hlast : (levelOf bucket level).lastRefill = bucket.lastRefillMs := by cases level <;> rfl
  have hstart : (levelOf bucket level).windowStart = bucket.accountingWindowStartedMs := by
    cases level <;> rfl
  have hwindow : (levelOf bucket level).window = bucket.windowMs := by cases level <;> rfl
  unfold WeightedTokenBucket.refill TokenBucket.advance
  rw [hlast, hstart, hwindow]
  by_cases hsame : nowMs - bucket.lastRefillMs = 0
  · rw [if_pos hsame, if_pos hsame]
  · rw [if_neg hsame, if_neg hsame]
    by_cases hover : bucket.windowMs ≤ nowMs - bucket.accountingWindowStartedMs
    · rw [if_pos hover, if_pos hover, ← hunits]
      cases level <;> rfl
    · rw [if_neg hover, if_neg hover, ← hunits]
      cases level <;> rfl

theorem capacityUnitsOf_refill (bucket : WeightedTokenBucket) (nowMs : ℕ) (level : BudgetLevel) :
    capacityUnitsOf (bucket.refill nowMs) level = capacityUnitsOf bucket level ∧
      (bucket.refill nowMs).windowMs = bucket.windowMs := by
  unfold WeightedTokenBucket.refill
  dsimp only
  split
  · exact ⟨rfl, rfl⟩
  · split <;> cases level <;> exact ⟨rfl, rfl⟩

theorem levelled_refill (h : Levelled policy bucket) (nowMs : ℕ) :
    Levelled policy (bucket.refill nowMs) := by
  have hwindow := (capacityUnitsOf_refill bucket nowMs .total).2
  refine ⟨hwindow ▸ h.positive, hwindow.trans h.window, fun level => ?_, fun level => ?_,
    fun level => ?_⟩
  · rw [levelOf_refill h, TokenBucket.advance_capacity]
    exact h.capacity level
  · rw [(capacityUnitsOf_refill bucket nowMs level).1, hwindow]
    exact h.units level
  · rw [levelOf_refill h]
    exact (h.within level).advance nowMs

theorem levelOf_spend (bucket : WeightedTokenBucket) (budgetClass : BudgetClass) (weight : ℕ)
    (level : BudgetLevel) :
    levelOf (bucket.spend budgetClass weight) level =
      if Pays budgetClass level = true then (levelOf bucket level).pay weight
      else levelOf bucket level := by
  cases budgetClass <;> cases level <;> rfl

theorem capacityUnitsOf_spend (bucket : WeightedTokenBucket) (budgetClass : BudgetClass)
    (weight : ℕ) (level : BudgetLevel) :
    capacityUnitsOf (bucket.spend budgetClass weight) level = capacityUnitsOf bucket level ∧
      (bucket.spend budgetClass weight).windowMs = bucket.windowMs := by
  cases budgetClass <;> cases level <;> exact ⟨rfl, rfl⟩

theorem levelOf_window (bucket : WeightedTokenBucket) (level : BudgetLevel) :
    (levelOf bucket level).window = bucket.windowMs := by
  cases level <;> rfl

theorem grants_iff (h : Levelled policy bucket) (weight : ℕ) (level : BudgetLevel) :
    (levelOf bucket level).Grants weight ↔
      weight * bucket.windowMs ≤ (levelOf bucket level).units ∧
        (levelOf bucket level).consumed + weight ≤ levelWeight policy level := by
  unfold TokenBucket.Grants
  rw [levelOf_window, h.capacity]

def obstacle (bucket : WeightedTokenBucket) (weight : ℕ) (level : BudgetLevel) : Bool :=
  decide (capacityUnitsOf bucket level < weight * bucket.windowMs) ||
    WeightedTokenBucket.windowFull (levelOf bucket level).consumed weight
      (bucket.capacityWeight (capacityUnitsOf bucket level)) ||
    decide ((levelOf bucket level).units < weight * bucket.windowMs)

theorem grants_of_not_obstacle (h : Levelled policy bucket) {weight : ℕ} {level : BudgetLevel}
    (hclear : obstacle bucket weight level = false) : (levelOf bucket level).Grants weight := by
  have hcapacity : bucket.capacityWeight (capacityUnitsOf bucket level) ≤
      levelWeight policy level := by
    unfold WeightedTokenBucket.capacityWeight
    rw [h.units, Nat.mul_div_cancel _ h.positive]
    exact Nat.mod_le _ _
  unfold obstacle WeightedTokenBucket.windowFull at hclear
  generalize bucket.capacityWeight (capacityUnitsOf bucket level) = room at hcapacity hclear
  simp only [Bool.or_eq_false_iff, decide_eq_false_iff_not, not_lt] at hclear
  obtain ⟨⟨-, -, hwindow⟩, hunits⟩ := hclear
  rw [grants_iff h]
  exact ⟨hunits, hwindow.trans hcapacity⟩

theorem not_obstacle_of_grants (h : Levelled policy bucket) {weight : ℕ} {level : BudgetLevel}
    (hword : levelWeight policy level ≤ maxU32)
    (hgrants : (levelOf bucket level).Grants weight) : obstacle bucket weight level = false := by
  have hwithin := (h.within level).units
  rw [grants_iff h] at hgrants
  rw [h.capacity, levelOf_window] at hwithin
  have hcapacity : bucket.capacityWeight (capacityUnitsOf bucket level) =
      levelWeight policy level := by
    unfold WeightedTokenBucket.capacityWeight
    rw [h.units, Nat.mul_div_cancel _ h.positive, Nat.mod_eq_of_lt]
    unfold maxU32 at hword
    omega
  unfold obstacle
  rw [hcapacity, h.units]
  simp only [WeightedTokenBucket.windowFull, Bool.or_eq_false_iff, decide_eq_false_iff_not, not_lt]
  omega

theorem tryCharge_eq (bucket : WeightedTokenBucket) (budgetClass : BudgetClass) (weight nowMs : ℕ) :
    (∀ level, Pays budgetClass level = true → obstacle (bucket.refill nowMs) weight level = false) ∧
        bucket.tryCharge budgetClass weight nowMs =
          (.charged, (bucket.refill nowMs).spend budgetClass weight) ∨
      (∃ level, Pays budgetClass level = true ∧
        obstacle (bucket.refill nowMs) weight level = true) ∧
        ∃ decision, decision ≠ .charged ∧
          bucket.tryCharge budgetClass weight nowMs = (decision, bucket.refill nowMs) := by
  unfold WeightedTokenBucket.tryCharge
  generalize bucket.refill nowMs = refilled
  dsimp only
  have hblocked : ∀ test : BudgetLevel → Bool, (∀ level, test level = true →
      obstacle refilled weight level = true) →
      budgetClass.blocked (test .total) (test .normal) (test .source) (test .enrichment) = true →
      ∃ level, Pays budgetClass level = true ∧ obstacle refilled weight level = true := by
    intro test htest hblocked
    by_contra hnone
    push Not at hnone
    have hfree := (blocked_eq_false_iff budgetClass test).mpr fun level hpays => by
      have := hnone level hpays
      cases hlevel : test level with
      | false => rfl
      | true => exact absurd (htest level hlevel) this
    rw [hfree] at hblocked
    cases hblocked
  let heavy : BudgetLevel → Bool := fun level =>
    decide (capacityUnitsOf refilled level < weight * refilled.windowMs)
  let full : BudgetLevel → Bool := fun level =>
    WeightedTokenBucket.windowFull (levelOf refilled level).consumed weight
      (refilled.capacityWeight (capacityUnitsOf refilled level))
  let short : BudgetLevel → Bool := fun level =>
    decide ((levelOf refilled level).units < weight * refilled.windowMs)
  split
  · rename_i hheavy
    refine .inr ⟨hblocked heavy (fun level hlevel => ?_) hheavy, .overweight, nofun, rfl⟩
    simp only [obstacle, heavy] at hlevel ⊢
    rw [hlevel, Bool.true_or, Bool.true_or]
  rename_i hlight
  split
  · rename_i hfull
    refine .inr ⟨hblocked full (fun level hlevel => ?_) hfull, .insufficient, nofun, rfl⟩
    simp only [obstacle, full] at hlevel ⊢
    rw [hlevel, Bool.or_true, Bool.true_or]
  rename_i hroom
  split
  · rename_i hshort
    refine .inr ⟨hblocked short (fun level hlevel => ?_) hshort, .insufficient, nofun, rfl⟩
    simp only [obstacle, short] at hlevel ⊢
    rw [hlevel, Bool.or_true]
  rename_i hunits
  refine .inl ⟨fun level hpays => ?_, rfl⟩
  have hlight := (blocked_eq_false_iff budgetClass heavy).mp (Bool.eq_false_of_not_eq_true hlight)
    level hpays
  have hroom := (blocked_eq_false_iff budgetClass full).mp (Bool.eq_false_of_not_eq_true hroom)
    level hpays
  have hunits := (blocked_eq_false_iff budgetClass short).mp (Bool.eq_false_of_not_eq_true hunits)
    level hpays
  simp only [obstacle, heavy, full, short] at hlight hroom hunits ⊢
  rw [hlight, hroom, hunits]
  rfl

theorem pay_zero (b : TokenBucket) : b.pay 0 = b := by
  unfold TokenBucket.pay
  rw [Nat.zero_mul, Nat.sub_zero, Nat.add_zero]

theorem chargeStep_level (h : Levelled policy bucket) (charge : Charge) (level : BudgetLevel) :
    levelOf (chargeStep bucket charge) level =
        (levelOf bucket level).after (paidAt level bucket charge) ∧
      (levelOf bucket level).Affords (paidAt level bucket charge) := by
  have hrefilled := levelled_refill h charge.nowMs
  unfold TokenBucket.after TokenBucket.Affords paidAt
  rw [← levelOf_refill h]
  rcases tryCharge_eq bucket charge.budgetClass charge.weight charge.nowMs with
    ⟨hclear, hresult⟩ | ⟨-, decision, hdecision, hresult⟩
  · have hcharged : IsCharged bucket charge := congrArg Prod.fst hresult
    have hstep : chargeStep bucket charge =
        (bucket.refill charge.nowMs).spend charge.budgetClass charge.weight :=
      congrArg Prod.snd hresult
    rw [hstep, levelOf_spend]
    by_cases hpays : Pays charge.budgetClass level = true
    · rw [if_pos hpays, if_pos ⟨hcharged, hpays⟩]
      exact ⟨rfl, grants_of_not_obstacle hrefilled (hclear level hpays)⟩
    · rw [if_neg hpays, if_neg fun hboth => hpays hboth.2, pay_zero]
      exact ⟨rfl, by simp, (hrefilled.within level).consumed⟩
  · have hstep : chargeStep bucket charge = bucket.refill charge.nowMs := congrArg Prod.snd hresult
    have hcharged : ¬ IsCharged bucket charge := fun h =>
      hdecision ((congrArg Prod.fst hresult).symm.trans h)
    rw [hstep, if_neg fun hboth => hcharged hboth.1, pay_zero]
    exact ⟨rfl, by simp, (hrefilled.within level).consumed⟩

theorem levelled_chargeStep (h : Levelled policy bucket) (charge : Charge) :
    Levelled policy (chargeStep bucket charge) := by
  have hrefilled := levelled_refill h charge.nowMs
  have hunits : ∀ level, capacityUnitsOf (chargeStep bucket charge) level =
      capacityUnitsOf (bucket.refill charge.nowMs) level ∧
      (chargeStep bucket charge).windowMs = (bucket.refill charge.nowMs).windowMs := by
    intro level
    unfold chargeStep
    rcases tryCharge_eq bucket charge.budgetClass charge.weight charge.nowMs with
      ⟨-, hcharged⟩ | ⟨-, decision, -, hrefused⟩
    · rw [hcharged]
      exact capacityUnitsOf_spend _ _ _ level
    · rw [hrefused]
      exact ⟨rfl, rfl⟩
  have hwindow := (hunits .total).2
  refine ⟨hwindow ▸ hrefilled.positive, hwindow.trans hrefilled.window, fun level => ?_,
    fun level => ?_, fun level => ?_⟩
  · rw [(chargeStep_level h charge level).1, TokenBucket.after_capacity]
    exact h.capacity level
  · rw [(hunits level).1, hwindow]
    exact hrefilled.units level
  · rw [(chargeStep_level h charge level).1]
    exact (h.within level).after (chargeStep_level h charge level).2

theorem isCharged_iff (h : Levelled policy bucket) (hwords : ∀ level, levelWeight policy level ≤ maxU32)
    (charge : Charge) :
    IsCharged bucket charge ↔ ∀ level, Pays charge.budgetClass level = true →
      ((levelOf bucket level).advance charge.nowMs).Grants charge.weight := by
  have hrefilled := levelled_refill h charge.nowMs
  unfold IsCharged
  rcases tryCharge_eq bucket charge.budgetClass charge.weight charge.nowMs with
    ⟨hclear, hcharged⟩ | ⟨⟨level, hpays, hobstacle⟩, decision, hdecision, hrefused⟩
  · rw [hcharged]
    refine ⟨fun _ level hpays => ?_, fun _ => rfl⟩
    rw [← levelOf_refill h]
    exact grants_of_not_obstacle hrefilled (hclear level hpays)
  · rw [hrefused]
    refine ⟨fun hcharged => absurd hcharged hdecision, fun hgrants => ?_⟩
    have hclear := not_obstacle_of_grants hrefilled (hwords level)
      (by rw [levelOf_refill h]; exact hgrants level hpays)
    rw [hclear] at hobstacle
    cases hobstacle

end

section

variable {policy : ReadApiPolicy} {bucket : WeightedTokenBucket}

theorem levelled_run (h : Levelled policy bucket) (charges : List Charge) :
    Levelled policy (run chargeStep bucket charges) :=
  run_invariant (I := Levelled policy) (fun _ charge hlevelled => levelled_chargeStep hlevelled charge)
    h charges

theorem run_level (h : Levelled policy bucket) (charges : List Charge) (level : BudgetLevel) :
    levelOf (run chargeStep bucket charges) level =
        run TokenBucket.after (levelOf bucket level) (paymentsAt level bucket charges) ∧
      AllSteps TokenBucket.after TokenBucket.Affords (levelOf bucket level)
        (paymentsAt level bucket charges) := by
  induction charges generalizing bucket with
  | nil => exact ⟨rfl, trivial⟩
  | cons charge charges ih =>
    obtain ⟨hstep, hafford⟩ := chargeStep_level h charge level
    obtain ⟨hrun, hall⟩ := ih (levelled_chargeStep h charge)
    rw [hstep] at hrun hall
    exact ⟨hrun, hafford, hall⟩

end

/-- Every kind of request weighs 2, of 100 in a second, and the queue holds two requests. -/
def samplePolicy : ReadApiPolicy where
  totalWeightPerWindow := 100
  reservedWeightPerWindow := 20
  sourcePollingWeightPerWindow := 40
  windowMs := 1000
  maxConcurrency := 3
  queueCapacity := 2
  endpointWeights := ExtTreeMap.ofList (ReadRequestKind.required.map fun kind => (kind, 2))
  sourceTierDispatchTargetsPerWindow := ExtTreeMap.ofList [(SourceTier.active, 3), (SourceTier.inactive, 1)]

theorem samplePolicy_valid : samplePolicy.validate = .ok () := by decide +kernel

/-- The calls of a run that are answered with `Charged`. -/
def chargedCalls : WeightedTokenBucket → List Charge → List Charge
  | _, [] => []
  | bucket, charge :: charges =>
    (if IsCharged bucket charge then [charge] else []) ++
      chargedCalls (chargeStep bucket charge) charges

def weightAt (level : BudgetLevel) (charges : List Charge) : ℕ :=
  ((charges.filter fun charge => Pays charge.budgetClass level).map Charge.weight).sum

def ChargesInOrder (charges : List Charge) : Prop :=
  charges.Pairwise fun earlier later => earlier.nowMs ≤ later.nowMs

/-- No call behind the first one resets the accounting window. -/
def OneAccountingWindow (bucket : WeightedTokenBucket) : List Charge → Prop
  | [] => True
  | charge :: charges => ∀ later ∈ states chargeStep (chargeStep bucket charge) charges,
      later.accountingWindowStartedMs = (chargeStep bucket charge).accountingWindowStartedMs

section

variable {policy : ReadApiPolicy} {bucket : WeightedTokenBucket}

theorem weightAt_append (level : BudgetLevel) (front back : List Charge) :
    weightAt level (front ++ back) = weightAt level front + weightAt level back := by
  unfold weightAt
  rw [List.filter_append, List.map_append, List.sum_append]

theorem weightAt_chargedCalls (bucket : WeightedTokenBucket) (charges : List Charge)
    (level : BudgetLevel) (within : ℕ → Bool) :
    weightAt level ((chargedCalls bucket charges).filter fun charge => within charge.nowMs) =
      TokenBucket.total ((paymentsAt level bucket charges).filter fun p => within p.time) := by
  induction charges generalizing bucket with
  | nil => rfl
  | cons charge charges ih =>
    unfold chargedCalls paymentsAt
    rw [List.filter_append, weightAt_append, ih]
    have htime : (paidAt level bucket charge).time = charge.nowMs := rfl
    cases hwithin : within charge.nowMs with
    | false =>
      rw [List.filter_cons_of_neg (by rw [htime, hwithin]; exact Bool.false_ne_true)]
      split
      · rw [List.filter_cons_of_neg (by rw [hwithin]; exact Bool.false_ne_true)]
        exact Nat.zero_add _
      · exact Nat.zero_add _
    | true =>
      rw [List.filter_cons_of_pos (by rw [htime, hwithin]), TokenBucket.total_cons]
      congr 1
      unfold paidAt
      dsimp only
      by_cases hcharged : IsCharged bucket charge
      · rw [if_pos hcharged, List.filter_cons_of_pos (by rw [hwithin]), List.filter_nil]
        cases hpays : Pays charge.budgetClass level with
        | false => simp [weightAt, hpays]
        | true => simp [weightAt, hpays, hcharged]
      · rw [if_neg hcharged, if_neg fun hboth => hcharged hboth.1]
        rfl

theorem inOrder_paymentsAt {charges : List Charge} (h : ChargesInOrder charges)
    (bucket : WeightedTokenBucket) (level : BudgetLevel) :
    TokenBucket.InOrder (paymentsAt level bucket charges) := by
  have htimes : ∀ (bucket : WeightedTokenBucket) (charges : List Charge),
      (paymentsAt level bucket charges).map Payment.time = charges.map Charge.nowMs := by
    intro bucket charges
    induction charges generalizing bucket with
    | nil => rfl
    | cons charge charges ih =>
      rw [paymentsAt, List.map_cons, List.map_cons, ih]
      rfl
  unfold TokenBucket.InOrder
  rw [← List.pairwise_map (R := fun a b : ℕ => a ≤ b), htimes, List.pairwise_map]
  exact h

theorem exists_prefix_of_paymentsAt {level : BudgetLevel} {bucket : WeightedTokenBucket}
    {charges : List Charge} {payments : List Payment}
    (h : payments <+: paymentsAt level bucket charges) :
    ∃ calls, calls <+: charges ∧ payments = paymentsAt level bucket calls := by
  induction charges generalizing bucket payments with
  | nil => exact ⟨[], List.prefix_rfl, List.prefix_nil.mp h⟩
  | cons charge charges ih =>
    cases payments with
    | nil => exact ⟨[], List.nil_prefix, rfl⟩
    | cons payment payments =>
      obtain ⟨rfl, hrest⟩ := List.cons_prefix_cons.mp h
      obtain ⟨calls, hcalls, rfl⟩ := ih hrest
      exact ⟨charge :: calls, List.cons_prefix_cons.mpr ⟨rfl, hcalls⟩, rfl⟩

theorem oneWindow_paymentsAt (h : Levelled policy bucket) {charges : List Charge}
    (hone : OneAccountingWindow bucket charges) (level : BudgetLevel) :
    TokenBucket.OneWindow (levelOf bucket level) (paymentsAt level bucket charges) := by
  have hstart : ∀ bucket : WeightedTokenBucket,
      (levelOf bucket level).windowStart = bucket.accountingWindowStartedMs := by
    intro bucket
    cases level <;> rfl
  cases charges with
  | nil => trivial
  | cons charge charges =>
    have hnext := levelled_chargeStep h charge
    have hstep := (chargeStep_level h charge level).1
    intro later hlater
    change later ∈ states TokenBucket.after _ (paymentsAt level (chargeStep bucket charge) charges)
      at hlater
    rw [← hstep] at hlater ⊢
    obtain ⟨payments, hinitial, rfl⟩ := mem_states_iff.mp hlater
    obtain ⟨calls, hcalls, rfl⟩ := exists_prefix_of_paymentsAt hinitial
    rw [← (run_level hnext calls level).1, hstart, hstart]
    exact hone _ (mem_states_iff.mpr ⟨calls, hcalls, rfl⟩)

/-- **The rate bound of the budget**, in every run of calls in the order of their times: at each
level, an interval and an accounting window have their bound. -/
theorem budget_rate_bound {startMs : ℕ} (hnew : WeightedTokenBucket.new policy startMs = .ok bucket)
    {charges : List Charge} (horder : ChargesInOrder charges) (level : BudgetLevel) :
    (∀ start length, weightAt level ((chargedCalls bucket charges).filter fun charge =>
        decide (start ≤ charge.nowMs ∧ charge.nowMs ≤ start + length)) ≤
      levelWeight policy level + levelWeight policy level * length / policy.windowMs) ∧
    ∀ before middle after, charges = before ++ middle ++ after →
      OneAccountingWindow (run chargeStep bucket before) middle →
      weightAt level (chargedCalls (run chargeStep bucket before) middle) ≤
        levelWeight policy level := by
  have hlevelled := levelled_new hnew
  constructor
  · intro start length
    have hbound := TokenBucket.total_interval_le (hlevelled.within level)
      (by rw [levelOf_window]; exact hlevelled.positive) (inOrder_paymentsAt horder bucket level)
      (run_level hlevelled charges level).2 start length
    rw [hlevelled.capacity, levelOf_window, hlevelled.window] at hbound
    rw [weightAt_chargedCalls bucket charges level
      fun time => decide (start ≤ time ∧ time ≤ start + length)]
    exact hbound
  · intro before middle after hsplit hone
    have hmiddle := levelled_run hlevelled before
    have hbound := TokenBucket.total_window_le (hmiddle.within level)
      (by rw [levelOf_window]; exact hmiddle.positive) (run_level hmiddle middle level).2
      (oneWindow_paymentsAt hmiddle hone level)
    have hall := weightAt_chargedCalls (run chargeStep bucket before) middle level fun _ => true
    rw [List.filter_true, List.filter_true] at hall
    rw [hmiddle.capacity] at hbound
    rw [hall]
    exact hbound

end

/-- Source polling at 40 in a second: what two calls half a second apart are charged. -/
theorem budget_rate_bound_polling :
    ∃ bucket, WeightedTokenBucket.new samplePolicy 0 = .ok bucket ∧
      weightAt .source ((chargedCalls bucket
        [⟨.sourcePolling, 30, 0⟩, ⟨.sourcePolling, 30, 500⟩]).filter fun charge =>
          decide (0 ≤ charge.nowMs ∧ charge.nowMs ≤ 0 + 500)) ≤ 40 + 40 * 500 / 1000 := by
  have hnew : ∃ bucket, WeightedTokenBucket.new samplePolicy 0 = .ok bucket := by
    unfold WeightedTokenBucket.new
    rw [samplePolicy_valid]
    exact ⟨_, rfl⟩
  obtain ⟨bucket, hnew⟩ := hnew
  exact ⟨bucket, hnew, (budget_rate_bound hnew (by simp [ChargesInOrder]) .source).1 0 500⟩

end CopyTrade.Analysis
