import CopyTrade.Analysis.Scheduling.BudgetLevels

/-!
# The isolation of the budget classes

Each class has a token bucket of its own, which sees the time of every call and pays for the
calls of its class.  As long as the critical calls stay within the bucket of their class, the
weighted bucket charges exactly the calls that the buckets of the classes grant: the levels that
several classes share always have the room of the classes below them.
-/

namespace CopyTrade.Analysis

open Foundation Model

def classWeight (policy : ReadApiPolicy) : BudgetClass → ℕ
  | .sourcePolling => policy.sourcePollingWeightPerWindow
  | .normal => policy.normalWeight - policy.sourcePollingWeightPerWindow
  | .critical => policy.reservedWeightPerWindow

abbrev ClassBuckets := BudgetClass → TokenBucket

def ClassBuckets.new (policy : ReadApiPolicy) (startMs : ℕ) : ClassBuckets :=
  fun budgetClass => .full (classWeight policy budgetClass) policy.windowMs startMs

def ClassGrants (buckets : ClassBuckets) (call : Charge) : Prop :=
  ((buckets call.budgetClass).advance call.nowMs).Grants call.weight

instance (buckets : ClassBuckets) (call : Charge) : Decidable (ClassGrants buckets call) :=
  inferInstanceAs (Decidable (TokenBucket.Grants _ _))

/-- Time passes for every bucket; that of the class pays for the call if it grants it. -/
def classStep (buckets : ClassBuckets) (call : Charge) : ClassBuckets := fun budgetClass =>
  if budgetClass = call.budgetClass ∧ ClassGrants buckets call then
    ((buckets budgetClass).advance call.nowMs).pay call.weight
  else (buckets budgetClass).advance call.nowMs

/-- The levels of the weighted bucket against the buckets of the classes. -/
@[mk_iff]
structure Isolated (bucket : WeightedTokenBucket) (buckets : ClassBuckets) : Prop where
  source : levelOf bucket .source = buckets .sourcePolling
  enrichment : levelOf bucket .enrichment = buckets .normal
  normal : (levelOf bucket .normal).Covers (buckets .sourcePolling) (buckets .normal)
  total : (levelOf bucket .total).Covers (levelOf bucket .normal) (buckets .critical)

section

variable {policy : ReadApiPolicy} {bucket : WeightedTokenBucket} {buckets : ClassBuckets}

theorem reservedWeight_le_of_new {startMs : ℕ}
    (h : WeightedTokenBucket.new policy startMs = .ok bucket) :
    policy.normalWeight + policy.reservedWeightPerWindow = policy.totalWeightPerWindow ∧
      policy.sourcePollingWeightPerWindow ≤ policy.normalWeight := by
  obtain ⟨_, hvalid, -⟩ := of_bind h
  unfold ReadApiPolicy.validate at hvalid
  split at hvalid
  · cases hvalid
  split at hvalid
  · cases hvalid
  rename_i hreserved
  split at hvalid
  · cases hvalid
  split at hvalid
  · cases hvalid
  rename_i hsource
  unfold ReadApiPolicy.normalWeight at hsource ⊢
  omega

theorem levelWeight_le {startMs : ℕ} (h : WeightedTokenBucket.new policy startMs = .ok bucket)
    (level : BudgetLevel) : levelWeight policy level ≤ policy.totalWeightPerWindow := by
  obtain ⟨hreserved, hsource⟩ := reservedWeight_le_of_new h
  cases level <;> simp only [levelWeight] <;> omega

theorem isolated_new {startMs : ℕ} (h : WeightedTokenBucket.new policy startMs = .ok bucket) :
    Isolated bucket (ClassBuckets.new policy startMs) := by
  obtain ⟨hreserved, hsource⟩ := reservedWeight_le_of_new h
  obtain ⟨_, -, h⟩ := of_bind h
  cases h
  refine ⟨rfl, rfl, ?_, ?_⟩
  · exact TokenBucket.Covers.full (Nat.add_sub_of_le hsource).le policy.windowMs startMs
  · exact TokenBucket.Covers.full hreserved.le policy.windowMs startMs

theorem isCharged_iff_classGrants (hlevelled : Levelled policy bucket)
    (hwords : ∀ level, levelWeight policy level ≤ maxU32) (h : Isolated bucket buckets)
    (call : Charge) (hcritical : call.budgetClass = .critical → ClassGrants buckets call) :
    IsCharged bucket call ↔ ClassGrants buckets call := by
  rw [isCharged_iff hlevelled hwords]
  unfold ClassGrants at hcritical ⊢
  have hnormal := h.normal.advance call.nowMs
  have htotal := h.total.advance call.nowMs
  cases hclass : call.budgetClass with
  | sourcePolling =>
    constructor
    · intro hlevels
      rw [← h.source]
      exact hlevels .source rfl
    · intro hgrants level hpays
      cases level with
      | total => exact htotal.grants (hnormal.grants hgrants)
      | normal => exact hnormal.grants hgrants
      | source => rw [h.source]; exact hgrants
      | enrichment => cases hpays
  | normal =>
    constructor
    · intro hlevels
      rw [← h.enrichment]
      exact hlevels .enrichment rfl
    · intro hgrants level hpays
      cases level with
      | total => exact htotal.grants (hnormal.symm.grants hgrants)
      | normal => exact hnormal.symm.grants hgrants
      | source => cases hpays
      | enrichment => rw [h.enrichment]; exact hgrants
  | critical =>
    have hgrants := hcritical hclass
    rw [hclass] at hgrants
    refine ⟨fun _ => hgrants, fun _ level hpays => ?_⟩
    cases level with
    | total => exact htotal.symm.grants hgrants
    | normal => cases hpays
    | source => cases hpays
    | enrichment => cases hpays

theorem levelOf_chargeStep (hlevelled : Levelled policy bucket) (call : Charge)
    (level : BudgetLevel) :
    levelOf (chargeStep bucket call) level =
      if IsCharged bucket call ∧ Pays call.budgetClass level = true then
        ((levelOf bucket level).advance call.nowMs).pay call.weight
      else (levelOf bucket level).advance call.nowMs := by
  rw [(chargeStep_level hlevelled call level).1]
  unfold TokenBucket.after paidAt
  dsimp only
  split
  · rfl
  · exact pay_zero _

theorem isolated_refused (hlevelled : Levelled policy bucket) (h : Isolated bucket buckets)
    {call : Charge} (hrefused : ¬ IsCharged bucket call) (hdenied : ¬ ClassGrants buckets call) :
    Isolated (chargeStep bucket call) (classStep buckets call) := by
  have hlevel : ∀ level, levelOf (chargeStep bucket call) level =
      (levelOf bucket level).advance call.nowMs := fun level => by
    rw [levelOf_chargeStep hlevelled, if_neg fun hboth => hrefused hboth.1]
  have hclass : ∀ budgetClass, classStep buckets call budgetClass =
      (buckets budgetClass).advance call.nowMs := fun _ => if_neg fun hboth => hdenied hboth.2
  refine ⟨?_, ?_, ?_, ?_⟩
  · rw [hlevel, hclass, h.source]
  · rw [hlevel, hclass, h.enrichment]
  · rw [hlevel, hclass, hclass]
    exact h.normal.advance call.nowMs
  · rw [hlevel, hlevel, hclass]
    exact h.total.advance call.nowMs

theorem isolated_charged (hlevelled : Levelled policy bucket) (h : Isolated bucket buckets)
    {call : Charge} (hcharged : IsCharged bucket call) (hgrants : ClassGrants buckets call) :
    Isolated (chargeStep bucket call) (classStep buckets call) := by
  have hpaid : ∀ level, Pays call.budgetClass level = true →
      levelOf (chargeStep bucket call) level =
        ((levelOf bucket level).advance call.nowMs).pay call.weight := fun level hpays => by
    rw [levelOf_chargeStep hlevelled, if_pos ⟨hcharged, hpays⟩]
  have hkept : ∀ level, Pays call.budgetClass level = false →
      levelOf (chargeStep bucket call) level =
        (levelOf bucket level).advance call.nowMs := fun level hpays => by
    rw [levelOf_chargeStep hlevelled, if_neg fun hboth => by rw [hpays] at hboth; cases hboth.2]
  have hown : ∀ budgetClass, budgetClass = call.budgetClass →
      classStep buckets call budgetClass =
        ((buckets budgetClass).advance call.nowMs).pay call.weight :=
    fun _ hclass => if_pos ⟨hclass, hgrants⟩
  have hother : ∀ budgetClass, budgetClass ≠ call.budgetClass →
      classStep buckets call budgetClass = (buckets budgetClass).advance call.nowMs :=
    fun _ hclass => if_neg fun hboth => hclass hboth.1
  have hnormal := h.normal.advance call.nowMs
  have htotal := h.total.advance call.nowMs
  unfold ClassGrants at hgrants
  cases hclass : call.budgetClass with
  | sourcePolling =>
    rw [hclass] at hpaid hkept hown hother hgrants
    rw [isolated_iff, hpaid .total rfl, hpaid .normal rfl, hpaid .source rfl,
      hkept .enrichment rfl, hown .sourcePolling rfl, hother .normal nofun,
      hother .critical nofun, h.source, h.enrichment]
    exact ⟨rfl, rfl, hnormal.pay hgrants, htotal.pay (hnormal.grants hgrants)⟩
  | normal =>
    rw [hclass] at hpaid hkept hown hother hgrants
    rw [isolated_iff, hpaid .total rfl, hpaid .normal rfl, hkept .source rfl,
      hpaid .enrichment rfl, hother .sourcePolling nofun, hown .normal rfl,
      hother .critical nofun, h.source, h.enrichment]
    exact ⟨rfl, rfl, (hnormal.symm.pay hgrants).symm, htotal.pay (hnormal.symm.grants hgrants)⟩
  | critical =>
    rw [hclass] at hpaid hkept hown hother hgrants
    rw [isolated_iff, hpaid .total rfl, hkept .normal rfl, hkept .source rfl,
      hkept .enrichment rfl, hother .sourcePolling nofun, hother .normal nofun,
      hown .critical rfl, h.source, h.enrichment]
    exact ⟨rfl, rfl, hnormal, (htotal.symm.pay hgrants).symm⟩

theorem isolated_run (hlevelled : Levelled policy bucket)
    (hwords : ∀ level, levelWeight policy level ≤ maxU32) (h : Isolated bucket buckets)
    {calls : List Charge}
    (hcritical : AllSteps classStep
      (fun buckets call => call.budgetClass = .critical → ClassGrants buckets call) buckets calls) :
    Isolated (run chargeStep bucket calls) (run classStep buckets calls) := by
  induction calls generalizing bucket buckets with
  | nil => exact h
  | cons call calls ih =>
    have hagree := isCharged_iff_classGrants hlevelled hwords h call hcritical.1
    refine ih (levelled_chargeStep hlevelled call) ?_ hcritical.2
    by_cases hcharged : IsCharged bucket call
    · exact isolated_charged hlevelled h hcharged (hagree.mp hcharged)
    · exact isolated_refused hlevelled h hcharged fun hgrants => hcharged (hagree.mpr hgrants)

/-- **The isolation of the budget classes**, in every run whose critical calls are each granted by
the bucket of their class: a call is charged exactly when the bucket of its class grants it. -/
theorem budget_class_isolation {startMs : ℕ} (hword : policy.totalWeightPerWindow ≤ maxU32)
    (hnew : WeightedTokenBucket.new policy startMs = .ok bucket) {calls : List Charge}
    (hcritical : AllSteps classStep
      (fun buckets call => call.budgetClass = .critical → ClassGrants buckets call)
      (ClassBuckets.new policy startMs) calls) :
    ∀ before call after, calls = before ++ call :: after →
      (call.budgetClass ≠ .critical →
        (IsCharged (run chargeStep bucket before) call ↔
          ClassGrants (run classStep (ClassBuckets.new policy startMs) before) call)) ∧
      (call.budgetClass = .critical → IsCharged (run chargeStep bucket before) call) := by
  rintro before call after rfl
  obtain ⟨hbefore, hcall, -⟩ := allSteps_append.mp hcritical
  have hlevelled := levelled_run (levelled_new hnew) before
  have hwords : ∀ level, levelWeight policy level ≤ maxU32 := fun level =>
    (levelWeight_le hnew level).trans hword
  have hagree := isCharged_iff_classGrants hlevelled hwords
    (isolated_run (levelled_new hnew) hwords (isolated_new hnew) hbefore) call hcall
  exact ⟨fun _ => hagree, fun hclass => hagree.mpr (hcall hclass)⟩

end

/-- Source polling has used up its share and a critical call has the reserved weight. -/
theorem budget_class_isolation_reserve :
    ∃ bucket, WeightedTokenBucket.new samplePolicy 0 = .ok bucket ∧
      IsCharged (run chargeStep bucket [⟨.sourcePolling, 40, 0⟩, ⟨.sourcePolling, 1, 0⟩])
        ⟨.critical, 20, 0⟩ := by
  have hnew : ∃ bucket, WeightedTokenBucket.new samplePolicy 0 = .ok bucket := by
    unfold WeightedTokenBucket.new
    rw [samplePolicy_valid]
    exact ⟨_, rfl⟩
  obtain ⟨bucket, hnew⟩ := hnew
  have hrun := @budget_class_isolation samplePolicy bucket 0 (by decide) hnew
    [⟨.sourcePolling, 40, 0⟩, ⟨.sourcePolling, 1, 0⟩, ⟨.critical, 20, 0⟩] (by decide)
  exact ⟨bucket, hnew, (hrun _ _ [] rfl).2 rfl⟩

end CopyTrade.Analysis
