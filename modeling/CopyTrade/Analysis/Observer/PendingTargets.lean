import CopyTrade.Analysis.Observer.ComponentAlignment
import CopyTrade.Analysis.Observer.EngineSteps

/-!
# Pending actions and the last decision

A pending action follows the last decision when that has an executable action for its asset, on the
same side, with the same reduce-only flag and within one lot of its notional.  A decision replaces
or drops what is pending only where the asset has a fresh book or has waited for one.
-/

namespace CopyTrade.Analysis

open Foundation Model
open Std (ExtTreeMap)

variable {D : Type} [Decimal D]

/-- Two notionals of an asset within one lot of each other. -/
def WithinOneLot (rules : ExtTreeMap String (AcceptedRules D)) (asset : String) (a b : D) : Prop :=
  Decimal.eqv a b = true ∨ ∃ lot difference : D, lotNotional rules asset = some lot ∧
    Decimal.checkedSub a b = some difference ∧ Decimal.le (Decimal.abs difference) lot = true

def FollowsPlan (planned : PlannedDecision D) (asset : String) (pending : PendingAction D) : Prop :=
  ∃ action, planned.executable[asset]? = some action ∧ pending.action.side = action.side ∧
    pending.action.reduceOnly = action.reduceOnly ∧
    WithinOneLot planned.marketRules asset pending.action.roundedNotional action.roundedNotional

def PendingFollows (run : EngineRun D) : Prop :=
  ∀ (asset : String) (pending : PendingAction D), run.engine.pending[asset]? = some pending →
    ∃ planned, run.lastDecision = some planned ∧ FollowsPlan planned asset pending

/-- The decision that the strategy, the projection and the planner give at a state. -/
def plannedAt [Sha256] [DecimalNormalize D] (settings : EngineSettings D)
    (engine : DecisionEngine D) (now : ℕ) (strategy : Strategy D) : Option (PlannedDecision D) :=
  match engine.accrueFunding now with
  | .error _ => none
  | .ok accrued =>
    match accrued.freshMids settings now, accrued.metadata with
    | some mids, some metadata =>
      ((strategy (accrued.strategyView mids metadata now)).bind
        (accrued.planDecision now)).toOption.map Prod.snd
    | _, _ => none

/-- A decision reaches the pending action of an asset: the asset has a fresh book and either an
executable action or a wait for that book; or it has none, and the pending action already is what
is planned. -/
def Reached (engine : DecisionEngine D) (now : ℕ) (planned : PlannedDecision D) (asset : String)
    (pending : PendingAction D) : Prop :=
  if (engine.freshBook now asset).isSome then
    planned.executable.contains asset = true ∨ engine.pendingBook.contains asset = true
  else FollowsPlan planned asset pending

/-- A call that returns reaches, where it makes the engine decide, everything pending. -/
def ReachesPending [Sha256] [DecimalNormalize D] [IntentEncoding D] (settings : EngineSettings D)
    (run : EngineRun D) (call : EngineCall D) : Prop :=
  run.stopped = none → (run.engine.call settings call).isOk = true →
    ∀ engine now strategy planned,
      decisionPoint settings run.engine call = some (engine, now, strategy) →
      plannedAt settings engine now strategy = some planned →
      ∀ (asset : String) (pending : PendingAction D), engine.pending[asset]? = some pending →
        Reached engine now planned asset pending

section

variable [Sha256] [DecimalNormalize D]

variable {engine : DecisionEngine D} {now : ℕ} {asset : String}

theorem constructNextDecision_planned {settings : EngineSettings D} {engine' : DecisionEngine D}
    {strategy : Strategy D} {result : Option (PlannedDecision D)}
    (h : engine.constructNextDecision settings now strategy = .ok (engine', result)) :
    plannedAt settings engine now strategy = result := by
  unfold DecisionEngine.constructNextDecision at h
  obtain ⟨accrued, haccrued, h⟩ := of_bind h
  split at h
  · rename_i mids metadata hmids hmetadata
    obtain ⟨allocated, hallocated, h⟩ := of_bind h
    obtain ⟨⟨decided, planned⟩, hdecide, h⟩ := of_bind h
    cases h
    unfold DecisionEngine.decide at hdecide
    obtain ⟨⟨numbered, planned'⟩, hplan, hdecide⟩ := of_bind hdecide
    obtain ⟨committed, -, hdecide⟩ := of_bind hdecide
    cases hdecide
    unfold plannedAt
    rw [haccrued]
    dsimp only
    rw [hmids, hmetadata]
    dsimp only
    rw [hallocated]
    simp only [Except.bind]
    rw [hplan]
    rfl
  · rename_i hmissing
    cases h
    unfold plannedAt
    rw [haccrued]
    dsimp only
    split
    · rename_i mids metadata hmids hmetadata
      exact absurd hmetadata (hmissing mids metadata hmids)
    · rfl

section

omit [Sha256] [DecimalNormalize D]

theorem withinOneLot_of_immaterial {rules : ExtTreeMap String (AcceptedRules D)}
    {previous next : Lifecycle.PlannedAction D} {tolerance : D}
    (hlot : lotNotional rules asset = some tolerance)
    (h : pendingActionIsImmaterialReplacement previous next tolerance = true) :
    previous.side = next.side ∧ previous.reduceOnly = next.reduceOnly ∧
      WithinOneLot rules asset previous.roundedNotional next.roundedNotional := by
  unfold pendingActionIsImmaterialReplacement at h
  simp only [Bool.and_eq_true, beq_iff_eq] at h
  obtain ⟨⟨⟨-, hside⟩, hreduce⟩, hnear⟩ := h
  refine ⟨hside, hreduce, .inr ?_⟩
  cases hdifference : Decimal.checkedSub previous.roundedNotional next.roundedNotional with
  | none =>
    rw [hdifference] at hnear
    cases hnear
  | some difference =>
    rw [hdifference] at hnear
    exact ⟨tolerance, difference, hlot, rfl, Decimal.le_iff.mpr (Decimal.lt_iff.mp hnear).le⟩

theorem invalidated_iff {executable : ExtTreeMap String (Lifecycle.PlannedAction D)} :
    engine.invalidated now executable asset = true ↔
      engine.pendingBook.contains asset = true ∧ (engine.freshBook now asset).isSome = true ∧
        executable.contains asset = false := by
  unfold DecisionEngine.invalidated
  rw [Bool.and_eq_true]
  cases (engine.freshBook now asset).isSome <;> cases executable.contains asset <;>
    simp [resolveBookAction]

/-- What is pending for an asset after a decision follows it exactly when the decision has reached
what was pending before. -/
theorem follows_iff_reached {planned : PlannedDecision D} {slot : Slot D}
    (h : SlotDecided engine now planned asset slot) :
    (∀ pending, slot.1 = some pending → FollowsPlan planned asset pending) ↔
      ∀ pending, engine.pending[asset]? = some pending →
        Reached engine now planned asset pending := by
  unfold SlotDecided at h
  cases haction : planned.executable[asset]? with
  | some action =>
    rw [haction] at h
    have hexecutable : planned.executable.contains asset = true :=
      (contains_iff_exists _ _).mpr ⟨action, haction⟩
    have hvalid : ¬ engine.invalidated now planned.executable asset = true := by
      rw [invalidated_iff, hexecutable]
      simp
    unfold droppedSlot at h
    rw [if_neg hvalid] at h
    have hreached (hbook : (engine.freshBook now asset).isSome = true) (pending : PendingAction D) :
        Reached engine now planned asset pending := by
      unfold Reached
      rw [if_pos hbook]
      exact .inl hexecutable
    generalize hpending : engine.pending[asset]? = before at h ⊢
    generalize engine.pendingBook[asset]? = waiting at h
    generalize engine.continuations[asset]?.filter _ = continuation at h
    cases h with
    | waits _ _ _ noBook =>
      unfold Reached
      rw [noBook]
      simp
    | keeps previous next tolerance _ hasBook hlot immaterial sameAction sameBook =>
      obtain ⟨hside, hreduce, hnear⟩ := withinOneLot_of_immaterial hlot immaterial
      constructor
      · intro _ pending _
        exact hreached hasBook pending
      · rintro - pending ⟨⟩
        refine ⟨action, haction, ?_⟩
        rw [sameAction]
        exact ⟨hside, hreduce, hnear⟩
    | replaces _ next tolerance hlot material newAction newBook =>
      obtain ⟨current, hcurrent, -⟩ := newBook
      constructor
      · intro _ pending _
        exact hreached (by rw [hcurrent]; rfl) pending
      · rintro - pending ⟨⟩
        refine ⟨action, haction, ?_⟩
        rw [newAction]
        exact ⟨rfl, rfl, .inl (Decimal.eqv_refl _)⟩
  | none =>
    rw [haction] at h
    subst h
    have hunplanned : planned.executable.contains asset = false := by
      rw [ExtTreeMap.contains_eq_isSome_getElem?, haction]
      rfl
    have hnever (pending : PendingAction D) : ¬ FollowsPlan planned asset pending := by
      rintro ⟨action, hsome, -⟩
      rw [haction] at hsome
      cases hsome
    unfold droppedSlot
    split
    · rename_i hinvalid
      obtain ⟨hwaits, hbook, -⟩ := invalidated_iff.mp hinvalid
      constructor
      · intro _ pending _
        unfold Reached
        rw [if_pos hbook]
        exact .inr hwaits
      · rintro - pending ⟨⟩
    · rename_i hvalid
      rw [invalidated_iff] at hvalid
      refine forall₂_congr fun pending hpending => ?_
      unfold Reached
      split
      · rename_i hbook
        refine iff_of_false (hnever pending) ?_
        rintro (hplanned | hwaits)
        · rw [hunplanned] at hplanned
          cases hplanned
        · exact hvalid ⟨hwaits, hbook, hunplanned⟩
      · rfl

end

end

section

variable [Sha256] [DecimalNormalize D] [IntentEncoding D] {settings : EngineSettings D}

/-- A call keeps everything pending in line with the last decision exactly when a decision it
makes reaches everything pending. -/
theorem pendingFollows_step {run : EngineRun D} (call : EngineCall D) (h : PendingFollows run) :
    PendingFollows (run.step settings call) ↔ ReachesPending settings run call := by
  unfold EngineRun.step
  cases hstopped : run.stopped with
  | some error =>
    refine iff_of_true h ?_
    intro hrunning
    rw [hstopped] at hrunning
    cases hrunning
  | none =>
    cases hcall : run.engine.call settings call with
    | error error =>
      refine iff_of_true h ?_
      intro _ hreturns
      rw [hcall] at hreturns
      cases hreturns
    | ok returned =>
      obtain ⟨engine', result⟩ := returned
      cases hpoint : decisionPoint settings run.engine call with
      | none =>
        obtain ⟨rfl, hkept⟩ := call_keeps hcall hpoint
        refine iff_of_true ?_ ?_
        · intro asset pending hpending
          exact h asset pending (hkept asset pending hpending)
        · intro _ _ engine now strategy planned hsome
          rw [hpoint] at hsome
          cases hsome
      | some point =>
        obtain ⟨engine, now, strategy⟩ := point
        have hdecides := call_decides hcall hpoint
        have hplanned := constructNextDecision_planned hdecides
        obtain ⟨-, hslots⟩ := constructNextDecision_step hdecides
        cases result with
        | none =>
          refine iff_of_true ?_ ?_
          · intro asset pending hpending
            have hbefore : engine.pending[asset]? = some pending := by
              rw [← hpending]
              exact (congrArg Prod.fst (hslots asset)).symm
            exact h asset pending (decisionPoint_pending hpoint hbefore)
          · intro _ _ engine₁ now₁ strategy₁ planned hsome hsomePlanned
            rw [hpoint] at hsome
            cases hsome
            rw [hplanned] at hsomePlanned
            cases hsomePlanned
        | some planned =>
          constructor
          · intro hfollows _ _ engine₁ now₁ strategy₁ planned₁ hsome hsomePlanned asset
            rw [hpoint] at hsome
            cases hsome
            rw [hplanned] at hsomePlanned
            cases hsomePlanned
            refine (follows_iff_reached (hslots asset)).mp ?_
            intro pending hpending
            obtain ⟨last, hlast, hfollow⟩ := hfollows asset pending hpending
            cases hlast
            exact hfollow
          · intro hreaches asset pending hpending
            have hasset := hreaches hstopped (by rw [hcall]; rfl) engine now strategy planned hpoint
              hplanned asset
            exact ⟨planned, rfl, (follows_iff_reached (hslots asset)).mpr hasset pending hpending⟩

/-- **Pending actions and the target.**  In every state of a run everything pending follows the
last decision exactly when every decision of the run reaches everything pending. -/
theorem pending_follows_iff (settings : EngineSettings D) (engineInstance : Bytes 16)
    (identity : Option ProductionIntentIdentity) (calls : List (EngineCall D)) :
    (∀ run ∈ states (EngineRun.step settings)
        (EngineRun.start (DecisionEngine.start engineInstance identity)) calls,
        PendingFollows run) ↔
      AllSteps (EngineRun.step settings) (ReachesPending settings)
        (EngineRun.start (DecisionEngine.start engineInstance identity)) calls := by
  refine forall_states_iff_steps (I := fun _ => True) (fun _ _ _ => trivial) ?_ trivial ?_ calls
  · intro run call _ h
    exact pendingFollows_step call h
  · intro asset pending hpending
    have hempty : (∅ : ExtTreeMap String (PendingAction D))[asset]? = some pending := hpending
    rw [ExtTreeMap.getElem?_empty] at hempty
    cases hempty

end

/-- The settings of an observer that decides on prices of the last five seconds. -/
def sampleEngineSettings : EngineSettings ℚ where
  toShadowSettings := sampleShadowSettings
  sourceSnapshotMaxAgeMs := 5000

/-- A target for one asset at the price 100, wanted by one component. -/
def sampleAllocated (target : ℚ) : AllocatedTargets ℚ where
  configHash := Bytes.replicate 32 0
  riskPolicyHash := Bytes.replicate 32 0
  snapshotSetId := Bytes.replicate 32 0
  eligibilityHash := Bytes.replicate 32 0
  marketSnapshotId := Bytes.replicate 32 0
  currentEquity := 10000
  curveLeverage := 10
  globalRiskScale := 1 / 10
  maxSingleAssetEquityPct := 1
  maxNetEquityPct := 1
  marketRules := ExtTreeMap.ofList [("BTC", sampleRules 100 hundred_positive)] compare
  unconstrainedTargets := ExtTreeMap.ofList [("BTC", target)] compare
  admittedTargets := ExtTreeMap.ofList [("BTC", target)] compare
  executionFloors := ExtTreeMap.ofList [("BTC", ⟨100, 1 / 10, 10, 11⟩)] compare
  contributions := ExtTreeMap.ofList
    [("BTC", ExtTreeMap.ofList [("A", if target < 0 then -1 else 1)] compare)] compare

def sampleStrategy (target : ℚ) : Strategy ℚ := fun _ => .ok (sampleAllocated target)

def sampleOpening : List (EngineCall ℚ) :=
  [.marketMetadata ⟨["BTC"], ∅⟩ 0,
    .marketSnapshot (ExtTreeMap.ofList [("BTC", 100)] compare) 0,
    .orderBook (sampleBook 100) 0 0 (sampleStrategy 0),
    .decision 0 (sampleStrategy 1000)]

def sampleEngineRun [Sha256] [IntentEncoding ℚ] (identity : Option ProductionIntentIdentity)
    (calls : List (EngineCall ℚ)) : EngineRun ℚ :=
  run (EngineRun.step sampleEngineSettings)
    (EngineRun.start (DecisionEngine.start (Bytes.replicate 16 0) identity)) calls

/-- The target is withdrawn before the book comes, and the action to open it stays pending. -/
theorem pending_survives_withdrawal :
    ¬ ∀ [Sha256] [DecimalNormalize ℚ] [IntentEncoding ℚ] (settings : EngineSettings ℚ)
        (engineInstance : Bytes 16) (identity : Option ProductionIntentIdentity)
        (calls : List (EngineCall ℚ)),
      ∀ run ∈ states (EngineRun.step settings)
        (EngineRun.start (DecisionEngine.start engineInstance identity)) calls,
        PendingFollows run := by
  intro h
  let sha : Sha256 := ⟨foldDigest⟩
  let encoding : IntentEncoding ℚ := ⟨fun _ => .ok []⟩
  have hfollows := h sampleEngineSettings (Bytes.replicate 16 0) none
    (sampleOpening ++ [.decision 10 (sampleStrategy 0)]) _ (run_mem_states _ _)
  have hpending : (sampleEngineRun none
      (sampleOpening ++ [.decision 10 (sampleStrategy 0)])).engine.pending["BTC"]?.isSome = true ∧
      ((sampleEngineRun none
        (sampleOpening ++ [.decision 10 (sampleStrategy 0)])).lastDecision.bind
          fun planned => planned.executable["BTC"]?.map Lifecycle.PlannedAction.asset) = none := by
    decide +kernel
  obtain ⟨pending, hsome⟩ := Option.isSome_iff_exists.mp hpending.1
  obtain ⟨planned, hlast, action, haction, -⟩ := hfollows "BTC" pending hsome
  have hnone := hpending.2
  unfold sampleEngineRun at hnone
  rw [hlast, Option.bind_some, haction] at hnone
  cases hnone

end CopyTrade.Analysis
