import CopyTrade.Analysis.Observer.PendingTargets
import CopyTrade.Model.Observer.Dispatch

/-!
# Production events and the decisions after them

The observer stops planning actions that open exposure as soon as the production state it
synchronizes with disagrees with the exchange; what was planned before stays pending.  A fill or a
funding payment asks for a replan: the dispatch decides again at the time of the latest event, a
time of the exchange, while the prices carry times of the observer's own clock, and the decision is
made only where the two happen to be close enough.
-/

namespace CopyTrade.Analysis

open Foundation Model
open Std (ExtTreeMap)

variable {D : Type} [Decimal D]

/-- The last production state the engine was synchronized with has position mismatches or an
equity mismatch. -/
def Disagreeing (run : EngineRun D) : Prop :=
  ∃ state, run.lastSynchronized = some state ∧
    (state.positionMismatches.isEmpty = false ∨ state.equityMismatch.isSome = true)

/-- While the production state disagrees, a call prepares no intent that opens exposure. -/
def PreparesReductions [Sha256] [DecimalNormalize D] [IntentEncoding D]
    (settings : EngineSettings D) (run : EngineRun D) (call : EngineCall D) : Prop :=
  Disagreeing run → ∀ added : List (AuthorizedExecutionIntent D),
    (run.step settings call).engine.preparedAuthorizedIntents =
      run.engine.preparedAuthorizedIntents ++ added →
    ∀ intent ∈ added, intent.reduceOnly = true

/-- No action that opens exposure is due at a book: what is pending for the book's asset, has
waited for its latency, has an order there and was not emitted before only reduces. -/
def NoOpeningDue (settings : EngineSettings D) (engine : DecisionEngine D)
    (book : OrderBookResponse D) (receivedAt : ℕ) : Prop :=
  ∀ pending evaluation order, ReadyOrder settings engine book receivedAt pending evaluation order →
    pending.action.plannedCloid ∉ engine.emittedProductionCloids →
    pending.action.reduceOnly = true

/-- While the production state disagrees, no book that the engine takes in in production mode
finds an action due that opens exposure. -/
def BooksFindReductions [Sha256] [DecimalNormalize D] [IntentEncoding D]
    (settings : EngineSettings D) (run : EngineRun D) (call : EngineCall D) : Prop :=
  match call with
  | .orderBook book receivedAt _ _ =>
    Disagreeing run → run.stopped = none → (run.engine.call settings call).isOk = true →
      run.engine.productionIdentity.isSome = true →
      NoOpeningDue settings run.engine book receivedAt
  | _ => True

theorem noOpeningDue_withBook {settings : EngineSettings D} {engine : DecisionEngine D}
    {book : OrderBookResponse D} {receivedAt : ℕ} :
    NoOpeningDue settings (withBook engine book receivedAt) book receivedAt ↔
      NoOpeningDue settings engine book receivedAt := by
  unfold NoOpeningDue
  simp only [readyOrder_withBook]
  rfl

section

variable [Sha256] [DecimalNormalize D] [IntentEncoding D] {settings : EngineSettings D}

omit [Sha256] [DecimalNormalize D] [IntentEncoding D] [Decimal D] in
theorem eq_nil_of_append {α : Type} {before added after : List α} (h : after = before ++ added)
    (hafter : after = before ∨ after = []) : added = [] := by
  rcases hafter with rfl | rfl
  · exact List.self_eq_append_right.mp h
  · exact (List.append_eq_nil_iff.mp h.symm).2

omit [DecimalNormalize D] in
theorem bookStep_reduces_iff {engine executed : DecisionEngine D} {book : OrderBookResponse D}
    {receivedAt : ℕ} {technicalDesired : D} {recompute : ExecutionRecompute}
    (h : BookStep settings engine book receivedAt technicalDesired executed recompute) :
    (∀ added : List (AuthorizedExecutionIntent D),
      executed.preparedAuthorizedIntents = engine.preparedAuthorizedIntents ++ added →
      ∀ intent ∈ added, intent.reduceOnly = true) ↔
    (engine.productionIdentity.isSome = true → NoOpeningDue settings engine book receivedAt) := by
  have hunchanged (hsame : executed.preparedAuthorizedIntents = engine.preparedAuthorizedIntents)
      (added : List (AuthorizedExecutionIntent D))
      (hadded : executed.preparedAuthorizedIntents = engine.preparedAuthorizedIntents ++ added) :
      ∀ intent ∈ added, intent.reduceOnly = true := by
    rw [eq_nil_of_append hadded (.inl hsame)]
    simp
  cases h with
  | idle early =>
    refine iff_of_true (hunchanged rfl) ?_
    intro _ pending evaluation order ready
    have hnever := ready.notEarly
    rw [early pending ready.isPending] at hnever
    cases hnever
  | dropped pending isPending noOrder =>
    refine iff_of_true (hunchanged rfl) ?_
    intro _ other evaluation order ready
    have hsame := ready.isPending
    rw [isPending] at hsame
    cases hsame
    have horder := ready.hasOrder
    rw [noOrder] at horder
    cases horder
  | fills pending evaluation order executed recompute ready shadow fills =>
    refine iff_of_true (hunchanged ?_) ?_
    · exact (congrArg DecisionEngine.preparedAuthorizedIntents (fillPending_step fills).1 :)
    · intro hproduction
      rw [shadow] at hproduction
      cases hproduction
  | emits pending evaluation order identity executed ready production emits =>
    have honly (P : PendingAction D → Prop) :
        (∀ other evaluation order,
          ReadyOrder settings engine book receivedAt other evaluation order → P other) ↔
        P pending := by
      constructor
      · intro hall
        exact hall pending evaluation order ready
      · intro hpending other _ _ hother
        have hsame := hother.isPending
        rw [ready.isPending] at hsame
        cases hsame
        exact hpending
    unfold NoOpeningDue
    rw [honly fun other => other.action.plannedCloid ∉ engine.emittedProductionCloids →
      other.action.reduceOnly = true]
    rcases emitIntent_cases emits with ⟨hemitted, rfl⟩ | ⟨hnew, intent, hintent, rfl⟩
    · exact iff_of_true (hunchanged rfl) (fun _ hnew => absurd hemitted hnew)
    · constructor
      · intro hreduces _ _
        have hone := hreduces [intent] rfl intent (List.mem_singleton_self _)
        rwa [hintent.reduceOnly] at hone
      · intro hpending added hadded other hother
        obtain rfl : [intent] = added := List.append_cancel_left hadded
        rw [List.mem_singleton.mp hother, hintent.reduceOnly]
        exact hpending (by rw [production]; rfl) hnew

theorem preparesReductions_iff (run : EngineRun D) (call : EngineCall D) :
    PreparesReductions settings run call ↔ BooksFindReductions settings run call := by
  have hquiet (hsame : (run.step settings call).engine.preparedAuthorizedIntents =
        run.engine.preparedAuthorizedIntents ∨
      (run.step settings call).engine.preparedAuthorizedIntents = []) :
      PreparesReductions settings run call := by
    intro _ added hadded
    rw [eq_nil_of_append hadded hsame]
    simp
  cases hstopped : run.stopped with
  | some error =>
    refine iff_of_true (hquiet (.inl ?_)) ?_
    · unfold EngineRun.step
      rw [hstopped]
    · cases call with
      | orderBook =>
        intro _ hrunning
        rw [hstopped] at hrunning
        cases hrunning
      | _ => trivial
  | none =>
    cases hcall : run.engine.call settings call with
    | error error =>
      refine iff_of_true (hquiet (.inl ?_)) ?_
      · unfold EngineRun.step
        rw [hstopped]
        rw [hcall]
      · cases call with
        | orderBook =>
          intro _ _ hreturns
          rw [hcall] at hreturns
          cases hreturns
        | _ => trivial
    | ok returned =>
      obtain ⟨engine', result⟩ := returned
      have hstep : (run.step settings call).engine = engine' := by
        unfold EngineRun.step
        rw [hstopped]
        rw [hcall]
      by_cases hbook : ∃ book receivedAt technicalDesired strategy,
          call = .orderBook book receivedAt technicalDesired strategy
      · obtain ⟨book, receivedAt, technicalDesired, strategy, rfl⟩ := hbook
        obtain ⟨executed, recompute, hexecuted, hframe⟩ := call_orderBook hcall
        have hprepared := prepared_of_frame hframe
        unfold PreparesReductions BooksFindReductions
        rw [hstep, hprepared, hcall]
        refine imp_congr_right fun _ => ?_
        have hiff := bookStep_reduces_iff hexecuted
        rw [noOpeningDue_withBook] at hiff
        exact ⟨fun hreduces _ _ => hiff.mp hreduces, fun hdue => hiff.mpr (hdue hstopped rfl)⟩
      · push Not at hbook
        refine iff_of_true (hquiet ?_) ?_
        · rw [hstep]
          exact call_prepared hcall hbook
        · unfold BooksFindReductions
          cases call with
          | orderBook book receivedAt technicalDesired strategy =>
            exact absurd rfl (hbook book receivedAt technicalDesired strategy)
          | _ => trivial

/-- **No new exposure while the production state disagrees.**  A run prepares no intent that opens
exposure while the last synchronized state disagrees exactly when no book of the run finds such an
action due by then. -/
theorem blocked_exposure_iff (settings : EngineSettings D) (engineInstance : Bytes 16)
    (identity : Option ProductionIntentIdentity) (calls : List (EngineCall D)) :
    AllSteps (EngineRun.step settings) (PreparesReductions settings)
        (EngineRun.start (DecisionEngine.start engineInstance identity)) calls ↔
      AllSteps (EngineRun.step settings) (BooksFindReductions settings)
        (EngineRun.start (DecisionEngine.start engineInstance identity)) calls :=
  allSteps_congr (I := fun _ => True) (fun _ _ _ => trivial)
    (fun run call _ => preparesReductions_iff run call) trivial calls

end

def sampleProduction : ProductionIntentIdentity where
  observerReleaseHash := Bytes.replicate 32 0
  signerReleaseHash := Bytes.replicate 32 0
  releaseManifestHash := Bytes.replicate 32 0
  marketRulesHash := Bytes.replicate 32 0
  dynamicFloorPolicyHash := Bytes.replicate 32 0
  iocPolicyHash := Bytes.replicate 32 0
  expiresAfterMs := 5000

def sampleProductionState (mismatches : List (String × (ℚ × ℚ))) : ProductionTradingState ℚ :=
  { ProductionTradingState.new (LiveTradingState.starting 10000 0) with
    positionMismatches := ExtTreeMap.ofList mismatches compare }

/-- The position of an asset turns out to differ after an action to open it was planned, and the
next book prepares the intent. -/
theorem exposure_prepared_while_blocked :
    ¬ ∀ [Sha256] [DecimalNormalize ℚ] [IntentEncoding ℚ] (settings : EngineSettings ℚ)
        (engineInstance : Bytes 16) (identity : Option ProductionIntentIdentity)
        (calls : List (EngineCall ℚ)),
      AllSteps (EngineRun.step settings) (PreparesReductions settings)
        (EngineRun.start (DecisionEngine.start engineInstance identity)) calls := by
  intro h
  let sha : Sha256 := ⟨foldDigest⟩
  let encoding : IntentEncoding ℚ := ⟨fun _ => .ok []⟩
  let before := sampleOpening ++
    [.synchronizeProductionState (sampleProductionState [("BTC", (0, 1))])]
  let call : EngineCall ℚ := .orderBook (sampleBook 100) 100 0 (sampleStrategy 0)
  have hreduces := (allSteps_append.mp (h sampleEngineSettings (Bytes.replicate 16 0)
    (some sampleProduction) (before ++ [call]))).2.1
  have hprepared : (sampleEngineRun (some sampleProduction)
        before).engine.preparedAuthorizedIntents = [] ∧
      (sampleEngineRun (some sampleProduction) (before ++ [call])
        ).engine.preparedAuthorizedIntents.map AuthorizedExecutionIntent.reduceOnly = [false] ∧
      (sampleEngineRun (some sampleProduction) before).lastSynchronized =
        some (sampleProductionState [("BTC", (0, 1))]) := by
    decide +kernel
  obtain ⟨hempty, hopens, hsynchronized⟩ := hprepared
  unfold sampleEngineRun at hempty hopens hsynchronized
  rw [run_append] at hopens
  have hall := hreduces ⟨_, hsynchronized, .inl (by decide +kernel)⟩ _
    (by rw [hempty, List.nil_append])
  rw [List.map_eq_singleton_iff] at hopens
  obtain ⟨intent, hintent, hopens⟩ := hopens
  have hone := hall intent (by
    rw [run_cons, run_nil] at hintent
    rw [hintent]
    exact List.mem_singleton_self _)
  rw [hopens] at hone
  cases hone

/-- A dispatch at a time of the observer's clock asks for a replan: it has synchronized the engine
with a state that requires one, and the engine has metadata and prices that are fresh by then. -/
structure RequiresReplan [Sha256] [PayloadEncoding D] (settings : EngineSettings D)
    (run : ProductionRun D) (now : ℕ) (inputs : DispatchInputs D) (engine : DecisionEngine D)
    (state : ProductionTradingState D) : Prop where
  synchronized : Dispatch.synchronize inputs run.engine run.state = .ok (engine, state)
  required : state.assetsRequiringReplan.isEmpty = false
  freshMids : (engine.freshMids settings now).isSome = true
  metadata : engine.metadata.isSome = true

/-- No replan is lost: a dispatch that asks for one finds a time for it, and when it returns it has
decided from the synchronized engine. -/
def KeepsReplan [Sha256] [DecimalNormalize D] [PayloadEncoding D] (settings : EngineSettings D)
    (run : ProductionRun D) : ObserverCall D → Prop
  | .engine _ => True
  | .dispatch now inputs => run.stopped = none → ∀ engine state,
    RequiresReplan settings run now inputs engine state →
      ∃ timestamp, state.live.latestExchangeEventTimestamp = some timestamp ∧
        ∀ replanned cleared result,
          Dispatch.replan settings inputs engine state = .ok (replanned, cleared, result) →
          ∃ planned, result = some planned ∧
            engine.constructNextDecision settings timestamp inputs.strategy =
              .ok (replanned, some planned)

/-- The latest event of the exchange has a time at which the prices of the engine are fresh, unless
the dispatch fails at the funding up to that time or at saving the state. -/
def EventTimeFresh [Sha256] [PayloadEncoding D] (settings : EngineSettings D)
    (run : ProductionRun D) : ObserverCall D → Prop
  | .engine _ => True
  | .dispatch now inputs => run.stopped = none → ∀ engine state,
    RequiresReplan settings run now inputs engine state →
      ∃ timestamp, state.live.latestExchangeEventTimestamp = some timestamp ∧
        ((engine.accrueFunding timestamp).isOk = true → inputs.saved = true →
          (engine.freshMids settings timestamp).isSome = true)

section

variable [Sha256] [DecimalNormalize D] {settings : EngineSettings D}

variable {engine : DecisionEngine D} {strategy : Strategy D} {inputs : DispatchInputs D}
  {state : ProductionTradingState D} {run : ProductionRun D}

theorem constructNextDecision_isSome_iff {engine' : DecisionEngine D} {now : ℕ}
    {result : Option (PlannedDecision D)} (hmetadata : engine.metadata.isSome = true)
    (h : engine.constructNextDecision settings now strategy = .ok (engine', result)) :
    result.isSome = true ↔ (engine.freshMids settings now).isSome = true := by
  obtain ⟨metadata, hmetadata⟩ := Option.isSome_iff_exists.mp hmetadata
  unfold DecisionEngine.constructNextDecision at h
  obtain ⟨accrued, haccrued, h⟩ := of_bind h
  have hsame : accrued.metadata = some metadata := by
    rw [accrueFunding_eq haccrued]
    exact hmetadata
  have hfresh : accrued.freshMids settings now = engine.freshMids settings now := by
    rw [accrueFunding_eq haccrued]
    rfl
  rw [hfresh, hsame] at h
  cases hmids : engine.freshMids settings now with
  | none =>
    rw [hmids] at h
    cases h
    simp
  | some mids =>
    rw [hmids] at h
    obtain ⟨allocated, -, h⟩ := of_bind h
    obtain ⟨⟨decided, planned⟩, -, h⟩ := of_bind h
    cases h
    simp

theorem constructNextDecision_of_stale {accrued : DecisionEngine D} {now : ℕ}
    (haccrued : engine.accrueFunding now = .ok accrued)
    (hstale : engine.freshMids settings now = none) :
    engine.constructNextDecision settings now strategy = .ok (accrued, none) := by
  have hfresh : accrued.freshMids settings now = none := by
    rw [← hstale, accrueFunding_eq haccrued]
    rfl
  unfold DecisionEngine.constructNextDecision
  rw [haccrued, ok_bind, hfresh]
  rfl

theorem replan_eq {timestamp : ℕ} (hproduction : engine.productionIdentity.isSome = true)
    (hrequired : state.assetsRequiringReplan.isEmpty = false)
    (htimestamp : state.live.latestExchangeEventTimestamp = some timestamp) :
    Dispatch.replan settings inputs engine state =
      (do
        let (replanned, planned) ← (engine.constructNextDecision settings timestamp
          inputs.strategy).mapError DispatchError.decision
        if inputs.saved then pure (replanned, { state with assetsRequiringReplan := ∅ }, planned)
        else .error .persistence) := by
  unfold Dispatch.replan DecisionEngine.recomputeAfterProductionUpdates
  rw [if_neg (by rw [hrequired]; exact Bool.false_ne_true), htimestamp]
  rw [ok_bind, if_pos hproduction]

omit [DecimalNormalize D] in
theorem synchronize_identity [PayloadEncoding D] {engine' : DecisionEngine D}
    {state' : ProductionTradingState D}
    (h : Dispatch.synchronize inputs engine state = .ok (engine', state')) :
    engine'.productionIdentity = engine.productionIdentity := by
  have hloop (intents : List (AuthorizedExecutionIntent D)) (before after : DecisionEngine D)
      (hafter : intents.foldlM (Dispatch.queueIntent inputs.queued) before = .ok after) :
      after.productionIdentity = before.productionIdentity := by
    induction intents generalizing before with
    | nil =>
      simp only [List.foldlM_nil, pure_eq_ok_iff] at hafter
      rw [hafter]
    | cons intent intents ih =>
      obtain ⟨next, hnext, hafter⟩ := foldlM_cons_eq_ok_iff.mp hafter
      obtain ⟨outcome, -, hnext⟩ := of_bind hnext
      rw [ih next hafter, ← pure_eq_ok_iff.mp hnext]
      split <;> rfl
  unfold Dispatch.synchronize at h
  obtain ⟨queued, hqueued, h⟩ := of_bind h
  obtain ⟨reconciled, -, h⟩ := of_bind h
  cases h
  unfold Dispatch.queueIntents at hqueued
  have hkept := hloop _ _ _ hqueued
  exact hkept

theorem identity_step [IntentEncoding D] [PayloadEncoding D] (call : ObserverCall D)
    (h : run.engine.productionIdentity.isSome = true) :
    (run.step settings call).engine.productionIdentity.isSome = true := by
  unfold ProductionRun.step
  cases hstopped : run.stopped with
  | some error => exact h
  | none =>
    cases call with
    | engine call =>
      dsimp only
      cases hcall : run.engine.call settings call with
      | error error => exact h
      | ok returned =>
        rw [call_identity hcall]
        exact h
    | dispatch now inputs =>
      dsimp only
      cases hdispatch : Dispatch.dispatchProductionIntents settings inputs run.engine
          run.state with
      | error error => exact h
      | ok returned =>
        obtain ⟨engine', state', result⟩ := returned
        obtain ⟨⟨synchronized, reconciled⟩, hsynchronized, hreplan⟩ := of_bind hdispatch
        rw [← synchronize_identity hsynchronized] at h
        dsimp only at hreplan
        unfold Dispatch.replan at hreplan
        split at hreplan
        · cases hreplan
          exact h
        · obtain ⟨timestamp, -, hreplan⟩ := of_bind hreplan
          obtain ⟨⟨replanned, planned⟩, hreplanned, hreplan⟩ := of_bind hreplan
          dsimp only at hreplan
          split at hreplan
          · cases hreplan
            have hdecided := mapError_eq_ok_iff.mp hreplanned
            unfold DecisionEngine.recomputeAfterProductionUpdates at hdecided
            rw [if_pos h] at hdecided
            have hframe := (constructNextDecision_step hdecided).1
            have hkept : engine'.productionIdentity = synchronized.productionIdentity :=
              (congrArg DecisionEngine.productionIdentity hframe :)
            rw [hkept]
            exact h
          · cases hreplan

theorem keepsReplan_iff [PayloadEncoding D] (call : ObserverCall D)
    (hproduction : run.engine.productionIdentity.isSome = true) :
    KeepsReplan settings run call ↔ EventTimeFresh settings run call := by
  cases call with
  | engine call => exact Iff.rfl
  | dispatch now inputs =>
    unfold KeepsReplan EventTimeFresh
    refine forall_congr' fun _ => forall₂_congr fun engine state => forall_congr' fun hrequires =>
      exists_congr fun timestamp => and_congr_right fun htimestamp => ?_
    have hidentity : engine.productionIdentity.isSome = true := by
      rw [synchronize_identity hrequires.synchronized]
      exact hproduction
    rw [replan_eq hidentity hrequires.required htimestamp]
    constructor
    · intro hkept haccrues hsaved
      cases haccrued : engine.accrueFunding timestamp with
      | error error =>
        rw [haccrued] at haccrues
        cases haccrues
      | ok accrued =>
        by_contra hstale
        have hnone : engine.constructNextDecision settings timestamp inputs.strategy =
            .ok (accrued, none) :=
          constructNextDecision_of_stale haccrued (Option.not_isSome_iff_eq_none.mp hstale)
        rw [hnone] at hkept
        obtain ⟨planned, hplanned, -⟩ :=
          hkept accrued { state with assetsRequiringReplan := ∅ } none (if_pos hsaved)
        cases hplanned
    · intro hfresh replanned cleared result hreplan
      obtain ⟨⟨decided, planned⟩, hdecided, hreplan⟩ := of_bind hreplan
      have hdecision := mapError_eq_ok_iff.mp hdecided
      dsimp only at hreplan
      split at hreplan
      · rename_i hsaved
        cases hreplan
        have haccrues : (engine.accrueFunding timestamp).isOk = true := by
          unfold DecisionEngine.constructNextDecision at hdecision
          obtain ⟨accrued, haccrued, -⟩ := of_bind hdecision
          rw [haccrued]
          rfl
        have hsome := (constructNextDecision_isSome_iff hrequires.metadata hdecision).mpr
          (hfresh haccrues hsaved)
        obtain ⟨decision, rfl⟩ := Option.isSome_iff_exists.mp hsome
        exact ⟨decision, rfl, hdecision⟩
      · cases hreplan

end

def sampleSignerEvents [Sha256] : List (VerifiedReconciliationEvent ℚ) :=
  let hash := Sha256.digest []
  [⟨⟨Bytes.replicate 16 9, 1, hash⟩, .intentAccepted ⟨Bytes.replicate 16 1, 1, hash⟩ 1⟩,
    ⟨⟨Bytes.replicate 16 9, 2, hash⟩, .fill (sampleVerifiedFill "1" .buy 100 0 1700000000000)⟩]

def sampleDispatch [Sha256] : DispatchInputs ℚ where
  queued _ := .ok .retainedForReplay
  events := sampleSignerEvents
  reconciliationFailure := none
  strategy := sampleStrategy 1000
  saved := true

end CopyTrade.Analysis
