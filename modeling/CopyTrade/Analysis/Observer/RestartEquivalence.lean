import CopyTrade.Analysis.Ledger.PositionAgreement
import CopyTrade.Analysis.Observer.DecidedTargets
import CopyTrade.Analysis.Observer.PriceAge
import CopyTrade.Analysis.Observer.SignalExpectancy
import CopyTrade.Model.Observer.ShadowFill

/-!
# Restarts of an unsigned observer

A persisted observer and one that has restored its snapshot in a new process are in the same state,
where the snapshot has a price for every position and the last decision names every asset of the
target ledger.  All other checks of a restore hold of every observer a run reaches.
A fill reaches the ledger through its mutators, so it keeps what each of their calls keeps.
-/

namespace CopyTrade.Analysis

open Foundation Model
open Std (ExtTreeMap)

section

variable {D : Type} [Decimal D] [Sha256] {P : DualLedger D → Prop}

def KeptByCalls (P : DualLedger D → Prop) : Prop :=
  ∀ ledger next call, P ledger → ledger.call call = .ok next → P next

omit [Decimal D] [Sha256] in
def onSource : LedgerCall D → Bool
  | .sourceExecution _ _ _ | .sourceAttributionResidual _ _ _ | .sourceEconomicResiduals _ _ _ =>
    true
  | _ => false

def KeptBySources (P : DualLedger D → Prop) : Prop :=
  ∀ ledger next call, onSource call = true → P ledger → ledger.call call = .ok next → P next

variable {closedAt : ℕ} {execution : IocExecution D} {episodes : List (SourceEpisode D)}
  {ledger : DualLedger D} {attempt : ShadowAttempt D} {partition : ComponentFillPartition D}
  {report : ShadowFillReport D}

theorem kept_bookShare (hkept : KeptBySources P)
    {booked next : DualLedger D × List (SourceEpisode D)} {share : String × D} (h : P booked.1)
    (hshare : bookShare execution closedAt booked share = .ok next) : P next.1 := by
  unfold bookShare at hshare
  obtain ⟨source, -, hshare⟩ := of_bind hshare
  obtain ⟨ledger, hledger, hshare⟩ := of_bind hshare
  rw [pure_eq_ok_iff] at hshare
  subst hshare
  exact hkept booked.1 ledger (.sourceExecution share.1 source.booked closedAt) rfl h
    (mapError_eq_ok_iff.mp hledger)

theorem kept_bookShares (hkept : KeptBySources P) {shares : List (String × D)}
    {booked next : DualLedger D × List (SourceEpisode D)} (h : P booked.1)
    (hshares : shares.foldlM (bookShare execution closedAt) booked = .ok next) : P next.1 := by
  induction shares generalizing booked with
  | nil =>
    rw [List.foldlM_nil, pure_eq_ok_iff] at hshares
    subst hshares
    exact h
  | cons share shares ih =>
    obtain ⟨middle, hshare, hrest⟩ := foldlM_cons_eq_ok_iff.mp hshares
    exact ih (kept_bookShare hkept h hshare) hrest

omit [Sha256] in
theorem correctAnchor_ledger (ledger : DualLedger D) (episodes : List (SourceEpisode D))
    (anchor : ℕ × SourceEpisode D) : (correctAnchor ledger episodes anchor).1 = ledger := by
  unfold correctAnchor
  split <;> rfl

theorem kept_assignResiduals (hkept : KeptBySources P)
    {portfolio attributed residuals : EpisodeFigures D}
    {assigned : DualLedger D × List (SourceEpisode D) × EpisodeFigures D} (h : P ledger)
    (hassigned : assignEconomicResiduals ledger episodes portfolio attributed residuals =
      .ok assigned) : P assigned.1 := by
  unfold assignEconomicResiduals at hassigned
  split at hassigned
  · cases hassigned
    exact h
  split at hassigned
  · cases hassigned
  · rename_i anchor _
    obtain ⟨corrected, hcorrected, hassigned⟩ := of_bind hassigned
    rw [pure_eq_ok_iff] at hassigned
    subst hassigned
    rw [correctAnchor_ledger]
    exact hkept ledger corrected (.sourceEconomicResiduals anchor.2.candidateId
      anchor.2.sourceEpisodeId _) rfl h (mapError_eq_ok_iff.mp hcorrected)

variable {episode : PortfolioEpisode D} {reconciled : DualLedger D × List (SourceEpisode D)}

theorem kept_reconcileNet (hkept : KeptBySources P) {maximumResidual : D} (h : P ledger)
    (hnet : reconcileNet ledger episode episodes maximumResidual = .ok reconciled) :
    P reconciled.1 := by
  unfold reconcileNet at hnet
  obtain ⟨net, -, hnet⟩ := of_bind hnet
  split at hnet
  · rw [pure_eq_ok_iff] at hnet
    subst hnet
    exact h
  obtain ⟨residual, -, hnet⟩ := of_bind hnet
  split at hnet
  · cases hnet
  split at hnet
  · cases hnet
  · rename_i anchor _
    obtain ⟨corrected, hcorrected, hnet⟩ := of_bind hnet
    obtain ⟨finalNet, -, hnet⟩ := of_bind hnet
    split at hnet
    · rw [pure_eq_ok_iff] at hnet
      have hledger : (correctAnchor corrected episodes anchor).1 = reconciled.1 :=
        congrArg Prod.fst hnet
      rw [← hledger, correctAnchor_ledger]
      exact hkept ledger corrected (.sourceAttributionResidual anchor.2.candidateId
        anchor.2.sourceEpisodeId residual) rfl h (mapError_eq_ok_iff.mp hcorrected)
    · cases hnet

theorem kept_reconcileEpisode (hkept : KeptBySources P) (h : P ledger)
    (hreconcile : reconcileEpisode ledger episode episodes = .ok reconciled) : P reconciled.1 := by
  unfold reconcileEpisode at hreconcile
  obtain ⟨attributed, -, hreconcile⟩ := of_bind hreconcile
  obtain ⟨residuals, -, hreconcile⟩ := of_bind hreconcile
  obtain ⟨-, -, hreconcile⟩ := of_bind hreconcile
  obtain ⟨assigned, hassigned, hreconcile⟩ := of_bind hreconcile
  obtain ⟨-, -, hreconcile⟩ := of_bind hreconcile
  exact kept_reconcileNet hkept (kept_assignResiduals hkept h hassigned) hreconcile

theorem settled_of_portfolio (hkept : KeptBySources P)
    (hexecuted : ∀ executed, ledger.applyPortfolioExecution execution.booked closedAt
      = .ok executed → P executed)
    (hsettle : settleExecution ledger attempt execution closedAt partition = .ok report) :
    P report.ledger := by
  unfold settleExecution at hsettle
  obtain ⟨⟨booked, closedEpisode, episodes⟩, hbooked, hsettle⟩ := of_bind hsettle
  obtain ⟨⟨reconciled, attributions⟩, hreconciled, hsettle⟩ := of_bind hsettle
  obtain ⟨-, -, hsettle⟩ := of_bind hsettle
  rw [pure_eq_ok_iff] at hsettle
  subst hsettle
  have hkeptBooked : P booked := by
    unfold bookExecution at hbooked
    obtain ⟨portfolio, hportfolio, hbooked⟩ := of_bind hbooked
    obtain ⟨shared, hshares, hbooked⟩ := of_bind hbooked
    rw [pure_eq_ok_iff, Prod.mk.injEq] at hbooked
    rw [← hbooked.1]
    apply kept_bookShares hkept _ hshares
    exact hexecuted portfolio (mapError_eq_ok_iff.mp hportfolio)
  cases closedEpisode with
  | none =>
    rw [pure_eq_ok_iff, Prod.mk.injEq] at hreconciled
    rw [← hreconciled.1]
    exact hkeptBooked
  | some episode => exact kept_reconcileEpisode hkept hkeptBooked hreconciled

/-- **What every ledger call keeps, a fill keeps.** -/
theorem kept_settleExecution (hkept : KeptByCalls P) (h : P ledger)
    (hsettle : settleExecution ledger attempt execution closedAt partition = .ok report) :
    P report.ledger := by
  apply settled_of_portfolio (fun before next call _ => hkept before next call) _ hsettle
  intro executed hexecuted
  exact hkept ledger executed (.portfolioExecution execution.booked closedAt) h hexecuted

omit [Decimal D] [Sha256] in
theorem portfolio_of_edit {next : DualLedger D} {candidateId : String} {episodeId : EpisodeId}
    {edit : PortfolioEpisode D → Except LedgerError (PortfolioEpisode D)}
    (h : ledger.editLastSourceEpisode candidateId episodeId edit = .ok next) :
    next.portfolio = ledger.portfolio := by
  unfold DualLedger.editLastSourceEpisode at h
  split at h
  · cases h
  split at h
  · cases h
  split at h
  · cases h
  obtain ⟨edited, -, h⟩ := of_bind h
  rw [pure_eq_ok_iff] at h
  rw [← h]

theorem kept_portfolio (portfolio : EpisodeBook D) :
    KeptBySources fun ledger => ledger.portfolio = portfolio := by
  intro ledger next call hsource hportfolio h
  rw [← hportfolio]
  cases call with
  | sourceExecution candidateId execution closedAt =>
    obtain ⟨book, -, h⟩ := of_bind h
    rw [pure_eq_ok_iff] at h
    rw [← h]
  | sourceAttributionResidual candidateId episodeId residual => exact portfolio_of_edit h
  | sourceEconomicResiduals candidateId episodeId residuals => exact portfolio_of_edit h
  | _ => cases hsource

theorem portfolio_settleExecution
    (hsettle : settleExecution ledger attempt execution closedAt partition = .ok report) :
    ledger.portfolio.apply execution.booked closedAt = .ok report.ledger.portfolio := by
  apply settled_of_portfolio (P := fun after =>
    ledger.portfolio.apply execution.booked closedAt = .ok after.portfolio) _ _ hsettle
  · intro before next call hsource hbefore h
    rw [kept_portfolio before.portfolio before next call hsource rfl h]
    exact hbefore
  · intro executed hexecuted
    unfold DualLedger.applyPortfolioExecution at hexecuted
    obtain ⟨portfolio, hportfolio, hexecuted⟩ := of_bind hexecuted
    rw [pure_eq_ok_iff] at hexecuted
    rw [← hexecuted]
    exact hportfolio

end

variable {D : Type} [Decimal D] {S : StrategyTypes}

section

variable [DecimalSumLaws D] [Sha256] {settings : EngineSettings D}
  {engine engine' : DecisionEngine D}

theorem ledgerAgrees_fillPending {pending : PendingAction D} {book : OrderBookResponse D}
    {receivedAt : ℕ} {evaluation : ShadowMarketSnapshot D} {order : SizedOrder D}
    {technicalDesired : D} {recompute : ExecutionRecompute} (hagrees : LedgerAgrees engine.ledger)
    (h : engine.fillPending settings pending book receivedAt evaluation order technicalDesired
      = .ok (engine', recompute)) : LedgerAgrees engine'.ledger := by
  unfold DecisionEngine.fillPending at h
  obtain ⟨accrued, haccrued, h⟩ := of_bind h
  obtain ⟨⟨execution, closedAt⟩, -, h⟩ := of_bind h
  obtain ⟨componentTargets, -, h⟩ := of_bind h
  obtain ⟨partition, -, h⟩ := of_bind h
  obtain ⟨report, hreport, h⟩ := of_bind h
  obtain ⟨continuations, -, h⟩ := of_bind h
  rw [pure_eq_ok_iff, Prod.mk.injEq] at h
  rw [← h.1]
  refine kept_settleExecution (fun _ _ _ hledger hcall => ledgerAgrees_call hledger hcall) ?_
    (mapError_eq_ok_iff.mp hreport)
  rw [accrueFunding_eq haccrued]
  exact hagrees

variable [DecimalNormalize D] [IntentEncoding D] {call : EngineCall D}
  {result : Option (PlannedDecision D)}

theorem ledgerAgrees_engineCall (hagrees : LedgerAgrees engine.ledger)
    (h : engine.call settings call = .ok (engine', result)) : LedgerAgrees engine'.ledger := by
  have hframed {before after : DecisionEngine D} (hframe : frameOf after = frameOf before)
      (hbefore : LedgerAgrees before.ledger) : LedgerAgrees after.ledger := by
    have hledger : after.ledger = before.ledger := (congrArg DecisionEngine.ledger hframe :)
    rwa [hledger]
  cases call with
  | decision now strategy => exact hframed (constructNextDecision_step h).1 hagrees
  | orderBook book receivedAt technicalDesired strategy =>
    obtain ⟨executed, recompute, hexecuted, hframe⟩ := call_orderBook h
    refine hframed hframe ?_
    cases hexecuted with
    | idle => exact hagrees
    | dropped => exact hagrees
    | emits pending evaluation order identity _ ready production emits =>
      rcases emitIntent_cases emits with ⟨-, rfl⟩ | ⟨-, intent, -, rfl⟩
      · exact hagrees
      · exact hagrees
    | fills pending evaluation order _ _ ready shadow fills =>
      exact ledgerAgrees_fillPending (by exact hagrees) fills
  | marketMetadata metadata receivedAt =>
    obtain ⟨accrued, haccrued, h⟩ := of_bind h
    cases h
    rw [accrueFunding_eq haccrued]
    exact hagrees
  | equityBoundary now =>
    obtain ⟨accrued, haccrued, h⟩ := of_bind h
    cases h
    rw [accrueFunding_eq haccrued]
    exact hagrees
  | _ =>
    cases h
    exact hagrees

end

/-- What the checks of a restore need of a stored state. -/
structure StorableState (setup : ObserverSetup S) (state : UnsignedObserverState D S) : Prop where
  ledger : LedgerAgrees state.ledger
  targets : ∃ version targets, TargetsOf state.targetLedger version targets
  signals : SoundSignals state.sourceExpectancyTimeHighWatermark state.sourceExpectancy
  configuration : state.technicalEngine.configuration = setup.technicalConfiguration
  layer : state.veryProfitableLayerArtifactSha256 = setup.layerSha256

structure SoundObserver [Sha256] [DecimalNormalize D] (setup : ObserverSetup S)
    (observer : UnsignedObserver D S) (targets : Option (ExtTreeMap String D)) : Prop where
  ledger : LedgerAgrees observer.engine.ledger
  targets : TargetsDecided observer.engine targets
  signals : SoundSignals observer.sourceExpectancyTimeHighWatermark observer.sourceExpectancy
  configuration : observer.technicalEngine.configuration = setup.technicalConfiguration
  layer : observer.veryProfitableLayerSha256 = setup.layerSha256

structure SoundRun [Sha256] [DecimalNormalize D] (setup : ObserverSetup S)
    (run : UnsignedRun D S) : Prop where
  observer : SoundObserver setup run.observer run.lastTargets
  snapshot : ∀ envelope receivedAtMs, run.snapshot = some (envelope, receivedAtMs) →
    StorableState setup envelope.payload

/-- The snapshot of an observer can be restored and says all there is to say: there is a price for
every position, the last decision names an asset and every asset of the target ledger, and there is
a next generation and a next time. -/
structure SnapshotComplete (run : UnsignedRun D S) : Prop where
  marks : ∀ asset : String, asset ∈ run.observer.engine.ledger.portfolio.positions →
    ∃ mids receivedAt, run.observer.engine.mids = some (mids, receivedAt) ∧ asset ∈ mids
  targets : ∀ targets, run.lastTargets = some targets → targets.isEmpty = false ∧
    ∀ asset : String, asset ∈ run.observer.engine.targetLedger.assets → asset ∈ targets
  generation : ∀ generation, run.observer.snapshotGeneration = some generation →
    generation < maxU64
  signalTime : run.observer.sourceExpectancyTimeHighWatermark < maxU64
  ledgerTime : run.observer.engine.ledgerTimeHighWatermark < maxU64

/-- The state of a restored observer is that of the persisted one.  The counters of the technical
engine start again. -/
structure SameState (observer restored : UnsignedObserver D S) : Prop where
  ledger : restored.engine.ledger = observer.engine.ledger
  targetLedger : restored.engine.targetLedger = observer.engine.targetLedger
  technicalEngine : restored.technicalEngine = observer.technicalEngine.resetFunnel
  technicalDecisionState : restored.technicalDecisionState = observer.technicalDecisionState
  veryProfitableEngine : restored.veryProfitableEngine = observer.veryProfitableEngine
  decisionSequence : restored.engine.decisionSequence = observer.engine.decisionSequence
  accruedFunding : restored.engine.accruedFunding = observer.engine.accruedFunding
  sourceExpectancy : restored.sourceExpectancy = observer.sourceExpectancy
  retries : ∀ (asset : String) (pending : PendingAction D),
    observer.engine.pending[asset]? = some pending → 0 < pending.action.retryGeneration →
      restored.engine.continuations[asset]? = some pending.asContinuation
  previousTarget : restored.engine.previousTarget = observer.engine.previousTarget

/-- An observer can be persisted, and a fresh engine with the same settings, layer and identity
restores its snapshot to the same state. -/
def RestartEquivalent [Sha256] [DecimalNormalize D] [DecidableEq S.Configuration]
    (setup : ObserverSetup S) (observer : UnsignedObserver D S) : Prop :=
  ∀ (engineInstance : Bytes 16) (identity : Option ProductionIntentIdentity),
    ∃ persisted envelope restored,
      observer.persistUnsignedState setup.identity = .ok (persisted, envelope) ∧
      (setup.fresh engineInstance identity).restoreUnsignedState envelope setup.identity =
        .ok restored ∧
      SameState observer restored

section

variable [DecimalSumLaws D] [Sha256] [DecimalNormalize D] {setup : ObserverSetup S}

omit [Sha256] [DecimalNormalize D] in
theorem validateState_of_sound [DecidableEq S.Configuration] {observer : UnsignedObserver D S}
    {state : UnsignedObserverState D S} (hsound : StorableState setup state)
    (hconfiguration : observer.technicalConfiguration = setup.technicalConfiguration)
    (hlayer : observer.veryProfitableLayerSha256 = setup.layerSha256)
    (hmarks : ∀ asset : String, asset ∈ state.ledger.portfolio.positions →
      ∃ mids, state.lastMids = some mids ∧ asset ∈ mids) :
    observer.validateState state = .ok () := by
  obtain ⟨version, targets, htargets⟩ := hsound.targets
  unfold UnsignedObserver.validateState
  rw [validateIntegrity_of_ledgerAgrees hsound.ledger, validateIntegrity_of_targetsOf htargets]
  refine bind_eq_ok_iff.mpr ⟨(), rfl, bind_eq_ok_iff.mpr ⟨(), rfl, bind_eq_ok_iff.mpr
    ⟨(), validateSignals_of_sound hsound.signals, ?_⟩⟩⟩
  rw [if_neg (by simp [hsound.configuration, hconfiguration]),
    if_neg (by simp [hsound.layer, hlayer]), checkAll_eq_ok_iff]
  intro asset hasset
  obtain ⟨mids, hmids, hmark⟩ := hmarks asset (ExtTreeMap.mem_keys.mp hasset)
  obtain ⟨mark, hmark⟩ := (mem_iff_exists _ _).mp hmark
  unfold UnsignedObserver.validateMark
  rw [hmids, Option.bind_some, hmark]
  rfl

omit [DecimalSumLaws D] in
theorem storableState_of_observer {observer : UnsignedObserver D S}
    {targets : Option (ExtTreeMap String D)} (h : SoundObserver setup observer targets) :
    StorableState setup observer.unsignedState where
  ledger := h.ledger
  targets := targetsOf_of_decided h.targets
  signals := h.signals
  configuration := h.configuration
  layer := h.layer

omit [DecimalSumLaws D] [Sha256] [DecimalNormalize D] in
theorem persistedContinuations_retry {engine : DecisionEngine D} {asset : String}
    {pending : PendingAction D} (hpending : engine.pending[asset]? = some pending)
    (hretry : 0 < pending.action.retryGeneration) :
    engine.persistedContinuations[asset]? = some pending.asContinuation := by
  unfold DecisionEngine.persistedContinuations
  have hstored := getElem?_foldl_insert_if
    (p := fun pending : PendingAction D => 0 < pending.action.retryGeneration)
    (g := PendingAction.asContinuation) engine.pending engine.continuations asset
  rw [hpending] at hstored
  dsimp only at hstored
  rw [if_pos hretry] at hstored
  exact hstored

theorem restartEquivalent_of_complete [DecidableEq S.Configuration] {run : UnsignedRun D S}
    (hsound : SoundObserver setup run.observer run.lastTargets) (h : SnapshotComplete run) :
    RestartEquivalent setup run.observer := by
  intro engineInstance identity
  obtain ⟨generation, hgeneration⟩ : ∃ generation, run.observer.nextGeneration = .ok generation := by
    unfold UnsignedObserver.nextGeneration
    cases hprevious : run.observer.snapshotGeneration with
    | none => exact ⟨0, rfl⟩
    | some previous =>
      refine ⟨previous + 1, orArithmetic_eq_ok_iff.mpr (checkedAddU64_eq_some_iff.mpr ⟨rfl, ?_⟩)⟩
      exact h.generation previous hprevious
  have hexpectancyTime : orArithmetic (checkedAddU64
      run.observer.sourceExpectancyTimeHighWatermark 1) =
      .ok (run.observer.sourceExpectancyTimeHighWatermark + 1) :=
    orArithmetic_eq_ok_iff.mpr (checkedAddU64_eq_some_iff.mpr ⟨rfl, h.signalTime⟩)
  have hledgerTime : orArithmetic (checkedAddU64
      run.observer.engine.ledgerTimeHighWatermark 1) =
      .ok (run.observer.engine.ledgerTimeHighWatermark + 1) :=
    orArithmetic_eq_ok_iff.mpr (checkedAddU64_eq_some_iff.mpr ⟨rfl, h.ledgerTime⟩)
  have hprevious := rebuiltPreviousTarget_eq hsound.targets h.targets
  let fresh : UnsignedObserver D S := setup.fresh engineInstance identity
  have hvalid : fresh.validateState run.observer.unsignedState = .ok () := by
    refine validateState_of_sound (storableState_of_observer hsound) rfl rfl ?_
    intro asset hasset
    obtain ⟨mids, receivedAt, hmids, hmark⟩ := h.marks asset hasset
    exact ⟨mids, congrArg (Option.map Prod.fst) hmids, hmark⟩
  obtain ⟨restored, hrestored, hsame⟩ : ∃ restored,
      fresh.takeOver generation run.observer.unsignedState = .ok restored ∧
        SameState run.observer restored := by
    refine ⟨_, bind_eq_ok_iff.mpr ⟨_, hexpectancyTime, bind_eq_ok_iff.mpr
      ⟨_, hledgerTime, bind_eq_ok_iff.mpr ⟨_, hprevious, rfl⟩⟩⟩, ?_⟩
    exact ⟨rfl, rfl, rfl, rfl, rfl, rfl, rfl, rfl,
      fun _ _ hpending hretry => persistedContinuations_retry hpending hretry, rfl⟩
  let envelope : UnsignedSnapshotEnvelope D S :=
    ⟨unsignedSnapshotSchemaVersion, generation, setup.identity, run.observer.unsignedState⟩
  have hdecoded : UnsignedObserver.decodeUnsignedSnapshot envelope setup.identity =
      .ok envelope := by
    unfold UnsignedObserver.decodeUnsignedSnapshot
    rw [if_neg (by simp [envelope]), if_neg (by simp [envelope])]
  exact ⟨{ run.observer with snapshotGeneration := some generation }, envelope, restored,
    bind_eq_ok_iff.mpr ⟨generation, hgeneration, rfl⟩,
    bind_eq_ok_iff.mpr ⟨envelope, hdecoded, bind_eq_ok_iff.mpr ⟨(), hvalid, hrestored⟩⟩, hsame⟩

end

section

variable [DecimalSumLaws D] [DecimalSignLaws D] [Sha256] [DecimalNormalize D]
  {settings : EngineSettings D} {setup : ObserverSetup S}

omit [DecimalSignLaws D] [DecimalSumLaws D] in
theorem soundObserver_fresh (setup : ObserverSetup S) (engineInstance : Bytes 16)
    (identity : Option ProductionIntentIdentity) :
    SoundObserver setup (setup.fresh engineInstance identity : UnsignedObserver D S) none where
  ledger := ledgerAgrees_empty
  targets := ⟨rfl, rfl⟩
  signals asset state hget := by
    have hempty : (∅ : ExtTreeMap String (SourceExpectancyState D))[asset]? = some state := hget
    rw [ExtTreeMap.getElem?_empty] at hempty
    cases hempty
  configuration := rfl
  layer := rfl

omit [DecimalSignLaws D] [DecimalSumLaws D] in
theorem soundObserver_restored [DecidableEq S.Configuration] {fresh restored : UnsignedObserver D S}
    {envelope : UnsignedSnapshotEnvelope D S} (hstored : StorableState setup envelope.payload)
    (hlayer : fresh.veryProfitableLayerSha256 = setup.layerSha256)
    (h : fresh.restoreUnsignedState envelope setup.identity = .ok restored) :
    SoundObserver setup restored (restored.engine.previousTarget.map fun _ =>
      restored.engine.targetLedger.admittedTargets) := by
  unfold UnsignedObserver.restoreUnsignedState at h
  obtain ⟨decoded, hdecoded, h⟩ := of_bind h
  obtain ⟨-, -, htaken⟩ := of_bind h
  have hsame : decoded = envelope := by
    unfold UnsignedObserver.decodeUnsignedSnapshot at hdecoded
    split at hdecoded
    · cases hdecoded
    · split at hdecoded
      · cases hdecoded
      · exact (Except.ok.inj hdecoded).symm
  subst hsame
  unfold UnsignedObserver.takeOver at htaken
  obtain ⟨expectancyOffset, -, htaken⟩ := of_bind htaken
  obtain ⟨ledgerOffset, -, htaken⟩ := of_bind htaken
  obtain ⟨previousTarget, hprevious, htaken⟩ := of_bind htaken
  rw [pure_eq_ok_iff] at htaken
  subst htaken
  exact ⟨hstored.ledger, targetsDecided_rebuilt hstored.targets hprevious rfl, hstored.signals,
    hstored.configuration, hlayer⟩

variable [IntentEncoding D]

theorem soundObserver_call {observer observer' : UnsignedObserver D S}
    {observed : ObservedCall D S} {targets : Option (ExtTreeMap String D)}
    {planned : Option (PlannedDecision D)} (hsound : SoundObserver setup observer targets)
    (h : observer.call settings observed = .ok (observer', planned)) :
    SoundObserver setup observer' ((planned.map fun planned =>
      planned.decision.projection.constrainedTargets).or targets) := by
  have hengine := observed_engine h
  have hledger := ledgerAgrees_engineCall hsound.ledger hengine
  have htargets := call_targets hsound.targets hengine
  unfold UnsignedObserver.call at h
  obtain ⟨⟨engine, result⟩, -, h⟩ := of_bind h
  cases result with
  | none =>
    cases h
    exact ⟨hledger, htargets, hsound.signals, hsound.configuration, hsound.layer⟩
  | some planned =>
    obtain ⟨decided, hsignals, h⟩ := of_bind h
    cases h
    have hsignalsSound := observeSignals_sound observed.named (by exact hsound.signals) hsignals
    unfold UnsignedObserver.observeSignals at hsignals
    obtain ⟨expectancyNow, -, hsignals⟩ := of_bind hsignals
    obtain ⟨sourceExpectancy, -, hsignals⟩ := of_bind hsignals
    cases hsignals
    exact ⟨hledger, htargets, hsignalsSound, hsound.configuration, hsound.layer⟩

variable [DecidableEq S.Configuration]

theorem soundRun_step (run : UnsignedRun D S) (call : UnsignedCall D S) (h : SoundRun setup run) :
    SoundRun setup (run.step settings setup call) := by
  cases call with
  | restart epochMs engineInstance identity =>
    show SoundRun setup (run.restart setup epochMs engineInstance identity)
    unfold UnsignedRun.restart
    have hfresh : SoundObserver setup (setup.fresh engineInstance identity : UnsignedObserver D S)
        none := soundObserver_fresh setup engineInstance identity
    cases hsnapshot : run.snapshot with
    | none => exact ⟨hfresh, fun _ _ hnone => nomatch hnone⟩
    | some stored =>
      obtain ⟨envelope, receivedAtMs⟩ := stored
      have hstored := h.snapshot envelope receivedAtMs hsnapshot
      have hkept : ∀ stored receivedAt, some (envelope, receivedAtMs) = some (stored, receivedAt) →
          StorableState setup stored.payload := by
        rintro stored receivedAt ⟨⟩
        exact hstored
      dsimp only
      split
      · exact ⟨hfresh, hkept⟩
      · rename_i restored hrestored
        exact ⟨soundObserver_restored hstored rfl hrestored, hkept⟩
  | engine atMs observed =>
    unfold UnsignedRun.step
    dsimp only
    split
    · exact h
    split
    · exact ⟨h.observer, h.snapshot⟩
    · rename_i observer planned hcall
      have hsound := soundObserver_call h.observer hcall
      unfold UnsignedRun.afterCall
      cases observed.call with
      | _ => exact ⟨hsound, h.snapshot⟩
  | persist =>
    unfold UnsignedRun.step
    dsimp only
    split
    · exact h
    split
    · exact ⟨h.observer, h.snapshot⟩
    · rename_i observer envelope hpersist
      unfold UnsignedObserver.persistUnsignedState at hpersist
      obtain ⟨generation, -, hpersist⟩ := of_bind hpersist
      cases hpersist
      refine ⟨⟨h.observer.ledger, ?_, h.observer.signals, h.observer.configuration,
        h.observer.layer⟩, ?_⟩
      · exact h.observer.targets
      · rintro stored receivedAt ⟨⟩
        exact storableState_of_observer h.observer

/-- **Restart equivalence.**  In every state of a run whose snapshot is complete, the observer can be
persisted and is restored to the same state. -/
theorem restart_equivalent (settings : EngineSettings D) (setup : ObserverSetup S) (epochMs : ℕ)
    (engineInstance : Bytes 16) (identity : Option ProductionIntentIdentity)
    (calls : List (UnsignedCall D S)) :
    ∀ run ∈ states (UnsignedRun.step settings setup)
        (UnsignedRun.start setup epochMs engineInstance identity) calls,
      SnapshotComplete run → RestartEquivalent setup run.observer := by
  intro run hrun hcomplete
  have hsound : SoundRun setup run := by
    refine forall_states_of_steps (I := SoundRun setup) (C := fun _ _ => True) ?_ ?_
      (allSteps_of_forall (fun _ _ => trivial) _ calls) run hrun
    · intro run call h _
      exact soundRun_step run call h
    · exact ⟨soundObserver_fresh setup engineInstance identity, fun _ _ hnone => nomatch hnone⟩
  exact restartEquivalent_of_complete hsound.observer hcomplete

end

def sampleMarket : List (UnsignedCall ℚ sampleTypes) :=
  [.engine 0 (sampleObserved (.marketMetadata ⟨["BTC", "ETH"], ∅⟩ 0) [] noSignals_named),
    .engine 0 (sampleObserved (.marketSnapshot
      (ExtTreeMap.ofList [("BTC", 100), ("ETH", 100)] compare) 0) [] noSignals_named)]

def sampleOneAsset (now : ℕ) : UnsignedCall ℚ sampleTypes :=
  .engine now (sampleObserved (.decision now (sampleStrategy 1000)) [] noSignals_named)

def sampleTwoAssets (now : ℕ) : UnsignedCall ℚ sampleTypes :=
  .engine now (sampleObserved (.decision now fun _ => .ok { sampleAllocated 1000 with
    marketRules := ExtTreeMap.ofList [("BTC", sampleRules 100 hundred_positive),
      ("ETH", sampleRules 100 hundred_positive)] compare
    unconstrainedTargets := ExtTreeMap.ofList [("BTC", 1000), ("ETH", 0)] compare
    admittedTargets := ExtTreeMap.ofList [("BTC", 1000), ("ETH", 0)] compare
    executionFloors := ExtTreeMap.ofList [("BTC", ⟨100, 1 / 10, 10, 11⟩),
      ("ETH", ⟨100, 1 / 10, 10, 11⟩)] compare }) [] noSignals_named)

def sampleObserverRun [Sha256] [IntentEncoding ℚ] (calls : List (UnsignedCall ℚ sampleTypes)) :
    UnsignedRun ℚ sampleTypes :=
  run (UnsignedRun.step sampleEngineSettings sampleSetup)
    (UnsignedRun.start sampleSetup 0 (Bytes.replicate 16 0) none) calls

/-- An observer that has decided on both assets restarts to the same state. -/
theorem restart_equivalent_two_assets :
    ∃ (_ : Sha256) (_ : IntentEncoding ℚ),
      RestartEquivalent sampleSetup
        (sampleObserverRun (sampleMarket ++ [sampleOneAsset 0, sampleTwoAssets 10])).observer := by
  let sha : Sha256 := ⟨foldDigest⟩
  let encoding : IntentEncoding ℚ := ⟨fun _ => .ok []⟩
  let decided := sampleObserverRun (sampleMarket ++ [sampleOneAsset 0, sampleTwoAssets 10])
  refine ⟨sha, encoding, restart_equivalent sampleEngineSettings sampleSetup 0
    (Bytes.replicate 16 0) none (sampleMarket ++ [sampleOneAsset 0, sampleTwoAssets 10]) decided
    (run_mem_states _ _) ?_⟩
  have hcomplete : decided.observer.engine.ledger.portfolio.positions.keys = [] ∧
      decided.lastTargets.map ExtTreeMap.keys = some ["BTC", "ETH"] ∧
      decided.observer.engine.targetLedger.assets.keys = ["BTC", "ETH"] ∧
      decided.observer.snapshotGeneration = none ∧
      decided.observer.sourceExpectancyTimeHighWatermark < maxU64 ∧
      decided.observer.engine.ledgerTimeHighWatermark < maxU64 := by
    decide +kernel
  obtain ⟨hpositions, htargets, hassets, hgeneration, hsignal, hledger⟩ := hcomplete
  refine ⟨?_, ?_, ?_, hsignal, hledger⟩
  · intro asset hasset
    rw [← ExtTreeMap.mem_keys, hpositions] at hasset
    cases hasset
  · intro targets hlast
    rw [hlast, Option.map_some, Option.some.injEq] at htargets
    refine ⟨?_, fun asset hasset => ?_⟩
    · rw [← ExtTreeMap.isEmpty_keys, htargets]
      rfl
    · rw [← ExtTreeMap.mem_keys, htargets, ← hassets, ExtTreeMap.mem_keys]
      exact hasset
  · intro generation hsome
    rw [hgeneration] at hsome
    cases hsome

/-- The second decision does not name ETH, which the target ledger still knows.  The rebuilt hash is
that of both assets. -/
theorem restart_forgets_named_assets :
    ¬ ∀ [Sha256] [DecimalNormalize ℚ] [IntentEncoding ℚ] (settings : EngineSettings ℚ)
        (setup : ObserverSetup sampleTypes) (epochMs : ℕ) (engineInstance : Bytes 16)
        (identity : Option ProductionIntentIdentity) (calls : List (UnsignedCall ℚ sampleTypes)),
      ∀ run ∈ states (UnsignedRun.step settings setup)
          (UnsignedRun.start setup epochMs engineInstance identity) calls,
        RestartEquivalent setup run.observer := by
  intro h
  let sha : Sha256 := ⟨foldDigest⟩
  let encoding : IntentEncoding ℚ := ⟨fun _ => .ok []⟩
  let decided := sampleObserverRun (sampleMarket ++ [sampleTwoAssets 0, sampleOneAsset 10])
  obtain ⟨persisted, envelope, restored, hpersisted, hrestored, hsame⟩ :=
    h sampleEngineSettings sampleSetup 0 (Bytes.replicate 16 0) none
      (sampleMarket ++ [sampleTwoAssets 0, sampleOneAsset 10]) decided (run_mem_states _ _)
      (Bytes.replicate 16 0) none
  have hdiffers : ((decided.observer.persistUnsignedState sampleSetup.identity).toOption.bind
      fun stored => ((sampleSetup.fresh (Bytes.replicate 16 0) none).restoreUnsignedState stored.2
        sampleSetup.identity).toOption.map fun restored =>
          decide (restored.engine.previousTarget.map PreviousTargetState.targetHash =
            decided.observer.engine.previousTarget.map PreviousTargetState.targetHash)) =
      some false := by
    decide +kernel
  rw [hpersisted] at hdiffers
  dsimp only [Except.toOption, Option.bind_some] at hdiffers
  rw [hrestored] at hdiffers
  dsimp only [Except.toOption, Option.map_some] at hdiffers
  rw [hsame.previousTarget, decide_eq_true rfl] at hdiffers
  cases hdiffers

end CopyTrade.Analysis
