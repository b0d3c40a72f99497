import CopyTrade.Analysis.Observer.PendingTargets
import CopyTrade.Model.Observer.UnsignedState

/-!
# The age of the prices of a decision

A decision takes its prices for as old as the clock of its process says.  Prices of a snapshot are
restored as received when that clock showed zero, so a decision made while it shows less than the
maximum age takes them for fresh, however long ago they have been received.
-/

namespace CopyTrade.Analysis

open Foundation Model
open Std (ExtTreeMap)

variable {D : Type} [Decimal D] {S : StrategyTypes}

section

variable [Sha256] [DecimalNormalize D] {settings : EngineSettings D}

theorem decision_prices {engine engine' : DecisionEngine D} {now : ℕ} {strategy : Strategy D}
    {planned : PlannedDecision D}
    (h : engine.constructNextDecision settings now strategy = .ok (engine', some planned)) :
    engine.metadata.isSome = true ∧ ∃ mids receivedAt, engine.mids = some (mids, receivedAt) ∧
      now - receivedAt ≤ settings.sourceSnapshotMaxAgeMs := by
  unfold DecisionEngine.constructNextDecision at h
  obtain ⟨accrued, haccrued, h⟩ := of_bind h
  rw [accrueFunding_eq haccrued] at h
  split at h
  · rename_i fresh metadata hfresh hmetadata
    refine ⟨Option.isSome_iff_exists.mpr ⟨metadata, hmetadata⟩, ?_⟩
    unfold DecisionEngine.freshMids at hfresh
    cases hmids : engine.mids with
    | none =>
      rw [hmids] at hfresh
      cases hfresh
    | some stamped =>
      rw [hmids] at hfresh
      dsimp only at hfresh
      split at hfresh
      · cases hfresh
      · rename_i hyoung
        exact ⟨stamped.1, stamped.2, rfl, not_lt.mp hyoung⟩
  · cases h

end

/-- The prices of the engine carry the time the run knows: that of the clock of this process for
prices it has received, and zero for restored ones. -/
def PricesStamped (run : UnsignedRun D S) : Prop :=
  ∀ mids receivedAt, run.observer.engine.mids = some (mids, receivedAt) →
    if run.midsRestored then receivedAt = 0
    else run.midsReceivedAtMs = some (run.epochMs + receivedAt)

/-- A decision that a call returns uses prices this process has received, and not longer ago than
the maximum age. -/
def UsesFreshPrices [Sha256] [DecimalNormalize D] [IntentEncoding D] (settings : EngineSettings D)
    (run : UnsignedRun D S) : UnsignedCall D S → Prop
  | .engine atMs observed => run.stopped = none → ∀ observer planned,
    run.observer.call settings observed = .ok (observer, some planned) →
      run.midsRestored = false ∧ ∃ receivedAtMs, run.midsReceivedAtMs = some receivedAtMs ∧
        atMs ≤ receivedAtMs + settings.sourceSnapshotMaxAgeMs
  | _ => True

/-- A call that makes the engine decide: with prices of this process it comes before the time it
gives is past, or else before the prices are too old; with restored prices and metadata it comes
only once the clock of the process is beyond the maximum age. -/
def DecidesInPresent [Sha256] [IntentEncoding D] (settings : EngineSettings D)
    (run : UnsignedRun D S) : UnsignedCall D S → Prop
  | .engine atMs observed => run.stopped = none → ∀ engine now strategy,
    decisionPoint settings run.observer.engine observed.call = some (engine, now, strategy) →
      if run.midsRestored then
        run.observer.engine.metadata.isSome = true → settings.sourceSnapshotMaxAgeMs < now
      else ∀ mids receivedAt, run.observer.engine.mids = some (mids, receivedAt) →
        atMs ≤ run.epochMs + max now (receivedAt + settings.sourceSnapshotMaxAgeMs)
  | _ => True

section

variable [Sha256] [DecimalNormalize D] [IntentEncoding D] {settings : EngineSettings D}
  {setup : ObserverSetup S}

theorem observed_engine {observer observer' : UnsignedObserver D S} {observed : ObservedCall D S}
    {planned : Option (PlannedDecision D)}
    (h : observer.call settings observed = .ok (observer', planned)) :
    observer.engine.call settings observed.call = .ok (observer'.engine, planned) := by
  unfold UnsignedObserver.call at h
  obtain ⟨⟨engine, result⟩, hcall, h⟩ := of_bind h
  rw [hcall]
  cases result with
  | none =>
    cases h
    rfl
  | some planned =>
    obtain ⟨decided, hsignals, h⟩ := of_bind h
    cases h
    unfold UnsignedObserver.observeSignals at hsignals
    obtain ⟨expectancyNow, -, hsignals⟩ := of_bind hsignals
    obtain ⟨sourceExpectancy, -, hsignals⟩ := of_bind hsignals
    cases hsignals
    rfl

variable [DecidableEq S.Configuration]

theorem pricesStamped_step (run : UnsignedRun D S) (call : UnsignedCall D S)
    (h : PricesStamped run) : PricesStamped (run.step settings setup call) := by
  cases call with
  | restart epochMs engineInstance productionIdentity =>
    show PricesStamped (run.restart setup epochMs engineInstance productionIdentity)
    unfold UnsignedRun.restart
    cases run.snapshot with
    | none =>
      intro mids receivedAt hmids
      cases hmids
    | some stored =>
      dsimp only
      split
      · intro mids receivedAt hmids
        cases hmids
      · rename_i observer hrestore
        intro mids receivedAt hmids
        unfold UnsignedObserver.restoreUnsignedState at hrestore
        obtain ⟨decoded, -, hrestore⟩ := of_bind hrestore
        obtain ⟨-, -, hrestore⟩ := of_bind hrestore
        unfold UnsignedObserver.takeOver at hrestore
        obtain ⟨expectancyOffset, -, hrestore⟩ := of_bind hrestore
        obtain ⟨ledgerOffset, -, hrestore⟩ := of_bind hrestore
        obtain ⟨previousTarget, -, hrestore⟩ := of_bind hrestore
        cases hrestore
        obtain ⟨stored, -, hsame⟩ := Option.map_eq_some_iff.mp hmids
        cases hsame
        rfl
  | engine atMs observed =>
    unfold UnsignedRun.step
    dsimp only
    split
    · exact h
    split
    · exact h
    · rename_i observer planned hcall
      have hmids : observer.engine.mids = (learned observed.call run.observer.engine).mids :=
        (congrArg DecisionEngine.mids (call_frame (observed_engine hcall)) :)
      unfold UnsignedRun.afterCall
      cases hobserved : observed.call with
      | marketSnapshot mids receivedAt =>
        rw [hobserved] at hmids
        intro mids' receivedAt' hmids'
        rw [hmids] at hmids'
        cases hmids'
        rfl
      | _ =>
        rw [hobserved] at hmids
        intro mids' receivedAt' hmids'
        rw [hmids] at hmids'
        exact h mids' receivedAt' hmids'
  | persist =>
    unfold UnsignedRun.step
    dsimp only
    split
    · exact h
    split
    · exact h
    · rename_i observer envelope hpersist
      unfold UnsignedObserver.persistUnsignedState at hpersist
      obtain ⟨generation, -, hpersist⟩ := of_bind hpersist
      cases hpersist
      exact h

omit [DecidableEq S.Configuration] in
theorem usesFreshPrices_of_present {run : UnsignedRun D S} (call : UnsignedCall D S)
    (hstamped : PricesStamped run) (h : DecidesInPresent settings run call) :
    UsesFreshPrices settings run call := by
  cases call with
  | engine atMs observed =>
    intro hrunning observer planned hcall
    have hengine := observed_engine hcall
    cases hpoint : decisionPoint settings run.observer.engine observed.call with
    | none =>
      have hnone := (call_keeps hengine hpoint).1
      cases hnone
    | some point =>
      obtain ⟨decides, now, strategy⟩ := point
      have hpresent := h hrunning decides now strategy hpoint
      obtain ⟨hmetadata, mids, receivedAt, hmids, hyoung⟩ :=
        decision_prices (call_decides hengine hpoint)
      have hframe := decisionPoint_frame hpoint
      have hsame : decides.mids = run.observer.engine.mids ∧
          decides.metadata = run.observer.engine.metadata := by
        have hmids' := congrArg DecisionEngine.mids hframe
        have hmetadata' := congrArg DecisionEngine.metadata hframe
        generalize observed.call = call at hpoint hmids' hmetadata'
        cases call with
        | orderBook => exact ⟨hmids', hmetadata'⟩
        | decision => exact ⟨hmids', hmetadata'⟩
        | _ => cases hpoint
      rw [hsame.1] at hmids
      rw [hsame.2] at hmetadata
      have hstamp := hstamped mids receivedAt hmids
      cases hwas : run.midsRestored with
      | true =>
        rw [hwas, if_pos rfl] at hstamp hpresent
        have hold := hpresent hmetadata
        omega
      | false =>
        rw [hwas, if_neg Bool.false_ne_true] at hstamp hpresent
        have hcalled := hpresent mids receivedAt hmids
        refine ⟨rfl, run.epochMs + receivedAt, hstamp, ?_⟩
        omega
  | _ => trivial

/-- **Decisions and the age of their prices.**  Where decisions are made in the present, and with
restored prices only once the clock is beyond the maximum age, every decision uses prices received
by this process within the maximum age. -/
theorem fresh_prices_of_present (settings : EngineSettings D) (setup : ObserverSetup S)
    (epochMs : ℕ) (engineInstance : Bytes 16) (identity : Option ProductionIntentIdentity)
    (calls : List (UnsignedCall D S))
    (h : AllSteps (UnsignedRun.step settings setup) (DecidesInPresent settings)
      (UnsignedRun.start setup epochMs engineInstance identity) calls) :
    AllSteps (UnsignedRun.step settings setup) (UsesFreshPrices settings)
      (UnsignedRun.start setup epochMs engineInstance identity) calls := by
  refine allSteps_of_steps (I := PricesStamped) ?_ ?_ ?_ h
  · intro run call hstamped _
    exact pricesStamped_step run call hstamped
  · intro run call hstamped hpresent
    exact usesFreshPrices_of_present call hstamped hpresent
  · intro mids receivedAt hmids
    cases hmids

end

def sampleTypes : StrategyTypes := ⟨Unit, Unit, Unit, Unit⟩

instance : DecidableEq sampleTypes.Configuration := inferInstanceAs (DecidableEq Unit)

def sampleSetup : ObserverSetup sampleTypes where
  identity := ⟨"source", "observer", "configuration", "risk"⟩
  technicalConfiguration := ()
  layerSha256 := none
  assets := ()
  decisionStates := ()
  cohort := ()

theorem noSignals_named (signal : String × ℚ) (h : signal ∈ []) : signal.1.isEmpty = false := by
  simp at h

def sampleObserved (call : EngineCall ℚ) (signals : List (String × ℚ))
    (named : ∀ signal ∈ signals, signal.1.isEmpty = false) : ObservedCall ℚ sampleTypes where
  call
  assets := ()
  funnel := .default
  decisionStates := ()
  cohort := ()
  signals
  named

/-- Prices are received and persisted.  A thousand seconds later a new process restores them, learns
the market and decides. -/
def sampleRestart : List (UnsignedCall ℚ sampleTypes) :=
  [.engine 0 (sampleObserved (.marketSnapshot (ExtTreeMap.ofList [("BTC", 100)] compare) 0) []
      noSignals_named),
    .persist,
    .restart 1000000 (Bytes.replicate 16 0) none,
    .engine 1000000 (sampleObserved (.marketMetadata ⟨["BTC"], ∅⟩ 0) [] noSignals_named)]

def sampleRefreshed : List (UnsignedCall ℚ sampleTypes) :=
  [.engine 1000500 (sampleObserved
      (.marketSnapshot (ExtTreeMap.ofList [("BTC", 101)] compare) 500) [] noSignals_named),
    .engine 1001000 (sampleObserved (.decision 1000 (sampleStrategy 1000)) [] noSignals_named)]

theorem fresh_prices_of_refreshed :
    ∃ (_ : Sha256) (_ : IntentEncoding ℚ),
      AllSteps (UnsignedRun.step sampleEngineSettings sampleSetup)
        (UsesFreshPrices sampleEngineSettings)
        (UnsignedRun.start sampleSetup 0 (Bytes.replicate 16 0) none)
        (sampleRestart ++ sampleRefreshed) := by
  let sha : Sha256 := ⟨foldDigest⟩
  let encoding : IntentEncoding ℚ := ⟨fun _ => .ok []⟩
  refine ⟨sha, encoding, fresh_prices_of_present _ _ _ _ _ _ ?_⟩
  refine ⟨?_, trivial, trivial, ?_, ?_, ?_, trivial⟩
  · rintro - engine now strategy ⟨⟩
  · rintro - engine now strategy ⟨⟩
  · rintro - engine now strategy ⟨⟩
  · rintro - engine now strategy ⟨⟩
    split
    · rename_i hrestored
      revert hrestored
      decide +kernel
    · intro mids receivedAt _
      refine (show 1001000 ≤ 1000000 + 1000 by decide).trans
        (Nat.add_le_add ?_ (le_max_left _ _))
      decide +kernel

/-- Prices of a thousand seconds ago are taken for fresh after a restart. -/
theorem restored_prices_taken_for_fresh :
    ¬ ∀ [Sha256] [DecimalNormalize ℚ] [IntentEncoding ℚ] (settings : EngineSettings ℚ)
        (setup : ObserverSetup sampleTypes) (epochMs : ℕ) (engineInstance : Bytes 16)
        (identity : Option ProductionIntentIdentity) (calls : List (UnsignedCall ℚ sampleTypes)),
      AllSteps (UnsignedRun.step settings setup) (UsesFreshPrices settings)
        (UnsignedRun.start setup epochMs engineInstance identity) calls := by
  intro h
  let sha : Sha256 := ⟨foldDigest⟩
  let encoding : IntentEncoding ℚ := ⟨fun _ => .ok []⟩
  let decision := sampleObserved (.decision 1000 (sampleStrategy 1000)) [] noSignals_named
  let start : UnsignedRun ℚ sampleTypes := .start sampleSetup 0 (Bytes.replicate 16 0) none
  let restarted := run (UnsignedRun.step sampleEngineSettings sampleSetup) start sampleRestart
  have hall := h sampleEngineSettings sampleSetup 0 (Bytes.replicate 16 0) none
    (sampleRestart ++ [.engine 1001000 decision])
  have hfresh := (allSteps_append.mp hall).2.1
  have hrestored : restarted.stopped = none ∧ restarted.midsReceivedAtMs = some 0 ∧
      ((restarted.observer.call sampleEngineSettings decision).toOption.map
        fun called => called.2.isSome) = some true := by
    decide +kernel
  obtain ⟨hrunning, hreceived, hdecides⟩ := hrestored
  cases hcall : restarted.observer.call sampleEngineSettings decision with
  | error error =>
    rw [hcall] at hdecides
    cases hdecides
  | ok called =>
    obtain ⟨observer, planned⟩ := called
    rw [hcall] at hdecides
    cases planned with
    | none => cases hdecides
    | some planned =>
      obtain ⟨-, receivedAtMs, hsome, hage⟩ := hfresh hrunning observer planned hcall
      rw [hreceived] at hsome
      cases hsome
      exact absurd hage (by decide)

end CopyTrade.Analysis
