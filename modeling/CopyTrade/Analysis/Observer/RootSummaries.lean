import CopyTrade.Analysis.Observer.RestartEquivalence
import CopyTrade.Analysis.Observer.RootConservation

/-!
# The summaries of a run

An observer starts without roots or with the continuations of a snapshot, which have different
roots, as what they are taken from had.  So in a run whose decisions keep the roots, every summary
counts no root as unresolved that is not pending, waiting or to be continued.
-/

namespace CopyTrade.Analysis

open Foundation Model
open Std (ExtTreeMap ExtTreeSet)

variable {D : Type} [Decimal D] {S : StrategyTypes}

section

variable {engine : DecisionEngine D} {log : RootLog} {root : String}

theorem contains_foldl_recordTerminal (entries : List (String × Option String))
    (terminal : ExtTreeMap String String) :
    (entries.foldl recordTerminal terminal).contains root = true ↔
      terminal.contains root = true ∨ TicketClosed IsTerminal entries root := by
  induction entries generalizing terminal with
  | nil => simp [TicketClosed]
  | cons entry entries ih =>
    rw [List.foldl_cons, ih, ← List.singleton_append, closed_append, closed_singleton, ← or_assoc]
    apply or_congr_left
    unfold recordTerminal IsTerminal
    cases entry.2 with
    | none => simp
    | some value =>
      rw [ExtTreeMap.contains_insert, Bool.or_eq_true, beq_iff_eq,
        Std.LawfulEqOrd.compare_eq_iff_eq, or_comm, @eq_comm _ entry.1]
      simp

theorem terminal_contains_iff :
    log.terminal.contains root = true ↔ TicketClosed IsTerminal log.entries root := by
  unfold RootLog.terminal
  rw [contains_foldl_recordTerminal]
  simp

theorem mem_roots_iff :
    root ∈ (engine.roots log).toList ↔ TicketLogged log.entries root ∨
      (∃ (asset : String) (pending : PendingAction D), engine.pending[asset]? = some pending ∧
        pending.rootPlannedCloid = root) ∨
      ∃ (asset : String) (continuation : ContinuationIntent),
        engine.continuations[asset]? = some continuation ∧
          continuation.rootPlannedCloid = root := by
  unfold DecisionEngine.roots
  rw [ExtTreeSet.mem_toList, mem_set_ofList, List.mem_append, List.mem_append, or_assoc]
  simp only [List.mem_map, mem_values_iff, Prod.exists, exists_and_right, exists_eq_right,
    TicketLogged]
  refine or_congr Iff.rfl (or_congr ?_ ?_)
  · constructor
    · rintro ⟨pending, ⟨asset, hpending⟩, hroot⟩
      exact ⟨asset, pending, hpending, hroot⟩
    · rintro ⟨asset, pending, hpending, hroot⟩
      exact ⟨pending, ⟨asset, hpending⟩, hroot⟩
  · constructor
    · rintro ⟨continuation, ⟨asset, hcontinued⟩, hroot⟩
      exact ⟨asset, continuation, hcontinued, hroot⟩
    · rintro ⟨asset, continuation, hcontinued, hroot⟩
      exact ⟨continuation, ⟨asset, hcontinued⟩, hroot⟩

/-- What a summary promises of the roots: one without a terminal outcome is the root of something
pending, waiting or to be continued, and nothing of these has a root with a terminal outcome; so
nothing is unresolved where there is none of them. -/
structure RootsConserved (engine : DecisionEngine D) (log : RootLog) : Prop where
  unresolved : ∀ root ∈ engine.unresolvedRoots log,
    (∃ (asset : String) (pending : PendingAction D), engine.pending[asset]? = some pending ∧
        pending.rootPlannedCloid = root) ∨
      (∃ asset : String, engine.pendingBook[asset]? = some root) ∨
      ∃ (asset : String) (continuation : ContinuationIntent),
        engine.continuations[asset]? = some continuation ∧ continuation.rootPlannedCloid = root
  pending : ∀ (asset : String) (pending : PendingAction D), engine.pending[asset]? = some pending →
    log.terminal.contains pending.rootPlannedCloid = false
  waiting : ∀ asset root : String, engine.pendingBook[asset]? = some root →
    log.terminal.contains root = false
  continued : ∀ (asset : String) (continuation : ContinuationIntent),
    engine.continuations[asset]? = some continuation →
      log.terminal.contains continuation.rootPlannedCloid = false
  settled : engine.pending = ∅ → engine.pendingBook = ∅ → engine.continuations = ∅ →
    (engine.rootSummary log).unresolvedActionableTargets = 0

theorem held_iff :
    TicketHeld (heldRoot engine) root ↔
      (∃ (asset : String) (pending : PendingAction D), engine.pending[asset]? = some pending ∧
        pending.rootPlannedCloid = root) ∨
      (∃ asset : String, engine.pendingBook[asset]? = some root) ∨
      ∃ (asset : String) (continuation : ContinuationIntent),
        engine.continuations[asset]? = some continuation ∧
          continuation.rootPlannedCloid = root := by
  constructor
  · rintro ⟨⟨asset, place⟩, hplace⟩
    cases place with
    | pending =>
      obtain ⟨pending, hpending, hroot⟩ := Option.map_eq_some_iff.mp hplace
      exact .inl ⟨asset, pending, hpending, hroot⟩
    | waiting => exact .inr (.inl ⟨asset, hplace⟩)
    | continued =>
      obtain ⟨continuation, hcontinued, hroot⟩ := Option.map_eq_some_iff.mp hplace
      exact .inr (.inr ⟨asset, continuation, hcontinued, hroot⟩)
  · rintro (⟨asset, pending, hpending, hroot⟩ | ⟨asset, hwaiting⟩ |
      ⟨asset, continuation, hcontinued, hroot⟩)
    · exact ⟨(asset, .pending), Option.map_eq_some_iff.mpr ⟨pending, hpending, hroot⟩⟩
    · exact ⟨(asset, .waiting), hwaiting⟩
    · exact ⟨(asset, .continued), Option.map_eq_some_iff.mpr ⟨continuation, hcontinued, hroot⟩⟩

theorem RootsBalanced.conserved (h : RootsBalanced engine log) : RootsConserved engine log := by
  have hopen {root : String} (hheld : TicketHeld (heldRoot engine) root) :
      log.terminal.contains root = false := by
    rw [← Bool.not_eq_true, terminal_contains_iff]
    exact h.tickets.unclosed root hheld
  have hunresolved : ∀ root ∈ engine.unresolvedRoots log, TicketHeld (heldRoot engine) root := by
    intro root hroot
    obtain ⟨hmem, hterminal⟩ := List.mem_filter.mp hroot
    rw [Bool.not_eq_true', ← Bool.not_eq_true, terminal_contains_iff] at hterminal
    rcases mem_roots_iff.mp hmem with hlogged | hheld | hheld
    · exact h.tickets.kept root hlogged hterminal
    · exact held_iff.mpr (.inl hheld)
    · exact held_iff.mpr (.inr (.inr hheld))
  refine ⟨fun root hroot => held_iff.mp (hunresolved root hroot), ?_, ?_, ?_, ?_⟩
  · intro asset pending hpending
    exact hopen (held_iff.mpr (.inl ⟨asset, pending, hpending, rfl⟩))
  · intro asset root hwaiting
    exact hopen (held_iff.mpr (.inr (.inl ⟨asset, hwaiting⟩)))
  · intro asset continuation hcontinued
    exact hopen (held_iff.mpr (.inr (.inr ⟨asset, continuation, hcontinued, rfl⟩)))
  · intro hpending hwaiting hcontinued
    apply List.length_eq_zero_iff.mpr
    apply List.eq_nil_iff_forall_not_mem.mpr
    intro root hroot
    rcases held_iff.mp (hunresolved root hroot) with ⟨asset, _, hentry, -⟩ | ⟨asset, hentry⟩ |
      ⟨asset, _, hentry, -⟩
    · rw [hpending, ExtTreeMap.getElem?_empty] at hentry
      cases hentry
    · rw [hwaiting, ExtTreeMap.getElem?_empty] at hentry
      cases hentry
    · rw [hcontinued, ExtTreeMap.getElem?_empty] at hentry
      cases hentry

end

def ContinuationsDistinct (continuations : ExtTreeMap String ContinuationIntent) : Prop :=
  ∀ (asset asset' : String) (continuation continuation' : ContinuationIntent),
    continuations[asset]? = some continuation → continuations[asset']? = some continuation' →
      continuation.rootPlannedCloid = continuation'.rootPlannedCloid → asset = asset'

theorem rootsBalanced_of_continuations {engine : DecisionEngine D} (hpending : engine.pending = ∅)
    (hwaiting : engine.pendingBook = ∅) (h : ContinuationsDistinct engine.continuations) :
    RootsBalanced engine .empty where
  tickets := by
    have hheld {place : String × RootPlace} {root : String}
        (hplace : heldRoot engine place = some root) : place.2 = .continued ∧
          ∃ continuation, engine.continuations[place.1]? = some continuation ∧
            continuation.rootPlannedCloid = root := by
      obtain ⟨asset, place⟩ := place
      unfold heldRoot slotOf at hplace
      rw [hpending, hwaiting, ExtTreeMap.getElem?_empty, ExtTreeMap.getElem?_empty] at hplace
      cases place with
      | pending => cases hplace
      | waiting => cases hplace
      | continued => exact ⟨rfl, Option.map_eq_some_iff.mp hplace⟩
    apply TicketsBalanced.of_once
    intro place other root hplace hother
    obtain ⟨hat, continuation, hcontinued, rfl⟩ := hheld hplace
    obtain ⟨hat', continuation', hcontinued', hroot⟩ := hheld hother
    exact Prod.ext (h _ _ _ _ hcontinued hcontinued' hroot.symm) (hat.trans hat'.symm)
  exclusive := by
    intro asset
    rw [hpending, ExtTreeMap.getElem?_empty]
    exact .inl rfl

theorem held_persistedContinuations {engine : DecisionEngine D} {asset : String}
    {continuation : ContinuationIntent}
    (h : engine.persistedContinuations[asset]? = some continuation) :
    ∃ place, heldRoot engine (asset, place) = some continuation.rootPlannedCloid := by
  unfold DecisionEngine.persistedContinuations at h
  rw [getElem?_foldl_insert_if
    (p := fun pending : PendingAction D => 0 < pending.action.retryGeneration)
    (g := PendingAction.asContinuation) engine.pending engine.continuations asset] at h
  have hcontinued (h : engine.continuations[asset]? = some continuation) :
      ∃ place, heldRoot engine (asset, place) = some continuation.rootPlannedCloid :=
    ⟨.continued, congrArg (Option.map ContinuationIntent.rootPlannedCloid) h⟩
  cases hpending : engine.pending[asset]? with
  | none =>
    rw [hpending] at h
    exact hcontinued h
  | some pending =>
    rw [hpending] at h
    dsimp only at h
    split at h
    · cases h
      exact ⟨.pending, congrArg (Option.map PendingAction.rootPlannedCloid) hpending⟩
    · exact hcontinued h

theorem RootsBalanced.persisted {engine : DecisionEngine D} {log : RootLog}
    (h : RootsBalanced engine log) : ContinuationsDistinct engine.persistedContinuations := by
  intro asset asset' continuation continuation' hstored hstored' hroot
  obtain ⟨place, hplace⟩ := held_persistedContinuations hstored
  obtain ⟨place', hplace'⟩ := held_persistedContinuations hstored'
  exact congrArg Prod.fst (h.tickets.once hplace (hroot ▸ hplace'))

/-- A process whose roots are balanced, and whose snapshot has different ones. -/
structure RootsSafe (state : RootRun D S) : Prop where
  balanced : RootsBalanced state.engine state.log
  snapshot : ∀ envelope receivedAtMs, state.run.snapshot = some (envelope, receivedAtMs) →
    ContinuationsDistinct envelope.payload.continuations

section

variable [Sha256] [DecimalNormalize D] [IntentEncoding D] {settings : EngineSettings D}
  {setup : ObserverSetup S}

/-- A call of the engine that makes it decide makes a decision that keeps the roots. -/
def StepKeepsRoots (settings : EngineSettings D) (state : RootRun D S) : UnsignedCall D S → Prop
  | .engine _ observed => CallKeepsRoots settings state.engine state.log observed.call
  | _ => True

omit [Sha256] [DecimalNormalize D] [IntentEncoding D] in
theorem rootsBalanced_fresh (engineInstance : Bytes 16)
    (identity : Option ProductionIntentIdentity) :
    RootsBalanced (setup.fresh engineInstance identity : UnsignedObserver D S).engine .empty := by
  apply rootsBalanced_of_continuations rfl rfl
  intro asset asset' continuation continuation' hget
  have hempty : (∅ : ExtTreeMap String ContinuationIntent)[asset]? = some continuation := hget
  rw [ExtTreeMap.getElem?_empty] at hempty
  cases hempty

variable [DecidableEq S.Configuration]

omit [IntentEncoding D] in
theorem restored_slots {fresh restored : UnsignedObserver D S}
    {envelope : UnsignedSnapshotEnvelope D S}
    (h : fresh.restoreUnsignedState envelope setup.identity = .ok restored) :
    restored.engine.pending = ∅ ∧ restored.engine.pendingBook = ∅ ∧
      restored.engine.continuations = envelope.payload.continuations := by
  unfold UnsignedObserver.restoreUnsignedState at h
  obtain ⟨decoded, hdecoded, h⟩ := of_bind h
  obtain ⟨-, -, htaken⟩ := of_bind h
  unfold UnsignedObserver.decodeUnsignedSnapshot at hdecoded
  split at hdecoded
  · cases hdecoded
  split at hdecoded
  · cases hdecoded
  cases hdecoded
  unfold UnsignedObserver.takeOver at htaken
  obtain ⟨expectancyOffset, -, htaken⟩ := of_bind htaken
  obtain ⟨ledgerOffset, -, htaken⟩ := of_bind htaken
  obtain ⟨previousTarget, -, htaken⟩ := of_bind htaken
  cases htaken
  exact ⟨rfl, rfl, rfl⟩

theorem rootsSafe_step (state : RootRun D S) (call : UnsignedCall D S) (h : RootsSafe state)
    (hkeeps : StepKeepsRoots settings state call) : RootsSafe (state.step settings setup call) := by
  cases call with
  | restart epochMs engineInstance identity =>
    have hfresh : RootsBalanced
        (setup.fresh engineInstance identity : UnsignedObserver D S).engine .empty :=
      rootsBalanced_fresh engineInstance identity
    show RootsSafe ⟨state.run.restart setup epochMs engineInstance identity, .empty⟩
    unfold UnsignedRun.restart
    cases hsnapshot : state.run.snapshot with
    | none => exact ⟨hfresh, fun _ _ hnone => nomatch hnone⟩
    | some stored =>
      obtain ⟨envelope, receivedAtMs⟩ := stored
      have hdistinct := h.snapshot envelope receivedAtMs hsnapshot
      have hkept : ∀ stored receivedAt, some (envelope, receivedAtMs) = some (stored, receivedAt) →
          ContinuationsDistinct stored.payload.continuations := by
        rintro stored receivedAt ⟨⟩
        exact hdistinct
      dsimp only
      split
      · exact ⟨hfresh, hkept⟩
      · rename_i restored hrestored
        obtain ⟨hpending, hwaiting, hcontinued⟩ := restored_slots hrestored
        refine ⟨rootsBalanced_of_continuations hpending hwaiting ?_, hkept⟩
        have hsame : restored.engine.continuations = envelope.payload.continuations := hcontinued
        exact hsame ▸ hdistinct
  | engine atMs observed =>
    unfold RootRun.step UnsignedRun.step
    dsimp only
    by_cases hstopped : state.run.stopped.isSome = true
    · rw [if_pos hstopped, if_pos hstopped]
      exact h
    rw [if_neg hstopped, if_neg hstopped]
    cases hcall : state.run.observer.call settings observed with
    | error error => exact ⟨h.balanced, h.snapshot⟩
    | ok called =>
      obtain ⟨observer, planned⟩ := called
      obtain ⟨events, hevents, hbalanced⟩ := call_keepsRoots h.balanced hkeeps
        (observed_engine hcall)
      rw [hevents]
      unfold UnsignedRun.afterCall
      cases observed.call with
      | _ => exact ⟨hbalanced, h.snapshot⟩
  | persist =>
    unfold RootRun.step UnsignedRun.step
    dsimp only
    split
    · exact h
    split
    · exact ⟨h.balanced, h.snapshot⟩
    · rename_i observer envelope hpersist
      unfold UnsignedObserver.persistUnsignedState at hpersist
      obtain ⟨generation, -, hpersist⟩ := of_bind hpersist
      cases hpersist
      refine ⟨h.balanced, ?_⟩
      rintro stored receivedAt ⟨⟩
      exact h.balanced.persisted

/-- **Root conservation.**  In a run whose decisions all keep the roots, every summary promises that
the unresolved roots are those of what is pending, waiting or to be continued. -/
theorem roots_conserved (settings : EngineSettings D) (setup : ObserverSetup S) (epochMs : ℕ)
    (engineInstance : Bytes 16) (identity : Option ProductionIntentIdentity)
    (calls : List (UnsignedCall D S))
    (h : AllSteps (RootRun.step settings setup) (StepKeepsRoots settings)
      (RootRun.start setup epochMs engineInstance identity) calls) :
    ∀ state ∈ states (RootRun.step settings setup)
        (RootRun.start setup epochMs engineInstance identity) calls,
      RootsConserved state.engine state.log := by
  intro state hstate
  have hsafe : RootsSafe state := by
    refine forall_states_of_steps (I := RootsSafe) ?_ ?_ h state hstate
    · intro state call hsafe hkeeps
      exact rootsSafe_step state call hsafe hkeeps
    · exact ⟨rootsBalanced_fresh engineInstance identity, fun _ _ hnone => nomatch hnone⟩
  exact hsafe.balanced.conserved

end

theorem decisionKeepsRoots_of_idle {engine : DecisionEngine D} {now : ℕ}
    {executable : ExtTreeMap String (Lifecycle.PlannedAction D)} {asset : String}
    (hpending : engine.pending.keys = []) (hwaiting : engine.pendingBook.keys = [])
    (hcontinued : engine.continuations.keys = []) (hexecutable : executable.keys = [asset]) :
    DecisionKeepsRoots engine .empty now executable := by
  have hnone {V : Type} {m : ExtTreeMap String V} (hkeys : m.keys = []) (asset : String) :
      m[asset]? = none := by
    apply ExtTreeMap.getElem?_eq_none
    rw [← ExtTreeMap.mem_keys, hkeys]
    exact List.not_mem_nil
  have hkey {other : String} {action : Lifecycle.PlannedAction D}
      (hget : executable[other]? = some action) : other = asset := by
    have hmem : other ∈ executable.keys := by
      rw [ExtTreeMap.mem_keys, ExtTreeMap.mem_iff_isSome_getElem?, hget]
      rfl
    rwa [hexecutable, List.mem_singleton] at hmem
  refine ⟨?_, ?_, ?_⟩
  · intro other pending _ hget
    rw [hnone hpending] at hget
    cases hget
  · intro other action _
    refine ⟨⟨?_, ?_⟩, fun _ => .inl (hnone hwaiting other), ?_⟩
    · rintro ⟨⟨held, place⟩, hplace⟩
      unfold heldRoot slotOf at hplace
      rw [hnone hpending, hnone hwaiting, hnone hcontinued] at hplace
      cases place with
      | _ => cases hplace
    · rintro ⟨outcome, hlogged⟩
      cases hlogged
    · intro previous hprevious
      rw [hnone hpending] at hprevious
      cases hprevious
  · intro other other' action action' hother hother' _
    rw [hkey hother, hkey hother']

/-- The root of an action that waits for its first book is conserved. -/
theorem roots_conserved_first_decision :
    ∃ (_ : Sha256) (_ : IntentEncoding ℚ),
      ∀ state ∈ states (RootRun.step sampleEngineSettings sampleSetup)
          (RootRun.start sampleSetup 0 (Bytes.replicate 16 0) none : RootRun ℚ sampleTypes)
          (sampleMarket ++ [sampleOneAsset 0]),
        RootsConserved state.engine state.log := by
  let sha : Sha256 := ⟨foldDigest⟩
  let encoding : IntentEncoding ℚ := ⟨fun _ => .ok []⟩
  refine ⟨sha, encoding, roots_conserved _ _ _ _ _ _ ?_⟩
  rw [allSteps_append]
  refine ⟨⟨?_, ?_, trivial⟩, ?_, trivial⟩
  · rintro engine now strategy decided planned ⟨⟩
  · rintro engine now strategy decided planned ⟨⟩
  · rintro engine now strategy decided planned ⟨⟩ hdecide
    have hidle : (sampleObserverRun sampleMarket).observer.engine.pending.keys = [] ∧
        (sampleObserverRun sampleMarket).observer.engine.pendingBook.keys = [] ∧
        (sampleObserverRun sampleMarket).observer.engine.continuations.keys = [] ∧
        (((sampleObserverRun sampleMarket).observer.engine.constructNextDecision
          sampleEngineSettings 0 (sampleStrategy 1000)).toOption.bind fun decided =>
            decided.2.map fun planned => planned.executable.keys) = some ["BTC"] := by
      decide +kernel
    obtain ⟨hpending, hwaiting, hcontinued, hexecutable⟩ := hidle
    apply decisionKeepsRoots_of_idle hpending hwaiting hcontinued
    have hsame : (sampleObserverRun sampleMarket).observer.engine.constructNextDecision
        sampleEngineSettings 0 (sampleStrategy 1000) = .ok (decided, some planned) := hdecide
    rw [hsame] at hexecutable
    exact Option.some.inj hexecutable

def sampleThinBook : OrderBookResponse ℚ where
  asset := "BTC"
  bids := [⟨999 / 10, 5⟩]
  asks := [⟨1001 / 10, 5⟩]

def sampleThinCall (now : ℕ) : UnsignedCall ℚ sampleTypes :=
  .engine now (sampleObserved (.orderBook sampleThinBook now 0 (sampleStrategy 1000)) []
    noSignals_named)

/-- The rest of a partial fill is pending when its observer is persisted.  The new process decides
before it has a book, and again once it has one. -/
def samplePartialFill : List (UnsignedCall ℚ sampleTypes) :=
  sampleMarket ++ [sampleThinCall 0, sampleOneAsset 0, sampleThinCall 150, .persist,
    .restart 1000000 (Bytes.replicate 16 1) none] ++ sampleMarket ++
      [sampleOneAsset 0, sampleThinCall 10]

/-- The action that waited for the book gets the root of the continuation, and its own one is
forgotten. -/
theorem waiting_root_forgotten :
    ¬ ∀ [Sha256] [DecimalNormalize ℚ] [IntentEncoding ℚ] (settings : EngineSettings ℚ)
        (setup : ObserverSetup sampleTypes) (epochMs : ℕ) (engineInstance : Bytes 16)
        (identity : Option ProductionIntentIdentity) (calls : List (UnsignedCall ℚ sampleTypes)),
      ∀ state ∈ states (RootRun.step settings setup)
          (RootRun.start setup epochMs engineInstance identity) calls,
        RootsConserved state.engine state.log := by
  intro h
  let sha : Sha256 := ⟨foldDigest⟩
  let encoding : IntentEncoding ℚ := ⟨fun _ => .ok []⟩
  let state : RootRun ℚ sampleTypes := run (RootRun.step sampleEngineSettings sampleSetup)
    (RootRun.start sampleSetup 0 (Bytes.replicate 16 0) none) samplePartialFill
  have hconserved := h sampleEngineSettings sampleSetup 0 (Bytes.replicate 16 0) none
    samplePartialFill state (run_mem_states _ _)
  have hlost : (state.engine.unresolvedRoots state.log).any (fun root =>
      !state.engine.pending.toList.any (fun entry => entry.2.rootPlannedCloid == root) &&
        !state.engine.pendingBook.toList.any (fun entry => entry.2 == root) &&
        !state.engine.continuations.toList.any
          fun entry => entry.2.rootPlannedCloid == root) = true := by
    decide +kernel
  obtain ⟨root, hroot, hnowhere⟩ := List.any_eq_true.mp hlost
  simp only [Bool.and_eq_true, Bool.not_eq_true', List.any_eq_false, Prod.forall, beq_iff_eq,
    ExtTreeMap.mem_toList_iff_getElem?_eq_some] at hnowhere
  obtain ⟨⟨hpending, hwaiting⟩, hcontinued⟩ := hnowhere
  rcases hconserved.unresolved root hroot with ⟨asset, pending, hget, hheld⟩ | ⟨asset, hget⟩ |
    ⟨asset, continuation, hget, hheld⟩
  · exact hpending asset pending hget hheld
  · exact hwaiting asset root hget rfl
  · exact hcontinued asset continuation hget hheld

end CopyTrade.Analysis
