import CopyTrade.Foundation.Results
import CopyTrade.Foundation.Runs
import CopyTrade.Model.Observer.StateRoot

/-!
# A state root recovers

Wherever an operation on a file fails and the process ends, the marker is that of the snapshot or of
the one before it, and no snapshot gives way to an older one.  Only an initialization that is cut
off before its marker leaves a root from which no process starts again.
-/

namespace CopyTrade.Analysis

open Foundation Model

variable {D : Type} [Decimal D] {S : StrategyTypes} {identity : SnapshotIdentity}
  {root after : StateRoot D S} {observer : UnsignedObserver D S}
  {envelope : UnsignedSnapshotEnvelope D S}

/-- The marker is that of the snapshot or of the one before it; a process has the marker and the
generation of the snapshot. -/
structure SoundRoot (identity : SnapshotIdentity)
    (held : Option (RootedObserver D S) × StateRoot D S) : Prop where
  marked : ∀ marker, held.2.marker.contents = some marker →
    marker = .of marker.generation identity ∧ ∃ envelope,
      held.2.snapshot.contents = some envelope ∧
        (envelope.generation = marker.generation ∨ envelope.generation = marker.generation + 1)
  running : ∀ process, held.1 = some process →
    held.2.marker.contents = some process.marker ∧ ∃ envelope,
      held.2.snapshot.contents = some envelope ∧
        process.marker.generation = envelope.generation ∧
        process.observer.snapshotGeneration = some envelope.generation

/-- A snapshot is kept, or a later one is in its place. -/
def RootAdvances (before after : StateRoot D S) : Prop :=
  ∀ envelope, before.snapshot.contents = some envelope → ∃ later,
    after.snapshot.contents = some later ∧
      (later = envelope ∨ envelope.generation < later.generation)

theorem RootAdvances.refl (root : StateRoot D S) : RootAdvances root root :=
  fun envelope h => ⟨envelope, h, .inl rfl⟩

theorem RootAdvances.trans {middle : StateRoot D S} (hfirst : RootAdvances root middle)
    (hrest : RootAdvances middle after) : RootAdvances root after := by
  intro envelope h
  obtain ⟨later, hlater, hle⟩ := hfirst envelope h
  obtain ⟨latest, hlatest, hle'⟩ := hrest later hlater
  refine ⟨latest, hlatest, ?_⟩
  rcases hle with rfl | hlt
  · exact hle'
  · rcases hle' with rfl | hlt'
    · exact .inr hlt
    · exact .inr (hlt.trans hlt')

theorem SoundRoot.stop {process : Option (RootedObserver D S)}
    (h : SoundRoot identity (process, root)) : SoundRoot identity (none, root) :=
  ⟨h.marked, fun _ hnone => nomatch hnone⟩

theorem SoundRoot.writeMarker (h : SoundRoot identity (none, root))
    (hsnapshot : root.snapshot.contents = some envelope)
    (hgeneration : observer.snapshotGeneration = some envelope.generation)
    (replacement : Replacement) :
    SoundRoot identity (root.writeMarker observer envelope.generation identity replacement) := by
  have hrenamed : SoundRoot identity
      (none, { root with marker := ⟨some (.of envelope.generation identity), false⟩ }) := by
    refine ⟨fun marker hmarker => ?_, fun _ hnone => nomatch hnone⟩
    cases hmarker
    exact ⟨rfl, envelope, hsnapshot, .inl rfl⟩
  cases replacement with
  | nothing => exact h
  | temporary => exact ⟨h.marked, fun _ hnone => nomatch hnone⟩
  | renamed => exact hrenamed
  | synced =>
    refine ⟨hrenamed.marked, fun process hprocess => ?_⟩
    cases hprocess
    exact ⟨rfl, envelope, hsnapshot, rfl, hgeneration⟩

/-- An engine whose generation is that of the snapshot writes a later one. -/
theorem SoundRoot.persist (h : SoundRoot identity (none, root))
    (hgeneration : observer.snapshotGeneration =
      root.snapshot.contents.map UnsignedSnapshotEnvelope.generation)
    (hmarker : ∀ marker, root.marker.contents = some marker →
      observer.snapshotGeneration = some marker.generation)
    (initial : Bool) (snapshot marker : Replacement) :
    SoundRoot identity (root.persist observer initial identity snapshot marker) ∧
      RootAdvances root (root.persist observer initial identity snapshot marker).2 := by
  unfold StateRoot.persist
  cases hpersist : observer.persistUnsignedState identity with
  | error error => exact ⟨h, .refl root⟩
  | ok outcome =>
    obtain ⟨generation, hnext, houtcome⟩ := of_bind hpersist
    cases houtcome
    have hlater : ∀ previous, observer.snapshotGeneration = some previous →
        generation = previous + 1 := by
      intro previous hprevious
      unfold UnsignedObserver.nextGeneration at hnext
      rw [hprevious, orArithmetic_eq_ok_iff] at hnext
      exact (checkedAddU64_eq_some_iff.mp hnext).1.symm
    generalize henvelope : UnsignedSnapshotEnvelope.mk unsignedSnapshotSchemaVersion generation
      identity observer.unsignedState = envelope
    have hwritten : SoundRoot identity
          (none, { root with snapshot := ⟨some envelope, false⟩ }) ∧
        RootAdvances root { root with snapshot := ⟨some envelope, false⟩ } := by
      subst henvelope
      refine ⟨⟨fun held hheld => ⟨(h.marked held hheld).1, _, rfl, .inr ?_⟩,
        fun _ hnone => nomatch hnone⟩, fun previous hprevious => ⟨_, rfl, .inr ?_⟩⟩
      · exact hlater _ (hmarker held hheld)
      · rw [hprevious] at hgeneration
        exact (Nat.lt_succ_self _).trans_eq (hlater _ hgeneration).symm
    cases snapshot with
    | nothing => exact ⟨h, .refl root⟩
    | temporary => exact ⟨⟨h.marked, fun _ hnone => nomatch hnone⟩, .refl root⟩
    | renamed => exact hwritten
    | synced =>
      dsimp only
      split
      · exact hwritten
      · refine ⟨hwritten.1.writeMarker rfl ?_ marker, hwritten.2⟩
        subst henvelope
        rfl

/-- A root is initialized, or holds nothing, or has been left without a marker. -/
theorem SoundRoot.acquire_cases (h : SoundRoot identity (none, root)) :
    (∃ marker, root.marker.contents = some marker ∧
        root.acquire identity =
          (.ok (some marker), ⟨⟨some marker, false⟩, ⟨root.snapshot.contents, false⟩⟩)) ∨
      root = .empty ∧ root.acquire identity = (.ok none, .empty) ∨
      root.marker.contents = none ∧ ∃ error, root.acquire identity = (.error error, root) := by
  obtain ⟨⟨marker, markerTemporary⟩, ⟨snapshot, snapshotTemporary⟩⟩ := root
  cases marker with
  | some marker =>
    obtain ⟨hof, envelope, hsnapshot, -⟩ := h.marked marker rfl
    have hvalid : validateMarker marker identity = .ok () := by
      rw [hof]
      simp [validateMarker, InitializationMarker.of]
    refine .inl ⟨marker, rfl, ?_⟩
    cases hsnapshot
    unfold StateRoot.acquire
    dsimp only
    rw [hvalid]
    rfl
  | none =>
    cases snapshot with
    | some snapshot =>
      refine .inr (.inr ⟨rfl, ?_⟩)
      cases markerTemporary <;> cases snapshotTemporary <;> exact ⟨_, rfl⟩
    | none =>
      cases markerTemporary <;> cases snapshotTemporary
      · exact .inr (.inl ⟨rfl, rfl⟩)
      all_goals exact .inr (.inr ⟨rfl, _, rfl⟩)

section

variable [Sha256] [DecimalNormalize D] [DecidableEq S.Configuration]

theorem generation_restored {restored : UnsignedObserver D S}
    (h : observer.restoreUnsignedState envelope identity = .ok restored) :
    restored.snapshotGeneration = some envelope.generation := by
  obtain ⟨decoded, hdecoded, h⟩ := of_bind h
  obtain ⟨-, -, h⟩ := of_bind h
  obtain ⟨_, -, h⟩ := of_bind h
  obtain ⟨_, -, h⟩ := of_bind h
  obtain ⟨_, -, h⟩ := of_bind h
  cases h
  unfold UnsignedObserver.decodeUnsignedSnapshot at hdecoded
  split at hdecoded
  · cases hdecoded
  split at hdecoded
  · cases hdecoded
  · cases hdecoded
    rfl

theorem SoundRoot.restore (h : SoundRoot identity (none, root)) {marker : InitializationMarker}
    (hmarker : root.marker.contents = some marker) (replacement : Replacement) :
    SoundRoot identity (root.restore observer marker identity replacement) ∧
      (root.restore observer marker identity replacement).2.snapshot = root.snapshot := by
  unfold StateRoot.restore
  split
  · exact ⟨h, rfl⟩
  rename_i envelope hsnapshot
  split
  · exact ⟨h, rfl⟩
  rename_i restored hrestored
  split
  · exact ⟨h, rfl⟩
  rename_i hback
  split
  · exact ⟨h.writeMarker hsnapshot (generation_restored hrestored) replacement, rfl⟩
  · rename_i hahead
    refine ⟨⟨h.marked, fun process hprocess => ?_⟩, rfl⟩
    cases hprocess
    exact ⟨hmarker, envelope, hsnapshot, le_antisymm (not_lt.mp hback) (not_lt.mp hahead),
      generation_restored hrestored⟩

theorem SoundRoot.startup {setup : ObserverSetup S} (h : SoundRoot setup.identity (none, root))
    (hfresh : observer.snapshotGeneration = none) (snapshot marker : Replacement) :
    SoundRoot setup.identity (StateRootRun.startup setup root observer snapshot marker) ∧
      RootAdvances root (StateRootRun.startup setup root observer snapshot marker).2 := by
  unfold StateRootRun.startup
  rcases h.acquire_cases with ⟨held, hheld, hacquire⟩ | ⟨rfl, hacquire⟩ | ⟨-, error, hacquire⟩
  · rw [hacquire]
    have hcleaned : SoundRoot setup.identity (none,
        (⟨⟨some held, false⟩, ⟨root.snapshot.contents, false⟩⟩ : StateRoot D S)) :=
      ⟨fun marker hmarker => h.marked marker (hheld.trans hmarker), fun _ hnone => nomatch hnone⟩
    obtain ⟨hsound, hsnapshot⟩ := hcleaned.restore rfl marker
    refine ⟨hsound, fun envelope henvelope => ⟨envelope, ?_, .inl rfl⟩⟩
    exact (congrArg ReplacedFile.contents hsnapshot).trans henvelope
  · rw [hacquire]
    exact h.persist hfresh (fun _ hnone => nomatch hnone) true snapshot marker
  · rw [hacquire]
    exact ⟨h, .refl root⟩

omit [DecidableEq S.Configuration] in
theorem generation_call [IntentEncoding D] {settings : EngineSettings D}
    {called : UnsignedObserver D S} {observed : ObservedCall D S}
    {planned : Option (PlannedDecision D)}
    (h : observer.call settings observed = .ok (called, planned)) :
    called.snapshotGeneration = observer.snapshotGeneration := by
  obtain ⟨⟨engine, result⟩, -, h⟩ := of_bind h
  cases result with
  | none =>
    cases h
    rfl
  | some planned =>
    obtain ⟨decided, hsignals, h⟩ := of_bind h
    cases h
    obtain ⟨_, -, hsignals⟩ := of_bind hsignals
    obtain ⟨_, -, hsignals⟩ := of_bind hsignals
    cases hsignals
    rfl

variable [IntentEncoding D] {settings : EngineSettings D} {setup : ObserverSetup S}
  {reached : StateRootRun D S}

theorem soundRoot_step (h : SoundRoot setup.identity (reached.process, reached.root))
    (step : StateRootStep D S) :
    SoundRoot setup.identity ((reached.step settings setup step).process,
        (reached.step settings setup step).root) ∧
      RootAdvances reached.root (reached.step settings setup step).root := by
  obtain ⟨process, root⟩ := reached
  cases process with
  | none =>
    cases step with
    | start engineInstance productionIdentity snapshot marker =>
      exact h.startup rfl snapshot marker
    | engine | persist | stop => exact ⟨h, .refl root⟩
  | some process =>
    obtain ⟨hmarker, envelope, hsnapshot, heq, hgeneration⟩ := h.running process rfl
    cases step with
    | start => exact ⟨h, .refl root⟩
    | stop => exact ⟨h.stop, .refl root⟩
    | engine observed =>
      unfold StateRootRun.step
      dsimp only
      split
      · exact ⟨h.stop, .refl root⟩
      · rename_i called planned hcall
        refine ⟨⟨h.marked, fun process hprocess => ?_⟩, .refl root⟩
        cases hprocess
        exact ⟨hmarker, envelope, hsnapshot, heq, (generation_call hcall).trans hgeneration⟩
    | persist snapshot marker =>
      refine h.stop.persist (hgeneration.trans (by rw [hsnapshot]; rfl)) ?_ false snapshot marker
      intro held hheld
      rw [hmarker] at hheld
      cases hheld
      rw [hgeneration, heq]

/-- Without a marker nothing starts on what is left of an initialization. -/
theorem stuck_step (h : SoundRoot setup.identity (reached.process, reached.root))
    (hmarker : reached.root.marker.contents = none) (hleft : reached.root ≠ .empty)
    (step : StateRootStep D S) : reached.step settings setup step = reached := by
  obtain ⟨process, root⟩ := reached
  cases process with
  | some process =>
    have hheld := (h.running process rfl).1
    rw [hmarker] at hheld
    cases hheld
  | none =>
    cases step with
    | start engineInstance productionIdentity snapshot marker =>
      unfold StateRootRun.step StateRootRun.startup
      rcases h.acquire_cases with ⟨held, hheld, -⟩ | ⟨hempty, -⟩ | ⟨-, error, hacquire⟩
      · rw [hmarker] at hheld
        cases hheld
      · exact absurd hempty hleft
      · dsimp only
        rw [hacquire]
    | engine | persist | stop => rfl

/-- What a state root is good for: with a marker, an engine that takes its snapshot over starts and
heals the marker; its snapshot gives way to later ones only; and without a marker it is empty or
never changes again. -/
structure RootRecovers (settings : EngineSettings D) (setup : ObserverSetup S)
    (reached : StateRootRun D S) : Prop where
  starts : ∀ marker, reached.root.marker.contents = some marker →
    ∃ envelope, reached.root.snapshot.contents = some envelope ∧
      ∀ engineInstance productionIdentity snapshot restored,
        (setup.fresh engineInstance productionIdentity).restoreUnsignedState envelope
            setup.identity = .ok restored →
          (StateRootRun.step settings setup ⟨none, reached.root⟩
            (.start engineInstance productionIdentity snapshot .synced)).process =
            some ⟨restored, .of envelope.generation setup.identity⟩
  advances : ∀ more, RootAdvances reached.root
    (run (StateRootRun.step settings setup) reached more).root
  stuck : reached.root.marker.contents = none → reached.root ≠ .empty →
    ∀ more, run (StateRootRun.step settings setup) reached more = reached

/-- **The state root.**  Wherever operations on its files fail and processes end, a state root
recovers. -/
theorem state_root_recovers (settings : EngineSettings D) (setup : ObserverSetup S)
    (steps : List (StateRootStep D S)) :
    RootRecovers settings setup
      (run (StateRootRun.step settings setup) ⟨none, .empty⟩ steps) := by
  have hempty : SoundRoot setup.identity (none, (.empty : StateRoot D S)) :=
    ⟨(fun _ hnone => nomatch hnone), fun _ hnone => nomatch hnone⟩
  have hreached := run_invariant (s := ⟨none, .empty⟩)
    (I := fun reached : StateRootRun D S =>
      SoundRoot setup.identity (reached.process, reached.root))
    (fun (reached : StateRootRun D S) (step : StateRootStep D S) h =>
      show SoundRoot setup.identity ((reached.step settings setup step).process, _) from
        (soundRoot_step h step).1) hempty steps
  generalize run (StateRootRun.step settings setup) ⟨none, .empty⟩ steps = reached at hreached
  refine ⟨?_, ?_, ?_⟩
  · intro marker hmarker
    obtain ⟨hof, envelope, hsnapshot, hgeneration⟩ := hreached.marked marker hmarker
    refine ⟨envelope, hsnapshot, ?_⟩
    intro engineInstance productionIdentity snapshot restored hrestore
    unfold StateRootRun.step StateRootRun.startup
    rcases hreached.stop.acquire_cases with ⟨held, hheld, hacquire⟩ | ⟨hempty, -⟩ | ⟨hnone, -⟩
    · obtain rfl := Option.some.inj (hmarker.symm.trans hheld)
      dsimp only
      rw [hacquire]
      unfold StateRoot.restore
      dsimp only
      rw [hsnapshot]
      dsimp only
      rw [hrestore]
      dsimp only
      rw [if_neg (by omega)]
      split
      · rfl
      · have heq : marker.generation = envelope.generation := by omega
        rw [hof, heq]
    · rw [hempty] at hmarker
      cases hmarker
    · rw [hnone] at hmarker
      cases hmarker
  · intro more
    induction more generalizing reached with
    | nil => exact .refl _
    | cons step more ih =>
      obtain ⟨hnext, hadvances⟩ := soundRoot_step hreached step
      exact hadvances.trans (ih _ hnext)
  · intro hmarker hleft more
    induction more with
    | nil => rfl
    | cons step more ih => rw [run_cons, stuck_step hreached hmarker hleft, ih]

end

end CopyTrade.Analysis
