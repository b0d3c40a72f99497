import CopyTrade.Model.Observer.UnsignedState

/-!
# The state root of an unsigned observer

`UnsignedStateRoot` of crates/copytrade-observer/src/state_root.rs: a snapshot, and a marker with
its generation.  Either is written to a temporary file that is renamed; an operation may fail, or
the process end, behind each of these steps.  The lock keeps a second process out.  Files of other
names and the texts of errors behind `acquire`, which all end the process, are left out.
-/

namespace CopyTrade.Model

variable {D : Type} [Decimal D] {S : StrategyTypes}

structure InitializationMarker where
  schemaVersion : ℕ
  snapshotSchemaVersion : ℕ
  generation : ℕ
  identity : SnapshotIdentity
deriving DecidableEq

/-- A file, and whether a temporary file is left beside it. -/
structure ReplacedFile (α : Type) where
  contents : Option α
  temporary : Bool

/-- How far the replacement of a file comes. -/
inductive Replacement
  | nothing
  | temporary
  | renamed
  | synced
deriving DecidableEq

def ReplacedFile.replace {α : Type} (file : ReplacedFile α) (contents : α) :
    Replacement → ReplacedFile α
  | .nothing => file
  | .temporary => { file with temporary := true }
  | .renamed | .synced => ⟨some contents, false⟩

structure StateRoot (D : Type) [Decimal D] (S : StrategyTypes) where
  marker : ReplacedFile InitializationMarker
  snapshot : ReplacedFile (UnsignedSnapshotEnvelope D S)

/-- A process behind its startup: its engine and the marker it remembers. -/
structure RootedObserver (D : Type) [Decimal D] (S : StrategyTypes) where
  observer : UnsignedObserver D S
  marker : InitializationMarker

def InitializationMarker.of (generation : ℕ) (identity : SnapshotIdentity) : InitializationMarker :=
  ⟨1, unsignedSnapshotSchemaVersion, generation, identity⟩

def validateMarker (marker : InitializationMarker) (expectedIdentity : SnapshotIdentity) :
    Except String Unit :=
  if marker.schemaVersion ≠ 1 ∨ marker.snapshotSchemaVersion ≠ unsignedSnapshotSchemaVersion then
    .error "unsupported unsigned state marker schema"
  else if marker.identity ≠ expectedIdentity then
    .error "unsigned state marker identity mismatch"
  else .ok ()

namespace StateRoot

def empty : StateRoot D S := ⟨⟨none, false⟩, ⟨none, false⟩⟩

/-- The marker, if the root is initialized, and the root without its temporary files. -/
def acquire (root : StateRoot D S) (identity : SnapshotIdentity) :
    Except String (Option InitializationMarker) × StateRoot D S :=
  let cleaned : StateRoot D S := ⟨⟨root.marker.contents, false⟩, ⟨root.snapshot.contents, false⟩⟩
  match root.marker.contents, root.snapshot.contents with
  | some marker, some _ => ((validateMarker marker identity).map fun _ => some marker, cleaned)
  | marker, snapshot =>
    if root.marker.temporary || root.snapshot.temporary then
      (.error ("unsigned state root contains uncommitted state without a complete " ++
        "marker/snapshot pair"), root)
    else if marker.isSome then
      (.error "unsigned state marker exists without a snapshot", root)
    else if snapshot.isSome then
      (.error "unsigned state snapshot exists without an initialization marker", root)
    else (.ok none, root)

/-- The marker of the snapshot of an engine is written. -/
def writeMarker (root : StateRoot D S) (observer : UnsignedObserver D S) (generation : ℕ)
    (identity : SnapshotIdentity) (replacement : Replacement) :
    Option (RootedObserver D S) × StateRoot D S :=
  let marker := InitializationMarker.of generation identity
  (if replacement = .synced then some ⟨observer, marker⟩ else none,
    { root with marker := root.marker.replace marker replacement })

/-- `initialize` and `persist`: the snapshot, then its marker. -/
def persist (root : StateRoot D S) (observer : UnsignedObserver D S) (initial : Bool)
    (identity : SnapshotIdentity) (snapshot marker : Replacement) :
    Option (RootedObserver D S) × StateRoot D S :=
  match observer.persistUnsignedState identity with
  | .error _ => (none, root)
  | .ok (persisted, envelope) =>
    let written := { root with snapshot := root.snapshot.replace envelope snapshot }
    if snapshot ≠ .synced ∨ (initial = true ∧ envelope.generation ≠ 0) then (none, written)
    else written.writeMarker persisted envelope.generation identity marker

def restore [Sha256] [DecimalNormalize D] [DecidableEq S.Configuration] (root : StateRoot D S)
    (observer : UnsignedObserver D S) (marker : InitializationMarker)
    (identity : SnapshotIdentity) (replacement : Replacement) :
    Option (RootedObserver D S) × StateRoot D S :=
  match root.snapshot.contents with
  | none => (none, root)
  | some envelope =>
    match observer.restoreUnsignedState envelope identity with
    | .error _ => (none, root)
    | .ok restored =>
      if envelope.generation < marker.generation then (none, root)
      else if marker.generation < envelope.generation then
        root.writeMarker restored envelope.generation identity replacement
      else (some ⟨restored, marker⟩, root)

end StateRoot

/-- A state root and the process that holds its lock. -/
structure StateRootRun (D : Type) [Decimal D] (S : StrategyTypes) where
  process : Option (RootedObserver D S)
  root : StateRoot D S

/-- What happens to a state root: a process starts, calls its engine, persists or ends. -/
inductive StateRootStep (D : Type) [Decimal D] (S : StrategyTypes)
  | start (engineInstance : Bytes 16) (productionIdentity : Option ProductionIntentIdentity)
      (snapshot marker : Replacement)
  | engine (observed : ObservedCall D S)
  | persist (snapshot marker : Replacement)
  | stop

namespace StateRootRun

variable [Sha256] [DecimalNormalize D] [IntentEncoding D] [DecidableEq S.Configuration]

/-- A new process initializes or restores. -/
def startup (setup : ObserverSetup S) (root : StateRoot D S) (fresh : UnsignedObserver D S)
    (snapshot marker : Replacement) : Option (RootedObserver D S) × StateRoot D S :=
  match root.acquire setup.identity with
  | (.error _, root) => (none, root)
  | (.ok none, root) => root.persist fresh true setup.identity snapshot marker
  | (.ok (some held), root) => root.restore fresh held setup.identity marker

def step (settings : EngineSettings D) (setup : ObserverSetup S) (run : StateRootRun D S)
    (action : StateRootStep D S) : StateRootRun D S :=
  match run.process, action with
  | none, .start engineInstance productionIdentity snapshot marker =>
    let (process, root) := startup setup run.root (setup.fresh engineInstance productionIdentity)
      snapshot marker
    ⟨process, root⟩
  | some process, .engine observed =>
    match process.observer.call settings observed with
    | .error _ => { run with process := none }
    | .ok (observer, _) => { run with process := some { process with observer } }
  | some process, .persist snapshot marker =>
    let (process, root) := run.root.persist process.observer false setup.identity snapshot marker
    ⟨process, root⟩
  | some _, .stop => { run with process := none }
  | _, _ => run

end StateRootRun

end CopyTrade.Model
