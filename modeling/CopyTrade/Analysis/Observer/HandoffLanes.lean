import CopyTrade.Analysis.Observer.WorkerProgress
import CopyTrade.Foundation.Runs

/-!
# The lanes of the handoff queue

An entry leaves its lane only when it is rejected, superseded or reconciled, and the events that
finish an intent are applied to the production state, not to the queue.  A finished intent has left
its lane exactly where no such event finds it there, and nothing takes it back.
-/

namespace CopyTrade.Analysis

open Foundation Model Model.IpcClient
open Model.IpcClient.DurableHandoffQueue
open Std (ExtTreeMap)

variable {D : Type}

def terminalCloid : VerifiedReconciliationPayload D → Option PlannedCloid
  | .orderRejected cloid _ | .orderCancelled cloid _ | .reconciled cloid => some cloid
  | _ => none

/-- The events that have been applied between two production states: of the delivered event and the
buffered ones those whose sequence has become known. -/
def appliedEvents (before after : ProductionTradingState D) (event : VerifiedReconciliationEvent D) :
    List (VerifiedReconciliationEvent D) :=
  (event :: before.reorderBuffer.values).filter fun applied =>
    decide (before.appliedEventHashes[applied.identity.sequence]? = none) &&
      decide (after.appliedEventHashes[applied.identity.sequence]? = some applied.identity.eventHash)

/-- The intents of the queue that are finished by the events applied up to a production state. -/
def finishedBy (books : HandoffBooks D) (after : ProductionTradingState D)
    (event : VerifiedReconciliationEvent D) : List PlannedCloid :=
  ((appliedEvents books.production after event).filterMap fun applied =>
    terminalCloid applied.payload).filter (books.queue.byCloid.contains ·)

/-- The books with the intents that have been finished while they were in the queue. -/
structure LaneRun (D : Type) where
  books : HandoffBooks D
  finished : List PlannedCloid

def OutOfLane (queue : DurableHandoffQueue D) (cloid : PlannedCloid) : Prop :=
  ∀ entry, queue.byCloid[cloid]? = some entry → leftLane entry.state = true

def FinishedOutOfLane (run : LaneRun D) : Prop :=
  ∀ cloid ∈ run.finished, OutOfLane run.books.queue cloid

def FinishedQueued (run : LaneRun D) : Prop :=
  ∀ cloid ∈ run.finished, cloid ∈ run.books.queue.byCloid

def unfinishedInLane (run : LaneRun D) (reduceOnly : Bool) : ℕ :=
  run.books.queue.byCloid.toList.countP fun entry =>
    entry.2.intent.reduceOnly == reduceOnly && !run.finished.contains entry.1

def unfinishedInQueue (run : LaneRun D) : ℕ :=
  run.books.queue.byCloid.toList.countP fun entry => !run.finished.contains entry.1

theorem outOfLane_insert {queue : DurableHandoffQueue D} {cloid other : PlannedCloid}
    {entry : PendingHandoff D} :
    OutOfLane { queue with byCloid := queue.byCloid.insert cloid entry } other ↔
      if cloid = other then leftLane entry.state = true else OutOfLane queue other := by
  unfold OutOfLane
  simp only [getElem?_insert_eq]
  split
  · simp
  · rfl

theorem changeState_cases (queue : DurableHandoffQueue D) (cloid : PlannedCloid)
    (change : IpcClient.ObserverIntentState → IpcClient.ObserverIntentState) :
    (cloid ∉ queue.byCloid ∧ queue.changeState cloid change = .error .unknownCloid) ∨
      ∃ pending, queue.byCloid[cloid]? = some pending ∧ queue.changeState cloid change =
        .ok { queue with
          byCloid := queue.byCloid.insert cloid { pending with state := change pending.state } } := by
  unfold changeState
  cases hget : queue.byCloid[cloid]? with
  | none =>
    left
    refine ⟨?_, rfl⟩
    rw [mem_iff_exists, hget]
    simp
  | some pending => exact .inr ⟨pending, rfl, rfl⟩

theorem orKept_changeState (queue : DurableHandoffQueue D) (cloid : PlannedCloid)
    (change : IpcClient.ObserverIntentState → IpcClient.ObserverIntentState) :
    (∀ other ∈ queue.byCloid, other ∈ (queue.orKept (queue.changeState cloid change)).byCloid) ∧
      ∀ other, OutOfLane (queue.orKept (queue.changeState cloid change)) other ↔
        if cloid = other then ∀ pending, queue.byCloid[cloid]? = some pending →
          leftLane (change pending.state) = true
        else OutOfLane queue other := by
  rcases changeState_cases queue cloid change with ⟨hmissing, heq⟩ | ⟨pending, hget, heq⟩
  · rw [heq, DurableHandoffQueue.orKept]
    refine ⟨fun _ h => h, ?_⟩
    intro other
    split
    · rename_i hsame
      subst hsame
      have hnone : queue.byCloid[cloid]? = none := by
        rw [mem_iff_exists] at hmissing
        cases hget : queue.byCloid[cloid]? with
        | none => rfl
        | some pending => exact absurd ⟨pending, hget⟩ hmissing
      simp [OutOfLane, hnone]
    · rfl
  · rw [heq, DurableHandoffQueue.orKept]
    refine ⟨fun other h => ExtTreeMap.mem_insert.mpr (.inr h), ?_⟩
    intro other
    rw [outOfLane_insert]
    split
    · simp [hget]
    · rfl

theorem laneCount_le {run : LaneRun D} (h : FinishedOutOfLane run) (reduceOnly : Bool) :
    run.books.queue.laneCount reduceOnly ≤ unfinishedInLane run reduceOnly := by
  unfold laneCount unfinishedInLane
  rw [values_eq_map_toList, List.countP_map]
  apply List.countP_mono_left
  intro entry hentry hoccupies
  rw [Function.comp_apply, Bool.and_eq_true, Bool.not_eq_true'] at hoccupies
  rw [Bool.and_eq_true, Bool.not_eq_true']
  refine ⟨hoccupies.1, ?_⟩
  rw [← Bool.not_eq_true, List.contains_iff_mem]
  intro hfinished
  have hget : run.books.queue.byCloid[entry.1]? = some entry.2 :=
    ExtTreeMap.mem_toList_iff_getElem?_eq_some.mp hentry
  rw [h entry.1 hfinished entry.2 hget] at hoccupies
  cases hoccupies.2

theorem unresolvedLen_le {run : LaneRun D} (h : FinishedOutOfLane run) :
    run.books.queue.unresolvedLen ≤ unfinishedInQueue run := by
  unfold unresolvedLen unfinishedInQueue
  rw [values_eq_map_toList, List.countP_map]
  apply List.countP_mono_left
  intro entry hentry hoccupies
  rw [Function.comp_apply, Bool.not_eq_true'] at hoccupies
  rw [Bool.not_eq_true', ← Bool.not_eq_true, List.contains_iff_mem]
  intro hfinished
  have hget : run.books.queue.byCloid[entry.1]? = some entry.2 :=
    ExtTreeMap.mem_toList_iff_getElem?_eq_some.mp hentry
  have hleft := h entry.1 hfinished entry.2 hget
  cases hstate : entry.2.state <;> simp_all [leftLane, resolved]

variable [Decimal D]

namespace LaneRun

section

variable [Sha256] [PayloadEncoding D] [DecimalText D] [JsonText]

/-- One round of `reconcile_into`. -/
def event (run : LaneRun D) (replayed : ReplayedEvent D) : Bool × LaneRun D :=
  ((run.books.reconcileEvent replayed).1, {
    books := (run.books.reconcileEvent replayed).2
    finished := run.finished ++
      finishedBy run.books (run.books.production.applyReconciliationEvent replayed.event).2
        replayed.event })

/-- `reconcile_into`. -/
def reconcile : LaneRun D → List (ReplayedEvent D) → LaneRun D
  | run, [] => run
  | run, replayed :: rest =>
    match run.event replayed with
    | (false, next) => next
    | (true, next) => next.reconcile rest

def step [MessagePack] [IntentEncoding D] (run : LaneRun D) : HandoffCall D → LaneRun D
  | .reconcileInto events => run.reconcile events
  | .markRejected cloid reason => {
      books := run.books.after (.markRejected cloid reason)
      finished := if run.books.queue.byCloid.contains cloid then cloid :: run.finished
        else run.finished }
  | call => { run with books := run.books.after call }

end

end LaneRun

section

variable [Sha256] [PayloadEncoding D] [DecimalText D] [JsonText]

/-- An event is applied, and the state can be saved after it. -/
def AppliedAndSaved (books : HandoffBooks D) (replayed : ReplayedEvent D) : Prop :=
  (books.production.applyReconciliationEvent replayed.event).1.isOk = true ∧
    HandoffBooks.savesState (books.production.applyReconciliationEvent replayed.event).2
      replayed.stateWritten = true

theorem reconcileEvent_queue (books : HandoffBooks D) (replayed : ReplayedEvent D) :
    ((books.reconcileEvent replayed).2.queue = books.queue ∧
      ∀ cloid, authorizedNotSubmitted replayed.event.payload = some cloid →
        AppliedAndSaved books replayed → cloid ∉ books.queue.byCloid) ∨
    ∃ cloid pending, authorizedNotSubmitted replayed.event.payload = some cloid ∧
      AppliedAndSaved books replayed ∧ books.queue.byCloid[cloid]? = some pending ∧
      (books.reconcileEvent replayed).2.queue = { books.queue with
        byCloid := books.queue.byCloid.insert cloid { pending with state := .persisted } } := by
  unfold HandoffBooks.reconcileEvent AppliedAndSaved
  cases happly : books.production.applyReconciliationEvent replayed.event with
  | mk result production =>
    cases result with
    | error error =>
      left
      refine ⟨rfl, ?_⟩
      rintro cloid - ⟨hok, -⟩
      cases hok
    | ok application =>
      by_cases hsaved : HandoffBooks.savesState production replayed.stateWritten = true
      · simp only [hsaved, Bool.not_true, Bool.false_eq_true, if_false]
        cases hcloid : authorizedNotSubmitted replayed.event.payload with
        | none =>
          left
          refine ⟨rfl, ?_⟩
          rintro cloid ⟨⟩
        | some cloid =>
          dsimp only
          rcases changeState_cases books.queue cloid fun _ => .persisted with
            ⟨hmissing, heq⟩ | ⟨pending, hget, heq⟩
          · left
            rw [heq]
            refine ⟨rfl, ?_⟩
            rintro other ⟨⟩ -
            exact hmissing
          · right
            rw [heq]
            exact ⟨cloid, pending, rfl, ⟨rfl, trivial⟩, hget, rfl⟩
      · rw [Bool.not_eq_true] at hsaved
        left
        simp only [hsaved, Bool.not_false, if_true]
        refine ⟨trivial, ?_⟩
        rintro cloid - ⟨-, hsaved'⟩
        cases hsaved'

/-- An event finishes only intents that are out of their lanes, and puts no finished intent back. -/
structure SoundEvent (run : LaneRun D) (replayed : ReplayedEvent D) : Prop where
  finishes : ∀ cloid ∈ finishedBy run.books
    (run.books.production.applyReconciliationEvent replayed.event).2 replayed.event,
      OutOfLane run.books.queue cloid
  reopens : ∀ cloid, authorizedNotSubmitted replayed.event.payload = some cloid →
    AppliedAndSaved run.books replayed → cloid ∉ (run.event replayed).2.finished

variable {run : LaneRun D}

theorem finishedQueued_event (h : FinishedQueued run) (replayed : ReplayedEvent D) :
    FinishedQueued (run.event replayed).2 := by
  have hkeys : ∀ cloid ∈ run.books.queue.byCloid,
      cloid ∈ (run.books.reconcileEvent replayed).2.queue.byCloid := by
    intro cloid hcloid
    rcases reconcileEvent_queue run.books replayed with ⟨heq, -⟩ | ⟨other, pending, -, -, -, heq⟩
    · rwa [heq]
    · rw [heq]
      exact ExtTreeMap.mem_insert.mpr (.inr hcloid)
  intro cloid hcloid
  rcases List.mem_append.mp hcloid with hbefore | hnew
  · exact hkeys cloid (h cloid hbefore)
  · apply hkeys cloid
    exact ExtTreeMap.contains_iff_mem.mp (List.mem_filter.mp hnew).2

theorem finishedOutOfLane_event_iff (hqueued : FinishedQueued run) (h : FinishedOutOfLane run)
    (replayed : ReplayedEvent D) :
    FinishedOutOfLane (run.event replayed).2 ↔ SoundEvent run replayed := by
  have hfinished : ∀ cloid, cloid ∈ (run.event replayed).2.finished ↔ cloid ∈ run.finished ∨
      cloid ∈ finishedBy run.books
        (run.books.production.applyReconciliationEvent replayed.event).2 replayed.event :=
    fun cloid => List.mem_append
  rcases reconcileEvent_queue run.books replayed with
    ⟨hqueue, hmissing⟩ | ⟨other, pending, hother, hreached, hget, hqueue⟩
  · have hsame : ∀ cloid, OutOfLane (run.event replayed).2.books.queue cloid ↔
        OutOfLane run.books.queue cloid := by
      intro cloid
      rw [LaneRun.event, hqueue]
    constructor
    · intro hafter
      refine ⟨?_, ?_⟩
      · intro cloid hcloid
        exact (hsame cloid).mp (hafter cloid ((hfinished cloid).mpr (.inr hcloid)))
      · intro cloid hcloid hreached hmem
        exact hmissing cloid hcloid hreached
          (hqueue ▸ finishedQueued_event hqueued replayed cloid hmem)
    · intro hsound cloid hcloid
      rw [hsame]
      rcases (hfinished cloid).mp hcloid with hbefore | hnew
      · exact h cloid hbefore
      · exact hsound.finishes cloid hnew
  · have hchanged : ∀ cloid, OutOfLane (run.event replayed).2.books.queue cloid ↔
        other ≠ cloid ∧ OutOfLane run.books.queue cloid := by
      intro cloid
      rw [LaneRun.event, hqueue, outOfLane_insert]
      split
      · rename_i heq
        simp [heq, leftLane]
      · rename_i hne
        simp [hne]
    constructor
    · intro hafter
      refine ⟨?_, ?_⟩
      · intro cloid hcloid
        exact ((hchanged cloid).mp (hafter cloid ((hfinished cloid).mpr (.inr hcloid)))).2
      · intro cloid hcloid _ hmem
        rw [hother, Option.some.injEq] at hcloid
        exact ((hchanged cloid).mp (hafter cloid hmem)).1 hcloid
    · intro hsound cloid hcloid
      rw [hchanged]
      constructor
      · rintro rfl
        exact hsound.reopens other hother hreached hcloid
      · rcases (hfinished cloid).mp hcloid with hbefore | hnew
        · exact h cloid hbefore
        · exact hsound.finishes cloid hnew

theorem not_finishedOutOfLane_event (h : ¬ FinishedOutOfLane run) (replayed : ReplayedEvent D) :
    ¬ FinishedOutOfLane (run.event replayed).2 := by
  intro hafter
  apply h
  intro cloid hcloid
  have hout := hafter cloid (List.mem_append_left _ hcloid)
  rw [LaneRun.event] at hout
  rcases reconcileEvent_queue run.books replayed with ⟨heq, -⟩ | ⟨other, pending, -, -, -, heq⟩
  · rwa [heq] at hout
  · rw [heq, outOfLane_insert] at hout
    split at hout
    · cases hout
    · exact hout

/-- Every event that `reconcile_into` comes to is sound. -/
def ReconcilesSoundly : LaneRun D → List (ReplayedEvent D) → Prop
  | _, [] => True
  | run, replayed :: rest => SoundEvent run replayed ∧
      ((run.event replayed).1 = true → ReconcilesSoundly (run.event replayed).2 rest)

theorem reconcile_keeps (P : LaneRun D → Prop)
    (hevent : ∀ run replayed, P run → P (run.event replayed).2) (h : P run)
    (events : List (ReplayedEvent D)) : P (run.reconcile events) := by
  induction events generalizing run with
  | nil => exact h
  | cons replayed rest ih =>
    have hnext := hevent run replayed h
    rw [LaneRun.reconcile]
    cases hround : run.event replayed with
    | mk continues next =>
      rw [hround] at hnext
      cases continues with
      | false => exact hnext
      | true => exact ih hnext

theorem finishedOutOfLane_reconcile_iff (hqueued : FinishedQueued run) (h : FinishedOutOfLane run)
    (events : List (ReplayedEvent D)) :
    FinishedOutOfLane (run.reconcile events) ↔ ReconcilesSoundly run events := by
  induction events generalizing run with
  | nil => exact iff_of_true h trivial
  | cons replayed rest ih =>
    have hqueuedNext := finishedQueued_event hqueued replayed
    have hnext := finishedOutOfLane_event_iff hqueued h replayed
    rw [LaneRun.reconcile, ReconcilesSoundly, ← hnext]
    cases hround : run.event replayed with
    | mk continues next =>
      rw [hround] at hqueuedNext
      cases continues with
      | false => simp
      | true =>
        simp only [true_implies]
        constructor
        · intro hafter
          have hout : FinishedOutOfLane next := by
            by_contra hout
            exact reconcile_keeps (fun run => ¬ FinishedOutOfLane run)
              (fun _ replayed hout => not_finishedOutOfLane_event hout replayed) hout rest hafter
          exact ⟨hout, (ih hqueuedNext hout).mp hafter⟩
        · rintro ⟨hout, hsound⟩
          exact (ih hqueuedNext hout).mpr hsound

end

section

variable [Sha256] [MessagePack] [IntentEncoding D] [DecimalText D]

/-- A fresh canonical intent fails for capacity only where the unfinished intents fill its lane or the
queue. -/
def FailsWhenOccupied (run : LaneRun D) : HandoffCall D → Prop
  | .enqueue intent =>
    run.books.queue.byCloid[intent.plannedCloid]? = none → intent.validateCanonical = .ok () →
      (run.books.queue.enqueue intent).1 = .error .capacityExhausted →
        run.books.queue.laneCapacity intent.reduceOnly ≤ unfinishedInLane run intent.reduceOnly ∨
          run.books.queue.maximumPendingIntents ≤ unfinishedInQueue run
  | _ => True

theorem enqueue_queue (queue : DurableHandoffQueue D) (intent : AuthorizedExecutionIntent D) :
    (queue.enqueue intent).2.byCloid = queue.byCloid ∨
      intent.plannedCloid ∉ queue.byCloid ∧ ∃ pending : PendingHandoff D,
        (queue.enqueue intent).2.byCloid = queue.byCloid.insert intent.plannedCloid pending := by
  unfold enqueue
  split
  · left
    split <;> rfl
  · rename_i hmissing
    split
    · exact .inl rfl
    split
    · exact .inl rfl
    split
    · exact .inl rfl
    split
    · exact .inl rfl
    split
    · exact .inl rfl
    · right
      refine ⟨?_, _, rfl⟩
      rw [mem_iff_exists, hmissing]
      simp

theorem enqueue_eq_capacityExhausted {queue : DurableHandoffQueue D}
    {intent : AuthorizedExecutionIntent D}
    (hfresh : queue.byCloid[intent.plannedCloid]? = none)
    (h : (queue.enqueue intent).1 = .error .capacityExhausted) :
    queue.maximumPendingIntents ≤ queue.unresolvedLen ∨
      queue.laneCapacity intent.reduceOnly ≤ queue.laneCount intent.reduceOnly := by
  unfold enqueue at h
  rw [hfresh] at h
  dsimp only at h
  split at h
  · cases h
  split at h
  · rename_i hfull
    exact .inl hfull
  split at h
  · rename_i hfull
    exact .inr hfull
  split at h
  · cases h
  split at h
  · rename_i error hsubmission
    rw [Except.error.injEq] at h
    subst h
    unfold submission at hsubmission
    rcases bind_eq_error_iff.mp hsubmission with hframe | ⟨frame, -, hvalue⟩
    · cases hencoded : encodeFrame (serializeTagged "type" Derived.observerRequestVariants)
          observerMessageType queue.nextSequence (ObserverRequest.submit intent)
          (16 * 1024 * 1024) <;> rw [hencoded] at hframe <;> cases hframe
    · rcases bind_eq_error_iff.mp hvalue with hserialized | ⟨value, -, hpure⟩
      · cases hencoded : serializeTagged "type" Derived.observerRequestVariants
            (ObserverRequest.submit intent) <;> rw [hencoded] at hserialized <;> cases hserialized
      · cases hpure
  · cases h

variable {run : LaneRun D}

theorem failsWhenOccupied_of_outOfLane (h : FinishedOutOfLane run) (call : HandoffCall D) :
    FailsWhenOccupied run call := by
  cases call with
  | enqueue intent =>
    intro hfresh _ hfails
    rcases enqueue_eq_capacityExhausted hfresh hfails with hfull | hfull
    · exact .inr (hfull.trans (unresolvedLen_le h))
    · exact .inl (hfull.trans (laneCount_le h intent.reduceOnly))
  | _ => trivial

variable [PayloadEncoding D] [JsonText]

/-- A call takes no finished intent back into its lane: none is accepted again, and the events that
are reconciled find the intents they finish out of their lanes. -/
def ReleasesLanes (run : LaneRun D) : HandoffCall D → Prop
  | .markAccepted cloid => cloid ∉ run.finished
  | .reconcileInto events => ReconcilesSoundly run events
  | _ => True

theorem finishedQueued_step (h : FinishedQueued run) (call : HandoffCall D) :
    FinishedQueued (run.step call) := by
  cases call with
  | enqueue intent =>
    intro cloid hcloid
    have hmem := h cloid hcloid
    rcases enqueue_queue run.books.queue intent with heq | ⟨-, pending, heq⟩
    · simpa only [LaneRun.step, HandoffBooks.after, heq] using hmem
    · simp only [LaneRun.step, HandoffBooks.after, heq]
      exact ExtTreeMap.mem_insert.mpr (.inr hmem)
  | markAccepted cloid =>
    intro other hother
    exact (orKept_changeState run.books.queue cloid _).1 other (h other hother)
  | markRejected cloid reason =>
    intro other hother
    apply (orKept_changeState run.books.queue cloid fun _ => .rejected reason).1
    simp only [LaneRun.step] at hother
    split at hother
    · rename_i hmem
      rcases List.mem_cons.mp hother with rfl | hother
      · exact ExtTreeMap.contains_iff_mem.mp hmem
      · exact h other hother
    · exact h other hother
  | markDisconnect cloid =>
    intro other hother
    exact (orKept_changeState run.books.queue cloid _).1 other (h other hother)
  | reconcileInto events =>
    exact reconcile_keeps FinishedQueued
      (fun _ replayed hqueued => finishedQueued_event hqueued replayed) h events

theorem finishedOutOfLane_step_iff (hqueued : FinishedQueued run) (h : FinishedOutOfLane run)
    (call : HandoffCall D) : FinishedOutOfLane (run.step call) ↔ ReleasesLanes run call := by
  cases call with
  | enqueue intent =>
    refine iff_of_true ?_ trivial
    intro cloid hcloid entry hentry
    simp only [LaneRun.step, HandoffBooks.after] at hcloid hentry
    rcases enqueue_queue run.books.queue intent with heq | ⟨hnew, pending, heq⟩
    · rw [heq] at hentry
      exact h cloid hcloid entry hentry
    · have hne : intent.plannedCloid ≠ cloid := by
        rintro rfl
        exact hnew (hqueued _ hcloid)
      rw [heq, getElem?_insert_of_ne hne] at hentry
      exact h cloid hcloid entry hentry
  | markAccepted cloid =>
    have hchanged := (orKept_changeState run.books.queue cloid fun _ => .acceptedBySigner).2
    constructor
    · intro hafter hfinished
      have hout := (hchanged cloid).mp (hafter cloid hfinished)
      rw [if_pos rfl] at hout
      obtain ⟨pending, hget⟩ := (mem_iff_exists _ _).mp (hqueued cloid hfinished)
      cases hout pending hget
    · intro hunfinished other hother
      refine (hchanged other).mpr ?_
      rw [if_neg]
      · exact h other hother
      · rintro rfl
        exact hunfinished hother
  | markRejected cloid reason =>
    refine iff_of_true ?_ trivial
    have hchanged := (orKept_changeState run.books.queue cloid fun _ => .rejected reason).2
    intro other hother
    refine (hchanged other).mpr ?_
    split
    · exact fun _ _ => rfl
    · rename_i hne
      simp only [LaneRun.step] at hother
      split at hother
      · rcases List.mem_cons.mp hother with heq | hother
        · exact absurd heq.symm hne
        · exact h other hother
      · exact h other hother
  | markDisconnect cloid =>
    refine iff_of_true ?_ trivial
    have hchanged := (orKept_changeState run.books.queue cloid
      fun state => if state = .sent then .submissionUnknown else state).2
    intro other hother
    refine (hchanged other).mpr ?_
    split
    · rename_i hsame
      subst hsame
      intro pending hget
      have hleft := h cloid hother pending hget
      split
      · rename_i hsent
        rw [hsent] at hleft
        cases hleft
      · exact hleft
    · exact h other hother
  | reconcileInto events => exact finishedOutOfLane_reconcile_iff hqueued h events

end

def secondEnvelope : AuthorizedExecutionIntent ℤ :=
  { wholeEnvelope with plannedCloid := Bytes.replicate 16 2, rootCloid := Bytes.replicate 16 2 }

/-- An event of the signer about the first intent, written to both files. -/
def replayedOf (sequence : ℕ) (payload : VerifiedReconciliationPayload ℤ) : ReplayedEvent ℤ where
  event := {
    identity := {
      signerInstanceId := Bytes.replicate 16 1
      sequence
      eventHash := Bytes.replicate 32 0 }
    payload }
  stateWritten := .ok ()
  queueWritten := .ok ()

/-- The first intent is enqueued, accepted by the signer, and reconciled. -/
def acceptedAndReconciled : List (HandoffCall ℤ) :=
  [.enqueue wholeEnvelope, .markAccepted wholeEnvelope.plannedCloid,
    .reconcileInto [replayedOf 1 (.intentAccepted ⟨wholeEnvelope.plannedCloid, 1,
      Bytes.replicate 32 0⟩ 1)],
    .reconcileInto [replayedOf 2 (.reconciled wholeEnvelope.plannedCloid)]]

def reconciledHandoff [Sha256] [MessagePack] [IntentEncoding ℤ] [PayloadEncoding ℤ] [JsonText] :
    Option (LaneRun ℤ) := do
  let queue ← (DurableHandoffQueue.withLanes 1 1).toOption
  let live ← (LiveTradingState.new 1000 0).toOption
  pure (run LaneRun.step ⟨⟨queue, ProductionTradingState.new live⟩, []⟩ acceptedAndReconciled)

end CopyTrade.Analysis
