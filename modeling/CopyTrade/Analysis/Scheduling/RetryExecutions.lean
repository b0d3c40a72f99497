import CopyTrade.Analysis.Scheduling.RetryDelays

/-!
# The executions of a scheduled request

A request that is retried is the request that was scheduled, for a later attempt.  A run that
numbers the calls of `schedule` and carries the numbers along with the requests counts how often
each scheduled request is executed.
-/

namespace CopyTrade.Analysis

open Foundation Model

inductive RequestSlot
  | pending
  | inFlight
  | successor
deriving DecidableEq

/-- A run, the number of the scheduling from which the request in each place stems, how many
schedulings there were, and the executions of each. -/
structure TracedRun where
  state : SchedulerRun
  origin : RequestSlot → RequestKey → ℕ
  scheduled : ℕ
  executions : ℕ → ℕ

def place (origin : RequestSlot → RequestKey → ℕ) (slot : RequestSlot) (key : RequestKey)
    (number : ℕ) :
    RequestSlot → RequestKey → ℕ :=
  fun other otherKey => if other = slot ∧ otherKey = key then number else origin other otherKey

def scheduledOrigin (origin : RequestSlot → RequestKey → ℕ) (key : RequestKey) (number : ℕ) :
    ScheduleOutcome → RequestSlot → RequestKey → ℕ
  | .enqueued | .replacedOlder => place origin .pending key number
  | .successorRecorded => place origin .successor key number
  | .rejectedOlder | .rejectedQueueFull | .rejectedInvalid | .rejectedOverweight | .expired =>
    origin

/-- What waits for a key after the response to its request: its successor or its retry. -/
def finishedOrigin (origin : RequestSlot → RequestKey → ℕ) (key : RequestKey) :
    ExecutionOutcome → RequestSlot → RequestKey → ℕ
  | .superseded => place origin .pending key (origin .successor key)
  | .retryScheduled => place origin .pending key (origin .inFlight key)
  | .completedFresh | .completedButStale | .retryExhausted | .invalidResponse
  | .permanentFailure => origin

namespace TracedRun

def start (scheduler : RequestScheduler) : TracedRun where
  state := ⟨scheduler, []⟩
  origin := fun _ _ => 0
  scheduled := 0
  executions := fun _ => 0

def after [SliceSort] (traced : TracedRun) (call : SchedulerCall) : TracedRun :=
  let next : TracedRun := { traced with state := traced.state.after call }
  match call with
  | .schedule request nowMs => { next with
      origin := scheduledOrigin traced.origin request.key traced.scheduled
        (traced.state.scheduler.schedule request nowMs).1
      scheduled := traced.scheduled + 1 }
  | .beginNext nowMs =>
    match (traced.state.scheduler.beginNext nowMs).1 with
    | none => next
    | some dispatch =>
      let number := traced.origin .pending dispatch.request.key
      { next with
        origin := place traced.origin .inFlight dispatch.request.key number
        executions := Function.update traced.executions number (traced.executions number + 1) }
  | .finish index result nowMs scheduleNowMs =>
    match traced.state.held[index]? with
    | none => next
    | some dispatch => { next with
        origin := finishedOrigin traced.origin dispatch.request.key
          (traced.state.scheduler.finish dispatch result nowMs scheduleNowMs).1 }
  | .drop index =>
    match traced.state.held[index]? with
    | none => next
    | some dispatch =>
      if (traced.state.scheduler.release dispatch).1 then { next with
        origin := place traced.origin .pending dispatch.request.key
          (traced.origin .successor dispatch.request.key) }
      else next

theorem after_state [SliceSort] (traced : TracedRun) (call : SchedulerCall) :
    (traced.after call).state = traced.state.after call := by
  cases call with
  | schedule request nowMs => rfl
  | beginNext nowMs =>
    unfold TracedRun.after
    dsimp only
    split <;> rfl
  | finish index result nowMs scheduleNowMs =>
    unfold TracedRun.after
    dsimp only
    split <;> rfl
  | drop index =>
    unfold TracedRun.after
    dsimp only
    split
    · rfl
    · split <;> rfl

end TracedRun

def Occupies (state : SchedulerRun) (request : ScheduledReadRequest) : RequestSlot → Prop
  | .pending => state.scheduler.queue.pending[request.key]? = some request
  | .inFlight => ∃ dispatch ∈ state.held, dispatch.request = request
  | .successor => state.scheduler.queue.successors[request.key]? = some request

/-- No scheduled request is in two places, and what waits has been executed less often than its
attempt says and than the policy allows. -/
structure Counted (maximumAttempts : ℕ) (traced : TracedRun) : Prop where
  bound : ∀ number, traced.executions number ≤ maximumAttempts
  unused : ∀ number, traced.scheduled ≤ number → traced.executions number = 0
  known : ∀ slot request, Occupies traced.state request slot →
    traced.origin slot request.key < traced.scheduled
  waiting : ∀ slot request, slot ≠ .inFlight → Occupies traced.state request slot →
    traced.executions (traced.origin slot request.key) ≤ request.attempt ∧
      traced.executions (traced.origin slot request.key) < maximumAttempts
  flying : ∀ request, Occupies traced.state request .inFlight →
    traced.executions (traced.origin .inFlight request.key) ≤ request.attempt + 1
  apart : ∀ slot request otherSlot other, Occupies traced.state request slot →
    Occupies traced.state other otherSlot →
      traced.origin slot request.key = traced.origin otherSlot other.key →
        slot = otherSlot ∧ request.key = other.key

section

variable {maximumAttempts : ℕ} {traced : TracedRun} {next : SchedulerRun}
  {request : ScheduledReadRequest}

theorem place_self (origin : RequestSlot → RequestKey → ℕ) (slot : RequestSlot) (key : RequestKey)
    (number : ℕ) : place origin slot key number slot key = number :=
  if_pos ⟨rfl, rfl⟩

theorem place_of_ne {origin : RequestSlot → RequestKey → ℕ} {slot other : RequestSlot}
    {key otherKey : RequestKey} {number : ℕ} (h : ¬ (other = slot ∧ otherKey = key)) :
    place origin slot key number other otherKey = origin other otherKey :=
  if_neg h

theorem counted_start (scheduler : RequestScheduler)
    (hqueue : scheduler.queue = QueueState.empty) :
    Counted maximumAttempts (TracedRun.start scheduler) := by
  have hnone : ∀ (slot : RequestSlot) (request : ScheduledReadRequest),
      ¬ Occupies (TracedRun.start scheduler).state request slot := by
    intro slot request hoccupies
    cases slot <;> simp [Occupies, TracedRun.start, hqueue, QueueState.empty] at hoccupies
  refine ⟨fun _ => Nat.zero_le _, fun _ _ => rfl, ?_, ?_, ?_, ?_⟩
  · exact fun slot request hoccupies => absurd hoccupies (hnone slot request)
  · exact fun slot request _ hoccupies => absurd hoccupies (hnone slot request)
  · exact fun request hoccupies => absurd hoccupies (hnone _ request)
  · exact fun slot request _ _ hoccupies => absurd hoccupies (hnone slot request)

theorem Counted.lose (h : Counted maximumAttempts traced) {scheduled : ℕ}
    (hscheduled : traced.scheduled ≤ scheduled)
    (hoccupies : ∀ slot request, Occupies next request slot → Occupies traced.state request slot) :
    Counted maximumAttempts { traced with state := next, scheduled } := by
  refine ⟨h.bound, ?_, ?_, ?_, ?_, ?_⟩
  · intro number hle
    apply h.unused
    exact hscheduled.trans hle
  · intro slot request hin
    exact (h.known slot request (hoccupies slot request hin)).trans_le hscheduled
  · intro slot request hslot hin
    exact h.waiting slot request hslot (hoccupies slot request hin)
  · intro request hin
    exact h.flying request (hoccupies .inFlight request hin)
  · intro slot request otherSlot other hin hother
    exact h.apart slot request otherSlot other (hoccupies slot request hin)
      (hoccupies otherSlot other hother)

theorem Counted.enter (h : Counted maximumAttempts traced) {slot : RequestSlot}
    (hslot : slot ≠ .inFlight)
    {number scheduled : ℕ} (hscheduled : traced.scheduled ≤ scheduled)
    (hnumber : number < scheduled) (hattempt : traced.executions number ≤ request.attempt)
    (hfew : traced.executions number < maximumAttempts)
    (hoccupies : ∀ other otherRequest, Occupies next otherRequest other →
      other = slot ∧ otherRequest = request ∨
        Occupies traced.state otherRequest other ∧
          ¬ (other = slot ∧ otherRequest.key = request.key) ∧
          traced.origin other otherRequest.key ≠ number) :
    Counted maximumAttempts { traced with
      state := next, scheduled, origin := place traced.origin slot request.key number } := by
  refine ⟨h.bound, ?_, ?_, ?_, ?_, ?_⟩
  · intro other hle
    apply h.unused
    exact hscheduled.trans hle
  · intro other otherRequest hin
    dsimp only
    rcases hoccupies other otherRequest hin with ⟨rfl, rfl⟩ | ⟨hbefore, hplace, -⟩
    · rw [place_self]
      exact hnumber
    · rw [place_of_ne hplace]
      exact (h.known other otherRequest hbefore).trans_le hscheduled
  · intro other otherRequest hwaits hin
    dsimp only
    rcases hoccupies other otherRequest hin with ⟨rfl, rfl⟩ | ⟨hbefore, hplace, -⟩
    · rw [place_self]
      exact ⟨hattempt, hfew⟩
    · rw [place_of_ne hplace]
      exact h.waiting other otherRequest hwaits hbefore
  · intro otherRequest hin
    dsimp only
    rcases hoccupies .inFlight otherRequest hin with ⟨hsame, -⟩ | ⟨hbefore, hplace, -⟩
    · exact absurd hsame.symm hslot
    · rw [place_of_ne hplace]
      exact h.flying otherRequest hbefore
  · intro first firstRequest second secondRequest hfirst hsecond
    dsimp only
    rcases hoccupies first firstRequest hfirst with ⟨rfl, rfl⟩ | ⟨hfirst, hplace, hnew⟩
    · rcases hoccupies second secondRequest hsecond with ⟨rfl, rfl⟩ | ⟨-, hother, hnew⟩
      · exact fun _ => ⟨rfl, rfl⟩
      · rw [place_self, place_of_ne hother]
        exact fun hsame => absurd hsame.symm hnew
    · rcases hoccupies second secondRequest hsecond with ⟨rfl, rfl⟩ | ⟨hsecond, hother, -⟩
      · rw [place_self, place_of_ne hplace]
        exact fun hsame => absurd hsame hnew
      · rw [place_of_ne hplace, place_of_ne hother]
        exact h.apart first firstRequest second secondRequest hfirst hsecond

theorem Counted.execute (h : Counted maximumAttempts traced)
    (hwaits : Occupies traced.state request .pending)
    (hoccupies : ∀ slot other, Occupies next other slot →
      slot = .inFlight ∧ other = request ∨
        Occupies traced.state other slot ∧ ¬ (slot = .pending ∧ other.key = request.key) ∧
          ¬ (slot = .inFlight ∧ other.key = request.key)) :
    Counted maximumAttempts { traced with
      state := next
      origin := place traced.origin .inFlight request.key (traced.origin .pending request.key)
      executions := Function.update traced.executions (traced.origin .pending request.key)
        (traced.executions (traced.origin .pending request.key) + 1) } := by
  obtain ⟨hattempt, hfew⟩ := h.waiting .pending request (by simp) hwaits
  -- No other request has the number of the dispatched one.
  have hother : ∀ slot other, Occupies traced.state other slot →
      ¬ (slot = .pending ∧ other.key = request.key) →
        traced.origin slot other.key ≠ traced.origin .pending request.key := by
    intro slot other hin hne hsame
    exact hne (h.apart slot other .pending request hin hwaits hsame)
  refine ⟨?_, ?_, ?_, ?_, ?_, ?_⟩
  · intro number
    dsimp only
    by_cases hsame : number = traced.origin .pending request.key
    · rw [hsame, Function.update_self]
      omega
    · rw [Function.update_of_ne hsame]
      exact h.bound number
  · intro number hle
    have hknown := h.known .pending request hwaits
    have hne : number ≠ traced.origin .pending request.key := by
      have hle : traced.scheduled ≤ number := hle
      omega
    dsimp only
    rw [Function.update_of_ne hne]
    exact h.unused number hle
  · intro slot other hin
    dsimp only
    rcases hoccupies slot other hin with ⟨rfl, rfl⟩ | ⟨hbefore, -, hplace⟩
    · rw [place_self]
      exact h.known .pending other hwaits
    · rw [place_of_ne hplace]
      exact h.known slot other hbefore
  · intro slot other hslot hin
    dsimp only
    rcases hoccupies slot other hin with ⟨rfl, -⟩ | ⟨hbefore, hne, hplace⟩
    · exact absurd rfl hslot
    · rw [place_of_ne hplace, Function.update_of_ne (hother slot other hbefore hne)]
      exact h.waiting slot other hslot hbefore
  · intro other hin
    dsimp only
    rcases hoccupies .inFlight other hin with ⟨-, rfl⟩ | ⟨hbefore, hne, hplace⟩
    · rw [place_self, Function.update_self]
      omega
    · rw [place_of_ne hplace, Function.update_of_ne (hother .inFlight other hbefore hne)]
      exact h.flying other hbefore
  · intro first firstRequest second secondRequest hfirst hsecond
    dsimp only
    rcases hoccupies first firstRequest hfirst with ⟨rfl, rfl⟩ | ⟨hbefore, hne, hplace⟩
    · rcases hoccupies second secondRequest hsecond with ⟨rfl, rfl⟩ | ⟨hbefore, hne, hplace⟩
      · exact fun _ => ⟨rfl, rfl⟩
      · rw [place_self, place_of_ne hplace]
        exact fun hsame => absurd hsame.symm (hother second secondRequest hbefore hne)
    · rcases hoccupies second secondRequest hsecond with ⟨rfl, rfl⟩ | ⟨hlater, -, hfree⟩
      · rw [place_self, place_of_ne hplace]
        exact fun hsame => absurd hsame (hother first firstRequest hbefore hne)
      · rw [place_of_ne hplace, place_of_ne hfree]
        exact h.apart first firstRequest second secondRequest hbefore hlater

end

section

variable {maximumAttempts : ℕ} {traced : TracedRun} {policy : ReadApiPolicy}

variable {held : List ScheduledDispatch} {next scheduler : RequestScheduler}
  {request other : ScheduledReadRequest} {slot : RequestSlot} {dispatch : ScheduledDispatch}

theorem occupies_of_shrinks {queue : QueueState} (hqueue : next.queue = queue)
    (h : Shrinks scheduler.queue queue) (hin : Occupies ⟨next, held⟩ request slot) :
    Occupies ⟨scheduler, held⟩ request slot := by
  subst hqueue
  cases slot with
  | pending => exact h.pending _ _ hin
  | inFlight => exact hin
  | successor => exact h.successors _ _ hin

variable {room : QueueState} {outcome : ScheduleOutcome} {index : ℕ}
  {origin : RequestSlot → RequestKey → ℕ}

theorem occupies_insertPending (hroom : Shrinks scheduler.queue room)
    (hpending : next.queue.pending = room.pending.insert request.key request)
    (hsuccessors : next.queue.successors = room.successors) (hin : Occupies ⟨next, held⟩ other slot)
    :
    slot = .pending ∧ other = request ∨
      Occupies ⟨scheduler, held⟩ other slot ∧ ¬ (slot = .pending ∧ other.key = request.key) := by
  cases slot with
  | pending =>
    have hin : next.queue.pending[other.key]? = some other := hin
    rw [hpending, getElem?_insert_eq] at hin
    split at hin
    · cases hin
      exact .inl ⟨rfl, rfl⟩
    · rename_i hne
      exact .inr ⟨hroom.pending _ _ hin, fun hsame => hne hsame.2.symm⟩
  | inFlight => exact .inr ⟨hin, by simp⟩
  | successor =>
    have hin : next.queue.successors[other.key]? = some other := hin
    rw [hsuccessors] at hin
    exact .inr ⟨hroom.successors _ _ hin, by simp⟩

theorem occupies_insertSuccessor (hroom : Shrinks scheduler.queue room)
    (hpending : next.queue.pending = room.pending)
    (hsuccessors : next.queue.successors = room.successors.insert request.key request)
    (hin : Occupies ⟨next, held⟩ other slot) :
    slot = .successor ∧ other = request ∨
      Occupies ⟨scheduler, held⟩ other slot ∧ ¬ (slot = .successor ∧ other.key = request.key) := by
  cases slot with
  | pending =>
    have hin : next.queue.pending[other.key]? = some other := hin
    rw [hpending] at hin
    exact .inr ⟨hroom.pending _ _ hin, by simp⟩
  | inFlight => exact .inr ⟨hin, by simp⟩
  | successor =>
    have hin : next.queue.successors[other.key]? = some other := hin
    rw [hsuccessors, getElem?_insert_eq] at hin
    split at hin
    · cases hin
      exact .inl ⟨rfl, rfl⟩
    · rename_i hne
      exact .inr ⟨hroom.successors _ _ hin, fun hsame => hne hsame.2.symm⟩

theorem Counted.entered (h : Counted maximumAttempts traced) (base : SchedulerRun)
    (henters : Enters base.scheduler.queue request outcome next.queue) {number scheduled : ℕ}
    (hscheduled : traced.scheduled ≤ scheduled) (hnumber : number < scheduled)
    (hattempt : traced.executions number ≤ request.attempt)
    (hfew : traced.executions number < maximumAttempts)
    (hbase : ∀ slot other, Occupies base other slot →
      Occupies traced.state other slot ∧ traced.origin slot other.key ≠ number) :
    Counted maximumAttempts { traced with
      state := ⟨next, base.held⟩, scheduled
      origin := scheduledOrigin traced.origin request.key number outcome } := by
  cases henters with
  | pending houtcome hroom hfree hpending hsuccessors =>
    have horigin : scheduledOrigin traced.origin request.key number outcome =
        place traced.origin .pending request.key number := by
      rcases houtcome with rfl | rfl <;> rfl
    rw [horigin]
    apply h.enter (by simp) hscheduled hnumber hattempt hfew
    intro slot other hin
    rcases occupies_insertPending hroom hpending hsuccessors hin with hnew | ⟨hbefore, hplace⟩
    · exact .inl hnew
    · obtain ⟨hbefore, hne⟩ := hbase slot other hbefore
      exact .inr ⟨hbefore, hplace, hne⟩
  | successor hroom hflight hpending hsuccessors =>
    apply h.enter (by simp) hscheduled hnumber hattempt hfew
    intro slot other hin
    rcases occupies_insertSuccessor hroom hpending hsuccessors hin with hnew | ⟨hbefore, hplace⟩
    · exact .inl hnew
    · obtain ⟨hbefore, hne⟩ := hbase slot other hbefore
      exact .inr ⟨hbefore, hplace, hne⟩
  | refused houtcome hnext =>
    have horigin : scheduledOrigin traced.origin request.key number outcome = traced.origin := by
      obtain ⟨henqueued, hreplaced, hrecorded⟩ := houtcome
      cases outcome <;> first | rfl | contradiction
    rw [horigin]
    apply h.lose hscheduled
    intro slot other hin
    exact (hbase slot other (occupies_of_shrinks rfl hnext hin)).1

theorem Counted.schedule [SliceSort] (hsound : RunSound policy traced.state)
    (h : Counted maximumAttempts traced) (hattempts : 0 < maximumAttempts)
    (request : ScheduledReadRequest) (nowMs : ℕ) :
    Counted maximumAttempts (traced.after (.schedule request nowMs)) := by
  have hqueue := hsound.queue
  rw [← hsound.samePolicy] at hqueue
  have hnone := h.unused traced.scheduled le_rfl
  apply h.entered traced.state (schedule_enters hqueue request nowMs) (Nat.le_succ _)
    (Nat.lt_succ_self _)
  · omega
  · omega
  · intro slot other hin
    exact ⟨hin, (h.known slot other hin).ne⟩

theorem Counted.beginNext [SliceSort] [LawfulSliceSort] (hsound : RunSound policy traced.state)
    (h : Counted maximumAttempts traced) (nowMs : ℕ) :
    Counted maximumAttempts (traced.after (.beginNext nowMs)) := by
  have hpurged := purgeExpired_shrinks traced.state.scheduler.queue nowMs
  unfold TracedRun.after SchedulerRun.after
  dsimp only
  rcases beginNext_cases hsound.queue nowMs with
    ⟨request, next, hbegin, hdispatch⟩ | ⟨next, hbegin, -, hshrinks, -, -⟩
  · rw [hbegin]
    dsimp only [Option.toList]
    apply h.execute (hpurged.pending _ _ hdispatch.waited)
    intro slot other hin
    have hwaits : request.key ∈ (traced.state.scheduler.queue.purgeExpired nowMs).pending :=
      mem_of_getElem? hdispatch.waited
    have hfree := (hpurged.sound hsound.queue).disjoint request.key hwaits
    rw [hpurged.inFlight, hsound.inFlight] at hfree
    cases slot with
    | pending =>
      have hin : next.queue.pending[other.key]? = some other := hin
      rw [hdispatch.pending, getElem?_erase_eq] at hin
      split at hin
      · cases hin
      · rename_i hne
        exact .inr ⟨hpurged.pending _ _ hin, fun hsame => hne hsame.2.symm, by simp⟩
    | inFlight =>
      obtain ⟨dispatch, hmem, rfl⟩ := hin
      rcases List.mem_append.mp hmem with hbefore | hnew
      · refine .inr ⟨⟨dispatch, hbefore, rfl⟩, by simp, ?_⟩
        rintro ⟨-, hsame⟩
        rw [← hsame] at hfree
        exact hfree (List.mem_map_of_mem hbefore)
      · rw [List.mem_singleton.mp hnew]
        exact .inl ⟨rfl, rfl⟩
    | successor =>
      have hin : next.queue.successors[other.key]? = some other := hin
      rw [hdispatch.successors] at hin
      exact .inr ⟨hpurged.successors _ _ hin, by simp, by simp⟩
  · rw [hbegin]
    apply h.lose le_rfl
    intro slot other hin
    rw [Option.toList_none, List.append_nil] at hin
    exact occupies_of_shrinks rfl hshrinks hin

theorem held_of_mem_eraseIdx (hsound : RunSound policy traced.state)
    (hheld : traced.state.held[index]? = some dispatch)
    (hin : Occupies ⟨scheduler, traced.state.held.eraseIdx index⟩ request .inFlight) :
    Occupies traced.state request .inFlight ∧ request.key ≠ dispatch.request.key := by
  obtain ⟨other, hmem, rfl⟩ := hin
  refine ⟨⟨other, List.mem_of_mem_eraseIdx hmem, rfl⟩, ?_⟩
  have hkey : (heldKeys traced.state)[index]? = some dispatch.request.key := by
    unfold heldKeys
    rw [List.getElem?_map, hheld]
    rfl
  have hother : other.request.key ∈ (heldKeys traced.state).eraseIdx index := by
    unfold heldKeys
    rw [List.eraseIdx_map]
    exact List.mem_map_of_mem hmem
  exact ((mem_eraseIdx_of_nodup hsound.once hkey).mp hother).1.symm

theorem Counted.succeed (hsound : RunSound policy traced.state) (h : Counted maximumAttempts traced)
    (hheld : traced.state.held[index]? = some dispatch)
    (hreleased : (traced.state.scheduler.release dispatch).1 = true) :
    Counted maximumAttempts { traced with
      state := ⟨(traced.state.scheduler.release dispatch).2.2, traced.state.held.eraseIdx index⟩
      origin := place traced.origin .pending dispatch.request.key
        (traced.origin .successor dispatch.request.key) } := by
  have hactive := (hsound.active dispatch (List.mem_of_getElem? hheld)).1
  rcases release_cases traced.state.scheduler hactive with
    ⟨successor, hwaits, -, hpending, hsuccessors⟩ | ⟨hnone, -, -⟩
  · have hkey := hsound.queue.successorKeys _ _ hwaits
    rw [← hkey] at hwaits hpending hsuccessors ⊢
    have hin : Occupies traced.state successor .successor := hwaits
    obtain ⟨hattempt, hfew⟩ := h.waiting .successor successor (by simp) hin
    apply h.enter (by simp) le_rfl (h.known .successor successor hin) hattempt hfew
    intro slot other hother
    have hne : ∀ slot, Occupies traced.state other slot →
        ¬ (slot = .successor ∧ other.key = successor.key) →
          traced.origin slot other.key ≠ traced.origin .successor successor.key := by
      intro slot hbefore hplace hsame
      exact hplace (h.apart slot other .successor successor hbefore hin hsame)
    cases slot with
    | pending =>
      have hother : (traced.state.scheduler.release dispatch).2.2.queue.pending[other.key]? =
        some other := hother
      rw [hpending, getElem?_insert_eq] at hother
      split at hother
      · cases hother
        exact .inl ⟨rfl, rfl⟩
      · rename_i hplace
        exact .inr ⟨hother, fun hsame => hplace hsame.2.symm, hne .pending hother (by simp)⟩
    | inFlight =>
      have hbefore := (held_of_mem_eraseIdx hsound hheld hother).1
      exact .inr ⟨hbefore, by simp, hne .inFlight hbefore (by simp)⟩
    | successor =>
      have hother : (traced.state.scheduler.release dispatch).2.2.queue.successors[other.key]? =
        some other := hother
      rw [hsuccessors, getElem?_erase_eq] at hother
      split at hother
      · cases hother
      · rename_i hplace
        exact .inr ⟨hother, by simp,
          hne .successor hother fun hsame => hplace hsame.2.symm⟩
  · rw [hnone] at hreleased
    cases hreleased

theorem occupies_of_release (hsound : RunSound policy traced.state)
    (hheld : traced.state.held[index]? = some dispatch)
    (hreleased : (traced.state.scheduler.release dispatch).1 = false)
    (hin : Occupies ⟨(traced.state.scheduler.release dispatch).2.2,
      traced.state.held.eraseIdx index⟩ other slot) :
    Occupies traced.state other slot ∧
      ¬ (slot = .inFlight ∧ other.key = dispatch.request.key) := by
  have hactive := (hsound.active dispatch (List.mem_of_getElem? hheld)).1
  rcases release_cases traced.state.scheduler hactive with
    ⟨successor, -, hsome, -, -⟩ | ⟨-, hpending, hsuccessors⟩
  · rw [hsome] at hreleased
    cases hreleased
  · cases slot with
    | pending =>
      have hin : (traced.state.scheduler.release dispatch).2.2.queue.pending[other.key]? =
        some other := hin
      rw [hpending] at hin
      exact ⟨hin, by simp⟩
    | inFlight =>
      obtain ⟨hbefore, hne⟩ := held_of_mem_eraseIdx hsound hheld hin
      exact ⟨hbefore, fun hsame => hne hsame.2⟩
    | successor =>
      have hin : (traced.state.scheduler.release dispatch).2.2.queue.successors[other.key]? =
        some other := hin
      rw [hsuccessors] at hin
      exact ⟨hin, by simp⟩

theorem Counted.drop [SliceSort] (hsound : RunSound policy traced.state)
    (h : Counted maximumAttempts traced) (index : ℕ) :
    Counted maximumAttempts (traced.after (.drop index)) := by
  unfold TracedRun.after SchedulerRun.after
  dsimp only
  cases hheld : traced.state.held[index]? with
  | none => exact h
  | some dispatch =>
    dsimp only
    cases hreleased : (traced.state.scheduler.release dispatch).1 with
    | true => exact h.succeed hsound hheld hreleased
    | false =>
      apply h.lose le_rfl
      intro slot other hin
      exact (occupies_of_release hsound hheld hreleased hin).1

theorem finishedOrigin_of_ne {key : RequestKey} {outcome : ExecutionOutcome}
    (hkept : outcome ≠ .superseded) (hother : outcome ≠ .retryScheduled) :
    finishedOrigin origin key outcome = origin := by
  cases outcome <;> first | rfl | contradiction

theorem finishedOrigin_eq {key : RequestKey} {queue next : QueueState} {result : ExecutionOutcome}
    (hfree : request.key ∉ queue.inFlight) (henters : Enters queue request outcome next)
    (hkept : result ≠ .superseded) (h : result = .retryScheduled ↔ outcome ∈
      [ScheduleOutcome.enqueued, .replacedOlder, .successorRecorded]) :
    finishedOrigin origin key result =
      scheduledOrigin origin key (origin .inFlight key) outcome := by
  cases henters with
  | pending houtcome hroom hfree hpending hsuccessors =>
    have hretried : result = .retryScheduled := by
      apply h.mpr
      rcases houtcome with rfl | rfl <;> simp
    rw [hretried]
    rcases houtcome with rfl | rfl <;> rfl
  | successor hroom hflight hpending hsuccessors => exact absurd hflight hfree
  | refused houtcome hnext =>
    obtain ⟨henqueued, hreplaced, hrecorded⟩ := houtcome
    have hother : result ≠ .retryScheduled := by
      intro hretried
      simpa [henqueued, hreplaced, hrecorded] using h.mp hretried
    rw [finishedOrigin_of_ne hkept hother]
    cases outcome <;> first | rfl | contradiction

theorem Counted.retry (hsound : RunSound policy traced.state) (h : Counted maximumAttempts traced)
    (hattempts : traced.state.scheduler.retryPolicy.maximumAttempts = maximumAttempts)
    (hheld : traced.state.held[index]? = some dispatch)
    (hreleased : (traced.state.scheduler.release dispatch).1 = false) (failure : ReadFailure)
    (nowMs scheduleNowMs : ℕ) :
    Counted maximumAttempts { traced with
      state := ⟨((traced.state.scheduler.release dispatch).2.2.scheduleRetry dispatch.request
        failure nowMs scheduleNowMs).2, traced.state.held.eraseIdx index⟩
      origin := finishedOrigin traced.origin dispatch.request.key
        ((traced.state.scheduler.release dispatch).2.2.scheduleRetry dispatch.request failure nowMs
          scheduleNowMs).1 } := by
  have hqueue := release_queueSound hsound hheld
  have hfree := not_inFlight_of_release hsound hheld
  have hin : Occupies traced.state dispatch.request .inFlight :=
    ⟨dispatch, List.mem_of_getElem? hheld, rfl⟩
  have hexecuted := h.flying dispatch.request hin
  have hkept : ((traced.state.scheduler.release dispatch).2.2.scheduleRetry dispatch.request failure
      nowMs scheduleNowMs).1 ≠ .superseded := scheduleRetry_not_superseded
  have hlost : ∀ slot other, Occupies ⟨(traced.state.scheduler.release dispatch).2.2,
      traced.state.held.eraseIdx index⟩ other slot → Occupies traced.state other slot ∧
        traced.origin slot other.key ≠ traced.origin .inFlight dispatch.request.key := by
    intro slot other hother
    obtain ⟨hbefore, hplace⟩ := occupies_of_release hsound hheld hreleased hother
    refine ⟨hbefore, ?_⟩
    intro hsame
    exact hplace (h.apart slot other .inFlight dispatch.request hbefore hin hsame)
  rcases scheduleRetry_cases (traced.state.scheduler.release dispatch).2.2 dispatch.request failure
    nowMs scheduleNowMs with ⟨notBefore, -, -, -, hfew, hnext, houtcome⟩ | ⟨hnext, hother⟩
  · rw [release_retryPolicy, hattempts] at hfew
    rw [hnext]
    obtain ⟨retry, hretry⟩ : ∃ retry : ScheduledReadRequest, retry =
      { dispatch.request with attempt := dispatch.request.attempt + 1, notBefore } := ⟨_, rfl⟩
    have hkey : dispatch.request.key = retry.key := by rw [hretry]
    have hattempt : dispatch.request.attempt + 1 = retry.attempt := by rw [hretry]
    rw [← hretry] at houtcome ⊢
    have henters := schedule_enters hqueue retry scheduleNowMs
    rw [finishedOrigin_eq (hkey ▸ hfree) henters hkept houtcome]
    rw [hkey] at hlost hexecuted ⊢
    apply h.entered ⟨(traced.state.scheduler.release dispatch).2.2,
      traced.state.held.eraseIdx index⟩ henters le_rfl
    · rw [← hkey]
      exact h.known .inFlight dispatch.request hin
    · omega
    · omega
    · exact hlost
  · rw [hnext, finishedOrigin_of_ne hkept hother]
    apply h.lose le_rfl
    intro slot other hin
    exact (hlost slot other hin).1

theorem Counted.finish [SliceSort] (hsound : RunSound policy traced.state)
    (h : Counted maximumAttempts traced)
    (hattempts : traced.state.scheduler.retryPolicy.maximumAttempts = maximumAttempts) (index : ℕ)
    (result : Except ReadFailure ReadResponse) (nowMs scheduleNowMs : ℕ) :
    Counted maximumAttempts (traced.after (.finish index result nowMs scheduleNowMs)) := by
  unfold TracedRun.after SchedulerRun.after
  dsimp only
  cases hheld : traced.state.held[index]? with
  | none => exact h
  | some dispatch =>
    dsimp only
    rcases finish_cases traced.state.scheduler dispatch result nowMs scheduleNowMs with
      ⟨hreleased, hfinish⟩ | ⟨hreleased, hfinish, hkept, hother⟩ | ⟨hreleased, failure, hfinish⟩
    · rw [hfinish]
      exact h.succeed hsound hheld hreleased
    · rw [hfinish, finishedOrigin_of_ne hkept hother]
      apply h.lose le_rfl
      intro slot other hin
      exact (occupies_of_release hsound hheld hreleased hin).1
    · rw [hfinish]
      exact h.retry hsound hattempts hheld hreleased failure nowMs scheduleNowMs

theorem Counted.after [SliceSort] [LawfulSliceSort] (hsound : RunSound policy traced.state)
    (h : Counted maximumAttempts traced) (hpositive : 0 < maximumAttempts)
    (hattempts : traced.state.scheduler.retryPolicy.maximumAttempts = maximumAttempts)
    (call : SchedulerCall) : Counted maximumAttempts (traced.after call) := by
  cases call with
  | schedule request nowMs => exact h.schedule hsound hpositive request nowMs
  | beginNext nowMs => exact h.beginNext hsound nowMs
  | finish index result nowMs scheduleNowMs =>
    exact h.finish hsound hattempts index result nowMs scheduleNowMs
  | drop index => exact h.drop hsound index

end

section

variable [SliceSort] [LawfulSliceSort] {policy : ReadApiPolicy} {retryPolicy : RetryPolicy}
  {startMs : ℕ} {scheduler : RequestScheduler}

theorem executions_le (hnew : RequestScheduler.new policy retryPolicy startMs = .ok scheduler)
    (calls : List SchedulerCall) (number : ℕ) :
    (run TracedRun.after (TracedRun.start scheduler) calls).executions number ≤
      retryPolicy.maximumAttempts := by
  obtain ⟨hvalid, hpolicy, hqueue⟩ := new_spec hnew
  suffices hrun : ∀ traced ∈ states TracedRun.after (TracedRun.start scheduler) calls,
      RunSound policy traced.state ∧ traced.state.scheduler.retryPolicy = retryPolicy ∧
        Counted retryPolicy.maximumAttempts traced from
    (hrun _ (run_mem_states _ calls)).2.2.bound number
  refine forall_states_of_steps (C := fun _ _ => True) ?_ ?_
    (allSteps_of_forall (fun _ _ => trivial) _ calls)
  · rintro traced call ⟨hsound, hretry, hcounted⟩ -
    rw [TracedRun.after_state, after_retryPolicy]
    refine ⟨after_runSound hsound call, hretry, ?_⟩
    exact hcounted.after hsound hvalid.attempts (by rw [hretry]) call
  · exact ⟨runSound_new hnew, hpolicy, counted_start scheduler hqueue⟩

theorem allSteps_requeuesInTime
    (hnew : RequestScheduler.new policy retryPolicy startMs = .ok scheduler)
    (calls : List SchedulerCall) :
    AllSteps SchedulerRun.after (RequeuesInTime retryPolicy) ⟨scheduler, []⟩ calls := by
  refine allSteps_of_steps (C := fun _ _ => True) (I := fun state => RunSound policy state ∧
    state.scheduler.retryPolicy = retryPolicy) ?_ ?_ ⟨runSound_new hnew, (new_spec hnew).2.1⟩
    (allSteps_of_forall (fun _ _ => trivial) _ calls)
  · rintro state call ⟨hsound, hretry⟩ -
    exact ⟨after_runSound hsound call, (after_retryPolicy state call).trans hretry⟩
  · rintro state call ⟨hsound, hretry⟩ -
    rw [← hretry]
    exact requeuesInTime hsound call

/-- **The retries.**  The delay of a transient failure is between one and the cap exactly when the
jitter fits; every retry is in time, and no scheduled request is executed more often than the policy
allows. -/
theorem retries_bounded_iff
    (hnew : RequestScheduler.new policy retryPolicy startMs = .ok scheduler)
    (request : ScheduledReadRequest) {failure : ReadFailure} (hfailure : IsTransient failure)
    (calls : List SchedulerCall) :
    (DelayInRange retryPolicy request failure ∧
        AllSteps SchedulerRun.after (RequeuesInTime retryPolicy) ⟨scheduler, []⟩ calls ∧
        ∀ number, (run TracedRun.after (TracedRun.start scheduler) calls).executions number ≤
          retryPolicy.maximumAttempts) ↔
      JitterFits retryPolicy request := by
  rw [delayInRange_iff (new_spec hnew).1 hfailure]
  constructor
  · exact fun h => h.1
  · intro hfits
    exact ⟨hfits, allSteps_requeuesInTime hnew calls, executions_le hnew calls⟩

end

def retriedCalls : List SchedulerCall :=
  [.schedule (sampleRequest 0) 0, .beginNext 1, .finish 0 (.error .timeout) 2 2, .beginNext 200]

theorem retries_bounded_sample : ∃ _ : SliceSort,
    (DelayInRange sampleRetryPolicy (sampleRequest 0) .timeout ∧
      AllSteps SchedulerRun.after (RequeuesInTime sampleRetryPolicy) ⟨sampleScheduler, []⟩
        retriedCalls ∧
      ∀ number, (run TracedRun.after (TracedRun.start sampleScheduler) retriedCalls).executions
        number ≤ sampleRetryPolicy.maximumAttempts) := by
  let sort : SliceSort := ⟨fun compare items => items.mergeSort fun a b => compare a b != .gt⟩
  have lawful : LawfulSliceSort := lawful_mergeSort
  have htransient : IsTransient .timeout := trivial
  refine ⟨sort, (retries_bounded_iff sampleScheduler_new (sampleRequest 0) htransient
    retriedCalls).mpr ?_⟩
  have hoffset : jitterOffset sampleRetryPolicy (sampleRequest 0) ≤ 20 :=
    Nat.le_of_lt_succ (Nat.mod_lt _ (by decide))
  refine ⟨.inl (by decide), .inl (hoffset.trans (by decide))⟩

def wideJitter : RetryPolicy := { sampleRetryPolicy with
  maximumBackoffMs := 100
  jitterBps := 10000
  deterministicSeed := 1 }

theorem retry_delay_exceeds_cap :
    ¬ ∀ (retryPolicy : RetryPolicy) (request : ScheduledReadRequest) (failure : ReadFailure),
      retryPolicy.validate = .ok () → IsTransient failure →
        DelayInRange retryPolicy request failure := by
  intro h
  have htransient : IsTransient .timeout := trivial
  obtain ⟨delay, hdelay, -, hcap⟩ := h wideJitter (sampleRequest 0) .timeout rfl htransient
  have hoffset : jitterOffset wideJitter (sampleRequest 0) = 164 := by
    unfold jitterOffset stableRequestHash
    rw [textBytes_eq]
    decide +kernel
  rw [delayMs_of_transient htransient, backoffMs_eq (validRetries_of_validate rfl),
    hoffset] at hdelay
  cases hdelay
  revert hcap
  decide

end CopyTrade.Analysis
