import CopyTrade.Analysis.Scheduling.QueueInvariants

/-!
# The responses that give way to a successor

A response is discarded when its request has a successor in the queue.  The successors are newer
than the requests in flight as long as the first one recorded for a request in flight is newer than
it, and unexpired as long as none expires before the response arrives.
-/

namespace CopyTrade.Analysis

open Foundation Model

theorem isNewer_trans {a b c : ScheduledReadRequest} (h : isNewer a b = true)
    (g : isNewer b c = true) : isNewer a c = true := by
  simp only [isNewer, Bool.or_eq_true, Bool.and_eq_true, decide_eq_true_eq, beq_iff_eq] at *
  omega

/-- A valid request for a key in flight finds no unexpired successor recorded, and room. -/
structure RecordsFirst (scheduler : RequestScheduler) (request : ScheduledReadRequest)
    (nowMs : ℕ) : Prop where
  valid : scheduler.validateRequest request nowMs = none
  inFlight : request.key ∈ scheduler.queue.inFlight
  first : (scheduler.queue.purgeExpired nowMs).successors[request.key]? = none
  room : ((RequestScheduler.startWindow (scheduler.queue.purgeExpired nowMs)
    scheduler.policy.windowMs nowMs).makeQueueRoom scheduler.policy.queueCapacity request).1 = true

theorem startWindow_successors (queue : QueueState) (windowMs nowMs : ℕ) :
    (RequestScheduler.startWindow queue windowMs nowMs).successors = queue.successors := by
  unfold RequestScheduler.startWindow
  split <;> rfl

variable {key : RequestKey} {request successor : ScheduledReadRequest}
  {scheduler : RequestScheduler} {dispatch : ScheduledDispatch}

theorem enterQueue_successor {capacity : ℕ} {queue : QueueState}
    (hsound : QueueSound capacity queue)
    (h : (RequestScheduler.enterQueue queue capacity request).2.successors[key]? =
      some successor) :
    queue.successors[key]? = some successor ∨
      key = request.key ∧ successor = request ∧ request.key ∈ queue.inFlight ∧
        ((∃ existing, queue.successors[key]? = some existing ∧ isNewer request existing = true) ∨
          queue.successors[key]? = none ∧ (queue.makeQueueRoom capacity request).1 = true) := by
  have hspec := makeQueueRoom_spec hsound request
  unfold RequestScheduler.enterQueue at h
  split at h
  · rename_i hflight
    split at h
    · rename_i existing hexisting
      split at h
      · exact .inl h
      · rename_i hnewer
        rw [getElem?_insert_eq] at h
        split at h
        · rename_i hkey
          cases h
          subst hkey
          exact .inr ⟨rfl, rfl, hflight, .inl ⟨existing, hexisting, by simpa using hnewer⟩⟩
        · exact .inl h
    · rename_i hnone
      split at h
      · rename_i room hroom
        rw [hroom] at hspec
        exact .inl (hspec.1.successors key successor h)
      · rename_i room hroom
        rw [hroom] at hspec ⊢
        rw [getElem?_insert_eq] at h
        split at h
        · rename_i hkey
          cases h
          subst hkey
          exact .inr ⟨rfl, rfl, hflight, .inr ⟨hnone, rfl⟩⟩
        · exact .inl (hspec.1.successors key successor h)
  · split at h
    · split at h
      · exact .inl h
      · exact .inl h
    · split at h
      · rename_i room hroom
        rw [hroom] at hspec
        exact .inl (hspec.1.successors key successor h)
      · rename_i room hroom
        rw [hroom] at hspec
        exact .inl (hspec.1.successors key successor h)

variable {nowMs scheduleNowMs : ℕ} {failure : ReadFailure}

theorem schedule_successor (hsound : QueueSound scheduler.policy.queueCapacity scheduler.queue)
    (h : (scheduler.schedule request nowMs).2.queue.successors[key]? = some successor) :
    scheduler.queue.successors[key]? = some successor ∨
      key = request.key ∧ successor = request ∧
        ((∃ existing, scheduler.queue.successors[key]? = some existing ∧
            isNewer request existing = true) ∨ RecordsFirst scheduler request nowMs) := by
  unfold RequestScheduler.schedule at h
  cases hvalid : scheduler.validateRequest request nowMs with
  | some outcome =>
    rw [hvalid] at h
    exact .inl h
  | none =>
    rw [hvalid] at h
    have hpurged := purgeExpired_shrinks scheduler.queue nowMs
    have hwindow := startWindow_shrinks (scheduler.queue.purgeExpired nowMs)
      scheduler.policy.windowMs nowMs
    have hflight := hwindow.inFlight.trans hpurged.inFlight
    rcases enterQueue_successor (hwindow.sound (hpurged.sound hsound)) h with
      hbefore | ⟨rfl, rfl, hin, ⟨existing, hexisting, hnewer⟩ | ⟨hnone, hroom⟩⟩
    · exact .inl (hpurged.successors _ _ (hwindow.successors _ _ hbefore))
    · exact .inr ⟨rfl, rfl, .inl ⟨existing,
        hpurged.successors _ _ (hwindow.successors _ _ hexisting), hnewer⟩⟩
    · rw [startWindow_successors] at hnone
      exact .inr ⟨rfl, rfl, .inr ⟨hvalid, hflight ▸ hin, hnone, hroom⟩⟩

theorem scheduleRetry_successor (hsound : QueueSound scheduler.policy.queueCapacity scheduler.queue)
    (hfree : request.key ∉ scheduler.queue.inFlight)
    (h : (scheduler.scheduleRetry request failure nowMs scheduleNowMs).2.queue.successors[key]? =
      some successor) : scheduler.queue.successors[key]? = some successor := by
  unfold RequestScheduler.scheduleRetry at h
  dsimp only at h
  split at h
  · exact h
  split at h
  · exact h
  split at h
  · exact h
  split at h
  · exact h
  rename_i notBefore hnotBefore
  split at h
  · exact h
  have hscheduled : ((scheduler.schedule
      { request with attempt := request.attempt + 1, notBefore } scheduleNowMs).2).queue.successors[
        key]? = some successor := by
    split at h <;> rename_i hresult <;> rw [hresult] <;> exact h
  rcases schedule_successor hsound hscheduled with
    hbefore | ⟨rfl, rfl, ⟨existing, hexisting, -⟩ | hfirst⟩
  · exact hbefore
  · exact absurd (hsound.successors _ (mem_of_getElem? hexisting)) hfree
  · exact absurd hfirst.inFlight hfree

theorem scheduleRetry_not_superseded :
    (scheduler.scheduleRetry request failure nowMs scheduleNowMs).1 ≠ .superseded := by
  unfold RequestScheduler.scheduleRetry
  dsimp only
  split
  · simp
  split
  · simp
  split
  · split <;> simp
  split
  · simp
  split
  · simp
  · split <;> simp

theorem release_finds_successor
    (h : (scheduler.release dispatch).2.2.queue.successors[key]? = some successor) :
    scheduler.queue.successors[key]? = some successor := by
  unfold RequestScheduler.release at h
  split at h
  · exact h
  · unfold QueueState.release at h
    dsimp only at h
    split at h
    · exact getElem?_erase_imp h
    · exact h

theorem release_eq_true (h : (scheduler.release dispatch).1 = true) :
    ∃ successor, scheduler.queue.successors[dispatch.request.key]? = some successor := by
  unfold RequestScheduler.release at h
  split at h
  · cases h
  · unfold QueueState.release at h
    dsimp only at h
    split at h
    · rename_i successor hsuccessor
      exact ⟨successor, hsuccessor⟩
    · cases h

theorem successor_of_superseded {result : Except ReadFailure ReadResponse}
    (h : (scheduler.finish dispatch result nowMs scheduleNowMs).1 = .superseded) :
    ∃ successor, scheduler.queue.successors[dispatch.request.key]? = some successor := by
  unfold RequestScheduler.finish at h
  dsimp only at h
  split at h
  · rename_i hreleased
    apply release_eq_true
    rw [hreleased]
  · split at h
    · split at h
      · cases h
      · split at h <;> cases h
    · cases h
    · cases h
    · exact absurd h scheduleRetry_not_superseded

def SuccessorsNewer (state : SchedulerRun) : Prop :=
  ∀ dispatch ∈ state.held, ∀ successor,
    state.scheduler.queue.successors[dispatch.request.key]? = some successor →
      isNewer successor dispatch.request = true

/-- The condition on a call: a request that is recorded as the first successor is newer than the
request in flight, and a response arrives before the successor of its request expires. -/
def NewerSuccessors (state : SchedulerRun) : SchedulerCall → Prop
  | .schedule request nowMs => RecordsFirst state.scheduler request nowMs →
    ∀ dispatch ∈ state.held, dispatch.request.key = request.key →
      isNewer request dispatch.request = true
  | .finish index _ nowMs _ => ∀ dispatch, state.held[index]? = some dispatch →
    ∀ successor, state.scheduler.queue.successors[dispatch.request.key]? = some successor →
      nowMs < successor.expiresAt
  | .beginNext _ | .drop _ => True

/-- When a response is discarded, a newer request for its key is in the queue, and has not
expired. -/
def DiscardsForNewer (state : SchedulerRun) : SchedulerCall → Prop
  | .finish index result nowMs scheduleNowMs => ∀ dispatch, state.held[index]? = some dispatch →
    (state.scheduler.finish dispatch result nowMs scheduleNowMs).1 = .superseded →
      ∃ newer, (state.scheduler.queue.pending[dispatch.request.key]? = some newer ∨
          state.scheduler.queue.successors[dispatch.request.key]? = some newer) ∧
        isNewer newer dispatch.request = true ∧ nowMs < newer.expiresAt
  | .schedule _ _ | .beginNext _ | .drop _ => True

section

variable {policy : ReadApiPolicy} {state : SchedulerRun}

variable {call : SchedulerCall}

theorem discardsForNewer_of_newer (hnewer : SuccessorsNewer state)
    (hcall : NewerSuccessors state call) : DiscardsForNewer state call := by
  cases call with
  | schedule request nowMs => trivial
  | beginNext nowMs => trivial
  | drop index => trivial
  | finish index result nowMs scheduleNowMs =>
    intro dispatch hheld hsuperseded
    obtain ⟨successor, hsuccessor⟩ := successor_of_superseded hsuperseded
    exact ⟨successor, .inr hsuccessor,
      hnewer dispatch (List.mem_of_getElem? hheld) successor hsuccessor,
      hcall dispatch hheld successor hsuccessor⟩

theorem not_inFlight_of_release (h : RunSound policy state) {index : ℕ}
    {dispatch : ScheduledDispatch} (hheld : state.held[index]? = some dispatch) :
    dispatch.request.key ∉ (state.scheduler.release dispatch).2.2.queue.inFlight := by
  have hreleased := release_held h hheld
  have hkey : (heldKeys state)[index]? = some dispatch.request.key := by
    unfold heldKeys
    rw [List.getElem?_map, hheld]
    rfl
  rw [hreleased.inFlight]
  unfold heldKeys
  rw [← List.eraseIdx_map]
  intro hmem
  exact ((mem_eraseIdx_of_nodup h.once hkey).mp hmem).1 rfl

theorem finish_successor (h : RunSound policy state) {index : ℕ} {dispatch : ScheduledDispatch}
    (hheld : state.held[index]? = some dispatch) {result : Except ReadFailure ReadResponse}
    {nowMs scheduleNowMs : ℕ} {key : RequestKey} {successor : ScheduledReadRequest}
    (hget : (state.scheduler.finish dispatch result nowMs scheduleNowMs).2.queue.successors[key]? =
      some successor) : state.scheduler.queue.successors[key]? = some successor := by
  have hreleased := release_held h hheld
  have hfree := not_inFlight_of_release h hheld
  apply release_finds_successor
  have hsound := hreleased.queue
  rw [← hreleased.samePolicy] at hsound
  unfold RequestScheduler.finish at hget
  dsimp only at hget
  split at hget
  · rename_i hresult
    rw [hresult]
    exact hget
  · rename_i hresult
    rw [hresult] at hsound hfree ⊢
    split at hget
    · split at hget
      · exact hget
      · split at hget <;> exact hget
    · exact hget
    · exact hget
    · exact scheduleRetry_successor hsound hfree hget

theorem SuccessorsNewer.shrink {next : SchedulerRun} (hnewer : SuccessorsNewer state)
    (hheld : ∀ dispatch ∈ next.held, dispatch ∈ state.held)
    (hsuccessors : ∀ (key : RequestKey) (successor : ScheduledReadRequest),
      next.scheduler.queue.successors[key]? = some successor →
        state.scheduler.queue.successors[key]? = some successor) : SuccessorsNewer next := by
  intro dispatch hmem successor hsuccessor
  exact hnewer dispatch (hheld dispatch hmem) successor (hsuccessors _ successor hsuccessor)

theorem SuccessorsNewer.schedule [SliceSort] (h : RunSound policy state) (hnewer : SuccessorsNewer state)
    {request : ScheduledReadRequest} {nowMs : ℕ}
    (hcall : NewerSuccessors state (.schedule request nowMs)) :
    SuccessorsNewer (state.after (.schedule request nowMs)) := by
  have hsound := h.queue
  rw [← h.samePolicy] at hsound
  intro dispatch hmem successor hsuccessor
  rcases schedule_successor hsound hsuccessor with
    hbefore | ⟨hkey, rfl, ⟨existing, hexisting, hreplaces⟩ | hfirst⟩
  · exact hnewer dispatch hmem successor hbefore
  · exact isNewer_trans hreplaces (hnewer dispatch hmem existing hexisting)
  · exact hcall hfirst dispatch hmem hkey

theorem SuccessorsNewer.beginNext [SliceSort] [LawfulSliceSort] (h : RunSound policy state)
    (hnewer : SuccessorsNewer state) (nowMs : ℕ) :
    SuccessorsNewer (state.after (.beginNext nowMs)) := by
  unfold SchedulerRun.after
  dsimp only
  have hpurged := purgeExpired_shrinks state.scheduler.queue nowMs
  rcases beginNext_cases h.queue nowMs with
    ⟨request, next, hbegin, hdispatch⟩ | ⟨next, hbegin, -, hshrinks, -, -⟩
  · rw [hbegin]
    intro dispatch hmem successor hsuccessor
    rw [hdispatch.successors] at hsuccessor
    rcases List.mem_append.mp hmem with hbefore | hnew
    · exact hnewer dispatch hbefore successor (hpurged.successors _ _ hsuccessor)
    · -- A request that was pending had no successor.
      obtain rfl := List.mem_singleton.mp hnew
      have hsound := hpurged.sound h.queue
      exact absurd (hsound.successors _ (mem_of_getElem? hsuccessor))
        (hsound.disjoint _ (mem_of_getElem? hdispatch.waited))
  · rw [hbegin]
    refine hnewer.shrink ?_ hshrinks.successors
    intro dispatch hmem
    simpa using hmem

theorem SuccessorsNewer.after [SliceSort] [LawfulSliceSort] (h : RunSound policy state)
    (hnewer : SuccessorsNewer state) (hcall : NewerSuccessors state call) :
    SuccessorsNewer (state.after call) := by
  cases call with
  | schedule request nowMs => exact hnewer.schedule h hcall
  | beginNext nowMs => exact hnewer.beginNext h nowMs
  | finish index result nowMs scheduleNowMs =>
    unfold SchedulerRun.after
    dsimp only
    split
    · exact hnewer
    · rename_i dispatch hheld
      refine hnewer.shrink ?_ ?_
      · intro other hmem
        exact List.mem_of_mem_eraseIdx hmem
      · intro key successor hget
        exact finish_successor h hheld hget
  | drop index =>
    unfold SchedulerRun.after
    dsimp only
    split
    · exact hnewer
    · rename_i dispatch hheld
      refine hnewer.shrink ?_ ?_
      · intro other hmem
        exact List.mem_of_mem_eraseIdx hmem
      · intro key successor hget
        exact release_finds_successor hget

end

/-- In every run whose calls all meet the condition, a response is discarded only when a strictly
newer request for its key is in the queue and has not expired. -/
theorem responses_discarded_for_newer [SliceSort] [LawfulSliceSort] {policy : ReadApiPolicy}
    {retryPolicy : RetryPolicy} {startMs : ℕ} {scheduler : RequestScheduler}
    (hnew : RequestScheduler.new policy retryPolicy startMs = .ok scheduler)
    {calls : List SchedulerCall}
    (hcalls : AllSteps SchedulerRun.after NewerSuccessors ⟨scheduler, []⟩ calls) :
    AllSteps SchedulerRun.after DiscardsForNewer ⟨scheduler, []⟩ calls := by
  refine allSteps_of_steps (I := fun state => RunSound policy state ∧ SuccessorsNewer state)
    ?_ ?_ ⟨runSound_new hnew, ?_⟩ hcalls
  · rintro state call ⟨hsound, hnewer⟩ hcall
    exact ⟨after_runSound hsound call, hnewer.after hsound hcall⟩
  · rintro state call ⟨-, hnewer⟩ hcall
    exact discardsForNewer_of_newer hnewer hcall
  · intro dispatch hmem
    cases hmem

def sampleResponse : ReadResponse := ⟨2, 100, true⟩

/-- A request, its dispatch, a request that follows it, and the response to the first one. -/
def followedCalls (createdAt : ℕ) : List SchedulerCall :=
  [.schedule (sampleRequest 0) 0, .beginNext 1, .schedule (sampleRequest createdAt) 2,
    .finish 0 (.ok sampleResponse) 3 3]

theorem responses_discarded_for_newer_followed : ∃ _ : SliceSort,
    AllSteps SchedulerRun.after DiscardsForNewer ⟨sampleScheduler, []⟩ (followedCalls 2) := by
  let sort : SliceSort := ⟨fun compare items => items.mergeSort fun a b => compare a b != .gt⟩
  have lawful : LawfulSliceSort := lawful_mergeSort
  refine ⟨sort, responses_discarded_for_newer sampleScheduler_new ⟨?_, trivial, ?_, ?_, trivial⟩⟩
  · rintro - dispatch hmem
    cases hmem
  · rintro - dispatch hmem -
    revert dispatch
    decide +kernel
  · have hunexpired : ∀ dispatch ∈ (run SchedulerRun.after ⟨sampleScheduler, []⟩
        ((followedCalls 2).take 3)).held[0]?,
        ∀ successor ∈ (run SchedulerRun.after ⟨sampleScheduler, []⟩
          ((followedCalls 2).take 3)).scheduler.queue.successors[dispatch.request.key]?,
          3 < successor.expiresAt := by
      decide +kernel
    exact hunexpired

theorem duplicate_discards_response :
    ¬ ∀ [SliceSort] [LawfulSliceSort] (policy : ReadApiPolicy) (retryPolicy : RetryPolicy)
      (startMs : ℕ) (scheduler : RequestScheduler) (calls : List SchedulerCall),
      RequestScheduler.new policy retryPolicy startMs = .ok scheduler →
        AllSteps SchedulerRun.after DiscardsForNewer ⟨scheduler, []⟩ calls := by
  intro h
  let sort : SliceSort := ⟨fun compare items => items.mergeSort fun a b => compare a b != .gt⟩
  have lawful : LawfulSliceSort := lawful_mergeSort
  have hsteps := h samplePolicy sampleRetryPolicy 0 sampleScheduler (followedCalls 0)
    sampleScheduler_new
  have hfinish := hsteps.2.2.2.1 { request := sampleRequest 0, permit := true, active := true }
    (by decide +kernel) (by decide +kernel)
  obtain ⟨newer, hqueued, hnewer, -⟩ := hfinish
  have hnone : ∀ newer ∈ (run SchedulerRun.after ⟨sampleScheduler, []⟩
      ((followedCalls 0).take 3)).scheduler.queue.pending[(sampleRequest 0).key]?,
      isNewer newer (sampleRequest 0) = false := by
    decide +kernel
  have hduplicate : ∀ newer ∈ (run SchedulerRun.after ⟨sampleScheduler, []⟩
      ((followedCalls 0).take 3)).scheduler.queue.successors[(sampleRequest 0).key]?,
      isNewer newer (sampleRequest 0) = false := by
    decide +kernel
  have hold : isNewer newer (sampleRequest 0) = false := by
    rcases hqueued with hpending | hsuccessor
    · exact hnone newer hpending
    · exact hduplicate newer hsuccessor
  rw [hold] at hnewer
  cases hnewer

end CopyTrade.Analysis
