import CopyTrade.Analysis.Scheduling.BudgetLevels
import CopyTrade.Model.Core.Scheduler

/-!
# The invariants of the request queue

A request moves from the pending ones to those in flight, and a newer request for a key in
flight waits as its successor.  Whatever the calls and the clock readings, no key is in two of
these places, the queue stays within its capacity, every key in flight is held by one dispatch
and one permit, and a dispatch is paid for by one charge.

A property of the scheduled requests that does not depend on the attempt is one of all requests that
wait, and of all that are dispatched.
-/

namespace CopyTrade.Analysis

open Foundation Model
open Std (ExtTreeMap ExtTreeSet)

/-- Every entry is under its own key, and the collections fit together. -/
structure QueueSound (capacity : ℕ) (queue : QueueState) : Prop where
  pendingKeys : ∀ (key : RequestKey) (request : ScheduledReadRequest),
    queue.pending[key]? = some request → request.key = key
  successorKeys : ∀ (key : RequestKey) (request : ScheduledReadRequest),
    queue.successors[key]? = some request → request.key = key
  disjoint : ∀ key ∈ queue.pending, key ∉ queue.inFlight
  successors : ∀ key ∈ queue.successors, key ∈ queue.inFlight
  bound : queue.queuedLen ≤ capacity

theorem queueSound_empty (capacity : ℕ) : QueueSound capacity QueueState.empty := by
  have hnone : ∀ key : RequestKey,
      (∅ : ExtTreeMap RequestKey ScheduledReadRequest)[key]? = none :=
    fun key => ExtTreeMap.getElem?_empty
  have hkeys : ∀ (key : RequestKey) (request : ScheduledReadRequest),
      (∅ : ExtTreeMap RequestKey ScheduledReadRequest)[key]? = some request →
      request.key = key := by
    intro key request hget
    rw [hnone] at hget
    cases hget
  exact ⟨hkeys, hkeys, fun key hmem => absurd hmem ExtTreeMap.not_mem_empty,
    fun key hmem => absurd hmem ExtTreeMap.not_mem_empty, Nat.zero_le capacity⟩

/-- The next queue has lost entries at most. -/
structure Shrinks (queue next : QueueState) : Prop where
  pending : ∀ (key : RequestKey) (request : ScheduledReadRequest),
    next.pending[key]? = some request → queue.pending[key]? = some request
  successors : ∀ (key : RequestKey) (request : ScheduledReadRequest),
    next.successors[key]? = some request → queue.successors[key]? = some request
  inFlight : next.inFlight = queue.inFlight
  size : next.queuedLen ≤ queue.queuedLen

section

variable {capacity : ℕ} {queue next : QueueState}

theorem Shrinks.refl (queue : QueueState) : Shrinks queue queue :=
  ⟨fun _ _ h => h, fun _ _ h => h, rfl, le_rfl⟩

variable {key : RequestKey} {request : ScheduledReadRequest}
  {requests : ExtTreeMap RequestKey ScheduledReadRequest}

theorem mem_of_getElem? (h : requests[key]? = some request) : key ∈ requests :=
  ExtTreeMap.mem_iff_isSome_getElem?.mpr (by rw [h]; rfl)

theorem mem_of_shrinks {before after : ExtTreeMap RequestKey ScheduledReadRequest}
    (h : ∀ (key : RequestKey) (request : ScheduledReadRequest),
      after[key]? = some request → before[key]? = some request) (hmem : key ∈ after) :
    key ∈ before := by
  obtain ⟨request, hrequest⟩ := Option.isSome_iff_exists.mp
    (ExtTreeMap.mem_iff_isSome_getElem?.mp hmem)
  exact mem_of_getElem? (h key request hrequest)

theorem Shrinks.sound (h : Shrinks queue next) (hsound : QueueSound capacity queue) :
    QueueSound capacity next := by
  refine ⟨fun key request hget => hsound.pendingKeys key request (h.pending key request hget),
    fun key request hget => hsound.successorKeys key request (h.successors key request hget),
    fun key hmem => ?_, fun key hmem => ?_, h.size.trans hsound.bound⟩
  · rw [h.inFlight]
    exact hsound.disjoint key (mem_of_shrinks h.pending hmem)
  · rw [h.inFlight]
    exact hsound.successors key (mem_of_shrinks h.successors hmem)

theorem getElem?_filter_eq_some {keep : ScheduledReadRequest → Bool} :
    (requests.filter fun _ request => keep request)[key]? = some request ↔
      requests[key]? = some request ∧ keep request = true := by
  rw [ExtTreeMap.getElem?_filter', Option.filter_eq_some_iff]

theorem purgeExpired_shrinks (queue : QueueState) (nowMs : ℕ) :
    Shrinks queue (queue.purgeExpired nowMs) := by
  refine ⟨fun key request hget => (getElem?_filter_eq_some.mp hget).1,
    fun key request hget => (getElem?_filter_eq_some.mp hget).1, rfl, ?_⟩
  exact Nat.add_le_add ExtTreeMap.size_filter_le_size ExtTreeMap.size_filter_le_size

theorem purgeExpired_unexpired {nowMs : ℕ} (h : request ∈ (queue.purgeExpired nowMs).pending.values) :
    nowMs < request.expiresAt := by
  obtain ⟨key, hget⟩ := mem_values_iff.mp h
  exact of_decide_eq_true (getElem?_filter_eq_some.mp hget).2

theorem startWindow_shrinks (queue : QueueState) (windowMs nowMs : ℕ) :
    Shrinks queue (RequestScheduler.startWindow queue windowMs nowMs) := by
  unfold RequestScheduler.startWindow
  split
  · exact ⟨fun _ _ h => h, fun _ _ h => h, rfl, le_rfl⟩
  · exact Shrinks.refl queue

theorem minBy_mem {α : Type} {compare : α → α → Ordering} {items : List α} {least : α}
    (h : minBy compare items = some least) : least ∈ items := by
  cases items with
  | nil => cases h
  | cons a rest =>
    have hleast : rest.foldl (fun least b => if compare least b = .gt then b else least) a = least :=
      Option.some.inj h
    clear h
    induction rest generalizing a with
    | nil =>
      rw [← hleast]
      exact List.mem_singleton_self a
    | cons b rest ih =>
      rw [List.foldl_cons] at hleast
      split at hleast
      · exact List.mem_cons_of_mem a (ih b hleast)
      · rcases List.mem_cons.mp (ih a hleast) with rfl | hmem
        · exact List.mem_cons_self
        · exact List.mem_cons_of_mem _ (List.mem_cons_of_mem _ hmem)

theorem mem_of_mem_evictableOf {isSuccessor other : Bool} {lowest : ScheduledReadRequest}
    (h : (isSuccessor, key, lowest) ∈ QueueState.evictableOf other requests) :
    isSuccessor = other ∧ key ∈ requests := by
  obtain ⟨entry, hentry, heq⟩ := List.mem_map.mp h
  cases heq
  have hget := ExtTreeMap.mem_toList_iff_getElem?_eq_some.mp (List.mem_of_mem_filter hentry)
  exact ⟨rfl, mem_of_getElem? hget⟩

theorem getElem?_erase_imp {erased : RequestKey} (h : (requests.erase erased)[key]? = some request) :
    requests[key]? = some request := by
  rw [getElem?_erase_eq] at h
  split at h
  · cases h
  · exact h

theorem makeQueueRoom_spec (hsound : QueueSound capacity queue) (incoming : ScheduledReadRequest) :
    Shrinks queue (queue.makeQueueRoom capacity incoming).2 ∧
      ((queue.makeQueueRoom capacity incoming).1 = true →
        (queue.makeQueueRoom capacity incoming).2.queuedLen < capacity) := by
  unfold QueueState.makeQueueRoom
  split
  · rename_i hroom
    exact ⟨Shrinks.refl queue, fun _ => hroom⟩
  have hbound := hsound.bound
  split
  · exact ⟨Shrinks.refl queue, nofun⟩
  rename_i isSuccessor key lowest hleast
  have hmem := minBy_mem hleast
  unfold QueueState.evictable at hmem
  split
  · exact ⟨Shrinks.refl queue, nofun⟩
  unfold QueueState.queuedLen at *
  rcases List.mem_append.mp hmem with hpending | hsuccessor
  · obtain ⟨rfl, hkey⟩ := mem_of_mem_evictableOf hpending
    have hsize := size_erase_lt hkey
    refine ⟨⟨fun other request => getElem?_erase_imp, fun _ _ h => h, rfl, ?_⟩, fun _ => ?_⟩
    · show (queue.pending.erase key).size + queue.successors.size ≤
        queue.pending.size + queue.successors.size
      omega
    · show (queue.pending.erase key).size + queue.successors.size < _
      omega
  · obtain ⟨rfl, hkey⟩ := mem_of_mem_evictableOf hsuccessor
    have hsize := size_erase_lt hkey
    refine ⟨⟨fun _ _ h => h, fun other request => getElem?_erase_imp, rfl, ?_⟩, fun _ => ?_⟩
    · show queue.pending.size + (queue.successors.erase key).size ≤
        queue.pending.size + queue.successors.size
      omega
    · show queue.pending.size + (queue.successors.erase key).size < _
      omega

theorem keys_insert (h : ∀ (key : RequestKey) (other : ScheduledReadRequest),
      requests[key]? = some other → other.key = key) (key : RequestKey)
    (other : ScheduledReadRequest) (hget : (requests.insert request.key request)[key]? = some other) :
    other.key = key := by
  rw [getElem?_insert_eq] at hget
  split at hget
  · cases hget
    assumption
  · exact h key other hget

theorem insertPending_sound (hsound : QueueSound capacity queue)
    (hfree : request.key ∉ queue.inFlight)
    (hroom : request.key ∈ queue.pending ∨ queue.queuedLen < capacity) :
    QueueSound capacity { queue with pending := queue.pending.insert request.key request } := by
  refine ⟨keys_insert hsound.pendingKeys, hsound.successorKeys, ?_, hsound.successors, ?_⟩
  · intro key hmem
    rcases ExtTreeMap.mem_insert.mp hmem with hsame | hbefore
    · rw [← Std.LawfulEqOrd.eq_of_compare hsame]
      exact hfree
    · exact hsound.disjoint key hbefore
  · have hbound := hsound.bound
    show (queue.pending.insert request.key request).size + queue.successors.size ≤ capacity
    unfold QueueState.queuedLen at hbound hroom
    rcases hroom with hthere | hroom
    · rw [ExtTreeMap.size_insert, if_pos (ExtTreeMap.contains_iff_mem.mpr hthere)]
      exact hbound
    · have hsize := ExtTreeMap.size_insert_le (t := queue.pending) (k := request.key) (v := request)
      omega

theorem insertSuccessor_sound (hsound : QueueSound capacity queue)
    (hflight : request.key ∈ queue.inFlight)
    (hroom : request.key ∈ queue.successors ∨ queue.queuedLen < capacity) :
    QueueSound capacity
      { queue with successors := queue.successors.insert request.key request } := by
  refine ⟨hsound.pendingKeys, keys_insert hsound.successorKeys, hsound.disjoint, ?_, ?_⟩
  · intro key hmem
    rcases ExtTreeMap.mem_insert.mp hmem with hsame | hbefore
    · rw [← Std.LawfulEqOrd.eq_of_compare hsame]
      exact hflight
    · exact hsound.successors key hbefore
  · have hbound := hsound.bound
    show queue.pending.size + (queue.successors.insert request.key request).size ≤ capacity
    unfold QueueState.queuedLen at hbound hroom
    rcases hroom with hthere | hroom
    · rw [ExtTreeMap.size_insert, if_pos (ExtTreeMap.contains_iff_mem.mpr hthere)]
      exact hbound
    · have hsize :=
        ExtTreeMap.size_insert_le (t := queue.successors) (k := request.key) (v := request)
      omega

theorem QueueSound.congr (hsound : QueueSound capacity queue) (hpending : next.pending = queue.pending)
    (hflight : next.inFlight = queue.inFlight) (hsuccessors : next.successors = queue.successors) :
    QueueSound capacity next := by
  obtain ⟨hpendingKeys, hsuccessorKeys, hdisjoint, hwaiting, hbound⟩ := hsound
  refine ⟨?_, ?_, ?_, ?_, ?_⟩
  · rwa [hpending]
  · rwa [hsuccessors]
  · rwa [hpending, hflight]
  · rwa [hsuccessors, hflight]
  · unfold QueueState.queuedLen at hbound ⊢
    rwa [hpending, hsuccessors]

theorem enterQueue_sound (hsound : QueueSound capacity queue) (request : ScheduledReadRequest) :
    QueueSound capacity (RequestScheduler.enterQueue queue capacity request).2 ∧
      (RequestScheduler.enterQueue queue capacity request).2.inFlight = queue.inFlight := by
  have hspec := makeQueueRoom_spec hsound request
  unfold RequestScheduler.enterQueue
  split
  · rename_i hflight
    split
    · rename_i existing hexisting
      split
      · exact ⟨hsound, rfl⟩
      · exact ⟨(insertSuccessor_sound hsound hflight
          (.inl (mem_of_getElem? hexisting))).congr rfl rfl rfl, rfl⟩
    · split
      · rename_i room hroom
        rw [hroom] at hspec
        exact ⟨hspec.1.sound hsound, hspec.1.inFlight⟩
      · rename_i room hroom
        rw [hroom] at hspec
        have hin : request.key ∈ room.inFlight := by
          rw [hspec.1.inFlight]
          exact hflight
        exact ⟨(insertSuccessor_sound (hspec.1.sound hsound) hin
          (.inr (hspec.2 rfl))).congr rfl rfl rfl, hspec.1.inFlight⟩
  · rename_i hfree
    split
    · rename_i existing hexisting
      split
      · exact ⟨hsound, rfl⟩
      · exact ⟨(insertPending_sound hsound hfree
          (.inl (mem_of_getElem? hexisting))).congr rfl rfl rfl, rfl⟩
    · split
      · rename_i room hroom
        rw [hroom] at hspec
        exact ⟨hspec.1.sound hsound, hspec.1.inFlight⟩
      · rename_i room hroom
        rw [hroom] at hspec
        have hout : request.key ∉ room.inFlight := by
          rw [hspec.1.inFlight]
          exact hfree
        exact ⟨(insertPending_sound (hspec.1.sound hsound) hout
          (.inr (hspec.2 rfl))).congr rfl rfl rfl, hspec.1.inFlight⟩

theorem release_sound (hsound : QueueSound capacity queue) (key : RequestKey) :
    QueueSound capacity (queue.release key).2 ∧
      (queue.release key).2.inFlight = queue.inFlight.erase key := by
  unfold QueueState.release
  dsimp only
  split
  · rename_i successor hsuccessor
    refine ⟨⟨?_, fun other request hget => hsound.successorKeys other request
      (getElem?_erase_imp hget), ?_, ?_, ?_⟩, rfl⟩
    · rw [← hsound.successorKeys key successor hsuccessor]
      exact keys_insert hsound.pendingKeys
    · intro other hmem
      rw [mem_set_erase]
      rintro ⟨hne, hflight⟩
      rcases ExtTreeMap.mem_insert.mp hmem with hsame | hbefore
      · exact hne (Std.LawfulEqOrd.eq_of_compare hsame)
      · exact hsound.disjoint other hbefore hflight
    · intro other hmem
      have hmem := ExtTreeMap.mem_erase.mp hmem
      rw [mem_set_erase]
      refine ⟨fun hsame => hmem.1 ?_, hsound.successors other hmem.2⟩
      rw [hsame]
      exact Std.ReflOrd.compare_self
    · have hbound := hsound.bound
      have hlost := size_erase_lt (mem_of_getElem? hsuccessor)
      have hsize := ExtTreeMap.size_insert_le (t := queue.pending) (k := key) (v := successor)
      show (queue.pending.insert key successor).size + (queue.successors.erase key).size ≤ _
      unfold QueueState.queuedLen at hbound
      omega
  · rename_i hnone
    refine ⟨⟨hsound.pendingKeys, hsound.successorKeys, ?_, ?_, hsound.bound⟩, rfl⟩
    · intro other hmem
      rw [mem_set_erase]
      exact fun h => hsound.disjoint other hmem h.2
    · intro other hmem
      rw [mem_set_erase]
      refine ⟨?_, hsound.successors other hmem⟩
      rintro rfl
      have hmem := ExtTreeMap.mem_iff_isSome_getElem?.mp hmem
      rw [hnone] at hmem
      cases hmem

end

section

open WeightedTokenBucket

theorem refill_refill (bucket : WeightedTokenBucket) (nowMs : ℕ) :
    (bucket.refill nowMs).refill nowMs = bucket.refill nowMs := by
  have hlast : nowMs - (bucket.refill nowMs).lastRefillMs = 0 := by
    unfold refill
    dsimp only
    split
    · assumption
    · split <;> exact Nat.sub_self nowMs
  generalize bucket.refill nowMs = refilled at hlast
  unfold refill
  exact if_pos hlast

theorem tryCharge_refill (bucket : WeightedTokenBucket) (budgetClass : BudgetClass)
    (weight nowMs : ℕ) :
    (bucket.refill nowMs).tryCharge budgetClass weight nowMs =
      bucket.tryCharge budgetClass weight nowMs := by
  unfold tryCharge
  rw [refill_refill]

theorem chargeFirst_spec (nowMs : ℕ) (budget : WeightedTokenBucket)
    (requests : List ScheduledReadRequest) :
    (∃ request ∈ requests, ∃ charged,
      RequestScheduler.chargeFirst nowMs budget requests = (some request, charged) ∧
        budget.tryCharge request.budgetClass request.weight nowMs = (.charged, charged)) ∨
      RequestScheduler.chargeFirst nowMs budget requests = (none, budget) ∨
      RequestScheduler.chargeFirst nowMs budget requests = (none, budget.refill nowMs) := by
  induction requests generalizing budget with
  | nil => exact .inr (.inl rfl)
  | cons request rest ih =>
    rcases tryCharge_eq budget request.budgetClass request.weight nowMs with
      ⟨-, hcharged⟩ | ⟨-, decision, hdecision, hrefused⟩
    · refine .inl ⟨request, List.mem_cons_self, _, ?_, hcharged⟩
      unfold RequestScheduler.chargeFirst
      rw [hcharged]
    · have hrest : RequestScheduler.chargeFirst nowMs budget (request :: rest) =
          RequestScheduler.chargeFirst nowMs (budget.refill nowMs) rest := by
        rw [RequestScheduler.chargeFirst, hrefused]
        cases decision with
        | charged => exact absurd rfl hdecision
        | insufficient => rfl
        | overweight => rfl
      rw [hrest]
      rcases ih (budget.refill nowMs) with ⟨found, hmem, charged, hfound, hcharge⟩ | hnone | hnone
      · rw [tryCharge_refill] at hcharge
        exact .inl ⟨found, List.mem_cons_of_mem request hmem, charged, hfound, hcharge⟩
      · exact .inr (.inr hnone)
      · rw [refill_refill] at hnone
        exact .inr (.inr hnone)

end

/-- The request was dispatched unexpired and due, and paid for by one charge. -/
structure DispatchedOnce (before after : RequestScheduler) (request : ScheduledReadRequest)
    (nowMs : ℕ) : Prop where
  unexpired : nowMs < request.expiresAt
  due : request.notBefore ≤ nowMs
  charged : before.budget.tryCharge request.budgetClass request.weight nowMs =
    (.charged, after.budget)

def Uncharged (before after : RequestScheduler) : Prop :=
  after.budget = before.budget ∨ ∃ nowMs, after.budget = before.budget.refill nowMs

/-- What `begin_next` does when it dispatches a request. -/
structure Dispatches (scheduler next : RequestScheduler) (request : ScheduledReadRequest)
    (nowMs : ℕ) : Prop where
  once : DispatchedOnce scheduler next request nowMs
  waited : (scheduler.queue.purgeExpired nowMs).pending[request.key]? = some request
  pending : next.queue.pending = (scheduler.queue.purgeExpired nowMs).pending.erase request.key
  inFlight : next.queue.inFlight = scheduler.queue.inFlight.insert request.key
  successors : next.queue.successors = (scheduler.queue.purgeExpired nowMs).successors
  permits : next.availablePermits + 1 = scheduler.availablePermits
  policy : next.policy = scheduler.policy

section

variable [SliceSort] [LawfulSliceSort] {capacity : ℕ} {scheduler : RequestScheduler}

theorem beginNext_cases (hsound : QueueSound capacity scheduler.queue) (nowMs : ℕ) :
    (∃ request next, scheduler.beginNext nowMs =
        (some { request, permit := true, active := true }, next) ∧
          Dispatches scheduler next request nowMs) ∨
      ∃ next, scheduler.beginNext nowMs = (none, next) ∧ Uncharged scheduler next ∧
        Shrinks scheduler.queue next.queue ∧
        next.availablePermits = scheduler.availablePermits ∧ next.policy = scheduler.policy := by
  unfold RequestScheduler.beginNext
  split
  · exact .inr ⟨scheduler, rfl, .inl rfl, Shrinks.refl _, rfl, rfl⟩
  rename_i hpermits
  dsimp only
  rcases chargeFirst_spec nowMs scheduler.budget
    (RequestScheduler.ordered (scheduler.queue.purgeExpired nowMs) scheduler.policy nowMs) with
    ⟨request, hmem, charged, hfound, hcharge⟩ | hnone | hnone
  · rw [hfound]
    have hdue := (LawfulSliceSort.perm _ _).mem_iff.mp hmem
    rw [List.mem_filter, decide_eq_true_eq] at hdue
    obtain ⟨key, hget⟩ := mem_values_iff.mp hdue.1
    have hkey := hsound.pendingKeys key request
      ((purgeExpired_shrinks scheduler.queue nowMs).pending key request hget)
    rw [← hkey] at hget
    refine .inl ⟨request, _, rfl, ⟨purgeExpired_unexpired hdue.1, hdue.2, hcharge⟩, hget, rfl,
      rfl, rfl, ?_, rfl⟩
    exact Nat.sub_add_cancel (Nat.one_le_iff_ne_zero.mpr hpermits)
  · rw [hnone]
    exact .inr ⟨_, rfl, .inl rfl, purgeExpired_shrinks _ nowMs, rfl, rfl⟩
  · rw [hnone]
    exact .inr ⟨_, rfl, .inr ⟨nowMs, rfl⟩, purgeExpired_shrinks _ nowMs, rfl, rfl⟩

end

def heldKeys (state : SchedulerRun) : List RequestKey :=
  state.held.map fun dispatch => dispatch.request.key

/-- What holds of a scheduler and the dispatches of its callers. -/
structure RunSound (policy : ReadApiPolicy) (state : SchedulerRun) : Prop where
  samePolicy : state.scheduler.policy = policy
  queue : QueueSound policy.queueCapacity state.scheduler.queue
  active : ∀ dispatch ∈ state.held, dispatch.active = true ∧ dispatch.permit = true
  once : (heldKeys state).Nodup
  inFlight : ∀ key, key ∈ state.scheduler.queue.inFlight ↔ key ∈ heldKeys state
  permits : state.held.length + state.scheduler.availablePermits = policy.maxConcurrency

section

variable {policy : ReadApiPolicy} {state : SchedulerRun}

variable {scheduler : RequestScheduler} {index : ℕ} {dispatch : ScheduledDispatch}

theorem runSound_new {retryPolicy : RetryPolicy} {nowMs : ℕ}
    (h : RequestScheduler.new policy retryPolicy nowMs = .ok scheduler) :
    RunSound policy ⟨scheduler, []⟩ := by
  obtain ⟨_, -, h⟩ := of_bind h
  obtain ⟨_, -, h⟩ := of_bind h
  obtain ⟨budget, -, h⟩ := of_bind h
  cases h
  refine ⟨rfl, queueSound_empty _, fun dispatch hmem => absurd hmem List.not_mem_nil,
    List.nodup_nil, fun key => ?_, Nat.zero_add _⟩
  exact ⟨fun hmem => absurd hmem ExtTreeSet.not_mem_empty, fun hmem => absurd hmem List.not_mem_nil⟩

theorem schedule_spec (hsound : QueueSound scheduler.policy.queueCapacity scheduler.queue)
    (request : ScheduledReadRequest) (nowMs : ℕ) :
    ∃ queue, (scheduler.schedule request nowMs).2 = { scheduler with queue } ∧
      QueueSound scheduler.policy.queueCapacity queue ∧
      queue.inFlight = scheduler.queue.inFlight := by
  unfold RequestScheduler.schedule
  split
  · exact ⟨scheduler.queue, rfl, hsound, rfl⟩
  · have hpurged := purgeExpired_shrinks scheduler.queue nowMs
    have hwindow := startWindow_shrinks (scheduler.queue.purgeExpired nowMs)
      scheduler.policy.windowMs nowMs
    have hadmitted := enterQueue_sound (hwindow.sound (hpurged.sound hsound)) request
    exact ⟨_, rfl, hadmitted.1, hadmitted.2.trans (hwindow.inFlight.trans hpurged.inFlight)⟩

theorem RunSound.withQueue (h : RunSound policy state) {queue : QueueState}
    (hsound : QueueSound policy.queueCapacity queue)
    (hflight : queue.inFlight = state.scheduler.queue.inFlight) :
    RunSound policy { state with scheduler := { state.scheduler with queue } } := by
  refine ⟨h.samePolicy, hsound, h.active, h.once, fun key => ?_, h.permits⟩
  rw [show ({ state.scheduler with queue } : RequestScheduler).queue = queue from rfl, hflight]
  exact h.inFlight key

theorem schedule_sound (h : RunSound policy state) (request : ScheduledReadRequest) (nowMs : ℕ) :
    RunSound policy { state with scheduler := (state.scheduler.schedule request nowMs).2 } := by
  have hqueue := h.queue
  rw [← h.samePolicy] at hqueue
  obtain ⟨queue, hnext, hsound, hflight⟩ := schedule_spec hqueue request nowMs
  rw [h.samePolicy] at hsound
  rw [hnext]
  exact h.withQueue hsound hflight

theorem scheduleRetry_sound (h : RunSound policy state) (request : ScheduledReadRequest)
    (failure : ReadFailure) (nowMs scheduleNowMs : ℕ) :
    RunSound policy { state with
      scheduler := (state.scheduler.scheduleRetry request failure nowMs scheduleNowMs).2 } := by
  unfold RequestScheduler.scheduleRetry
  dsimp only
  split
  · exact h
  split
  · exact h
  split
  · exact h
  split
  · exact h
  rename_i notBefore hnotBefore
  split
  · exact h
  have hscheduled := schedule_sound h
    { request with attempt := request.attempt + 1, notBefore } scheduleNowMs
  split <;> rename_i hresult <;> rw [hresult] at hscheduled <;> exact hscheduled

theorem mem_eraseIdx_of_nodup {α : Type} {items : List α} (h : items.Nodup) {a b : α}
    (hget : items[index]? = some a) : b ∈ items.eraseIdx index ↔ a ≠ b ∧ b ∈ items := by
  rw [List.mem_eraseIdx_iff_getElem?]
  constructor
  · rintro ⟨other, hne, hother⟩
    refine ⟨?_, List.mem_of_getElem? hother⟩
    rintro rfl
    exact hne ((List.getElem?_inj (List.getElem?_eq_some_iff.mp hother).1 h).mp
      (hother.trans hget.symm))
  · rintro ⟨hne, hmem⟩
    obtain ⟨other, hother⟩ := List.getElem?_of_mem hmem
    refine ⟨other, ?_, hother⟩
    rintro rfl
    rw [hget] at hother
    exact hne (Option.some.inj hother)

theorem release_held (h : RunSound policy state) (hheld : state.held[index]? = some dispatch) :
    RunSound policy ⟨(state.scheduler.release dispatch).2.2, state.held.eraseIdx index⟩ := by
  obtain ⟨hactive, hpermit⟩ := h.active dispatch (List.mem_of_getElem? hheld)
  obtain ⟨hsound, hflight⟩ := release_sound h.queue dispatch.request.key
  have hreleased : (state.scheduler.release dispatch).2.2 = { state.scheduler with
      queue := (state.scheduler.queue.release dispatch.request.key).2
      availablePermits := state.scheduler.availablePermits + 1 } := by
    unfold RequestScheduler.release
    rw [hactive, hpermit]
    rfl
  obtain ⟨hlt, hget⟩ := List.getElem?_eq_some_iff.mp hheld
  have hkeys : heldKeys ⟨(state.scheduler.release dispatch).2.2, state.held.eraseIdx index⟩ =
      (heldKeys state).eraseIdx index := by
    unfold heldKeys
    rw [List.eraseIdx_map]
  have hkey : (heldKeys state)[index]? = some dispatch.request.key := by
    unfold heldKeys
    rw [List.getElem?_map, hheld]
    rfl
  refine ⟨?_, ?_, fun other hmem => h.active other (List.mem_of_mem_eraseIdx hmem), ?_, ?_, ?_⟩
  · rw [hreleased]
    exact h.samePolicy
  · rw [hreleased]
    exact hsound
  · rw [hkeys]
    exact h.once.sublist (List.eraseIdx_sublist _ _)
  · intro key
    rw [hkeys, hreleased, hflight, mem_set_erase, h.inFlight, mem_eraseIdx_of_nodup h.once hkey]
  · have hpermits := h.permits
    rw [hreleased]
    show (state.held.eraseIdx index).length + (state.scheduler.availablePermits + 1) = _
    rw [List.length_eraseIdx_of_lt hlt]
    omega

theorem finish_sound (h : RunSound policy state) (hheld : state.held[index]? = some dispatch)
    (result : Except ReadFailure ReadResponse) (nowMs scheduleNowMs : ℕ) :
    RunSound policy ⟨(state.scheduler.finish dispatch result nowMs scheduleNowMs).2,
      state.held.eraseIdx index⟩ := by
  have hreleased := release_held h hheld
  unfold RequestScheduler.finish
  dsimp only
  split
  · rename_i hresult
    rw [hresult] at hreleased
    exact hreleased
  · rename_i hresult
    rw [hresult] at hreleased
    split
    · split
      · exact hreleased
      · split <;> exact hreleased
    · exact hreleased
    · exact hreleased
    · exact scheduleRetry_sound hreleased dispatch.request _ nowMs scheduleNowMs

variable [SliceSort] [LawfulSliceSort]

theorem beginNext_sound (h : RunSound policy state) (nowMs : ℕ) :
    RunSound policy (state.after (.beginNext nowMs)) := by
  unfold SchedulerRun.after
  dsimp only
  rcases beginNext_cases h.queue nowMs with
    ⟨request, next, hbegin, hdispatch⟩ | ⟨next, hbegin, -, hshrinks, hpermits, hpolicy⟩
  · rw [hbegin]
    have hpurged := (purgeExpired_shrinks state.scheduler.queue nowMs).sound h.queue
    have hkeys : heldKeys ⟨next, state.held ++ [{ request, permit := true, active := true }]⟩ =
        heldKeys state ++ [request.key] := by
      unfold heldKeys
      rw [List.map_append]
      rfl
    have hwaits : request.key ∈ (state.scheduler.queue.purgeExpired nowMs).pending :=
      mem_of_getElem? hdispatch.waited
    have hfree : request.key ∉ heldKeys state := by
      rw [← h.inFlight]
      exact hpurged.disjoint request.key hwaits
    refine ⟨hdispatch.policy.trans h.samePolicy, ⟨?_, ?_, ?_, ?_, ?_⟩, ?_, ?_, ?_, ?_⟩
    · intro key other hget
      rw [hdispatch.pending] at hget
      exact hpurged.pendingKeys key other (getElem?_erase_imp hget)
    · rw [hdispatch.successors]
      exact hpurged.successorKeys
    · intro key hmem
      rw [hdispatch.pending, ExtTreeMap.mem_erase] at hmem
      rw [hdispatch.inFlight, mem_set_insert]
      rintro (hsame | hflight)
      · rw [hsame] at hmem
        exact hmem.1 Std.ReflOrd.compare_self
      · exact hpurged.disjoint key hmem.2 hflight
    · intro key hmem
      rw [hdispatch.successors] at hmem
      rw [hdispatch.inFlight, mem_set_insert]
      exact .inr (hpurged.successors key hmem)
    · have hbound := hpurged.bound
      have hlost := size_erase_lt hwaits
      unfold QueueState.queuedLen at hbound ⊢
      rw [hdispatch.pending, hdispatch.successors]
      omega
    · intro dispatch hmem
      rcases List.mem_append.mp hmem with hbefore | hnew
      · exact h.active dispatch hbefore
      · obtain rfl := List.mem_singleton.mp hnew
        exact ⟨rfl, rfl⟩
    · show (heldKeys ⟨next, state.held ++ [{ request, permit := true, active := true }]⟩).Nodup
      rw [hkeys, List.nodup_append]
      refine ⟨h.once, List.nodup_singleton _, fun key hkey other hother => ?_⟩
      rw [List.mem_singleton.mp hother]
      rintro rfl
      exact hfree hkey
    · intro key
      show key ∈ next.queue.inFlight ↔
        key ∈ heldKeys ⟨next, state.held ++ [{ request, permit := true, active := true }]⟩
      rw [hkeys, hdispatch.inFlight, mem_set_insert, List.mem_append, List.mem_singleton,
        h.inFlight, or_comm, eq_comm]
    · have hpermits := h.permits
      have hfewer := hdispatch.permits
      show (state.held ++ [_]).length + next.availablePermits = _
      rw [List.length_append, List.length_singleton]
      omega
  · rw [hbegin]
    show RunSound policy ⟨next, state.held ++ []⟩
    rw [List.append_nil]
    refine ⟨hpolicy.trans h.samePolicy, hshrinks.sound h.queue, h.active, h.once, fun key => ?_, ?_⟩
    · show key ∈ next.queue.inFlight ↔ key ∈ heldKeys state
      rw [hshrinks.inFlight]
      exact h.inFlight key
    · show state.held.length + next.availablePermits = _
      rw [hpermits]
      exact h.permits

theorem after_runSound (h : RunSound policy state) (call : SchedulerCall) :
    RunSound policy (state.after call) := by
  cases call with
  | schedule request nowMs => exact schedule_sound h request nowMs
  | beginNext nowMs => exact beginNext_sound h nowMs
  | finish index result nowMs scheduleNowMs =>
    unfold SchedulerRun.after
    dsimp only
    split
    · exact h
    · rename_i dispatch hheld
      exact finish_sound h hheld result nowMs scheduleNowMs
  | drop index =>
    unfold SchedulerRun.after
    dsimp only
    split
    · exact h
    · rename_i dispatch hheld
      exact release_held h hheld

end

structure QueueInvariants (policy : ReadApiPolicy) (scheduler : RequestScheduler) : Prop where
  disjoint : ∀ key ∈ scheduler.queue.pending, key ∉ scheduler.queue.inFlight
  successors : ∀ key ∈ scheduler.queue.successors, key ∈ scheduler.queue.inFlight
  capacity : scheduler.queue.pending.size + scheduler.queue.successors.size ≤ policy.queueCapacity
  concurrency : scheduler.queue.inFlight.size + scheduler.availablePermits = policy.maxConcurrency

variable {policy : ReadApiPolicy} {state : SchedulerRun}

theorem RunSound.invariants (h : RunSound policy state) :
    QueueInvariants policy state.scheduler := by
  refine ⟨h.queue.disjoint, h.queue.successors, h.queue.bound, ?_⟩
  have hsize : state.scheduler.queue.inFlight.size = (heldKeys state).toFinset.card :=
    set_size_eq_card fun key => by rw [h.inFlight, List.mem_toFinset]
  have hlength : (heldKeys state).length = state.held.length := List.length_map _
  rw [hsize, List.toFinset_card_of_nodup h.once, hlength]
  exact h.permits

section

variable (scheduler : RequestScheduler)

theorem schedule_budget (request : ScheduledReadRequest) (nowMs : ℕ) :
    (scheduler.schedule request nowMs).2.budget = scheduler.budget := by
  unfold RequestScheduler.schedule
  split <;> rfl

theorem release_budget (dispatch : ScheduledDispatch) :
    (scheduler.release dispatch).2.2.budget = scheduler.budget := by
  unfold RequestScheduler.release
  split <;> rfl

theorem scheduleRetry_budget (request : ScheduledReadRequest) (failure : ReadFailure)
    (nowMs scheduleNowMs : ℕ) :
    (scheduler.scheduleRetry request failure nowMs scheduleNowMs).2.budget = scheduler.budget := by
  unfold RequestScheduler.scheduleRetry
  dsimp only
  split
  · rfl
  split
  · rfl
  split
  · rfl
  split
  · rfl
  rename_i notBefore hnotBefore
  split
  · rfl
  have hscheduled := schedule_budget scheduler
    { request with attempt := request.attempt + 1, notBefore } scheduleNowMs
  split <;> rename_i hresult <;> rw [hresult] at hscheduled <;> exact hscheduled

theorem finish_budget (dispatch : ScheduledDispatch) (result : Except ReadFailure ReadResponse)
    (nowMs scheduleNowMs : ℕ) :
    (scheduler.finish dispatch result nowMs scheduleNowMs).2.budget = scheduler.budget := by
  have hreleased := release_budget scheduler dispatch
  unfold RequestScheduler.finish
  dsimp only
  split
  · rename_i hresult
    rw [hresult] at hreleased
    exact hreleased
  · rename_i released hresult
    rw [hresult] at hreleased
    split
    · split
      · exact hreleased
      · split <;> exact hreleased
    · exact hreleased
    · exact hreleased
    · exact (scheduleRetry_budget released dispatch.request _ nowMs scheduleNowMs).trans hreleased

end

theorem uncharged_of_not_dispatched [SliceSort] [LawfulSliceSort] (h : RunSound policy state)
    {call : SchedulerCall} (hheld : (state.after call).held.length ≤ state.held.length) :
    Uncharged state.scheduler (state.after call).scheduler := by
  cases call with
  | schedule request nowMs => exact .inl (schedule_budget state.scheduler request nowMs)
  | beginNext nowMs =>
    unfold SchedulerRun.after at hheld ⊢
    dsimp only at hheld ⊢
    rcases beginNext_cases h.queue nowMs with
      ⟨request, next, hbegin, -⟩ | ⟨next, hbegin, huncharged, -⟩
    · rw [hbegin] at hheld
      simp at hheld
    · rw [hbegin]
      exact huncharged
  | finish index result nowMs scheduleNowMs =>
    unfold SchedulerRun.after
    dsimp only
    split
    · exact .inl rfl
    · rename_i dispatch hdispatch
      exact .inl (finish_budget state.scheduler dispatch result nowMs scheduleNowMs)
  | drop index =>
    unfold SchedulerRun.after
    dsimp only
    split
    · exact .inl rfl
    · rename_i dispatch hdispatch
      exact .inl (release_budget state.scheduler dispatch)

/-- **The queue of the scheduler** in every run of calls: the collections stay disjoint and within
their bounds, and every dispatch is of a request that has not expired, is due and is charged once;
no other call charges the budget. -/
theorem scheduler_queue_invariants [SliceSort] [LawfulSliceSort] {policy : ReadApiPolicy}
    {retryPolicy : RetryPolicy} {startMs : ℕ} {scheduler : RequestScheduler}
    (hnew : RequestScheduler.new policy retryPolicy startMs = .ok scheduler)
    (calls : List SchedulerCall) :
    QueueInvariants policy (run SchedulerRun.after ⟨scheduler, []⟩ calls).scheduler ∧
      (∀ nowMs dispatch next,
        (run SchedulerRun.after ⟨scheduler, []⟩ calls).scheduler.beginNext nowMs =
          (some dispatch, next) →
        DispatchedOnce (run SchedulerRun.after ⟨scheduler, []⟩ calls).scheduler next
          dispatch.request nowMs) ∧
      ∀ call : SchedulerCall,
        ((run SchedulerRun.after ⟨scheduler, []⟩ calls).after call).held.length ≤
          (run SchedulerRun.after ⟨scheduler, []⟩ calls).held.length →
        Uncharged (run SchedulerRun.after ⟨scheduler, []⟩ calls).scheduler
          ((run SchedulerRun.after ⟨scheduler, []⟩ calls).after call).scheduler := by
  have hsound := run_invariant (I := RunSound policy)
    (fun state call hstate => after_runSound hstate call) (runSound_new hnew) calls
  refine ⟨hsound.invariants, ?_, fun call hheld => uncharged_of_not_dispatched hsound hheld⟩
  intro nowMs dispatch next hbegin
  rcases beginNext_cases hsound.queue nowMs with
    ⟨request, after, hdispatched, hdispatch⟩ | ⟨after, hnone, -⟩
  · rw [hbegin] at hdispatched
    cases hdispatched
    exact hdispatch.once
  · rw [hbegin] at hnone
    cases hnone

def sampleRetryPolicy : RetryPolicy where
  initialBackoffMs := 100
  maximumBackoffMs := 1000
  maximumAttempts := 3
  maximumLifetimeMs := 5000
  jitterBps := 1000
  deterministicSeed := 7

def sampleRequest (createdAt : ℕ) : ScheduledReadRequest where
  key := ⟨.market, .marketMids⟩
  kind := .marketMids
  candidateId := none
  sourceTier := none
  weight := 2
  priority := .normal
  budgetClass := .normal
  createdAt
  notBefore := createdAt
  expiresAt := createdAt + 500
  attempt := 0

def sampleScheduler : RequestScheduler where
  policy := samplePolicy
  budget := {
    totalCapacityUnits := samplePolicy.totalWeightPerWindow * samplePolicy.windowMs
    normalCapacityUnits := samplePolicy.normalWeight * samplePolicy.windowMs
    sourceCapacityUnits := samplePolicy.sourcePollingWeightPerWindow * samplePolicy.windowMs
    enrichmentCapacityUnits := (samplePolicy.normalWeight -
      samplePolicy.sourcePollingWeightPerWindow) * samplePolicy.windowMs
    totalUnits := samplePolicy.totalWeightPerWindow * samplePolicy.windowMs
    normalUnits := samplePolicy.normalWeight * samplePolicy.windowMs
    sourceUnits := samplePolicy.sourcePollingWeightPerWindow * samplePolicy.windowMs
    enrichmentUnits := (samplePolicy.normalWeight -
      samplePolicy.sourcePollingWeightPerWindow) * samplePolicy.windowMs
    totalRefillPerMs := samplePolicy.totalWeightPerWindow
    normalRefillPerMs := samplePolicy.normalWeight
    sourceRefillPerMs := samplePolicy.sourcePollingWeightPerWindow
    enrichmentRefillPerMs := samplePolicy.normalWeight - samplePolicy.sourcePollingWeightPerWindow
    windowMs := samplePolicy.windowMs
    lastRefillMs := 0
    accountingWindowStartedMs := 0
    totalConsumedInWindow := 0
    normalConsumedInWindow := 0
    sourceConsumedInWindow := 0
    enrichmentConsumedInWindow := 0 }
  availablePermits := samplePolicy.maxConcurrency
  queue := QueueState.empty
  retryPolicy := sampleRetryPolicy

theorem sampleScheduler_new :
    RequestScheduler.new samplePolicy sampleRetryPolicy 0 = .ok sampleScheduler := by
  unfold RequestScheduler.new WeightedTokenBucket.new
  rw [samplePolicy_valid]
  rfl

theorem lawful_mergeSort :
    @LawfulSliceSort ⟨fun compare items => items.mergeSort fun a b => compare a b != .gt⟩ :=
  let _ : SliceSort := ⟨fun compare items => items.mergeSort fun a b => compare a b != .gt⟩
  ⟨fun _ items => List.mergeSort_perm items _, fun _ _ _ => rfl⟩

theorem scheduler_queue_invariants_successor :
    ∃ (_ : SliceSort) (scheduler : RequestScheduler),
      RequestScheduler.new samplePolicy sampleRetryPolicy 0 = .ok scheduler ∧
        QueueInvariants samplePolicy (run SchedulerRun.after ⟨scheduler, []⟩
          [.schedule (sampleRequest 0) 0, .beginNext 1, .schedule (sampleRequest 2) 2,
            .drop 0]).scheduler := by
  let sort : SliceSort := ⟨fun compare items => items.mergeSort fun a b => compare a b != .gt⟩
  have lawful : LawfulSliceSort := lawful_mergeSort
  exact ⟨sort, sampleScheduler, sampleScheduler_new,
    (scheduler_queue_invariants sampleScheduler_new _).1⟩

/-- Every request that waits has a property. -/
structure AllQueued (P : ScheduledReadRequest → Prop) (queue : QueueState) : Prop where
  pending : ∀ (key : RequestKey) (request : ScheduledReadRequest),
    queue.pending[key]? = some request → P request
  successors : ∀ (key : RequestKey) (request : ScheduledReadRequest),
    queue.successors[key]? = some request → P request

def KeptByRetries (P : ScheduledReadRequest → Prop) : Prop :=
  ∀ (request : ScheduledReadRequest) (attempt notBefore : ℕ), P request →
    P { request with attempt, notBefore }

section

variable {P : ScheduledReadRequest → Prop} {queue next : QueueState}

theorem allQueued_empty : AllQueued P QueueState.empty := by
  refine ⟨fun key request hget => ?_, fun key request hget => ?_⟩
  · simp [QueueState.empty] at hget
  · simp [QueueState.empty] at hget

theorem AllQueued.shrink (h : AllQueued P queue) (hshrinks : Shrinks queue next) :
    AllQueued P next :=
  ⟨fun key request hget => h.pending key request (hshrinks.pending key request hget),
    fun key request hget => h.successors key request (hshrinks.successors key request hget)⟩

theorem forall_insert {requests : ExtTreeMap RequestKey ScheduledReadRequest}
    (h : ∀ (key : RequestKey) (request : ScheduledReadRequest),
      requests[key]? = some request → P request)
    {added : ScheduledReadRequest} (hadded : P added) (place key : RequestKey)
    (request : ScheduledReadRequest) (hget : (requests.insert place added)[key]? = some request) :
    P request := by
  rw [getElem?_insert_eq] at hget
  split at hget
  · cases hget
    exact hadded
  · exact h key request hget

theorem AllQueued.enterQueue {capacity : ℕ} (hsound : QueueSound capacity queue) (h : AllQueued P queue)
    {request : ScheduledReadRequest} (hrequest : P request) :
    AllQueued P (RequestScheduler.enterQueue queue capacity request).2 := by
  have hroom := (makeQueueRoom_spec hsound request).1
  unfold RequestScheduler.enterQueue
  split
  · split
    · split
      · exact h
      · exact ⟨h.pending, forall_insert h.successors hrequest request.key⟩
    · split
      · rename_i room hmade
        rw [hmade] at hroom
        exact h.shrink hroom
      · rename_i room hmade
        rw [hmade] at hroom
        have hkept := h.shrink hroom
        exact ⟨hkept.pending, forall_insert hkept.successors hrequest request.key⟩
  · split
    · split
      · exact h
      · exact ⟨forall_insert h.pending hrequest request.key, h.successors⟩
    · split
      · rename_i room hmade
        rw [hmade] at hroom
        exact h.shrink hroom
      · rename_i room hmade
        rw [hmade] at hroom
        have hkept := h.shrink hroom
        exact ⟨forall_insert hkept.pending hrequest request.key, hkept.successors⟩

theorem AllQueued.release (h : AllQueued P queue) (key : RequestKey) :
    AllQueued P (queue.release key).2 := by
  unfold QueueState.release
  dsimp only
  split
  · rename_i successor hsuccessor
    exact ⟨forall_insert h.pending (h.successors key successor hsuccessor) key,
      fun other request hget => h.successors other request (getElem?_erase_imp hget)⟩
  · exact ⟨h.pending, h.successors⟩

end

variable {P : ScheduledReadRequest → Prop} {policy : ReadApiPolicy} {state : SchedulerRun}

theorem schedule_allQueued (hsound : RunSound policy state)
    (h : AllQueued P state.scheduler.queue) {request : ScheduledReadRequest} (hrequest : P request)
    (nowMs : ℕ) :
    AllQueued P (state.scheduler.schedule request nowMs).2.queue := by
  unfold RequestScheduler.schedule
  split
  · exact h
  · have hpurged := purgeExpired_shrinks state.scheduler.queue nowMs
    have hwindow := startWindow_shrinks (state.scheduler.queue.purgeExpired nowMs)
      state.scheduler.policy.windowMs nowMs
    have hqueue := hsound.queue
    rw [← hsound.samePolicy] at hqueue
    exact ((h.shrink hpurged).shrink hwindow).enterQueue (hwindow.sound (hpurged.sound hqueue)) hrequest

theorem scheduleRetry_allQueued (hsound : RunSound policy state) (hretry : KeptByRetries P)
    (h : AllQueued P state.scheduler.queue) {request : ScheduledReadRequest} (hrequest : P request)
    (failure : ReadFailure) (nowMs scheduleNowMs : ℕ) :
    AllQueued P
      (state.scheduler.scheduleRetry request failure nowMs scheduleNowMs).2.queue := by
  unfold RequestScheduler.scheduleRetry
  dsimp only
  split
  · exact h
  split
  · exact h
  split
  · exact h
  split
  · exact h
  rename_i notBefore hnotBefore
  split
  · exact h
  have hscheduled := schedule_allQueued hsound h
    (hretry request (request.attempt + 1) notBefore hrequest) scheduleNowMs
  split <;> rename_i hresult <;> rw [hresult] at hscheduled <;> exact hscheduled

theorem release_allQueued (h : AllQueued P state.scheduler.queue) (dispatch : ScheduledDispatch) :
    AllQueued P (state.scheduler.release dispatch).2.2.queue := by
  unfold RequestScheduler.release
  split
  · exact h
  · exact h.release dispatch.request.key

theorem finish_allQueued (hsound : RunSound policy state) (hretry : KeptByRetries P)
    (h : AllQueued P state.scheduler.queue) {index : ℕ} {dispatch : ScheduledDispatch}
    (hheld : state.held[index]? = some dispatch) (hrequest : P dispatch.request) (result : Except ReadFailure ReadResponse)
    (nowMs scheduleNowMs : ℕ) :
    AllQueued P (state.scheduler.finish dispatch result nowMs scheduleNowMs).2.queue := by
  have hreleased := release_allQueued h dispatch
  have hheldSound := release_held hsound hheld
  unfold RequestScheduler.finish
  dsimp only
  split
  · rename_i hresult
    rw [hresult] at hreleased
    exact hreleased
  · rename_i hresult
    rw [hresult] at hreleased hheldSound
    split
    · split
      · exact hreleased
      · split <;> exact hreleased
    · exact hreleased
    · exact hreleased
    · exact scheduleRetry_allQueued hheldSound hretry hreleased hrequest _ nowMs scheduleNowMs

variable [SliceSort] [LawfulSliceSort]

theorem beginNext_allQueued (hsound : RunSound policy state)
    (h : AllQueued P state.scheduler.queue) (nowMs : ℕ) :
    AllQueued P (state.scheduler.beginNext nowMs).2.queue ∧
      ∀ dispatch, (state.scheduler.beginNext nowMs).1 = some dispatch → P dispatch.request := by
  have hpurged := h.shrink (purgeExpired_shrinks state.scheduler.queue nowMs)
  rcases beginNext_cases hsound.queue nowMs with
    ⟨request, next, hbegin, hdispatch⟩ | ⟨next, hbegin, -, hshrinks, -⟩
  · rw [hbegin]
    refine ⟨⟨fun key other hget => ?_, ?_⟩, ?_⟩
    · rw [hdispatch.pending] at hget
      exact hpurged.pending key other (getElem?_erase_imp hget)
    · rw [hdispatch.successors]
      exact hpurged.successors
    · rintro dispatch hsame
      cases hsame
      exact hpurged.pending request.key request hdispatch.waited
  · rw [hbegin]
    refine ⟨h.shrink hshrinks, fun dispatch hsame => ?_⟩
    cases hsame

end CopyTrade.Analysis
