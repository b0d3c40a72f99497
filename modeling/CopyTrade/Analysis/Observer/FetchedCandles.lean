import CopyTrade.Analysis.Scheduling.QueueInvariants
import CopyTrade.Model.Observer.SourceReads

/-!
# What becomes of fetched candles

The candles of a batch travel with the response of the source state they were fetched for, which
waits in a queue until the loop finishes its task.  They are handed to the engine exactly when the
scheduler finds that response fresh; their buckets stay marked whatever it finds.
-/

namespace CopyTrade.Analysis

open Foundation Model
open Std (ExtTreeMap)

variable {D : Type}

theorem mem_set_of_ne {α : Type} {items : List α} {index : ℕ} {a b c : α}
    (hget : items[index]? = some a) (hmem : b ∈ items) (hne : b ≠ a) : b ∈ items.set index c := by
  obtain ⟨other, hother⟩ := List.getElem?_of_mem hmem
  refine List.mem_of_getElem? (i := other) ?_
  rw [List.getElem?_set_ne, hother]
  rintro rfl
  rw [hget] at hother
  exact hne (Option.some.inj hother).symm

/-- Where two elements that satisfy a predicate never stand in one list, nothing that satisfies it
is left when one is removed. -/
theorem forall_mem_eraseP {α : Type} {R : α → α → Prop} {items : List α} {p : α → Bool}
    (h : items.Pairwise R) (hexcludes : ∀ a b, p a = true → p b = true → ¬ R a b) :
    ∀ a ∈ items.eraseP p, p a = false := by
  induction items with
  | nil => exact fun a hmem => absurd hmem List.not_mem_nil
  | cons first rest ih =>
    obtain ⟨hfirst, hrest⟩ := List.pairwise_cons.mp h
    intro a hmem
    by_cases hp : p first = true
    · rw [List.eraseP_cons_of_pos hp] at hmem
      by_contra hpa
      exact hexcludes first a hp (Bool.not_eq_false _ ▸ hpa) (hfirst a hmem)
    · rw [List.eraseP_cons_of_neg hp] at hmem
      rcases List.mem_cons.mp hmem with rfl | hlater
      · exact Bool.eq_false_of_not_eq_true hp
      · exact ih hrest a hlater

def schedulerRun (state : SourceReads D) : SchedulerRun :=
  ⟨state.scheduler, state.tasks.map ReadTask.dispatch⟩

def Carries (response : AcceptedPublicResponse D) (task : ReadTask D) : Prop :=
  response.answers task.dispatch.request = true ∧
    ∃ result buckets, task.progress = .ended (.ok result) buckets ∧
      response.closedCandles = batchCandles buckets

def HasResponse (task : ReadTask D) : Prop :=
  ∃ result buckets, task.progress = .ended (.ok result) buckets

def DifferentRequests (left right : AcceptedPublicResponse D) : Prop :=
  ¬ (left.requestKind = right.requestKind ∧ left.subject = right.subject)

/-- What holds of the loop and the transport in every run: every task that has ended with a
response has it among those that wait, and every response that waits belongs to one task. -/
structure ReadsSound (policy : ReadApiPolicy) (state : SourceReads D) : Prop where
  scheduler : RunSound policy (schedulerRun state)
  queued : AllQueued (fun request => request.isEnqueued = true) state.scheduler.queue
  enqueued : ∀ task ∈ state.tasks, task.dispatch.request.isEnqueued = true
  waits : ∀ task ∈ state.tasks, HasResponse task → ∃ response ∈ state.accepted, Carries response task
  sent : ∀ response ∈ state.accepted, ∃ task ∈ state.tasks, Carries response task
  once : state.accepted.Pairwise DifferentRequests

theorem key_eq_of_text {left right : ScheduledReadRequest} (hleft : left.isEnqueued = true)
    (hright : right.isEnqueued = true) (hkind : left.kind = right.kind)
    (htext : left.key.subject.text = right.key.subject.text) : left.key = right.key := by
  obtain ⟨⟨leftSubject, leftKind⟩, kind, _⟩ := left
  obtain ⟨⟨rightSubject, rightKind⟩, kind', _⟩ := right
  unfold ScheduledReadRequest.isEnqueued at hleft hright
  dsimp only at hleft hright hkind htext
  subst hkind
  rw [Bool.and_eq_true, beq_iff_eq] at hleft hright
  obtain ⟨rfl, hleft⟩ := hleft
  obtain ⟨rfl, hright⟩ := hright
  have hsubject : leftSubject = rightSubject := by
    cases rightKind <;> cases leftSubject <;> cases rightSubject <;>
      first
      | exact (Bool.false_ne_true hleft).elim
      | exact (Bool.false_ne_true hright).elim
      | rfl
      | exact congrArg RequestSubject.candidate htext
      | exact congrArg RequestSubject.asset htext
  exact congrArg (RequestKey.mk · rightKind) hsubject

theorem answers_iff {response : AcceptedPublicResponse D} {request : ScheduledReadRequest} :
    response.answers request = true ↔ response.requestKind = request.kind ∧
      response.subject = request.key.subject.text ∧
      response.requestedAtMono = request.createdAt := by
  unfold AcceptedPublicResponse.answers
  rw [Bool.and_eq_true, Bool.and_eq_true, beq_iff_eq, beq_iff_eq, beq_iff_eq, and_assoc]

section

variable {policy : ReadApiPolicy} {state : SourceReads D}

theorem ReadsSound.keys (h : ReadsSound policy state) :
    (state.tasks.map fun task => task.dispatch.request.key).Nodup := by
  have honce := h.scheduler.once
  unfold heldKeys schedulerRun at honce
  rw [List.map_map] at honce
  exact honce

theorem ReadsSound.task_eq (h : ReadsSound policy state) {left right : ReadTask D}
    (hleft : left ∈ state.tasks) (hright : right ∈ state.tasks)
    (hkind : left.dispatch.request.kind = right.dispatch.request.kind)
    (htext : left.dispatch.request.key.subject.text = right.dispatch.request.key.subject.text) :
    left = right :=
  List.inj_on_of_nodup_map h.keys hleft hright
    (key_eq_of_text (h.enqueued left hleft) (h.enqueued right hright) hkind htext)

theorem ReadsSound.task_eq_of_answers (h : ReadsSound policy state) {left right : ReadTask D}
    {response : AcceptedPublicResponse D} (hleft : left ∈ state.tasks) (hright : right ∈ state.tasks)
    (hanswers : response.answers left.dispatch.request = true)
    (hanswers' : response.answers right.dispatch.request = true) : left = right := by
  obtain ⟨hkind, htext, -⟩ := answers_iff.mp hanswers
  obtain ⟨hkind', htext', -⟩ := answers_iff.mp hanswers'
  exact h.task_eq hleft hright (hkind.symm.trans hkind') (htext.symm.trans htext')

theorem ReadsSound.taken_carried (h : ReadsSound policy state) {task : ReadTask D}
    (htask : task ∈ state.tasks) {response : AcceptedPublicResponse D}
    (htaken : state.accepted.find? (fun response => response.answers task.dispatch.request) =
      some response) : Carries response task := by
  have hanswers := List.find?_some htaken
  obtain ⟨sender, hsender, hcarries⟩ := h.sent response (List.mem_of_find?_eq_some htaken)
  rwa [h.task_eq_of_answers htask hsender hanswers hcarries.1]

theorem ReadsSound.taken_of_responded (h : ReadsSound policy state) {task : ReadTask D}
    (htask : task ∈ state.tasks) (hresponded : HasResponse task) :
    ∃ response, state.accepted.find? (fun response => response.answers task.dispatch.request) =
      some response ∧ Carries response task := by
  obtain ⟨response, hmem, hcarries⟩ := h.waits task htask hresponded
  cases htaken : state.accepted.find? fun response => response.answers task.dispatch.request with
  | none =>
    exact absurd hcarries.1 (List.find?_eq_none.mp htaken response hmem)
  | some taken => exact ⟨taken, rfl, h.taken_carried htask htaken⟩

end

section

variable {policy : ReadApiPolicy} {state : SourceReads D}

theorem not_responded_of_progress {task : ReadTask D} {progress : TaskProgress D}
    (hprogress : task.progress = progress)
    (hunanswered : ∀ result buckets, progress ≠ .ended (.ok result) buckets) : ¬ HasResponse task := by
  rintro ⟨result, buckets, hended⟩
  exact hunanswered result buckets (hprogress.symm.trans hended)

theorem Carries.responded {response : AcceptedPublicResponse D} {task : ReadTask D}
    (h : Carries response task) : HasResponse task := by
  obtain ⟨-, result, buckets, hended, -⟩ := h
  exact ⟨result, buckets, hended⟩

theorem dispatches_set {tasks : List (ReadTask D)} {index : ℕ} {task : ReadTask D}
    (htask : tasks[index]? = some task) (progress : TaskProgress D) :
    (tasks.set index { task with progress }).map ReadTask.dispatch =
      tasks.map ReadTask.dispatch := by
  rw [List.map_set]
  refine List.ext_getElem? fun other => ?_
  rw [List.getElem?_set]
  split
  · rename_i hsame
    subst hsame
    rw [List.getElem?_map, htask]
    obtain ⟨hlt, -⟩ := List.getElem?_eq_some_iff.mp htask
    rw [List.length_map, if_pos hlt]
    rfl
  · rfl

theorem ReadsSound.setProgress (h : ReadsSound policy state) {index : ℕ} {task : ReadTask D}
    (htask : state.tasks[index]? = some task) (hbefore : ¬ HasResponse task)
    {progress : TaskProgress D}
    (hafter : ∀ result buckets, progress ≠ .ended (.ok result) buckets) :
    ReadsSound policy (state.setProgress index task progress) := by
  have hrun : schedulerRun (state.setProgress index task progress) = schedulerRun state := by
    unfold schedulerRun SourceReads.setProgress
    rw [dispatches_set htask]
  refine ⟨hrun ▸ h.scheduler, h.queued, ?_, ?_, ?_, h.once⟩
  · intro other hmem
    rcases List.mem_or_eq_of_mem_set hmem with hbefore | rfl
    · exact h.enqueued other hbefore
    · exact h.enqueued task (List.mem_of_getElem? htask)
  · intro other hmem hresponded
    rcases List.mem_or_eq_of_mem_set hmem with hbefore | rfl
    · exact h.waits other hbefore hresponded
    · exact absurd hresponded (not_responded_of_progress rfl hafter)
  · intro response hmem
    obtain ⟨sender, hsender, hcarries⟩ := h.sent response hmem
    refine ⟨sender, mem_set_of_ne htask hsender ?_, hcarries⟩
    rintro rfl
    exact hbefore hcarries.responded

theorem ReadsSound.withCandleFetch (h : ReadsSound policy state)
    (candleFetch : TechnicalCandleFetchState) : ReadsSound policy { state with candleFetch } :=
  ⟨h.scheduler, h.queued, h.enqueued, h.waits, h.sent, h.once⟩

theorem ReadsSound.respond (h : ReadsSound policy state) {index : ℕ} {task : ReadTask D}
    (htask : state.tasks[index]? = some task) (hbefore : ¬ HasResponse task) (validity : Option ℕ)
    (receivedAtMono : ℕ) (buckets : List (FetchedBucket D)) :
    ReadsSound policy (state.respond index task validity receivedAtMono buckets) := by
  unfold SourceReads.respond
  split
  · exact h.setProgress htask hbefore nofun
  rename_i validUntilMono hvalid
  have hmem := List.mem_of_getElem? htask
  refine ⟨?_, h.queued, ?_, ?_, ?_, ?_⟩
  · show RunSound policy ⟨state.scheduler, _⟩
    rw [show (SourceReads.setProgress state index task _).tasks = state.tasks.set index _ from rfl,
      dispatches_set htask]
    exact h.scheduler
  · intro other hother
    rcases List.mem_or_eq_of_mem_set hother with hbefore | rfl
    · exact h.enqueued other hbefore
    · exact h.enqueued task hmem
  · intro other hother hresponded
    rcases List.mem_or_eq_of_mem_set hother with hthere | rfl
    · obtain ⟨response, hresponse, hcarries⟩ := h.waits other hthere hresponded
      exact ⟨response, List.mem_append_left _ hresponse, hcarries⟩
    · exact ⟨_, List.mem_append_right _ (List.mem_singleton_self _),
        answers_iff.mpr ⟨rfl, rfl, rfl⟩, _, buckets, rfl, rfl⟩
  · intro response hresponse
    rcases List.mem_append.mp hresponse with hwaiting | hnew
    · obtain ⟨sender, hsender, hcarries⟩ := h.sent response hwaiting
      refine ⟨sender, mem_set_of_ne htask hsender ?_, hcarries⟩
      rintro rfl
      exact hbefore hcarries.responded
    · rw [List.mem_singleton.mp hnew]
      obtain ⟨hlt, -⟩ := List.getElem?_eq_some_iff.mp htask
      exact ⟨_, List.mem_set hlt _, answers_iff.mpr ⟨rfl, rfl, rfl⟩, _, buckets, rfl, rfl⟩
  · refine List.pairwise_append.mpr ⟨h.once, List.pairwise_singleton _ _, ?_⟩
    intro response hwaiting added hadded
    rw [List.mem_singleton.mp hadded]
    rintro ⟨hkind, hsubject⟩
    obtain ⟨sender, hsender, hcarries⟩ := h.sent response hwaiting
    obtain ⟨hkind', hsubject', -⟩ := answers_iff.mp hcarries.1
    rw [h.task_eq hsender hmem (hkind'.symm.trans hkind) (hsubject'.symm.trans hsubject)]
      at hcarries
    exact hbefore hcarries.responded

theorem ReadsSound.finish (h : ReadsSound policy state) {index : ℕ} {task : ReadTask D}
    (htask : state.tasks[index]? = some task) (result : Except ReadFailure ReadResponse)
    (nowMs scheduleNowMs : ℕ) :
    ReadsSound policy (state.finish index task result nowMs scheduleNowMs) := by
  have hmem := List.mem_of_getElem? htask
  have hheld : (schedulerRun state).held[index]? = some task.dispatch := by
    show (state.tasks.map ReadTask.dispatch)[index]? = _
    rw [List.getElem?_map, htask]
    rfl
  have hnodup : state.tasks.Nodup := List.Nodup.of_map _ h.keys
  refine ⟨?_, ?_, ?_, ?_, ?_, ?_⟩
  · have hfinished := finish_sound h.scheduler hheld result nowMs scheduleNowMs
    show RunSound policy ⟨_, (state.tasks.eraseIdx index).map ReadTask.dispatch⟩
    rw [← List.eraseIdx_map]
    exact hfinished
  · exact finish_allQueued h.scheduler (fun _ _ _ hkept => hkept) h.queued hheld
      (h.enqueued task hmem) result nowMs scheduleNowMs
  · exact fun other hother => h.enqueued other (List.mem_of_mem_eraseIdx hother)
  · intro other hother hresponded
    obtain ⟨hne, hthere⟩ := (mem_eraseIdx_of_nodup hnodup htask).mp hother
    obtain ⟨response, hresponse, hcarries⟩ := h.waits other hthere hresponded
    refine ⟨response, (List.mem_eraseP_of_neg ?_).mpr hresponse, hcarries⟩
    exact fun hanswers => hne (h.task_eq_of_answers hmem hthere hanswers hcarries.1)
  · intro response hresponse
    obtain ⟨sender, hsender, hcarries⟩ := h.sent response (List.mem_of_mem_eraseP hresponse)
    refine ⟨sender, (mem_eraseIdx_of_nodup hnodup htask).mpr ⟨fun hsame => ?_, hsender⟩, hcarries⟩
    have hexcludes : ∀ left right : AcceptedPublicResponse D,
        left.answers task.dispatch.request = true → right.answers task.dispatch.request = true →
          ¬ DifferentRequests left right := by
      intro left right hleft hright hdifferent
      obtain ⟨hkind, hsubject, -⟩ := answers_iff.mp hleft
      obtain ⟨hkind', hsubject', -⟩ := answers_iff.mp hright
      exact hdifferent ⟨hkind.trans hkind'.symm, hsubject.trans hsubject'.symm⟩
    have hother := forall_mem_eraseP h.once hexcludes response hresponse
    rw [hsame, hcarries.1] at hother
    cases hother
  · exact h.once.sublist List.eraseP_sublist

theorem readsSound_start {retryPolicy : RetryPolicy} {nowMs : ℕ} {scheduler : RequestScheduler}
    (h : RequestScheduler.new policy retryPolicy nowMs = .ok scheduler) :
    ReadsSound policy (SourceReads.start scheduler : SourceReads D) := by
  have hqueue : scheduler.queue = QueueState.empty := by
    obtain ⟨_, -, h⟩ := of_bind h
    obtain ⟨_, -, h⟩ := of_bind h
    obtain ⟨budget, -, h⟩ := of_bind h
    cases h
    rfl
  refine ⟨runSound_new h, ?_, fun task hmem => absurd hmem List.not_mem_nil,
    fun task hmem => absurd hmem List.not_mem_nil,
    fun response hmem => absurd hmem List.not_mem_nil, List.Pairwise.nil⟩
  show AllQueued _ scheduler.queue
  rw [hqueue]
  exact allQueued_empty

variable [SliceSort] [LawfulSliceSort]

theorem ReadsSound.beginNext (h : ReadsSound policy state) (nowMs : ℕ)
    (transport : PublicTransportPolicy) :
    ReadsSound policy (state.step transport (.beginNext nowMs)) := by
  have hbegun := beginNext_sound h.scheduler nowMs
  have hqueued := beginNext_allQueued h.scheduler h.queued nowMs
  unfold SchedulerRun.after schedulerRun at hbegun
  unfold schedulerRun at hqueued
  unfold SourceReads.step
  refine ⟨?_, hqueued.1, ?_, ?_, ?_, h.once⟩
  · unfold schedulerRun
    rw [List.map_append, List.map_map]
    rw [show ReadTask.dispatch ∘ (fun dispatch => (⟨dispatch, .reading⟩ : ReadTask D)) = id from rfl,
      List.map_id]
    exact hbegun
  · intro task hmem
    rcases List.mem_append.mp hmem with hbefore | hnew
    · exact h.enqueued task hbefore
    · obtain ⟨dispatch, hdispatch, rfl⟩ := List.mem_map.mp hnew
      exact hqueued.2 dispatch (Option.mem_toList.mp hdispatch)
  · intro task hmem hresponded
    rcases List.mem_append.mp hmem with hbefore | hnew
    · exact h.waits task hbefore hresponded
    · obtain ⟨dispatch, -, rfl⟩ := List.mem_map.mp hnew
      exact absurd hresponded (not_responded_of_progress rfl nofun)
  · intro response hresponse
    obtain ⟨sender, hsender, hcarries⟩ := h.sent response hresponse
    exact ⟨sender, List.mem_append_left _ hsender, hcarries⟩

theorem readsSound_step (transport : PublicTransportPolicy) (h : ReadsSound policy state)
    (event : ReadEvent D) : ReadsSound policy (state.step transport event) := by
  cases event with
  | schedule request nowMs =>
    unfold SourceReads.step
    dsimp only
    split
    · rename_i henqueued
      exact ⟨schedule_sound h.scheduler request nowMs,
        schedule_allQueued h.scheduler h.queued henqueued nowMs, h.enqueued, h.waits, h.sent,
        h.once⟩
    · exact h
  | beginNext nowMs => exact h.beginNext nowMs transport
  | readSource index source ageReadMs fetchMs =>
    unfold SourceReads.step
    dsimp only
    split
    · rename_i task htask
      split
      · rename_i hprogress hkind
        have hbefore := not_responded_of_progress hprogress nofun
        unfold SourceReads.readSource
        split
        · exact h.setProgress htask hbefore nofun
        · dsimp only
          split
          · exact h.setProgress htask hbefore nofun
          · have hnext : ∀ batch, ReadsSound policy
                (state.setProgress index task (.fetching batch)) :=
              fun batch => h.setProgress htask hbefore nofun
            exact (hnext _).withCandleFetch _
      · exact h
    · exact h
  | answerCandles index reply =>
    unfold SourceReads.step
    dsimp only
    split
    · rename_i task htask
      split
      · rename_i batch hprogress
        have hnext : ∀ buckets, ReadsSound policy
            (state.setProgress index task (.fetched buckets)) :=
          fun buckets => h.setProgress htask (not_responded_of_progress hprogress nofun) nofun
        exact (hnext _).withCandleFetch _
      · exact h
    · exact h
  | respondSource index receivedAtMono =>
    unfold SourceReads.step
    dsimp only
    split
    · rename_i task htask
      split
      · rename_i buckets hprogress
        exact h.respond htask (not_responded_of_progress hprogress nofun) _ _ _
      · exact h
    · exact h
  | respondMarket index technicalAssets receivedAtMono =>
    unfold SourceReads.step
    dsimp only
    split
    · rename_i task htask
      split
      · exact h
      · rename_i hprogress hkind
        exact (h.respond htask (not_responded_of_progress hprogress nofun) _ _ _).withCandleFetch _
      · exact h
    · exact h
  | fail index failure =>
    unfold SourceReads.step
    dsimp only
    split
    · rename_i task htask
      split
      · rename_i hprogress
        exact h.setProgress htask (not_responded_of_progress hprogress nofun) nofun
      · exact h
    · exact h
  | finish index nowMs scheduleNowMs =>
    unfold SourceReads.step
    dsimp only
    split
    · rename_i task htask
      split
      · exact h.finish htask _ nowMs scheduleNowMs
      · exact h
    · exact h

end

/-- The scheduler finds a response to a request fresh: no newer request of the key waits, the
response is valid and neither it nor the request has expired. -/
structure FoundFresh (scheduler : RequestScheduler) (request : ScheduledReadRequest)
    (response : ReadResponse) (nowMs : ℕ) : Prop where
  alone : scheduler.queue.successors[request.key]? = none
  payloadValid : response.payloadValid = true
  received : request.createdAt ≤ response.receivedAt ∧ response.receivedAt ≤ response.validUntil
  inTime : nowMs ≤ response.validUntil ∧ nowMs < request.expiresAt

theorem release_successor {scheduler : RequestScheduler} {dispatch : ScheduledDispatch}
    (hactive : dispatch.active = true) :
    (scheduler.release dispatch).1 = (scheduler.queue.successors[dispatch.request.key]?).isSome := by
  have hreleased : (scheduler.release dispatch).1 =
      (scheduler.queue.release dispatch.request.key).1 := by
    unfold RequestScheduler.release
    rw [hactive]
    rfl
  rw [hreleased]
  unfold QueueState.release
  dsimp only
  split <;> rename_i hget <;> rw [hget] <;> rfl

theorem scheduleRetry_ne_fresh (scheduler : RequestScheduler) (request : ScheduledReadRequest)
    (failure : ReadFailure) (nowMs scheduleNowMs : ℕ) :
    (scheduler.scheduleRetry request failure nowMs scheduleNowMs).1 ≠ .completedFresh := by
  unfold RequestScheduler.scheduleRetry
  dsimp only
  split
  · exact nofun
  split
  · exact nofun
  split
  · split <;> exact nofun
  split
  · exact nofun
  split
  · exact nofun
  split <;> exact nofun

theorem finish_completedFresh_iff {scheduler : RequestScheduler} {dispatch : ScheduledDispatch}
    (hactive : dispatch.active = true) {result : Except ReadFailure ReadResponse}
    {nowMs scheduleNowMs : ℕ} :
    (scheduler.finish dispatch result nowMs scheduleNowMs).1 = .completedFresh ↔
      ∃ response, result = .ok response ∧ FoundFresh scheduler dispatch.request response nowMs := by
  have hreleased := @release_successor scheduler dispatch hactive
  unfold RequestScheduler.finish
  split
  · rename_i hsuccessor
    rw [hsuccessor] at hreleased
    refine ⟨nofun, fun hfresh => ?_⟩
    obtain ⟨response, -, hfound⟩ := hfresh
    rw [hfound.alone] at hreleased
    cases hreleased
  · rename_i hnone
    rw [hnone] at hreleased
    have halone : scheduler.queue.successors[dispatch.request.key]? = none :=
      Option.not_isSome_iff_eq_none.mp (ne_true_of_eq_false hreleased.symm)
    cases result with
    | ok response =>
      dsimp only
      split
      · rename_i hfresh
        simp only [Bool.and_eq_true, decide_eq_true_eq] at hfresh
        obtain ⟨⟨⟨⟨hvalid, hcreated⟩, hreceived⟩, huntil⟩, hexpires⟩ := hfresh
        exact ⟨fun _ => ⟨response, rfl, halone, hvalid, ⟨hcreated, hreceived⟩, huntil, hexpires⟩,
          fun _ => rfl⟩
      · rename_i hstale
        constructor
        · split <;> exact nofun
        · rintro ⟨other, hsame, hfound⟩
          cases hsame
          refine absurd ?_ hstale
          simp only [Bool.and_eq_true, decide_eq_true_eq]
          exact ⟨⟨⟨⟨hfound.payloadValid, hfound.received.1⟩, hfound.received.2⟩, hfound.inTime.1⟩,
            hfound.inTime.2⟩
    | error failure =>
      refine ⟨fun hfresh => ?_, fun hresponse => ?_⟩
      · revert hfresh
        cases failure with
        | invalidResponse => exact nofun
        | permanent => exact nofun
        | rateLimited _ | timeout | transport | server =>
          exact fun hfresh => absurd hfresh (scheduleRetry_ne_fresh _ _ _ _ _)
      · obtain ⟨response, hsame, -⟩ := hresponse
        cases hsame

def Marks (batch : CandleReservation) (series : CandleSeries) (bucket : ℕ) : Prop :=
  series.asset = batch.asset ∧ series.interval ∈ batch.intervals ∧
    bucket = series.interval.bucketAt batch.nowMs

/-- The candles of a bucket are handed to the engine by an event, or the bucket is due again after
it. -/
def HandedOrDue (state next : SourceReads D) (series : CandleSeries) (bucket : ℕ)
    (candles : List (ClosedCandle D)) : Prop :=
  (∀ candle ∈ candles, ∃ response, next.ingested = state.ingested ++ [response] ∧
    candle ∈ response.closedCandles) ∨
    next.candleFetch.isDue series bucket = true

section

variable [SliceSort] (transport : PublicTransportPolicy)

/-- What an event does to the marks and to the fetched candles.  A bucket that is marked is one of
the batch of its task, a bucket whose fetch has failed is due again, and when the task is finished
the candles of every other bucket are handed to the engine or the bucket is due again. -/
def CandlesKept (state : SourceReads D) (event : ReadEvent D) : Prop :=
  match event with
  | .readSource index _ _ _ => ∀ series bucket,
      (state.step transport event).candleFetch.requestedBuckets[series]? = some bucket →
        state.candleFetch.requestedBuckets[series]? = some bucket ∨
          ∃ task batch, (state.step transport event).tasks[index]? = some task ∧
            task.progress = .fetching (some batch) ∧ Marks batch series bucket
  | .answerCandles index _ => ∀ task batch, state.tasks[index]? = some task →
      task.progress = .fetching (some batch) →
        ∃ task' buckets, (state.step transport event).tasks[index]? = some task' ∧
          task'.progress = .fetched buckets ∧
          ∀ series bucket, Marks batch series bucket → ∃ candles,
            ⟨series, bucket, candles⟩ ∈ buckets ∧
              (candles = none →
                (state.step transport event).candleFetch.isDue series bucket = true)
  | .finish index _ _ => ∀ task result buckets, state.tasks[index]? = some task →
      task.progress = .ended result buckets →
        ∀ series bucket candles, ⟨series, bucket, some candles⟩ ∈ buckets →
          HandedOrDue state (state.step transport event) series bucket candles
  | _ => True

end

/-- What keeps the candles of a finished task: its response is found fresh, or each bucket with
candles has lost its mark since.  The response can be stale, superseded or, when its validity leaves
the word, an error. -/
def FinishesFresh (state : SourceReads D) : ReadEvent D → Prop
  | .finish index nowMs _ => ∀ task result buckets, state.tasks[index]? = some task →
      task.progress = .ended result buckets →
        (∃ response, result = .ok response ∧
          FoundFresh state.scheduler task.dispatch.request response nowMs) ∨
        ∀ series bucket candles, ⟨series, bucket, some candles⟩ ∈ buckets → candles ≠ [] →
          state.candleFetch.isDue series bucket = true
  | _ => True

theorem mem_batchCandles {buckets : List (FetchedBucket D)} {series : CandleSeries} {bucket : ℕ}
    {candles : List (ClosedCandle D)} {candle : ClosedCandle D}
    (hbucket : ⟨series, bucket, some candles⟩ ∈ buckets) (hcandle : candle ∈ candles) :
    candle ∈ batchCandles buckets := by
  unfold batchCandles
  rw [List.mem_mergeSort]
  exact List.mem_flatMap.mpr ⟨_, hbucket, hcandle⟩

theorem isDue_releaseFailed {state : TechnicalCandleFetchState} {fetched : List (FetchedBucket D)}
    {bucket : FetchedBucket D} (hmem : bucket ∈ fetched) (hfailed : bucket.candles = none) :
    (state.releaseFailed fetched).isDue bucket.series bucket.bucket = true := by
  have herased : ∀ (failed : List (FetchedBucket D)) (buckets : ExtTreeMap CandleSeries ℕ),
      (bucket ∈ failed ∨ buckets[bucket.series]? = none) →
        (failed.foldl (fun buckets bucket => buckets.erase bucket.series) buckets)[bucket.series]? =
          none := by
    intro failed
    induction failed with
    | nil =>
      rintro buckets (hin | hnone)
      · exact absurd hin List.not_mem_nil
      · exact hnone
    | cons first rest ih =>
      intro buckets hgone
      refine ih _ ?_
      rw [getElem?_erase_eq]
      rcases hgone with hin | hnone
      · rcases List.mem_cons.mp hin with rfl | hlater
        · exact .inr (if_pos rfl)
        · exact .inl hlater
      · right
        split
        · rfl
        · exact hnone
  unfold TechnicalCandleFetchState.isDue TechnicalCandleFetchState.releaseFailed
  rw [herased _ _ (.inl (List.mem_filter.mpr ⟨hmem, by rw [hfailed]; rfl⟩))]

theorem reserve_marks {state next : TechnicalCandleFetchState} {candidateId : String}
    {assets : Std.ExtTreeSet String} {nowMs : ℕ} {batch : Option CandleReservation}
    (h : state.reserve candidateId assets nowMs = (batch, next)) {series : CandleSeries}
    {bucket : ℕ} (hmarked : next.requestedBuckets[series]? = some bucket) :
    state.requestedBuckets[series]? = some bucket ∨
      ∃ own, batch = some own ∧ Marks own series bucket := by
  have hpruned : (state.replaceCandidateAssets candidateId assets).requestedBuckets[series]? =
      some bucket → state.requestedBuckets[series]? = some bucket := by
    unfold TechnicalCandleFetchState.replaceCandidateAssets
      TechnicalCandleFetchState.pruneInactiveBuckets
    rw [ExtTreeMap.getElem?_filter']
    exact fun hkept => (Option.filter_eq_some_iff.mp hkept).1
  have hadded : ∀ (own : CandleReservation) (intervals : List CandleInterval)
      (buckets : ExtTreeMap CandleSeries ℕ),
      (intervals.foldl (fun buckets interval =>
        buckets.insert ⟨own.asset, interval⟩ (interval.bucketAt own.nowMs)) buckets)[series]? =
          some bucket →
        buckets[series]? = some bucket ∨ (series.asset = own.asset ∧
          series.interval ∈ intervals ∧ bucket = series.interval.bucketAt own.nowMs) := by
    intro own intervals
    induction intervals with
    | nil => exact fun buckets hget => .inl hget
    | cons interval rest ih =>
      intro buckets hget
      rcases ih _ hget with hbefore | ⟨hasset, hlater, hbucket⟩
      · rw [getElem?_insert_eq] at hbefore
        split at hbefore
        · rename_i hsame
          cases hbefore
          rw [← hsame]
          exact .inr ⟨rfl, List.mem_cons_self, rfl⟩
        · exact .inl hbefore
      · exact .inr ⟨hasset, List.mem_cons_of_mem _ hlater, hbucket⟩
  unfold TechnicalCandleFetchState.reserve at h
  dsimp only at h
  split at h
  · cases h
    exact .inl (hpruned hmarked)
  split at h
  · cases h
    exact .inl (hpruned hmarked)
  · rename_i own hown
    cases h
    rcases hadded own own.intervals _ hmarked with hbefore | hmark
    · exact .inl (hpruned hbefore)
    · exact .inr ⟨own, rfl, hmark⟩

section

variable [SliceSort] {policy : ReadApiPolicy} {state : SourceReads D}
  (transport : PublicTransportPolicy)

theorem readSource_kept (index : ℕ) (source : SourceStateResponse) (ageReadMs fetchMs : ℕ) :
    CandlesKept transport state (.readSource index source ageReadMs fetchMs) := by
  intro series bucket hmarked
  unfold SourceReads.step at hmarked ⊢
  dsimp only at hmarked ⊢
  split at hmarked
  · rename_i task htask
    split at hmarked
    · rename_i hprogress hkind
      unfold SourceReads.readSource at hmarked ⊢
      split at hmarked
      · exact .inl hmarked
      · rename_i maximumAge hage
        split at hmarked
        · exact .inl hmarked
        · rename_i hyoung
          rcases hreserved : state.candleFetch.reserve source.candidateId source.assets fetchMs
            with ⟨batch, candleFetch⟩
          rw [hreserved] at hmarked
          rcases reserve_marks hreserved hmarked with hbefore | ⟨own, rfl, hmark⟩
          · exact .inl hbefore
          · refine .inr ⟨{ task with progress := .fetching (some own) }, own, ?_, rfl, hmark⟩
            rw [if_neg hyoung]
            obtain ⟨hlt, -⟩ := List.getElem?_eq_some_iff.mp htask
            exact List.getElem?_set_self hlt
    · exact .inl hmarked
  · exact .inl hmarked

theorem answerCandles_kept (index : ℕ) (reply : CandleInterval → CandleReply D) :
    CandlesKept transport state (.answerCandles index reply) := by
  intro task batch htask hprogress
  have hnext : state.step transport (.answerCandles index reply) =
      state.answerCandles index task (some batch) reply := by
    unfold SourceReads.step
    dsimp only
    rw [htask]
    dsimp only
    rw [hprogress]
  rw [hnext]
  obtain ⟨hlt, -⟩ := List.getElem?_eq_some_iff.mp htask
  refine ⟨{ task with progress := .fetched (fetchBatch batch reply) }, fetchBatch batch reply,
    List.getElem?_set_self hlt, rfl, ?_⟩
  rintro ⟨asset, interval⟩ bucket ⟨rfl, hinterval, rfl⟩
  refine ⟨_, List.mem_map.mpr ⟨interval, hinterval, rfl⟩, fun hfailed => ?_⟩
  exact @isDue_releaseFailed D state.candleFetch _ ⟨_, _, _⟩
    (List.mem_map.mpr ⟨interval, hinterval, rfl⟩) hfailed

theorem finish_kept_iff (hsound : ReadsSound policy state) (index nowMs scheduleNowMs : ℕ) :
    CandlesKept transport state (.finish index nowMs scheduleNowMs) ↔
      FinishesFresh state (.finish index nowMs scheduleNowMs) := by
  refine forall_congr' fun task => forall_congr' fun result => forall_congr' fun buckets =>
    forall_congr' fun htask => forall_congr' fun hprogress => ?_
  have hmem := List.mem_of_getElem? htask
  have hactive : task.dispatch.active = true :=
    (hsound.scheduler.active task.dispatch (List.mem_map_of_mem hmem)).1
  have hnext : state.step transport (.finish index nowMs scheduleNowMs) =
      state.finish index task result nowMs scheduleNowMs := by
    unfold SourceReads.step
    dsimp only
    rw [htask]
    dsimp only
    rw [hprogress]
  have hingested : (state.finish index task result nowMs scheduleNowMs).ingested =
      state.ingested ++
        if (state.scheduler.finish task.dispatch result nowMs scheduleNowMs).1 = .completedFresh then
          (state.accepted.find? fun response => response.answers task.dispatch.request).toList
        else [] := rfl
  rw [hnext, ← @finish_completedFresh_iff _ _ hactive result nowMs scheduleNowMs]
  constructor
  · intro hkept
    by_cases hfresh :
        (state.scheduler.finish task.dispatch result nowMs scheduleNowMs).1 = .completedFresh
    · exact .inl hfresh
    · refine .inr fun series bucket candles hbucket hsome => ?_
      rcases hkept series bucket candles hbucket with hhanded | hdue
      · obtain ⟨candle, hcandle⟩ := List.exists_mem_of_ne_nil candles hsome
        obtain ⟨response, hresponse, -⟩ := hhanded candle hcandle
        rw [hingested, if_neg hfresh] at hresponse
        simp at hresponse
      · exact hdue
  · rintro (hfresh | hdue) series bucket candles hbucket
    · obtain ⟨response, rfl, -⟩ := (finish_completedFresh_iff hactive).mp hfresh
      obtain ⟨taken, htaken, -, other, others, hended, hcandles⟩ :=
        hsound.taken_of_responded hmem ⟨response, buckets, hprogress⟩
      rw [hprogress] at hended
      cases hended
      refine .inl fun candle hcandle => ⟨taken, ?_, ?_⟩
      · rw [hingested, if_pos hfresh, htaken]
        rfl
      · rw [hcandles]
        exact mem_batchCandles hbucket hcandle
    · by_cases hsome : candles = []
      · rw [hsome]
        exact .inl fun candle hcandle => absurd hcandle List.not_mem_nil
      · exact .inr (hdue series bucket candles hbucket hsome)

/-- **When no fetched candle is lost**, in every run of the loop: every marked bucket is handed to
the engine with its candles or is due again, exactly when every task with candles is finished fresh
or after its buckets have lost their marks. -/
theorem fetched_candles_kept_iff [LawfulSliceSort] {retryPolicy : RetryPolicy} {startMs : ℕ}
    {scheduler : RequestScheduler}
    (hnew : RequestScheduler.new policy retryPolicy startMs = .ok scheduler)
    (events : List (ReadEvent D)) :
    AllSteps (SourceReads.step transport) (CandlesKept transport) (SourceReads.start scheduler)
        events ↔
      AllSteps (SourceReads.step transport) FinishesFresh (SourceReads.start scheduler) events := by
  refine allSteps_congr (I := ReadsSound policy)
    (fun state event hsound => readsSound_step transport hsound event) ?_
    (readsSound_start hnew) events
  intro state event hsound
  cases event with
  | schedule request nowMs => exact Iff.rfl
  | beginNext nowMs => exact Iff.rfl
  | readSource index source ageReadMs fetchMs =>
    exact iff_of_true (readSource_kept transport index source ageReadMs fetchMs) trivial
  | answerCandles index reply => exact iff_of_true (answerCandles_kept transport index reply) trivial
  | respondSource index receivedAtMono => exact Iff.rfl
  | respondMarket index technicalAssets receivedAtMono => exact Iff.rfl
  | fail index failure => exact Iff.rfl
  | finish index nowMs scheduleNowMs => exact finish_kept_iff transport hsound _ _ _

end

def sampleTransport : PublicTransportPolicy := ⟨100, 100, 100, 100, 300⟩

def sampleSourceRequest : ScheduledReadRequest where
  key := ⟨.candidate "0x1", .sourceState⟩
  kind := .sourceState
  candidateId := some "0x1"
  sourceTier := some .active
  weight := 2
  priority := .high
  budgetClass := .sourcePolling
  createdAt := 0
  notBefore := 0
  expiresAt := 500
  attempt := 0

def sampleCandle : ClosedCandle ℚ where
  asset := "BTC"
  interval := .twelveHours
  openTimeMs := 1000000000
  closeTimeMs := 1043200000
  openPrice := 100
  high := 101
  low := 99
  close := 100
  baseVolume := 5
  tradeCount := 3

/-- The state of the source is read with a batch of candles, and the task is finished at a time. -/
def sampleReads (finishedAt : ℕ) : List (ReadEvent ℚ) :=
  [.schedule sampleSourceRequest 0, .beginNext 1,
    .readSource 0 ⟨"0x1", 1050000000, Std.ExtTreeSet.ofList ["BTC"] compare⟩ 1050000000 1050000000,
    .answerCandles 0 fun interval =>
      some (if interval = .twelveHours then [some sampleCandle] else []),
    .respondSource 0 250, .finish 0 finishedAt finishedAt]

theorem fetched_candles_kept_iff_sample :
    ∃ (_ : SliceSort) (_ : LawfulSliceSort) (scheduler : RequestScheduler),
      RequestScheduler.new samplePolicy sampleRetryPolicy 0 = .ok scheduler ∧
        (AllSteps (SourceReads.step sampleTransport) (CandlesKept sampleTransport)
            (SourceReads.start scheduler) (sampleReads 300) ↔
          AllSteps (SourceReads.step sampleTransport) FinishesFresh (SourceReads.start scheduler)
            (sampleReads 300)) := by
  let sort : SliceSort := ⟨fun compare items => items.mergeSort fun a b => compare a b != .gt⟩
  have lawful : LawfulSliceSort := lawful_mergeSort
  exact ⟨sort, lawful, sampleScheduler, sampleScheduler_new,
    fetched_candles_kept_iff sampleTransport sampleScheduler_new (sampleReads 300)⟩

def losesLastBucket (state next : SourceReads ℚ) : Bool :=
  match state.tasks with
  | [task] =>
    match task.progress with
    | .ended _ [_, _, _, _, ⟨series, bucket, some (_ :: _)⟩] =>
      state.ingested.isEmpty && next.ingested.isEmpty && !next.candleFetch.isDue series bucket
    | _ => false
  | _ => false

theorem not_kept_of_losesLastBucket [SliceSort] {state : SourceReads ℚ} {nowMs scheduleNowMs : ℕ}
    (h : losesLastBucket state
      (state.step sampleTransport (.finish 0 nowMs scheduleNowMs)) = true) :
    ¬ CandlesKept sampleTransport state (.finish 0 nowMs scheduleNowMs) := by
  intro hkept
  unfold losesLastBucket at h
  split at h
  · rename_i task htasks
    split at h
    · rename_i result first second third fourth series bucket candle candles hprogress
      rw [Bool.and_eq_true, Bool.and_eq_true] at h
      obtain ⟨⟨hbefore, hafter⟩, hmarked⟩ := h
      have htask : state.tasks[0]? = some task := by rw [htasks]; rfl
      rcases hkept task result _ htask hprogress series bucket (candle :: candles) (by simp) with
        hhanded | hdue
      · obtain ⟨response, hresponse, -⟩ := hhanded candle List.mem_cons_self
        rw [hresponse] at hafter
        simp at hafter
      · rw [hdue] at hmarked
        cases hmarked
    · cases h
  · cases h

/-- The response of the source has expired when its task is finished: its candles are dropped and
their buckets stay requested. -/
theorem fetched_candles_lost :
    ∃ (_ : SliceSort) (scheduler : RequestScheduler),
      RequestScheduler.new samplePolicy sampleRetryPolicy 0 = .ok scheduler ∧
        ¬ AllSteps (SourceReads.step sampleTransport) (CandlesKept sampleTransport)
          (SourceReads.start scheduler) (sampleReads 600) := by
  let sort : SliceSort := ⟨fun compare items => items.mergeSort fun a b => compare a b != .gt⟩
  have hrun : ((RequestScheduler.new samplePolicy sampleRetryPolicy 0).toOption.any fun scheduler =>
      losesLastBucket
        (run (SourceReads.step sampleTransport) (SourceReads.start scheduler)
          (sampleReads 600).dropLast)
        (run (SourceReads.step sampleTransport) (SourceReads.start scheduler)
          (sampleReads 600))) = true := by decide +kernel
  cases hnew : RequestScheduler.new samplePolicy sampleRetryPolicy 0 with
  | error error =>
    rw [hnew] at hrun
    cases hrun
  | ok scheduler =>
    rw [hnew] at hrun
    have hlost : losesLastBucket
        (run (SourceReads.step sampleTransport) (SourceReads.start scheduler)
          (sampleReads 600).dropLast)
        (run (SourceReads.step sampleTransport) (SourceReads.start scheduler)
          (sampleReads 600)) = true := hrun
    refine ⟨sort, scheduler, rfl, fun hall => ?_⟩
    have hsplit : sampleReads 600 = (sampleReads 600).dropLast ++ [.finish 0 600 600] := rfl
    rw [hsplit] at hall
    obtain ⟨-, hkept, -⟩ := allSteps_append.mp hall
    rw [hsplit, run_append] at hlost
    exact not_kept_of_losesLastBucket hlost hkept

end CopyTrade.Analysis
