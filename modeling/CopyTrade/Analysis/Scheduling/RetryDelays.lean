import CopyTrade.Analysis.Scheduling.SupersededResponses

/-!
# The delays and the number of retries

The delay before a retry is drawn around the capped exponential backoff, so the jitter can take it
past the cap or, at one hundred percent, down to nothing; the checks behind it keep every retry
within the time its request has.
-/

namespace CopyTrade.Analysis

open Foundation Model

/-- The failures that may pass and that bring no delay from the server. -/
def IsTransient : ReadFailure → Prop
  | .rateLimited none | .timeout | .transport | .server => True
  | .rateLimited (some _) | .invalidResponse | .permanent => False

def cappedBackoff (policy : RetryPolicy) (attempt : ℕ) : ℕ :=
  min (min (policy.initialBackoffMs * 2 ^ min attempt 63) maxU64) policy.maximumBackoffMs

/-- The greatest distance of the delay from the capped backoff. -/
def jitterSpan (policy : RetryPolicy) (attempt : ℕ) : ℕ :=
  cappedBackoff policy attempt * policy.jitterBps / 10000

/-- Where in the range of the jitter the hash of a request falls. -/
def jitterOffset (policy : RetryPolicy) (request : ScheduledReadRequest) : ℕ :=
  stableRequestHash request.key ((request.attempt + 1) % 2 ^ 32) policy.deterministicSeed %
    (jitterSpan policy request.attempt * 2 + 1)

/-- The jitter takes the delay neither to nothing nor past the cap. -/
def JitterFits (policy : RetryPolicy) (request : ScheduledReadRequest) : Prop :=
  (policy.jitterBps < 10000 ∨ 0 < jitterOffset policy request) ∧
    (jitterOffset policy request ≤ jitterSpan policy request.attempt +
        (policy.maximumBackoffMs - cappedBackoff policy request.attempt) ∨
      maxU64 ≤ policy.maximumBackoffMs)

/-- There is a delay, it is not zero, and it is within the cap. -/
def DelayInRange (policy : RetryPolicy) (request : ScheduledReadRequest) (failure : ReadFailure) :
    Prop :=
  ∃ delay, policy.delayMs request failure = some delay ∧
    1 ≤ delay ∧ delay ≤ policy.maximumBackoffMs

structure ValidRetries (policy : RetryPolicy) : Prop where
  initial : 0 < policy.initialBackoffMs
  maximum : policy.initialBackoffMs ≤ policy.maximumBackoffMs
  attempts : 0 < policy.maximumAttempts
  jitter : policy.jitterBps ≤ 10000

section

variable {policy : RetryPolicy} {request : ScheduledReadRequest}

theorem validRetries_of_validate (h : policy.validate = .ok ()) : ValidRetries policy := by
  unfold RetryPolicy.validate at h
  split at h
  · cases h
  · rename_i hvalid
    simp only [not_or, Nat.not_lt] at hvalid
    obtain ⟨hinitial, hmaximum, hattempts, -, hjitter⟩ := hvalid
    exact ⟨Nat.pos_of_ne_zero hinitial, hmaximum, Nat.pos_of_ne_zero hattempts, hjitter⟩

theorem delayMs_of_transient {failure : ReadFailure} (h : IsTransient failure) :
    policy.delayMs request failure = some (policy.backoffMs request) := by
  cases failure with
  | rateLimited retryAfterMs =>
    cases retryAfterMs with
    | none => rfl
    | some delay => exact False.elim h
  | timeout => rfl
  | transport => rfl
  | server => rfl
  | invalidResponse => exact False.elim h
  | permanent => exact False.elim h

theorem cappedBackoff_pos (hvalid : ValidRetries policy) (attempt : ℕ) :
    0 < cappedBackoff policy attempt := by
  have hinitial := hvalid.initial
  have hmaximum := hvalid.maximum
  have hshift : 0 < policy.initialBackoffMs * 2 ^ min attempt 63 :=
    Nat.mul_pos hinitial (Nat.two_pow_pos _)
  unfold cappedBackoff maxU64
  omega

theorem cappedBackoff_le (policy : RetryPolicy) (attempt : ℕ) :
    cappedBackoff policy attempt ≤ policy.maximumBackoffMs :=
  Nat.min_le_right _ _

theorem jitterSpan_le (hvalid : ValidRetries policy) (attempt : ℕ) :
    jitterSpan policy attempt ≤ cappedBackoff policy attempt := by
  unfold jitterSpan
  apply Nat.div_le_of_le_mul
  rw [Nat.mul_comm 10000]
  exact Nat.mul_le_mul_left _ hvalid.jitter

theorem jitterSpan_lt_iff (hvalid : ValidRetries policy) (attempt : ℕ) :
    jitterSpan policy attempt < cappedBackoff policy attempt ↔ policy.jitterBps < 10000 := by
  have hpos := cappedBackoff_pos hvalid attempt
  unfold jitterSpan
  rw [Nat.div_lt_iff_lt_mul (by omega)]
  exact Nat.mul_lt_mul_left hpos

theorem backoffMs_eq (hvalid : ValidRetries policy) :
    policy.backoffMs request = min (cappedBackoff policy request.attempt -
      jitterSpan policy request.attempt + jitterOffset policy request) maxU64 := by
  have hpos := cappedBackoff_pos hvalid request.attempt
  unfold RetryPolicy.backoffMs
  dsimp only
  split
  · rename_i hnone
    have hspan : jitterSpan policy request.attempt = 0 := hnone
    have hoffset : jitterOffset policy request = 0 := by
      unfold jitterOffset
      rw [hspan]
      exact Nat.mod_one _
    rw [hspan, hoffset]
    unfold cappedBackoff at *
    omega
  · rfl

theorem delayInRange_iff (hvalid : ValidRetries policy) {failure : ReadFailure}
    (hfailure : IsTransient failure) :
    DelayInRange policy request failure ↔ JitterFits policy request := by
  have hle := jitterSpan_le hvalid request.attempt
  have hcap := cappedBackoff_le policy request.attempt
  have hword : 0 < maxU64 := by decide
  unfold DelayInRange JitterFits
  rw [delayMs_of_transient hfailure, backoffMs_eq hvalid,
    ← jitterSpan_lt_iff hvalid request.attempt]
  simp only [Option.some.injEq, exists_eq_left']
  omega

end

/-- What `schedule` does to the queue, by its outcome. -/
inductive Enters (queue : QueueState) (request : ScheduledReadRequest) :
    ScheduleOutcome → QueueState → Prop
  | pending {outcome : ScheduleOutcome} {room next : QueueState}
      (houtcome : outcome = .enqueued ∨ outcome = .replacedOlder) (hroom : Shrinks queue room)
      (hfree : request.key ∉ queue.inFlight)
      (hpending : next.pending = room.pending.insert request.key request)
      (hsuccessors : next.successors = room.successors) : Enters queue request outcome next
  | successor {room next : QueueState} (hroom : Shrinks queue room)
      (hflight : request.key ∈ queue.inFlight) (hpending : next.pending = room.pending)
      (hsuccessors : next.successors = room.successors.insert request.key request) :
      Enters queue request .successorRecorded next
  | refused {outcome : ScheduleOutcome} {next : QueueState}
      (houtcome : outcome ≠ .enqueued ∧ outcome ≠ .replacedOlder ∧ outcome ≠ .successorRecorded)
      (hnext : Shrinks queue next) : Enters queue request outcome next

section

variable {queue next : QueueState} {request : ScheduledReadRequest} {outcome : ScheduleOutcome}

theorem Shrinks.trans {room : QueueState} (h : Shrinks queue room) (g : Shrinks room next) :
    Shrinks queue next := by
  refine ⟨?_, ?_, g.inFlight.trans h.inFlight, g.size.trans h.size⟩
  · intro key request hget
    exact h.pending key request (g.pending key request hget)
  · intro key request hget
    exact h.successors key request (g.successors key request hget)

theorem Enters.after_shrink {room : QueueState} (hroom : Shrinks queue room)
    (h : Enters room request outcome next) : Enters queue request outcome next := by
  cases h with
  | pending houtcome hshrinks hfree hpending hsuccessors =>
    rw [hroom.inFlight] at hfree
    exact .pending houtcome (hroom.trans hshrinks) hfree hpending hsuccessors
  | successor hshrinks hflight hpending hsuccessors =>
    rw [hroom.inFlight] at hflight
    exact .successor (hroom.trans hshrinks) hflight hpending hsuccessors
  | refused houtcome hnext => exact .refused houtcome (hroom.trans hnext)

theorem enterQueue_enters {capacity : ℕ} (hsound : QueueSound capacity queue)
    (request : ScheduledReadRequest) :
    Enters queue request (RequestScheduler.enterQueue queue capacity request).1
      (RequestScheduler.enterQueue queue capacity request).2 := by
  have hspec := (makeQueueRoom_spec hsound request).1
  unfold RequestScheduler.enterQueue
  split
  · rename_i hflight
    split
    · split
      · exact .refused (by simp) (Shrinks.refl queue)
      · exact .successor (Shrinks.refl queue) hflight rfl rfl
    · split
      · rename_i room hroom
        rw [hroom] at hspec
        exact .refused (by simp) hspec
      · rename_i room hroom
        rw [hroom] at hspec
        exact .successor hspec hflight rfl rfl
  · rename_i hfree
    split
    · split
      · exact .refused (by simp) (Shrinks.refl queue)
      · exact .pending (.inr rfl) (Shrinks.refl queue) hfree rfl rfl
    · split
      · rename_i room hroom
        rw [hroom] at hspec
        exact .refused (by simp) hspec
      · rename_i room hroom
        rw [hroom] at hspec
        exact .pending (.inl rfl) hspec hfree rfl rfl

theorem validateRequest_refuses {scheduler : RequestScheduler} {nowMs : ℕ}
    (h : scheduler.validateRequest request nowMs = some outcome) :
    outcome ≠ .enqueued ∧ outcome ≠ .replacedOlder ∧ outcome ≠ .successorRecorded := by
  unfold RequestScheduler.validateRequest at h
  split at h
  · cases h
    simp
  · split at h
    · cases h
      simp
    · split at h
      · cases h
        simp
      · split at h
        · cases h
          simp
        · cases h

theorem schedule_enters {scheduler : RequestScheduler}
    (hsound : QueueSound scheduler.policy.queueCapacity scheduler.queue)
    (request : ScheduledReadRequest) (nowMs : ℕ) :
    Enters scheduler.queue request (scheduler.schedule request nowMs).1
      (scheduler.schedule request nowMs).2.queue := by
  unfold RequestScheduler.schedule
  split
  · rename_i hinvalid
    exact .refused (validateRequest_refuses hinvalid) (Shrinks.refl _)
  · have hpurged := purgeExpired_shrinks scheduler.queue nowMs
    have hwindow := startWindow_shrinks (scheduler.queue.purgeExpired nowMs)
      scheduler.policy.windowMs nowMs
    exact (enterQueue_enters (hwindow.sound (hpurged.sound hsound)) request).after_shrink
      (hpurged.trans hwindow)

theorem scheduleRetry_cases (scheduler : RequestScheduler) (request : ScheduledReadRequest)
    (failure : ReadFailure) (nowMs scheduleNowMs : ℕ) :
    (∃ notBefore, nowMs < notBefore ∧ notBefore < request.expiresAt ∧
        notBefore ≤ request.createdAt + scheduler.retryPolicy.maximumLifetimeMs ∧
        request.attempt + 1 < scheduler.retryPolicy.maximumAttempts ∧
        (scheduler.scheduleRetry request failure nowMs scheduleNowMs).2 = (scheduler.schedule
          { request with attempt := request.attempt + 1, notBefore } scheduleNowMs).2 ∧
        ((scheduler.scheduleRetry request failure nowMs scheduleNowMs).1 = .retryScheduled ↔
          (scheduler.schedule
            { request with attempt := request.attempt + 1, notBefore } scheduleNowMs).1 ∈
              [.enqueued, .replacedOlder, .successorRecorded])) ∨
      (scheduler.scheduleRetry request failure nowMs scheduleNowMs).2 = scheduler ∧
        (scheduler.scheduleRetry request failure nowMs scheduleNowMs).1 ≠ .retryScheduled := by
  unfold RequestScheduler.scheduleRetry
  dsimp only
  split
  · exact .inr ⟨rfl, by simp⟩
  rename_i hattempt
  split
  · exact .inr ⟨rfl, by simp⟩
  split
  · refine .inr ⟨rfl, ?_⟩
    split <;> simp
  split
  · exact .inr ⟨rfl, by simp⟩
  rename_i notBefore hnotBefore
  split
  · exact .inr ⟨rfl, by simp⟩
  rename_i htime
  refine .inl ⟨notBefore, by omega, by omega, by omega, by omega, ?_⟩
  split <;> rename_i hresult <;> rw [hresult] <;> simp_all

theorem finish_cases (scheduler : RequestScheduler) (dispatch : ScheduledDispatch)
    (result : Except ReadFailure ReadResponse) (nowMs scheduleNowMs : ℕ) :
    ((scheduler.release dispatch).1 = true ∧
        scheduler.finish dispatch result nowMs scheduleNowMs =
          (.superseded, (scheduler.release dispatch).2.2)) ∨
      ((scheduler.release dispatch).1 = false ∧
        (scheduler.finish dispatch result nowMs scheduleNowMs).2 =
          (scheduler.release dispatch).2.2 ∧
        (scheduler.finish dispatch result nowMs scheduleNowMs).1 ≠ .superseded ∧
        (scheduler.finish dispatch result nowMs scheduleNowMs).1 ≠ .retryScheduled) ∨
      (scheduler.release dispatch).1 = false ∧ ∃ failure,
        scheduler.finish dispatch result nowMs scheduleNowMs =
          (scheduler.release dispatch).2.2.scheduleRetry dispatch.request failure nowMs
            scheduleNowMs := by
  unfold RequestScheduler.finish
  dsimp only
  split
  · rename_i hreleased
    rw [hreleased]
    exact .inl ⟨rfl, rfl⟩
  · rename_i hreleased
    rw [hreleased]
    split
    · split
      · exact .inr (.inl ⟨rfl, rfl, by simp, by simp⟩)
      · split
        · exact .inr (.inl ⟨rfl, rfl, by simp, by simp⟩)
        · exact .inr (.inl ⟨rfl, rfl, by simp, by simp⟩)
    · exact .inr (.inl ⟨rfl, rfl, by simp, by simp⟩)
    · exact .inr (.inl ⟨rfl, rfl, by simp, by simp⟩)
    · exact .inr (.inr ⟨rfl, _, rfl⟩)

theorem release_cases (scheduler : RequestScheduler) {dispatch : ScheduledDispatch}
    (hactive : dispatch.active = true) :
    (∃ successor, scheduler.queue.successors[dispatch.request.key]? = some successor ∧
        (scheduler.release dispatch).1 = true ∧
        (scheduler.release dispatch).2.2.queue.pending =
          scheduler.queue.pending.insert dispatch.request.key successor ∧
        (scheduler.release dispatch).2.2.queue.successors =
          scheduler.queue.successors.erase dispatch.request.key) ∨
      ((scheduler.release dispatch).1 = false ∧
        (scheduler.release dispatch).2.2.queue.pending = scheduler.queue.pending ∧
        (scheduler.release dispatch).2.2.queue.successors = scheduler.queue.successors) := by
  unfold RequestScheduler.release QueueState.release
  rw [hactive]
  dsimp only
  cases hsuccessor : scheduler.queue.successors[dispatch.request.key]? with
  | none => exact .inr ⟨rfl, rfl, rfl⟩
  | some successor => exact .inl ⟨successor, rfl, rfl, rfl, rfl⟩

end

section

theorem schedule_retryPolicy (scheduler : RequestScheduler) (request : ScheduledReadRequest)
    (nowMs : ℕ) : (scheduler.schedule request nowMs).2.retryPolicy = scheduler.retryPolicy := by
  unfold RequestScheduler.schedule
  split <;> rfl

theorem release_retryPolicy (scheduler : RequestScheduler) (dispatch : ScheduledDispatch) :
    (scheduler.release dispatch).2.2.retryPolicy = scheduler.retryPolicy := by
  unfold RequestScheduler.release
  split <;> rfl

theorem beginNext_retryPolicy [SliceSort] (scheduler : RequestScheduler) (nowMs : ℕ) :
    (scheduler.beginNext nowMs).2.retryPolicy = scheduler.retryPolicy := by
  unfold RequestScheduler.beginNext
  split
  · rfl
  · dsimp only
    split <;> rfl

theorem finish_retryPolicy (scheduler : RequestScheduler) (dispatch : ScheduledDispatch)
    (result : Except ReadFailure ReadResponse) (nowMs scheduleNowMs : ℕ) :
    (scheduler.finish dispatch result nowMs scheduleNowMs).2.retryPolicy =
      scheduler.retryPolicy := by
  have hreleased := release_retryPolicy scheduler dispatch
  rcases finish_cases scheduler dispatch result nowMs scheduleNowMs with
    ⟨-, hfinish⟩ | ⟨-, hfinish, -, -⟩ | ⟨-, failure, hfinish⟩
  · rw [hfinish]
    exact hreleased
  · rw [hfinish]
    exact hreleased
  · rw [hfinish]
    rcases scheduleRetry_cases (scheduler.release dispatch).2.2 dispatch.request failure nowMs
      scheduleNowMs with ⟨notBefore, -, -, -, -, hretry, -⟩ | ⟨hretry, -⟩
    · rw [hretry, schedule_retryPolicy]
      exact hreleased
    · rw [hretry]
      exact hreleased

theorem after_retryPolicy [SliceSort] (state : SchedulerRun) (call : SchedulerCall) :
    (state.after call).scheduler.retryPolicy = state.scheduler.retryPolicy := by
  cases call with
  | schedule request nowMs => exact schedule_retryPolicy state.scheduler request nowMs
  | beginNext nowMs => exact beginNext_retryPolicy state.scheduler nowMs
  | finish index result nowMs scheduleNowMs =>
    unfold SchedulerRun.after
    dsimp only
    split
    · rfl
    · exact finish_retryPolicy state.scheduler _ result nowMs scheduleNowMs
  | drop index =>
    unfold SchedulerRun.after
    dsimp only
    split
    · rfl
    · exact release_retryPolicy state.scheduler _

theorem new_spec {policy : ReadApiPolicy} {retryPolicy : RetryPolicy} {startMs : ℕ}
    {scheduler : RequestScheduler}
    (h : RequestScheduler.new policy retryPolicy startMs = .ok scheduler) :
    ValidRetries retryPolicy ∧ scheduler.retryPolicy = retryPolicy ∧
      scheduler.queue = QueueState.empty := by
  obtain ⟨_, -, h⟩ := of_bind h
  obtain ⟨_, hvalid, h⟩ := of_bind h
  obtain ⟨budget, -, h⟩ := of_bind h
  cases h
  exact ⟨validRetries_of_validate hvalid, rfl, rfl⟩

end

/-- A request that is retried waits again, for a later time at which it has not expired and which is
within the lifetime of its creation. -/
def RequeuesInTime (retryPolicy : RetryPolicy) (state : SchedulerRun) : SchedulerCall → Prop
  | .finish index result nowMs scheduleNowMs => ∀ dispatch, state.held[index]? = some dispatch →
    (state.scheduler.finish dispatch result nowMs scheduleNowMs).1 = .retryScheduled →
      ∃ notBefore, (state.scheduler.finish dispatch result nowMs scheduleNowMs).2.queue.pending[
          dispatch.request.key]? =
            some { dispatch.request with attempt := dispatch.request.attempt + 1, notBefore } ∧
        nowMs < notBefore ∧ notBefore < dispatch.request.expiresAt ∧
        notBefore ≤ dispatch.request.createdAt + retryPolicy.maximumLifetimeMs
  | .schedule _ _ | .beginNext _ | .drop _ => True

variable {policy : ReadApiPolicy} {state : SchedulerRun}

theorem release_queueSound (h : RunSound policy state) {index : ℕ} {dispatch : ScheduledDispatch}
    (hheld : state.held[index]? = some dispatch) :
    QueueSound (state.scheduler.release dispatch).2.2.policy.queueCapacity
      (state.scheduler.release dispatch).2.2.queue := by
  have hreleased := release_held h hheld
  have hsound := hreleased.queue
  rwa [← hreleased.samePolicy] at hsound

theorem schedule_free {scheduler : RequestScheduler}
    (hsound : QueueSound scheduler.policy.queueCapacity scheduler.queue)
    (request : ScheduledReadRequest) (hfree : request.key ∉ scheduler.queue.inFlight) {nowMs : ℕ}
    (h : (scheduler.schedule request nowMs).1 ∈
      [ScheduleOutcome.enqueued, .replacedOlder, .successorRecorded]) :
    (scheduler.schedule request nowMs).2.queue.pending[request.key]? = some request := by
  have henters := schedule_enters hsound request nowMs
  generalize (scheduler.schedule request nowMs).1 = outcome at h henters
  cases henters with
  | pending houtcome hroom hfree hpending hsuccessors =>
    rw [hpending, getElem?_insert_eq, if_pos rfl]
  | successor hroom hflight hpending hsuccessors => exact absurd hflight hfree
  | refused houtcome hnext =>
    obtain ⟨henqueued, hreplaced, hrecorded⟩ := houtcome
    simp [henqueued, hreplaced, hrecorded] at h

theorem requeuesInTime (h : RunSound policy state) (call : SchedulerCall) :
    RequeuesInTime state.scheduler.retryPolicy state call := by
  cases call with
  | schedule request nowMs => trivial
  | beginNext nowMs => trivial
  | drop index => trivial
  | finish index result nowMs scheduleNowMs =>
    intro dispatch hheld hretried
    have hsound := release_queueSound h hheld
    have hfree := not_inFlight_of_release h hheld
    rcases finish_cases state.scheduler dispatch result nowMs scheduleNowMs with
      ⟨-, hfinish⟩ | ⟨-, -, -, hother⟩ | ⟨-, failure, hfinish⟩
    · rw [hfinish] at hretried
      cases hretried
    · exact absurd hretried hother
    · rw [hfinish] at hretried ⊢
      rcases scheduleRetry_cases (state.scheduler.release dispatch).2.2 dispatch.request failure
        nowMs scheduleNowMs with
        ⟨notBefore, hlater, hunexpired, hlifetime, -, hnext, houtcome⟩ | ⟨-, hother⟩
      · rw [release_retryPolicy] at hlifetime
        have hwaits := schedule_free hsound
          { dispatch.request with attempt := dispatch.request.attempt + 1, notBefore } hfree
          (houtcome.mp hretried)
        rw [hnext]
        exact ⟨notBefore, hwaits, hlater, hunexpired, hlifetime⟩
      · exact absurd hretried hother

end CopyTrade.Analysis
