import CopyTrade.Foundation.JsonFormat
import CopyTrade.Foundation.MessagePack
import CopyTrade.Foundation.Serving
import CopyTrade.Model.Observer.HandoffWorker
import CopyTrade.Model.WholeDecimal

/-!
# The progress of the dispatch worker

The worker serves the dispatchable intents in the order of their lanes until none is left.  Its
inner loop ends exactly when the connection settles every dispatchable intent at some time.
-/

namespace CopyTrade.Analysis

open Foundation Model.IpcClient
open Model hiding ObserverIntentState
open Std (ExtTreeMap)

variable {D : Type}

def repliedState (cloid : PlannedCloid) (intent : AuthorizedExecutionIntent D) :
    SignerResponse D → Option ObserverIntentState
  | .accepted identity _ _ =>
    if identity.plannedCloid = cloid ∧ identity.targetVersion = intent.targetVersion
        ∧ identity.canonicalIntentHash = intent.canonicalHash then some .acceptedBySigner
    else none
  | .rejected response reason => if response = cloid then some (.rejected reason.text) else none
  | _ => none

/-- A reply is the acceptance or the rejection of an intent. -/
def SettlesIntent (cloid : PlannedCloid) (intent : AuthorizedExecutionIntent D)
    (reply : SignerResponse D) : Prop := (repliedState cloid intent reply).isSome = true

variable {cloid : PlannedCloid} {pending : PendingHandoff D}

theorem not_dispatchable_of_settled {intent : AuthorizedExecutionIntent D}
    {reply : SignerResponse D} {state : ObserverIntentState}
    (h : repliedState cloid intent reply = some state) : dispatchable state = false := by
  cases reply with
  | accepted identity _ _ =>
    rw [repliedState] at h
    split at h
    · cases h
      rfl
    · cases h
  | rejected response reason =>
    rw [repliedState] at h
    split at h
    · cases h
      rfl
    · cases h
  | _ => cases h

theorem not_settlesIntent_of_notFound {intent : AuthorizedExecutionIntent D}
    {reply : SignerResponse D} (h : isNotFound cloid reply = true) :
    ¬ SettlesIntent cloid intent reply := by
  cases reply with
  | notFound response => exact Bool.false_ne_true
  | _ => cases h

section

variable {queue : DurableHandoffQueue D} {cloid : PlannedCloid} {pending : PendingHandoff D}

def withState (queue : DurableHandoffQueue D) (cloid : PlannedCloid) (pending : PendingHandoff D)
    (state : ObserverIntentState) : DurableHandoffQueue D :=
  { queue with byCloid := queue.byCloid.insert cloid { pending with state } }

theorem changeState_eq (hget : queue.byCloid[cloid]? = some pending)
    (change : ObserverIntentState → ObserverIntentState) :
    queue.changeState cloid change = .ok (withState queue cloid pending (change pending.state)) := by
  unfold DurableHandoffQueue.changeState
  rw [hget]
  rfl

theorem getElem?_withState (state : ObserverIntentState) :
    (withState queue cloid pending state).byCloid[cloid]? = some { pending with state } := by
  unfold withState
  rw [getElem?_insert_eq, if_pos rfl]

theorem withState_withState (state state' : ObserverIntentState) :
    withState (withState queue cloid pending state) cloid { pending with state } state' =
      withState queue cloid pending state' := by
  unfold withState
  rw [insert_insert_self]

theorem withState_self (hget : queue.byCloid[cloid]? = some pending) :
    withState queue cloid pending pending.state = queue := by
  unfold withState
  rw [insert_of_getElem? hget]

theorem markDisconnect_eq (hget : queue.byCloid[cloid]? = some pending) :
    queue.markDisconnect cloid = .ok (withState queue cloid pending
      (if pending.state = .sent then .submissionUnknown else pending.state)) :=
  changeState_eq hget _

theorem settleReply_eq (hget : queue.byCloid[cloid]? = some pending)
    (intent : AuthorizedExecutionIntent D) (reply : SignerResponse D) :
    queue.settleReply cloid intent reply =
      match repliedState cloid intent reply with
      | none => .error .unexpectedResponse
      | some state => .ok (withState queue cloid pending state) := by
  cases reply with
  | accepted identity _ _ =>
    unfold DurableHandoffQueue.settleReply repliedState
    dsimp only
    split
    · exact changeState_eq hget _
    · rfl
  | rejected response reason =>
    unfold DurableHandoffQueue.settleReply repliedState
    dsimp only
    split
    · exact changeState_eq hget _
    · rfl
  | _ => rfl

end

theorem nextDispatchable_eq_none {queue : DurableHandoffQueue D} (h : queue.nextDispatchable = none)
    (hget : queue.byCloid[cloid]? = some pending) : dispatchable pending.state = false := by
  unfold DurableHandoffQueue.nextDispatchable at h
  rw [Option.map_eq_none_iff, List.argmin_eq_none, List.filter_eq_nil_iff] at h
  exact Bool.not_eq_true _ ▸ h (cloid, pending) (ExtTreeMap.mem_toList_iff_getElem?_eq_some.mpr hget)

theorem nextDispatchable_eq_some {queue : DurableHandoffQueue D}
    (h : queue.nextDispatchable = some cloid) :
    ∃ pending, queue.byCloid[cloid]? = some pending ∧ dispatchable pending.state = true ∧
      ∀ (other : PlannedCloid) (waiting : PendingHandoff D),
        queue.byCloid[other]? = some waiting → dispatchable waiting.state = true →
          waiting.intent.reduceOnly = true → pending.intent.reduceOnly = true := by
  unfold DurableHandoffQueue.nextDispatchable at h
  obtain ⟨⟨first, pending⟩, hleast, rfl⟩ := Option.map_eq_some_iff.mp h
  obtain ⟨hmem, hdispatchable⟩ := List.mem_filter.mp (List.argmin_mem hleast)
  refine ⟨pending, ExtTreeMap.mem_toList_iff_getElem?_eq_some.mp hmem, hdispatchable, ?_⟩
  intro other waiting hget hwaiting hreduceOnly
  have hle := List.le_of_mem_argmin (List.mem_filter.mpr
    ⟨ExtTreeMap.mem_toList_iff_getElem?_eq_some.mpr hget, hwaiting⟩) hleast
  unfold DurableHandoffQueue.priority at hle
  rw [Prod.Lex.toLex_le_toLex] at hle
  rw [hreduceOnly] at hle
  cases hfirst : pending.intent.reduceOnly with
  | true => rfl
  | false =>
    rw [hfirst] at hle
    revert hle
    simp

variable [Decimal D]

/-- The request to reconcile an intent is written and the signer settles the intent, at once or,
where it does not know it, after the frame has been replayed. -/
def ReconcileAnswered (cloid : PlannedCloid) (intent : AuthorizedExecutionIntent D)
    (inputs : HandoffInputs D) : Prop :=
  inputs.requestWritten = .ok () ∧ ∃ reply, inputs.reply = .ok reply ∧
    (SettlesIntent cloid intent reply ∨ isNotFound cloid reply = true ∧ inputs.frameWritten = .ok () ∧
      ∃ second, inputs.secondReply = .ok second ∧ SettlesIntent cloid intent second)

def stateAfter (inputs : HandoffInputs D) (cloid : PlannedCloid) (pending : PendingHandoff D) :
    ObserverIntentState :=
  match pending.state with
  | .submissionUnknown =>
    match inputs.requestWritten, receiveReply inputs cloid .submissionUnknown with
    | .ok (), .ok reply => (repliedState cloid pending.intent reply).getD .submissionUnknown
    | _, _ => .submissionUnknown
  | .persisted =>
    match inputs.requestWritten with
    | .ok () => .submissionUnknown
    | .error _ => .persisted
  | .sent => .submissionUnknown
  | state => state

theorem dispatchable_stateAfter_iff {inputs : HandoffInputs D}
    (h : pending.state = .submissionUnknown) :
    dispatchable (stateAfter inputs cloid pending) = false ↔
      ReconcileAnswered cloid pending.intent inputs := by
  unfold stateAfter ReconcileAnswered receiveReply
  rw [h]
  cases hwritten : inputs.requestWritten with
  | error error => simp [dispatchable]
  | ok =>
    cases hreply : inputs.reply with
    | error error => simp [dispatchable, error_bind]
    | ok reply =>
      cases hfound : isNotFound cloid reply with
      | false =>
        rw [ok_bind, if_neg (by simp [hfound])]
        simp only [pure, Except.pure, Except.ok.injEq, exists_eq_left', true_and, hfound,
          Bool.false_eq_true, false_and, or_false, SettlesIntent]
        cases hstate : repliedState cloid pending.intent reply with
        | none => simp [dispatchable]
        | some state => simp [not_dispatchable_of_settled hstate]
      | true =>
        rw [ok_bind, if_pos (by simp [hfound])]
        simp only [Except.ok.injEq, exists_eq_left', true_and, not_settlesIntent_of_notFound hfound,
          false_or, hfound]
        cases hframe : inputs.frameWritten with
        | error error => simp [dispatchable, error_bind]
        | ok =>
          rw [ok_bind]
          cases hsecond : inputs.secondReply with
          | error error => simp [dispatchable]
          | ok second =>
            simp only [Except.ok.injEq, exists_eq_left', true_and, SettlesIntent]
            cases hstate : repliedState cloid pending.intent second with
            | none => simp [dispatchable]
            | some state => simp [not_dispatchable_of_settled hstate]

theorem stateAfter_of_unanswered {inputs : HandoffInputs D} (h : pending.state = .submissionUnknown)
    (hunanswered : ¬ ReconcileAnswered cloid pending.intent inputs) :
    stateAfter inputs cloid pending = .submissionUnknown := by
  have hdispatchable := mt (dispatchable_stateAfter_iff h).mp hunanswered
  unfold stateAfter at *
  rw [h] at *
  dsimp only at *
  split at hdispatchable
  · rename_i reply _ _
    cases hsettled : repliedState cloid pending.intent reply with
    | none => rfl
    | some state =>
      rw [hsettled, Option.getD_some, not_dispatchable_of_settled hsettled] at hdispatchable
      exact absurd rfl hdispatchable
  · rfl

section

variable {queue : DurableHandoffQueue D} {cloid : PlannedCloid} {pending : PendingHandoff D}

variable [DecimalText D] [JsonText]

theorem saveTo_eq_error (hget : queue.byCloid[cloid]? = some pending)
    (written : Except String Unit) : ∃ error, queue.saveTo written = .error error := by
  have hentries : queue.byCloid ≠ ∅ := by
    intro hempty
    rw [hempty, ExtTreeMap.getElem?_empty] at hget
    cases hget
  obtain ⟨message, hmessage⟩ := queue.persist_eq_error hentries
  refine ⟨.io message, ?_⟩
  unfold DurableHandoffQueue.saveTo
  rw [hmessage]
  rfl

theorem dispatchPersisted_of_failed {inputs : HandoffInputs D} {error : ObserverIpcError}
    {state : ObserverIntentState}
    (h : queue.handoff inputs cloid = (.error error, withState queue cloid pending state)) :
    (queue.dispatchPersisted inputs cloid).2 = withState queue cloid pending
      (if state = .sent then .submissionUnknown else state) := by
  unfold DurableHandoffQueue.dispatchPersisted
  rw [h]
  dsimp only
  rw [markDisconnect_eq (getElem?_withState state)]
  exact withState_withState _ _

/-- The handoff of an intent whose submission is unknown: the reply settles it or leaves it, and the
queue is not saved. -/
theorem handoff_of_unknown (hget : queue.byCloid[cloid]? = some pending)
    (hstate : pending.state = .submissionUnknown) (inputs : HandoffInputs D) :
    ∃ error, queue.handoff inputs cloid =
      (.error error, withState queue cloid pending (stateAfter inputs cloid pending)) := by
  have hself : withState queue cloid pending .submissionUnknown = queue :=
    hstate ▸ withState_self hget
  unfold DurableHandoffQueue.handoff DurableHandoffQueue.sendRequest stateAfter
  rw [hget]
  dsimp only
  rw [hstate]
  cases inputs.requestWritten with
  | error error => exact ⟨error, by rw [hself]⟩
  | ok =>
    cases receiveReply inputs cloid .submissionUnknown with
    | error error => exact ⟨error, by rw [hself]⟩
    | ok reply =>
      dsimp only
      rw [settleReply_eq hget]
      cases repliedState cloid pending.intent reply with
      | none => exact ⟨.unexpectedResponse, by rw [Option.getD_none, hself]⟩
      | some state =>
        have hsettled : (withState queue cloid pending state).byCloid[cloid]? = _ :=
          getElem?_withState state
        obtain ⟨error, herror⟩ := saveTo_eq_error hsettled inputs.settledSaved
        exact ⟨error, by dsimp only; rw [herror]; rfl⟩

theorem handoff_of_submission (hget : queue.byCloid[cloid]? = some pending)
    (hstate : pending.state = .persisted ∨ pending.state = .sent) (inputs : HandoffInputs D) :
    ∃ error, queue.handoff inputs cloid = (.error error, withState queue cloid pending
      (match inputs.requestWritten with
      | .ok () => .sent
      | .error _ => pending.state)) := by
  have hself := withState_self hget
  unfold DurableHandoffQueue.handoff
  rw [hget]
  dsimp only
  cases hwritten : inputs.requestWritten with
  | error error =>
    have hsend : queue.sendRequest inputs cloid pending = (.error error, queue) := by
      unfold DurableHandoffQueue.sendRequest
      rcases hstate with hstate | hstate
      · rw [hstate, hwritten]
      · rw [hstate, hwritten]
    exact ⟨error, by rw [hsend, hself]⟩
  | ok =>
    have hsend : queue.sendRequest inputs cloid pending =
        ((withState queue cloid pending .sent).saveTo inputs.sentSaved,
          withState queue cloid pending .sent) := by
      unfold DurableHandoffQueue.sendRequest
      rcases hstate with hstate | hstate
      · rw [hstate, hwritten]
        rfl
      · rw [hstate, hwritten]
        rfl
    have hsent : (withState queue cloid pending .sent).byCloid[cloid]? = _ :=
      getElem?_withState .sent
    obtain ⟨error, herror⟩ := saveTo_eq_error hsent inputs.sentSaved
    exact ⟨error, by rw [hsend]; dsimp only; rw [herror]⟩

theorem dispatchPersisted_eq (hget : queue.byCloid[cloid]? = some pending)
    (hdispatchable : dispatchable pending.state = true) (inputs : HandoffInputs D) :
    (queue.dispatchPersisted inputs cloid).2 =
      withState queue cloid pending (stateAfter inputs cloid pending) := by
  cases hstate : pending.state with
  | submissionUnknown =>
    obtain ⟨error, herror⟩ := handoff_of_unknown hget hstate inputs
    rw [dispatchPersisted_of_failed herror, if_neg]
    unfold stateAfter
    rw [hstate]
    dsimp only
    intro hsent
    split at hsent
    · rename_i reply _ _
      cases hsettled : repliedState cloid pending.intent reply with
      | none =>
        rw [hsettled] at hsent
        cases hsent
      | some state =>
        have hleft := not_dispatchable_of_settled hsettled
        rw [hsettled, Option.getD_some] at hsent
        rw [hsent] at hleft
        cases hleft
    · cases hsent
  | persisted =>
    obtain ⟨error, herror⟩ := handoff_of_submission hget (.inl hstate) inputs
    rw [dispatchPersisted_of_failed herror]
    unfold stateAfter
    rw [hstate]
    cases inputs.requestWritten <;> rfl
  | sent =>
    obtain ⟨error, herror⟩ := handoff_of_submission hget (.inr hstate) inputs
    rw [dispatchPersisted_of_failed herror]
    unfold stateAfter
    rw [hstate]
    cases inputs.requestWritten <;> rfl
  | _ =>
    rw [hstate] at hdispatchable
    cases hdispatchable

end

section

variable {connection : PlannedCloid → ℕ → HandoffInputs D} {cloid : PlannedCloid}
  {pending : PendingHandoff D}

def entryAfter (connection : PlannedCloid → ℕ → HandoffInputs D) (cloid : PlannedCloid)
    (pending : PendingHandoff D) : ℕ → PendingHandoff D
  | 0 => pending
  | handoffs + 1 =>
    let entry := entryAfter connection cloid pending handoffs
    { entry with state := stateAfter (connection cloid handoffs) cloid entry }

/-- A handoff after others reconciles the intent: its frame has been written, or its submission was
unknown from the beginning. -/
def Reconciles (connection : PlannedCloid → ℕ → HandoffInputs D) (cloid : PlannedCloid)
    (pending : PendingHandoff D) (handoffs : ℕ) : Prop :=
  match pending.state with
  | .submissionUnknown => True
  | .sent => 0 < handoffs
  | _ => ∃ earlier < handoffs, (connection cloid earlier).requestWritten = .ok ()

/-- Some handoff of an intent reconciles it and is answered. -/
def EventuallyAnswered (connection : PlannedCloid → ℕ → HandoffInputs D) (cloid : PlannedCloid)
    (pending : PendingHandoff D) : Prop :=
  ∃ handoffs, Reconciles connection cloid pending handoffs ∧
    ReconcileAnswered cloid pending.intent (connection cloid handoffs)

theorem entryAfter_intent (handoffs : ℕ) :
    (entryAfter connection cloid pending handoffs).intent = pending.intent ∧
      (entryAfter connection cloid pending handoffs).observerSequence =
        pending.observerSequence := by
  induction handoffs with
  | zero => exact ⟨rfl, rfl⟩
  | succ handoffs ih => exact ih

theorem dispatchable_of_later {handoffs : ℕ}
    (h : dispatchable (entryAfter connection cloid pending (handoffs + 1)).state = true) :
    dispatchable (entryAfter connection cloid pending handoffs).state = true := by
  rw [entryAfter] at h
  unfold stateAfter at h
  cases hstate : (entryAfter connection cloid pending handoffs).state with
  | persisted => rfl
  | sent => rfl
  | submissionUnknown => rfl
  | _ =>
    rw [hstate] at h
    cases h

theorem reconciles_succ {handoffs : ℕ} (h : Reconciles connection cloid pending handoffs) :
    Reconciles connection cloid pending (handoffs + 1) := by
  unfold Reconciles at *
  cases hstate : pending.state with
  | submissionUnknown => trivial
  | sent => exact Nat.succ_pos handoffs
  | _ =>
    rw [hstate] at h
    obtain ⟨earlier, hearlier, hwritten⟩ := h
    exact ⟨earlier, hearlier.trans (Nat.lt_succ_self handoffs), hwritten⟩

theorem state_of_unanswered (hdispatchable : dispatchable pending.state = true) {handoffs : ℕ}
    (hunanswered : ∀ earlier < handoffs, Reconciles connection cloid pending earlier →
      ¬ ReconcileAnswered cloid pending.intent (connection cloid earlier)) :
    (Reconciles connection cloid pending handoffs →
      (entryAfter connection cloid pending handoffs).state = .submissionUnknown) ∧
    (¬ Reconciles connection cloid pending handoffs →
      (entryAfter connection cloid pending handoffs).state = pending.state) := by
  induction handoffs with
  | zero =>
    refine ⟨fun hreconciles => ?_, fun _ => rfl⟩
    unfold Reconciles at hreconciles
    cases hstate : pending.state with
    | submissionUnknown => exact hstate
    | sent =>
      rw [hstate] at hreconciles
      exact absurd hreconciles (Nat.lt_irrefl 0)
    | persisted =>
      rw [hstate] at hreconciles
      obtain ⟨earlier, hearlier, -⟩ := hreconciles
      exact absurd hearlier (Nat.not_lt_zero earlier)
    | _ =>
      rw [hstate] at hdispatchable
      cases hdispatchable
  | succ handoffs ih =>
    obtain ⟨hunknown, hsame⟩ := ih fun earlier hearlier =>
      hunanswered earlier (hearlier.trans (Nat.lt_succ_self handoffs))
    by_cases hreconciles : Reconciles connection cloid pending handoffs
    · -- The intent is reconciled and not answered.
      have hstays : (entryAfter connection cloid pending (handoffs + 1)).state =
          .submissionUnknown := by
        refine stateAfter_of_unanswered (hunknown hreconciles) ?_
        rw [(entryAfter_intent handoffs).1]
        exact hunanswered handoffs (Nat.lt_succ_self handoffs) hreconciles
      exact ⟨fun _ => hstays, fun hnot => absurd (reconciles_succ hreconciles) hnot⟩
    · have hstate := hsame hreconciles
      rw [entryAfter]
      unfold stateAfter Reconciles
      rw [hstate]
      unfold Reconciles at hreconciles
      cases hwas : pending.state with
      | submissionUnknown =>
        rw [hwas] at hreconciles
        exact absurd trivial hreconciles
      | sent => exact ⟨fun _ => rfl, fun hnot => absurd (Nat.succ_pos handoffs) hnot⟩
      | persisted =>
        rw [hwas] at hreconciles
        cases hwritten : (connection cloid handoffs).requestWritten with
        | ok =>
          exact ⟨fun _ => rfl, fun hnot => absurd ⟨handoffs, Nat.lt_succ_self handoffs, hwritten⟩ hnot⟩
        | error error =>
          refine ⟨fun hlater => absurd ?_ hreconciles, fun _ => rfl⟩
          obtain ⟨earlier, hearlier, hearlierWritten⟩ := hlater
          rcases Nat.lt_succ_iff_lt_or_eq.mp hearlier with hbefore | rfl
          · exact ⟨earlier, hbefore, hearlierWritten⟩
          · rw [hwritten] at hearlierWritten
            cases hearlierWritten
      | _ =>
        rw [hwas] at hdispatchable
        cases hdispatchable

theorem settled_iff (hdispatchable : dispatchable pending.state = true) :
    (∃ handoffs, dispatchable (entryAfter connection cloid pending handoffs).state = false) ↔
      EventuallyAnswered connection cloid pending := by
  constructor
  · rintro ⟨handoffs, hsettled⟩
    by_contra hnever
    have hstate := @state_of_unanswered _ _ connection cloid pending hdispatchable handoffs
      fun earlier _ hreconciles hanswered => hnever ⟨earlier, hreconciles, hanswered⟩
    by_cases hreconciles : Reconciles connection cloid pending handoffs
    · rw [hstate.1 hreconciles] at hsettled
      cases hsettled
    · rw [hstate.2 hreconciles, hdispatchable] at hsettled
      cases hsettled
  · intro heventually
    classical
    -- Before the first answer the submission of the intent is unknown.
    obtain ⟨hreconciles, hanswered⟩ := Nat.find_spec heventually
    have hstate := (state_of_unanswered hdispatchable fun earlier hearlier hbefore hearlierAnswered =>
      Nat.find_min heventually hearlier ⟨hbefore, hearlierAnswered⟩).1 hreconciles
    refine ⟨Nat.find heventually + 1, (dispatchable_stateAfter_iff hstate).mpr ?_⟩
    rw [(entryAfter_intent _).1]
    exact hanswered

end

section

variable (connection : PlannedCloid → ℕ → HandoffInputs D) (queue : DurableHandoffQueue D)

def queueAfter (attempts : PlannedCloid → ℕ) : DurableHandoffQueue D :=
  { queue with byCloid := queue.byCloid.map fun cloid pending =>
      entryAfter connection cloid pending (attempts cloid) }

variable {connection queue} in
theorem getElem?_queueAfter {attempts : PlannedCloid → ℕ} {cloid : PlannedCloid}
    {entry : PendingHandoff D} :
    (queueAfter connection queue attempts).byCloid[cloid]? = some entry ↔
      ∃ pending, queue.byCloid[cloid]? = some pending ∧
        entryAfter connection cloid pending (attempts cloid) = entry := by
  unfold queueAfter
  rw [ExtTreeMap.getElem?_map, Option.map_eq_some_iff]

def reduceOnlyAt (cloid : PlannedCloid) : Prop :=
  ∃ pending, queue.byCloid[cloid]? = some pending ∧ pending.intent.reduceOnly = true

def workerServer : Server PlannedCloid where
  items := queue.byCloid.keys.toFinset
  waiting cloid handoffs := ∃ pending, queue.byCloid[cloid]? = some pending ∧
    dispatchable (entryAfter connection cloid pending handoffs).state = true
  before first second := reduceOnlyAt queue second → reduceOnlyAt queue first
  next attempts := (queueAfter connection queue attempts).nextDispatchable
  next_none attempts h cloid _ := by
    rintro ⟨pending, hget, hwaiting⟩
    have hsettled := nextDispatchable_eq_none h (getElem?_queueAfter.mpr ⟨pending, hget, rfl⟩)
    rw [hwaiting] at hsettled
    cases hsettled
  next_some attempts cloid h := by
    obtain ⟨entry, hentry, hdispatchable, hfirst⟩ := nextDispatchable_eq_some h
    obtain ⟨pending, hget, rfl⟩ := getElem?_queueAfter.mp hentry
    refine ⟨?_, ⟨pending, hget, hdispatchable⟩, ?_⟩
    · rw [List.mem_toFinset, ExtTreeMap.mem_keys]
      exact (mem_iff_exists _ _).mpr ⟨pending, hget⟩
    · rintro other - ⟨waiting, hwaiting, hstill⟩ ⟨same, hsame, hreduceOnly⟩
      rw [hwaiting, Option.some.injEq] at hsame
      subst hsame
      refine ⟨pending, hget, ?_⟩
      rw [← (entryAfter_intent (attempts cloid)).1]
      refine hfirst other _ (getElem?_queueAfter.mpr ⟨waiting, hwaiting, rfl⟩) hstill ?_
      rw [(entryAfter_intent (attempts other)).1]
      exact hreduceOnly

variable {connection queue} in
theorem withState_queueAfter {attempts next : PlannedCloid → ℕ} {cloid : PlannedCloid}
    {pending : PendingHandoff D} (hget : queue.byCloid[cloid]? = some pending)
    (hcloid : next cloid = attempts cloid + 1)
    (hothers : ∀ other, cloid ≠ other → next other = attempts other) :
    withState (queueAfter connection queue attempts) cloid
        (entryAfter connection cloid pending (attempts cloid))
        (stateAfter (connection cloid (attempts cloid)) cloid
          (entryAfter connection cloid pending (attempts cloid))) =
      queueAfter connection queue next := by
  unfold withState queueAfter
  congr 1
  apply ExtTreeMap.ext_getElem?
  intro other
  rw [getElem?_insert_eq, ExtTreeMap.getElem?_map, ExtTreeMap.getElem?_map]
  by_cases hsame : cloid = other
  · subst hsame
    rw [if_pos rfl, hget, Option.map_some, hcloid]
    rfl
  · rw [if_neg hsame, hothers other hsame]

variable [DecimalText D] [JsonText]

theorem workerLoop_eq (rounds : ℕ) :
    (WorkerLoop.step connection)^[rounds] ⟨queue, []⟩ =
      ⟨queueAfter connection queue fun cloid =>
          ((workerServer connection queue).log rounds).count cloid,
        (workerServer connection queue).log rounds⟩ := by
  induction rounds with
  | zero =>
    have hsame : (queue.byCloid.map fun cloid pending => entryAfter connection cloid pending 0) =
        queue.byCloid := by
      apply ExtTreeMap.ext_getElem?
      intro cloid
      rw [ExtTreeMap.getElem?_map]
      cases queue.byCloid[cloid]? <;> rfl
    refine congrArg (fun queue => WorkerLoop.mk queue []) ?_
    show queue = { queue with
      byCloid := queue.byCloid.map fun cloid pending => entryAfter connection cloid pending 0 }
    rw [hsame]
  | succ rounds ih =>
    rw [Function.iterate_succ_apply', ih]
    unfold WorkerLoop.step
    cases hnext : (queueAfter connection queue fun cloid =>
        ((workerServer connection queue).log rounds).count cloid).nextDispatchable with
    | none =>
      have hended : (workerServer connection queue).Ended rounds := hnext
      rw [Server.log_succ_of_ended hended]
    | some cloid =>
      have hserved : (workerServer connection queue).next (fun cloid =>
          ((workerServer connection queue).log rounds).count cloid) = some cloid := hnext
      rw [Server.log_succ_of_next hserved]
      obtain ⟨entry, hentry, hdispatchable, -⟩ := nextDispatchable_eq_some hnext
      obtain ⟨pending, hget, rfl⟩ := getElem?_queueAfter.mp hentry
      dsimp only
      rw [dispatchPersisted_eq hentry hdispatchable]
      refine congrArg (fun queue => WorkerLoop.mk queue _) (withState_queueAfter hget ?_ ?_)
      · rw [List.count_append, List.count_singleton_self]
      · intro other hother
        rw [List.count_append, List.count_singleton, if_neg (by simpa using hother), Nat.add_zero]

/-- One wake-up makes progress: the inner loop ends, it has attempted every intent that was
dispatchable at its start, and those for reductions before the others. -/
def WakeUpProgresses : Prop :=
  ∃ rounds, ∃ worker, worker = (WorkerLoop.step connection)^[rounds] ⟨queue, []⟩ ∧
    worker.queue.nextDispatchable = none ∧
    (∀ (cloid : PlannedCloid) (pending : PendingHandoff D), queue.byCloid[cloid]? = some pending →
      dispatchable pending.state = true → cloid ∈ worker.attempts) ∧
    worker.attempts.Pairwise fun first second =>
      reduceOnlyAt queue second → reduceOnlyAt queue first

/-- **The progress of a wake-up.**  The inner loop ends, and has then attempted every dispatchable
intent, exactly when every dispatchable intent is eventually answered. -/
theorem wake_up_progresses_iff :
    WakeUpProgresses connection queue ↔
      ∀ (cloid : PlannedCloid) (pending : PendingHandoff D), queue.byCloid[cloid]? = some pending →
        dispatchable pending.state = true → EventuallyAnswered connection cloid pending := by
  let server := workerServer connection queue
  have hitem {cloid : PlannedCloid} {pending : PendingHandoff D}
      (hget : queue.byCloid[cloid]? = some pending) : cloid ∈ server.items := by
    show cloid ∈ queue.byCloid.keys.toFinset
    rw [List.mem_toFinset, ExtTreeMap.mem_keys]
    exact (mem_iff_exists _ _).mpr ⟨pending, hget⟩
  constructor
  · rintro ⟨rounds, worker, hworker, hended, -, -⟩ cloid pending hget hdispatchable
    rw [hworker, workerLoop_eq] at hended
    refine (settled_iff hdispatchable).mp ⟨(server.log rounds).count cloid, ?_⟩
    exact nextDispatchable_eq_none hended (getElem?_queueAfter.mpr ⟨pending, hget, rfl⟩)
  · intro hanswered
    have hstops : ∀ cloid ∈ server.items, ∃ handoffs, ¬ server.waiting cloid handoffs := by
      intro cloid hcloid
      replace hcloid : cloid ∈ queue.byCloid.keys.toFinset := hcloid
      rw [List.mem_toFinset, ExtTreeMap.mem_keys] at hcloid
      obtain ⟨pending, hget⟩ := (mem_iff_exists _ _).mp hcloid
      by_cases hdispatchable : dispatchable pending.state = true
      · obtain ⟨handoffs, hsettled⟩ :=
          (settled_iff hdispatchable).mpr (hanswered cloid pending hget hdispatchable)
        refine ⟨handoffs, ?_⟩
        rintro ⟨same, hsame, hwaiting⟩
        rw [hget, Option.some.injEq] at hsame
        subst hsame
        rw [hsettled] at hwaiting
        cases hwaiting
      · refine ⟨0, ?_⟩
        rintro ⟨same, hsame, hwaiting⟩
        rw [hget, Option.some.injEq] at hsame
        subst hsame
        exact hdispatchable hwaiting
    obtain ⟨rounds, hended⟩ := Server.ended_iff.mpr hstops
    refine ⟨rounds, _, rfl, ?_, ?_, ?_⟩
    · rw [workerLoop_eq]
      exact hended
    · intro cloid pending hget hdispatchable
      rw [workerLoop_eq]
      exact Server.mem_log_of_ended hended (hitem hget) ⟨pending, hget, hdispatchable⟩
    · rw [workerLoop_eq]
      have hfalls : ∀ cloid handoffs, server.waiting cloid (handoffs + 1) →
          server.waiting cloid handoffs := by
        rintro cloid handoffs ⟨pending, hget, hwaiting⟩
        exact ⟨pending, hget, dispatchable_of_later hwaiting⟩
      exact Server.pairwise_log hfalls rounds

end

def wholeEnvelope : AuthorizedExecutionIntent ℤ where
  schemaVersion := 1
  decisionId := Bytes.replicate 32 0
  targetVersion := 1
  rootCloid := Bytes.replicate 16 1
  plannedCloid := Bytes.replicate 16 1
  parentCloid := none
  continuationGeneration := 0
  asset := "BTC"
  assetIndex := 0
  side := .buy
  quantity := 1
  limitPrice := 100
  reduceOnly := false
  timeInForce := .ioc
  projectedPortfolioHash := Bytes.replicate 32 0
  riskPolicyHash := Bytes.replicate 32 0
  configurationHash := Bytes.replicate 32 0
  marketRulesHash := Bytes.replicate 32 0
  dynamicFloorPolicyHash := Bytes.replicate 32 0
  iocPolicyHash := Bytes.replicate 32 0
  observerReleaseHash := Bytes.replicate 32 0
  signerReleaseHash := Bytes.replicate 32 0
  releaseManifestHash := Bytes.replicate 32 0
  decisionReferencePrice := 100
  expectedCommittedBefore := 0
  expectedCommittedAfter := 100
  decisionTimestampMs := 1
  expiresAt := 1000
  authorization := {
    nowMono := 1
    deployedRiskPolicyHash := Bytes.replicate 32 0
    projectionInput := {
      currentEquity := 1000
      curveLeverage := 10
      globalRiskScale := 1
      maxSingleAssetEquityPct := 1
      maxNetEquityPct := 1
      filledPositions := ∅
      filledPositionStateComplete := true
      acknowledgedOpenOrders := []
      openOrderStateComplete := true
      unconstrainedTargets := ExtTreeMap.ofList [("BTC", 100)] compare
      marketRules := ExtTreeMap.ofList [("BTC", ⟨100, 1, 1⟩)] compare }
    exchangeMinimumNotional := 10 }
  canonicalHash := Bytes.replicate 32 0

def brokenConnection (_ : PlannedCloid) (_ : ℕ) : HandoffInputs ℤ where
  requestWritten := .error (.io "broken pipe")
  sentSaved := .ok ()
  reply := .error (.codec .timeout)
  frameWritten := .error (.io "broken pipe")
  secondReply := .error (.codec .timeout)
  settledSaved := .ok ()

theorem worker_never_ends :
    ¬ ∀ [JsonText] (connection : PlannedCloid → ℕ → HandoffInputs ℤ)
        (queue : DurableHandoffQueue ℤ), WakeUpProgresses connection queue := by
  intro h
  let sha : Sha256 := ⟨prefixDigest⟩
  let encoding : IntentEncoding ℤ := ⟨fun _ => .ok []⟩
  let codec : MessagePack := ⟨MessagePack.pack, MessagePack.parse⟩
  let files : JsonText := ⟨JsonFormat.write, JsonFormat.parse⟩
  have hqueued : ((DurableHandoffQueue.new 4).toOption.bind fun queue =>
      (queue.enqueue wholeEnvelope).2.byCloid[wholeEnvelope.plannedCloid]?.map
        PendingHandoff.state) = some .persisted := by
    decide +kernel
  obtain ⟨queue, -, hqueued⟩ := Option.bind_eq_some_iff.mp hqueued
  obtain ⟨pending, hget, hstate⟩ := Option.map_eq_some_iff.mp hqueued
  obtain ⟨rounds, worker, hworker, hended, -, -⟩ :=
    h brokenConnection (queue.enqueue wholeEnvelope).2
  rw [hworker, workerLoop_eq] at hended
  have hsettled := nextDispatchable_eq_none hended (getElem?_queueAfter.mpr ⟨pending, hget, rfl⟩)
  have hpersisted (handoffs : ℕ) : (entryAfter brokenConnection wholeEnvelope.plannedCloid pending
      handoffs).state = .persisted := by
    induction handoffs with
    | zero => exact hstate
    | succ handoffs ih =>
      rw [entryAfter]
      unfold stateAfter
      rw [ih]
      rfl
  rw [hpersisted] at hsettled
  cases hsettled

end CopyTrade.Analysis
