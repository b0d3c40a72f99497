import CopyTrade.Analysis.Replay.DeliveryOrder
import CopyTrade.Analysis.Replay.LedgerAgreement

/-!
# Terminal intents of the observer

The registry never leaves a terminal state, so the events of its history never take a terminal
intent back; the event of a fill does, when it comes after the terminal event of its intent.  A
synchronisation offers the whole history before the fills.
-/

namespace CopyTrade.Analysis

open Foundation Model
open Std (ExtTreeMap ExtTreeSet)

variable {D : Type} [Decimal D]

/-- The states `Reconciled`, `Cancelled` and `Rejected`. -/
def terminalIntent : ObserverIntentState → Bool
  | .reconciled | .cancelled | .rejected => true
  | _ => false

def payloadIntent : VerifiedReconciliationPayload D → Option (PlannedCloid × ObserverIntentState)
  | .intentAccepted identity _ => some (identity.plannedCloid, .acceptedBySigner)
  | .submissionStarted cloid => some (cloid, .sent)
  | .submissionUnknown cloid => some (cloid, .submissionUnknown)
  | .orderAcknowledged cloid _ => some (cloid, .acknowledgedByExchange)
  | .orderRejected cloid _ => some (cloid, .rejected)
  | .orderCancelled cloid _ => some (cloid, .cancelled)
  | .orderPartiallyFilled cloid _ _ => some (cloid, .partiallyFilled)
  | .fill fill => some (fill.identity.cloid, .partiallyFilled)
  | .funding _ | .positionSnapshot _ _ | .equitySnapshot _ _ => none
  | .reconciled cloid => some (cloid, .reconciled)
  | .authorizedNotSubmitted cloid => some (cloid, .authorizedNotSubmitted)

/-- Every intent that is terminal before is terminal after. -/
def StaysTerminal (before after : ProductionTradingState D) : Prop :=
  ∀ (cloid : PlannedCloid) (state : ObserverIntentState), before.intents[cloid]? = some state →
    terminalIntent state = true →
      ∃ next, after.intents[cloid]? = some next ∧ terminalIntent next = true

omit [Decimal D] in
theorem StaysTerminal.refl (state : ProductionTradingState D) : StaysTerminal state state :=
  fun _ current hget hterminal => ⟨current, hget, hterminal⟩

omit [Decimal D] in
theorem StaysTerminal.trans {first second third : ProductionTradingState D}
    (hfirst : StaysTerminal first second) (hsecond : StaysTerminal second third) :
    StaysTerminal first third := by
  intro cloid state hget hterminal
  obtain ⟨next, hnext, hnextTerminal⟩ := hfirst cloid state hget hterminal
  exact hsecond cloid next hnext hnextTerminal

section

variable {state next : ProductionTradingState D}

theorem applyPayload_intents [Sha256] {payload : VerifiedReconciliationPayload D}
    (h : state.applyPayload payload = .ok next) :
    next.intents = state.intents ∨ ∃ cloid target, payloadIntent payload = some (cloid, target) ∧
      next.intents = state.intents.insert cloid target := by
  have hrequire : ∀ {cloid target}, state.requireIntent cloid target = .ok next →
      next.intents = state.intents.insert cloid target := by
    intro cloid target h
    obtain ⟨-, rfl⟩ := requireIntent_eq_ok_iff.mp h
    rfl
  cases payload with
  | intentAccepted identity sequence =>
    cases h
    exact .inr ⟨_, _, rfl, rfl⟩
  | fill fill =>
    obtain ⟨⟨result, live⟩, hfill, h⟩ := of_bind h
    cases result with
    | alreadyApplied =>
      cases h
      exact .inl rfl
    | applied accounting closed =>
      obtain ⟨middle, hmiddle, h⟩ := of_bind h
      obtain ⟨-, rfl⟩ := requireIntent_eq_ok_iff.mp hmiddle
      cases h
      exact .inr ⟨_, _, rfl, rfl⟩
  | funding event =>
    obtain ⟨⟨result, live⟩, hfunding, h⟩ := of_bind h
    cases result with
    | alreadyApplied =>
      cases h
      exact .inl rfl
    | applied accounting =>
      cases h
      exact .inl rfl
  | positionSnapshot positions observedAt =>
    cases h
    obtain ⟨mismatches, blocked, heq⟩ := compareSnapshot_frame positions
    exact .inl (by rw [heq])
  | equitySnapshot equity observedAt =>
    simp only [ProductionTradingState.applyPayload] at h
    split at h
    · obtain ⟨live, hlive, h⟩ := of_bind h
      cases h
      exact .inl rfl
    · cases h
      exact .inl rfl
  | _ => exact .inr ⟨_, _, rfl, hrequire h⟩

end

/-- `k` events have been delivered in order; behind one that failed the others only wait. -/
structure Fed (state : ProductionTradingState D) (k : ℕ) : Prop where
  highest : state.highestContiguousSignerSequence ≤ k
  buffer : ∀ sequence ∈ state.reorderBuffer,
    state.highestContiguousSignerSequence + 1 < sequence ∧ sequence ≤ k

section

variable [Sha256]

variable {state : ProductionTradingState D}

theorem drainBuffer_of_empty {rounds : ℕ} (h : state.reorderBuffer = ∅) :
    (ProductionTradingState.drainBuffer rounds state).2 = state := by
  cases rounds with
  | zero => rfl
  | succ rounds =>
    unfold ProductionTradingState.drainBuffer
    rw [h]
    cases checkedAddU64 state.highestContiguousSignerSequence 1 with
    | none => rfl
    | some next => rfl

omit [Decimal D] [Sha256] in
theorem Fed.start (live : LiveTradingState D) : Fed (ProductionTradingState.new live) 0 := by
  refine ⟨le_refl 0, ?_⟩
  intro sequence hmem
  exact absurd hmem ExtTreeMap.not_mem_empty

variable [PayloadEncoding D]

variable {event : VerifiedReconciliationEvent D}

theorem Fed.deliver {k : ℕ} (h : Fed state k) (hsequence : event.identity.sequence = k + 1) :
    Fed (Analysis.deliver state event) (k + 1) ∧
      ((Analysis.deliver state event).intents = state.intents ∨
        ∃ next, state.applyPayload event.payload = .ok next ∧
          (Analysis.deliver state event).intents = next.intents) := by
  have hhighest := h.highest
  have hstays : Fed state (k + 1) := by
    refine ⟨hhighest.trans (Nat.le_succ k), ?_⟩
    intro sequence hmem
    have := h.buffer sequence hmem
    omega
  have hsame : Fed state (k + 1) ∧ (state.intents = state.intents ∨
      ∃ next, state.applyPayload event.payload = .ok next ∧ state.intents = next.intents) :=
    ⟨hstays, .inl rfl⟩
  unfold Analysis.deliver ProductionTradingState.applyReconciliationEvent
  dsimp only
  split
  · exact hsame
  split
  · exact hsame
  split
  · split
    · exact hsame
    · exact hsame
  split
  · exact hsame
  rename_i hlater
  split
  · exact hsame
  rename_i turn hturn
  obtain rfl : turn = state.highestContiguousSignerSequence + 1 := by
    unfold checkedAddU64 at hturn
    split at hturn
    · exact (Option.some.inj hturn).symm
    · cases hturn
  split
  · rename_i hahead
    rw [bne_iff_ne] at hahead
    split
    · exact hsame
    split
    · split
      · exact hsame
      · exact hsame
    -- The event is put aside.
    refine ⟨⟨hstays.highest, ?_⟩, .inl rfl⟩
    intro sequence hmem
    rw [ExtTreeMap.mem_insert, Std.LawfulEqOrd.compare_eq_iff_eq] at hmem
    show state.highestContiguousSignerSequence + 1 < sequence ∧ sequence ≤ k + 1
    rcases hmem with rfl | hmem
    · omega
    · exact hstays.buffer sequence hmem
  · rename_i hnext
    rw [Bool.not_eq_true, bne_eq_false_iff_eq] at hnext
    have hempty : state.reorderBuffer = ∅ := by
      apply ExtTreeMap.ext_getElem?
      intro sequence
      rw [ExtTreeMap.getElem?_empty]
      by_contra hsome
      have hmem : sequence ∈ state.reorderBuffer := by
        rw [ExtTreeMap.mem_iff_isSome_getElem?]
        exact Option.isSome_iff_ne_none.mpr hsome
      have := h.buffer sequence hmem
      omega
    split
    · exact hsame
    · rename_i applied hstep
      obtain ⟨hbuffer, hreached, -⟩ := applyContiguous_eq_ok hstep
      have hdrain : (ProductionTradingState.drainBuffer (applied.reorderBuffer.size + 1)
          applied).2 = applied := drainBuffer_of_empty (hbuffer.trans hempty)
      generalize ProductionTradingState.drainBuffer (applied.reorderBuffer.size + 1) applied =
        outcome at hdrain
      obtain ⟨result, drained⟩ := outcome
      obtain rfl : drained = applied := hdrain
      have hfed : Fed drained (k + 1) := by
        refine ⟨by omega, ?_⟩
        intro sequence hmem
        rw [hbuffer, hempty] at hmem
        exact absurd hmem ExtTreeMap.not_mem_empty
      obtain ⟨next, hpayload, hpure⟩ := of_bind hstep
      rw [pure_eq_ok_iff] at hpure
      have hintents : drained.intents = next.intents := by
        rw [← hpure]
      cases result with
      | error error => exact ⟨hfed, .inr ⟨next, hpayload, hintents⟩⟩
      | ok _ => exact ⟨hfed, .inr ⟨next, hpayload, hintents⟩⟩

def Settles (earlier later : VerifiedReconciliationPayload D) : Prop :=
  ∀ (cloid : PlannedCloid) (first second : ObserverIntentState),
    payloadIntent earlier = some (cloid, first) → terminalIntent first = true →
      payloadIntent later = some (cloid, second) → terminalIntent second = true

omit [Decimal D] [Sha256] [PayloadEncoding D] in
theorem settles_of_not_terminal {earlier later : VerifiedReconciliationPayload D}
    (h : ∀ (cloid : PlannedCloid) (state : ObserverIntentState),
      payloadIntent earlier = some (cloid, state) → terminalIntent state = false) :
    Settles earlier later := by
  intro cloid first second hfirst hterminal
  rw [h cloid first hfirst] at hterminal
  cases hterminal

def SetBy (events : List (VerifiedReconciliationEvent D)) (state : ProductionTradingState D) :
    Prop :=
  ∀ (cloid : PlannedCloid) (current : ObserverIntentState),
    state.intents[cloid]? = some current → terminalIntent current = true →
      ∃ event ∈ events, ∃ first, payloadIntent event.payload = some (cloid, first) ∧
        terminalIntent first = true

theorem Fed.settles {before : List (VerifiedReconciliationEvent D)} (hfed : Fed state before.length)
    (hset : SetBy before state) (hsequence : event.identity.sequence = before.length + 1)
    (hsettles : ∀ earlier ∈ before, Settles earlier.payload event.payload) :
    SetBy (before ++ [event]) (Analysis.deliver state event) ∧
      StaysTerminal state (Analysis.deliver state event) := by
  have hkept : ∀ (cloid : PlannedCloid) (current : ObserverIntentState),
      state.intents[cloid]? = some current → terminalIntent current = true →
        ∃ earlier ∈ before ++ [event], ∃ first,
          payloadIntent earlier.payload = some (cloid, first) ∧ terminalIntent first = true := by
    intro cloid current hget hterminal
    obtain ⟨earlier, hmem, hearlier⟩ := hset cloid current hget hterminal
    exact ⟨earlier, List.mem_append_left _ hmem, hearlier⟩
  have hsame : (Analysis.deliver state event).intents = state.intents →
      SetBy (before ++ [event]) (Analysis.deliver state event) ∧
        StaysTerminal state (Analysis.deliver state event) := by
    intro hintents
    refine ⟨?_, ?_⟩
    · intro cloid current hget
      rw [hintents] at hget
      exact hkept cloid current hget
    · intro cloid current hget hterminal
      exact ⟨current, by rw [hintents]; exact hget, hterminal⟩
  rcases (hfed.deliver hsequence).2 with hintents | ⟨next, hpayload, hintents⟩
  · exact hsame hintents
  rcases applyPayload_intents hpayload with hunchanged | ⟨cloid, target, htarget, hinsert⟩
  · exact hsame (hintents.trans hunchanged)
  rw [hinsert] at hintents
  refine ⟨?_, ?_⟩
  · intro key current hget hterminal
    rw [hintents, getElem?_insert_eq] at hget
    split at hget
    · rename_i hkey
      cases hget
      subst hkey
      exact ⟨event, by simp, target, htarget, hterminal⟩
    · exact hkept key current hget hterminal
  · intro key current hget hterminal
    rw [hintents, getElem?_insert_eq]
    by_cases hkey : cloid = key
    · subst hkey
      obtain ⟨earlier, hmem, first, hfirst, hfirstTerminal⟩ := hset cloid current hget hterminal
      rw [if_pos rfl]
      exact ⟨target, rfl, hsettles earlier hmem cloid first target hfirst hfirstTerminal htarget⟩
    · rw [if_neg hkey]
      exact ⟨current, hget, hterminal⟩

section

variable {live : LiveTradingState D} {events : List (VerifiedReconciliationEvent D)}

variable {before : List (VerifiedReconciliationEvent D)}

theorem settles_next
    (hsequence : ∀ (k : ℕ) (event : VerifiedReconciliationEvent D), events[k]? = some event →
      event.identity.sequence = k + 1)
    (hsettles : (events.map VerifiedReconciliationEvent.payload).Pairwise Settles)
    {state : ProductionTradingState D} {event : VerifiedReconciliationEvent D}
    (hinitial : before ++ [event] <+: events) (hfed : Fed state before.length)
    (hset : SetBy before state) :
    Fed (Analysis.deliver state event) (before ++ [event]).length ∧
      SetBy (before ++ [event]) (Analysis.deliver state event) ∧
      StaysTerminal state (Analysis.deliver state event) := by
  obtain ⟨rest, rfl⟩ := hinitial
  have hplace : event.identity.sequence = before.length + 1 := by
    refine hsequence before.length event ?_
    rw [List.append_assoc, List.getElem?_append_right (le_refl _), Nat.sub_self]
    rfl
  have hearlier : ∀ earlier ∈ before, Settles earlier.payload event.payload := by
    intro earlier hmem
    rw [List.append_assoc, List.map_append, List.pairwise_append] at hsettles
    exact hsettles.2.2 _ (List.mem_map_of_mem hmem) _ (List.mem_map_of_mem (by simp))
  obtain ⟨hnextSet, hstays⟩ := hfed.settles hset hplace hearlier
  rw [List.length_append]
  exact ⟨(hfed.deliver hplace).1, hnextSet, hstays⟩

theorem fed_run
    (hsequence : ∀ (k : ℕ) (event : VerifiedReconciliationEvent D), events[k]? = some event →
      event.identity.sequence = k + 1)
    (hsettles : (events.map VerifiedReconciliationEvent.payload).Pairwise Settles)
    (hbefore : before <+: events) :
    Fed (run Analysis.deliver (ProductionTradingState.new live) before) before.length ∧
      SetBy before (run Analysis.deliver (ProductionTradingState.new live) before) := by
  induction before using List.reverseRecOn with
  | nil =>
    refine ⟨Fed.start live, ?_⟩
    intro cloid current hget
    simp [ProductionTradingState.new] at hget
  | append_singleton before event ih =>
    obtain ⟨hfed, hset⟩ := ih ((List.prefix_append before [event]).trans hbefore)
    obtain ⟨hnextFed, hnextSet, -⟩ := settles_next hsequence hsettles hbefore hfed hset
    rw [run_append]
    exact ⟨hnextFed, hnextSet⟩

theorem staysTerminal_of_settles
    (hsequence : ∀ (k : ℕ) (event : VerifiedReconciliationEvent D), events[k]? = some event →
      event.identity.sequence = k + 1)
    (hsettles : (events.map VerifiedReconciliationEvent.payload).Pairwise Settles)
    {earlier later : List (VerifiedReconciliationEvent D)} (hearlier : earlier <+: later)
    (hlater : later <+: events) :
    StaysTerminal (run Analysis.deliver (ProductionTradingState.new live) earlier)
      (run Analysis.deliver (ProductionTradingState.new live) later) := by
  obtain ⟨more, rfl⟩ := hearlier
  induction more using List.reverseRecOn with
  | nil =>
    rw [List.append_nil]
    exact StaysTerminal.refl _
  | append_singleton more event ih =>
    rw [← List.append_assoc] at hlater ⊢
    have hbefore := (List.prefix_append (earlier ++ more) [event]).trans hlater
    obtain ⟨hfed, hset⟩ : Fed (run Analysis.deliver (ProductionTradingState.new live) (earlier ++ more)) _ ∧
        SetBy (earlier ++ more) (run Analysis.deliver (ProductionTradingState.new live) _) :=
      fed_run hsequence hsettles hbefore
    obtain ⟨-, -, hstays⟩ := settles_next hsequence hsettles hlater hfed hset
    rw [run_append _ (earlier ++ more) [event]]
    exact (ih hbefore).trans hstays

end

end

/-- No record follows a terminal record of its cloid. -/
structure HistorySettled (registry : SubmissionRegistry D) : Prop where
  valid : ∀ (cloid : String) (entry : ApprovedExecutionIntent D × SubmissionState D),
    registry.byCloid[cloid]? = some entry → validCloid cloid = true
  present : ∀ record ∈ registry.history, ∃ entry, registry.byCloid[record.cloid]? = some entry
  closed : ∀ record ∈ registry.history, record.state.isTerminal = true →
    ∀ (entry : ApprovedExecutionIntent D × SubmissionState D),
      registry.byCloid[record.cloid]? = some entry → entry.2.isTerminal = true
  last : registry.history.Pairwise fun earlier later =>
    earlier.state.isTerminal = true → later.cloid ≠ earlier.cloid

theorem validCloid_of_validate {intent : ApprovedExecutionIntent D}
    (h : intent.validate = .ok ()) : validCloid intent.cloid = true := by
  unfold ApprovedExecutionIntent.validate at h
  split at h
  · cases h
  rename_i hchecks
  simp only [Bool.or_eq_true, not_or, Bool.not_eq_true', Bool.not_eq_false] at hchecks
  tauto

theorem not_terminal_of_applies {cloid : String} {current next : SubmissionState D}
    (h : SubmissionRegistry.transitionApplies cloid current next = true) :
    current.isTerminal = false := by
  unfold SubmissionRegistry.transitionApplies transitionRefused at h
  simp only [Bool.and_eq_true, Bool.not_eq_true', Bool.or_eq_false_iff] at h
  have hvalid : validTransition current next = true := by simpa using h.2.2
  cases current with
  | filled orderId filled | cancelled orderId filled | rejected reason | reconciledNotFound =>
    cases hvalid
  | _ => rfl

variable {registry : SubmissionRegistry D}

theorem historySettled_step (h : HistorySettled registry) (call : RegistryCall D) :
    HistorySettled (registry.step call) ∧ registry.history <+: (registry.step call).history := by
  -- A record is added for a cloid that has no terminal record.
  have hadd : ∀ (cloid : String) (intent : ApprovedExecutionIntent D)
      (target : SubmissionState D) (recordedAtMs : ℕ) (next : SubmissionRegistry D),
      validCloid cloid = true →
      (∀ record ∈ registry.history, record.state.isTerminal = true → record.cloid ≠ cloid) →
      next.byCloid = registry.byCloid.insert cloid (intent, target) →
      next.history = registry.pushRecord cloid target recordedAtMs →
      HistorySettled next ∧ registry.history <+: next.history := by
    intro cloid intent target recordedAtMs next hvalid hopen hmap hhistory
    unfold SubmissionRegistry.pushRecord at hhistory
    refine ⟨⟨?_, ?_, ?_, ?_⟩, ?_⟩
    · intro key entry hget
      rw [hmap, getElem?_insert_eq] at hget
      split at hget
      · rename_i hkey
        rw [← hkey]
        exact hvalid
      · exact h.valid key entry hget
    · intro record hmem
      rw [hmap, getElem?_insert_eq]
      split
      · exact ⟨_, rfl⟩
      · rename_i hkey
        rw [hhistory, List.mem_append, List.mem_singleton] at hmem
        rcases hmem with hmem | rfl
        · exact h.present record hmem
        · exact absurd rfl hkey
    · intro record hmem hterminal entry hget
      rw [hhistory, List.mem_append, List.mem_singleton] at hmem
      rw [hmap, getElem?_insert_eq] at hget
      rcases hmem with hmem | rfl
      · rw [if_neg (Ne.symm (hopen record hmem hterminal))] at hget
        exact h.closed record hmem hterminal entry hget
      · rw [if_pos rfl] at hget
        cases hget
        exact hterminal
    · rw [hhistory, List.pairwise_append]
      refine ⟨h.last, List.pairwise_singleton _ _, ?_⟩
      intro record hmem added hadded hterminal
      rw [List.mem_singleton] at hadded
      subst hadded
      exact Ne.symm (hopen record hmem hterminal)
    · rw [hhistory]
      exact List.prefix_append _ _
  rcases SubmissionRegistry.perform_cases registry call with ⟨e, -, hstep⟩ | hperformed
  · rw [hstep]
    exact ⟨h, List.prefix_rfl⟩
  generalize registry.step call = next at hperformed
  cases hperformed with
  | registered intent hvalid hfresh hopen hroom =>
    refine hadd intent.cloid intent .authorized 0 _ (validCloid_of_validate hvalid) ?_ rfl rfl
    intro record hmem _ hsame
    obtain ⟨entry, hentry⟩ := h.present record hmem
    rw [hsame, hfresh] at hentry
    cases hentry
  | repeated cloid target recordedAtMs intent current hget hsame => exact ⟨h, List.prefix_rfl⟩
  | moved cloid target recordedAtMs intent current hget happlies =>
    refine hadd cloid intent target recordedAtMs _ (h.valid cloid _ hget) ?_ rfl rfl
    intro record hmem hterminal hsame
    have hclosed := h.closed record hmem hterminal (intent, current) (by rw [hsame]; exact hget)
    rw [not_terminal_of_applies happlies] at hclosed
    cases hclosed
  | counted cloid observedAtMs requiredConfirmations minimumIntervalMs intent current hget
      hunknown hmore => exact ⟨⟨h.valid, h.present, h.closed, h.last⟩, List.prefix_rfl⟩
  | resolved cloid observedAtMs requiredConfirmations minimumIntervalMs intent current hget
      hunknown hresolves =>
    refine ⟨⟨?_, ?_, ?_, h.last⟩, List.prefix_rfl⟩
    · intro key entry hentry
      rw [getElem?_insert_eq] at hentry
      split at hentry
      · rename_i hkey
        rw [← hkey]
        exact h.valid cloid _ hget
      · exact h.valid key entry hentry
    · intro record hmem
      rw [getElem?_insert_eq]
      split
      · exact ⟨_, rfl⟩
      · exact h.present record hmem
    · intro record hmem hterminal entry hentry
      rw [getElem?_insert_eq] at hentry
      split at hentry
      · cases hentry
        rfl
      · exact h.closed record hmem hterminal entry hentry

def ArisesFrom (record : SubmissionTransitionRecord D)
    (payload : VerifiedReconciliationPayload D) : Prop :=
  ∀ (cloid : PlannedCloid) (state : ObserverIntentState),
    payloadIntent payload = some (cloid, state) →
      decodePlannedCloid record.cloid = some cloid ∧
        terminalIntent state = record.state.isTerminal

omit [Decimal D] in
theorem arisesFrom_transition {sequence : ℕ} {record : SubmissionTransitionRecord D}
    {item : OutboxItem D} (h : transitionItem registry sequence record = .ok (some item)) :
    ArisesFrom record item.2 := by
  obtain ⟨cloid, hcloid, hbind⟩ := of_bind h
  obtain ⟨payload, hpayload, hpure⟩ := of_bind hbind
  rw [pure_eq_ok_iff] at hpure
  obtain ⟨payload, rfl, rfl⟩ := Option.map_eq_some_iff.mp hpure
  have hdecode : decodePlannedCloid record.cloid = some cloid := by
    unfold parseCloid at hcloid
    split at hcloid
    · cases hcloid
    · rename_i decoded hdecoded
      cases hcloid
      exact hdecoded
  intro key state hintent
  cases hstate : record.state with
  | authorized =>
    rw [hstate] at hpayload
    obtain ⟨identity, hidentity, hpayload⟩ := of_bind hpayload
    cases hpayload
    rw [signerResult_eq_ok_iff] at hidentity
    unfold intentIdentity at hidentity
    split at hidentity
    · cases hidentity
    split at hidentity
    · cases hidentity
    cases hidentity
    cases hintent
    exact ⟨hdecode, rfl⟩
  | nonceAllocated nonce | signed nonce =>
    rw [hstate] at hpayload
    cases hpayload
  | _ =>
    rw [hstate] at hpayload
    cases hpayload
    cases hintent
    exact ⟨hdecode, rfl⟩

omit [Decimal D] in
theorem settles_of_arisesFrom {first second : SubmissionTransitionRecord D}
    {earlier later : VerifiedReconciliationPayload D} (hfirst : ArisesFrom first earlier)
    (hsecond : ArisesFrom second later) (hvalid : validCloid first.cloid = true)
    (hvalid' : validCloid second.cloid = true)
    (hlast : first.state.isTerminal = true → second.cloid ≠ first.cloid) :
    Settles earlier later := by
  intro cloid before after hbefore hterminal hafter
  obtain ⟨hdecode, hstate⟩ := hfirst cloid before hbefore
  obtain ⟨hdecode', -⟩ := hsecond cloid after hafter
  rw [hterminal] at hstate
  have hsame : second.cloid = first.cloid := by
    rw [← toHex_of_decodePlannedCloid hvalid hdecode,
      ← toHex_of_decodePlannedCloid hvalid' hdecode']
  exact absurd hsame (hlast hstate.symm)

variable {items : List (OutboxItem D)} {records : List (SubmissionTransitionRecord D)}

omit [Decimal D] in
theorem transitionItems_arise {start : ℕ}
    (h : transitionItems registry (records.zipIdx start) = .ok items) :
    ∀ item ∈ items, ∃ record ∈ records, ArisesFrom record item.2 := by
  induction records generalizing start items with
  | nil =>
    cases h
    intro item hitem
    cases hitem
  | cons record records ih =>
    rw [List.zipIdx_cons] at h
    obtain ⟨first, hfirst, htail⟩ := of_bind h
    obtain ⟨rest, hrest, hjoin⟩ := of_bind htail
    rw [pure_eq_ok_iff] at hjoin
    subst hjoin
    intro item hitem
    rcases List.mem_append.mp hitem with hitem | hitem
    · cases first with
      | none => cases hitem
      | some first =>
        obtain rfl := List.mem_singleton.mp hitem
        exact ⟨record, List.mem_cons_self, arisesFrom_transition hfirst⟩
    · obtain ⟨other, hother, harises⟩ := ih hrest item hitem
      exact ⟨other, List.mem_cons_of_mem _ hother, harises⟩

omit [Decimal D] in
theorem transitionItems_settle {start : ℕ}
    (h : transitionItems registry (records.zipIdx start) = .ok items)
    (hvalid : ∀ record ∈ records, validCloid record.cloid = true)
    (hlast : records.Pairwise fun earlier later =>
      earlier.state.isTerminal = true → later.cloid ≠ earlier.cloid) :
    (items.map Prod.snd).Pairwise Settles := by
  induction records generalizing start items with
  | nil =>
    cases h
    exact List.Pairwise.nil
  | cons record records ih =>
    rw [List.zipIdx_cons] at h
    obtain ⟨first, hfirst, htail⟩ := of_bind h
    obtain ⟨rest, hrest, hjoin⟩ := of_bind htail
    rw [pure_eq_ok_iff] at hjoin
    subst hjoin
    obtain ⟨hrecord, hvalid⟩ := List.forall_mem_cons.mp hvalid
    obtain ⟨hhead, htailLast⟩ := List.pairwise_cons.mp hlast
    have hsettled := ih hrest hvalid htailLast
    cases first with
    | none => exact hsettled
    | some first =>
      refine List.pairwise_cons.mpr ⟨?_, hsettled⟩
      intro payload hpayload
      obtain ⟨item, hitem, rfl⟩ := List.mem_map.mp hpayload
      obtain ⟨other, hother, harises⟩ := transitionItems_arise hrest item hitem
      exact settles_of_arisesFrom (arisesFrom_transition hfirst) harises hrecord
        (hvalid other hother) (hhead other hother)

/-- The events of the outbox settle; its terminal events and the keys of transitions belong to
the synchronised part of the history. -/
structure StreamSettled [Sha256] [PayloadEncoding D] (books : SignerBooks D) : Prop where
  history : HistorySettled books.registry
  sealed : Sealed 1 books.outbox.events
  nextSequence : books.outbox.nextSequence = books.outbox.events.length + 1
  settled : (books.outbox.events.map VerifiedReconciliationEvent.payload).Pairwise Settles
  synced : ∃ synced, synced <+: books.registry.history ∧
    (∀ key ∈ transitionKeys synced.zipIdx, key ∈ books.outbox.sourceKeys) ∧
    ∀ event ∈ books.outbox.events, ∀ (cloid : PlannedCloid) (state : ObserverIntentState),
      payloadIntent event.payload = some (cloid, state) → terminalIntent state = true →
        ∃ record ∈ synced, record.cloid = toHex cloid ∧ record.state.isTerminal = true

/-- At a synchronisation no fill that waits belongs to an intent with a terminal record. -/
def fillsUnsettled (books : SignerBooks D) : BooksStep D → Bool
  | .syncOutbox => (waitingFills books).all fun fill => books.registry.history.all fun record =>
    record.cloid != toHex fill.identity.cloid || !record.state.isTerminal
  | _ => true

section

variable [Sha256] [PayloadEncoding D] {books : SignerBooks D}

theorem streamSettled_registryCall (h : StreamSettled books) (call : RegistryCall D) :
    StreamSettled { books with registry := books.registry.step call } := by
  obtain ⟨synced, hsynced, hkeys, hterminal⟩ := h.synced
  obtain ⟨hhistory, hinitial⟩ := historySettled_step h.history call
  exact ⟨hhistory, h.sealed, h.nextSequence, h.settled, synced, hsynced.trans hinitial, hkeys,
    hterminal⟩

omit [Decimal D] [Sha256] [PayloadEncoding D] in
theorem HistorySettled.validCloid {registry : SubmissionRegistry D}
    (h : HistorySettled registry) {record : SubmissionTransitionRecord D}
    (hmem : record ∈ registry.history) : validCloid record.cloid = true := by
  obtain ⟨entry, hentry⟩ := h.present record hmem
  exact h.valid record.cloid entry hentry

variable {next : DurableReconciliationOutbox D}

omit [Decimal D] in
theorem exists_appended {synced newHistory : List (SubmissionTransitionRecord D)}
    (hhistory : synced ++ newHistory = books.registry.history)
    (hkeys : ∀ key ∈ transitionKeys synced.zipIdx, key ∈ books.outbox.sourceKeys)
    (hsync : syncOutbox books.registry books.live books.outbox = .ok next) :
    ∃ items transitions fills funding events,
      transitionItems books.registry (newHistory.zipIdx synced.length) = .ok items ∧
        transitions.Sublist items ∧
        (∀ item ∈ fills, ∃ fill ∈ waitingFills books, item = fillItem fill) ∧
        (∀ item ∈ funding, ∃ event, item = fundingItem event) ∧
        Appended books.outbox (transitions ++ (fills ++ funding)) events next ∧
        ∀ key ∈ transitionKeys books.registry.history.zipIdx, key ∈ next.sourceKeys := by
  unfold syncOutbox at hsync
  obtain ⟨transitioned, htransitions, hsync⟩ := of_bind hsync
  obtain ⟨filled, hfills, hfunding⟩ := of_bind hsync
  obtain ⟨all, hall, htransitions⟩ := syncTransitions_eq_ok htransitions
  have hallKeys := transitionItems_keys hall
  rw [← hhistory, List.zipIdx_append, Nat.zero_add, transitionItems_append] at hall
  obtain ⟨old, items, hold, hitems, rfl⟩ := hall
  obtain ⟨transitions, transitionEvents, htransitioned, htransitionsSub⟩ :=
    appendItems_offered htransitions
  obtain ⟨fills, fillEvents, hfilled, hfillsSub⟩ := appendItems_offered hfills
  obtain ⟨funding, fundingEvents, hfunded, hfundingSub⟩ := appendItems_offered hfunding
  have happended := htransitioned.trans (hfilled.trans hfunded)
  refine ⟨items, transitions, fills, funding, _, hitems, ?_, ?_, ?_, happended, ?_⟩
  · -- The items of the synchronised records are known.
    have holdKnown : (old.filter fun item => !books.outbox.sourceKeys.contains item.1) = [] := by
      rw [List.filter_eq_nil_iff]
      intro item hitem
      have hknown := hkeys item.1 (by
        rw [← transitionItems_keys hold]
        exact List.mem_map_of_mem hitem)
      rw [← ExtTreeSet.contains_iff_mem] at hknown
      rw [hknown]
      simp
    rw [List.filter_append, holdKnown, List.nil_append] at htransitionsSub
    exact htransitionsSub.trans List.filter_sublist
  · intro item hitem
    obtain ⟨hoffered, hunknown⟩ := List.mem_filter.mp (hfillsSub.subset hitem)
    obtain ⟨fill, hfill, rfl⟩ := List.mem_map.mp hoffered
    refine ⟨fill, List.mem_filter.mpr ⟨hfill, ?_⟩, rfl⟩
    simp only [Bool.not_eq_true', ← Bool.not_eq_true, ExtTreeSet.contains_iff_mem] at hunknown ⊢
    intro hknown
    exact hunknown ((htransitioned.keys _).mpr (.inl hknown))
  · intro item hitem
    obtain ⟨hoffered, -⟩ := List.mem_filter.mp (hfundingSub.subset hitem)
    obtain ⟨event, -, rfl⟩ := List.mem_map.mp hoffered
    exact ⟨event, rfl⟩
  · intro key hkey
    rw [← hallKeys] at hkey
    rw [appendItems_keys hfunding, appendItems_keys hfills, appendItems_keys htransitions]
    exact .inl (.inl (.inr hkey))

omit [Decimal D] in
theorem streamSettled_sync (h : StreamSettled books)
    (hsafe : fillsUnsettled books .syncOutbox = true)
    (hsync : syncOutbox books.registry books.live books.outbox = .ok next) :
    StreamSettled { books with outbox := next } := by
  obtain ⟨synced, ⟨newHistory, hhistory⟩, hkeys, hterminal⟩ := h.synced
  obtain ⟨items, transitions, fills, funding, events, hitems, htransitions, hfills, hfunding,
    happended, hnextKeys⟩ := exists_appended hhistory hkeys hsync
  have hvalid : ∀ record ∈ newHistory, validCloid record.cloid = true := fun record hmem =>
    h.history.validCloid (by rw [← hhistory]; exact List.mem_append_right _ hmem)
  have hlast := h.history.last
  rw [← hhistory, List.pairwise_append] at hlast
  -- What a new transition sets comes from a new record.
  have hnew : ∀ item ∈ transitions, ∃ record ∈ newHistory, ArisesFrom record item.2 :=
    fun item hitem => transitionItems_arise hitems item (htransitions.subset hitem)
  -- A fill that waits, or a funding event, comes after no terminal record of its intent.
  have hlate : ∀ item ∈ fills ++ funding, ∀ payload : VerifiedReconciliationPayload D,
      (∀ (cloid : PlannedCloid) (state : ObserverIntentState),
        payloadIntent payload = some (cloid, state) → terminalIntent state = true →
          ∃ record ∈ books.registry.history, record.cloid = toHex cloid ∧
            record.state.isTerminal = true) →
      Settles payload item.2 := by
    intro item hitem payload hrecord cloid first second hfirst hfirstTerminal hsecond
    rcases List.mem_append.mp hitem with hitem | hitem
    · obtain ⟨fill, hfill, rfl⟩ := hfills item hitem
      cases hsecond
      obtain ⟨record, hmem, hcloid, hstate⟩ := hrecord _ first hfirst hfirstTerminal
      have hunsettled := List.all_eq_true.mp (List.all_eq_true.mp hsafe fill hfill) record hmem
      rw [hcloid, hstate, bne_self_eq_false] at hunsettled
      cases hunsettled
    · obtain ⟨event, rfl⟩ := hfunding item hitem
      cases hsecond
  have hnewRecord : ∀ item ∈ transitions, ∀ (cloid : PlannedCloid) (state : ObserverIntentState),
      payloadIntent item.2 = some (cloid, state) → terminalIntent state = true →
        ∃ record ∈ newHistory, record.cloid = toHex cloid ∧ record.state.isTerminal = true := by
    intro item hitem cloid state hintent hstate
    obtain ⟨record, hmem, harises⟩ := hnew item hitem
    obtain ⟨hdecode, hsame⟩ := harises cloid state hintent
    exact ⟨record, hmem, (toHex_of_decodePlannedCloid (hvalid record hmem) hdecode).symm,
      by rw [← hsame, hstate]⟩
  have hsyncedMem : ∀ record ∈ synced, record ∈ books.registry.history := by
    intro record hmem
    rw [← hhistory]
    exact List.mem_append_left _ hmem
  have hnewMem : ∀ record ∈ newHistory, record ∈ books.registry.history := by
    intro record hmem
    rw [← hhistory]
    exact List.mem_append_right _ hmem
  have hpayloads : next.events.map VerifiedReconciliationEvent.payload =
      books.outbox.events.map VerifiedReconciliationEvent.payload ++
        (transitions.map Prod.snd ++ (fills ++ funding).map Prod.snd) := by
    rw [happended.events_eq, List.map_append, happended.payloads, List.map_append]
  have hcount : events.length = (transitions ++ (fills ++ funding)).length := by
    simpa only [List.length_map] using congrArg List.length happended.payloads
  refine ⟨h.history, ?_, ?_, ?_, books.registry.history, List.prefix_rfl, hnextKeys, ?_⟩
  · have hsealed := happended.sealed
    rw [h.nextSequence] at hsealed
    show Sealed 1 next.events
    rw [happended.events_eq]
    exact sealed_append.mpr ⟨h.sealed, by rw [Nat.add_comm]; exact hsealed⟩
  · show next.nextSequence = next.events.length + 1
    rw [happended.nextSequence, happended.events_eq, h.nextSequence, ← hcount, List.length_append]
    omega
  · show (next.events.map VerifiedReconciliationEvent.payload).Pairwise Settles
    rw [hpayloads, List.pairwise_append, List.pairwise_append]
    refine ⟨h.settled, ⟨?_, ?_, ?_⟩, ?_⟩
    · exact (transitionItems_settle hitems hvalid hlast.2.1).sublist (htransitions.map Prod.snd)
    · refine List.pairwise_of_forall_mem_list ?_
      intro earlier hearlier later hlater
      obtain ⟨item, hitem, rfl⟩ := List.mem_map.mp hearlier
      refine settles_of_not_terminal ?_
      intro cloid state hintent
      rcases List.mem_append.mp hitem with hitem | hitem
      · obtain ⟨fill, -, rfl⟩ := hfills item hitem
        cases hintent
        rfl
      · obtain ⟨event, rfl⟩ := hfunding item hitem
        cases hintent
    · intro earlier hearlier later hlater
      obtain ⟨item, hitem, rfl⟩ := List.mem_map.mp hearlier
      obtain ⟨other, hother, rfl⟩ := List.mem_map.mp hlater
      refine hlate other hother item.2 ?_
      intro cloid state hintent hstate
      obtain ⟨record, hmem, hrecord⟩ := hnewRecord item hitem cloid state hintent hstate
      exact ⟨record, hnewMem record hmem, hrecord⟩
    · intro earlier hearlier later hlater
      obtain ⟨event, hevent, rfl⟩ := List.mem_map.mp hearlier
      rcases List.mem_append.mp hlater with hlater | hlater
      · obtain ⟨item, hitem, rfl⟩ := List.mem_map.mp hlater
        obtain ⟨second, hsecond, harises⟩ := hnew item hitem
        intro cloid before after hbefore hstate hafter
        obtain ⟨first, hfirst, hcloid, hfirstTerminal⟩ :=
          hterminal event hevent cloid before hbefore hstate
        have hother := toHex_of_decodePlannedCloid (hvalid second hsecond)
          (harises cloid after hafter).1
        exact absurd (hother.symm.trans hcloid.symm)
          (hlast.2.2 first hfirst second hsecond hfirstTerminal)
      · obtain ⟨item, hitem, rfl⟩ := List.mem_map.mp hlater
        refine hlate item hitem event.payload ?_
        intro cloid state hintent hstate
        obtain ⟨record, hmem, hrecord⟩ := hterminal event hevent cloid state hintent hstate
        exact ⟨record, hsyncedMem record hmem, hrecord⟩
  · intro event hevent cloid state hintent hstate
    have hpayload : event.payload ∈ next.events.map VerifiedReconciliationEvent.payload :=
      List.mem_map_of_mem hevent
    rw [hpayloads, List.mem_append, List.mem_append] at hpayload
    rcases hpayload with hold | htransition | hlater
    · obtain ⟨old, hold, hsame⟩ := List.mem_map.mp hold
      rw [← hsame] at hintent
      obtain ⟨record, hmem, hrecord⟩ := hterminal old hold cloid state hintent hstate
      exact ⟨record, hsyncedMem record hmem, hrecord⟩
    · obtain ⟨item, hitem, hsame⟩ := List.mem_map.mp htransition
      rw [← hsame] at hintent
      obtain ⟨record, hmem, hrecord⟩ := hnewRecord item hitem cloid state hintent hstate
      exact ⟨record, hnewMem record hmem, hrecord⟩
    · obtain ⟨item, hitem, hsame⟩ := List.mem_map.mp hlater
      rw [← hsame] at hintent
      rcases List.mem_append.mp hitem with hitem | hitem
      · obtain ⟨fill, -, rfl⟩ := hfills item hitem
        cases hintent
        cases hstate
      · obtain ⟨funding, rfl⟩ := hfunding item hitem
        cases hintent

theorem streamSettled_step (h : StreamSettled books) (step : BooksStep D)
    (hsafe : fillsUnsettled books step = true) : StreamSettled (books.step step) := by
  cases step with
  | registryCall call => exact streamSettled_registryCall h call
  | applyBatches fills funding exchangeEquity =>
    unfold SignerBooks.step
    dsimp only
    split
    · exact ⟨h.history, h.sealed, h.nextSequence, h.settled, h.synced⟩
    · exact h
  | syncOutbox =>
    unfold SignerBooks.step
    dsimp only
    split
    · rename_i outbox hsync
      exact streamSettled_sync h hsafe hsync
    · exact h

omit [Decimal D] in
theorem streamSettled_start {maximumEntries maximumEvents : ℕ} {instanceId : Bytes 16}
    {live : LiveTradingState D} {outbox : DurableReconciliationOutbox D}
    (houtbox : DurableReconciliationOutbox.new instanceId maximumEvents = .ok outbox) :
    StreamSettled (startBooks maximumEntries live outbox) := by
  unfold DurableReconciliationOutbox.new at houtbox
  split at houtbox <;> cases houtbox
  refine ⟨⟨?_, ?_, ?_, List.Pairwise.nil⟩, trivial, rfl, List.Pairwise.nil, [], List.nil_prefix,
    ?_, ?_⟩
  · intro cloid entry hget
    simp [startBooks, SubmissionRegistry.empty] at hget
  · intro record hmem
    cases hmem
  · intro record hmem
    cases hmem
  · intro key hkey
    cases hkey
  · intro event hevent
    cases hevent

end

omit [Decimal D] in
theorem sequence_of_sealed [Sha256] [PayloadEncoding D] {first k : ℕ}
    {events : List (VerifiedReconciliationEvent D)} {event : VerifiedReconciliationEvent D}
    (h : Sealed first events) (hevent : events[k]? = some event) :
    event.identity.sequence = first + k := by
  induction events generalizing first k with
  | nil => cases hevent
  | cons head events ih =>
    cases k with
    | zero =>
      cases hevent
      exact h.1
    | succ k =>
      have := ih h.2.2.2 hevent
      omega

/-- **Terminal intents stay terminal.**  In a run that never synchronises a fill behind a terminal
record of its intent, the observer that applies any part of the outbox in order never takes back
`Reconciled`, `Cancelled` or `Rejected`. -/
theorem terminal_intents_stable [Sha256] [PayloadEncoding D]
    {maximumEntries maximumEvents : ℕ} {instanceId : Bytes 16} {live : LiveTradingState D}
    {outbox : DurableReconciliationOutbox D}
    (houtbox : DurableReconciliationOutbox.new instanceId maximumEvents = .ok outbox)
    {steps : List (BooksStep D)}
    (hsafe : AllSteps SignerBooks.step (fun books step => fillsUnsettled books step = true)
      (startBooks maximumEntries live outbox) steps) :
    ∀ books ∈ states SignerBooks.step (startBooks maximumEntries live outbox) steps,
      ∀ (observer : LiveTradingState D) (earlier later : List (VerifiedReconciliationEvent D)),
        earlier <+: later → later <+: books.outbox.events →
          StaysTerminal (run deliver (ProductionTradingState.new observer) earlier)
            (run deliver (ProductionTradingState.new observer) later) := by
  intro books hbooks observer earlier later hearlier hlater
  have h : StreamSettled books :=
    forall_states_of_steps (I := StreamSettled)
      (fun _ step h hstep => streamSettled_step h step hstep) (streamSettled_start houtbox) hsafe
      books hbooks
  refine staysTerminal_of_settles ?_ h.settled hearlier hlater
  intro k event hevent
  rw [sequence_of_sealed h.sealed hevent, Nat.add_comm]

def sampleSubmission : List (BooksStep ℚ) :=
  [.registryCall (.register (sampleIntent (sampleCloid 1) "BTC" false)),
    .registryCall (.transitionAt (sampleCloid 1) (.nonceAllocated 1) 1),
    .registryCall (.transitionAt (sampleCloid 1) (.signed 1) 2),
    .registryCall (.transitionAt (sampleCloid 1) (.submissionStarted 1) 3)]

def filledBeforeSync : List (BooksStep ℚ) :=
  sampleSubmission ++
    [.registryCall (.transitionAt (sampleCloid 1) (.filled "7" 1) 4),
      sampleBatch [sampleFill 1 "1" "B" 10] [], .syncOutbox]

/-- The fill of the order is synchronised before the order is recorded as filled. -/
def filledAfterSync : List (BooksStep ℚ) :=
  sampleSubmission ++
    [.registryCall (.transitionAt (sampleCloid 1) (.acknowledged "7") 4),
      sampleBatch [sampleFill 1 "1" "B" 10] [], .syncOutbox,
      .registryCall (.transitionAt (sampleCloid 1) (.filled "7" 1) 5), .syncOutbox]

theorem terminal_intents_stable_filledAfterSync :
    ∃ (_ : Sha256) (_ : PayloadEncoding ℚ),
      ∀ books ∈ states SignerBooks.step sampleStart filledAfterSync,
        ∀ (observer : LiveTradingState ℚ) (earlier later : List (VerifiedReconciliationEvent ℚ)),
          earlier <+: later → later <+: books.outbox.events →
            StaysTerminal (run deliver (ProductionTradingState.new observer) earlier)
              (run deliver (ProductionTradingState.new observer) later) := by
  let sha : Sha256 := ⟨prefixDigest⟩
  let encoding : PayloadEncoding ℚ := ⟨samplePayloadBytes⟩
  refine ⟨sha, encoding, ?_⟩
  have houtbox : DurableReconciliationOutbox.new (D := ℚ) (Bytes.replicate 16 1) 100 =
      .ok (DurableReconciliationOutbox.empty (Bytes.replicate 16 1) 100) := rfl
  exact terminal_intents_stable houtbox (by decide +kernel)

/-- The event of the fill comes after the one that reconciles the intent, and takes it back. -/
theorem reconciled_intent_reopened :
    ¬ ∀ [Sha256] [PayloadEncoding ℚ] (steps : List (BooksStep ℚ)),
      ∀ books ∈ states SignerBooks.step sampleStart steps,
        ∀ (observer : LiveTradingState ℚ) (earlier later : List (VerifiedReconciliationEvent ℚ)),
          earlier <+: later → later <+: books.outbox.events →
            StaysTerminal (run deliver (ProductionTradingState.new observer) earlier)
              (run deliver (ProductionTradingState.new observer) later) := by
  intro h
  let sha : Sha256 := ⟨prefixDigest⟩
  let encoding : PayloadEncoding ℚ := ⟨samplePayloadBytes⟩
  let events := (run SignerBooks.step sampleStart filledBeforeSync).outbox.events
  let observer : ProductionTradingState ℚ :=
    ProductionTradingState.new (LiveTradingState.starting 1000 0)
  have hreconciled : (run deliver observer (events.take 3)).intents[(Bytes.replicate 16 1 : PlannedCloid)]? =
      some .reconciled := by
    decide +kernel
  have hreopened : (run deliver observer events).intents[(Bytes.replicate 16 1 : PlannedCloid)]? =
      some .partiallyFilled := by
    decide +kernel
  obtain ⟨next, hnext, hterminal⟩ := h filledBeforeSync _ (run_mem_states _ _)
    (LiveTradingState.starting 1000 0) (events.take 3) events (List.take_prefix _ _)
    List.prefix_rfl _ _ hreconciled rfl
  rw [hreopened] at hnext
  cases hnext
  cases hterminal

end CopyTrade.Analysis
