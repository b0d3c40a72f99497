import CopyTrade.Analysis.Replay.DeliveryOrder

/-!
# An event that is refused while the buffer is drained

`apply_contiguous` works on a copy of the state and writes it back at its end, so that an event
that is refused leaves no trace.  `apply_reconciliation_event` applies the delivered event and then,
one by one, the events that wait directly behind it.  When one of those is refused the ones before
it stand, and it has left the buffer.
-/

namespace CopyTrade.Analysis

open Foundation Model
open Std (ExtTreeMap)

variable {D : Type} [Decimal D]

/-- The events that wait directly behind a sequence number, in the order they are drained in. -/
def waitingBehind : ℕ → ExtTreeMap ℕ (VerifiedReconciliationEvent D) → ℕ →
    List (VerifiedReconciliationEvent D)
  | 0, _, _ => []
  | rounds + 1, buffer, sequence =>
    match checkedAddU64 sequence 1 with
    | none => []
    | some next =>
      match buffer[next]? with
      | none => []
      | some event => event :: waitingBehind rounds (buffer.erase next) event.identity.sequence

/-- The delivered event and the events waiting directly behind it. -/
def deliveredChain (state : ProductionTradingState D) (event : VerifiedReconciliationEvent D) :
    List (VerifiedReconciliationEvent D) :=
  event :: waitingBehind (state.reorderBuffer.size + 1) state.reorderBuffer event.identity.sequence

section

variable [Sha256] {state : ProductionTradingState D}
  {buffer : ExtTreeMap ℕ (VerifiedReconciliationEvent D)}

/-- Every event applies to the state the ones before it leave, and none bears the last number, behind
which the next one cannot be computed. -/
def AppliesAll (state : ProductionTradingState D) (events : List (VerifiedReconciliationEvent D)) :
    Prop :=
  (events.foldlM ProductionTradingState.applyContiguous state).isOk = true ∧
    ∀ event ∈ events, event.identity.sequence < maxU64

variable {event : VerifiedReconciliationEvent D}

theorem appliesAll_cons_iff {events : List (VerifiedReconciliationEvent D)} :
    AppliesAll state (event :: events) ↔
      event.identity.sequence < maxU64 ∧
        ∃ next, state.applyContiguous event = .ok next ∧ AppliesAll next events := by
  unfold AppliesAll
  rw [List.foldlM_cons, List.forall_mem_cons]
  cases hstep : state.applyContiguous event with
  | error error => simp [bind, Except.bind, Except.isOk, Except.toBool]
  | ok next =>
    simp only [ok_bind, Except.ok.injEq, exists_eq_left']
    tauto

theorem applyContiguous_withBuffer_iff {next : ProductionTradingState D} :
    (withBuffer state buffer).applyContiguous event = .ok next ↔
      ∃ applied, state.applyContiguous event = .ok applied ∧ next = withBuffer applied buffer := by
  constructor
  · intro h
    have hsame : withBuffer (withBuffer state buffer) state.reorderBuffer = state := rfl
    have hback : (withBuffer (withBuffer state buffer) state.reorderBuffer).applyContiguous event =
        .ok (withBuffer next state.reorderBuffer) := applyContiguous_withBuffer h
    rw [hsame] at hback
    refine ⟨_, hback, ?_⟩
    have hkept : next.reorderBuffer = buffer := (applyContiguous_eq_ok h).1
    rw [← hkept]
    rfl
  · rintro ⟨applied, happlied, rfl⟩
    exact applyContiguous_withBuffer happlied

theorem drainBuffer_taken (rounds : ℕ) {turn : ℕ}
    (hturn : checkedAddU64 state.highestContiguousSignerSequence 1 = some turn)
    (hevent : buffer[turn]? = some event) :
    (∀ error, (withBuffer state (buffer.erase turn)).applyContiguous event = .error error →
      ProductionTradingState.drainBuffer (rounds + 1) (withBuffer state buffer) =
        (.error error, withBuffer state (buffer.erase turn))) ∧
    ∀ applied, (withBuffer state (buffer.erase turn)).applyContiguous event = .ok applied →
      ProductionTradingState.drainBuffer (rounds + 1) (withBuffer state buffer) =
        ProductionTradingState.drainBuffer rounds applied := by
  constructor
  · intro error hstep
    unfold ProductionTradingState.drainBuffer
    simp only [withBuffer] at hstep ⊢
    simp only [hturn, hevent, hstep]
  · intro applied hstep
    rw [ProductionTradingState.drainBuffer]
    simp only [withBuffer] at hstep ⊢
    simp only [hturn, hevent, hstep]

theorem drainBuffer_ok_iff {rounds : ℕ} (hsize : buffer.size < rounds) :
    (ProductionTradingState.drainBuffer rounds (withBuffer state buffer)).1 = .ok () ↔
      state.highestContiguousSignerSequence < maxU64 ∧
        AppliesAll state (waitingBehind rounds buffer state.highestContiguousSignerSequence) := by
  induction rounds generalizing state buffer with
  | zero => omega
  | succ rounds ih =>
    unfold waitingBehind
    cases hturn : checkedAddU64 state.highestContiguousSignerSequence 1 with
    | none =>
      have hlast : ¬ state.highestContiguousSignerSequence + 1 ≤ maxU64 := by
        intro hle
        rw [checkedAddU64, if_pos hle] at hturn
        cases hturn
      unfold ProductionTradingState.drainBuffer
      simp only [withBuffer, hturn, reduceCtorEq, false_iff]
      omega
    | some turn =>
      obtain ⟨hnext, hbound⟩ := checkedAddU64_eq_some_iff.mp hturn
      rw [and_iff_right (by omega)]
      dsimp only
      cases hevent : buffer[turn]? with
      | none =>
        unfold ProductionTradingState.drainBuffer
        simp [withBuffer, hturn, hevent, AppliesAll, Except.isOk, Except.toBool, pure, Except.pure]
      | some event =>
        have hsmaller := size_erase_lt ((mem_iff_exists _ _).mpr ⟨event, hevent⟩)
        obtain ⟨hrefused, htaken⟩ := drainBuffer_taken rounds hturn hevent
        rw [appliesAll_cons_iff]
        cases hstep : (withBuffer state (buffer.erase turn)).applyContiguous event with
        | error error =>
          rw [hrefused error hstep]
          simp only [reduceCtorEq, false_iff]
          rintro ⟨-, next, hnext, -⟩
          rw [applyContiguous_withBuffer hnext] at hstep
          cases hstep
        | ok applied =>
          obtain ⟨next, happlied, rfl⟩ := applyContiguous_withBuffer_iff.mp hstep
          have hhighest := (applyContiguous_eq_ok happlied).2.1
          rw [htaken _ hstep, ih (by omega), hhighest]
          simp [happlied]

theorem contains_drainBuffer {rounds sequence : ℕ}
    (h : state.appliedEventHashes.contains sequence = true) :
    (ProductionTradingState.drainBuffer rounds state).2.appliedEventHashes.contains sequence =
      true := by
  induction rounds generalizing state with
  | zero => exact h
  | succ rounds ih =>
    unfold ProductionTradingState.drainBuffer
    split
    · exact h
    split
    · exact h
    dsimp only
    split
    · exact h
    · rename_i applied happlied
      apply ih
      rw [(applyContiguous_eq_ok happlied).2.2, ExtTreeMap.contains_insert]
      simp [h]

end

section

variable [Sha256] [PayloadEncoding D] {state : ProductionTradingState D}
  {event : VerifiedReconciliationEvent D}

/-- The event carries its hash, is not on record, and is the next one. -/
structure TakenInTurn (state : ProductionTradingState D) (event : VerifiedReconciliationEvent D) :
    Prop where
  hash : canonicalPayloadHash event.payload = .ok event.identity.eventHash
  unseen : state.appliedEventHashes[event.identity.sequence]? = none
  turn : checkedAddU64 state.highestContiguousSignerSequence 1 = some event.identity.sequence

variable {error : ReconciliationApplyError}

theorem unchanged_of_not_taken (h : ¬ TakenInTurn state event)
    (herror : (state.applyReconciliationEvent event).1 = .error error) :
    (state.applyReconciliationEvent event).2 = state := by
  unfold ProductionTradingState.applyReconciliationEvent at herror ⊢
  cases hhash : canonicalPayloadHash event.payload with
  | error message => rfl
  | ok expected =>
    rw [hhash] at herror
    dsimp only at herror ⊢
    split
    · rfl
    rename_i hequal
    have hexpected : expected = event.identity.eventHash := by simpa using hequal
    rw [if_neg hequal] at herror
    cases hseen : state.appliedEventHashes[event.identity.sequence]? with
    | some existing => dsimp only; split <;> rfl
    | none =>
      rw [hseen] at herror
      dsimp only at herror ⊢
      split
      · rfl
      rename_i hahead
      rw [if_neg hahead] at herror
      cases hturn : checkedAddU64 state.highestContiguousSignerSequence 1 with
      | none => rfl
      | some next =>
        rw [hturn] at herror
        dsimp only at herror ⊢
        split
        · rename_i hgap
          rw [if_pos hgap] at herror
          split
          · rfl
          rename_i hroom
          rw [if_neg hroom] at herror
          cases hwaiting : state.reorderBuffer[event.identity.sequence]? with
          | some existing => dsimp only; split <;> rfl
          | none =>
            rw [hwaiting] at herror
            cases herror
        · rename_i hnext
          have hsequence : event.identity.sequence = next := by simpa using hnext
          exact absurd ⟨hexpected ▸ hhash, hseen, hsequence ▸ hturn⟩ h

omit [Decimal D] in
theorem TakenInTurn.ahead (h : TakenInTurn state event) :
    ¬ event.identity.sequence ≤ state.highestContiguousSignerSequence := by
  have := (checkedAddU64_eq_some_iff.mp h.turn).1
  omega

theorem applyReconciliationEvent_refused (h : TakenInTurn state event)
    (hstep : state.applyContiguous event = .error error) :
    state.applyReconciliationEvent event = (.error error, state) := by
  unfold ProductionTradingState.applyReconciliationEvent
  simp only [h.hash, bne_self_eq_false, Bool.false_eq_true, if_false, h.unseen, h.ahead, h.turn,
    hstep]

theorem applyReconciliationEvent_applied (h : TakenInTurn state event)
    {applied drained : ProductionTradingState D} {result : Except ReconciliationApplyError Unit}
    (hstep : state.applyContiguous event = .ok applied)
    (hdrain : ProductionTradingState.drainBuffer (applied.reorderBuffer.size + 1) applied =
      (result, drained)) :
    state.applyReconciliationEvent event =
      (result.map fun _ => .applied drained.highestContiguousSignerSequence, drained) := by
  unfold ProductionTradingState.applyReconciliationEvent
  simp only [h.hash, bne_self_eq_false, Bool.false_eq_true, if_false, h.unseen, h.ahead, h.turn,
    hstep, hdrain]
  cases result with
  | ok _ => rfl
  | error error => rfl

def LeavesUnchanged (state : ProductionTradingState D) (event : VerifiedReconciliationEvent D) :
    Prop :=
  ∀ error, (state.applyReconciliationEvent event).1 = .error error →
    (state.applyReconciliationEvent event).2 = state

/-- A refused delivery leaves no trace exactly when the event is not the next one, or is refused
itself, or is applied together with everything that waits directly behind it. -/
theorem refused_event_unchanged_iff (state : ProductionTradingState D)
    (event : VerifiedReconciliationEvent D) :
    LeavesUnchanged state event ↔
      (TakenInTurn state event → (state.applyContiguous event).isOk = true →
        AppliesAll state (deliveredChain state event)) := by
  unfold LeavesUnchanged
  by_cases htaken : TakenInTurn state event
  · cases hstep : state.applyContiguous event with
    | error error =>
      rw [applyReconciliationEvent_refused htaken hstep]
      simp [Except.isOk, Except.toBool]
    | ok applied =>
      obtain ⟨hbuffer, hhighest, hhashes⟩ := applyContiguous_eq_ok hstep
      cases hresult : ProductionTradingState.drainBuffer (applied.reorderBuffer.size + 1) applied with
      | mk result drained =>
        rw [applyReconciliationEvent_applied htaken hstep hresult]
        have hdrained : (ProductionTradingState.drainBuffer (applied.reorderBuffer.size + 1)
            (withBuffer applied applied.reorderBuffer)).1 = .ok () ↔ _ :=
          drainBuffer_ok_iff (Nat.lt_succ_self _)
        rw [show withBuffer applied applied.reorderBuffer = applied from rfl, hresult, hhighest]
          at hdrained
        have hchain : AppliesAll state (deliveredChain state event) ↔ result = .ok () := by
          rw [deliveredChain, appliesAll_cons_iff, hstep, ← hbuffer, hdrained]
          simp
        rw [hchain]
        cases result with
        | ok _ => simp [Except.map]
        | error error =>
          -- The delivered event is on record, which it was not before.
          have hkept : (ProductionTradingState.drainBuffer (applied.reorderBuffer.size + 1)
              applied).2.appliedEventHashes.contains event.identity.sequence = true :=
            contains_drainBuffer (by rw [hhashes]; simp)
          rw [hresult] at hkept
          have hchanged : drained ≠ state := by
            rintro rfl
            rw [ExtTreeMap.contains_eq_isSome_getElem?, htaken.unseen] at hkept
            cases hkept
          simp [Except.map, Except.isOk, Except.toBool, htaken, hchanged]
  · refine iff_of_true (fun error herror => unchanged_of_not_taken htaken herror) ?_
    exact fun h => absurd h htaken

end

def strayEvent (sequence : ℕ) : VerifiedReconciliationEvent ℚ where
  identity := (snapshotEvent sequence).identity
  payload := .submissionStarted (Bytes.replicate 16 0)

/-- Event 2 waits for event 1 and is refused behind it: event 1 stands, and event 2 is gone from the
buffer. -/
theorem successor_refused_after_event :
    ¬ ∀ [Sha256] [PayloadEncoding ℚ] (state : ProductionTradingState ℚ)
      (event : VerifiedReconciliationEvent ℚ) (error : ReconciliationApplyError),
      (state.applyReconciliationEvent event).1 = .error error →
        (state.applyReconciliationEvent event).2 = state := by
  intro h
  let sha : Sha256 := ⟨prefixDigest⟩
  let encoding : PayloadEncoding ℚ := ⟨fun _ => .ok snapshotBytes⟩
  let waiting := deliver (ProductionTradingState.new (LiveTradingState.starting (1000 : ℚ) 0))
    (strayEvent 2)
  have herror : (waiting.applyReconciliationEvent (snapshotEvent 1)).1 = .error .unknownIntent := by
    decide +kernel
  have hbefore : waiting.highestContiguousSignerSequence = 0 ∧ waiting.reorderBuffer.size = 1 := by
    decide +kernel
  have hafter : (waiting.applyReconciliationEvent (snapshotEvent 1)).2.highestContiguousSignerSequence
      = 1 ∧ (waiting.applyReconciliationEvent (snapshotEvent 1)).2.reorderBuffer.size = 0 := by
    decide +kernel
  have hsame := h waiting (snapshotEvent 1) .unknownIntent herror
  rw [hsame] at hafter
  omega

end CopyTrade.Analysis
