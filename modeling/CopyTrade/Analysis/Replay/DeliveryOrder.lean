import CopyTrade.Analysis.Replay.ObserverReplay
import CopyTrade.Foundation.Delivery
import CopyTrade.Foundation.Runs

/-!
# The order in which events are delivered

The observer keeps the events that arrive ahead of their turn in its reorder buffer.  After
any delivery its state is the in-order state of the events up to the first gap, with the
events behind the gap in the buffer.  An event ahead of its turn is refused once 256 events
wait, also when it is itself one of the waiting ones.
-/

namespace CopyTrade.Analysis

open Foundation Model
open Std (ExtTreeMap)

variable {D : Type} [Decimal D]

/-- What accepting an event in its turn shows about it. -/
structure AcceptedInTurn [Sha256] [PayloadEncoding D] (state : ProductionTradingState D)
    (event : VerifiedReconciliationEvent D) (next : ProductionTradingState D) (n : ℕ) : Prop where
  bound : n + 1 < maxU64
  hash : canonicalPayloadHash event.payload = .ok event.identity.eventHash
  step : state.applyContiguous event = .ok next
  inOrder : InOrder next (n + 1)
  hashes : next.appliedEventHashes = state.appliedEventHashes.insert (n + 1) event.identity.eventHash

variable {event : VerifiedReconciliationEvent D} {state : ProductionTradingState D}

theorem applyContiguous_eq_ok [Sha256] {next : ProductionTradingState D}
    (h : state.applyContiguous event = .ok next) :
    next.reorderBuffer = state.reorderBuffer ∧
      next.highestContiguousSignerSequence = event.identity.sequence ∧
      next.appliedEventHashes =
        state.appliedEventHashes.insert event.identity.sequence event.identity.eventHash := by
  obtain ⟨applied, happly, h⟩ := of_bind h
  rw [pure_eq_ok_iff] at h
  subst h
  have hsame := sameOrder_applyPayload happly
  refine ⟨hsame.buffer, rfl, ?_⟩
  rw [hsame.hashes]

theorem replayEvent_inOrder_eq_ok [Sha256] [PayloadEncoding D] {next : ProductionTradingState D}
    {n : ℕ} (horder : InOrder state n) (hsequence : event.identity.sequence = n + 1)
    (h : replayEvent state event = .ok next) : AcceptedInTurn state event next n := by
  have hunseen : state.appliedEventHashes[n + 1]? = none := by
    cases hget : state.appliedEventHashes[n + 1]? with
    | none => rfl
    | some hash =>
      have := horder.hashes _ _ hget
      omega
  unfold replayEvent ProductionTradingState.applyReconciliationEvent at h
  cases hhash : canonicalPayloadHash event.payload with
  | error message =>
    rw [hhash] at h
    cases h
  | ok expected =>
    by_cases hne : expected = event.identity.eventHash
    · subst hne
      have hlow : ¬ n + 1 ≤ n := by omega
      simp only [hhash, bne_self_eq_false, Bool.false_eq_true, if_false, hsequence, hunseen,
        horder.highest, hlow] at h
      cases hadd : checkedAddU64 n 1 with
      | none =>
        rw [hadd] at h
        cases h
      | some turn =>
        have hturn : turn = n + 1 := by
          unfold checkedAddU64 at hadd
          split at hadd
          · cases hadd
            rfl
          · cases hadd
        subst hturn
        simp only [hadd, bne_self_eq_false, Bool.false_eq_true, if_false] at h
        cases hstep : state.applyContiguous event with
        | error error =>
          rw [hstep] at h
          cases h
        | ok applied =>
          rw [hstep] at h
          obtain ⟨hbuffer, hhighest, hhashes⟩ := applyContiguous_eq_ok hstep
          rw [hsequence] at hhighest hhashes
          rw [horder.buffer] at hbuffer
          -- The buffer is empty, so draining it stops in its first round.
          unfold ProductionTradingState.drainBuffer at h
          dsimp only at h
          rw [hhighest, hbuffer] at h
          cases hlast : checkedAddU64 (n + 1) 1 with
          | none =>
            rw [hlast] at h
            cases h
          | some turn =>
            rw [hlast] at h
            have hbound : n + 1 < maxU64 := by
              unfold checkedAddU64 at hlast
              split at hlast
              · omega
              · cases hlast
            have hnext : applied = next := by
              simpa using h
            subst hnext
            refine ⟨hbound, hhash, hstep, ⟨hhighest, hbuffer, ?_⟩, hhashes⟩
            intro sequence hash hget
            rw [hhashes, getElem?_insert_eq] at hget
            split at hget
            · omega
            · have := horder.hashes sequence hash hget
              omega
    · have hdiffers : (expected != event.identity.eventHash) = true := by
        simpa using hne
      simp only [hhash, hdiffers, if_true] at h
      cases h

/-- The states of the in-order application of the events `1, …, n`. -/
structure InOrderRun [Sha256] [PayloadEncoding D] (events : List (VerifiedReconciliationEvent D))
    (after : ℕ → ProductionTradingState D) : Prop where
  inOrder : ∀ k ≤ events.length, InOrder (after k) k
  sequence : ∀ (k : ℕ) (event : VerifiedReconciliationEvent D), events[k]? = some event →
    event.identity.sequence = k + 1
  accepted : ∀ (k : ℕ) (event : VerifiedReconciliationEvent D), events[k]? = some event →
    AcceptedInTurn (after k) event (after (k + 1)) k

theorem exists_inOrderRun [Sha256] [PayloadEncoding D] {final : ProductionTradingState D}
    {events : List (VerifiedReconciliationEvent D)} (hstate : InOrder state 0)
    (hsequence : ∀ (k : ℕ) (event : VerifiedReconciliationEvent D), events[k]? = some event →
      event.identity.sequence = k + 1) (h : replay state events = .ok final) :
    ∃ after, after 0 = state ∧ after events.length = final ∧ InOrderRun events after := by
  have hinitial : ∀ k, ∃ next, replay state (events.take k) = .ok next := by
    intro k
    rw [← List.take_append_drop k events] at h
    obtain ⟨next, hnext, -⟩ := foldlM_append_eq_ok_iff.mp h
    exact ⟨next, hnext⟩
  choose after hafter using hinitial
  have hstep : ∀ (k : ℕ) (event : VerifiedReconciliationEvent D), events[k]? = some event →
      replayEvent (after k) event = .ok (after (k + 1)) := by
    intro k event hevent
    have hnext := hafter (k + 1)
    rw [List.take_add_one, hevent] at hnext
    obtain ⟨middle, hmiddle, hlast⟩ := foldlM_append_eq_ok_iff.mp hnext
    have hsame : after k = middle := Except.ok.inj ((hafter k).symm.trans hmiddle)
    subst hsame
    obtain ⟨last, hlast, hnil⟩ := foldlM_cons_eq_ok_iff.mp hlast
    rw [List.foldlM_nil, pure_eq_ok_iff] at hnil
    subst hnil
    exact hlast
  have hfirst : after 0 = state := (Except.ok.inj (hafter 0)).symm
  have hinOrder : ∀ k ≤ events.length, InOrder (after k) k := by
    intro k
    induction k with
    | zero =>
      intro _
      rw [hfirst]
      exact hstate
    | succ k ih =>
      intro hle
      have hevent : events[k]? = some events[k] := List.getElem?_eq_getElem (by omega)
      exact (replayEvent_inOrder_eq_ok (ih (by omega)) (hsequence k _ hevent)
        (hstep k _ hevent)).inOrder
  refine ⟨after, hfirst, ?_, hinOrder, hsequence, ?_⟩
  · have hall := hafter events.length
    rw [List.take_length, h] at hall
    exact (Except.ok.inj hall).symm
  · intro k event hevent
    have hlt : k < events.length := (List.getElem?_eq_some_iff.mp hevent).1
    exact replayEvent_inOrder_eq_ok (hinOrder k (by omega)) (hsequence k event hevent)
      (hstep k event hevent)

section

variable [Sha256] [PayloadEncoding D] {events : List (VerifiedReconciliationEvent D)}
  {after : ℕ → ProductionTradingState D}

variable {event : VerifiedReconciliationEvent D}

theorem InOrderRun.hash_of_lt (hrun : InOrderRun events after) {k j : ℕ}
    (hevent : events[j]? = some event) (hlt : j < k) (hk : k ≤ events.length) :
    (after k).appliedEventHashes[j + 1]? = some event.identity.eventHash := by
  induction k with
  | zero => omega
  | succ k ih =>
    have hlast : events[k]? = some events[k] := List.getElem?_eq_getElem (by omega)
    rw [(hrun.accepted k _ hlast).hashes, getElem?_insert_eq]
    by_cases heq : k = j
    · subst heq
      rw [hlast, Option.some.injEq] at hevent
      rw [if_pos rfl, hevent]
    · rw [if_neg (by omega)]
      exact ih (by omega) (by omega)

theorem InOrderRun.hash_of_le (hrun : InOrderRun events after) {k j : ℕ} (hle : k ≤ j)
    (hk : k ≤ events.length) : (after k).appliedEventHashes[j + 1]? = none := by
  cases hget : (after k).appliedEventHashes[j + 1]? with
  | none => rfl
  | some hash =>
    have := (hrun.inOrder k hk).hashes _ _ hget
    omega

theorem InOrderRun.exists_index (hrun : InOrderRun events after) (hmem : event ∈ events) :
    ∃ k, events[k]? = some event ∧ event.identity.sequence = k + 1 := by
  obtain ⟨k, hk⟩ := List.mem_iff_getElem?.mp hmem
  exact ⟨k, hk, hrun.sequence k event hk⟩

end

def withBuffer (state : ProductionTradingState D)
    (buffer : ExtTreeMap ℕ (VerifiedReconciliationEvent D)) : ProductionTradingState D :=
  { state with reorderBuffer := buffer }

section

variable {state next : ProductionTradingState D}
  {buffer : ExtTreeMap ℕ (VerifiedReconciliationEvent D)}

theorem compareSnapshot_withBuffer (positions : ExtTreeMap String D) :
    (withBuffer state buffer).compareSnapshot positions =
      withBuffer (state.compareSnapshot positions) buffer := by
  unfold ProductionTradingState.compareSnapshot
  show List.foldl _ (withBuffer { state with positionMismatches := ∅, blockedAssets := ∅ } buffer)
    (state.live.positions.keys ++ positions.keys) = _
  refine List.foldl_hom (fun acc => withBuffer acc buffer) ?_
  intro acc asset
  have hlive : (withBuffer state buffer).live = state.live := rfl
  rw [hlive]
  dsimp only
  split
  · rfl
  · rfl

theorem applyPayload_withBuffer [Sha256] {payload : VerifiedReconciliationPayload D}
    (h : state.applyPayload payload = .ok next) :
    (withBuffer state buffer).applyPayload payload = .ok (withBuffer next buffer) := by
  have hrequire : ∀ {before after : ProductionTradingState D} {cloid target},
      before.requireIntent cloid target = .ok after →
      (withBuffer before buffer).requireIntent cloid target = .ok (withBuffer after buffer) := by
    intro before after cloid target h
    obtain ⟨hmem, rfl⟩ := requireIntent_eq_ok_iff.mp h
    exact requireIntent_eq_ok_iff.mpr ⟨hmem, rfl⟩
  cases payload with
  | intentAccepted identity sequence =>
    cases h
    rfl
  | fill fill =>
    obtain ⟨⟨result, live⟩, hfill, h⟩ := of_bind h
    refine bind_eq_ok_iff.mpr ⟨(result, live), hfill, ?_⟩
    cases result with
    | alreadyApplied =>
      cases h
      rfl
    | applied accounting closed =>
      obtain ⟨middle, hmiddle, h⟩ := of_bind h
      cases h
      exact bind_eq_ok_iff.mpr ⟨withBuffer middle buffer, hrequire hmiddle, rfl⟩
  | funding event =>
    obtain ⟨⟨result, live⟩, hfunding, h⟩ := of_bind h
    refine bind_eq_ok_iff.mpr ⟨(result, live), hfunding, ?_⟩
    cases result with
    | alreadyApplied =>
      cases h
      rfl
    | applied accounting =>
      cases h
      rfl
  | positionSnapshot positions observedAt =>
    cases h
    exact congrArg Except.ok (compareSnapshot_withBuffer positions)
  | equitySnapshot equity observedAt =>
    simp only [ProductionTradingState.applyPayload] at h ⊢
    have hlive : (withBuffer state buffer).live = state.live := rfl
    rw [hlive]
    split at h
    · rename_i hequal
      obtain ⟨live, hreconciled, h⟩ := of_bind h
      cases h
      rw [if_pos hequal]
      exact bind_eq_ok_iff.mpr ⟨live, hreconciled, rfl⟩
    · rename_i hdiffers
      cases h
      rw [if_neg hdiffers]
      rfl
  | _ => exact hrequire h

theorem applyContiguous_withBuffer [Sha256] {event : VerifiedReconciliationEvent D}
    (h : state.applyContiguous event = .ok next) :
    (withBuffer state buffer).applyContiguous event = .ok (withBuffer next buffer) := by
  obtain ⟨applied, happly, h⟩ := of_bind h
  rw [pure_eq_ok_iff] at h
  subst h
  exact bind_eq_ok_iff.mpr ⟨withBuffer applied buffer, applyPayload_withBuffer happly, rfl⟩

end

def sequences (delivered : List (VerifiedReconciliationEvent D)) : List ℕ :=
  delivered.map fun event => event.identity.sequence

/-- The state after the deliveries: the events up to the first gap are applied, those behind
it are in the buffer. -/
structure Held (events : List (VerifiedReconciliationEvent D))
    (delivered : List (VerifiedReconciliationEvent D)) (k : ℕ)
    (buffer : ExtTreeMap ℕ (VerifiedReconciliationEvent D)) : Prop where
  bound : k ≤ events.length
  subset : ∀ event ∈ delivered, event ∈ events
  contiguous : Contiguous (sequences delivered) k
  mem_buffer : ∀ (sequence : ℕ) (event : VerifiedReconciliationEvent D),
    buffer[sequence]? = some event ↔
      event ∈ delivered ∧ event.identity.sequence = sequence ∧ k < sequence

section

variable [Sha256] [PayloadEncoding D] {events delivered : List (VerifiedReconciliationEvent D)}
  {after : ℕ → ProductionTradingState D}
  {buffer : ExtTreeMap ℕ (VerifiedReconciliationEvent D)} {k : ℕ}

theorem InOrderRun.drainBuffer_eq (hrun : InOrderRun events after) {rounds : ℕ}
    (hrounds : buffer.size < rounds) (hpositive : 1 ≤ k) (hle : k ≤ events.length)
    (hbuffer : ∀ (sequence : ℕ) (event : VerifiedReconciliationEvent D),
      buffer[sequence]? = some event →
        event ∈ events ∧ event.identity.sequence = sequence ∧ k < sequence) :
    ∃ next rest, ProductionTradingState.drainBuffer rounds (withBuffer (after k) buffer) =
        (.ok (), withBuffer (after next) rest) ∧
      k ≤ next ∧ next ≤ events.length ∧ (∀ m, k < m → m ≤ next → m ∈ buffer) ∧
      next + 1 ∉ buffer ∧ ∀ (sequence : ℕ) (event : VerifiedReconciliationEvent D),
        rest[sequence]? = some event ↔ buffer[sequence]? = some event ∧ next < sequence := by
  induction rounds generalizing k buffer with
  | zero => omega
  | succ rounds ih =>
    have hturn : checkedAddU64 (withBuffer (after k) buffer).highestContiguousSignerSequence 1 =
        some (k + 1) := by
      have hlast : events[k - 1]? = some events[k - 1] := List.getElem?_eq_getElem (by omega)
      have hbound := (hrun.accepted _ _ hlast).bound
      show checkedAddU64 (after k).highestContiguousSignerSequence 1 = some (k + 1)
      rw [(hrun.inOrder k hle).highest]
      unfold checkedAddU64
      rw [if_pos (by omega)]
    unfold ProductionTradingState.drainBuffer
    rw [hturn]
    dsimp only
    have hsame : (withBuffer (after k) buffer).reorderBuffer = buffer := rfl
    rw [hsame]
    cases hget : buffer[k + 1]? with
    | none =>
      refine ⟨k, buffer, rfl, le_refl k, hle, by omega, ?_, ?_⟩
      · rw [ExtTreeMap.mem_iff_isSome_getElem?, hget]
        simp
      · intro sequence event
        constructor
        · intro hentry
          exact ⟨hentry, (hbuffer sequence event hentry).2.2⟩
        · intro hentry
          exact hentry.1
    | some event =>
      obtain ⟨hmem, hsequence, -⟩ := hbuffer _ _ hget
      obtain ⟨index, hindex, hplace⟩ := hrun.exists_index hmem
      obtain rfl : k = index := by omega
      have hlt : k < events.length := (List.getElem?_eq_some_iff.mp hindex).1
      have hstep : (withBuffer (after k) (buffer.erase (k + 1))).applyContiguous event =
          .ok (withBuffer (after (k + 1)) (buffer.erase (k + 1))) :=
        applyContiguous_withBuffer (hrun.accepted k event hindex).step
      have hcontains : k + 1 ∈ buffer := by
        rw [ExtTreeMap.mem_iff_isSome_getElem?, hget]
        rfl
      have hsize : (buffer.erase (k + 1)).size < rounds := by
        have hless := size_erase_lt hcontains
        omega
      have herased : ∀ (sequence : ℕ) (other : VerifiedReconciliationEvent D),
          (buffer.erase (k + 1))[sequence]? = some other ↔
            buffer[sequence]? = some other ∧ sequence ≠ k + 1 := by
        intro sequence other
        rw [getElem?_erase_eq]
        by_cases heq : k + 1 = sequence
        · simp [heq]
        · simp [heq, Ne.symm heq]
      obtain ⟨next, rest, hdrain, hfirst, hend, harrived, hmissing, hrest⟩ := ih hsize (by omega)
        hlt (by
          intro sequence other hentry
          obtain ⟨hentry, hother⟩ := (herased sequence other).mp hentry
          obtain ⟨hin, hplaced, hlater⟩ := hbuffer sequence other hentry
          exact ⟨hin, hplaced, by omega⟩)
      have hmemErase : ∀ m, m ∈ buffer.erase (k + 1) ↔ m ≠ k + 1 ∧ m ∈ buffer := by
        intro m
        rw [ExtTreeMap.mem_erase, ne_eq, Std.LawfulEqOrd.compare_eq_iff_eq, eq_comm]
      refine ⟨next, rest, ?_, by omega, hend, ?_, ?_, ?_⟩
      · have htaken : ({ withBuffer (after k) buffer with
            reorderBuffer := buffer.erase (k + 1) } : ProductionTradingState D) =
            withBuffer (after k) (buffer.erase (k + 1)) := rfl
        dsimp only
        rw [htaken, hstep]
        exact hdrain
      · intro m hlow hhigh
        by_cases heq : m = k + 1
        · rw [heq]
          exact hcontains
        · exact ((hmemErase m).mp (harrived m (by omega) hhigh)).2
      · intro hmem
        exact hmissing ((hmemErase (next + 1)).mpr ⟨by omega, hmem⟩)
      · intro sequence other
        rw [hrest, herased]
        constructor
        · rintro ⟨⟨hentry, -⟩, hlater⟩
          exact ⟨hentry, hlater⟩
        · rintro ⟨hentry, hlater⟩
          exact ⟨⟨hentry, by omega⟩, hlater⟩

omit [Decimal D] [Sha256] [PayloadEncoding D] in
theorem sequences_append (delivered : List (VerifiedReconciliationEvent D))
    (event : VerifiedReconciliationEvent D) :
    sequences (delivered ++ [event]) = sequences delivered ++ [event.identity.sequence] := by
  unfold sequences
  rw [List.map_append, List.map_singleton]

variable {event : VerifiedReconciliationEvent D}

theorem InOrderRun.eq_of_sequence (hrun : InOrderRun events after)
    {other : VerifiedReconciliationEvent D} (hevent : event ∈ events) (hother : other ∈ events)
    (h : event.identity.sequence = other.identity.sequence) : event = other := by
  obtain ⟨i, hi, hplace⟩ := hrun.exists_index hevent
  obtain ⟨j, hj, hother⟩ := hrun.exists_index hother
  obtain rfl : i = j := by omega
  exact Option.some.inj (hi.symm.trans hj)

omit [Decimal D] [Sha256] [PayloadEncoding D] in
theorem Held.mem_iff_waiting (hheld : Held events delivered k buffer) (sequence : ℕ) :
    sequence ∈ buffer ↔ sequence ∈ waiting (sequences delivered) := by
  rw [hheld.contiguous.mem_waiting_iff, ExtTreeMap.mem_iff_isSome_getElem?,
    Option.isSome_iff_exists]
  unfold sequences
  rw [List.mem_map]
  constructor
  · rintro ⟨event, hentry⟩
    obtain ⟨hmem, hsequence, hlater⟩ := (hheld.mem_buffer sequence event).mp hentry
    exact ⟨⟨event, hmem, hsequence⟩, hlater⟩
  · rintro ⟨⟨event, hmem, hsequence⟩, hlater⟩
    exact ⟨event, (hheld.mem_buffer sequence event).mpr ⟨hmem, hsequence, hlater⟩⟩

omit [Decimal D] [Sha256] [PayloadEncoding D] in
theorem Held.size_eq (hheld : Held events delivered k buffer) :
    buffer.size = (waiting (sequences delivered)).card :=
  size_eq_card hheld.mem_iff_waiting

theorem Held.deliver_applied (hrun : InOrderRun events after)
    (hheld : Held events delivered k buffer) (hmem : event ∈ events)
    (hle : event.identity.sequence ≤ k) :
    (withBuffer (after k) buffer).applyReconciliationEvent event =
        (.ok (.alreadyApplied k), withBuffer (after k) buffer) ∧
      Held events (delivered ++ [event]) k buffer := by
  obtain ⟨index, hindex, hsequence⟩ := hrun.exists_index hmem
  refine ⟨?_, hheld.bound, ?_, ?_, ?_⟩
  · have hknown : (withBuffer (after k) buffer).appliedEventHashes[event.identity.sequence]? =
        some event.identity.eventHash := by
      rw [hsequence]
      exact hrun.hash_of_lt hindex (by omega) hheld.bound
    have hhighest : (withBuffer (after k) buffer).highestContiguousSignerSequence = k :=
      (hrun.inOrder k hheld.bound).highest
    unfold ProductionTradingState.applyReconciliationEvent
    simp only [(hrun.accepted index event hindex).hash, bne_self_eq_false, Bool.false_eq_true,
      if_false, hknown, beq_self_eq_true, if_true, hhighest]
  · exact List.forall_mem_append.mpr ⟨hheld.subset, by simpa using hmem⟩
  · rw [sequences_append]
    exact hheld.contiguous.append (by omega)
  · intro sequence other
    rw [hheld.mem_buffer, List.mem_append, List.mem_singleton]
    constructor
    · rintro ⟨hother, hplace, hlater⟩
      exact ⟨.inl hother, hplace, hlater⟩
    · rintro ⟨hother | rfl, hplace, hlater⟩
      · exact ⟨hother, hplace, hlater⟩
      · omega

theorem InOrderRun.deliver_later (hrun : InOrderRun events after) (hmem : event ∈ events)
    (hk : k ≤ events.length) (hlt : k < event.identity.sequence) :
    (withBuffer (after k) buffer).applyReconciliationEvent event =
      if event.identity.sequence != k + 1 then
        if ProductionTradingState.maximumReorderWindow ≤ buffer.size then
          (.error .reorderWindowExhausted, withBuffer (after k) buffer)
        else
          match buffer[event.identity.sequence]? with
          | some existing =>
            if existing.identity.eventHash != event.identity.eventHash then
              (.error .sequenceIdentityConflict, withBuffer (after k) buffer)
            else (.ok (.buffered (k + 1)), withBuffer (after k) buffer)
          | none =>
            (.ok (.buffered (k + 1)),
              withBuffer (after k) (buffer.insert event.identity.sequence event))
      else
        match (withBuffer (after k) buffer).applyContiguous event with
        | .error error => (.error error, withBuffer (after k) buffer)
        | .ok applied =>
          match ProductionTradingState.drainBuffer (applied.reorderBuffer.size + 1) applied with
          | (.error error, drained) => (.error error, drained)
          | (.ok _, drained) =>
            (.ok (.applied drained.highestContiguousSignerSequence), drained) := by
  obtain ⟨index, hindex, hsequence⟩ := hrun.exists_index hmem
  have hunknown : (withBuffer (after k) buffer).appliedEventHashes[event.identity.sequence]? =
      none := by
    rw [hsequence]
    exact hrun.hash_of_le (by omega) hk
  have hhighest : (withBuffer (after k) buffer).highestContiguousSignerSequence = k :=
    (hrun.inOrder k hk).highest
  have hturn : checkedAddU64 (withBuffer (after k) buffer).highestContiguousSignerSequence 1 =
      some (k + 1) := by
    have hbound := (hrun.accepted index event hindex).bound
    unfold checkedAddU64
    rw [hhighest, if_pos (by omega)]
  have hlow : ¬ event.identity.sequence ≤
      (withBuffer (after k) buffer).highestContiguousSignerSequence := by
    rw [hhighest]
    omega
  unfold ProductionTradingState.applyReconciliationEvent
  simp only [(hrun.accepted index event hindex).hash, bne_self_eq_false, Bool.false_eq_true,
    if_false, hunknown, hturn, hlow]
  rfl

theorem Held.deliver_turn (hrun : InOrderRun events after) (hheld : Held events delivered k buffer)
    (hmem : event ∈ events) (hturn : event.identity.sequence = k + 1) :
    ∃ next rest, (withBuffer (after k) buffer).applyReconciliationEvent event =
        (.ok (.applied next), withBuffer (after next) rest) ∧
      Held events (delivered ++ [event]) next rest := by
  obtain ⟨index, hindex, hsequence⟩ := hrun.exists_index hmem
  obtain rfl : k = index := by omega
  have hlt : k < events.length := (List.getElem?_eq_some_iff.mp hindex).1
  have hstep : (withBuffer (after k) buffer).applyContiguous event =
      .ok (withBuffer (after (k + 1)) buffer) :=
    applyContiguous_withBuffer (hrun.accepted k event hindex).step
  have hbuffer : ∀ (sequence : ℕ) (other : VerifiedReconciliationEvent D),
      buffer[sequence]? = some other →
        other ∈ events ∧ other.identity.sequence = sequence ∧ k + 1 < sequence := by
    intro sequence other hentry
    obtain ⟨hother, hplace, hlater⟩ := (hheld.mem_buffer sequence other).mp hentry
    have hne : sequence ≠ k + 1 := by
      rintro rfl
      exact hheld.contiguous.missing (List.mem_map.mpr ⟨other, hother, hplace⟩)
    exact ⟨hheld.subset other hother, hplace, by omega⟩
  obtain ⟨next, rest, hdrain, hfirst, hend, harrived, hmissing, hrest⟩ :=
    hrun.drainBuffer_eq (Nat.lt_succ_self buffer.size) (by omega) hlt hbuffer
  refine ⟨next, rest, ?_, hend, ?_, ?_, ?_⟩
  · rw [hrun.deliver_later hmem hheld.bound (by omega), hturn, bne_self_eq_false]
    have hhighest : (withBuffer (after next) rest).highestContiguousSignerSequence = next :=
      (hrun.inOrder next hend).highest
    have hsize : (withBuffer (after (k + 1)) buffer).reorderBuffer.size = buffer.size := rfl
    simp only [Bool.false_eq_true, if_false, hstep, hsize, hdrain, hhighest]
  · exact List.forall_mem_append.mpr ⟨hheld.subset, by simpa using hmem⟩
  · rw [sequences_append, hturn]
    refine hheld.contiguous.close hfirst ?_ ?_
    · intro m hlow hhigh
      have hwaits := (hheld.mem_iff_waiting m).mp (harrived m hlow hhigh)
      exact (hheld.contiguous.mem_waiting_iff.mp hwaits).1
    · intro hseen
      refine hmissing ((hheld.mem_iff_waiting _).mpr ?_)
      exact hheld.contiguous.mem_waiting_iff.mpr ⟨hseen, by omega⟩
  · intro sequence other
    rw [hrest, hheld.mem_buffer, List.mem_append, List.mem_singleton]
    constructor
    · rintro ⟨⟨hother, hplace, -⟩, hlater⟩
      exact ⟨.inl hother, hplace, hlater⟩
    · rintro ⟨hother | rfl, hplace, hlater⟩
      · exact ⟨⟨hother, hplace, by omega⟩, hlater⟩
      · omega

theorem Held.deliver_ahead (hrun : InOrderRun events after) (hheld : Held events delivered k buffer)
    (hmem : event ∈ events) (hahead : k + 1 < event.identity.sequence)
    (hroom : buffer.size < ProductionTradingState.maximumReorderWindow) :
    ∃ rest, (withBuffer (after k) buffer).applyReconciliationEvent event =
        (.ok (.buffered (k + 1)), withBuffer (after k) rest) ∧
      Held events (delivered ++ [event]) k rest := by
  have hdifferent : (event.identity.sequence != k + 1) = true := by
    rw [bne_iff_ne]
    omega
  have hsubset : ∀ other ∈ delivered ++ [event], other ∈ events :=
    List.forall_mem_append.mpr ⟨hheld.subset, by simpa using hmem⟩
  have hcontiguous : Contiguous (sequences (delivered ++ [event])) k := by
    rw [sequences_append]
    exact hheld.contiguous.append (by omega)
  rw [hrun.deliver_later hmem hheld.bound (by omega), hdifferent, if_pos rfl,
    if_neg (by omega : ¬ ProductionTradingState.maximumReorderWindow ≤ buffer.size)]
  cases hget : buffer[event.identity.sequence]? with
  | some existing =>
    -- The event is in the buffer already.
    obtain ⟨hknown, hplace, -⟩ := (hheld.mem_buffer _ existing).mp hget
    obtain rfl : existing = event :=
      hrun.eq_of_sequence (hheld.subset existing hknown) hmem hplace
    refine ⟨buffer, ?_, hheld.bound, hsubset, hcontiguous, ?_⟩
    · simp only [bne_self_eq_false, Bool.false_eq_true, if_false]
    · intro sequence other
      rw [hheld.mem_buffer, List.mem_append, List.mem_singleton]
      constructor
      · rintro ⟨hother, hrest⟩
        exact ⟨.inl hother, hrest⟩
      · rintro ⟨hother | rfl, hrest⟩
        · exact ⟨hother, hrest⟩
        · exact ⟨hknown, hrest⟩
  | none =>
    refine ⟨buffer.insert event.identity.sequence event, rfl, hheld.bound, hsubset, hcontiguous, ?_⟩
    intro sequence other
    rw [getElem?_insert_eq, List.mem_append, List.mem_singleton]
    split
    · rename_i hsame
      subst hsame
      constructor
      · intro hentry
        cases hentry
        exact ⟨.inr rfl, rfl, by omega⟩
      · rintro ⟨hother | rfl, hplace, -⟩
        · rw [hrun.eq_of_sequence (hheld.subset other hother) hmem hplace]
        · rfl
    · rename_i hother
      rw [hheld.mem_buffer]
      constructor
      · rintro ⟨hmem, hrest⟩
        exact ⟨.inl hmem, hrest⟩
      · rintro ⟨hmem | rfl, hplace, hlater⟩
        · exact ⟨hmem, hplace, hlater⟩
        · exact absurd hplace hother

theorem Held.deliver_full (hrun : InOrderRun events after) (hheld : Held events delivered k buffer)
    (hmem : event ∈ events) (hahead : k + 1 < event.identity.sequence)
    (hfull : ProductionTradingState.maximumReorderWindow ≤ buffer.size) :
    (withBuffer (after k) buffer).applyReconciliationEvent event =
      (.error .reorderWindowExhausted, withBuffer (after k) buffer) := by
  have hdifferent : (event.identity.sequence != k + 1) = true := by
    rw [bne_iff_ne]
    omega
  rw [hrun.deliver_later hmem hheld.bound (by omega), hdifferent, if_pos rfl, if_pos hfull]

def Refused (delivered : List (VerifiedReconciliationEvent D))
    (event : VerifiedReconciliationEvent D) : Prop :=
  Ahead (sequences delivered) event.identity.sequence ∧
    ProductionTradingState.maximumReorderWindow ≤ (waiting (sequences delivered)).card

def deliver (state : ProductionTradingState D) (event : VerifiedReconciliationEvent D) :
    ProductionTradingState D :=
  (state.applyReconciliationEvent event).2

/-- The call returns `Ok`. -/
def Accepts (state : ProductionTradingState D) (event : VerifiedReconciliationEvent D) : Prop :=
  ∃ application, (state.applyReconciliationEvent event).1 = .ok application

theorem Held.accepts_iff (hrun : InOrderRun events after) (hheld : Held events delivered k buffer)
    (hmem : event ∈ events) :
    Accepts (withBuffer (after k) buffer) event ↔ ¬ Refused delivered event := by
  unfold Accepts Refused
  rw [hheld.contiguous.ahead_iff, ← hheld.size_eq]
  rcases Nat.lt_or_ge (k + 1) event.identity.sequence with hahead | hle
  · by_cases hfull : ProductionTradingState.maximumReorderWindow ≤ buffer.size
    · rw [hheld.deliver_full hrun hmem hahead hfull]
      simp [hahead, hfull]
    · obtain ⟨rest, hresult, -⟩ := hheld.deliver_ahead hrun hmem hahead (by omega)
      rw [hresult]
      simp [hfull]
  · have hnot : ¬ k + 1 < event.identity.sequence := by omega
    rcases Nat.lt_or_ge k event.identity.sequence with hlt | happlied
    · obtain ⟨next, rest, hresult, -⟩ := hheld.deliver_turn hrun hmem (by omega)
      rw [hresult]
      simp [hnot]
    · rw [(hheld.deliver_applied hrun hmem happlied).1]
      simp [hnot]

theorem Held.deliver (hrun : InOrderRun events after) (hheld : Held events delivered k buffer)
    (hmem : event ∈ events) (haccepted : ¬ Refused delivered event) :
    ∃ next rest, Analysis.deliver (withBuffer (after k) buffer) event =
      withBuffer (after next) rest ∧ Held events (delivered ++ [event]) next rest := by
  unfold Refused at haccepted
  rw [hheld.contiguous.ahead_iff, ← hheld.size_eq] at haccepted
  unfold Analysis.deliver
  rcases Nat.lt_or_ge (k + 1) event.identity.sequence with hahead | hle
  · have hroom : buffer.size < ProductionTradingState.maximumReorderWindow := by
      by_contra hfull
      exact haccepted ⟨hahead, by omega⟩
    obtain ⟨rest, hresult, hnext⟩ := hheld.deliver_ahead hrun hmem hahead hroom
    rw [hresult]
    exact ⟨k, rest, rfl, hnext⟩
  · rcases Nat.lt_or_ge k event.identity.sequence with hlt | happlied
    · obtain ⟨next, rest, hresult, hnext⟩ := hheld.deliver_turn hrun hmem (by omega)
      rw [hresult]
      exact ⟨next, rest, rfl, hnext⟩
    · obtain ⟨hresult, hnext⟩ := hheld.deliver_applied hrun hmem happlied
      rw [hresult]
      exact ⟨k, buffer, rfl, hnext⟩

variable {deliveries : List (VerifiedReconciliationEvent D)}

theorem Held.allSteps_iff (hrun : InOrderRun events after) (hheld : Held events delivered k buffer)
    (hmem : ∀ event ∈ deliveries, event ∈ events) :
    AllSteps Analysis.deliver Accepts (withBuffer (after k) buffer) deliveries ↔
      ∀ before event rest, deliveries = before ++ event :: rest →
        ¬ Refused (delivered ++ before) event := by
  induction deliveries generalizing delivered k buffer with
  | nil => simp [AllSteps]
  | cons event deliveries ih =>
    obtain ⟨hevent, hmem⟩ := List.forall_mem_cons.mp hmem
    rw [forall_split_cons, AllSteps, hheld.accepts_iff hrun hevent, List.append_nil]
    refine and_congr_right ?_
    intro haccepted
    obtain ⟨next, rest, hnext, hheld⟩ := hheld.deliver hrun hevent haccepted
    rw [hnext, ih hheld hmem]
    simp only [List.append_assoc, List.singleton_append]

theorem Held.run_eq (hrun : InOrderRun events after) (hheld : Held events delivered k buffer)
    (hmem : ∀ event ∈ deliveries, event ∈ events)
    (hall : AllSteps Analysis.deliver Accepts (withBuffer (after k) buffer) deliveries) :
    ∃ next rest, run Analysis.deliver (withBuffer (after k) buffer) deliveries =
      withBuffer (after next) rest ∧ Held events (delivered ++ deliveries) next rest := by
  induction deliveries generalizing delivered k buffer with
  | nil =>
    rw [List.append_nil]
    exact ⟨k, buffer, rfl, hheld⟩
  | cons event deliveries ih =>
    obtain ⟨hevent, hmem⟩ := List.forall_mem_cons.mp hmem
    obtain ⟨hfirst, hall⟩ := hall
    obtain ⟨middle, waitingEvents, hmiddle, hnext⟩ :=
      hheld.deliver hrun hevent ((hheld.accepts_iff hrun hevent).mp hfirst)
    rw [hmiddle] at hall
    obtain ⟨next, rest, hlast, hheld⟩ := ih hnext hmem hall
    refine ⟨next, rest, ?_, ?_⟩
    · rw [run_cons, hmiddle, hlast]
    · rw [← List.append_cons] at hheld
      exact hheld

theorem held_start (hrun : InOrderRun events after) : Held events [] 0 (after 0).reorderBuffer := by
  refine ⟨Nat.zero_le _, by simp, contiguous_nil, ?_⟩
  intro sequence event
  rw [(hrun.inOrder 0 (Nat.zero_le _)).buffer]
  simp

theorem Held.eq_last (hrun : InOrderRun events after) (hheld : Held events delivered k buffer)
    (hall : ∀ event ∈ events, event ∈ delivered) :
    withBuffer (after k) buffer = after events.length := by
  have hlast : k = events.length := by
    by_contra hne
    have hbound := hheld.bound
    have hlt : k < events.length := by omega
    have hentry : events[k]? = some events[k] := List.getElem?_eq_getElem hlt
    refine hheld.contiguous.missing ?_
    exact List.mem_map.mpr ⟨events[k], hall _ (List.getElem_mem hlt), hrun.sequence k _ hentry⟩
  have hempty : buffer = ∅ := by
    apply ExtTreeMap.ext_getElem?
    intro sequence
    rw [ExtTreeMap.getElem?_empty]
    cases hget : buffer[sequence]? with
    | none => rfl
    | some event =>
      obtain ⟨hmem, hplace, hlater⟩ := (hheld.mem_buffer sequence event).mp hget
      obtain ⟨index, hindex, hsequence⟩ := hrun.exists_index (hheld.subset event hmem)
      have hlt : index < events.length := (List.getElem?_eq_some_iff.mp hindex).1
      omega
  rw [hempty, hlast, ← (hrun.inOrder events.length (le_refl _)).buffer]
  rfl

end

/-- **Delivery order and duplicates.**  The observer takes the events `1, …, n`, in any order and
any number of times with at most 256 of them waiting, like the in-order delivery, unless one of the
waiting events is delivered again while 256 wait. -/
theorem delivery_order_independent_iff [Sha256] [PayloadEncoding D]
    {state final : ProductionTradingState D}
    {events deliveries : List (VerifiedReconciliationEvent D)} (hstate : InOrder state 0)
    (hsequence : ∀ (k : ℕ) (event : VerifiedReconciliationEvent D), events[k]? = some event →
      event.identity.sequence = k + 1) (hfinal : replay state events = .ok final)
    (hdelivered : ∀ event, event ∈ deliveries ↔ event ∈ events)
    (hwindow : ∀ before, before <+: deliveries → (waiting (sequences before)).card ≤ 256) :
    AllSteps deliver Accepts state deliveries ∧ run deliver state deliveries = final ↔
      ∀ before event rest, deliveries = before ++ event :: rest →
        (waiting (sequences before)).card = 256 →
        event.identity.sequence ∉ waiting (sequences before) := by
  obtain ⟨after, hfirst, hlast, hrun⟩ := exists_inOrderRun hstate hsequence hfinal
  have hmem : ∀ event ∈ deliveries, event ∈ events := fun event => (hdelivered event).mp
  have hstart : withBuffer (after 0) (after 0).reorderBuffer = state := hfirst
  have hheld := held_start hrun
  have haccepted := hheld.allSteps_iff hrun hmem
  simp only [hstart, List.nil_append] at haccepted
  have hend : AllSteps deliver Accepts state deliveries → run deliver state deliveries = final := by
    intro hall
    rw [← hstart] at hall ⊢
    obtain ⟨next, rest, hresult, hheld⟩ := hheld.run_eq hrun hmem hall
    rw [hresult, hheld.eq_last hrun fun event => (hdelivered event).mpr, hlast]
  rw [and_iff_left_of_imp hend, haccepted]
  constructor
  · intro hnone before event rest hsplit hfull hwaits
    refine hnone before event rest hsplit ⟨(mem_waiting_iff.mp hwaits).2, ?_⟩
    exact hfull.ge
  · rintro hnever before event rest hsplit ⟨hahead, hfull⟩
    have hbefore := hwindow before ⟨event :: rest, hsplit.symm⟩
    have hcard : (waiting (sequences before)).card = 256 := le_antisymm hbefore hfull
    -- A first delivery at a full buffer would make 257 events wait.
    have hwaits : event.identity.sequence ∈ waiting (sequences before) := by
      by_contra hnew
      have hfirst : event.identity.sequence ∉ sequences before := fun hseen =>
        hnew (mem_waiting_iff.mpr ⟨hseen, hahead⟩)
      have hnext := hwindow (before ++ [event]) ⟨rest, by rw [hsplit, List.append_assoc]; rfl⟩
      rw [sequences_append, card_waiting_append hahead hfirst] at hnext
      omega
    exact hnever before event rest hsplit hcard hwaits

/-- An empty position snapshot as MessagePack: an array of the tag, the map and the time. -/
def snapshotBytes : List UInt8 :=
  [0x93, 0xb1] ++ textBytes "position_snapshot" ++ [0x80, 0x00]

def snapshotEvent (sequence : ℕ) : VerifiedReconciliationEvent ℚ where
  identity :=
    { signerInstanceId := Bytes.replicate 16 1, sequence, eventHash := prefixDigest snapshotBytes }
  payload := .positionSnapshot ∅ 0

def snapshotEvents (first n : ℕ) : List (VerifiedReconciliationEvent ℚ) :=
  (List.range' first n).map snapshotEvent

theorem snapshotEvents_sequence (k n : ℕ) (event : VerifiedReconciliationEvent ℚ)
    (h : (snapshotEvents 1 n)[k]? = some event) : event.identity.sequence = k + 1 := by
  unfold snapshotEvents at h
  rw [List.getElem?_map] at h
  obtain ⟨sequence, hsequence, rfl⟩ := Option.map_eq_some_iff.mp h
  obtain ⟨hlt, rfl⟩ := List.getElem?_eq_some_iff.mp hsequence
  rw [List.getElem_range']
  show 1 + 1 * k = k + 1
  omega

theorem sequences_snapshotEvents (first n : ℕ) :
    sequences (snapshotEvents first n) = List.range' first n := by
  unfold sequences snapshotEvents
  rw [List.map_map]
  exact List.map_id _

theorem exists_replay_snapshots [Sha256] [PayloadEncoding ℚ]
    (hhash : canonicalPayloadHash (.positionSnapshot (∅ : ExtTreeMap String ℚ) 0) =
      .ok (prefixDigest snapshotBytes)) {n k : ℕ} {state : ProductionTradingState ℚ}
    (horder : InOrder state k) (hbound : k + n < maxU64) :
    ∃ final, replay state (snapshotEvents (k + 1) n) = .ok final := by
  induction n generalizing k state with
  | zero => exact ⟨state, rfl⟩
  | succ n ih =>
    have hsealed : Sealed (k + 1) [snapshotEvent (k + 1)] :=
      ⟨rfl, by omega, hhash, trivial⟩
    obtain ⟨next, hnext, hinOrder, -, -⟩ := replayEvent_next horder hsealed rfl
    obtain ⟨final, hfinal⟩ := ih hinOrder (by omega)
    exact ⟨final, foldlM_cons_eq_ok_iff.mpr ⟨next, hnext, hfinal⟩⟩

theorem delivery_order_independent_iff_backwards :
    ∃ (_ : Sha256) (_ : PayloadEncoding ℚ) (final : ProductionTradingState ℚ),
      replay (ProductionTradingState.new (LiveTradingState.starting 1000 0)) (snapshotEvents 1 3) =
          .ok final ∧
        run deliver (ProductionTradingState.new (LiveTradingState.starting 1000 0))
          ([3, 2, 3, 1, 1].map snapshotEvent) = final := by
  let sha : Sha256 := ⟨prefixDigest⟩
  let encoding : PayloadEncoding ℚ := ⟨fun _ => .ok snapshotBytes⟩
  obtain ⟨final, hfinal⟩ := exists_replay_snapshots (n := 3) rfl
    (inOrder_new (LiveTradingState.starting (1000 : ℚ) 0)) (by decide)
  have hshort : ∀ before, before <+: [3, 2, 3, 1, 1].map snapshotEvent →
      (waiting (sequences before)).card ≤ 5 := by
    intro before hbefore
    have hlength : (sequences before).length ≤ 5 := by
      unfold sequences
      rw [List.length_map]
      exact hbefore.length_le
    exact (card_waiting_le_length _).trans hlength
  refine ⟨sha, encoding, final, hfinal, ?_⟩
  have hmem : ∀ event, event ∈ [3, 2, 3, 1, 1].map snapshotEvent ↔ event ∈ snapshotEvents 1 3 := by
    intro event
    show event ∈ [3, 2, 3, 1, 1].map snapshotEvent ↔ event ∈ [1, 2, 3].map snapshotEvent
    simp only [List.map_cons, List.map_nil, List.mem_cons, List.not_mem_nil, or_false]
    tauto
  have hwindow : ∀ before, before <+: [3, 2, 3, 1, 1].map snapshotEvent →
      (waiting (sequences before)).card ≤ 256 := by
    intro before hbefore
    exact (hshort before hbefore).trans (by decide)
  refine ((delivery_order_independent_iff (inOrder_new (LiveTradingState.starting 1000 0))
    (fun k event => snapshotEvents_sequence k 3 event) hfinal hmem hwindow).mpr ?_).2
  intro before event rest hsplit hfull
  have := hshort before ⟨event :: rest, hsplit.symm⟩
  omega

/-- The events 2 to 257 fill the buffer, and the second delivery of event 2 is refused. -/
theorem waiting_duplicate_refused :
    ¬ ∀ [Sha256] [PayloadEncoding ℚ] (live : LiveTradingState ℚ)
      (final : ProductionTradingState ℚ)
      (events deliveries : List (VerifiedReconciliationEvent ℚ)),
      (∀ (k : ℕ) (event : VerifiedReconciliationEvent ℚ), events[k]? = some event →
        event.identity.sequence = k + 1) →
      replay (ProductionTradingState.new live) events = .ok final →
      (∀ event, event ∈ deliveries ↔ event ∈ events) →
      (∀ before, before <+: deliveries → (waiting (sequences before)).card ≤ 256) →
      AllSteps deliver Accepts (ProductionTradingState.new live) deliveries ∧
        run deliver (ProductionTradingState.new live) deliveries = final := by
  intro h
  let sha : Sha256 := ⟨prefixDigest⟩
  let encoding : PayloadEncoding ℚ := ⟨fun _ => .ok snapshotBytes⟩
  let live : LiveTradingState ℚ := LiveTradingState.starting 1000 0
  obtain ⟨final, hfinal⟩ := exists_replay_snapshots (n := 257) rfl (inOrder_new live) (by decide)
  let deliveries := snapshotEvents 2 256 ++ [snapshotEvent 2, snapshotEvent 1]
  have hrange : snapshotEvents 1 257 = snapshotEvent 1 :: snapshotEvents 2 256 := by
    unfold snapshotEvents
    rw [List.range'_succ, List.map_cons]
  have hsecond : snapshotEvent 2 ∈ snapshotEvents 2 256 :=
    List.mem_map_of_mem (List.mem_range'_1.mpr (by omega))
  have hdelivered : ∀ event, event ∈ deliveries ↔ event ∈ snapshotEvents 1 257 := by
    intro event
    rw [hrange]
    simp only [deliveries, List.mem_append, List.mem_cons, List.not_mem_nil, or_false]
    constructor
    · rintro (hmem | rfl | rfl)
      · exact .inr hmem
      · exact .inr hsecond
      · exact .inl rfl
    · rintro (rfl | hmem)
      · exact .inr (.inr rfl)
      · exact .inl hmem
  have hwindow : ∀ before, before <+: deliveries → (waiting (sequences before)).card ≤ 256 := by
    intro before hbefore
    refine card_waiting_le ?_
    intro sequence hsequence
    obtain ⟨event, hevent, rfl⟩ := List.mem_map.mp hsequence
    obtain ⟨number, hnumber, rfl⟩ :=
      List.mem_map.mp ((hdelivered event).mp (hbefore.subset hevent))
    have := List.mem_range'_1.mp hnumber
    show number ≤ 257
    omega
  obtain ⟨hall, -⟩ := h live final (snapshotEvents 1 257) deliveries
    (fun k event => snapshotEvents_sequence k 257 event) hfinal hdelivered hwindow
  obtain ⟨after, hfirst, -, hrun⟩ := exists_inOrderRun (inOrder_new live)
    (fun k event => snapshotEvents_sequence k 257 event) hfinal
  have hstart : withBuffer (after 0) (after 0).reorderBuffer = ProductionTradingState.new live :=
    hfirst
  rw [← hstart, (held_start hrun).allSteps_iff hrun fun event => (hdelivered event).mp] at hall
  refine hall (snapshotEvents 2 256) (snapshotEvent 2) [snapshotEvent 1] rfl ⟨?_, ?_⟩
  · rw [List.nil_append, sequences_snapshotEvents]
    refine ⟨1, by decide, ?_⟩
    intro hone
    have := List.mem_range'_1.mp hone
    omega
  · rw [List.nil_append, sequences_snapshotEvents]
    have hcard : (waiting (List.range' 2 256)).card = (List.range' 2 256).length := by
      refine card_waiting_of_nodup ?_ ?_ List.nodup_range'
      · intro hone
        have := List.mem_range'_1.mp hone
        omega
      · intro hzero
        have := List.mem_range'_1.mp hzero
        omega
    rw [hcard, List.length_range']
    exact le_refl 256

end CopyTrade.Analysis
