import CopyTrade.Foundation.Runs
import CopyTrade.Model.Signer.Outbox
import CopyTrade.Model.WholeDecimal

/-!
# The capacity of the outbox

An outbox numbers its events without gaps as long as every payload can be hashed, and appends a
source key at most once.  An acknowledgement frees no room: the capacity bounds all events that were
ever appended.
-/

namespace CopyTrade.Analysis

open Foundation Model
open Model.DurableReconciliationOutbox
open Std (ExtTreeSet)

variable {D : Type}

theorem filter_eq_drop_of_range' {α : Type} {number : α → ℕ} {entries : List α} {first n : ℕ}
    (h : entries.map number = List.range' first n) (after : ℕ) :
    (entries.filter fun entry => after < number entry) = entries.drop (after + 1 - first) := by
  induction entries generalizing first n with
  | nil => simp
  | cons entry entries ih =>
    cases n with
    | zero => cases h
    | succ n =>
      rw [List.map_cons, List.range'_succ, List.cons.injEq] at h
      obtain ⟨hfirst, hrest⟩ := h
      rw [List.filter_cons, ih hrest]
      by_cases hafter : after < number entry
      · rw [if_pos (by simpa using hafter), show after + 1 - first = 0 by omega,
          show after + 1 - (first + 1) = 0 by omega, List.drop_zero, List.drop_zero]
      · rw [if_neg (by simpa using hafter),
          show after + 1 - first = after + 1 - (first + 1) + 1 by omega, List.drop_succ_cons]

/-- The events of an outbox are numbered from one up to the highest sequence, and the events after a
sequence are exactly the later ones in order. -/
structure Contiguous (outbox : DurableReconciliationOutbox D) : Prop where
  sequences : (outbox.events.map fun event => event.identity.sequence) =
    List.range' 1 outbox.highestSequence
  laterEvents : ∀ sequence, outbox.eventsAfter sequence = outbox.events.drop sequence

variable {outbox : DurableReconciliationOutbox D}

theorem contiguous_iff :
    Contiguous outbox ↔ (outbox.events.map fun event => event.identity.sequence) =
      List.range' 1 outbox.highestSequence := by
  constructor
  · exact Contiguous.sequences
  · intro h
    refine ⟨h, ?_⟩
    intro sequence
    exact filter_eq_drop_of_range' h sequence

theorem Contiguous.length (h : Contiguous outbox) :
    outbox.events.length = outbox.highestSequence := by
  have hlength := congrArg List.length h.sequences
  rwa [List.length_map, List.length_range'] at hlength

def unacknowledged (outbox : DurableReconciliationOutbox D) : ℕ :=
  (outbox.eventsAfter outbox.highestAcknowledgedSequence).length

structure OutboxBounds (outbox : DurableReconciliationOutbox D) : Prop where
  numbered : 0 < outbox.nextSequence
  capacity : 0 < outbox.maximumEvents
  within : outbox.events.length ≤ outbox.maximumEvents
  acknowledged : outbox.highestAcknowledgedSequence ≤ outbox.highestSequence

theorem unacknowledged_eq_iff (hbounds : OutboxBounds outbox) (h : Contiguous outbox)
    (hfull : outbox.maximumEvents ≤ outbox.events.length) :
    unacknowledged outbox = outbox.maximumEvents ↔ outbox.highestAcknowledgedSequence = 0 := by
  have hcapacity := hbounds.capacity
  have hwithin := hbounds.within
  unfold unacknowledged
  rw [h.laterEvents, List.length_drop]
  omega

theorem acknowledgeCall_spec (outbox : DurableReconciliationOutbox D) (sequence : ℕ) :
    (outbox.acknowledgeCall sequence = outbox) ∨
      sequence ≤ outbox.highestSequence ∧
        outbox.acknowledgeCall sequence =
          { outbox with highestAcknowledgedSequence := sequence } := by
  unfold acknowledgeCall acknowledge highestSequence
  split
  · exact .inl rfl
  · rename_i acknowledged hok
    split at hok
    · cases hok
    · cases hok
      right
      exact ⟨by omega, rfl⟩

section

variable [Sha256] [PayloadEncoding D]

/-- What `append_once` does: nothing for a known key or without room, and otherwise it takes the next
sequence and, if the payload can be hashed, appends the event under it. -/
theorem appendOnceCall_cases (outbox : DurableReconciliationOutbox D) (key : String)
    (payload : VerifiedReconciliationPayload D) :
    (key ∈ outbox.sourceKeys ∧ outbox.appendOnceCall key payload = (.ok none, outbox)) ∨
    (key ∉ outbox.sourceKeys ∧ outbox.maximumEvents ≤ outbox.events.length ∧
      outbox.appendOnceCall key payload =
        (.error "reconciliation outbox capacity exhausted", outbox)) ∨
    (key ∉ outbox.sourceKeys ∧ outbox.events.length < outbox.maximumEvents ∧
      maxU64 ≤ outbox.nextSequence ∧ outbox.appendOnceCall key payload =
        (.error "reconciliation sequence overflow", outbox)) ∨
    (key ∉ outbox.sourceKeys ∧ outbox.events.length < outbox.maximumEvents ∧
      outbox.nextSequence < maxU64 ∧ ∃ message, canonicalPayloadHash payload = .error message ∧
        outbox.appendOnceCall key payload =
          (.error message, { outbox with nextSequence := outbox.nextSequence + 1 })) ∨
    (key ∉ outbox.sourceKeys ∧ outbox.events.length < outbox.maximumEvents ∧
      outbox.nextSequence < maxU64 ∧ ∃ eventHash, canonicalPayloadHash payload = .ok eventHash ∧
        outbox.appendOnceCall key payload = (.ok (some outbox.nextSequence), { outbox with
          nextSequence := outbox.nextSequence + 1
          sourceKeys := outbox.sourceKeys.insert key
          events := outbox.events ++ [{
            identity := {
              signerInstanceId := outbox.signerInstanceId
              sequence := outbox.nextSequence
              eventHash }
            payload }] })) := by
  unfold appendOnceCall
  by_cases hknown : key ∈ outbox.sourceKeys
  · left
    exact ⟨hknown, if_pos (ExtTreeSet.contains_iff_mem.mpr hknown)⟩
  · right
    rw [if_neg (mt ExtTreeSet.contains_iff_mem.mp hknown)]
    by_cases hfull : outbox.maximumEvents ≤ outbox.events.length
    · left
      exact ⟨hknown, hfull, if_pos hfull⟩
    · right
      rw [if_neg hfull]
      rw [not_le] at hfull
      cases hnext : checkedAddU64 outbox.nextSequence 1 with
      | none =>
        left
        unfold checkedAddU64 at hnext
        split at hnext
        · cases hnext
        · exact ⟨hknown, hfull, by omega, rfl⟩
      | some next =>
        right
        obtain ⟨rfl, hbelow⟩ := checkedAddU64_eq_some_iff.mp hnext
        cases hhash : canonicalPayloadHash payload with
        | error message =>
          left
          exact ⟨hknown, hfull, by omega, message, rfl, rfl⟩
        | ok eventHash =>
          right
          exact ⟨hknown, hfull, by omega, eventHash, rfl, rfl⟩

variable {outbox : DurableReconciliationOutbox D}

theorem OutboxBounds.after (h : OutboxBounds outbox) (call : OutboxCall D) :
    OutboxBounds (outbox.after call) := by
  have hacknowledged := h.acknowledged
  unfold highestSequence at hacknowledged
  cases call with
  | append key payload =>
    rw [DurableReconciliationOutbox.after]
    rcases appendOnceCall_cases outbox key payload with ⟨-, heq⟩ | ⟨-, -, heq⟩ | ⟨-, -, -, heq⟩ |
      ⟨-, -, -, message, -, heq⟩ | ⟨-, hroom, -, eventHash, -, heq⟩
    · rwa [heq]
    · rwa [heq]
    · rwa [heq]
    · rw [heq]
      refine ⟨Nat.succ_pos _, h.capacity, h.within, ?_⟩
      simp only [highestSequence]
      omega
    · rw [heq]
      refine ⟨Nat.succ_pos _, h.capacity, ?_, ?_⟩
      · simp only [List.length_append, List.length_singleton]
        omega
      · simp only [highestSequence]
        omega
  | acknowledge sequence =>
    rw [DurableReconciliationOutbox.after]
    rcases acknowledgeCall_spec outbox sequence with heq | ⟨hsequence, heq⟩
    · rwa [heq]
    · rw [heq]
      exact ⟨h.numbered, h.capacity, h.within, hsequence⟩

/-- An append of a new key fails for capacity only when all of the capacity is unacknowledged. -/
def FailsWhenUnacknowledged (outbox : DurableReconciliationOutbox D) : OutboxCall D → Prop
  | .append key payload => key ∉ outbox.sourceKeys →
      (outbox.appendOnceCall key payload).1 = .error "reconciliation outbox capacity exhausted" →
        unacknowledged outbox = outbox.maximumEvents
  | .acknowledge _ => True

/-- A new key comes with a payload that can be hashed, and to a full outbox only before the first
acknowledgement. -/
def AppendsSoundly (outbox : DurableReconciliationOutbox D) : OutboxCall D → Prop
  | .append key payload => key ∉ outbox.sourceKeys →
      (outbox.maximumEvents ≤ outbox.events.length → outbox.highestAcknowledgedSequence = 0) ∧
        (outbox.events.length < outbox.maximumEvents → outbox.nextSequence < maxU64 →
          ∃ eventHash, canonicalPayloadHash payload = .ok eventHash)
  | .acknowledge _ => True

theorem sound_call_iff (hbounds : OutboxBounds outbox) (h : Contiguous outbox) (call : OutboxCall D)
    :
    FailsWhenUnacknowledged outbox call ∧ Contiguous (outbox.after call) ↔
      AppendsSoundly outbox call := by
  have hnumbered := hbounds.numbered
  cases call with
  | append key payload =>
    simp only [FailsWhenUnacknowledged, AppendsSoundly, DurableReconciliationOutbox.after]
    rcases appendOnceCall_cases outbox key payload with ⟨hknown, heq⟩ | ⟨hnew, hfull, heq⟩ |
      ⟨hnew, hroom, hlast, heq⟩ | ⟨hnew, hroom, hnext, message, hhash, heq⟩ |
      ⟨hnew, hroom, hnext, eventHash, hhash, heq⟩
    · rw [heq]
      exact iff_of_true ⟨fun hnew => absurd hknown hnew, h⟩ fun hnew => absurd hknown hnew
    · rw [heq]
      constructor
      · rintro ⟨hfails, -⟩ -
        exact ⟨fun _ => (unacknowledged_eq_iff hbounds h hfull).mp (hfails hnew rfl),
          fun hroom => absurd hroom (not_lt.mpr hfull)⟩
      · intro hsound
        refine ⟨fun _ _ => ?_, h⟩
        exact (unacknowledged_eq_iff hbounds h hfull).mpr ((hsound hnew).1 hfull)
    · rw [heq]
      refine iff_of_true ⟨fun _ hfails => ?_, h⟩ fun _ => ⟨?_, ?_⟩
      · simp at hfails
      · exact fun hfull => absurd hroom (not_lt.mpr hfull)
      · exact fun _ hnext => absurd hnext (not_lt.mpr hlast)
    · rw [heq]
      refine iff_of_false ?_ ?_
      · rintro ⟨-, hcontiguous⟩
        have hlength := hcontiguous.length
        have hbefore := h.length
        simp only [highestSequence] at hlength hbefore
        omega
      · intro hsound
        obtain ⟨eventHash, hhash'⟩ := (hsound hnew).2 hroom hnext
        rw [hhash] at hhash'
        cases hhash'
    · rw [heq]
      refine iff_of_true ⟨fun _ hfails => ?_, ?_⟩ fun _ => ⟨?_, fun _ _ => ⟨eventHash, hhash⟩⟩
      · simp at hfails
      · rw [contiguous_iff]
        have hsequences := h.sequences
        simp only [highestSequence] at hsequences ⊢
        rw [List.map_append, hsequences, Nat.add_sub_cancel]
        simp only [List.map_cons, List.map_nil]
        obtain ⟨highest, hhighest⟩ := Nat.exists_eq_add_of_lt hnumbered
        rw [hhighest, zero_add, Nat.add_sub_cancel, List.range'_1_concat, Nat.add_comm 1]
      · exact fun hfull => absurd hroom (not_lt.mpr hfull)
  | acknowledge sequence =>
    refine iff_of_true ⟨trivial, ?_⟩ trivial
    rw [DurableReconciliationOutbox.after]
    rcases acknowledgeCall_spec outbox sequence with heq | ⟨-, heq⟩
    · rwa [heq]
    · rw [heq]
      exact contiguous_iff.mpr h.sequences

def appendedKey (outbox : DurableReconciliationOutbox D) : OutboxCall D → Option String
  | .append key payload =>
    match (outbox.appendOnceCall key payload).1 with
    | .ok (some _) => some key
    | _ => none
  | .acknowledge _ => none

def appendedKeys : DurableReconciliationOutbox D → List (OutboxCall D) → List String
  | _, [] => []
  | outbox, call :: calls => (appendedKey outbox call).toList ++ appendedKeys (outbox.after call) calls

theorem appendedKey_spec (outbox : DurableReconciliationOutbox D) (call : OutboxCall D) :
    (∀ key ∈ outbox.sourceKeys, key ∈ (outbox.after call).sourceKeys) ∧
      ∀ key, appendedKey outbox call = some key →
        key ∉ outbox.sourceKeys ∧ key ∈ (outbox.after call).sourceKeys := by
  cases call with
  | append key payload =>
    simp only [appendedKey, DurableReconciliationOutbox.after]
    rcases appendOnceCall_cases outbox key payload with ⟨-, heq⟩ | ⟨-, -, heq⟩ | ⟨-, -, -, heq⟩ |
      ⟨-, -, -, message, -, heq⟩ | ⟨hnew, -, -, eventHash, -, heq⟩
    · simp [heq]
    · simp [heq]
    · simp [heq]
    · simp [heq]
    · rw [heq]
      refine ⟨fun other hother => (mem_set_insert _ _ _).mpr (.inr hother), ?_⟩
      rintro other ⟨⟩
      exact ⟨hnew, (mem_set_insert _ _ _).mpr (.inl rfl)⟩
  | acknowledge sequence =>
    rw [DurableReconciliationOutbox.after]
    rcases acknowledgeCall_spec outbox sequence with heq | ⟨-, heq⟩
    · rw [heq]
      exact ⟨fun _ h => h, fun _ h => by cases h⟩
    · rw [heq]
      exact ⟨fun _ h => h, fun _ h => by cases h⟩

theorem appendedKeys_nodup (outbox : DurableReconciliationOutbox D) (calls : List (OutboxCall D)) :
    (appendedKeys outbox calls).Nodup ∧ ∀ key ∈ appendedKeys outbox calls, key ∉ outbox.sourceKeys := by
  induction calls generalizing outbox with
  | nil => simp [appendedKeys]
  | cons call calls ih =>
    obtain ⟨hnodup, hnew⟩ := ih (outbox.after call)
    obtain ⟨hkept, happended⟩ := appendedKey_spec outbox call
    rw [appendedKeys]
    cases hkey : appendedKey outbox call with
    | none =>
      rw [Option.toList_none, List.nil_append]
      exact ⟨hnodup, fun key hmem hknown => hnew key hmem (hkept key hknown)⟩
    | some key =>
      obtain ⟨hfresh, hknown⟩ := happended key hkey
      rw [Option.toList_some, List.singleton_append, List.nodup_cons, List.forall_mem_cons]
      refine ⟨⟨fun hmem => hnew key hmem hknown, hnodup⟩, hfresh, ?_⟩
      exact fun other hmem hother => hnew other hmem (hkept other hother)

omit [Sha256] [PayloadEncoding D] in
theorem outboxBounds_new {signerInstanceId : Bytes 16} {maximumEvents : ℕ}
    (h : DurableReconciliationOutbox.new signerInstanceId maximumEvents = .ok outbox) :
    OutboxBounds outbox ∧ Contiguous outbox := by
  unfold DurableReconciliationOutbox.new at h
  split at h
  · cases h
  · rename_i hcapacity
    cases h
    refine ⟨⟨Nat.one_pos, Nat.pos_of_ne_zero hcapacity, Nat.zero_le _, Nat.zero_le _⟩, ?_⟩
    exact contiguous_iff.mpr rfl

/-- **The capacity of the outbox.**  No key is appended twice.  The events are numbered without gaps
and a new key fails for capacity only with all of the capacity unacknowledged, exactly when no new
key comes to a full outbox after an acknowledgement, nor with a payload that cannot be hashed. -/
theorem outbox_capacity_iff {signerInstanceId : Bytes 16} {maximumEvents : ℕ}
    {outbox : DurableReconciliationOutbox D}
    (h : DurableReconciliationOutbox.new signerInstanceId maximumEvents = .ok outbox)
    (calls : List (OutboxCall D)) :
    (appendedKeys outbox calls).Nodup ∧
      ((AllSteps DurableReconciliationOutbox.after FailsWhenUnacknowledged outbox calls ∧
          ∀ state ∈ states DurableReconciliationOutbox.after outbox calls, Contiguous state) ↔
        AllSteps DurableReconciliationOutbox.after AppendsSoundly outbox calls) := by
  obtain ⟨hbounds, hcontiguous⟩ := outboxBounds_new h
  refine ⟨(appendedKeys_nodup outbox calls).1, ?_⟩
  refine steps_and_states_iff (I := OutboxBounds) (L := fun _ => True) ?_ ?_ hbounds hcontiguous
    fun _ _ => trivial
  · exact fun state call hstate _ => hstate.after call
  · exact fun state call hstate hsequences _ => sound_call_iff hstate hsequences call

end

/-- Two keys, the second one after the first one was acknowledged. -/
def acknowledgedOnce (D : Type) : List (OutboxCall D) :=
  [.append "a" (.reconciled (Bytes.replicate 16 1)), .acknowledge 1,
    .append "b" (.reconciled (Bytes.replicate 16 2))]

theorem outbox_capacity_iff_fits :
    let _ : Sha256 := ⟨prefixDigest⟩
    let _ : PayloadEncoding ℚ := ⟨fun _ => .ok []⟩
    (appendedKeys (DurableReconciliationOutbox.empty (Bytes.replicate 16 7) 2)
        (acknowledgedOnce ℚ)).Nodup ∧
      ((AllSteps DurableReconciliationOutbox.after FailsWhenUnacknowledged
            (DurableReconciliationOutbox.empty (Bytes.replicate 16 7) 2) (acknowledgedOnce ℚ) ∧
          ∀ state ∈ states DurableReconciliationOutbox.after
            (DurableReconciliationOutbox.empty (Bytes.replicate 16 7) 2) (acknowledgedOnce ℚ),
            Contiguous state) ↔
        AllSteps DurableReconciliationOutbox.after AppendsSoundly
          (DurableReconciliationOutbox.empty (Bytes.replicate 16 7) 2) (acknowledgedOnce ℚ)) := by
  intro sha payloads
  exact @outbox_capacity_iff ℚ sha payloads (Bytes.replicate 16 7) 2 _ rfl (acknowledgedOnce ℚ)

/-- With room for one event, the second key fails although no event is unacknowledged. -/
theorem acknowledged_event_keeps_room :
    let _ : Sha256 := ⟨prefixDigest⟩
    let _ : PayloadEncoding ℚ := ⟨fun _ => .ok []⟩
    let outbox := run DurableReconciliationOutbox.after
      (DurableReconciliationOutbox.empty (Bytes.replicate 16 7) 1) ((acknowledgedOnce ℚ).take 2)
    DurableReconciliationOutbox.new (Bytes.replicate 16 7) 1 =
        .ok (DurableReconciliationOutbox.empty (D := ℚ) (Bytes.replicate 16 7) 1) ∧
      "b" ∉ outbox.sourceKeys ∧ unacknowledged outbox = 0 ∧ outbox.maximumEvents = 1 ∧
      (outbox.appendOnceCall "b" (.reconciled (Bytes.replicate 16 2))).1 =
        .error "reconciliation outbox capacity exhausted" := by
  intro sha payloads outbox
  refine ⟨by rfl, ?_, by decide +kernel, by decide +kernel, by decide +kernel⟩
  decide +kernel

end CopyTrade.Analysis
