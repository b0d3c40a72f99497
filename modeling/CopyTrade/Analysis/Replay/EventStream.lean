import CopyTrade.Analysis.Replay.TerminalIntents
import CopyTrade.Analysis.Wire.DurableStates
import CopyTrade.Model.Observer.EventStream

/-!
# Events are applied once and in order

Signer and observer crash and start again, saves fail, and frames are late, lost or repeated.  What
the signer stores only grows, and the observer's stored state comes from the first events of it,
each applied once and in order; so an acknowledged event is never lost.  A process runs with what
its file holds, since it goes on only behind a save that succeeded.
-/

namespace CopyTrade.Analysis

open Foundation Model
open Std (ExtTreeMap)

variable {D : Type} [Sha256] [PayloadEncoding D]

/-- What the loader requires of an outbox, with the bounds its numbers keep. -/
structure Storable (outbox : DurableReconciliationOutbox D) : Prop where
  schema : outbox.schemaVersion = 1
  capacity : 0 < outbox.maximumEvents
  within : outbox.events.length ≤ outbox.maximumEvents
  numbered : Sealed 1 outbox.events
  next : outbox.nextSequence = outbox.events.length + 1

variable {outbox next : DurableReconciliationOutbox D}

theorem hash_of_sealed {first k : ℕ} {events : List (VerifiedReconciliationEvent D)}
    {event : VerifiedReconciliationEvent D} (h : Sealed first events)
    (hevent : events[k]? = some event) :
    canonicalPayloadHash event.payload = .ok event.identity.eventHash := by
  induction events generalizing first k with
  | nil => cases hevent
  | cons head events ih =>
    cases k with
    | zero =>
      cases hevent
      exact h.2.2.1
    | succ k => exact ih h.2.2.2 hevent

/-- An outbox that comes from another one by appending events. -/
structure Grows (outbox next : DurableReconciliationOutbox D) : Prop where
  storable : Storable outbox → Storable next
  events : outbox.events <+: next.events
  acknowledged : next.highestAcknowledgedSequence = outbox.highestAcknowledgedSequence

theorem Grows.trans {middle : DurableReconciliationOutbox D} (hfirst : Grows outbox middle)
    (hrest : Grows middle next) : Grows outbox next :=
  ⟨fun hbefore => hrest.storable (hfirst.storable hbefore), hfirst.events.trans hrest.events,
    hrest.acknowledged.trans hfirst.acknowledged⟩

theorem grows_appendItem {item : OutboxItem D} (h : appendItem outbox item = .ok next) :
    Grows outbox next := by
  unfold appendItem DurableReconciliationOutbox.appendOnce at h
  rw [textResult_eq_ok_iff] at h
  split at h
  · cases h
    exact ⟨id, List.prefix_rfl, rfl⟩
  split at h
  · cases h
  rename_i hroom
  split at h
  · cases h
  rename_i sequence hsequence
  obtain ⟨hash, hhash, h⟩ := of_bind h
  cases h
  obtain ⟨rfl, hbelow⟩ := checkedAddU64_eq_some_iff.mp hsequence
  refine ⟨?_, List.prefix_append _ _, rfl⟩
  intro hbefore
  have hnext := hbefore.next
  refine ⟨hbefore.schema, hbefore.capacity, ?_, ?_, ?_⟩
  · rw [List.length_append, List.length_singleton]
    exact Nat.lt_of_not_le hroom
  · refine sealed_append.mpr ⟨hbefore.numbered, ?_, ?_, hhash, trivial⟩
    · show outbox.nextSequence = _
      omega
    · omega
  · rw [List.length_append, List.length_singleton, hnext]

theorem grows_appendItems {items : List (OutboxItem D)}
    (h : items.foldlM appendItem outbox = .ok next) : Grows outbox next := by
  induction items generalizing outbox with
  | nil =>
    rw [List.foldlM_nil, pure_eq_ok_iff] at h
    subst h
    exact ⟨id, List.prefix_rfl, rfl⟩
  | cons item items ih =>
    obtain ⟨middle, hitem, hitems⟩ := foldlM_cons_eq_ok_iff.mp h
    exact (grows_appendItem hitem).trans (ih hitems)

theorem grows_syncOutbox {registry : SubmissionRegistry D} {live : LiveTradingState D}
    (h : syncOutbox registry live outbox = .ok next) : Grows outbox next := by
  obtain ⟨transitions, htransitions, h⟩ := of_bind h
  obtain ⟨items, -, hitems⟩ := syncTransitions_eq_ok htransitions
  obtain ⟨fills, hfills, hfunding⟩ := of_bind h
  exact ((grows_appendItems hitems).trans (grows_appendItems hfills)).trans
    (grows_appendItems hfunding)

variable [Decimal D]

theorem load_saveAtomic [DecimalText D] [JsonText] [LawfulJsonText] (h : Storable outbox) :
    ∃ text, outbox.saveAtomic = .ok text ∧
      DurableReconciliationOutbox.load text = .ok outbox := by
  obtain ⟨text, hwrite, hread, -⟩ := readJson_writeJson
    (c := (Derived.durableReconciliationOutbox (D := D)).toPartial) (show _ from trivial)
  refine ⟨text, hwrite, ?_⟩
  unfold DurableReconciliationOutbox.load
  rw [hread, ok_bind, if_neg]
  · rfl
  rintro (hschema | hcapacity | hfull | hevents)
  · exact hschema h.schema
  · exact h.capacity.ne' hcapacity
  · exact absurd h.within (Nat.not_le.mpr hfull)
  · obtain ⟨⟨event, index⟩, hmem, hevent⟩ := List.any_eq_true.mp hevents
    have hget : outbox.events[index]? = some event := List.mem_zipIdx_iff_getElem?.mp hmem
    dsimp only at hevent
    rw [sequence_of_sealed h.numbered hget, hash_of_sealed h.numbered hget] at hevent
    simp [Except.toOption, Nat.add_comm] at hevent

omit [Sha256] [PayloadEncoding D] in
theorem load_of_saveAtomic [DecimalText D] [JsonText] [LawfulJsonText]
    {production : ProductionTradingState D} {text : String} (hsound : SoundOrder production)
    (h : production.saveAtomic = .ok text) :
    production.intents = ∅ ∧ ProductionTradingState.load text = .ok production := by
  by_cases hwritable : Derived.productionTradingState.Writable production
  · rw [Derived.productionTradingState_writable_iff] at hwritable
    obtain ⟨saved, hsave, hload⟩ := (productionRoundTrips_iff hsound).mpr hwritable
    rw [h] at hsave
    cases hsave
    exact ⟨hwritable.2, hload⟩
  · obtain ⟨message, hmessage⟩ := writeJson_eq_error hwritable
    unfold ProductionTradingState.saveAtomic at h
    rw [hmessage] at h
    cases h

/-- A state that has applied exactly these events, in this order.  What waits and what is to be
planned again may change in between. -/
inductive Applied (live : LiveTradingState D) :
    List (VerifiedReconciliationEvent D) → ProductionTradingState D → Prop
  | new : Applied live [] (.new live)
  | event {events : List (VerifiedReconciliationEvent D)} {event : VerifiedReconciliationEvent D}
      {state after : ProductionTradingState D} (hbefore : Applied live events state)
      (happlied : state.applyContiguous event = .ok after) : Applied live (events ++ [event]) after
  | buffered {events : List (VerifiedReconciliationEvent D)} {state : ProductionTradingState D}
      (hbefore : Applied live events state)
      (buffer : ExtTreeMap ℕ (VerifiedReconciliationEvent D)) :
      Applied live events (withBuffer state buffer)
  | replanned {events : List (VerifiedReconciliationEvent D)} {state : ProductionTradingState D}
      (hbefore : Applied live events state) :
      Applied live events { state with assetsRequiringReplan := ∅ }

/-- A state that holds the first events of a stream, with other ones of it in its buffer. -/
structure HoldsFirst (live : LiveTradingState D) (events : List (VerifiedReconciliationEvent D))
    (state : ProductionTradingState D) : Prop where
  within : state.highestContiguousSignerSequence ≤ events.length
  applied : Applied live (events.take state.highestContiguousSignerSequence) state
  waits : ∀ (sequence : ℕ) (event : VerifiedReconciliationEvent D),
    state.reorderBuffer[sequence]? = some event →
      event.identity.sequence = sequence ∧ event ∈ events

variable {live : LiveTradingState D} {events more : List (VerifiedReconciliationEvent D)}
  {event : VerifiedReconciliationEvent D} {state after : ProductionTradingState D}

omit [PayloadEncoding D] in
theorem HoldsFirst.grown (h : HoldsFirst live events state) (hmore : events <+: more) :
    HoldsFirst live more state := by
  obtain ⟨rest, rfl⟩ := hmore
  refine ⟨?_, ?_, ?_⟩
  · rw [List.length_append]
    exact h.within.trans (Nat.le_add_right _ _)
  · rw [List.take_append_of_le_length h.within]
    exact h.applied
  · intro sequence event hget
    obtain ⟨hsequence, hmem⟩ := h.waits sequence event hget
    exact ⟨hsequence, List.mem_append_left _ hmem⟩

theorem HoldsFirst.applyContiguous (hsealed : Sealed 1 events) (h : HoldsFirst live events state)
    (hmem : event ∈ events)
    (hturn : event.identity.sequence = state.highestContiguousSignerSequence + 1)
    (hok : state.applyContiguous event = .ok after) :
    HoldsFirst live events after ∧
      state.highestContiguousSignerSequence ≤ after.highestContiguousSignerSequence := by
  obtain ⟨hbuffer, hreached, -⟩ := applyContiguous_eq_ok hok
  obtain ⟨k, hk⟩ := List.mem_iff_getElem?.mp hmem
  have hplace := sequence_of_sealed hsealed hk
  obtain rfl : k = state.highestContiguousSignerSequence := by omega
  obtain ⟨hlt, -⟩ := List.getElem?_eq_some_iff.mp hk
  have hhighest := hreached.trans hturn
  refine ⟨⟨by omega, ?_, ?_⟩, by omega⟩
  · rw [hhighest, List.take_add_one, hk]
    exact .event h.applied hok
  · rw [hbuffer]
    exact h.waits

theorem HoldsFirst.drainBuffer (hsealed : Sealed 1 events) (rounds : ℕ)
    (h : HoldsFirst live events state) :
    HoldsFirst live events (ProductionTradingState.drainBuffer rounds state).2 ∧
      state.highestContiguousSignerSequence ≤
        (ProductionTradingState.drainBuffer rounds state).2.highestContiguousSignerSequence := by
  induction rounds generalizing state with
  | zero => exact ⟨h, le_rfl⟩
  | succ rounds ih =>
    unfold ProductionTradingState.drainBuffer
    split
    · exact ⟨h, le_rfl⟩
    rename_i turn hturn
    obtain ⟨rfl, -⟩ := checkedAddU64_eq_some_iff.mp hturn
    split
    · exact ⟨h, le_rfl⟩
    rename_i event hevent
    obtain ⟨hsequence, hmem⟩ := h.waits _ event hevent
    have htaken : HoldsFirst live events (withBuffer state (state.reorderBuffer.erase
        (state.highestContiguousSignerSequence + 1))) := by
      refine ⟨h.within, h.applied.buffered _, ?_⟩
      intro sequence other hget
      rw [withBuffer, getElem?_erase_eq] at hget
      split at hget
      · cases hget
      · exact h.waits sequence other hget
    dsimp only
    split
    · exact ⟨htaken, le_rfl⟩
    · rename_i applied happlied
      obtain ⟨hnext, hreached⟩ := htaken.applyContiguous hsealed hmem hsequence happlied
      obtain ⟨hdrained, hle⟩ := ih hnext
      exact ⟨hdrained, hreached.trans hle⟩

/-- An event of the stream that is delivered at any time is applied in its turn or not at all. -/
theorem HoldsFirst.deliver (hsealed : Sealed 1 events) (h : HoldsFirst live events state)
    (hmem : event ∈ events) : HoldsFirst live events (deliver state event) ∧
      state.highestContiguousSignerSequence ≤
        (Analysis.deliver state event).highestContiguousSignerSequence := by
  have hsame : HoldsFirst live events state ∧ state.highestContiguousSignerSequence ≤
    state.highestContiguousSignerSequence := ⟨h, le_rfl⟩
  unfold Analysis.deliver ProductionTradingState.applyReconciliationEvent
  split
  · exact hsame
  split
  · exact hsame
  dsimp only
  split
  · split <;> exact hsame
  split
  · exact hsame
  split
  · exact hsame
  rename_i turn hturn
  obtain ⟨rfl, -⟩ := checkedAddU64_eq_some_iff.mp hturn
  split
  · split
    · exact hsame
    split
    · split <;> exact hsame
    -- The event waits for its turn.
    refine ⟨⟨h.within, h.applied.buffered _, ?_⟩, le_rfl⟩
    intro sequence other hget
    rw [getElem?_insert_eq] at hget
    split at hget
    · rename_i hsequence
      cases hget
      exact ⟨hsequence, hmem⟩
    · exact h.waits sequence other hget
  · rename_i hturn
    rw [Bool.not_eq_true, bne_eq_false_iff_eq] at hturn
    split
    · exact hsame
    rename_i applied happlied
    obtain ⟨hnext, hreached⟩ := h.applyContiguous hsealed hmem hturn happlied
    obtain ⟨hdrained, hle⟩ := hnext.drainBuffer hsealed (applied.reorderBuffer.size + 1)
    generalize ProductionTradingState.drainBuffer (applied.reorderBuffer.size + 1) applied =
      outcome at hdrained hle
    obtain ⟨result, drained⟩ := outcome
    cases result <;> exact ⟨hdrained, hreached.trans hle⟩

/-- What the files of the processes hold, and how that agrees with what runs and what is under
way. -/
structure StreamAgrees [DecimalText D] [JsonText] (start : StreamStart D) (stream : EventStream D)
    (outbox : DurableReconciliationOutbox D) (production : ProductionTradingState D) : Prop where
  storedOutbox : stream.storedOutbox start = .ok outbox
  storedState : stream.storedState start = .ok production
  runningOutbox : ∀ running, stream.outbox = some running → running = outbox
  runningState : ∀ running, stream.production = some running → running = production
  storable : Storable outbox
  sound : SoundOrder production
  withoutIntents : production.intents = ∅
  holds : HoldsFirst start.live outbox.events production
  replies : ∀ reply ∈ stream.replies, ∀ event ∈ reply, event ∈ outbox.events
  acknowledgements : ∀ sequence ∈ stream.acknowledgements,
    sequence ≤ production.highestContiguousSignerSequence
  acknowledged : outbox.highestAcknowledgedSequence ≤ production.highestContiguousSignerSequence

section

variable [DecimalText D] [JsonText] {start : StreamStart D} {stream : EventStream D}
  {production : ProductionTradingState D}

theorem StreamAgrees.stopSigner (h : StreamAgrees start stream outbox production) :
    StreamAgrees start { stream with outbox := none } outbox production :=
  { h with runningOutbox := nofun }

theorem StreamAgrees.stopObserver (h : StreamAgrees start stream outbox production) :
    StreamAgrees start { stream with production := none } outbox production :=
  { h with runningState := nofun }

theorem streamAgrees_initial (hcapacity : 0 < start.maximumEvents) :
    StreamAgrees start EventStream.initial (.empty start.signerInstanceId start.maximumEvents)
      (.new start.live) where
  storedOutbox := if_neg hcapacity.ne'
  storedState := rfl
  runningOutbox := nofun
  runningState := nofun
  storable := ⟨rfl, hcapacity, Nat.zero_le _, trivial, rfl⟩
  sound := soundOrder_new start.live
  withoutIntents := rfl
  holds := ⟨Nat.zero_le _, .new, nofun⟩
  replies := nofun
  acknowledgements := nofun
  acknowledged := Nat.zero_le _

/-- The agreement with what is stored then, which has all events that were stored before. -/
def KeepsAgreement (start : StreamStart D) (outbox : DurableReconciliationOutbox D)
    (stream : EventStream D) : Prop :=
  ∃ kept reached, StreamAgrees start stream kept reached ∧ outbox.events <+: kept.events

theorem StreamAgrees.kept (h : StreamAgrees start stream outbox production) :
    KeepsAgreement start outbox stream :=
  ⟨outbox, production, h, List.prefix_rfl⟩

variable [LawfulJsonText]

theorem StreamAgrees.saveOutbox (h : StreamAgrees start stream outbox production)
    (hstorable : Storable next) (hevents : outbox.events <+: next.events)
    (hacknowledged : next.highestAcknowledgedSequence ≤
      production.highestContiguousSignerSequence) (save : SaveOutcome) :
    (stream.saveOutbox next save).2 = true ∧
        StreamAgrees start (stream.saveOutbox next save).1 next production ∨
      (stream.saveOutbox next save).2 = false ∧
        KeepsAgreement start outbox (stream.saveOutbox next save).1 := by
  obtain ⟨text, hsave, hload⟩ := load_saveAtomic hstorable
  have hstored : StreamAgrees start { stream with outbox := none, outboxFile := some text } next
      production := { h with
    storedOutbox := hload
    runningOutbox := nofun
    storable := hstorable
    holds := h.holds.grown hevents
    replies := fun reply hreply event hevent =>
      hevents.subset (h.replies reply hreply event hevent)
    acknowledged := hacknowledged }
  unfold EventStream.saveOutbox SaveOutcome.write
  rw [hsave]
  cases save with
  | done =>
    exact .inl ⟨rfl, { hstored with runningOutbox := fun _ hsome => (Option.some.inj hsome).symm }⟩
  | failed => exact .inr ⟨rfl, h.stopSigner.kept⟩
  | failedBehindRename => exact .inr ⟨rfl, next, production, hstored, hevents⟩

theorem StreamAgrees.saveState (h : StreamAgrees start stream outbox production)
    (hsound : SoundOrder after) (hholds : HoldsFirst start.live outbox.events after)
    (hle : production.highestContiguousSignerSequence ≤ after.highestContiguousSignerSequence)
    (save : SaveOutcome) :
    ∃ kept, StreamAgrees start (stream.saveState after save) outbox kept := by
  unfold EventStream.saveState SaveOutcome.write
  cases hsave : after.saveAtomic with
  | error error => exact ⟨production, h.stopObserver⟩
  | ok text =>
    obtain ⟨hintents, hload⟩ := load_of_saveAtomic hsound hsave
    have hstored : StreamAgrees start { stream with production := none, stateFile := some text }
        outbox after := { h.stopObserver with
      storedState := hload
      runningState := fun _ hnone => nomatch hnone
      sound := hsound
      withoutIntents := hintents
      holds := hholds
      acknowledgements := fun sequence hmem => (h.acknowledgements sequence hmem).trans hle
      acknowledged := h.acknowledged.trans hle }
    cases save with
    | done =>
      exact ⟨after, { hstored with runningState := fun _ hsome => (Option.some.inj hsome).symm }⟩
    | failed => exact ⟨production, h.stopObserver⟩
    | failedBehindRename => exact ⟨after, hstored⟩

theorem StreamAgrees.synchronise (h : StreamAgrees start stream outbox production)
    (registry : SubmissionRegistry D) (live : LiveTradingState D) (replayFrom : Option ℕ)
    (save : SaveOutcome) :
    KeepsAgreement start outbox (stream.synchronise outbox registry live replayFrom save) := by
  unfold EventStream.synchronise
  cases hsync : syncOutbox registry live outbox with
  | error error => exact h.stopSigner.kept
  | ok next =>
    have hgrows := grows_syncOutbox hsync
    have hsaved := h.saveOutbox (hgrows.storable h.storable) hgrows.events
      (hgrows.acknowledged.le.trans h.acknowledged) save
    dsimp only
    generalize stream.saveOutbox next save = saved at hsaved
    obtain ⟨saved, continues⟩ := saved
    obtain ⟨rfl, hsaved⟩ | ⟨rfl, hsaved⟩ := hsaved
    · cases replayFrom with
      | none => exact ⟨next, production, hsaved, hgrows.events⟩
      | some sequence =>
        refine ⟨next, production, { hsaved with replies := ?_ }, hgrows.events⟩
        rintro reply (_ | ⟨_, hreply⟩) event hevent
        · exact List.mem_of_mem_filter hevent
        · exact hsaved.replies reply hreply event hevent
    · cases replayFrom <;> exact hsaved

theorem streamAgrees_step (h : StreamAgrees start stream outbox production) (step : StreamStep D) :
    KeepsAgreement start outbox (stream.step start step) := by
  cases step with
  | startSigner registry live save =>
    unfold EventStream.step
    rw [h.storedOutbox]
    exact h.synchronise registry live none save
  | synchronise registry live replayFrom save =>
    unfold EventStream.step
    dsimp only
    split
    · exact h.kept
    · rename_i running hrunning
      obtain rfl := h.runningOutbox running hrunning
      exact h.synchronise registry live replayFrom save
  | takeAcknowledgement frame save =>
    unfold EventStream.step
    dsimp only
    split
    · rename_i running sequence hrunning hframe
      obtain rfl := h.runningOutbox running hrunning
      split
      · exact h.stopSigner.kept
      · rename_i next hnext
        unfold DurableReconciliationOutbox.acknowledge at hnext
        split at hnext
        · cases hnext
        cases hnext
        have hstorable : Storable { running with highestAcknowledgedSequence := sequence } :=
          { h.storable with }
        obtain ⟨-, hkept⟩ | ⟨-, hkept⟩ := h.saveOutbox hstorable List.prefix_rfl
          (h.acknowledgements sequence (List.mem_of_getElem? hframe)) save
        · exact hkept.kept
        · exact hkept
    · exact h.kept
  | stopSigner => exact h.stopSigner.kept
  | startObserver =>
    unfold EventStream.step
    rw [h.storedState]
    have hstarted : StreamAgrees start { stream with production := some production } outbox
        production :=
      { h with runningState := fun _ hsome => (Option.some.inj hsome).symm }
    exact hstarted.kept
  | applyEvent reply index save =>
    unfold EventStream.step
    dsimp only
    split
    · rename_i running event hrunning hevent
      obtain rfl := h.runningState running hrunning
      obtain ⟨frame, hframe, hevent⟩ := Option.bind_eq_some_iff.mp hevent
      have hmem := h.replies frame (List.mem_of_getElem? hframe) event (List.mem_of_getElem? hevent)
      have hsound := deliver_sound h.sound event
      obtain ⟨hholds, hle⟩ := h.holds.deliver h.storable.numbered hmem
      unfold deliver at hsound hholds hle
      split
      · exact h.stopObserver.kept
      · rename_i application next happlied
        rw [happlied] at hsound hholds hle
        obtain ⟨reached, hreached⟩ := h.saveState hsound hholds hle save
        exact hreached.kept
    · exact h.kept
  | clearReplans save =>
    unfold EventStream.step
    dsimp only
    split
    · exact h.kept
    · rename_i running hrunning
      obtain rfl := h.runningState running hrunning
      have hsound : SoundOrder { running with assetsRequiringReplan := ∅ } := { h.sound with }
      obtain ⟨reached, hreached⟩ := h.saveState hsound
        ⟨h.holds.within, h.holds.applied.replanned, h.holds.waits⟩ le_rfl save
      exact hreached.kept
  | sendAcknowledgement =>
    unfold EventStream.step
    dsimp only
    split
    · exact h.kept
    · rename_i running hrunning
      obtain rfl := h.runningState running hrunning
      refine ⟨outbox, running, { h with acknowledgements := ?_ }, List.prefix_rfl⟩
      rintro sequence (_ | ⟨_, hsequence⟩)
      · exact le_rfl
      · exact h.acknowledgements sequence hsequence
  | stopObserver => exact h.stopObserver.kept

theorem streamAgrees_run (h : StreamAgrees start stream outbox production)
    (steps : List (StreamStep D)) :
    KeepsAgreement start outbox (run (EventStream.step start) stream steps) := by
  induction steps generalizing stream outbox production with
  | nil => exact h.kept
  | cons step steps ih =>
    obtain ⟨middle, between, hmiddle, hfirst⟩ := streamAgrees_step h step
    obtain ⟨kept, reached, hkept, hrest⟩ := ih hmiddle
    exact ⟨kept, reached, hkept, hfirst.trans hrest⟩

end

/-- **The stream of events.**  Whatever crashes, fails, is late, lost or repeated: both processes
can start from their files, the observer has applied the first events of the stored outbox, each
once and in order, every acknowledged event is among them, and what is stored of the events stays
whatever comes. -/
theorem events_applied_once [DecimalText D] [JsonText] [LawfulJsonText] (start : StreamStart D)
    (hcapacity : 0 < start.maximumEvents) (steps more : List (StreamStep D)) :
    ∃ outbox production later,
      StreamAgrees start (run (EventStream.step start) EventStream.initial steps) outbox
          production ∧
        (run (EventStream.step start) EventStream.initial (steps ++ more)).storedOutbox start =
          .ok later ∧ outbox.events <+: later.events := by
  obtain ⟨outbox, production, h, -⟩ := streamAgrees_run (streamAgrees_initial hcapacity) steps
  obtain ⟨later, _, hlater, hgrows⟩ := streamAgrees_run h more
  refine ⟨outbox, production, later, h, ?_, hgrows⟩
  rw [run_append]
  exact hlater.storedOutbox

def heldState : LiveTradingState ℤ :=
  run operate (LiveTradingState.starting 1000 0) [.event (.fill wholePurchase)]

def paidState : LiveTradingState ℤ :=
  run operate heldState
    [.event (.funding ⟨Bytes.replicate 32 2, "BTC", 1, 2, Bytes.replicate 32 0⟩)]

def sampleStream : StreamStart ℤ := ⟨Bytes.replicate 16 1, 4, heldState⟩

/-- The second of two events comes first, the save behind both fails too late, and the observer that
starts from it takes no event again. -/
def crossedSteps : List (StreamStep ℤ) :=
  [.startSigner (.empty 4) paidState .done, .startObserver,
    .synchronise (.empty 4) paidState (some 0) .done, .applyEvent 0 1 .done,
    .applyEvent 0 0 .failedBehindRename, .startObserver, .applyEvent 0 0 .done,
    .sendAcknowledgement, .takeAcknowledgement 0 .done]

omit [Sha256] in
theorem events_applied_once_crossed :
    ∃ (_ : Sha256) (_ : JsonText) (_ : PayloadEncoding ℤ)
      (outbox : DurableReconciliationOutbox ℤ) (production : ProductionTradingState ℤ)
      (later : DurableReconciliationOutbox ℤ),
      StreamAgrees sampleStream
          (run (EventStream.step sampleStream) EventStream.initial crossedSteps) outbox
          production ∧
        (run (EventStream.step sampleStream) EventStream.initial
          (crossedSteps ++ [.stopSigner])).storedOutbox sampleStream = .ok later ∧
        outbox.events <+: later.events := by
  let sha : Sha256 := ⟨prefixDigest⟩
  let payloads : PayloadEncoding ℤ := ⟨fun payload => .ok (packedPayload payload)⟩
  let files : JsonText := ⟨JsonFormat.write, JsonFormat.parse⟩
  have lawful : LawfulJsonText :=
    ⟨fun _ => JsonFormat.parse_write _, fun _ => JsonFormat.parse_write_newline _⟩
  exact ⟨sha, files, payloads, events_applied_once _ (by decide) _ _⟩

section

variable {payload : VerifiedReconciliationPayload D}

omit [PayloadEncoding D] in
theorem applyPayload_without_intents (h : state.applyPayload payload = .ok after)
    (hafter : after.intents = ∅) :
    state.intents = ∅ ∧ (payloadIntent payload = none ∨ ∃ fill, payload = .fill fill) := by
  have hinserted : ∀ (intents : ExtTreeMap PlannedCloid ObserverIntentState) cloid target,
      intents.insert cloid target ≠ ∅ := by
    intro intents cloid target
    exact ExtTreeMap.insert_ne_empty
  have hempty : state.intents = ∅ := by
    obtain hsame | ⟨cloid, target, -, hinsert⟩ := applyPayload_intents h
    · rw [← hsame]
      exact hafter
    · exact absurd (hinsert.symm.trans hafter) (hinserted _ _ _)
  refine ⟨hempty, ?_⟩
  have hrequire : ∀ {cloid target}, state.requireIntent cloid target ≠ .ok after := by
    intro cloid target hrequired
    obtain ⟨hmem, -⟩ := requireIntent_eq_ok_iff.mp hrequired
    rw [hempty] at hmem
    exact ExtTreeMap.not_mem_empty hmem
  cases payload with
  | intentAccepted identity sequence =>
    cases h
    exact absurd hafter (hinserted _ _ _)
  | fill fill => exact .inr ⟨fill, rfl⟩
  | funding | positionSnapshot | equitySnapshot => exact .inl rfl
  | _ => exact absurd h hrequire

omit [PayloadEncoding D] in
theorem Applied.without_intents (h : Applied live events state) (hintents : state.intents = ∅) :
    ∀ event ∈ events,
      payloadIntent event.payload = none ∨ ∃ fill, event.payload = .fill fill := by
  induction h with
  | new => exact nofun
  | event hbefore happlied ih =>
    obtain ⟨applied, hpayload, happlied⟩ := of_bind happlied
    cases happlied
    obtain ⟨hempty, hnone⟩ := applyPayload_without_intents hpayload hintents
    intro event hevent
    rcases List.mem_append.mp hevent with hbefore | hlast
    · exact ih hempty event hbefore
    · rw [List.mem_singleton.mp hlast]
      exact hnone
  | buffered _ _ ih => exact ih hintents
  | replanned _ ih => exact ih hintents

end

/-- What is stored holds no intent, and the acknowledged events are of fills, funding and
snapshots. -/
def OrdersUnacknowledged [DecimalText D] [JsonText] (start : StreamStart D)
    (stream : EventStream D) : Prop :=
  ∃ outbox production, stream.storedOutbox start = .ok outbox ∧
    stream.storedState start = .ok production ∧ production.intents = ∅ ∧
    ∀ sequence ∈ outbox.highestAcknowledgedSequence :: stream.acknowledgements,
      ∀ event ∈ outbox.events.take sequence,
        payloadIntent event.payload = none ∨ ∃ fill, event.payload = .fill fill

end CopyTrade.Analysis
