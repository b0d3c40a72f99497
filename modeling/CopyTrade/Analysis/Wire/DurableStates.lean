import CopyTrade.Analysis.Ledger.LiveIntegrity
import CopyTrade.Analysis.Replay.DeliveryOrder
import CopyTrade.Foundation.JsonFormat
import CopyTrade.Foundation.MessagePack
import CopyTrade.Model.Observer.HandoffQueue
import CopyTrade.Model.WholeDecimal

/-!
# Durable states

The handoff queue, the live trading state and the observer's production state are saved as
JSON.  Every check of a loader holds of every state that the operations reach, so a saved state
is always loaded again.  But some of the maps have byte arrays for keys, and JSON refuses to
write such a map unless it is empty.
-/

namespace CopyTrade.Analysis

open Foundation Model
open Model.IpcClient (DurableHandoffQueue)
open Std (ExtTreeMap)

variable {D : Type} [Decimal D]

/-- A call that changes the live state. -/
inductive LiveOperation (D : Type)
  | event (call : LiveCall D)
  | setAttribution (asset : String) (attribution : StrategyComponentAttribution D)

/-- The live state after an operation; one that fails leaves it as it was. -/
def operate [Sha256] (state : LiveTradingState D) : LiveOperation D → LiveTradingState D
  | .event call => state.after call
  | .setAttribution asset attribution =>
    match state.setStrategyAttribution asset attribution with
    | .ok next => next
    | .error _ => state

section

variable {state : LiveTradingState D}

theorem setStrategyAttribution_sound {next : LiveTradingState D} {asset : String}
    {attribution : StrategyComponentAttribution D} (hsound : SoundState state)
    (h : state.setStrategyAttribution asset attribution = .ok next) : SoundState next := by
  obtain ⟨u, -, h⟩ := of_bind h
  cases h
  exact ⟨hsound.schema, hsound.starting, hsound.current, hsound.settled, hsound.deployment,
    hsound.fills, hsound.fillEvents, hsound.fillsOnce, hsound.funding, hsound.fundingEvents,
    hsound.fundingOnce, hsound.ledger, hsound.sources, hsound.agrees, hsound.position⟩

theorem operate_sound [Sha256] [DecimalSumLaws D] (hsound : SoundState state)
    (operation : LiveOperation D) : SoundState (operate state operation) := by
  cases operation with
  | event call => exact (after_sound call hsound).1
  | setAttribution asset attribution =>
    unfold operate
    dsimp only
    cases hset : state.setStrategyAttribution asset attribution with
    | ok next => exact setStrategyAttribution_sound hsound hset
    | error error => exact hsound

/-- The file of a live state is written and read as that state. -/
def LiveRoundTrips [DecimalText D] [JsonText] (state : LiveTradingState D) : Prop :=
  ∃ text, state.saveAtomic = .ok text ∧ LiveTradingState.load text = .ok state

theorem liveRoundTrips_iff [DecimalText D] [JsonText] [LawfulJsonText] (hsound : SoundState state) :
    LiveRoundTrips state ↔ state.closedEpisodeAttribution = ∅ := by
  rw [← Derived.liveTradingState_writable_iff]
  constructor
  · rintro ⟨text, hsave, -⟩
    by_contra hunwritable
    obtain ⟨message, hmessage⟩ := writeJson_eq_error hunwritable
    unfold LiveTradingState.saveAtomic at hsave
    rw [hmessage] at hsave
    cases hsave
  · intro hwritable
    obtain ⟨text, hwrite, hread, -⟩ := readJson_writeJson hwritable
    refine ⟨text, ?_, ?_⟩
    · unfold LiveTradingState.saveAtomic
      rw [hwrite]
      rfl
    · unfold LiveTradingState.load
      rw [hread, Except.mapError, ok_bind, validateLoaded_of_sound hsound, ok_bind]
      rfl

end

inductive QueueCall (D : Type)
  | enqueue (intent : AuthorizedExecutionIntent D)
  | markDisconnect (cloid : PlannedCloid)
  | markAccepted (cloid : PlannedCloid)
  | markRejected (cloid : PlannedCloid) (reason : String)

section

variable [Sha256] [MessagePack] [IntentEncoding D] [DecimalText D] {queue : DurableHandoffQueue D}

/-- The queue a changing call returns, or the one it was given. -/
def changed (queue : DurableHandoffQueue D) :
    Except IpcClient.ObserverIpcError (DurableHandoffQueue D) → DurableHandoffQueue D
  | .ok next => next
  | .error _ => queue

def callQueue (queue : DurableHandoffQueue D) : QueueCall D → DurableHandoffQueue D
  | .enqueue intent => (queue.enqueue intent).2
  | .markDisconnect cloid => changed queue (queue.markDisconnect cloid)
  | .markAccepted cloid => changed queue (queue.markAccepted cloid)
  | .markRejected cloid reason => changed queue (queue.markRejected cloid reason)

def StartsQueue (queue : DurableHandoffQueue D) : Prop :=
  (∃ capacity, DurableHandoffQueue.new capacity = .ok queue) ∨
    ∃ reducing increasing, DurableHandoffQueue.withLanes reducing increasing = .ok queue

/-- What the loader requires of a queue besides its capacity. -/
structure SoundQueue (queue : DurableHandoffQueue D) : Prop where
  schema : queue.schemaVersion = DurableHandoffQueue.handoffSchemaVersion
  sequence : queue.nextSequence ≠ 0

omit [Sha256] [MessagePack] [IntentEncoding D] [DecimalText D] [Decimal D] in
theorem startsQueue_sound (h : StartsQueue queue) : SoundQueue queue := by
  rcases h with ⟨capacity, h⟩ | ⟨reducing, increasing, h⟩
  · unfold DurableHandoffQueue.new at h
    split at h
    · cases h
    · cases h
      exact ⟨rfl, Nat.one_ne_zero⟩
  · unfold DurableHandoffQueue.withLanes at h
    split at h
    · cases h
    · split at h
      · cases h
      · cases h
        exact ⟨rfl, Nat.one_ne_zero⟩

theorem enqueue_sound (hsound : SoundQueue queue) (intent : AuthorizedExecutionIntent D) :
    SoundQueue (queue.enqueue intent).2 := by
  unfold DurableHandoffQueue.enqueue
  split
  · split <;> exact hsound
  split
  · exact hsound
  split
  · exact hsound
  split
  · exact hsound
  split
  · exact hsound
  · rename_i next hnext
    have hpositive : next ≠ 0 := by
      have := checkedAddU64_eq_some_iff.mp hnext
      omega
    split <;> exact ⟨hsound.schema, hpositive⟩

omit [Sha256] [MessagePack] [IntentEncoding D] [DecimalText D] [Decimal D] in
theorem changeState_sound (hsound : SoundQueue queue) (cloid : PlannedCloid)
    (change : IpcClient.ObserverIntentState → IpcClient.ObserverIntentState) :
    SoundQueue (changed queue (queue.changeState cloid change)) := by
  unfold DurableHandoffQueue.changeState
  cases queue.byCloid[cloid]? with
  | none => exact hsound
  | some pending => exact ⟨hsound.schema, hsound.sequence⟩

theorem callQueue_sound (hsound : SoundQueue queue) (call : QueueCall D) :
    SoundQueue (callQueue queue call) := by
  cases call with
  | enqueue intent => exact enqueue_sound hsound intent
  | markDisconnect cloid => exact changeState_sound hsound cloid _
  | markAccepted cloid => exact changeState_sound hsound cloid _
  | markRejected cloid reason => exact changeState_sound hsound cloid _

/-- The file of a queue is written, and read as that queue by a process with its capacity. -/
def QueueRoundTrips [JsonText] (queue : DurableHandoffQueue D) : Prop :=
  ∃ text, queue.persist = .ok text ∧
    DurableHandoffQueue.restore text queue.maximumPendingIntents = .ok queue

omit [Sha256] [MessagePack] [IntentEncoding D] in
theorem queueRoundTrips_iff [JsonText] [LawfulJsonText] (hsound : SoundQueue queue) :
    QueueRoundTrips queue ↔ queue.byCloid = ∅ := by
  constructor
  · rintro ⟨text, hsave, -⟩
    by_contra hentry
    obtain ⟨message, hmessage⟩ := queue.persist_eq_error hentry
    rw [hmessage] at hsave
    cases hsave
  · intro hempty
    obtain ⟨text, hwrite, -, hread⟩ :=
      readJson_writeJson ((IpcClient.durableHandoffQueue_writable_iff queue).mpr hempty)
    refine ⟨text ++ "\n", ?_, ?_⟩
    · unfold DurableHandoffQueue.persist
      rw [hwrite]
      rfl
    · have hsize : queue.byCloid.size = 0 := by
        rw [hempty]
        exact ExtTreeMap.size_empty
      unfold DurableHandoffQueue.restore
      rw [hread, Except.mapError, ok_bind, if_neg]
      · rfl
      · rintro (hschema | hcapacity | hfull | hsequence)
        · exact hschema hsound.schema
        · exact hcapacity rfl
        · omega
        · exact hsound.sequence hsequence

end

/-- What the loader requires of a production state. -/
structure SoundOrder (state : ProductionTradingState D) : Prop where
  schema : state.schemaVersion = 1
  window : state.reorderBuffer.size ≤ ProductionTradingState.maximumReorderWindow
  buffered : ∀ (sequence : ℕ) (event : VerifiedReconciliationEvent D),
    state.reorderBuffer[sequence]? = some event → event.identity.sequence = sequence
  applied : ∀ sequence ∈ state.appliedEventHashes,
    sequence ≤ state.highestContiguousSignerSequence
  last : state.appliedEventHashes = ∅ ∨
    state.highestContiguousSignerSequence ∈ state.appliedEventHashes

section

variable [Sha256] {state next : ProductionTradingState D}

omit [Sha256] [Decimal D] in
theorem soundOrder_new (live : LiveTradingState D) :
    SoundOrder (ProductionTradingState.new live) := by
  refine ⟨rfl, Nat.zero_le _, ?_, ?_, .inl rfl⟩
  · intro sequence event hget
    cases hget
  · intro sequence hmem
    exact absurd hmem ExtTreeMap.not_mem_empty

theorem applyContiguous_sound {event : VerifiedReconciliationEvent D} (hsound : SoundOrder state)
    (hturn : state.highestContiguousSignerSequence < event.identity.sequence)
    (h : state.applyContiguous event = .ok next) : SoundOrder next := by
  obtain ⟨applied, happly, h⟩ := of_bind h
  cases h
  obtain ⟨live, intents, blocked, replan, mismatches, equity, rfl⟩ := applyPayload_frame happly
  refine ⟨hsound.schema, hsound.window, hsound.buffered, ?_, .inr ExtTreeMap.mem_insert_self⟩
  intro sequence hmem
  rcases ExtTreeMap.mem_insert.mp hmem with hsame | hbefore
  · exact (Std.LawfulEqOrd.eq_of_compare hsame).ge
  · exact (hsound.applied sequence hbefore).trans hturn.le

omit [Sha256] [Decimal D] in
theorem soundOrder_erase (hsound : SoundOrder state) (sequence : ℕ) :
    SoundOrder { state with reorderBuffer := state.reorderBuffer.erase sequence } := by
  refine ⟨hsound.schema, ?_, ?_, hsound.applied, hsound.last⟩
  · exact ExtTreeMap.size_erase_le.trans hsound.window
  · intro other event hget
    rw [getElem?_erase_eq] at hget
    split at hget
    · cases hget
    · exact hsound.buffered other event hget

theorem drainBuffer_sound (rounds : ℕ) (hsound : SoundOrder state) :
    SoundOrder (ProductionTradingState.drainBuffer rounds state).2 := by
  induction rounds generalizing state with
  | zero => exact hsound
  | succ rounds ih =>
    unfold ProductionTradingState.drainBuffer
    split
    · exact hsound
    · rename_i turn hturn
      split
      · exact hsound
      · rename_i event hevent
        have htaken := soundOrder_erase hsound turn
        dsimp only
        split
        · exact htaken
        · rename_i applied happlied
          refine ih (applyContiguous_sound htaken ?_ happlied)
          rw [hsound.buffered turn event hevent]
          have := checkedAddU64_eq_some_iff.mp hturn
          show state.highestContiguousSignerSequence < turn
          omega

theorem deliver_sound [PayloadEncoding D] (hsound : SoundOrder state)
    (event : VerifiedReconciliationEvent D) : SoundOrder (deliver state event) := by
  unfold deliver ProductionTradingState.applyReconciliationEvent
  split
  · exact hsound
  split
  · exact hsound
  dsimp only
  split
  · split <;> exact hsound
  split
  · exact hsound
  rename_i hahead
  split
  · exact hsound
  rename_i turn hturn
  split
  · -- The event waits for its turn.
    split
    · exact hsound
    rename_i hroom
    split
    · split <;> exact hsound
    refine ⟨hsound.schema, ?_, ?_, hsound.applied, hsound.last⟩
    · have hsize := ExtTreeMap.size_insert_le (t := state.reorderBuffer)
        (k := event.identity.sequence) (v := event)
      show (state.reorderBuffer.insert _ _).size ≤ _
      omega
    · intro sequence other hget
      rw [getElem?_insert_eq] at hget
      split at hget
      · cases hget
        assumption
      · exact hsound.buffered sequence other hget
  · split
    · exact hsound
    rename_i applied happlied
    have hnext := applyContiguous_sound hsound (Nat.lt_of_not_le hahead) happlied
    have hdrained := drainBuffer_sound (applied.reorderBuffer.size + 1) hnext
    split <;> simp_all

/-- The file of a production state is written and read as that state. -/
def ProductionRoundTrips [DecimalText D] [JsonText] (state : ProductionTradingState D) : Prop :=
  ∃ text, state.saveAtomic = .ok text ∧ ProductionTradingState.load text = .ok state

omit [Sha256] [Decimal D] in
theorem validateLoaded_of_soundOrder (hsound : SoundOrder state) :
    state.validateLoaded = .ok () := by
  have hlast : state.appliedEventHashes.keys.getLast?.any
      (fun sequence => sequence != state.highestContiguousSignerSequence) = false := by
    rcases hsound.last with hempty | hmem
    · rw [hempty]
      rfl
    · have hkeys := getLast?_keys hmem fun sequence hsequence => by
        have hle := hsound.applied sequence hsequence
        rw [ne_eq, Nat.compare_eq_lt]
        omega
      rw [hkeys]
      exact bne_self_eq_false _
  unfold ProductionTradingState.validateLoaded
  rw [if_neg]
  rintro (hschema | hfull | hbehind)
  · exact hschema hsound.schema
  · exact absurd hsound.window (Nat.not_le.mpr hfull)
  · rw [hlast] at hbehind
    cases hbehind

omit [Sha256] in
theorem productionRoundTrips_iff [DecimalText D] [JsonText] [LawfulJsonText]
    (hsound : SoundOrder state) :
    ProductionRoundTrips state ↔ state.live.closedEpisodeAttribution = ∅ ∧ state.intents = ∅ := by
  rw [← Derived.productionTradingState_writable_iff]
  constructor
  · rintro ⟨text, hsave, -⟩
    by_contra hunwritable
    obtain ⟨message, hmessage⟩ := writeJson_eq_error hunwritable
    unfold ProductionTradingState.saveAtomic at hsave
    rw [hmessage] at hsave
    cases hsave
  · intro hwritable
    obtain ⟨text, hwrite, hread, -⟩ := readJson_writeJson hwritable
    refine ⟨text, ?_, ?_⟩
    · unfold ProductionTradingState.saveAtomic
      rw [hwrite]
      rfl
    · unfold ProductionTradingState.load
      rw [hread, Except.mapError, ok_bind, validateLoaded_of_soundOrder hsound, ok_bind]
      rfl

end

/-- **The durable states that survive a restart.**  A state the operations reach is saved and loaded
unchanged exactly when its maps with byte arrays for keys are empty. -/
theorem durable_states_round_trip_iff [Sha256] [MessagePack] [IntentEncoding D]
    [PayloadEncoding D] [DecimalText D] [DecimalSumLaws D] [JsonText] [LawfulJsonText] :
    (∀ (start : DurableHandoffQueue D) (calls : List (QueueCall D)), StartsQueue start →
      (QueueRoundTrips (run callQueue start calls) ↔ (run callQueue start calls).byCloid = ∅)) ∧
    (∀ (live : LiveTradingState D) (events : List (VerifiedReconciliationEvent D)),
      ProductionRoundTrips (run deliver (ProductionTradingState.new live) events) ↔
        (run deliver (ProductionTradingState.new live) events).live.closedEpisodeAttribution = ∅ ∧
          (run deliver (ProductionTradingState.new live) events).intents = ∅) ∧
    ∀ (startingEquity : D) (cursor : ℕ) (start : LiveTradingState D)
      (operations : List (LiveOperation D)),
      LiveTradingState.new startingEquity cursor = .ok start →
      (LiveRoundTrips (run operate start operations) ↔
        (run operate start operations).closedEpisodeAttribution = ∅) := by
  refine ⟨?_, ?_, ?_⟩
  · intro start calls hstart
    have hsound := run_invariant (I := SoundQueue)
      (fun queue call hqueue => callQueue_sound hqueue call) (startsQueue_sound hstart) calls
    exact queueRoundTrips_iff hsound
  · intro live events
    have hsound := run_invariant (I := SoundOrder)
      (fun state event hstate => deliver_sound hstate event) (soundOrder_new live) events
    exact productionRoundTrips_iff hsound
  · intro startingEquity cursor start operations hnew
    have hsound := run_invariant (I := SoundState)
      (fun state operation hstate => operate_sound hstate operation) (soundState_new hnew)
      operations
    exact liveRoundTrips_iff hsound

def packedPayload (payload : VerifiedReconciliationPayload ℤ) : List UInt8 :=
  MessagePack.pack (compact (Derived.verifiedReconciliationPayload.serialize payload))

def packedEvent (sequence : ℕ) (payload : VerifiedReconciliationPayload ℤ) :
    VerifiedReconciliationEvent ℤ where
  identity := {
    signerInstanceId := Bytes.replicate 16 1
    sequence
    eventHash := prefixDigest (packedPayload payload) }
  payload

def wholePurchase : VerifiedExchangeFill ℤ where
  identity := ⟨"7", "1", Bytes.replicate 16 1⟩
  decisionId := Bytes.replicate 32 0
  targetVersion := 1
  rootCloid := Bytes.replicate 16 1
  parentCloid := none
  continuationGeneration := 0
  asset := "BTC"
  side := .buy
  reduceOnly := false
  filledQuantity := 1
  averageFillPrice := 100
  submittedLimitPrice := 100
  feeAmount := 1
  exchangeClosedPnl := 0
  feeAsset := "USDC"
  liquidity := .taker
  decisionReferencePrice := 100
  occurredAt := 1
  decisionTimestamp := 0
  exchangeEquityAfter := 1000
  sourceHash := Bytes.replicate 32 0

/-- A new queue, an observer that has seen the exchange's equity, and a live state with an open
position. -/
theorem durable_states_round_trip_iff_open :
    ∃ (_ : Sha256) (_ : PayloadEncoding ℤ) (_ : JsonText) (queue : DurableHandoffQueue ℤ),
      DurableHandoffQueue.new 4 = .ok queue ∧ QueueRoundTrips queue ∧
        ProductionRoundTrips (run deliver
          (ProductionTradingState.new (LiveTradingState.starting (1000 : ℤ) 0))
          [packedEvent 1 (.equitySnapshot 1001 7)]) ∧
        LiveRoundTrips (run operate (LiveTradingState.starting (1000 : ℤ) 0)
          [.event (.fill wholePurchase)]) := by
  let sha : Sha256 := ⟨prefixDigest⟩
  let codec : MessagePack := ⟨MessagePack.pack, MessagePack.parse⟩
  let intents : IntentEncoding ℤ := ⟨fun intent =>
    .ok (MessagePack.pack (compact (Derived.authorizedExecutionIntent.serialize intent)))⟩
  let payloads : PayloadEncoding ℤ := ⟨fun payload => .ok (packedPayload payload)⟩
  let files : JsonText := ⟨JsonFormat.write, JsonFormat.parse⟩
  have lawful : LawfulJsonText :=
    ⟨fun _ => JsonFormat.parse_write _, fun _ => JsonFormat.parse_write_newline _⟩
  obtain ⟨hqueue, hproduction, hlive⟩ := durable_states_round_trip_iff (D := ℤ)
  have hnew : LiveTradingState.new (1000 : ℤ) 0 = .ok (LiveTradingState.starting 1000 0) := by
    decide +kernel
  refine ⟨sha, payloads, files, _, rfl, (hqueue _ [] (.inl ⟨4, rfl⟩)).mpr rfl,
    (hproduction _ _).mpr ⟨by decide +kernel, by decide +kernel⟩,
    (hlive 1000 0 _ _ hnew).mpr (by decide +kernel)⟩

/-- An accepted intent keeps the observer's state from being saved. -/
theorem accepted_intent_not_saved :
    ¬ ∀ [Sha256] [PayloadEncoding ℤ] [JsonText] [LawfulJsonText] (live : LiveTradingState ℤ)
      (events : List (VerifiedReconciliationEvent ℤ)),
      ProductionRoundTrips (run deliver (ProductionTradingState.new live) events) := by
  intro h
  let sha : Sha256 := ⟨prefixDigest⟩
  let payloads : PayloadEncoding ℤ := ⟨fun payload => .ok (packedPayload payload)⟩
  let files : JsonText := ⟨JsonFormat.write, JsonFormat.parse⟩
  have lawful : LawfulJsonText :=
    ⟨fun _ => JsonFormat.parse_write _, fun _ => JsonFormat.parse_write_newline _⟩
  let identity : IntentIdentity := ⟨Bytes.replicate 16 1, 1, Bytes.replicate 32 1⟩
  let events := [packedEvent 1 (.intentAccepted identity 1)]
  have hsound : SoundOrder (run deliver
      (ProductionTradingState.new (LiveTradingState.starting (1000 : ℤ) 0)) events) :=
    run_invariant (I := SoundOrder) (fun state event hstate => deliver_sound hstate event)
      (soundOrder_new _) events
  have hempty := ((productionRoundTrips_iff hsound).mp (h _ _)).2
  revert hempty
  decide +kernel

end CopyTrade.Analysis
