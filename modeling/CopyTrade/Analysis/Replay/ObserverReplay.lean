import CopyTrade.Analysis.Replay.FillFunding
import CopyTrade.Model.Observer.ProductionState
import CopyTrade.Model.Signer.Outbox
import Std.Data.String.ToNat

/-!
# What a synchronisation appends, and the replay of it

`sync_outbox` offers every transition, fill and funding event of the whole history again and the
source keys keep the old ones out, so a synchronisation that succeeds appends exactly the new items,
numbered without a gap.  An observer that has applied the events up to `n`, with an empty reorder
buffer, applies the next sealed event at once: the replay of sealed events is the replay of their
payloads.
-/

namespace CopyTrade.Analysis

open Foundation Model
open Std (ExtTreeMap ExtTreeSet)

section

variable {D : Type}

def Sealed [Sha256] [PayloadEncoding D] :
    ℕ → List (VerifiedReconciliationEvent D) → Prop
  | _, [] => True
  | first, event :: rest =>
    event.identity.sequence = first ∧ first < maxU64 ∧
      canonicalPayloadHash event.payload = .ok event.identity.eventHash ∧ Sealed (first + 1) rest

theorem sealed_append [Sha256] [PayloadEncoding D] {first : ℕ}
    {events more : List (VerifiedReconciliationEvent D)} :
    Sealed first (events ++ more) ↔ Sealed first events ∧ Sealed (first + events.length) more := by
  induction events generalizing first with
  | nil => simp [Sealed]
  | cons event events ih =>
    have hshift : first + (events.length + 1) = first + 1 + events.length := by omega
    simp only [List.cons_append, Sealed, ih, List.length_cons, hshift, and_assoc]

/-- The outbox after the items have been appended: their events stand at the end, sealed, and
their keys are known. -/
structure Appended [Sha256] [PayloadEncoding D] (outbox : DurableReconciliationOutbox D)
    (items : List (OutboxItem D)) (events : List (VerifiedReconciliationEvent D))
    (next : DurableReconciliationOutbox D) : Prop where
  events_eq : next.events = outbox.events ++ events
  payloads : events.map VerifiedReconciliationEvent.payload = items.map Prod.snd
  sealed : Sealed outbox.nextSequence events
  nextSequence : next.nextSequence = outbox.nextSequence + items.length
  keys : ∀ key, key ∈ next.sourceKeys ↔ key ∈ outbox.sourceKeys ∨ key ∈ items.map Prod.fst

theorem textResult_eq_ok_iff {α : Type} {x : Except String α} {a : α} :
    textResult x = .ok a ↔ x = .ok a := by
  cases x <;> simp [textResult]

theorem signerResult_eq_ok_iff {α : Type} {x : Except SignerError α} {a : α} :
    signerResult x = .ok a ↔ x = .ok a := by
  cases x <;> simp [signerResult]

section

variable [Sha256] [PayloadEncoding D] {outbox next : DurableReconciliationOutbox D}

theorem appendItem_known {item : OutboxItem D} (h : item.1 ∈ outbox.sourceKeys) :
    appendItem outbox item = .ok outbox := by
  simp only [appendItem, DurableReconciliationOutbox.appendOnce, ExtTreeSet.contains_iff_mem, h,
    if_true, textResult]

theorem appendItem_fresh {item : OutboxItem D} (hfresh : item.1 ∉ outbox.sourceKeys)
    (h : appendItem outbox item = .ok next) :
    ∃ event, Appended outbox [item] [event] next := by
  unfold appendItem DurableReconciliationOutbox.appendOnce at h
  rw [textResult_eq_ok_iff] at h
  split at h
  · rename_i hknown
    exact absurd (ExtTreeSet.contains_iff_mem.mp hknown) hfresh
  split at h
  · cases h
  split at h
  · cases h
  rename_i sequence hsequence
  obtain ⟨hash, hhash, h⟩ := of_bind h
  rw [pure_eq_ok_iff] at h
  subst h
  unfold checkedAddU64 at hsequence
  split at hsequence
  · rename_i hbound
    cases hsequence
    refine ⟨_, rfl, rfl, ⟨rfl, by omega, hhash, trivial⟩, rfl, ?_⟩
    intro key
    rw [mem_set_insert]
    simp only [List.map_cons, List.map_nil, List.mem_singleton]
    constructor
    · rintro (rfl | hkey)
      · exact .inr rfl
      · exact .inl hkey
    · rintro (hkey | rfl)
      · exact .inr hkey
      · exact .inl rfl
  · cases hsequence

theorem Appended.refl : Appended outbox [] [] outbox := by
  refine ⟨(List.append_nil _).symm, rfl, trivial, rfl, ?_⟩
  intro key
  simp

variable {items : List (OutboxItem D)}

theorem Appended.trans {middle : DurableReconciliationOutbox D} {more : List (OutboxItem D)}
    {events rest : List (VerifiedReconciliationEvent D)}
    (hfirst : Appended outbox items events middle) (hrest : Appended middle more rest next) :
    Appended outbox (items ++ more) (events ++ rest) next := by
  refine ⟨?_, ?_, ?_, ?_, ?_⟩
  · rw [hrest.events_eq, hfirst.events_eq, List.append_assoc]
  · rw [List.map_append, List.map_append, hfirst.payloads, hrest.payloads]
  · have hcount : events.length = items.length := by
      simpa only [List.length_map] using congrArg List.length hfirst.payloads
    have hsealed := hrest.sealed
    rw [hfirst.nextSequence, ← hcount] at hsealed
    exact sealed_append.mpr ⟨hfirst.sealed, hsealed⟩
  · rw [hrest.nextSequence, hfirst.nextSequence, List.length_append, Nat.add_assoc]
  · intro key
    rw [hrest.keys, hfirst.keys, List.map_append, List.mem_append, or_assoc]

theorem appendItems_known (h : ∀ item ∈ items, item.1 ∈ outbox.sourceKeys) :
    items.foldlM appendItem outbox = .ok outbox := by
  induction items with
  | nil => rfl
  | cons item items ih =>
    obtain ⟨hitem, hitems⟩ := List.forall_mem_cons.mp h
    exact foldlM_cons_eq_ok_iff.mpr ⟨outbox, appendItem_known hitem, ih hitems⟩

theorem appendItems_fresh (hfresh : ∀ key ∈ items.map Prod.fst, key ∉ outbox.sourceKeys)
    (hnodup : (items.map Prod.fst).Nodup) (h : items.foldlM appendItem outbox = .ok next) :
    ∃ events, Appended outbox items events next := by
  induction items generalizing outbox with
  | nil =>
    rw [List.foldlM_nil, pure_eq_ok_iff] at h
    subst h
    exact ⟨[], Appended.refl⟩
  | cons item items ih =>
    obtain ⟨middle, hitem, hitems⟩ := foldlM_cons_eq_ok_iff.mp h
    rw [List.map_cons, List.nodup_cons] at hnodup
    obtain ⟨hhead, htail⟩ := hnodup
    obtain ⟨event, hfirst⟩ := appendItem_fresh (hfresh item.1 (by simp)) hitem
    obtain ⟨events, hrest⟩ := ih (by
      intro key hkey hmem
      rcases (hfirst.keys key).mp hmem with hold | hnew
      · exact hfresh key (List.mem_cons_of_mem _ hkey) hold
      · simp only [List.map_cons, List.map_nil, List.mem_singleton] at hnew
        subst hnew
        exact hhead hkey) htail hitems
    exact ⟨event :: events, hfirst.trans hrest⟩

theorem appendItems_new {old new : List (OutboxItem D)}
    (hknown : ∀ key ∈ old.map Prod.fst, key ∈ outbox.sourceKeys)
    (hfresh : ∀ key ∈ new.map Prod.fst, key ∉ outbox.sourceKeys)
    (hnodup : (new.map Prod.fst).Nodup) (h : (old ++ new).foldlM appendItem outbox = .ok next) :
    ∃ events, Appended outbox new events next := by
  obtain ⟨middle, hold, hnew⟩ := foldlM_append_eq_ok_iff.mp h
  have hskip := appendItems_known fun item hitem => hknown item.1 (List.mem_map_of_mem hitem)
  obtain rfl : outbox = middle := Except.ok.inj (hskip.symm.trans hold)
  exact appendItems_fresh hfresh hnodup hnew

theorem appendItems_offered (h : items.foldlM appendItem outbox = .ok next) :
    ∃ appended events, Appended outbox appended events next ∧
      appended.Sublist (items.filter fun item => !outbox.sourceKeys.contains item.1) := by
  induction items generalizing outbox with
  | nil =>
    rw [List.foldlM_nil, pure_eq_ok_iff] at h
    subst h
    exact ⟨[], [], Appended.refl, List.Sublist.refl _⟩
  | cons item items ih =>
    obtain ⟨middle, hitem, hitems⟩ := foldlM_cons_eq_ok_iff.mp h
    obtain ⟨appended, events, happended, hsublist⟩ := ih hitems
    by_cases hknown : item.1 ∈ outbox.sourceKeys
    · rw [appendItem_known hknown] at hitem
      cases hitem
      refine ⟨appended, events, happended, ?_⟩
      rw [List.filter_cons_of_neg (by simp [hknown])]
      exact hsublist
    · obtain ⟨event, hfirst⟩ := appendItem_fresh hknown hitem
      refine ⟨item :: appended, event :: events, hfirst.trans happended, ?_⟩
      have hunknown : (!outbox.sourceKeys.contains item.1) = true := by
        rw [Bool.not_eq_true', ← Bool.not_eq_true, ExtTreeSet.contains_iff_mem]
        exact hknown
      rw [List.filter_cons, if_pos hunknown]
      refine List.Sublist.cons_cons item (hsublist.trans (List.monotone_filter_right items ?_))
      intro other hother
      simp only [Bool.not_eq_true', ← Bool.not_eq_true, ExtTreeSet.contains_iff_mem] at hother ⊢
      intro hmem
      exact hother ((hfirst.keys other.1).mpr (.inl hmem))

theorem appendItems_keys (h : items.foldlM appendItem outbox = .ok next) (key : String) :
    key ∈ next.sourceKeys ↔ key ∈ outbox.sourceKeys ∨ key ∈ items.map Prod.fst := by
  induction items generalizing outbox with
  | nil =>
    rw [List.foldlM_nil, pure_eq_ok_iff] at h
    subst h
    simp
  | cons item items ih =>
    obtain ⟨middle, hitem, hitems⟩ := foldlM_cons_eq_ok_iff.mp h
    rw [ih hitems, List.map_cons, List.mem_cons]
    by_cases hknown : item.1 ∈ outbox.sourceKeys
    · rw [appendItem_known hknown] at hitem
      cases hitem
      constructor
      · rintro (hkey | hkey)
        · exact .inl hkey
        · exact .inr (.inr hkey)
      · rintro (hkey | rfl | hkey)
        · exact .inl hkey
        · exact .inl hknown
        · exact .inr hkey
    · obtain ⟨event, happended⟩ := appendItem_fresh hknown hitem
      rw [happended.keys, List.map_singleton, List.mem_singleton, or_assoc]

end

def hasPayload : SubmissionState D → Bool
  | .nonceAllocated _ | .signed _ => false
  | _ => true

def transitionKey (sequence : ℕ) : String := "transition:" ++ toString sequence

def transitionKeys (records : List (SubmissionTransitionRecord D × ℕ)) : List String :=
  (records.filter fun record => hasPayload record.1.state).map fun record =>
    transitionKey (record.2 + 1)

def transitionItems (registry : SubmissionRegistry D) :
    List (SubmissionTransitionRecord D × ℕ) → Except RunError (List (OutboxItem D))
  | [] => .ok []
  | (transition, index) :: rest => do
    let item ← transitionItem registry (index + 1) transition
    let items ← transitionItems registry rest
    pure (item.toList ++ items)

variable {registry : SubmissionRegistry D} {records : List (SubmissionTransitionRecord D × ℕ)}

theorem transitionPayload_isSome {sequence : ℕ} {cloid : PlannedCloid} {state : SubmissionState D}
    {payload : Option (VerifiedReconciliationPayload D)}
    (h : transitionPayload registry sequence cloid state = .ok payload) :
    payload.isSome = hasPayload state := by
  cases state with
  | authorized =>
    obtain ⟨identity, hidentity, h⟩ := of_bind h
    cases h
    rfl
  | _ =>
    cases h
    rfl

theorem transitionItem_keys {sequence : ℕ} {record : SubmissionTransitionRecord D}
    {item : Option (OutboxItem D)} (h : transitionItem registry sequence record = .ok item) :
    item.toList.map Prod.fst =
      if hasPayload record.state then [transitionKey sequence] else [] := by
  unfold transitionItem at h
  obtain ⟨cloid, hcloid, h⟩ := of_bind h
  obtain ⟨payload, hpayload, h⟩ := of_bind h
  rw [pure_eq_ok_iff] at h
  subst h
  rw [← transitionPayload_isSome hpayload]
  cases payload <;> rfl

theorem transitionItems_keys {items : List (OutboxItem D)}
    (h : transitionItems registry records = .ok items) :
    items.map Prod.fst = transitionKeys records := by
  induction records generalizing items with
  | nil =>
    cases h
    rfl
  | cons record records ih =>
    obtain ⟨record, index⟩ := record
    unfold transitionItems at h
    obtain ⟨item, hitem, h⟩ := of_bind h
    obtain ⟨rest, hrest, h⟩ := of_bind h
    rw [pure_eq_ok_iff] at h
    subst h
    rw [List.map_append, transitionItem_keys hitem, ih hrest]
    unfold transitionKeys
    rw [List.filter_cons]
    split <;> rfl

theorem transitionItems_append {more : List (SubmissionTransitionRecord D × ℕ)}
    {items : List (OutboxItem D)} :
    transitionItems registry (records ++ more) = .ok items ↔
      ∃ old new, transitionItems registry records = .ok old ∧
        transitionItems registry more = .ok new ∧ old ++ new = items := by
  induction records generalizing items with
  | nil => simp [transitionItems]
  | cons record records ih =>
    obtain ⟨record, index⟩ := record
    simp only [List.cons_append, transitionItems, bind_eq_ok_iff, ih, pure_eq_ok_iff]
    constructor
    · rintro ⟨item, hitem, _, ⟨old, new, hold, hnew, rfl⟩, rfl⟩
      exact ⟨_, new, ⟨item, hitem, old, hold, rfl⟩, hnew, List.append_assoc _ _ _⟩
    · rintro ⟨_, new, ⟨item, hitem, old, hold, rfl⟩, hnew, rfl⟩
      exact ⟨item, hitem, _, ⟨old, new, hold, hnew, rfl⟩, (List.append_assoc _ _ _).symm⟩

theorem syncTransitions_eq_ok [Sha256] [PayloadEncoding D]
    {outbox next : DurableReconciliationOutbox D}
    (h : syncTransitions registry records outbox = .ok next) :
    ∃ items, transitionItems registry records = .ok items ∧
      items.foldlM appendItem outbox = .ok next := by
  induction records generalizing outbox with
  | nil =>
    cases h
    exact ⟨[], rfl, rfl⟩
  | cons record records ih =>
    obtain ⟨record, index⟩ := record
    unfold syncTransitions at h
    obtain ⟨item, hitem, h⟩ := of_bind h
    cases item with
    | none =>
      obtain ⟨items, hitems, hfold⟩ := ih h
      exact ⟨items, bind_eq_ok_iff.mpr ⟨none, hitem, bind_eq_ok_iff.mpr ⟨items, hitems, rfl⟩⟩,
        hfold⟩
    | some item =>
      obtain ⟨middle, happend, h⟩ := of_bind h
      obtain ⟨items, hitems, hfold⟩ := ih h
      exact ⟨item :: items,
        bind_eq_ok_iff.mpr ⟨some item, hitem, bind_eq_ok_iff.mpr ⟨items, hitems, rfl⟩⟩,
        foldlM_cons_eq_ok_iff.mpr ⟨middle, happend, hfold⟩⟩

theorem transitionKey_injective {a b : ℕ} (h : transitionKey a = transitionKey b) : a = b := by
  have hlists := congrArg String.toList h
  simp only [transitionKey, String.toList_append, List.append_cancel_left_eq] at hlists
  exact Nat.repr_injective (String.toList_injective hlists)

theorem transitionKey_ne_fill (sequence : ℕ) (fill : VerifiedExchangeFill D) :
    transitionKey sequence ≠ (fillItem fill).1 := by
  intro h
  have hlists := congrArg String.toList h
  simp [transitionKey, fillItem, String.toList_append] at hlists

theorem transitionKey_ne_funding (sequence : ℕ) (event : VerifiedFundingEvent D) :
    transitionKey sequence ≠ (fundingItem event).1 := by
  intro h
  have hlists := congrArg String.toList h
  simp [transitionKey, fundingItem, String.toList_append] at hlists

theorem fillKey_ne_funding (fill : VerifiedExchangeFill D) (event : VerifiedFundingEvent D) :
    (fillItem fill).1 ≠ (fundingItem event).1 := by
  intro h
  have hlists := congrArg String.toList h
  simp [fillItem, fundingItem, String.toList_append] at hlists

theorem fundingKey_injective {a b : VerifiedFundingEvent D}
    (h : (fundingItem a).1 = (fundingItem b).1) : a.eventId = b.eventId := by
  have hlists := congrArg String.toList h
  simp only [fundingItem, String.toList_append, List.append_cancel_left_eq] at hlists
  exact hex32_inj.mp (String.toList_injective hlists)

theorem mem_transitionKeys {records : List (SubmissionTransitionRecord D)} {start : ℕ}
    {key : String} (h : key ∈ transitionKeys (records.zipIdx start)) :
    ∃ index, start ≤ index ∧ index < start + records.length ∧ key = transitionKey (index + 1) := by
  unfold transitionKeys at h
  obtain ⟨⟨record, index⟩, hmem, rfl⟩ := List.mem_map.mp h
  obtain ⟨hrecord, -⟩ := List.mem_filter.mp hmem
  obtain ⟨hstart, hend, -⟩ := List.mem_zipIdx hrecord
  exact ⟨index, hstart, hend, rfl⟩

theorem nodup_transitionKeys (records : List (SubmissionTransitionRecord D)) (start : ℕ) :
    (transitionKeys (records.zipIdx start)).Nodup := by
  induction records generalizing start with
  | nil => exact List.nodup_nil
  | cons record records ih =>
    have htail := ih (start + 1)
    unfold transitionKeys at htail ⊢
    rw [List.zipIdx_cons, List.filter_cons]
    split
    · rw [List.map_cons, List.nodup_cons]
      refine ⟨?_, htail⟩
      intro hmem
      obtain ⟨index, hstart, -, hkey⟩ := mem_transitionKeys hmem
      have := transitionKey_injective hkey
      omega
    · exact htail

theorem transitionKeys_append (records more : List (SubmissionTransitionRecord D)) :
    transitionKeys (records ++ more).zipIdx =
      transitionKeys records.zipIdx ++ transitionKeys (more.zipIdx records.length) := by
  unfold transitionKeys
  rw [List.zipIdx_append, List.filter_append, List.map_append, Nat.zero_add]

end

variable {D : Type} [Decimal D]

/-- `apply_reconciliation_event`, stopping at the first event that is refused. -/
def replayEvent [Sha256] [PayloadEncoding D] (state : ProductionTradingState D)
    (event : VerifiedReconciliationEvent D) :
    Except ReconciliationApplyError (ProductionTradingState D) :=
  match state.applyReconciliationEvent event with
  | (.ok _, next) => .ok next
  | (.error error, _) => .error error

def replay [Sha256] [PayloadEncoding D] (state : ProductionTradingState D)
    (events : List (VerifiedReconciliationEvent D)) :
    Except ReconciliationApplyError (ProductionTradingState D) :=
  events.foldlM replayEvent state

/-- The observer has applied the events up to `n` and waits for none. -/
structure InOrder (state : ProductionTradingState D) (n : ℕ) : Prop where
  highest : state.highestContiguousSignerSequence = n
  buffer : state.reorderBuffer = ∅
  hashes : ∀ sequence hash, state.appliedEventHashes[sequence]? = some hash → sequence ≤ n

/-- What decides about the order of events is the same in both states. -/
structure SameOrder (state next : ProductionTradingState D) : Prop where
  highest : next.highestContiguousSignerSequence = state.highestContiguousSignerSequence
  hashes : next.appliedEventHashes = state.appliedEventHashes
  buffer : next.reorderBuffer = state.reorderBuffer

omit [Decimal D] in
theorem inOrder_new (live : LiveTradingState D) :
    InOrder (ProductionTradingState.new live) 0 := by
  refine ⟨rfl, rfl, ?_⟩
  intro sequence hash h
  simp [ProductionTradingState.new] at h

section

variable {state next : ProductionTradingState D}

omit [Decimal D] in
theorem requireIntent_eq_ok_iff {cloid : PlannedCloid} {target : ObserverIntentState} :
    state.requireIntent cloid target = .ok next ↔
      cloid ∈ state.intents ∧ { state with intents := state.intents.insert cloid target } =
        next := by
  unfold ProductionTradingState.requireIntent
  rw [← ExtTreeMap.contains_iff_mem]
  cases state.intents.contains cloid <;> simp

theorem compareSnapshot_frame (positions : ExtTreeMap String D) :
    ∃ mismatches blocked, state.compareSnapshot positions =
      { state with positionMismatches := mismatches, blockedAssets := blocked } := by
  unfold ProductionTradingState.compareSnapshot
  generalize state.live.positions.keys ++ positions.keys = assets
  have hstart : ∃ mismatches blocked,
      ({ state with positionMismatches := ∅, blockedAssets := ∅ } : ProductionTradingState D) =
        { state with positionMismatches := mismatches, blockedAssets := blocked } := ⟨_, _, rfl⟩
  revert hstart
  generalize ({ state with positionMismatches := ∅, blockedAssets := ∅ } :
    ProductionTradingState D) = acc
  intro hstart
  induction assets generalizing acc with
  | nil => exact hstart
  | cons asset assets ih =>
    rw [List.foldl_cons]
    apply ih
    obtain ⟨mismatches, blocked, rfl⟩ := hstart
    dsimp only
    split
    · exact ⟨mismatches, blocked, rfl⟩
    · exact ⟨_, _, rfl⟩

variable {payload : VerifiedReconciliationPayload D}

theorem applyPayload_frame [Sha256] (h : state.applyPayload payload = .ok next) :
    ∃ live intents blocked replan mismatches equity, next = { state with
      live := live
      intents := intents
      blockedAssets := blocked
      assetsRequiringReplan := replan
      positionMismatches := mismatches
      equityMismatch := equity } := by
  have hrequire : ∀ {cloid target}, state.requireIntent cloid target = .ok next →
      ∃ intents, next = { state with intents := intents } := by
    intro cloid target h
    obtain ⟨-, rfl⟩ := requireIntent_eq_ok_iff.mp h
    exact ⟨_, rfl⟩
  cases payload with
  | intentAccepted identity sequence =>
    cases h
    exact ⟨_, _, _, _, _, _, rfl⟩
  | fill fill =>
    obtain ⟨⟨result, live⟩, hfill, h⟩ := of_bind h
    cases result with
    | alreadyApplied =>
      cases h
      exact ⟨_, _, _, _, _, _, rfl⟩
    | applied accounting closed =>
      obtain ⟨middle, hmiddle, h⟩ := of_bind h
      obtain ⟨-, rfl⟩ := requireIntent_eq_ok_iff.mp hmiddle
      cases h
      exact ⟨_, _, _, _, _, _, rfl⟩
  | funding event =>
    obtain ⟨⟨result, live⟩, hfunding, h⟩ := of_bind h
    cases result with
    | alreadyApplied =>
      cases h
      exact ⟨_, _, _, _, _, _, rfl⟩
    | applied accounting =>
      cases h
      exact ⟨_, _, _, _, _, _, rfl⟩
  | positionSnapshot positions observedAt =>
    cases h
    obtain ⟨mismatches, blocked, heq⟩ := compareSnapshot_frame positions
    rw [heq]
    exact ⟨_, _, _, _, _, _, rfl⟩
  | equitySnapshot equity observedAt =>
    simp only [ProductionTradingState.applyPayload] at h
    split at h
    · obtain ⟨live, hlive, h⟩ := of_bind h
      cases h
      exact ⟨_, _, _, _, _, _, rfl⟩
    · cases h
      exact ⟨_, _, _, _, _, _, rfl⟩
  | _ =>
    obtain ⟨intents, rfl⟩ := hrequire h
    exact ⟨_, _, _, _, _, _, rfl⟩

theorem sameOrder_applyPayload [Sha256] (h : state.applyPayload payload = .ok next) :
    SameOrder state next := by
  obtain ⟨live, intents, blocked, replan, mismatches, equity, rfl⟩ := applyPayload_frame h
  exact ⟨rfl, rfl, rfl⟩

theorem replayEvent_next [Sha256] [PayloadEncoding D] {n : ℕ}
    {event : VerifiedReconciliationEvent D} {events : List (VerifiedReconciliationEvent D)}
    (horder : InOrder state n) (hsealed : Sealed (n + 1) (event :: events))
    (h : state.applyPayload event.payload = .ok next) :
    ∃ middle, replayEvent state event = .ok middle ∧ InOrder middle (n + 1) ∧
      middle.live = next.live ∧ middle.intents = next.intents := by
  obtain ⟨hsequence, hbound, hhash, -⟩ := hsealed
  have hsame := sameOrder_applyPayload h
  have hunseen : state.appliedEventHashes[n + 1]? = none := by
    cases hget : state.appliedEventHashes[n + 1]? with
    | none => rfl
    | some hash =>
      have := horder.hashes _ _ hget
      omega
  have hturn : checkedAddU64 n 1 = some (n + 1) := if_pos (by omega)
  have hlast : checkedAddU64 (n + 1) 1 = some (n + 1 + 1) := if_pos (by omega)
  have hlow : ¬ n + 1 ≤ n := by omega
  let middle : ProductionTradingState D := { next with
    appliedEventHashes := next.appliedEventHashes.insert (n + 1) event.identity.eventHash
    highestContiguousSignerSequence := n + 1 }
  have hstep : state.applyContiguous event = .ok middle := by
    refine bind_eq_ok_iff.mpr ⟨next, h, ?_⟩
    rw [hsequence]
    rfl
  have hbuffer : middle.reorderBuffer = ∅ := hsame.buffer.trans horder.buffer
  -- The buffer is empty, so draining it stops in its first round.
  have hdrain : ProductionTradingState.drainBuffer (middle.reorderBuffer.size + 1) middle =
      (.ok (), middle) := by
    unfold ProductionTradingState.drainBuffer
    rw [show middle.highestContiguousSignerSequence = n + 1 from rfl, hlast, hbuffer]
    simp
  refine ⟨middle, ?_, ⟨rfl, hbuffer, ?_⟩, rfl, rfl⟩
  · unfold replayEvent ProductionTradingState.applyReconciliationEvent
    simp only [hhash, bne_self_eq_false, Bool.false_eq_true, if_false, hsequence, hunseen,
      horder.highest, hlow, hturn, hstep, hdrain]
  · intro sequence hash hget
    rw [show middle.appliedEventHashes =
      next.appliedEventHashes.insert (n + 1) event.identity.eventHash from rfl,
      getElem?_insert_eq] at hget
    split at hget
    · omega
    · rw [hsame.hashes] at hget
      have := horder.hashes sequence hash hget
      omega

end

def Opened (history : List (SubmissionTransitionRecord D)) : Prop :=
  ∀ before record after, history = before ++ record :: after →
    record.state = .authorized ∨ ∃ earlier ∈ before, earlier.cloid = record.cloid

def KnowsIntents (state : ProductionTradingState D)
    (history : List (SubmissionTransitionRecord D)) : Prop :=
  ∀ record ∈ history, ∀ cloid, parseCloid record.cloid = .ok cloid → cloid ∈ state.intents

section

variable {registry : SubmissionRegistry D} {state : ProductionTradingState D}

theorem applyPayload_transition [Sha256] {sequence : ℕ} {cloid : PlannedCloid}
    {target : SubmissionState D} {payload : VerifiedReconciliationPayload D}
    (h : transitionPayload registry sequence cloid target = .ok (some payload))
    (hknown : target = .authorized ∨ cloid ∈ state.intents) :
    ∃ next, state.applyPayload payload = .ok next ∧ next.live = state.live ∧
      ∀ key, key = cloid ∨ key ∈ state.intents → key ∈ next.intents := by
  have hinsert : ∀ (value : ObserverIntentState) (key : PlannedCloid),
      key = cloid ∨ key ∈ state.intents → key ∈ state.intents.insert cloid value := by
    intro value key hkey
    rw [ExtTreeMap.mem_insert, Std.LawfulEqOrd.compare_eq_iff_eq]
    rcases hkey with rfl | hkey
    · exact .inl rfl
    · exact .inr hkey
  -- Every other payload sets the state of an intent the observer has to know.
  have hrequire : ∀ value, target ≠ .authorized →
      ∃ next, state.requireIntent cloid value = .ok next ∧ next.live = state.live ∧
        ∀ key, key = cloid ∨ key ∈ state.intents → key ∈ next.intents := by
    intro value htarget
    rcases hknown with hauthorized | hmem
    · exact absurd hauthorized htarget
    · exact ⟨_, requireIntent_eq_ok_iff.mpr ⟨hmem, rfl⟩, rfl, hinsert value⟩
  cases target with
  | authorized =>
    obtain ⟨identity, hidentity, h⟩ := of_bind h
    cases h
    rw [signerResult_eq_ok_iff] at hidentity
    have hcloid : identity.plannedCloid = cloid := by
      unfold intentIdentity at hidentity
      split at hidentity
      · cases hidentity
      split at hidentity
      · cases hidentity
      cases hidentity
      rfl
    subst hcloid
    exact ⟨_, rfl, rfl, hinsert .acceptedBySigner⟩
  | nonceAllocated nonce => cases h
  | signed nonce => cases h
  | _ =>
    cases h
    exact hrequire _ (by simp)

theorem replay_transitions [Sha256] [PayloadEncoding D]
    {before records : List (SubmissionTransitionRecord D)} {items : List (OutboxItem D)}
    {events : List (VerifiedReconciliationEvent D)} {n : ℕ}
    (hitems : transitionItems registry (records.zipIdx before.length) = .ok items)
    (hpayloads : events.map VerifiedReconciliationEvent.payload = items.map Prod.snd)
    (hsealed : Sealed (n + 1) events) (hopened : Opened (before ++ records))
    (horder : InOrder state n) (hknows : KnowsIntents state before) :
    ∃ after, replay state events = .ok after ∧ InOrder after (n + events.length) ∧
      after.live = state.live ∧ KnowsIntents after (before ++ records) := by
  induction records generalizing before items events n state with
  | nil =>
    cases hitems
    obtain rfl := List.map_eq_nil_iff.mp hpayloads
    rw [List.append_nil]
    exact ⟨state, rfl, horder, rfl, hknows⟩
  | cons record records ih =>
    have hsplit : before ++ record :: records = (before ++ [record]) ++ records := by simp
    rw [List.zipIdx_cons] at hitems
    obtain ⟨item, hitem, htail⟩ := of_bind hitems
    obtain ⟨rest, hrest, hjoin⟩ := of_bind htail
    rw [pure_eq_ok_iff] at hjoin
    subst hjoin
    obtain ⟨cloid, hcloid, hbind⟩ := of_bind hitem
    obtain ⟨payload, hpayload, hpure⟩ := of_bind hbind
    rw [pure_eq_ok_iff] at hpure
    subst hpure
    have hknown : record.state = .authorized ∨ cloid ∈ state.intents := by
      rcases hopened before record records rfl with hauthorized | ⟨earlier, hmem, hsame⟩
      · exact .inl hauthorized
      · exact .inr (hknows earlier hmem cloid (by rw [hsame, hcloid]))
    rw [hsplit] at hopened ⊢
    have hlength : (before ++ [record]).length = before.length + 1 := by simp
    rw [← hlength] at hrest
    cases payload with
    | none =>
      have hstate : record.state ≠ .authorized := by
        intro hauthorized
        have := transitionPayload_isSome hpayload
        rw [hauthorized] at this
        cases this
      refine ih hrest hpayloads hsealed hopened horder ?_
      intro other hother key hkey
      rcases List.mem_append.mp hother with hother | hother
      · exact hknows other hother key hkey
      · obtain rfl := List.mem_singleton.mp hother
        rw [hcloid] at hkey
        cases hkey
        exact hknown.resolve_left hstate
    | some payload =>
      cases events with
      | nil => cases hpayloads
      | cons event events =>
        obtain ⟨hevent, hevents⟩ := List.cons.inj hpayloads
        obtain ⟨next, happly, hlive, hintents⟩ := applyPayload_transition hpayload hknown
        have hfirst : state.applyPayload event.payload = .ok next := by
          rw [hevent]
          exact happly
        obtain ⟨middle, hmiddle, hmiddleOrder, hmiddleLive, hmiddleIntents⟩ :=
          replayEvent_next horder hsealed hfirst
        have hmiddleKnows : KnowsIntents middle (before ++ [record]) := by
          intro other hother key hkey
          rw [hmiddleIntents]
          refine hintents key ?_
          rcases List.mem_append.mp hother with hother | hother
          · exact .inr (hknows other hother key hkey)
          · obtain rfl := List.mem_singleton.mp hother
            rw [hcloid] at hkey
            cases hkey
            exact .inl rfl
        obtain ⟨after, hafter, hafterOrder, hafterLive, hafterKnows⟩ :=
          ih hrest hevents hsealed.2.2.2 hopened hmiddleOrder hmiddleKnows
        refine ⟨after, foldlM_cons_eq_ok_iff.mpr ⟨middle, hmiddle, hafter⟩, ?_, ?_, hafterKnows⟩
        · have hcount : n + (event :: events).length = n + 1 + events.length := by
            rw [List.length_cons]
            omega
          rw [hcount]
          exact hafterOrder
        · rw [hafterLive, hmiddleLive, hlive]

end

variable [Sha256] [PayloadEncoding D] {state : ProductionTradingState D}

def equityAfterFills (equity : D) (fills : List (VerifiedExchangeFill D)) : D :=
  fills.foldl (fun _ fill => fill.exchangeEquityAfter) equity

variable {events : List (VerifiedReconciliationEvent D)} {target : Booked D}

theorem replay_fills {fills : List (VerifiedExchangeFill D)} {n : ℕ}
    (hpayloads : events.map VerifiedReconciliationEvent.payload = fills.map .fill)
    (hsealed : Sealed (n + 1) events) (horder : InOrder state n)
    (hknows : ∀ fill ∈ fills, fill.identity.cloid ∈ state.intents)
    (hbooked : fills.foldlM fillBooked (booked state.live) = .ok target) :
    ∃ after, replay state events = .ok after ∧ InOrder after (n + events.length) ∧
      booked after.live = target ∧
      after.live.currentEquity = equityAfterFills state.live.currentEquity fills ∧
      ∀ key ∈ state.intents, key ∈ after.intents := by
  induction fills generalizing events n state with
  | nil =>
    obtain rfl := List.map_eq_nil_iff.mp hpayloads
    rw [List.foldlM_nil, pure_eq_ok_iff] at hbooked
    exact ⟨state, rfl, horder, hbooked, rfl, fun key hkey => hkey⟩
  | cons fill fills ih =>
    cases events with
    | nil => cases hpayloads
    | cons event events =>
      obtain ⟨hevent, hevents⟩ := List.cons.inj hpayloads
      obtain ⟨hfill, hfills⟩ := List.forall_mem_cons.mp hknows
      obtain ⟨b, hfirst, hrest⟩ := foldlM_cons_eq_ok_iff.mp hbooked
      obtain ⟨accounting, closed, live, happlied, hlive, hequity⟩ :=
        applyExchangeFill_of_booked hfirst
      let next : ProductionTradingState D := { state with
        live
        intents := state.intents.insert fill.identity.cloid .partiallyFilled
        assetsRequiringReplan := state.assetsRequiringReplan.insert fill.asset }
      have hpayload : state.applyPayload event.payload = .ok next := by
        rw [hevent]
        refine bind_eq_ok_iff.mpr ⟨(.applied accounting closed, live), ?_, ?_⟩
        · rw [happlied]
          rfl
        · exact bind_eq_ok_iff.mpr ⟨_, requireIntent_eq_ok_iff.mpr ⟨hfill, rfl⟩, rfl⟩
      obtain ⟨middle, hmiddle, hmiddleOrder, hmiddleLive, hmiddleIntents⟩ :=
        replayEvent_next horder hsealed hpayload
      have hmono : ∀ key ∈ state.intents, key ∈ middle.intents := by
        intro key hkey
        rw [hmiddleIntents, ExtTreeMap.mem_insert]
        exact .inr hkey
      have hmiddleLive' : middle.live = live := hmiddleLive
      obtain ⟨after, hafter, hafterOrder, hafterLive, hafterEquity, hafterIntents⟩ :=
        ih hevents hsealed.2.2.2 hmiddleOrder (fun other hother => hmono _ (hfills other hother))
          (by rw [hmiddleLive', hlive]; exact hrest)
      refine ⟨after, foldlM_cons_eq_ok_iff.mpr ⟨middle, hmiddle, hafter⟩, ?_, hafterLive, ?_,
        fun key hkey => hafterIntents key (hmono key hkey)⟩
      · have hcount : n + (event :: events).length = n + 1 + events.length := by
          rw [List.length_cons]
          omega
        rw [hcount]
        exact hafterOrder
      · rw [hafterEquity, hmiddleLive', hequity]
        rfl

theorem replay_funding {funding : List (VerifiedFundingEvent D)} {n : ℕ} {equity : D}
    (hpayloads : events.map VerifiedReconciliationEvent.payload = funding.map .funding)
    (hsealed : Sealed (n + 1) events) (horder : InOrder state n)
    (hbooked : funding.foldlM fundBooked (booked state.live) = .ok target)
    (hequity : funding.foldlM fundedEquity state.live.currentEquity = some equity) :
    ∃ after, replay state events = .ok after ∧ InOrder after (n + events.length) ∧
      booked after.live = target ∧ after.live.currentEquity = equity ∧
      ∀ key ∈ state.intents, key ∈ after.intents := by
  induction funding generalizing events n state with
  | nil =>
    obtain rfl := List.map_eq_nil_iff.mp hpayloads
    rw [List.foldlM_nil, pure_eq_ok_iff] at hbooked
    cases hequity
    exact ⟨state, rfl, horder, hbooked, rfl, fun key hkey => hkey⟩
  | cons event funding ih =>
    cases events with
    | nil => cases hpayloads
    | cons sealedEvent events =>
      obtain ⟨hevent, hevents⟩ := List.cons.inj hpayloads
      obtain ⟨b, hfirst, hrest⟩ := foldlM_cons_eq_ok_iff.mp hbooked
      rw [List.foldlM_cons] at hequity
      obtain ⟨funded, hfunded, hequity⟩ := Option.bind_eq_some_iff.mp hequity
      obtain ⟨accounting, live, happlied, hlive, hlast⟩ :=
        applyFundingEvent_of_booked hfirst hfunded
      let next : ProductionTradingState D := { state with
        live
        assetsRequiringReplan := state.assetsRequiringReplan.insert event.asset }
      have hpayload : state.applyPayload sealedEvent.payload = .ok next := by
        rw [hevent]
        refine bind_eq_ok_iff.mpr ⟨(.applied accounting, live), ?_, rfl⟩
        rw [happlied]
        rfl
      obtain ⟨middle, hmiddle, hmiddleOrder, hmiddleLive, hmiddleIntents⟩ :=
        replayEvent_next horder hsealed hpayload
      have hmiddleLive' : middle.live = live := hmiddleLive
      obtain ⟨after, hafter, hafterOrder, hafterLive, hafterEquity, hafterIntents⟩ :=
        ih hevents hsealed.2.2.2 hmiddleOrder (by rw [hmiddleLive', hlive]; exact hrest)
          (by rw [hmiddleLive', hlast]; exact hequity)
      refine ⟨after, foldlM_cons_eq_ok_iff.mpr ⟨middle, hmiddle, hafter⟩, ?_, hafterLive,
        hafterEquity, ?_⟩
      · have hcount : n + (sealedEvent :: events).length = n + 1 + events.length := by
          rw [List.length_cons]
          omega
        rw [hcount]
        exact hafterOrder
      · intro key hkey
        refine hafterIntents key ?_
        rw [hmiddleIntents]
        exact hkey

end CopyTrade.Analysis
