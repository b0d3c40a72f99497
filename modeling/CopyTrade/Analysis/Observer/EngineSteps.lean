import CopyTrade.Model.Observer.EngineRun

/-!
# What the calls of the decision engine do

One inversion for each function of the engine.  A decision touches its own state and, asset by
asset, the slot of the asset (`SlotStep`); a book touches the slot of its own asset, and either the
prepared intents or the shadow ledger (`BookStep`).
-/

namespace CopyTrade.Analysis

open Foundation Model
open Std (ExtTreeMap)

variable {D : Type} [Decimal D]

/-- What an asset has pending, waiting for a book and to be continued. -/
abbrev Slot (D : Type) [Decimal D] :=
  Option (PendingAction D) × Option String × Option ContinuationIntent

def slotOf (engine : DecisionEngine D) (asset : String) : Slot D :=
  (engine.pending[asset]?, engine.pendingBook[asset]?, engine.continuations[asset]?)

def withoutSlots (engine : DecisionEngine D) : DecisionEngine D :=
  { engine with pending := ∅, pendingBook := ∅, continuations := ∅ }

def frameOf (engine : DecisionEngine D) : DecisionEngine D :=
  { withoutSlots engine with
    decisionSequence := 0
    previousTarget := none
    targetLedger := VirtualTargetLedger.empty
    accruedFunding := ∅
    lastFundingAccrual := none }

variable {engine engine' : DecisionEngine D} {now receivedAt : ℕ} {allocated : AllocatedTargets D}
  {asset : String} {decision : DecisionRecord D} {planned : PlannedDecision D}
  {settings : EngineSettings D} {pending : PendingAction D} {recompute : ExecutionRecompute}
  {book : OrderBookResponse D} {order : SizedOrder D} {technicalDesired : D}
  {identity : ProductionIntentIdentity}

theorem frameOf_eq_of_withoutSlots (h : withoutSlots engine' = withoutSlots engine) :
    frameOf engine' = frameOf engine := by
  unfold frameOf
  rw [h]

theorem freshBook_of_frame (h : frameOf engine' = frameOf engine) (now : ℕ) (asset : String) :
    engine'.freshBook now asset = engine.freshBook now asset := by
  have hbooks := congrArg DecisionEngine.books h
  change engine'.books = engine.books at hbooks
  unfold DecisionEngine.freshBook
  rw [hbooks]

theorem prepared_of_frame (h : frameOf engine' = frameOf engine) :
    engine'.preparedAuthorizedIntents = engine.preparedAuthorizedIntents :=
  (congrArg DecisionEngine.preparedAuthorizedIntents h :)

theorem accrueFunding_eq (h : engine.accrueFunding now = .ok engine') :
    engine' = { engine with
      accruedFunding := engine'.accruedFunding
      lastFundingAccrual := engine'.lastFundingAccrual } := by
  unfold DecisionEngine.accrueFunding at h
  split at h
  · cases h
    rfl
  · split at h
    · cases h
      rfl
    · obtain ⟨accrued, -, h⟩ := of_bind h
      cases h
      rfl

theorem slotOf_accrueFunding (h : engine.accrueFunding now = .ok engine') (asset : String) :
    slotOf engine' asset = slotOf engine asset := by
  rw [accrueFunding_eq h]
  rfl

theorem frameOf_accrueFunding (h : engine.accrueFunding now = .ok engine') :
    frameOf engine' = frameOf engine := by
  rw [accrueFunding_eq h]
  rfl

def lotNotional (rules : ExtTreeMap String (AcceptedRules D)) (asset : String) : Option D :=
  rules[asset]?.bind fun rules => Decimal.checkedMul rules.markPrice rules.sizeStep

/-- What a decision does to the slot of an asset with an executable action. -/
inductive SlotStep (rules : ExtTreeMap String (AcceptedRules D))
    (book : Option (OrderBookResponse D × ℕ)) (asset : String)
    (action : Lifecycle.PlannedAction D) : Slot D → Slot D → Prop
  | waits (pending : Option (PendingAction D)) (waiting : Option String)
      (continuation : Option ContinuationIntent) (noBook : book = none) :
      SlotStep rules book asset action (pending, waiting, continuation)
        (pending, some (waiting.getD (toHex action.plannedCloid)), continuation)
  | keeps (previous next : PendingAction D) (tolerance : D) (rest) (hasBook : book.isSome = true)
      (hlot : lotNotional rules asset = some tolerance)
      (immaterial : pendingActionIsImmaterialReplacement previous.action action tolerance = true)
      (sameAction : next.action = previous.action)
      (sameBook : next.decisionBook = previous.decisionBook) :
      SlotStep rules book asset action (some previous, rest) (some next, rest)
  | replaces (slot : Slot D) (next : PendingAction D) (tolerance : D)
      (hlot : lotNotional rules asset = some tolerance)
      (material : ∀ previous, slot.1 = some previous →
        pendingActionIsImmaterialReplacement previous.action action tolerance = false)
      (newAction : next.action = action)
      (newBook : ∃ current, book = some current ∧
        shadowSnapshot current.1 current.2 = .ok next.decisionBook) :
      SlotStep rules book asset action slot (some next, none, none)

variable {input : PortfolioProjectionInput D} {numbered : DecisionEngine D}
  {evaluation : ShadowMarketSnapshot D}

theorem planAsset_step {action : Lifecycle.PlannedAction D} {book : OrderBookResponse D × ℕ}
    (h : DecisionEngine.planAsset allocated decision input engine asset action book
      = .ok engine') :
    withoutSlots engine' = withoutSlots engine ∧
      SlotStep allocated.marketRules (some book) asset action (slotOf engine asset)
        (slotOf engine' asset) ∧
      ∀ other, other ≠ asset → slotOf engine' other = slotOf engine other := by
  unfold DecisionEngine.planAsset at h
  obtain ⟨rules, hrules, h⟩ := of_bind h
  obtain ⟨snapshot, hsnapshot, h⟩ := of_bind h
  obtain ⟨-, -, h⟩ := of_bind h
  obtain ⟨tolerance, htolerance, h⟩ := of_bind h
  have hlot : lotNotional allocated.marketRules asset = some tolerance := by
    unfold lotNotional
    cases hfound : allocated.marketRules[asset]? with
    | none =>
      rw [hfound] at hrules
      cases hrules
    | some found =>
      rw [hfound] at hrules
      cases hrules
      cases hmul : Decimal.checkedMul rules.markPrice rules.sizeStep with
      | none =>
        rw [hmul] at htolerance
        cases htolerance
      | some value =>
        rw [hmul] at htolerance
        cases htolerance
        exact hmul
  cases hpreserved : engine.preserved asset action tolerance with
  | some previous =>
    rw [hpreserved] at h
    cases h
    obtain ⟨hpending, himmaterial⟩ := Option.filter_eq_some_iff.mp hpreserved
    refine ⟨rfl, ?_, ?_⟩
    · unfold slotOf
      rw [hpending]
      rw [getElem?_insert_eq, if_pos rfl]
      exact .keeps previous _ tolerance _ rfl hlot himmaterial rfl rfl
    · intro other hother
      unfold slotOf
      rw [getElem?_insert_of_ne hother.symm]
  | none =>
    rw [hpreserved] at h
    cases h
    have hmaterial := Option.filter_eq_none_iff.mp hpreserved
    refine ⟨rfl, ?_, ?_⟩
    · have hslot (next : PendingAction D) :
          ((engine.pending.insert asset next)[asset]?, (engine.pendingBook.erase asset)[asset]?,
            (engine.continuations.erase asset)[asset]?) = ((some next, none, none) : Slot D) := by
        rw [getElem?_insert_eq, if_pos rfl, getElem?_erase_eq, if_pos rfl, getElem?_erase_eq,
          if_pos rfl]
      unfold slotOf
      rw [hslot]
      refine .replaces _ _ tolerance hlot ?_ rfl ⟨book, rfl, hsnapshot⟩
      intro previous hprevious
      exact Bool.eq_false_iff.mpr (hmaterial previous hprevious)
    · intro other hother
      unfold slotOf
      rw [getElem?_insert_of_ne hother.symm, getElem?_erase_eq, if_neg hother.symm,
        getElem?_erase_eq, if_neg hother.symm]

theorem awaitBook_step {rules : ExtTreeMap String (AcceptedRules D)} (engine : DecisionEngine D)
    (asset : String) (action : Lifecycle.PlannedAction D) :
    withoutSlots (engine.awaitBook asset action) = withoutSlots engine ∧
      SlotStep rules none asset action (slotOf engine asset)
        (slotOf (engine.awaitBook asset action) asset) ∧
      ∀ other, other ≠ asset →
        slotOf (engine.awaitBook asset action) other = slotOf engine other := by
  have hwaits : SlotStep rules none asset action
      (engine.pending[asset]?, engine.pendingBook[asset]?, engine.continuations[asset]?) _ :=
    .waits _ _ _ rfl
  unfold DecisionEngine.awaitBook
  by_cases hwaiting : engine.pendingBook.contains asset = true
  · rw [if_pos hwaiting]
    obtain ⟨waiting, hentry⟩ := (contains_iff_exists _ _).mp hwaiting
    rw [hentry] at hwaits
    refine ⟨rfl, ?_, fun other hother => rfl⟩
    unfold slotOf
    rw [hentry]
    exact hwaits
  · rw [if_neg hwaiting]
    have hentry : engine.pendingBook[asset]? = none := by
      rw [ExtTreeMap.contains_eq_isSome_getElem?] at hwaiting
      exact Option.not_isSome_iff_eq_none.mp hwaiting
    rw [hentry] at hwaits
    refine ⟨rfl, ?_, ?_⟩
    · unfold slotOf
      rw [hentry, getElem?_insert_eq, if_pos rfl]
      exact hwaits
    · intro other hother
      unfold slotOf
      rw [getElem?_insert_of_ne hother.symm]

theorem planExecutable_step {entry : String × Lifecycle.PlannedAction D}
    (h : DecisionEngine.planExecutable allocated decision input now engine entry = .ok engine') :
    withoutSlots engine' = withoutSlots engine ∧
      SlotStep allocated.marketRules (engine.freshBook now entry.1) entry.1 entry.2
        (slotOf engine entry.1) (slotOf engine' entry.1) ∧
      ∀ other, other ≠ entry.1 → slotOf engine' other = slotOf engine other := by
  unfold DecisionEngine.planExecutable at h
  cases hbook : engine.freshBook now entry.1 with
  | none =>
    rw [hbook] at h
    cases h
    exact awaitBook_step engine entry.1 entry.2
  | some book =>
    rw [hbook] at h
    exact planAsset_step h

def droppedSlot (engine : DecisionEngine D) (now : ℕ)
    (executable : ExtTreeMap String (Lifecycle.PlannedAction D)) (asset : String) : Slot D :=
  if engine.invalidated now executable asset then
    (none, none, engine.continuations[asset]?.filter fun _ => executable.contains asset)
  else
    (engine.pending[asset]?, engine.pendingBook[asset]?,
      engine.continuations[asset]?.filter fun _ => executable.contains asset)

theorem slotOf_dropUnrequired (engine : DecisionEngine D) (now : ℕ)
    (executable : ExtTreeMap String (Lifecycle.PlannedAction D)) (asset : String) :
    slotOf (engine.dropUnrequired now executable) asset =
      droppedSlot engine now executable asset := by
  unfold slotOf droppedSlot DecisionEngine.dropUnrequired
  rw [ExtTreeMap.getElem?_filter', ExtTreeMap.getElem?_filter', ExtTreeMap.getElem?_filter']
  cases hinvalid : engine.invalidated now executable asset with
  | true => simp
  | false => cases engine.pending[asset]? <;> cases engine.pendingBook[asset]? <;> simp

def SlotDecided (engine : DecisionEngine D) (now : ℕ) (planned : PlannedDecision D)
    (asset : String) (slot : Slot D) : Prop :=
  match planned.executable[asset]? with
  | some action => SlotStep planned.marketRules (engine.freshBook now asset) asset action
      (droppedSlot engine now planned.executable asset) slot
  | none => slot = droppedSlot engine now planned.executable asset

theorem replaceTargets_eq {filled acknowledgedOpen : ExtTreeMap String D}
    (h : engine.replaceTargets decision filled acknowledgedOpen = .ok engine') :
    engine' = { engine with targetLedger := engine'.targetLedger } := by
  unfold DecisionEngine.replaceTargets at h
  obtain ⟨targetLedger, -, h⟩ := of_bind h
  cases h
  rfl

theorem commitDecision_step (hrules : planned.marketRules = allocated.marketRules)
    (h : engine.commitDecision now allocated planned = .ok engine') :
    frameOf engine' = frameOf engine ∧
      ∀ asset, SlotDecided engine now planned asset (slotOf engine' asset) := by
  unfold DecisionEngine.commitDecision at h
  obtain ⟨placed, hplaced, h⟩ := of_bind h
  have htargets := replaceTargets_eq h
  have hnodup : (planned.executable.toList.map Prod.fst).Nodup := by
    rw [ExtTreeMap.map_fst_toList_eq_keys]
    exact ExtTreeMap.nodup_keys
  obtain ⟨hframe, hvisited, hleft⟩ := @foldlM_keyed _ _ _ _ _ _ _ withoutSlots slotOf
    (fun frame asset action slot slot' => SlotStep allocated.marketRules
      (frame.freshBook now asset) asset action slot slot')
    (fun _ _ _ hround => (planExecutable_step hround).1)
    (fun _ _ _ hround => (planExecutable_step hround).2.1)
    (fun _ _ _ _ hround => (planExecutable_step hround).2.2 _) _ hnodup _ _ hplaced
  constructor
  · calc frameOf engine' = frameOf placed := by
          rw [htargets]
          rfl
      _ = frameOf (engine.dropUnrequired now planned.executable) :=
        frameOf_eq_of_withoutSlots hframe
  · intro asset
    have hslot : slotOf engine' asset = slotOf placed asset := by
      rw [htargets]
      rfl
    rw [hslot]
    unfold SlotDecided
    cases hentry : planned.executable[asset]? with
    | some action =>
      have hstep := hvisited asset action (ExtTreeMap.mem_toList_iff_getElem?_eq_some.mpr hentry)
      rw [slotOf_dropUnrequired] at hstep
      rw [hrules]
      exact hstep
    | none =>
      rw [← slotOf_dropUnrequired]
      refine hleft asset ?_
      rw [ExtTreeMap.map_fst_toList_eq_keys, ExtTreeMap.mem_keys, ExtTreeMap.mem_iff_contains,
        ExtTreeMap.contains_eq_isSome_getElem?, hentry]
      simp

theorem planDecision_eq [Sha256] [DecimalNormalize D]
    (h : engine.planDecision now allocated = .ok (numbered, planned)) :
    numbered = { engine with
        decisionSequence := numbered.decisionSequence
        previousTarget := numbered.previousTarget
        targetLedger := numbered.targetLedger } ∧
      planned.marketRules = allocated.marketRules := by
  unfold DecisionEngine.planDecision at h
  obtain ⟨decision, -, h⟩ := of_bind h
  obtain ⟨targeted, htargeted, h⟩ := of_bind h
  obtain ⟨decisionSequence, -, h⟩ := of_bind h
  obtain ⟨actions, -, h⟩ := of_bind h
  cases h
  refine ⟨?_, rfl⟩
  rw [replaceTargets_eq htargeted]

theorem decide_step [Sha256] [DecimalNormalize D]
    (h : engine.decide now allocated = .ok (engine', planned)) :
    frameOf engine' = frameOf engine ∧
      ∀ asset, SlotDecided engine now planned asset (slotOf engine' asset) := by
  unfold DecisionEngine.decide at h
  obtain ⟨⟨numbered, planned'⟩, hplan, h⟩ := of_bind h
  obtain ⟨committed, hcommit, h⟩ := of_bind h
  cases h
  obtain ⟨hnumbered, hrules⟩ := planDecision_eq hplan
  obtain ⟨hframe, hslots⟩ := commitDecision_step hrules hcommit
  have hsame : frameOf numbered = frameOf engine := by
    rw [hnumbered]
    rfl
  refine ⟨hframe.trans hsame, ?_⟩
  intro asset
  have hslot := hslots asset
  rw [hnumbered] at hslot
  exact hslot

/-- **What `construct_next_decision` does**: it returns no decision and leaves all but the funding
as it was, or it returns one and decides every slot; the frame stays. -/
theorem constructNextDecision_step [Sha256] [DecimalNormalize D] {strategy : Strategy D}
    {result : Option (PlannedDecision D)}
    (h : engine.constructNextDecision settings now strategy = .ok (engine', result)) :
    frameOf engine' = frameOf engine ∧
      match result with
      | none => ∀ asset, slotOf engine' asset = slotOf engine asset
      | some planned => ∀ asset, SlotDecided engine now planned asset (slotOf engine' asset) := by
  unfold DecisionEngine.constructNextDecision at h
  obtain ⟨accrued, haccrued, h⟩ := of_bind h
  split at h
  · obtain ⟨allocated, -, h⟩ := of_bind h
    obtain ⟨⟨decided, planned⟩, hdecide, h⟩ := of_bind h
    cases h
    obtain ⟨hframe, hslots⟩ := decide_step hdecide
    refine ⟨hframe.trans (frameOf_accrueFunding haccrued), ?_⟩
    intro asset
    have hslot := hslots asset
    rw [accrueFunding_eq haccrued] at hslot
    exact hslot
  · cases h
    exact ⟨frameOf_accrueFunding haccrued, slotOf_accrueFunding haccrued⟩

def filledFrame (engine : DecisionEngine D) : DecisionEngine D :=
  { engine with
    pending := ∅
    continuations := ∅
    ledger := DualLedger.empty
    ledgerTimeHighWatermark := 0
    lastFundingAccrual := none
    accruedFunding := ∅ }

theorem continueAfter_other {continuations continuations' : ExtTreeMap String ContinuationIntent}
    {other : String}
    (h : DecisionEngine.continueAfter continuations asset pending recompute = .ok continuations')
    (hother : other ≠ asset) : continuations'[other]? = continuations[other]? := by
  unfold DecisionEngine.continueAfter at h
  split at h
  · cases h
    rfl
  · split at h
    · cases h
      rw [getElem?_insert_of_ne hother.symm]
    · cases h

theorem fillPending_step [Sha256]
    (h : engine.fillPending settings pending book receivedAt evaluation order technicalDesired
      = .ok (engine', recompute)) :
    filledFrame engine' = filledFrame engine ∧
      engine'.pending = engine.pending.erase book.asset ∧
      ∀ other, other ≠ book.asset →
        engine'.continuations[other]? = engine.continuations[other]? := by
  unfold DecisionEngine.fillPending at h
  obtain ⟨accrued, haccrued, h⟩ := of_bind h
  obtain ⟨⟨execution, closedAt⟩, -, h⟩ := of_bind h
  obtain ⟨componentTargets, -, h⟩ := of_bind h
  obtain ⟨partition, -, h⟩ := of_bind h
  obtain ⟨report, -, h⟩ := of_bind h
  obtain ⟨continuations, hcontinue, h⟩ := of_bind h
  cases h
  rw [accrueFunding_eq haccrued] at hcontinue ⊢
  exact ⟨rfl, rfl, fun other hother => continueAfter_other hcontinue hother⟩

/-- The fields of a built intent that an action and its order fix. -/
structure IntentOf (pending : PendingShadow D) (asset : String) (order : ExecutableOrder D)
    (intent : AuthorizedExecutionIntent D) : Prop where
  asset : intent.asset = asset
  plannedCloid : intent.plannedCloid = pending.action.plannedCloid
  side : intent.side = pending.action.side
  reduceOnly : intent.reduceOnly = pending.action.reduceOnly
  quantity : intent.quantity = order.quantity

theorem intentOf_buildIntent [Sha256] [IntentEncoding D] {engine : LiveShadowEngine D}
    {pending : PendingShadow D} {order : ExecutableOrder D} {intent : AuthorizedExecutionIntent D}
    (h : engine.buildIntent identity asset pending order receivedAt = .ok intent) :
    IntentOf pending asset order intent := by
  unfold LiveShadowEngine.buildIntent at h
  obtain ⟨committedBefore, -, h⟩ := of_bind h
  obtain ⟨notional, -, h⟩ := of_bind h
  obtain ⟨committedAfter, -, h⟩ := of_bind h
  obtain ⟨projection, -, h⟩ := of_bind h
  obtain ⟨hash, -, h⟩ := of_bind h
  obtain ⟨assetIndex, -, h⟩ := of_bind h
  obtain ⟨rootCloid, -, h⟩ := of_bind h
  obtain ⟨parentCloid, -, h⟩ := of_bind h
  obtain ⟨expiresAt, -, h⟩ := of_bind h
  have hsealed := mapError_eq_ok_iff.mp h
  unfold AuthorizedExecutionIntent.sealed at hsealed
  obtain ⟨canonicalHash, -, hsealed⟩ := of_bind hsealed
  cases hsealed
  exact ⟨rfl, rfl, rfl, rfl, rfl⟩

theorem emitProductionIntent_cases [Sha256] [IntentEncoding D] {engine view : LiveShadowEngine D}
    {pending : PendingShadow D} {order : ExecutableOrder D}
    (h : engine.emitProductionIntent identity asset pending order receivedAt
      = (view, .ok ())) :
    (pending.action.plannedCloid ∈ engine.emittedProductionCloids ∧ view = engine) ∨
    (pending.action.plannedCloid ∉ engine.emittedProductionCloids ∧
      ∃ intent, IntentOf pending asset order intent ∧ view = { engine with
        emittedProductionCloids := pending.action.plannedCloid :: engine.emittedProductionCloids
        preparedAuthorizedIntents := engine.preparedAuthorizedIntents ++ [intent] }) := by
  unfold LiveShadowEngine.emitProductionIntent at h
  by_cases hemitted : pending.action.plannedCloid ∈ engine.emittedProductionCloids
  · rw [if_pos (List.contains_iff_mem.mpr hemitted)] at h
    cases h
    exact .inl ⟨hemitted, rfl⟩
  · rw [if_neg (fun hcontains => hemitted (List.contains_iff_mem.mp hcontains))] at h
    dsimp only at h
    split at h
    · cases h
    · rename_i intent hbuilt
      cases h
      exact .inr ⟨hemitted, intent, intentOf_buildIntent hbuilt, rfl⟩

theorem emitIntent_cases [Sha256] [IntentEncoding D] {referencePrice : D}
    (h : engine.emitIntent identity asset pending referencePrice order receivedAt
      = .ok engine') :
    (pending.action.plannedCloid ∈ engine.emittedProductionCloids ∧ engine' = engine) ∨
    (pending.action.plannedCloid ∉ engine.emittedProductionCloids ∧
      ∃ intent, IntentOf pending.productionView asset
          ⟨referencePrice, order.quantity, order.limitPrice, order.requiredNotional⟩ intent ∧
        engine' = { engine with
          emittedProductionCloids :=
            pending.action.plannedCloid :: engine.emittedProductionCloids
          preparedAuthorizedIntents := engine.preparedAuthorizedIntents ++ [intent] }) := by
  unfold DecisionEngine.emitIntent at h
  split at h
  · cases h
  · rename_i view hemit
    cases h
    rcases emitProductionIntent_cases hemit with ⟨hemitted, rfl⟩ | ⟨hnew, intent, hintent, rfl⟩
    · exact .inl ⟨hemitted, rfl⟩
    · exact .inr ⟨hnew, intent, hintent, rfl⟩

/-- The order of the pending action of a book's asset at that book, where it is not too early. -/
structure ReadyOrder (settings : EngineSettings D) (engine : DecisionEngine D)
    (book : OrderBookResponse D) (receivedAt : ℕ) (pending : PendingAction D)
    (evaluation : ShadowMarketSnapshot D) (order : SizedOrder D) : Prop where
  isPending : engine.pending[book.asset]? = some pending
  notEarly : (engine.attemptOf pending book receivedAt).isEarly settings.toShadowSettings = false
  hasOrder : attemptOrder settings.toShadowSettings (engine.attemptOf pending book receivedAt)
    (engine.authoritativePosition book.asset) = .ok (some (evaluation, order))

inductive BookStep [Sha256] [IntentEncoding D] (settings : EngineSettings D)
    (engine : DecisionEngine D) (book : OrderBookResponse D) (receivedAt : ℕ)
    (technicalDesired : D) : DecisionEngine D → ExecutionRecompute → Prop
  /-- Nothing is pending, or it is too early. -/
  | idle (early : ∀ pending, engine.pending[book.asset]? = some pending →
      (engine.attemptOf pending book receivedAt).isEarly settings.toShadowSettings = true) :
      BookStep settings engine book receivedAt technicalDesired engine .none
  /-- The order is below the exchange minimum. -/
  | dropped (pending : PendingAction D) (isPending : engine.pending[book.asset]? = some pending)
      (noOrder : attemptOrder settings.toShadowSettings
        (engine.attemptOf pending book receivedAt)
        (engine.authoritativePosition book.asset) = .ok none) :
      BookStep settings engine book receivedAt technicalDesired
        { engine with pending := engine.pending.erase book.asset } .none
  /-- The action goes to production, and stays pending. -/
  | emits (pending : PendingAction D) (evaluation : ShadowMarketSnapshot D) (order : SizedOrder D)
      (identity : ProductionIntentIdentity) (engine' : DecisionEngine D)
      (ready : ReadyOrder settings engine book receivedAt pending evaluation order)
      (production : engine.productionIdentity = some identity)
      (emits : engine.emitIntent identity book.asset pending evaluation.midpoint order receivedAt
        = .ok engine') :
      BookStep settings engine book receivedAt technicalDesired engine' .none
  /-- The action is executed in the shadow ledger. -/
  | fills (pending : PendingAction D) (evaluation : ShadowMarketSnapshot D) (order : SizedOrder D)
      (engine' : DecisionEngine D) (recompute : ExecutionRecompute)
      (ready : ReadyOrder settings engine book receivedAt pending evaluation order)
      (shadow : engine.productionIdentity = none)
      (fills : engine.fillPending settings pending book receivedAt evaluation order
        technicalDesired = .ok (engine', recompute)) :
      BookStep settings engine book receivedAt technicalDesired engine' recompute

theorem tryExecutePending_step [Sha256] [IntentEncoding D]
    (h : engine.tryExecutePending settings book receivedAt technicalDesired
      = .ok (engine', recompute)) :
    BookStep settings engine book receivedAt technicalDesired engine' recompute := by
  unfold DecisionEngine.tryExecutePending at h
  cases hpending : engine.pending[book.asset]? with
  | none =>
    rw [hpending] at h
    cases h
    refine .idle ?_
    intro pending hsome
    rw [hpending] at hsome
    cases hsome
  | some pending =>
    rw [hpending] at h
    dsimp only at h
    by_cases hearly :
        (engine.attemptOf pending book receivedAt).isEarly settings.toShadowSettings = true
    · rw [if_pos hearly] at h
      cases h
      refine .idle ?_
      intro other hother
      rw [hpending] at hother
      cases hother
      exact hearly
    · rw [if_neg hearly] at h
      obtain ⟨attempted, horder, h⟩ := of_bind h
      cases attempted with
      | none =>
        cases h
        exact .dropped pending hpending horder
      | some sized =>
        obtain ⟨evaluation, order⟩ := sized
        have hready : ReadyOrder settings engine book receivedAt pending evaluation order :=
          ⟨hpending, Bool.eq_false_iff.mpr hearly, horder⟩
        unfold DecisionEngine.executePending at h
        cases hidentity : engine.productionIdentity with
        | none =>
          rw [hidentity] at h
          exact .fills pending evaluation order engine' recompute hready hidentity h
        | some identity =>
          rw [hidentity] at h
          dsimp only at h
          cases hemit : engine.emitIntent identity book.asset pending evaluation.midpoint order
              receivedAt with
          | error error =>
            rw [hemit] at h
            cases h
          | ok emitted =>
            rw [hemit] at h
            cases h
            exact .emits pending evaluation order identity _ hready hidentity hemit

def attemptFrame (engine : DecisionEngine D) : DecisionEngine D :=
  { filledFrame engine with emittedProductionCloids := [], preparedAuthorizedIntents := [] }

theorem BookStep.frame_eq [Sha256] [IntentEncoding D]
    (h : BookStep settings engine book receivedAt technicalDesired engine' recompute) :
    attemptFrame engine' = attemptFrame engine := by
  cases h with
  | idle => rfl
  | dropped => rfl
  | emits pending evaluation order identity engine' ready production emits =>
    rcases emitIntent_cases emits with ⟨-, rfl⟩ | ⟨-, intent, -, rfl⟩
    · rfl
    · rfl
  | fills pending evaluation order engine' recompute ready shadow fills =>
    unfold attemptFrame
    rw [(fillPending_step fills).1]

theorem BookStep.pending_eq [Sha256] [IntentEncoding D]
    (h : BookStep settings engine book receivedAt technicalDesired engine' recompute) :
    engine'.pending = engine.pending ∨ engine'.pending = engine.pending.erase book.asset := by
  cases h with
  | idle => exact .inl rfl
  | dropped => exact .inr rfl
  | emits pending evaluation order identity engine' ready production emits =>
    rcases emitIntent_cases emits with ⟨-, rfl⟩ | ⟨-, intent, -, rfl⟩
    · exact .inl rfl
    · exact .inl rfl
  | fills pending evaluation order engine' recompute ready shadow fills =>
    exact .inr (fillPending_step fills).2.1

def withBook (engine : DecisionEngine D) (book : OrderBookResponse D) (receivedAt : ℕ) :
    DecisionEngine D :=
  { engine with books := engine.books.insert book.asset (book, receivedAt) }

theorem readyOrder_withBook :
    ReadyOrder settings (withBook engine book receivedAt) book receivedAt pending evaluation order ↔
      ReadyOrder settings engine book receivedAt pending evaluation order :=
  ⟨fun h => ⟨h.isPending, h.notEarly, h.hasOrder⟩, fun h => ⟨h.isPending, h.notEarly, h.hasOrder⟩⟩

def learned (call : EngineCall D) (engine : DecisionEngine D) : DecisionEngine D :=
  match call with
  | .marketSnapshot mids receivedAt => { engine with mids := some (mids, receivedAt) }
  | .marketMetadata metadata _ => { engine with metadata := some metadata }
  | .orderBook book receivedAt _ _ => withBook engine book receivedAt
  | .synchronizeProductionState state => engine.synchronizeProductionState state
  | _ => engine

def callFrame (engine : DecisionEngine D) : DecisionEngine D := attemptFrame (frameOf engine)

theorem callFrame_of_frame {before after : DecisionEngine D} (h : frameOf after = frameOf before) :
    callFrame after = callFrame before :=
  congrArg attemptFrame h

theorem callFrame_of_attempt {before after : DecisionEngine D}
    (h : attemptFrame after = attemptFrame before) : callFrame after = callFrame before :=
  (congrArg frameOf h :)

/-- An engine in the middle of a book: the book is known and the pending action of its asset has
met it. -/
def bookAttempt [Sha256] [IntentEncoding D] (settings : EngineSettings D)
    (engine : DecisionEngine D) (book : OrderBookResponse D) (receivedAt : ℕ)
    (technicalDesired : D) : Except LiveShadowError (DecisionEngine D × ExecutionRecompute) :=
  (withBook engine book receivedAt).tryExecutePending settings book receivedAt technicalDesired

/-- Where a call makes the engine decide: the engine by then, the time and the strategy. -/
def decisionPoint [Sha256] [IntentEncoding D] (settings : EngineSettings D)
    (engine : DecisionEngine D) :
    EngineCall D → Option (DecisionEngine D × ℕ × Strategy D)
  | .orderBook book receivedAt technicalDesired strategy =>
    match bookAttempt settings engine book receivedAt technicalDesired with
    | .error _ => none
    | .ok (executed, recompute) =>
      if engine.pendingBook.contains book.asset || recompute != .none then
        some (executed, receivedAt, strategy)
      else none
  | .decision now strategy => some (engine, now, strategy)
  | _ => none

theorem pending_of_bookAttempt [Sha256] [IntentEncoding D] {executed : DecisionEngine D}
    (h : bookAttempt settings engine book receivedAt technicalDesired = .ok (executed, recompute))
    (hpending : executed.pending[asset]? = some pending) :
    engine.pending[asset]? = some pending := by
  rcases (tryExecutePending_step h).pending_eq with hsame | herased
  · rwa [hsame] at hpending
  · rw [herased, getElem?_erase_eq] at hpending
    split at hpending
    · cases hpending
    · exact hpending

variable [Sha256] [DecimalNormalize D] [IntentEncoding D] {settings : EngineSettings D}
  {engine engine' decides : DecisionEngine D} {call : EngineCall D} {now : ℕ}
  {strategy : Strategy D} {result : Option (PlannedDecision D)}

theorem call_decides (h : engine.call settings call = .ok (engine', result))
    (hpoint : decisionPoint settings engine call = some (decides, now, strategy)) :
    decides.constructNextDecision settings now strategy = .ok (engine', result) := by
  cases call with
  | decision at_ strategy_ =>
    cases hpoint
    exact h
  | orderBook book receivedAt technicalDesired strategy_ =>
    obtain ⟨⟨executed, recompute⟩, hexecuted, h⟩ := of_bind h
    have hattempt : bookAttempt settings engine book receivedAt technicalDesired
        = .ok (executed, recompute) := hexecuted
    unfold decisionPoint at hpoint
    dsimp only at hpoint
    rw [hattempt] at hpoint
    dsimp only at hpoint h
    split at hpoint
    · rename_i hrecompute
      rw [if_pos hrecompute] at h
      cases hpoint
      exact h
    · cases hpoint
  | _ => cases hpoint

omit [DecimalNormalize D] in
theorem decisionPoint_pending
    (hpoint : decisionPoint settings engine call = some (decides, now, strategy)) {asset : String}
    {pending : PendingAction D} (h : decides.pending[asset]? = some pending) :
    engine.pending[asset]? = some pending := by
  cases call with
  | decision at_ strategy_ =>
    cases hpoint
    exact h
  | orderBook book receivedAt technicalDesired strategy_ =>
    unfold decisionPoint at hpoint
    dsimp only at hpoint
    split at hpoint
    · cases hpoint
    · rename_i executed recompute hattempt
      split at hpoint
      · cases hpoint
        exact pending_of_bookAttempt hattempt h
      · cases hpoint
  | _ => cases hpoint

/-- A call that does not make the engine decide returns no decision, and what is pending after
it was pending before. -/
theorem call_keeps (h : engine.call settings call = .ok (engine', result))
    (hpoint : decisionPoint settings engine call = none) :
    result = none ∧ ∀ (asset : String) (pending : PendingAction D),
      engine'.pending[asset]? = some pending → engine.pending[asset]? = some pending := by
  cases call with
  | decision => cases hpoint
  | orderBook book receivedAt technicalDesired strategy_ =>
    obtain ⟨⟨executed, recompute⟩, hexecuted, h⟩ := of_bind h
    have hattempt : bookAttempt settings engine book receivedAt technicalDesired
        = .ok (executed, recompute) := hexecuted
    unfold decisionPoint at hpoint
    dsimp only at hpoint
    rw [hattempt] at hpoint
    dsimp only at hpoint h
    split at hpoint
    · cases hpoint
    · rename_i hidle
      rw [if_neg hidle] at h
      cases h
      exact ⟨rfl, fun asset pending => pending_of_bookAttempt hattempt⟩
  | marketMetadata metadata receivedAt =>
    obtain ⟨accrued, haccrued, h⟩ := of_bind h
    cases h
    rw [accrueFunding_eq haccrued]
    exact ⟨rfl, fun asset pending hpending => hpending⟩
  | equityBoundary at_ =>
    obtain ⟨accrued, haccrued, h⟩ := of_bind h
    cases h
    rw [accrueFunding_eq haccrued]
    exact ⟨rfl, fun asset pending hpending => hpending⟩
  | _ =>
    cases h
    exact ⟨rfl, fun asset pending hpending => hpending⟩

theorem call_orderBook {book : OrderBookResponse D} {receivedAt : ℕ} {technicalDesired : D}
    (h : engine.call settings (.orderBook book receivedAt technicalDesired strategy)
      = .ok (engine', result)) :
    ∃ executed recompute,
      BookStep settings (withBook engine book receivedAt) book receivedAt technicalDesired executed
        recompute ∧
      frameOf engine' = frameOf executed := by
  obtain ⟨⟨executed, recompute⟩, hexecuted, h⟩ := of_bind h
  refine ⟨executed, recompute, tryExecutePending_step hexecuted, ?_⟩
  dsimp only at h
  split at h
  · exact (constructNextDecision_step h).1
  · cases h
    rfl

theorem call_frame (h : engine.call settings call = .ok (engine', result)) :
    callFrame engine' = callFrame (learned call engine) := by
  cases call with
  | orderBook book receivedAt technicalDesired strategy =>
    obtain ⟨executed, recompute, hexecuted, hframe⟩ := call_orderBook h
    exact (callFrame_of_frame hframe).trans (callFrame_of_attempt hexecuted.frame_eq)
  | decision at_ strategy_ => exact callFrame_of_frame (constructNextDecision_step h).1
  | marketMetadata metadata receivedAt =>
    obtain ⟨accrued, haccrued, h⟩ := of_bind h
    cases h
    rw [accrueFunding_eq haccrued]
    rfl
  | equityBoundary at_ =>
    obtain ⟨accrued, haccrued, h⟩ := of_bind h
    cases h
    rw [accrueFunding_eq haccrued]
    rfl
  | _ =>
    cases h
    rfl

omit [DecimalNormalize D] in
theorem decisionPoint_frame
    (hpoint : decisionPoint settings engine call = some (decides, now, strategy)) :
    callFrame decides = callFrame (learned call engine) := by
  cases call with
  | decision at_ strategy_ =>
    cases hpoint
    rfl
  | orderBook book receivedAt technicalDesired strategy_ =>
    unfold decisionPoint at hpoint
    dsimp only at hpoint
    split at hpoint
    · cases hpoint
    · rename_i executed recompute hattempt
      split at hpoint
      · cases hpoint
        exact callFrame_of_attempt (tryExecutePending_step hattempt).frame_eq
      · cases hpoint
  | _ => cases hpoint

theorem call_identity (h : engine.call settings call = .ok (engine', result)) :
    engine'.productionIdentity = engine.productionIdentity := by
  have hframe := congrArg DecisionEngine.productionIdentity (call_frame h)
  cases call with
  | _ => exact hframe

theorem call_prepared (h : engine.call settings call = .ok (engine', result))
    (hbook : ∀ book receivedAt technicalDesired strategy,
      call ≠ .orderBook book receivedAt technicalDesired strategy) :
    engine'.preparedAuthorizedIntents = engine.preparedAuthorizedIntents ∨
      engine'.preparedAuthorizedIntents = [] := by
  cases call with
  | orderBook book receivedAt technicalDesired strategy =>
    exact absurd rfl (hbook book receivedAt technicalDesired strategy)
  | decision at_ strategy_ =>
    exact .inl (prepared_of_frame (constructNextDecision_step h).1)
  | marketMetadata metadata receivedAt =>
    obtain ⟨accrued, haccrued, h⟩ := of_bind h
    cases h
    rw [accrueFunding_eq haccrued]
    exact .inl rfl
  | equityBoundary at_ =>
    obtain ⟨accrued, haccrued, h⟩ := of_bind h
    cases h
    rw [accrueFunding_eq haccrued]
    exact .inl rfl
  | takePreparedAuthorizedIntents =>
    cases h
    exact .inr rfl
  | _ =>
    cases h
    exact .inl rfl

end CopyTrade.Analysis
