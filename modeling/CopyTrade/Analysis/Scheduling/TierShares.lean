import CopyTrade.Analysis.Scheduling.QueueInvariants
import CopyTrade.Analysis.Scheduling.RetryDelays
import CopyTrade.Foundation.MixedOrder
import CopyTrade.Foundation.Serving
import CopyTrade.Model.Core.Scheduler
import Mathlib.Tactic.Zify

/-!
# The order of the dispatches and the shares of the source tiers

Between source reads of one priority the next dispatch goes to the tier whose count in the window is
least against its target.  While both tiers have a read that is due, their counts stay within one
dispatch of their targets, as long as no count leaves its word.

The comparison of the dispatches is a total preorder on the queued requests exactly when every tier
has a target and no request without a tier lies, by age, between two source reads that their shares
put the other way round.
-/

namespace CopyTrade.Analysis

open Foundation Model Std

section

variable {counts targets : ExtTreeMap SourceTier ℕ}

/-- The comparison of two requests by their expiry, their creation and their key. -/
def ageOrder : ScheduledReadRequest → ScheduledReadRequest → Ordering :=
  compareLex (compareOn ScheduledReadRequest.expiresAt)
    (compareLex (compareOn ScheduledReadRequest.createdAt) (compareOn ScheduledReadRequest.key))

instance : TransCmp ageOrder := inferInstanceAs (TransCmp (compareLex _ (compareLex _ _)))

def priorityOrder (left right : ScheduledReadRequest) : Ordering :=
  compare right.priority left.priority

instance : TransCmp priorityOrder where
  eq_swap {_ _} := @OrientedCmp.eq_swap RequestPriority compare _ _ _
  isLE_trans h g := @TransCmp.isLE_trans RequestPriority compare _ _ _ _ g h

/-- The shares of two tiers: the dispatches of each one against the target of the other. -/
def compareShares (counts targets : ExtTreeMap SourceTier ℕ) (left right : SourceTier) : Ordering :=
  compare (counts[left]?.getD 0 * targets[right]?.getD 0)
    (counts[right]?.getD 0 * targets[left]?.getD 0)

theorem compareShares_self (tier : SourceTier) : compareShares counts targets tier tier = .eq := by
  unfold compareShares
  apply ReflCmp.compare_self

instance : TransCmp (compareShares counts targets) where
  eq_swap {left right} := by
    unfold compareShares
    apply OrientedCmp.eq_swap
  isLE_trans {a b c} h g := by
    -- Of three tiers two are the same.
    cases a <;> cases b <;> cases c <;> first | assumption | simp [compareShares_self]

def shareOrder (counts targets : ExtTreeMap SourceTier ℕ)
    (left right : ScheduledReadRequest) : Ordering :=
  compareShares counts targets (left.sourceTier.getD .active) (right.sourceTier.getD .active)

instance : TransCmp (shareOrder counts targets) where
  eq_swap {_ _} := @OrientedCmp.eq_swap SourceTier (compareShares counts targets) _ _ _
  isLE_trans h g := @TransCmp.isLE_trans SourceTier (compareShares counts targets) _ _ _ _ h g

theorem dispatchOrder_eq_mixedOrder (left right : ScheduledReadRequest) :
    dispatchOrderWithFairness left right counts targets =
      mixedOrder priorityOrder (shareOrder counts targets) ageOrder
        (fun request => request.sourceTier.isSome) left right := by
  unfold dispatchOrderWithFairness mixedOrder inGroup shareOrder
  cases hleft : left.sourceTier with
  | none => simp [hleft, priorityOrder, ageOrder, compareLex, compareOn]
  | some leftTier =>
    cases hright : right.sourceTier with
    | none => simp [hright, priorityOrder, ageOrder, compareLex, compareOn]
    | some rightTier =>
      simp [hleft, hright, priorityOrder, ageOrder, compareShares, compareLex, compareOn]

def Targeted (targets : ExtTreeMap SourceTier ℕ) (items : List ScheduledReadRequest) : Prop :=
  ∀ request ∈ items, ∀ tier, request.sourceTier = some tier → targets[tier]?.isSome

theorem dispatchOrder?_eq {left right : ScheduledReadRequest}
    (h : Targeted targets [left, right]) :
    dispatchOrder? left right counts targets =
      some (dispatchOrderWithFairness left right counts targets) := by
  unfold dispatchOrder? dispatchOrderWithFairness
  by_cases hpriority : compare right.priority left.priority = .eq
  · simp only [hpriority, ne_eq, not_true_eq_false, if_false, Ordering.then]
    cases hleft : left.sourceTier with
    | none => rfl
    | some leftTier =>
      cases hright : right.sourceTier with
      | none => rfl
      | some rightTier =>
        obtain ⟨leftTarget, hleftTarget⟩ :=
          Option.isSome_iff_exists.mp (h left (by simp) leftTier hleft)
        obtain ⟨rightTarget, hrightTarget⟩ :=
          Option.isSome_iff_exists.mp (h right (by simp) rightTier hright)
        simp [hleftTarget, hrightTarget]
  · rw [if_pos hpriority]
    cases hother : compare right.priority left.priority with
    | eq => exact absurd hother hpriority
    | lt => rfl
    | gt => rfl

theorem isSome_of_dispatchOrder? {request : ScheduledReadRequest} {tier : SourceTier}
    (h : (dispatchOrder? request request counts targets).isSome)
    (htier : request.sourceTier = some tier) : targets[tier]?.isSome := by
  unfold dispatchOrder? at h
  rw [htier] at h
  cases htarget : targets[tier]? with
  | none => simp [htarget] at h
  | some target => rfl

/-- The comparison of the dispatches orders some requests: it panics on none of them, and is
antisymmetric and transitive. -/
structure OrdersRequests (counts targets : ExtTreeMap SourceTier ℕ)
    (items : List ScheduledReadRequest) : Prop where
  returns : ∀ left ∈ items, ∀ right ∈ items, (dispatchOrder? left right counts targets).isSome
  swap : ∀ left ∈ items, ∀ right ∈ items, dispatchOrder? left right counts targets =
    (dispatchOrder? right left counts targets).map Ordering.swap
  trans : ∀ a ∈ items, ∀ b ∈ items, ∀ c ∈ items,
    dispatchOrder? a b counts targets ≠ some .gt → dispatchOrder? b c counts targets ≠ some .gt →
      dispatchOrder? a c counts targets ≠ some .gt

/-- Two source reads and a request without a tier, all of one priority: the share of the first
source read is the lower one, but by age the request lies behind the second and before the first. -/
structure SharesInverted (counts targets : ExtTreeMap SourceTier ℕ)
    (first second between : ScheduledReadRequest) : Prop where
  tiers : ∃ firstTier secondTier, first.sourceTier = some firstTier ∧
    second.sourceTier = some secondTier ∧ compareShares counts targets firstTier secondTier = .lt
  untiered : between.sourceTier = none
  priorityFirst : first.priority = between.priority
  prioritySecond : second.priority = between.priority
  behindSecond : ageOrder second between ≠ .gt
  beforeFirst : ageOrder between first ≠ .gt

theorem inverted_iff {first second between : ScheduledReadRequest} :
    Inverted priorityOrder (shareOrder counts targets) ageOrder
        (fun request => request.sourceTier.isSome) first second between ↔
      SharesInverted counts targets first second between := by
  constructor
  · intro h
    obtain ⟨firstTier, hfirst⟩ := Option.isSome_iff_exists.mp h.left
    obtain ⟨secondTier, hsecond⟩ := Option.isSome_iff_exists.mp h.right
    have hshares := h.fair
    unfold shareOrder at hshares
    rw [hfirst, hsecond] at hshares
    exact ⟨⟨firstTier, secondTier, hfirst, hsecond, hshares⟩, by simpa using h.middle,
      (LawfulEqOrd.eq_of_compare h.groupLeft).symm, (LawfulEqOrd.eq_of_compare h.groupRight).symm,
      Ordering.isLE_iff_ne_gt.mp h.ageRight, Ordering.isLE_iff_ne_gt.mp h.ageLeft⟩
  · intro h
    obtain ⟨firstTier, secondTier, hfirst, hsecond, hshares⟩ := h.tiers
    refine ⟨by simp [hfirst], by simp [hsecond], by simp [h.untiered], ?_, ?_, ?_,
      Ordering.isLE_iff_ne_gt.mpr h.behindSecond, Ordering.isLE_iff_ne_gt.mpr h.beforeFirst⟩
    · unfold priorityOrder
      rw [h.priorityFirst]
      apply ReflCmp.compare_self
    · unfold priorityOrder
      rw [h.prioritySecond]
      apply ReflCmp.compare_self
    · unfold shareOrder
      rw [hfirst, hsecond]
      exact hshares

theorem ordersRequests_iff_trans {items : List ScheduledReadRequest} (h : Targeted targets items) :
    OrdersRequests counts targets items ↔
      ∀ a ∈ items, ∀ b ∈ items, ∀ c ∈ items,
        (dispatchOrderWithFairness a b counts targets).isLE →
          (dispatchOrderWithFairness b c counts targets).isLE →
            (dispatchOrderWithFairness a c counts targets).isLE := by
  have hreturns : ∀ left ∈ items, ∀ right ∈ items, dispatchOrder? left right counts targets =
      some (dispatchOrderWithFairness left right counts targets) := by
    intro left hleft right hright
    apply dispatchOrder?_eq
    intro request hmem
    apply h
    rcases List.mem_pair.mp hmem with rfl | rfl
    · exact hleft
    · exact hright
  have hle : ∀ a ∈ items, ∀ b ∈ items, (dispatchOrder? a b counts targets ≠ some .gt ↔
      (dispatchOrderWithFairness a b counts targets).isLE) := by
    intro a ha b hb
    rw [hreturns a ha b hb, Ordering.isLE_iff_ne_gt]
    simp
  constructor
  · intro horders a ha b hb c hc hab hbc
    exact (hle a ha c hc).mp (horders.trans a ha b hb c hc ((hle a ha b hb).mpr hab)
      ((hle b hb c hc).mpr hbc))
  · intro htrans
    refine ⟨?_, ?_, ?_⟩
    · intro left hleft right hright
      rw [hreturns left hleft right hright]
      rfl
    · intro left hleft right hright
      rw [hreturns left hleft right hright, hreturns right hright left hleft, Option.map_some]
      congr 1
      rw [dispatchOrder_eq_mixedOrder, dispatchOrder_eq_mixedOrder]
      apply mixedOrder_swap
    · intro a ha b hb c hc hab hbc
      exact (hle a ha c hc).mpr (htrans a ha b hb c hc ((hle a ha b hb).mp hab)
        ((hle b hb c hc).mp hbc))

/-- The comparison of the dispatches is a total preorder on some requests exactly when every tier
among them has a target and no three of them are inverted. -/
theorem dispatch_order_total_iff {items : List ScheduledReadRequest} :
    OrdersRequests counts targets items ↔ Targeted targets items ∧
      ∀ first ∈ items, ∀ second ∈ items, ∀ between ∈ items,
        ¬ SharesInverted counts targets first second between := by
  by_cases htargeted : Targeted targets items
  · rw [ordersRequests_iff_trans htargeted]
    simp only [dispatchOrder_eq_mixedOrder]
    rw [mixedOrder_trans_iff]
    simp only [inverted_iff, htargeted, true_and]
  · constructor
    · intro horders
      refine absurd ?_ htargeted
      intro request hmem tier htier
      exact isSome_of_dispatchOrder? (horders.returns request hmem request hmem) htier
    · rintro ⟨htargeted', -⟩
      exact absurd htargeted' htargeted

def sampleRead (tier : Option SourceTier) (name : String) (expiresAt : ℕ) :
    ScheduledReadRequest where
  key := ⟨if tier.isSome then .candidate name else .market,
    if tier.isSome then .sourceState else .marketMids⟩
  kind := if tier.isSome then .sourceState else .marketMids
  candidateId := if tier.isSome then some name else none
  sourceTier := tier
  weight := 2
  priority := .normal
  budgetClass := if tier.isSome then .sourcePolling else .normal
  createdAt := 0
  notBefore := 0
  expiresAt
  attempt := 0

/-- An inactive source read with a dispatch behind it expires before a read of the mid prices, and
that before an active source read, which goes first. -/
def crossingReads : List ScheduledReadRequest :=
  [sampleRead (some .inactive) "alpha" 1, sampleRead none "" 2, sampleRead (some .active) "beta" 3]

theorem crossing_reads_not_ordered :
    ¬ ∀ (counts targets : ExtTreeMap SourceTier ℕ) (items : List ScheduledReadRequest),
      (∀ tier : SourceTier, targets[tier]?.isSome) → OrdersRequests counts targets items := by
  intro h
  let counts : ExtTreeMap SourceTier ℕ := ExtTreeMap.ofList [(SourceTier.inactive, 1)]
  let targets : ExtTreeMap SourceTier ℕ := ExtTreeMap.ofList [(SourceTier.active, 300), (SourceTier.inactive, 69)]
  have htargets : ∀ tier : SourceTier, targets[tier]?.isSome := by
    intro tier
    cases tier <;> decide +kernel
  have htrans := (h counts targets crossingReads htargets).trans
    (sampleRead (some .inactive) "alpha" 1) (by simp [crossingReads])
    (sampleRead none "" 2) (by simp [crossingReads])
    (sampleRead (some .active) "beta" 3) (by simp [crossingReads])
  revert htrans
  decide +kernel

end

theorem pairwise_sortBy [SliceSort] [LawfulSliceSort] {α : Type} {compare : α → α → Ordering}
    {items : List α} (h : TotalOn compare items) :
    (SliceSort.sortBy compare items).Pairwise fun a b => compare a b ≠ .gt := by
  obtain ⟨hswap, htrans⟩ := h
  let le : {a // a ∈ items} → {a // a ∈ items} → Bool := fun a b => compare a b != .gt
  have hsorted : items.mergeSort (fun a b => compare a b != .gt) =
      (items.attach.mergeSort le).map Subtype.val := by
    rw [List.map_mergeSort (s := fun a b => compare a b != .gt) fun a _ b _ => rfl,
      List.attach_map_subtype_val]
  have hpairwise : (items.attach.mergeSort le).Pairwise fun a b => le a b := by
    apply List.pairwise_mergeSort
    · intro a b c hab hbc
      have hab : compare a b ≠ .gt := by simpa [le] using hab
      have hbc : compare b c ≠ .gt := by simpa [le] using hbc
      simpa [le] using htrans a a.2 b b.2 c c.2 hab hbc
    · intro a b
      have hab := hswap a a.2 b b.2
      simp only [le, Bool.or_eq_true, bne_iff_ne]
      cases hba : compare (b : α) (a : α) <;> simp [hab, hba]
  rw [LawfulSliceSort.sorted compare items ⟨hswap, htrans⟩, hsorted, List.pairwise_map]
  exact hpairwise.imp fun hab => by simpa [le] using hab

theorem dispatchOrder_of_reads {counts targets : ExtTreeMap SourceTier ℕ}
    {left right : ScheduledReadRequest} (hleft : left.sourceTier.isSome)
    (hright : right.sourceTier.isSome) (hpriority : left.priority = right.priority) :
    dispatchOrderWithFairness left right counts targets =
      compareLex (shareOrder counts targets) ageOrder left right := by
  obtain ⟨leftTier, hleft⟩ := Option.isSome_iff_exists.mp hleft
  obtain ⟨rightTier, hright⟩ := Option.isSome_iff_exists.mp hright
  have hsame : compare right.priority left.priority = .eq := by
    rw [hpriority]
    apply Std.ReflCmp.compare_self
  unfold dispatchOrderWithFairness
  simp [hleft, hright, hsame, compareLex, shareOrder, compareShares, ageOrder, compareOn]

theorem totalOn_reads {counts targets : ExtTreeMap SourceTier ℕ}
    {items : List ScheduledReadRequest} (htiers : ∀ a ∈ items, a.sourceTier.isSome)
    (hpriority : ∀ a ∈ items, ∀ b ∈ items, a.priority = b.priority) :
    TotalOn (fun left right => dispatchOrderWithFairness left right counts targets) items := by
  have horder : ∀ a ∈ items, ∀ b ∈ items, dispatchOrderWithFairness a b counts targets =
      compareLex (shareOrder counts targets) ageOrder a b := by
    intro a ha b hb
    exact dispatchOrder_of_reads (htiers a ha) (htiers b hb) (hpriority a ha b hb)
  constructor
  · intro a ha b hb
    dsimp only
    rw [horder a ha b hb, horder b hb a ha]
    exact Std.OrientedCmp.eq_swap
  · intro a ha b hb c hc hab hbc
    dsimp only at hab hbc ⊢
    rw [horder a ha b hb] at hab
    rw [horder b hb c hc] at hbc
    rw [horder a ha c hc]
    apply Ordering.isLE_iff_ne_gt.mp
    exact Std.TransCmp.isLE_trans (Ordering.isLE_iff_ne_gt.mpr hab)
      (Ordering.isLE_iff_ne_gt.mpr hbc)

theorem chargeFirst_head {nowMs : ℕ} {budget charged : WeightedTokenBucket}
    {requests : List ScheduledReadRequest} {request : ScheduledReadRequest}
    (hsame : ∀ a ∈ requests, ∀ b ∈ requests, a.budgetClass = b.budgetClass ∧ a.weight = b.weight)
    (h : RequestScheduler.chargeFirst nowMs budget requests = (some request, charged)) :
    requests.head? = some request := by
  cases requests with
  | nil => cases h
  | cons first rest =>
    rcases tryCharge_eq budget first.budgetClass first.weight nowMs with
      ⟨-, hcharged⟩ | ⟨-, decision, hdecision, hrefused⟩
    · unfold RequestScheduler.chargeFirst at h
      rw [hcharged] at h
      cases h
      rfl
    · -- The same charge is refused to each of the others.
      exfalso
      rcases chargeFirst_spec nowMs budget (first :: rest) with
        ⟨found, hmem, paid, hfound, hcharge⟩ | hnone | hnone
      · obtain ⟨hclass, hweight⟩ := hsame first List.mem_cons_self found hmem
        rw [← hclass, ← hweight, hrefused] at hcharge
        cases hcharge
        exact hdecision rfl
      · rw [hnone] at h
        cases h
      · rw [hnone] at h
        cases h

def ofTier (amounts : ExtTreeMap SourceTier ℕ) (tier : SourceTier) : ℕ := amounts[tier]?.getD 0

/-- The counts of the tiers are within one dispatch of their targets. -/
def SharesBounded (policy : ReadApiPolicy) (queue : QueueState) : Prop :=
  let count (tier : SourceTier) : ℤ := ofTier queue.dispatchWindowCount tier
  let target (tier : SourceTier) : ℤ := ofTier policy.sourceTierDispatchTargetsPerWindow tier
  (-target .active ≤ count .active * target .inactive - count .inactive * target .active) ∧
    count .active * target .inactive - count .inactive * target .active ≤ target .inactive

theorem sharesBounded_iff {policy : ReadApiPolicy} {queue : QueueState} :
    SharesBounded policy queue ↔ WithinOne (ofTier queue.dispatchWindowCount)
      (ofTier policy.sourceTierDispatchTargetsPerWindow) := by
  unfold SharesBounded
  dsimp only
  constructor
  · rintro ⟨hlower, hupper⟩ i j
    zify
    cases i <;> cases j <;> omega
  · intro h
    have hactive := h .active .inactive
    have hinactive := h .inactive .active
    zify at hactive hinactive
    omega

theorem ofTier_countTier (counts : ExtTreeMap SourceTier ℕ) (tier : SourceTier) :
    ofTier (countTier 32 counts (some tier)) =
      Function.update (ofTier counts) tier ((ofTier counts tier + 1) % 2 ^ 32) := by
  funext other
  unfold countTier
  by_cases hsame : other = tier
  · rw [hsame, Function.update_self]
    unfold ofTier
    rw [getElem?_insert_eq, if_pos rfl]
    rfl
  · rw [Function.update_of_ne hsame]
    unfold ofTier
    rw [getElem?_insert_eq, if_neg (Ne.symm hsame)]

def KeepsCounts (before after : QueueState) : Prop :=
  after.dispatchWindowCount = before.dispatchWindowCount ∨ after.dispatchWindowCount = ∅

section

variable {scheduler : RequestScheduler}

theorem makeQueueRoom_counts (queue : QueueState) (capacity : ℕ) (incoming : ScheduledReadRequest) :
    (queue.makeQueueRoom capacity incoming).2.dispatchWindowCount = queue.dispatchWindowCount := by
  unfold QueueState.makeQueueRoom
  split
  · rfl
  split
  · rfl
  split
  · rfl
  · split <;> rfl

theorem enterQueue_counts (queue : QueueState) (capacity : ℕ) (request : ScheduledReadRequest) :
    (RequestScheduler.enterQueue queue capacity request).2.dispatchWindowCount =
      queue.dispatchWindowCount := by
  have hroom := makeQueueRoom_counts queue capacity request
  unfold RequestScheduler.enterQueue
  split
  · split
    · split <;> rfl
    · split <;> rename_i hmade <;> rw [hmade] at hroom <;> exact hroom
  · split
    · split <;> rfl
    · split <;> rename_i hmade <;> rw [hmade] at hroom <;> exact hroom

theorem schedule_counts (request : ScheduledReadRequest) (nowMs : ℕ) :
    KeepsCounts scheduler.queue (scheduler.schedule request nowMs).2.queue := by
  unfold RequestScheduler.schedule
  split
  · exact .inl rfl
  · unfold KeepsCounts
    rw [enterQueue_counts]
    unfold RequestScheduler.startWindow
    split
    · exact .inr rfl
    · exact .inl rfl

theorem release_counts (scheduler : RequestScheduler) (dispatch : ScheduledDispatch) :
    (scheduler.release dispatch).2.2.queue.dispatchWindowCount =
      scheduler.queue.dispatchWindowCount := by
  unfold RequestScheduler.release QueueState.release
  split
  · rfl
  · dsimp only
    split <;> rfl

theorem finish_counts (dispatch : ScheduledDispatch) (result : Except ReadFailure ReadResponse)
    (nowMs scheduleNowMs : ℕ) :
    KeepsCounts scheduler.queue
      (scheduler.finish dispatch result nowMs scheduleNowMs).2.queue := by
  have hreleased := release_counts scheduler dispatch
  unfold KeepsCounts
  rw [← hreleased]
  rcases finish_cases scheduler dispatch result nowMs scheduleNowMs with
    ⟨-, hfinish⟩ | ⟨-, hfinish, -, -⟩ | ⟨-, failure, hfinish⟩
  · rw [hfinish]
    exact .inl rfl
  · rw [hfinish]
    exact .inl rfl
  · rw [hfinish]
    rcases scheduleRetry_cases (scheduler.release dispatch).2.2 dispatch.request failure nowMs
      scheduleNowMs with ⟨notBefore, -, -, -, -, hretry, -⟩ | ⟨hretry, -⟩
    · rw [hretry]
      exact schedule_counts _ scheduleNowMs
    · rw [hretry]
      exact .inl rfl

theorem beginNext_counts [SliceSort] (scheduler : RequestScheduler) (nowMs : ℕ) :
    ((scheduler.beginNext nowMs).1 = none ∧
        (scheduler.beginNext nowMs).2.queue.dispatchWindowCount =
          scheduler.queue.dispatchWindowCount) ∨
      ∃ request charged, RequestScheduler.chargeFirst nowMs scheduler.budget
          (RequestScheduler.ordered (scheduler.queue.purgeExpired nowMs) scheduler.policy nowMs) =
            (some request, charged) ∧
        (scheduler.beginNext nowMs).1 = some ⟨request, true, true⟩ ∧
        (scheduler.beginNext nowMs).2.queue.dispatchWindowCount =
          countTier 32 scheduler.queue.dispatchWindowCount request.sourceTier := by
  unfold RequestScheduler.beginNext
  split
  · exact .inl ⟨rfl, rfl⟩
  · dsimp only
    cases hcharge : RequestScheduler.chargeFirst nowMs scheduler.budget
        (RequestScheduler.ordered (scheduler.queue.purgeExpired nowMs) scheduler.policy nowMs) with
    | mk chosen charged =>
      cases chosen with
      | none => exact .inl ⟨rfl, rfl⟩
      | some request => exact .inr ⟨request, charged, rfl, rfl, rfl⟩

end

def queuedRequests (queue : QueueState) : List ScheduledReadRequest :=
  queue.pending.values ++ queue.successors.values

/-- All requests that wait are source reads of one priority. -/
def UniformReads (queue : QueueState) : Prop :=
  (∀ request ∈ queuedRequests queue, request.kind = .sourceState) ∧
    ∀ request ∈ queuedRequests queue, ∀ other ∈ queuedRequests queue,
      request.priority = other.priority

instance (queue : QueueState) : Decidable (UniformReads queue) :=
  inferInstanceAs (Decidable (_ ∧ _))

/-- When a request is dispatched, both tiers have one that is due. -/
def BothDue [SliceSort] (state : SchedulerRun) : SchedulerCall → Prop
  | .beginNext nowMs => (state.scheduler.beginNext nowMs).1.isSome → ∀ tier : SourceTier,
    ∃ request ∈ (state.scheduler.queue.purgeExpired nowMs).pending.values,
      request.notBefore ≤ nowMs ∧ request.sourceTier = some tier
  | .schedule _ _ | .finish _ _ _ _ | .drop _ => True

def FairStep [SliceSort] (state : SchedulerRun) (call : SchedulerCall) : Prop :=
  UniformReads state.scheduler.queue ∧ BothDue state call

/-- The condition on a call: when a request is dispatched, no tier's count is the greatest word. -/
def CountsFit [SliceSort] (state : SchedulerRun) : SchedulerCall → Prop
  | .beginNext nowMs => (state.scheduler.beginNext nowMs).1.isSome → ∀ tier : SourceTier,
    ofTier state.scheduler.queue.dispatchWindowCount tier < maxU32
  | .schedule _ _ | .finish _ _ _ _ | .drop _ => True

def ReadChecked (policy : ReadApiPolicy) (request : ScheduledReadRequest) : Prop :=
  request.kind = .sourceState →
    policy.endpointWeights[ReadRequestKind.sourceState]? = some request.weight ∧
      request.budgetClass = .sourcePolling ∧ request.sourceTier.isSome

/-- The queue and the dispatches are sound, their requests are checked, and the counts are within
one dispatch of the targets. -/
structure FairRun (policy : ReadApiPolicy) (state : SchedulerRun) : Prop where
  sound : RunSound policy state
  queued : AllQueued (ReadChecked policy) state.scheduler.queue
  held : ∀ dispatch ∈ state.held, ReadChecked policy dispatch.request
  shares : WithinOne (ofTier state.scheduler.queue.dispatchWindowCount)
    (ofTier policy.sourceTierDispatchTargetsPerWindow)

section

variable {policy : ReadApiPolicy} {state : SchedulerRun}

variable {request : ScheduledReadRequest}

theorem readChecked_of_valid {scheduler : RequestScheduler} {nowMs : ℕ}
    (h : scheduler.validateRequest request nowMs = none) :
    ReadChecked scheduler.policy request := by
  intro hkind
  unfold RequestScheduler.validateRequest at h
  rw [hkind] at h
  split at h
  · cases h
  rename_i weight hweight
  split at h
  · cases h
  rename_i hvalid
  simp only [Bool.or_eq_true, not_or, bne_iff_ne, ne_eq, not_not, beq_iff_eq] at hvalid
  obtain ⟨⟨⟨⟨⟨⟨⟨⟨-, -⟩, hsame⟩, -⟩, -⟩, -⟩, hclass⟩, -⟩, htier⟩ := hvalid
  rw [hsame]
  exact ⟨hweight, by simpa using hclass, by simpa using htier⟩

theorem keptByRetries_readChecked : KeptByRetries (ReadChecked policy) :=
  fun _ _ _ hchecked => hchecked

theorem schedule_readChecked (h : FairRun policy state) (request : ScheduledReadRequest)
    (nowMs : ℕ) :
    AllQueued (ReadChecked policy) (state.scheduler.schedule request nowMs).2.queue := by
  cases hvalid : state.scheduler.validateRequest request nowMs with
  | some outcome =>
    unfold RequestScheduler.schedule
    rw [hvalid]
    exact h.queued
  | none =>
    have hchecked := readChecked_of_valid hvalid
    rw [h.sound.samePolicy] at hchecked
    exact schedule_allQueued h.sound h.queued hchecked nowMs

theorem withinOne_empty (target : SourceTier → ℕ) : WithinOne (ofTier ∅) target := by
  have hzero : ofTier ∅ = fun _ => 0 := by
    funext tier
    unfold ofTier
    rw [ExtTreeMap.getElem?_empty]
    rfl
  rw [hzero]
  exact withinOne_zero target

theorem KeepsCounts.withinOne {before after : QueueState} {target : SourceTier → ℕ}
    (h : KeepsCounts before after)
    (hshares : WithinOne (ofTier before.dispatchWindowCount) target) :
    WithinOne (ofTier after.dispatchWindowCount) target := by
  rcases h with hsame | hempty
  · rw [hsame]
    exact hshares
  · rw [hempty]
    exact withinOne_empty target

theorem due_alike (h : FairRun policy state) (hreads : UniformReads state.scheduler.queue)
    {nowMs : ℕ} (hmem : request ∈ (state.scheduler.queue.purgeExpired nowMs).pending.values) :
    request ∈ queuedRequests state.scheduler.queue ∧
      policy.endpointWeights[ReadRequestKind.sourceState]? = some request.weight ∧
      request.budgetClass = .sourcePolling ∧ request.sourceTier.isSome := by
  obtain ⟨key, hget⟩ := mem_values_iff.mp hmem
  have hpending := (purgeExpired_shrinks state.scheduler.queue nowMs).pending key request hget
  have hqueued : request ∈ queuedRequests state.scheduler.queue :=
    List.mem_append_left _ (mem_values_iff.mpr ⟨key, hpending⟩)
  exact ⟨hqueued, h.queued.pending key request hpending (hreads.1 request hqueued)⟩

theorem shares_of_order {counts targets : ExtTreeMap SourceTier ℕ} {other : ScheduledReadRequest}
    {tier otherTier : SourceTier} (htier : request.sourceTier = some tier)
    (hother : other.sourceTier = some otherTier) (hpriority : request.priority = other.priority)
    (h : dispatchOrderWithFairness request other counts targets ≠ .gt) :
    ofTier counts tier * ofTier targets otherTier ≤
      ofTier counts otherTier * ofTier targets tier := by
  rw [dispatchOrder_of_reads (by simp [htier]) (by simp [hother]) hpriority] at h
  have hshares : compareShares counts targets tier otherTier ≠ .gt := by
    intro hgt
    apply h
    unfold compareLex shareOrder
    simp [htier, hother, hgt]
  exact Nat.compare_ne_gt.mp hshares

variable [SliceSort] [LawfulSliceSort]

theorem charged_least (h : FairRun policy state) (hreads : UniformReads state.scheduler.queue)
    {nowMs : ℕ} {charged : WeightedTokenBucket}
    (hcharge : RequestScheduler.chargeFirst nowMs state.scheduler.budget
      (RequestScheduler.ordered (state.scheduler.queue.purgeExpired nowMs) state.scheduler.policy
        nowMs) = (some request, charged)) :
    request ∈ (state.scheduler.queue.purgeExpired nowMs).pending.values ∧
      ∀ other ∈ (state.scheduler.queue.purgeExpired nowMs).pending.values,
        other.notBefore ≤ nowMs → other ≠ request →
          dispatchOrderWithFairness request other state.scheduler.queue.dispatchWindowCount
            policy.sourceTierDispatchTargetsPerWindow ≠ .gt := by
  have hpolicy := h.sound.samePolicy
  subst hpolicy
  let due := (state.scheduler.queue.purgeExpired nowMs).pending.values.filter
    fun request => request.notBefore ≤ nowMs
  have halike : ∀ a ∈ due, _ := fun a ha => due_alike h hreads (List.mem_of_mem_filter ha)
  have hperm : (RequestScheduler.ordered (state.scheduler.queue.purgeExpired nowMs)
      state.scheduler.policy nowMs).Perm due := LawfulSliceSort.perm _ _
  have hsorted : (RequestScheduler.ordered (state.scheduler.queue.purgeExpired nowMs)
      state.scheduler.policy nowMs).Pairwise fun a b =>
        dispatchOrderWithFairness a b state.scheduler.queue.dispatchWindowCount
          state.scheduler.policy.sourceTierDispatchTargetsPerWindow ≠ .gt := by
    apply pairwise_sortBy
    apply totalOn_reads
    · exact fun a ha => (halike a ha).2.2.2
    · exact fun a ha b hb => hreads.2 a (halike a ha).1 b (halike b hb).1
  have hhead := chargeFirst_head (fun a ha b hb => by
    obtain ⟨-, haweight, haclass, -⟩ := halike a (hperm.mem_iff.mp ha)
    obtain ⟨-, hbweight, hbclass, -⟩ := halike b (hperm.mem_iff.mp hb)
    exact ⟨haclass.trans hbclass.symm, Option.some.inj (haweight.symm.trans hbweight)⟩) hcharge
  obtain ⟨rest, horder⟩ := List.head?_eq_some_iff.mp hhead
  rw [horder] at hperm hsorted
  refine ⟨List.mem_of_mem_filter (hperm.mem_iff.mp List.mem_cons_self), ?_⟩
  intro other hother hnow hne
  have hdue : other ∈ due := by
    apply List.mem_filter.mpr
    exact ⟨hother, by simpa using hnow⟩
  rcases List.mem_cons.mp (hperm.mem_iff.mpr hdue) with hsame | hrest
  · exact absurd hsame hne
  · exact (List.pairwise_cons.mp hsorted).1 other hrest

theorem beginNext_withinOne (h : FairRun policy state) {nowMs : ℕ}
    (hfair : FairStep state (.beginNext nowMs)) (hfit : CountsFit state (.beginNext nowMs)) :
    WithinOne (ofTier (state.scheduler.beginNext nowMs).2.queue.dispatchWindowCount)
      (ofTier policy.sourceTierDispatchTargetsPerWindow) := by
  obtain ⟨hreads, hdue⟩ := hfair
  rcases beginNext_counts state.scheduler nowMs with
    ⟨-, hcounts⟩ | ⟨request, charged, hcharge, hbegin, hcounts⟩
  · rw [hcounts]
    exact h.shares
  · have hsome : (state.scheduler.beginNext nowMs).1.isSome := by
      rw [hbegin]
      rfl
    obtain ⟨hrequest, hleast⟩ := charged_least h hreads hcharge
    obtain ⟨hqueued, -, -, htiered⟩ := due_alike h hreads hrequest
    obtain ⟨tier, htier⟩ := Option.isSome_iff_exists.mp htiered
    have hword : (ofTier state.scheduler.queue.dispatchWindowCount tier + 1) % 2 ^ 32 =
        ofTier state.scheduler.queue.dispatchWindowCount tier + 1 := by
      have hsmall := hfit hsome tier
      unfold maxU32 at hsmall
      exact Nat.mod_eq_of_lt (by omega)
    rw [hcounts, htier, ofTier_countTier, hword]
    apply h.shares.serve
    intro otherTier
    obtain ⟨other, hother, hnow, hotherTier⟩ := hdue hsome otherTier
    by_cases hsame : other = request
    · rw [hsame, htier] at hotherTier
      cases hotherTier
      exact le_rfl
    · have hpriority := hreads.2 request hqueued other (due_alike h hreads hother).1
      exact shares_of_order htier hotherTier hpriority (hleast other hother hnow hsame)

theorem FairRun.after (h : FairRun policy state) {call : SchedulerCall}
    (hfair : FairStep state call) (hfit : CountsFit state call) :
    FairRun policy (state.after call) := by
  have hsound := after_runSound h.sound call
  cases call with
  | schedule request nowMs =>
    exact ⟨hsound, schedule_readChecked h request nowMs, h.held,
      (schedule_counts request nowMs).withinOne h.shares⟩
  | beginNext nowMs =>
    obtain ⟨hqueued, hdispatched⟩ := beginNext_allQueued h.sound h.queued nowMs
    refine ⟨hsound, hqueued, ?_, beginNext_withinOne h hfair hfit⟩
    intro dispatch hmem
    rcases List.mem_append.mp hmem with hbefore | hnew
    · exact h.held dispatch hbefore
    · exact hdispatched dispatch (Option.mem_toList.mp hnew)
  | finish index result nowMs scheduleNowMs =>
    unfold SchedulerRun.after at hsound ⊢
    dsimp only at hsound ⊢
    cases hheld : state.held[index]? with
    | none => exact h
    | some dispatch =>
      rw [hheld] at hsound
      refine ⟨hsound, ?_, ?_, ?_⟩
      · exact finish_allQueued h.sound keptByRetries_readChecked h.queued hheld
          (h.held dispatch (List.mem_of_getElem? hheld)) result nowMs scheduleNowMs
      · intro other hmem
        exact h.held other (List.mem_of_mem_eraseIdx hmem)
      · exact (finish_counts dispatch result nowMs scheduleNowMs).withinOne h.shares
  | drop index =>
    unfold SchedulerRun.after at hsound ⊢
    dsimp only at hsound ⊢
    cases hheld : state.held[index]? with
    | none => exact h
    | some dispatch =>
      rw [hheld] at hsound
      refine ⟨hsound, release_allQueued h.queued dispatch, ?_, ?_⟩
      · intro other hmem
        exact h.held other (List.mem_of_mem_eraseIdx hmem)
      · have hcounts : KeepsCounts state.scheduler.queue (state.scheduler.drop dispatch).queue :=
          .inl (release_counts state.scheduler dispatch)
        exact hcounts.withinOne h.shares

/-- **The shares of the tiers.**  In every run over source reads of one priority in which both tiers
always have a read that is due, and no count is the greatest word, the counts of the tiers stay
within one dispatch of their targets. -/
theorem tier_shares_bounded {retryPolicy : RetryPolicy} {startMs : ℕ} {scheduler : RequestScheduler}
    (hnew : RequestScheduler.new policy retryPolicy startMs = .ok scheduler)
    {calls : List SchedulerCall}
    (hcalls : AllSteps SchedulerRun.after
      (fun state call => FairStep state call ∧ CountsFit state call) ⟨scheduler, []⟩ calls) :
    ∀ state ∈ states SchedulerRun.after ⟨scheduler, []⟩ calls,
      SharesBounded policy state.scheduler.queue := by
  have hqueue := (new_spec hnew).2.2
  have hstart : FairRun policy ⟨scheduler, []⟩ := by
    refine ⟨runSound_new hnew, ?_, ?_, ?_⟩
    · rw [hqueue]
      exact allQueued_empty
    · intro dispatch hmem
      cases hmem
    · rw [hqueue]
      exact withinOne_empty _
  intro state hmem
  exact sharesBounded_iff.mpr (forall_states_of_steps (fun _ _ hrun hstep =>
    hrun.after hstep.1 hstep.2) hstart hcalls state hmem).shares

end

def tieredCalls : List SchedulerCall :=
  [.schedule (sampleRead (some .active) "alpha" 100) 0,
    .schedule (sampleRead (some .inactive) "beta" 100) 0, .beginNext 1]

theorem tier_shares_bounded_sample : ∃ _ : SliceSort,
    ∀ state ∈ states SchedulerRun.after ⟨sampleScheduler, []⟩ tieredCalls,
      SharesBounded samplePolicy state.scheduler.queue := by
  let sort : SliceSort := ⟨fun compare items => items.mergeSort fun a b => compare a b != .gt⟩
  have lawful : LawfulSliceSort := lawful_mergeSort
  refine ⟨sort, tier_shares_bounded sampleScheduler_new
    ⟨⟨⟨?_, trivial⟩, trivial⟩, ⟨⟨?_, trivial⟩, trivial⟩, ⟨⟨?_, ?_⟩, ?_⟩, trivial⟩⟩
  · decide +kernel
  · decide +kernel
  · decide +kernel
  · intro _ tier
    cases tier <;> decide +kernel
  · intro _ tier
    cases tier <;> decide +kernel

def widePolicy : ReadApiPolicy where
  totalWeightPerWindow := 4294967295
  reservedWeightPerWindow := 0
  sourcePollingWeightPerWindow := 4294967294
  windowMs := 2
  maxConcurrency := 1
  queueCapacity := 2
  endpointWeights := ExtTreeMap.ofList (ReadRequestKind.required.map fun kind => (kind, 1))
  sourceTierDispatchTargetsPerWindow := ExtTreeMap.ofList
    [(SourceTier.active, 2147483648), (SourceTier.inactive, 1)]

theorem widePolicy_valid : widePolicy.validate = .ok () := by decide +kernel

def tierRead (tier : SourceTier) : ScheduledReadRequest :=
  { sampleRead (some tier) tier.debug 100 with weight := 1 }

def manyDispatches : ℕ := 4294967300

def firstDispatches : ℕ := 4294967292

def dispatchTime (number : ℕ) : ℕ := if number < firstDispatches then 2 else 3

section

def readCharge (number : ℕ) : Charge := ⟨.sourcePolling, 1, dispatchTime number⟩

/-- The budget pays for the rest of the dispatches. -/
structure Solvent (number : ℕ) (bucket : WeightedTokenBucket) : Prop where
  levelled : Levelled widePolicy bucket
  early : number < firstDispatches → ∀ level, Pays .sourcePolling level = true →
    (levelOf bucket level).windowStart = 1 ∧ (levelOf bucket level).lastRefill ≤ 2 ∧
      ((levelOf bucket level).advance 2).Grants (firstDispatches - number)
  late : firstDispatches ≤ number → ∀ level, Pays .sourcePolling level = true →
    ((levelOf bucket level).advance 3).Grants (manyDispatches - number)

variable {number : ℕ} {bucket : WeightedTokenBucket}

theorem widePolicy_word (level : BudgetLevel) : levelWeight widePolicy level ≤ maxU32 := by
  cases level <;> decide

theorem widePolicy_weight {level : BudgetLevel} (h : Pays .sourcePolling level = true) :
    4294967294 ≤ levelWeight widePolicy level := by
  cases level with
  | total => decide
  | normal => decide
  | source => decide
  | enrichment => cases h

theorem Solvent.charged (h : Solvent number bucket) (hmore : number < manyDispatches) :
    IsCharged bucket (readCharge number) := by
  rw [isCharged_iff h.levelled widePolicy_word]
  intro level hpays
  unfold readCharge dispatchTime
  dsimp only
  by_cases hearly : number < firstDispatches
  · rw [if_pos hearly]
    exact (h.early hearly level hpays).2.2.mono (by omega)
  · rw [if_neg hearly]
    exact (h.late (by omega) level hpays).mono (by omega)

theorem Solvent.step (h : Solvent number bucket) (hmore : number < manyDispatches) :
    Solvent (number + 1) (chargeStep bucket (readCharge number)) := by
  have hcharged := h.charged hmore
  -- What the dispatch pays at a level.
  have hlevel : ∀ level, Pays .sourcePolling level = true →
      levelOf (chargeStep bucket (readCharge number)) level =
        (levelOf bucket level).after ⟨dispatchTime number, 1⟩ := by
    intro level hpays
    rw [(chargeStep_level h.levelled (readCharge number) level).1]
    unfold paidAt
    rw [if_pos ⟨hcharged, hpays⟩]
    rfl
  have hwindow : ∀ level, (levelOf bucket level).window = 2 := by
    intro level
    rw [levelOf_window]
    exact h.levelled.window
  refine ⟨levelled_chargeStep h.levelled _, ?_, ?_⟩
  · intro hearly level hpays
    obtain ⟨hstart, hlast, hgrants⟩ := h.early (by omega) level hpays
    have htime : dispatchTime number = 2 := if_pos (by omega)
    rw [hlevel level hpays, htime]
    refine ⟨?_, ?_, ?_⟩
    · rw [TokenBucket.after_windowStart]
      · exact hstart
      · rw [hwindow, hstart]
        decide
    · rw [TokenBucket.after_lastRefill]
      exact max_le hlast le_rfl
    · rw [TokenBucket.after_advance _ ⟨2, 1⟩]
      have hsplit : ((levelOf bucket level).advance 2).Grants
          (1 + (firstDispatches - (number + 1))) := hgrants.mono (by omega)
      exact hsplit.pay
  · intro hlate level hpays
    by_cases hearly : number < firstDispatches
    · -- The accounting window is over.
      obtain ⟨hstart, hlast, -⟩ := h.early hearly level hpays
      have htime : dispatchTime number = 2 := if_pos hearly
      have hcapacity := widePolicy_weight hpays
      rw [← h.levelled.capacity] at hcapacity
      rw [hlevel level hpays, htime]
      apply TokenBucket.advance_over
      · rw [TokenBucket.after_window, TokenBucket.after_windowStart, hwindow, hstart]
        rw [hwindow, hstart]
        decide
      · rw [TokenBucket.after_window, TokenBucket.after_capacity, TokenBucket.after_lastRefill,
          hwindow]
        have helapsed : 3 - max (levelOf bucket level).lastRefill 2 = 1 := by omega
        rw [helapsed, Nat.one_mul]
        unfold manyDispatches firstDispatches at *
        omega
      · rw [TokenBucket.after_lastRefill]
        dsimp only
        omega
      · rw [TokenBucket.after_capacity]
        unfold manyDispatches firstDispatches at *
        omega
    · have htime : dispatchTime number = 3 := if_neg hearly
      have hgrants := h.late (by omega) level hpays
      have hsplit : ((levelOf bucket level).advance 3).Grants
          (1 + (manyDispatches - (number + 1))) := hgrants.mono (by omega)
      rw [hlevel level hpays, htime, TokenBucket.after_advance _ ⟨3, 1⟩]
      exact hsplit.pay

variable {scheduler : RequestScheduler}

theorem solvent_new (h : RequestScheduler.new widePolicy sampleRetryPolicy 1 = .ok scheduler) :
    Solvent 0 scheduler.budget := by
  obtain ⟨_, -, h⟩ := of_bind h
  obtain ⟨_, -, h⟩ := of_bind h
  obtain ⟨budget, hbudget, h⟩ := of_bind h
  cases h
  refine ⟨levelled_new hbudget, ?_, ?_⟩
  · intro _ level hpays
    obtain ⟨_, -, hbudget⟩ := of_bind hbudget
    cases hbudget
    cases level with
    | total => decide
    | normal => decide
    | source => decide
    | enrichment => cases hpays
  · intro hlate
    exact absurd hlate (by decide)

/-- The reads of some tiers wait, nothing is in flight, and each tier was served so often in the
window. -/
structure Waiting (waiting : SourceTier → Prop) (started number : ℕ) (served : SourceTier → ℕ)
    (state : SchedulerRun) : Prop where
  sound : RunSound widePolicy state
  idle : state.held = []
  pending : ∀ key request, state.scheduler.queue.pending[key]? = some request ↔
    ∃ tier, waiting tier ∧ request = tierRead tier ∧ key = (tierRead tier).key
  queued : AllQueued (fun request => ∃ tier, request = tierRead tier) state.scheduler.queue
  window : state.scheduler.queue.dispatchWindowStartedMs = started
  counts : ∀ tier, ofTier state.scheduler.queue.dispatchWindowCount tier = served tier % 2 ^ 32
  total : served .active + served .inactive = number
  budget : Solvent number state.scheduler.budget

theorem tierRead_key {tier other : SourceTier} (h : (tierRead tier).key = (tierRead other).key) :
    tier = other := by
  cases tier <;> cases other <;> first | rfl | exact absurd h (by decide)

theorem uniformReads_of_allQueued {queue : QueueState}
    (h : AllQueued (fun request => ∃ tier, request = tierRead tier) queue) :
    UniformReads queue := by
  have hread : ∀ request ∈ queuedRequests queue, ∃ tier, request = tierRead tier := by
    intro request hmem
    rcases List.mem_append.mp hmem with hpending | hsuccessor
    · obtain ⟨key, hget⟩ := mem_values_iff.mp hpending
      exact h.pending key request hget
    · obtain ⟨key, hget⟩ := mem_values_iff.mp hsuccessor
      exact h.successors key request hget
  constructor
  · intro request hmem
    obtain ⟨tier, rfl⟩ := hread request hmem
    rfl
  · intro request hmem other hother
    obtain ⟨tier, rfl⟩ := hread request hmem
    obtain ⟨otherTier, rfl⟩ := hread other hother
    rfl

theorem tierRead_valid (hpolicy : scheduler.policy = widePolicy) (tier : SourceTier) {nowMs : ℕ}
    (hnow : nowMs < 100) : scheduler.validateRequest (tierRead tier) nowMs = none := by
  have hweight : widePolicy.endpointWeights[ReadRequestKind.sourceState]? = some 1 := by
    decide +kernel
  have hlate : ¬ 100 ≤ nowMs := by omega
  unfold RequestScheduler.validateRequest
  rw [hpolicy]
  have hheavy : ¬ (widePolicy.totalWeightPerWindow = 0 ∨ widePolicy.normalWeight = 0) := by decide
  cases tier <;>
    simp [tierRead, sampleRead, RequestScheduler.expectedCandidate, hweight, hlate, hheavy]

theorem schedule_enqueued {request : ScheduledReadRequest} {nowMs : ℕ}
    (hvalid : scheduler.validateRequest request nowMs = none)
    (hflight : request.key ∉ scheduler.queue.inFlight)
    (hpending : scheduler.queue.pending[request.key]? = none)
    (hroom : scheduler.queue.queuedLen < scheduler.policy.queueCapacity) :
    (scheduler.schedule request nowMs).2 = { scheduler with
      queue := { RequestScheduler.startWindow (scheduler.queue.purgeExpired nowMs)
          scheduler.policy.windowMs nowMs with
        pending := (scheduler.queue.purgeExpired nowMs).pending.insert request.key request } } := by
  have hpurged := purgeExpired_shrinks scheduler.queue nowMs
  have hwindow := startWindow_shrinks (scheduler.queue.purgeExpired nowMs)
    scheduler.policy.windowMs nowMs
  have hsame : (RequestScheduler.startWindow (scheduler.queue.purgeExpired nowMs)
      scheduler.policy.windowMs nowMs).pending = (scheduler.queue.purgeExpired nowMs).pending := by
    unfold RequestScheduler.startWindow
    split <;> rfl
  have hnone : (RequestScheduler.startWindow (scheduler.queue.purgeExpired nowMs)
      scheduler.policy.windowMs nowMs).pending[request.key]? = none := by
    apply Option.eq_none_iff_forall_ne_some.mpr
    intro other hget
    have hbefore := hpurged.pending _ _ (hwindow.pending _ _ hget)
    rw [hpending] at hbefore
    cases hbefore
  unfold RequestScheduler.schedule
  rw [hvalid]
  unfold RequestScheduler.enterQueue
  dsimp only
  rw [hwindow.inFlight, hpurged.inFlight, if_neg hflight, hnone]
  unfold QueueState.makeQueueRoom
  rw [if_pos ((hwindow.size.trans hpurged.size).trans_lt hroom)]
  dsimp only
  rw [hsame, hwindow.inFlight, hpurged.inFlight]

theorem chargeFirst_isSome {nowMs : ℕ} {requests : List ScheduledReadRequest}
    (hsome : requests ≠ [])
    (h : ∀ request ∈ requests,
      (bucket.tryCharge request.budgetClass request.weight nowMs).1 = .charged) :
    (RequestScheduler.chargeFirst nowMs bucket requests).1.isSome := by
  cases requests with
  | nil => exact absurd rfl hsome
  | cons request rest =>
    have hfirst := h request List.mem_cons_self
    unfold RequestScheduler.chargeFirst
    cases hcharge : bucket.tryCharge request.budgetClass request.weight nowMs with
    | mk decision charged =>
      rw [hcharge] at hfirst
      cases hfirst
      rfl

theorem beginNext_isSome [SliceSort] {nowMs : ℕ} (hpermits : scheduler.availablePermits ≠ 0)
    (hsome : (RequestScheduler.chargeFirst nowMs scheduler.budget (RequestScheduler.ordered
      (scheduler.queue.purgeExpired nowMs) scheduler.policy nowMs)).1.isSome) :
    (scheduler.beginNext nowMs).1.isSome := by
  unfold RequestScheduler.beginNext
  rw [if_neg hpermits]
  dsimp only
  split
  · rename_i hcharge
    rw [hcharge] at hsome
    cases hsome
  · rfl

theorem beginNext_started [SliceSort] (scheduler : RequestScheduler) (nowMs : ℕ) :
    (scheduler.beginNext nowMs).2.queue.dispatchWindowStartedMs =
      scheduler.queue.dispatchWindowStartedMs := by
  unfold RequestScheduler.beginNext
  split
  · rfl
  · dsimp only
    split <;> rfl

theorem release_started (scheduler : RequestScheduler) (dispatch : ScheduledDispatch) :
    (scheduler.release dispatch).2.2.queue.dispatchWindowStartedMs =
      scheduler.queue.dispatchWindowStartedMs := by
  unfold RequestScheduler.release QueueState.release
  split
  · rfl
  · dsimp only
    split <;> rfl

variable {served : SourceTier → ℕ} {state : SchedulerRun}

theorem dispatchTime_lt (number : ℕ) : 2 ≤ dispatchTime number ∧ dispatchTime number ≤ 3 := by
  unfold dispatchTime
  split <;> omega

section

variable {waiting : SourceTier → Prop} {started : ℕ}

theorem Waiting.purged (h : Waiting waiting started number served state) {nowMs : ℕ}
    (hnow : nowMs < 100) (key : RequestKey) (request : ScheduledReadRequest) :
    (state.scheduler.queue.purgeExpired nowMs).pending[key]? = some request ↔
      ∃ tier, waiting tier ∧ request = tierRead tier ∧ key = (tierRead tier).key := by
  rw [← h.pending]
  constructor
  · exact (purgeExpired_shrinks state.scheduler.queue nowMs).pending key request
  · intro hget
    obtain ⟨tier, -, rfl, -⟩ := (h.pending key request).mp hget
    exact getElem?_filter_eq_some.mpr ⟨hget, decide_eq_true hnow⟩

theorem Waiting.not_inFlight (h : Waiting waiting started number served state) (key : RequestKey) :
    key ∉ state.scheduler.queue.inFlight := by
  rw [h.sound.inFlight]
  unfold heldKeys
  rw [h.idle]
  exact List.not_mem_nil

theorem Waiting.startWindow (h : Waiting waiting started number served state)
    (hstarted : started = 2 ∨ started = 0 ∧ number = 0) :
    (RequestScheduler.startWindow (state.scheduler.queue.purgeExpired (dispatchTime number))
        state.scheduler.policy.windowMs (dispatchTime number)).dispatchWindowStartedMs = 2 ∧
      ∀ tier, ofTier (RequestScheduler.startWindow
        (state.scheduler.queue.purgeExpired (dispatchTime number)) state.scheduler.policy.windowMs
          (dispatchTime number)).dispatchWindowCount tier = served tier % 2 ^ 32 := by
  have hwindow : state.scheduler.policy.windowMs = 2 := by
    rw [h.sound.samePolicy]
    rfl
  have hbefore : (state.scheduler.queue.purgeExpired
      (dispatchTime number)).dispatchWindowStartedMs = started := h.window
  unfold RequestScheduler.startWindow
  rw [hwindow, hbefore]
  rcases hstarted with rfl | ⟨rfl, rfl⟩
  · obtain ⟨-, htime⟩ := dispatchTime_lt number
    rw [if_neg (by omega)]
    exact ⟨hbefore, h.counts⟩
  · have htotal := h.total
    rw [if_pos (by decide)]
    refine ⟨rfl, ?_⟩
    intro tier
    have hzero : served tier = 0 := by
      cases tier <;> omega
    rw [hzero]
    unfold ofTier
    rw [ExtTreeMap.getElem?_empty]
    rfl

theorem Waiting.schedule [SliceSort] [LawfulSliceSort]
    (h : Waiting waiting started number served state)
    (tier : SourceTier) (hnew : ¬ waiting tier)
    (hroom : state.scheduler.queue.queuedLen < widePolicy.queueCapacity)
    (hstarted : started = 2 ∨ started = 0 ∧ number = 0) :
    Waiting (fun other => waiting other ∨ other = tier) 2 number served
        (state.after (.schedule (tierRead tier) (dispatchTime number))) ∧
      (state.after (.schedule (tierRead tier) (dispatchTime number))).scheduler.queue.queuedLen ≤
        state.scheduler.queue.queuedLen + 1 := by
  obtain ⟨htime, htime'⟩ := dispatchTime_lt number
  have hnow : dispatchTime number < 100 := by omega
  have hpurged := purgeExpired_shrinks state.scheduler.queue (dispatchTime number)
  have hpolicy := h.sound.samePolicy
  have hnone : state.scheduler.queue.pending[(tierRead tier).key]? = none := by
    apply Option.eq_none_iff_forall_ne_some.mpr
    intro request hget
    obtain ⟨other, hwaits, -, hkey⟩ := (h.pending _ _).mp hget
    exact hnew (tierRead_key hkey ▸ hwaits)
  have hscheduled := schedule_enqueued (tierRead_valid hpolicy tier hnow) (h.not_inFlight _) hnone
    (by rw [hpolicy]; exact hroom)
  have hqueued := schedule_allQueued h.sound h.queued ⟨tier, rfl⟩ (dispatchTime number)
  have hsound := after_runSound h.sound (.schedule (tierRead tier) (dispatchTime number))
  have hbudget := schedule_budget state.scheduler (tierRead tier) (dispatchTime number)
  have hopen := h.startWindow hstarted
  refine ⟨⟨hsound, h.idle, ?_, hqueued, ?_, ?_, h.total, ?_⟩, ?_⟩
  · intro key request
    unfold SchedulerRun.after
    dsimp only
    rw [hscheduled]
    rw [getElem?_insert_eq]
    by_cases hsame : (tierRead tier).key = key
    · rw [if_pos hsame]
      constructor
      · intro hget
        cases hget
        exact ⟨tier, .inr rfl, rfl, hsame.symm⟩
      · rintro ⟨other, -, rfl, hkey⟩
        rw [tierRead_key (hsame.trans hkey)]
    · rw [if_neg hsame, h.purged hnow]
      constructor
      · rintro ⟨other, hwaits, hread, hkey⟩
        exact ⟨other, .inl hwaits, hread, hkey⟩
      · rintro ⟨other, hwaits | rfl, hread, hkey⟩
        · exact ⟨other, hwaits, hread, hkey⟩
        · exact absurd hkey.symm hsame
  · show (state.scheduler.schedule _ _).2.queue.dispatchWindowStartedMs = 2
    rw [hscheduled]
    exact hopen.1
  · intro other
    show ofTier (state.scheduler.schedule _ _).2.queue.dispatchWindowCount other = _
    rw [hscheduled]
    exact hopen.2 other
  · show Solvent number (state.scheduler.schedule _ _).2.budget
    rw [hbudget]
    exact h.budget
  · have hinsert := ExtTreeMap.size_insert_le
      (t := (state.scheduler.queue.purgeExpired (dispatchTime number)).pending)
      (k := (tierRead tier).key) (v := tierRead tier)
    have hlost := hpurged.size
    show (state.scheduler.schedule _ _).2.queue.queuedLen ≤ _
    rw [hscheduled]
    unfold QueueState.queuedLen at hlost ⊢
    dsimp only
    rw [startWindow_successors]
    omega

variable [SliceSort] [LawfulSliceSort]

theorem Waiting.dispatches (h : Waiting (fun _ => True) started number served state)
    (hmore : number < manyDispatches) :
    ∃ tier next, state.scheduler.beginNext (dispatchTime number) =
        (some ⟨tierRead tier, true, true⟩, next) ∧
      Dispatches state.scheduler next (tierRead tier) (dispatchTime number) ∧
      next.queue.dispatchWindowCount =
        countTier 32 state.scheduler.queue.dispatchWindowCount (some tier) := by
  have hnow : dispatchTime number < 100 := by
    have htime := dispatchTime_lt number
    omega
  have hpermits : state.scheduler.availablePermits ≠ 0 := by
    have hpermits := h.sound.permits
    rw [h.idle] at hpermits
    intro hzero
    rw [hzero] at hpermits
    cases hpermits
  have hperm : ∀ request, request ∈ RequestScheduler.ordered
      (state.scheduler.queue.purgeExpired (dispatchTime number)) state.scheduler.policy
      (dispatchTime number) ↔ ∃ tier, request = tierRead tier := by
    intro request
    unfold RequestScheduler.ordered
    rw [(LawfulSliceSort.perm _ _).mem_iff, List.mem_filter, mem_values_iff]
    simp only [h.purged hnow]
    constructor
    · rintro ⟨⟨key, tier, -, rfl, -⟩, -⟩
      exact ⟨tier, rfl⟩
    · rintro ⟨tier, rfl⟩
      exact ⟨⟨_, tier, trivial, rfl, rfl⟩, decide_eq_true (Nat.zero_le _)⟩
  have hcharged := h.budget.charged hmore
  have hsome := chargeFirst_isSome (List.ne_nil_of_mem ((hperm _).mpr ⟨.active, rfl⟩))
    fun request hmem => by
      obtain ⟨tier, rfl⟩ := (hperm request).mp hmem
      exact hcharged
  have hbegins : (state.scheduler.beginNext (dispatchTime number)).1.isSome :=
    beginNext_isSome hpermits hsome
  rcases beginNext_counts state.scheduler (dispatchTime number) with
    ⟨hnone, -⟩ | ⟨request, charged, -, hbegin, hcounts⟩
  · rw [hnone] at hbegins
    cases hbegins
  · rcases beginNext_cases h.sound.queue (dispatchTime number) with
      ⟨found, next, hresult, hdispatch⟩ | ⟨next, hnone, -⟩
    · rw [hresult] at hbegin hcounts
      cases hbegin
      obtain ⟨tier, -, rfl, -⟩ := (h.purged hnow _ _).mp hdispatch.waited
      exact ⟨tier, next, hresult, hdispatch, hcounts⟩
    · rw [hnone] at hbegin
      cases hbegin

theorem Waiting.dispatch (h : Waiting (fun _ => True) 2 number served state)
    (hmore : number < manyDispatches) :
    ∃ tier, AllSteps SchedulerRun.after FairStep state
        [.beginNext (dispatchTime number), .drop 0] ∧
      Waiting (fun other => other ≠ tier) 2 (number + 1)
        (Function.update served tier (served tier + 1))
        (run SchedulerRun.after state [.beginNext (dispatchTime number), .drop 0]) ∧
      (run SchedulerRun.after state
        [.beginNext (dispatchTime number), .drop 0]).scheduler.queue.queuedLen <
          widePolicy.queueCapacity := by
  obtain ⟨tier, next, hbegin, hdispatch, hcounts⟩ := h.dispatches hmore
  obtain ⟨htime, htime'⟩ := dispatchTime_lt number
  have hnow : dispatchTime number < 100 := by omega
  have hpurged := purgeExpired_shrinks state.scheduler.queue (dispatchTime number)
  let dispatch : ScheduledDispatch := ⟨tierRead tier, true, true⟩
  have hactive : dispatch.active = true := rfl
  have hbegun : state.after (.beginNext (dispatchTime number)) = ⟨next, [dispatch]⟩ := by
    unfold SchedulerRun.after
    dsimp only
    rw [hbegin, h.idle]
    rfl
  have hrun : run SchedulerRun.after state [.beginNext (dispatchTime number), .drop 0] =
      ⟨(next.release dispatch).2.2, []⟩ := by
    rw [run_cons, hbegun]
    rfl
  have hqueued := (beginNext_allQueued h.sound h.queued (dispatchTime number)).1
  have hstarted := beginNext_started state.scheduler (dispatchTime number)
  have hsound := after_runSound (after_runSound h.sound (.beginNext (dispatchTime number)))
    (.drop 0)
  rw [hbegin] at hqueued hstarted
  have hreleased : (next.release dispatch).2.2.queue.pending = next.queue.pending ∧
      (next.release dispatch).2.2.queue.successors = next.queue.successors := by
    rcases release_cases next hactive with
      ⟨successor, hsuccessor, -⟩ | ⟨-, hpending, hsuccessors⟩
    · -- Nothing is in flight at the start of the round, so no read has a successor.
      exfalso
      rw [hdispatch.successors] at hsuccessor
      have hmem := mem_of_getElem? (hpurged.successors _ _ hsuccessor)
      exact h.not_inFlight _ (h.sound.queue.successors _ hmem)
    · exact ⟨hpending, hsuccessors⟩
  refine ⟨tier, ⟨⟨uniformReads_of_allQueued h.queued, ?_⟩, ⟨?_, trivial⟩, trivial⟩, ?_, ?_⟩
  · intro _ other
    refine ⟨tierRead other, mem_values_iff.mpr ⟨_, (h.purged hnow _ _).mpr
      ⟨other, trivial, rfl, rfl⟩⟩, Nat.zero_le _, rfl⟩
  · rw [hbegun]
    exact uniformReads_of_allQueued hqueued
  · rw [hrun]
    refine ⟨?_, rfl, ?_, ?_, ?_, ?_, ?_, ?_⟩
    · rw [← hrun]
      exact hsound
    · intro key request
      rw [hreleased.1, hdispatch.pending, getElem?_erase_eq]
      by_cases hsame : (tierRead tier).key = key
      · rw [if_pos hsame]
        constructor
        · intro hget
          cases hget
        · rintro ⟨other, hne, -, hkey⟩
          exact absurd (tierRead_key (hsame.trans hkey)).symm hne
      · rw [if_neg hsame, h.purged hnow]
        constructor
        · rintro ⟨other, -, hread, hkey⟩
          exact ⟨other, fun hother => hsame (by rw [hkey, hother]), hread, hkey⟩
        · rintro ⟨other, -, hread, hkey⟩
          exact ⟨other, trivial, hread, hkey⟩
    · exact @release_allQueued _ ⟨next, []⟩ hqueued dispatch
    · exact (release_started next dispatch).trans (hstarted.trans h.window)
    · intro other
      rw [release_counts, hcounts, ofTier_countTier]
      by_cases hsame : other = tier
      · rw [hsame, Function.update_self, Function.update_self, h.counts, Nat.mod_add_mod]
      · rw [Function.update_of_ne hsame, Function.update_of_ne hsame, h.counts]
    · have htotal := h.total
      cases tier with
      | active =>
        rw [Function.update_self, Function.update_of_ne (by simp)]
        omega
      | inactive =>
        rw [Function.update_self, Function.update_of_ne (by simp)]
        omega
    · have hpaid : next.budget = chargeStep state.scheduler.budget (readCharge number) :=
        (congrArg Prod.snd hdispatch.once.charged).symm
      rw [release_budget, hpaid]
      exact h.budget.step hmore
  · rw [hrun]
    have hbound := hpurged.size.trans h.sound.queue.bound
    have hlost := size_erase_lt (mem_of_getElem? hdispatch.waited)
    unfold QueueState.queuedLen at hbound ⊢
    dsimp only
    rw [hreleased.1, hreleased.2, hdispatch.pending, hdispatch.successors]
    omega

theorem Waiting.round (h : Waiting (fun _ => True) 2 number served state)
    (hmore : number < manyDispatches) :
    ∃ tier calls, AllSteps SchedulerRun.after FairStep state calls ∧
      Waiting (fun _ => True) 2 (number + 1) (Function.update served tier (served tier + 1))
        (run SchedulerRun.after state calls) := by
  obtain ⟨tier, hfair, hwaiting, hroom⟩ := h.dispatch hmore
  obtain ⟨hboth, -⟩ := hwaiting.schedule tier (fun hne => hne rfl) hroom (.inl rfl)
  refine ⟨tier, [.beginNext (dispatchTime number), .drop 0] ++
    [.schedule (tierRead tier) (dispatchTime (number + 1))], ?_, ?_⟩
  · apply allSteps_append.mpr
    exact ⟨hfair, ⟨uniformReads_of_allQueued hwaiting.queued, trivial⟩, trivial⟩
  · have hall : (fun other => other ≠ tier ∨ other = tier) = fun _ => True := by
      funext other
      exact propext (iff_true_intro (ne_or_eq other tier))
    rw [hall] at hboth
    rw [run_append]
    exact hboth

theorem waiting_start {scheduler : RequestScheduler}
    (hnew : RequestScheduler.new widePolicy sampleRetryPolicy 1 = .ok scheduler) :
    ∃ calls, AllSteps SchedulerRun.after FairStep ⟨scheduler, []⟩ calls ∧
      Waiting (fun _ => True) 2 0 (fun _ => 0) (run SchedulerRun.after ⟨scheduler, []⟩ calls) := by
  have hqueue := (new_spec hnew).2.2
  have hstart : Waiting (fun _ => False) 0 0 (fun _ => 0) ⟨scheduler, []⟩ := by
    refine ⟨runSound_new hnew, rfl, ?_, ?_, ?_, ?_, rfl, solvent_new hnew⟩
    · intro key request
      rw [hqueue]
      constructor
      · intro hget
        simp [QueueState.empty] at hget
      · rintro ⟨tier, hnone, -⟩
        exact False.elim hnone
    · rw [hqueue]
      exact allQueued_empty
    · rw [hqueue]
      rfl
    · intro tier
      rw [hqueue]
      unfold ofTier QueueState.empty
      rw [ExtTreeMap.getElem?_empty]
      rfl
  have hlen : scheduler.queue.queuedLen = 0 := by
    rw [hqueue]
    rfl
  have hcapacity : widePolicy.queueCapacity = 2 := rfl
  obtain ⟨hone, hsize⟩ := hstart.schedule .active (fun hnone => hnone)
    (by rw [hlen]; decide) (.inr ⟨rfl, rfl⟩)
  obtain ⟨hboth, -⟩ := hone.schedule .inactive (by simp)
    (by rw [hcapacity]; exact Nat.lt_succ_of_le (hsize.trans (by rw [hlen]))) (.inl rfl)
  refine ⟨[.schedule (tierRead .active) 2, .schedule (tierRead .inactive) 2], ?_, ?_⟩
  · exact ⟨⟨uniformReads_of_allQueued hstart.queued, trivial⟩,
      ⟨uniformReads_of_allQueued hone.queued, trivial⟩, trivial⟩
  · have hall : (fun other : SourceTier => (False ∨ other = .active) ∨ other = .inactive) =
        fun _ => True := by
      funext other
      cases other <;> simp
    rw [hall] at hboth
    exact hboth

end

end

/-- In a window of four billion dispatches the count of the active tier starts again at zero, and
the inactive tier is two dispatches ahead of its target. -/
theorem tier_count_wraps :
    ¬ ∀ [SliceSort] [LawfulSliceSort] (policy : ReadApiPolicy) (retryPolicy : RetryPolicy)
      (startMs : ℕ) (scheduler : RequestScheduler) (calls : List SchedulerCall),
      RequestScheduler.new policy retryPolicy startMs = .ok scheduler →
        AllSteps SchedulerRun.after FairStep ⟨scheduler, []⟩ calls →
          ∀ state ∈ states SchedulerRun.after ⟨scheduler, []⟩ calls,
            SharesBounded policy state.scheduler.queue := by
  intro h
  let sort : SliceSort := ⟨fun compare items => items.mergeSort fun a b => compare a b != .gt⟩
  have lawful : LawfulSliceSort := lawful_mergeSort
  obtain ⟨scheduler, hnew⟩ : ∃ scheduler,
      RequestScheduler.new widePolicy sampleRetryPolicy 1 = .ok scheduler := by
    unfold RequestScheduler.new WeightedTokenBucket.new
    rw [widePolicy_valid]
    exact ⟨_, rfl⟩
  have hactive : ofTier widePolicy.sourceTierDispatchTargetsPerWindow .active = 2147483648 := by
    decide +kernel
  have hinactive : ofTier widePolicy.sourceTierDispatchTargetsPerWindow .inactive = 1 := by
    decide +kernel
  -- The bounds tie the two counts to each other until the first one wraps.
  have hbounds : ∀ {number served calls},
      AllSteps SchedulerRun.after FairStep ⟨scheduler, []⟩ calls →
      Waiting (fun _ => True) 2 number served (run SchedulerRun.after ⟨scheduler, []⟩ calls) →
        (-2147483648 : ℤ) ≤ (served .active % 2 ^ 32 : ℕ) -
          (served .inactive % 2 ^ 32 : ℕ) * 2147483648 ∧
        ((served .active % 2 ^ 32 : ℕ) : ℤ) - (served .inactive % 2 ^ 32 : ℕ) * 2147483648 ≤ 1 := by
    intro number served calls hfair hwaiting
    have hshares := h widePolicy sampleRetryPolicy 1 scheduler calls hnew hfair _
      (run_mem_states _ calls)
    unfold SharesBounded at hshares
    dsimp only at hshares
    rw [hwaiting.counts, hwaiting.counts, hactive, hinactive] at hshares
    simpa using hshares
  have hrounds : ∀ number ≤ manyDispatches, ∃ calls served,
      AllSteps SchedulerRun.after FairStep ⟨scheduler, []⟩ calls ∧
        Waiting (fun _ => True) 2 number served (run SchedulerRun.after ⟨scheduler, []⟩ calls) ∧
        served .active < 4294967296 ∧ served .inactive ≤ 2 := by
    intro number
    induction number with
    | zero =>
      intro _
      obtain ⟨calls, hfair, hwaiting⟩ := waiting_start hnew
      exact ⟨calls, _, hfair, hwaiting, by simp, by simp⟩
    | succ number ih =>
      intro hmore
      obtain ⟨calls, served, hfair, hwaiting, hfew, hless⟩ := ih (by omega)
      obtain ⟨tier, more, hfair', hwaiting'⟩ := hwaiting.round (by omega)
      have hfair' := allSteps_append.mpr ⟨hfair, hfair'⟩
      rw [← run_append] at hwaiting'
      have hbefore := hbounds hfair hwaiting
      have hafter := hbounds hfair' hwaiting'
      refine ⟨calls ++ more, _, hfair', hwaiting', ?_⟩
      cases tier with
      | active =>
        rw [Function.update_self, Function.update_of_ne (by simp)] at hafter ⊢
        omega
      | inactive =>
        rw [Function.update_self, Function.update_of_ne (by simp)] at hafter ⊢
        omega
  obtain ⟨calls, served, -, hwaiting, hfew, hless⟩ := hrounds manyDispatches le_rfl
  have htotal := hwaiting.total
  unfold manyDispatches at htotal
  omega

end CopyTrade.Analysis
