import CopyTrade.Analysis.Observer.RestartEquivalence
import Mathlib.Order.Interval.Finset.Nat

/-!
# Funding by the instant

An engine charges funding from its accrual mark to the time of the call that accrues.  A run charges
every instant at most once as long as no call accrues from a mark behind an earlier one; a market
metadata response moves the mark to its own time, also where that is behind.
-/

namespace CopyTrade.Analysis

open Foundation Model
open Model.ExactDecimal
open Std (ExtTreeMap)

def accruedFor (asset : String) (engine : DecisionEngine ℚ) : ℚ :=
  engine.accruedFunding[asset]?.getD 0

def portfolioFunding (engine : DecisionEngine ℚ) : ℚ :=
  bookCosts .funding engine.ledger.portfolio

/-- What a call adds to the portfolio book for an asset. -/
def bookedFor (asset : String) (before after : DecisionEngine ℚ) : EngineCall ℚ → ℚ
  | .orderBook book _ _ _ =>
    if book.asset = asset then portfolioFunding after - portfolioFunding before else 0
  | _ => 0

/-- What a call charges an asset with: what it accrues and what it books. -/
def chargedFor (asset : String) (before after : DecisionEngine ℚ) (call : EngineCall ℚ) : ℚ :=
  accruedFor asset after - accruedFor asset before + bookedFor asset before after call

/-- The position, the price and the hourly rate of an asset. -/
structure Steady (asset : String) (quantity mark rate : ℚ) (engine : DecisionEngine ℚ) :
    Prop where
  position : engine.ledger.portfolioPosition asset = quantity
  priced : (engine.mids.bind fun mids => mids.1[asset]?) = some mark
  funded : (engine.metadata.bind fun metadata => metadata.fundingRateHourly[asset]?) = some rate

instance (asset : String) (quantity mark rate : ℚ) (engine : DecisionEngine ℚ) :
    Decidable (Steady asset quantity mark rate engine) :=
  decidable_of_iff (engine.ledger.portfolioPosition asset = quantity ∧
      (engine.mids.bind fun mids => mids.1[asset]?) = some mark ∧
      (engine.metadata.bind fun metadata => metadata.fundingRateHourly[asset]?) = some rate)
    ⟨fun h => ⟨h.1, h.2.1, h.2.2⟩, fun h => ⟨h.position, h.priced, h.funded⟩⟩

def sinceMark (mark : Option ℕ) (now : ℕ) : ℕ :=
  match mark with
  | none => 0
  | some previous => now - previous

def raisedMark (mark : Option ℕ) (now : ℕ) : ℕ :=
  match mark with
  | none => now
  | some previous => max previous now

def fundingOver (ledger : DualLedger ℚ) (mids : ExtTreeMap String ℚ) (hours : ℚ) (asset : String)
    (rate : ℚ) : ℚ :=
  ledger.portfolioPosition asset * mids[asset]?.getD 0 * rate * hours

theorem accrueAsset_spec {ledger : DualLedger ℚ} {mids accrued next : ExtTreeMap String ℚ}
    {hours : ℚ} {context : String × ℚ}
    (h : DecisionEngine.accrueAsset ledger mids hours accrued context = .ok next) :
    next[context.1]?.getD 0 =
        accrued[context.1]?.getD 0 + fundingOver ledger mids hours context.1 context.2 ∧
      ∀ asset, asset ≠ context.1 → next[asset]? = accrued[asset]? := by
  unfold DecisionEngine.accrueAsset at h
  unfold fundingOver
  cases hmark : mids[context.1]? with
  | none =>
    simp only [hmark] at h
    cases h
    simp
  | some mark =>
    simp only [hmark] at h
    split at h
    · rename_i hzero
      rw [isZero_iff_eq_zero] at hzero
      cases h
      simp [hzero]
    · simp only [checkedMul_eq, checkedAdd_eq, Option.bind_some, orArithmetic, ok_bind, zero_eq,
        pure_eq_ok_iff] at h
      subst h
      constructor
      · rw [getElem?_insert_eq, if_pos rfl, Option.getD_some, Option.getD_some]
      · intro asset hasset
        exact getElem?_insert_of_ne (Ne.symm hasset) _

variable {engine : DecisionEngine ℚ} {settings : EngineSettings ℚ}

theorem accruedSince_steady {asset : String} {quantity mark rate : ℚ} {elapsed : ℕ}
    {accrued : ExtTreeMap String ℚ} (hsteady : Steady asset quantity mark rate engine)
    (h : engine.accruedSince elapsed = .ok accrued) :
    accrued[asset]?.getD 0 =
      accruedFor asset engine + quantity * mark * rate * (elapsed / 3600000) := by
  obtain ⟨⟨mids, receivedAt⟩, hmids, hmark⟩ := Option.bind_eq_some_iff.mp hsteady.priced
  obtain ⟨metadata, hmetadata, hrate⟩ := Option.bind_eq_some_iff.mp hsteady.funded
  unfold DecisionEngine.accruedSince at h
  simp only [hmids, hmetadata] at h
  obtain ⟨hours, hhours, h⟩ := of_bind h
  have hover : hours = elapsed / 3600000 := by
    have hdivided : Decimal.checkedDiv (Decimal.new elapsed 0 : ℚ) (Decimal.new 3600000 0) =
        some ((elapsed : ℚ) / 3600000) := by
      rw [checkedDiv_eq (by norm_num [Decimal.new])]
      simp [Decimal.new]
    rw [hdivided] at hhours
    cases hhours
    rfl
  have hkeys : (metadata.fundingRateHourly.toList.map Prod.fst).Nodup := by
    rw [ExtTreeMap.map_fst_toList_eq_keys]
    exact ExtTreeMap.nodup_keys
  obtain ⟨-, hvisited, -⟩ := @foldlM_keyed _ _ _ _ _ _ _ (fun _ => ())
    (fun (accrued : ExtTreeMap String ℚ) (asset : String) => accrued[asset]?.getD 0)
    (fun _ asset rate before after =>
      after = before + fundingOver engine.ledger mids hours asset rate)
    (fun _ _ _ _ => rfl) (fun _ _ _ hround => (accrueAsset_spec hround).1)
    (fun _ _ _ _ hround hother => by rw [(accrueAsset_spec hround).2 _ hother]) _ hkeys _ _ h
  have hasset := hvisited asset rate (ExtTreeMap.mem_toList_iff_getElem?_eq_some.mpr hrate)
  rw [hasset]
  unfold accruedFor fundingOver
  rw [hsteady.position, hmark, Option.getD_some, hover]

variable {now : ℕ} {engine' : DecisionEngine ℚ} {evaluation : ShadowMarketSnapshot ℚ}
  {order : SizedOrder ℚ} {book : OrderBookResponse ℚ} {recompute : ExecutionRecompute}
  {technicalDesired : ℚ}

/-- **What one accrual does**: it charges the asset from the mark to the time of the accrual and
raises the mark to that time. -/
theorem accrueFunding_steady {accrued : DecisionEngine ℚ} {asset : String} {quantity mark rate : ℚ}
    (hsteady : Steady asset quantity mark rate engine) (h : engine.accrueFunding now = .ok accrued)
    :
    accruedFor asset accrued = accruedFor asset engine +
        quantity * mark * rate * (sinceMark engine.lastFundingAccrual now / 3600000) ∧
      accrued.lastFundingAccrual = some (raisedMark engine.lastFundingAccrual now) := by
  unfold DecisionEngine.accrueFunding at h
  unfold sinceMark raisedMark
  cases hmark : engine.lastFundingAccrual with
  | none =>
    rw [hmark] at h
    cases h
    simp [accruedFor]
  | some previous =>
    rw [hmark] at h
    dsimp only at h ⊢
    split at h
    · rename_i helapsed
      cases h
      rw [helapsed, hmark, max_eq_left (by omega)]
      simp
    · obtain ⟨next, hnext, h⟩ := of_bind h
      rw [pure_eq_ok_iff] at h
      subst h
      constructor
      · exact accruedSince_steady hsteady hnext
      · rw [max_eq_right (by omega)]

theorem accrueFunding_behind {previous : ℕ} (hmark : engine.lastFundingAccrual = some previous)
    (hbehind : now ≤ previous) : engine.accrueFunding now = .ok engine := by
  unfold DecisionEngine.accrueFunding
  rw [hmark]
  exact if_pos (by omega)

def fundingState (engine : DecisionEngine ℚ) :
    ExtTreeMap String ℚ × Option ℕ × DualLedger ℚ :=
  (engine.accruedFunding, engine.lastFundingAccrual, engine.ledger)

theorem fundingState_of_withoutSlots (h : withoutSlots engine' = withoutSlots engine) :
    fundingState engine' = fundingState engine :=
  (congrArg fundingState h :)

theorem constructNextDecision_accrues [Sha256] {strategy : Strategy ℚ}
    {result : Option (PlannedDecision ℚ)}
    (h : engine.constructNextDecision settings now strategy = .ok (engine', result)) :
    ∃ accrued, engine.accrueFunding now = .ok accrued ∧
      fundingState engine' = fundingState accrued := by
  unfold DecisionEngine.constructNextDecision at h
  obtain ⟨accrued, haccrued, h⟩ := of_bind h
  refine ⟨accrued, haccrued, ?_⟩
  split at h
  · obtain ⟨allocated, -, h⟩ := of_bind h
    obtain ⟨⟨decided, planned⟩, hdecide, h⟩ := of_bind h
    cases h
    unfold DecisionEngine.decide at hdecide
    obtain ⟨⟨numbered, planned'⟩, hplan, hdecide⟩ := of_bind hdecide
    obtain ⟨committed, hcommit, hdecide⟩ := of_bind hdecide
    cases hdecide
    unfold DecisionEngine.commitDecision at hcommit
    obtain ⟨placed, hplaced, htargets⟩ := of_bind hcommit
    have hkept : withoutSlots placed =
        withoutSlots (numbered.dropUnrequired now planned.executable) :=
      foldlM_frame (fun _ _ _ hround => (planExecutable_step hround).1) hplaced
    calc fundingState engine' = fundingState placed := by
          rw [replaceTargets_eq htargets]
          rfl
      _ = fundingState (numbered.dropUnrequired now planned.executable) :=
        fundingState_of_withoutSlots hkept
      _ = fundingState accrued := by
          rw [(planDecision_eq hplan).1]
          rfl
  · cases h
    rfl

theorem funding_executeOrder {settings : ShadowSettings ℚ} {attempt : ShadowAttempt ℚ}
    {position : ℚ} {execution : IocExecution ℚ} {closedAt : ℕ}
    (h : executeOrder settings attempt position evaluation order = .ok (execution, closedAt)) :
    execution.booked.funding = attempt.accruedFunding := by
  unfold executeOrder at h
  obtain ⟨executed, hexecuted, h⟩ := of_bind h
  obtain ⟨bookedAt, -, h⟩ := of_bind h
  rw [pure_eq_ok_iff, Prod.mk.injEq] at h
  rw [← h.1]
  have hexecuted := mapError_eq_ok_iff.mp hexecuted
  unfold executeShadowIoc at hexecuted
  obtain ⟨⟨⟩, -, hexecuted⟩ := of_bind hexecuted
  obtain ⟨expected, -, hexecuted⟩ := of_bind hexecuted
  split at hexecuted
  · cases hexecuted
  obtain ⟨⟨filled, fillValue, remaining⟩, -, hexecuted⟩ := of_bind hexecuted
  obtain ⟨average, -, hexecuted⟩ := of_bind hexecuted
  obtain ⟨fees, -, hexecuted⟩ := of_bind hexecuted
  obtain ⟨slippage, -, hexecuted⟩ := of_bind hexecuted
  obtain ⟨after, -, hexecuted⟩ := of_bind hexecuted
  rw [pure_eq_ok_iff] at hexecuted
  rw [← hexecuted]

theorem bookCosts_apply [Sha256] {book next : EpisodeBook ℚ} {execution : ShadowExecution ℚ}
    {closedAt : ℕ} (hagrees : Agrees book) (h : book.apply execution closedAt = .ok next) :
    bookCosts .funding next - bookCosts .funding book =
      if execution.modeledFilledQuantity = 0 then 0 else execution.funding := by
  by_cases hfills : execution.modeledFilledQuantity = 0
  · rw [if_pos hfills, apply_of_nothing_filled hfills h, sub_self]
  · obtain ⟨price, kept, settled, hto⟩ := apply_effect hagrees hfills h
    rw [if_neg hfills, bookCosts_fillsTo .funding hto, add_sub_cancel_left]
    rfl

/-- What a fill of an asset does to the funding: it accrues, and what is accrued for the asset
moves to the portfolio book if anything is filled. -/
theorem fillPending_accrues [Sha256] {pending : PendingAction ℚ} {receivedAt : ℕ}
    (hagrees : LedgerAgrees engine.ledger)
    (h : engine.fillPending settings pending book receivedAt evaluation order technicalDesired
      = .ok (engine', recompute)) :
    ∃ accrued, engine.accrueFunding receivedAt = .ok accrued ∧
      engine'.lastFundingAccrual = accrued.lastFundingAccrual ∧
      accruedFor book.asset engine' + (portfolioFunding engine' - portfolioFunding engine) =
        accruedFor book.asset accrued ∧
      ∀ asset, asset ≠ book.asset → accruedFor asset engine' = accruedFor asset accrued := by
  unfold DecisionEngine.fillPending at h
  obtain ⟨accrued, haccrued, h⟩ := of_bind h
  obtain ⟨⟨execution, closedAt⟩, hexecution, h⟩ := of_bind h
  obtain ⟨componentTargets, -, h⟩ := of_bind h
  obtain ⟨partition, -, h⟩ := of_bind h
  obtain ⟨report, hreport, h⟩ := of_bind h
  obtain ⟨continuations, -, h⟩ := of_bind h
  rw [pure_eq_ok_iff, Prod.mk.injEq] at h
  have hledger : accrued.ledger = engine.ledger := by
    rw [accrueFunding_eq haccrued]
  have happlied := portfolio_settleExecution (mapError_eq_ok_iff.mp hreport)
  rw [hledger] at happlied
  have hfunding : execution.booked.funding = accruedFor book.asset accrued := by
    rw [funding_executeOrder hexecution, accruedFor, ← zero_eq]
    rfl
  have hportfolio : Agrees engine.ledger.portfolio := hagrees.books .portfolio
  have hbooked := bookCosts_apply hportfolio happlied
  rw [hfunding] at hbooked
  rw [← h.1]
  refine ⟨accrued, haccrued, rfl, ?_, ?_⟩
  · unfold portfolioFunding accruedFor
    rw [hbooked]
    by_cases hfilled : execution.booked.modeledFilledQuantity = 0
    · rw [if_pos hfilled, if_pos ((isZero_iff_eq_zero _).mpr hfilled), add_zero]
    · rw [if_neg hfilled, if_neg (mt (isZero_iff_eq_zero _).mp hfilled), getElem?_erase_eq,
        if_pos rfl, Option.getD_none, zero_add]
      rfl
  · intro asset hasset
    unfold accruedFor
    split
    · rfl
    · rw [getElem?_erase_eq, if_neg (Ne.symm hasset)]

/-- A book executes the action that is pending for its asset in the shadow ledger. -/
def fillsPendingAt (settings : EngineSettings ℚ) (engine : DecisionEngine ℚ)
    (book : OrderBookResponse ℚ) (receivedAt : ℕ) : Bool :=
  engine.productionIdentity.isNone &&
    match engine.pending[book.asset]? with
    | none => false
    | some pending =>
      let attempt := engine.attemptOf pending book receivedAt
      !attempt.isEarly settings.toShadowSettings &&
        (attemptOrder settings.toShadowSettings attempt
          (engine.authoritativePosition book.asset)).toOption.join.isSome

/-- The time a call accrues funding at, if it does: a book accrues where it executes an action or
where an action has waited for it. -/
def accrualTime (settings : EngineSettings ℚ) (engine : DecisionEngine ℚ) :
    EngineCall ℚ → Option ℕ
  | .marketMetadata _ receivedAt => some receivedAt
  | .orderBook book receivedAt _ _ =>
    if engine.pendingBook.contains book.asset || fillsPendingAt settings engine book receivedAt then
      some receivedAt
    else none
  | .decision now _ => some now
  | .equityBoundary now => some now
  | _ => none

def markAfter (mark : Option ℕ) (now : ℕ) : EngineCall ℚ → ℕ
  | .marketMetadata _ _ => now
  | _ => raisedMark mark now

def accrualLength (settings : EngineSettings ℚ) (engine : DecisionEngine ℚ)
    (call : EngineCall ℚ) : ℕ :=
  match accrualTime settings engine call with
  | none => 0
  | some now => sinceMark engine.lastFundingAccrual now

def nextMark (settings : EngineSettings ℚ) (engine : DecisionEngine ℚ) (call : EngineCall ℚ) :
    Option ℕ :=
  match accrualTime settings engine call with
  | none => engine.lastFundingAccrual
  | some now => some (markAfter engine.lastFundingAccrual now call)

theorem bookStep_charges [Sha256] [IntentEncoding ℚ] {executed : DecisionEngine ℚ} {receivedAt : ℕ}
    (hagrees : LedgerAgrees engine.ledger)
    (h : BookStep settings engine book receivedAt technicalDesired executed recompute) :
    (fillsPendingAt settings engine book receivedAt = false ∧ recompute = .none ∧
      fundingState executed = fundingState engine ∧ executed.mids = engine.mids ∧
      executed.metadata = engine.metadata) ∨
    (fillsPendingAt settings engine book receivedAt = true ∧
      ∃ accrued, engine.accrueFunding receivedAt = .ok accrued ∧
        executed.lastFundingAccrual = accrued.lastFundingAccrual ∧
        ∀ asset, accruedFor asset executed + (if book.asset = asset then
          portfolioFunding executed - portfolioFunding engine else 0) =
            accruedFor asset accrued) := by
  cases h with
  | idle early =>
    refine .inl ⟨?_, rfl, rfl, rfl, rfl⟩
    unfold fillsPendingAt
    cases hpending : engine.pending[book.asset]? with
    | none => simp
    | some pending => simp [early pending hpending]
  | dropped pending isPending noOrder =>
    refine .inl ⟨?_, rfl, rfl, rfl, rfl⟩
    unfold fillsPendingAt
    simp [isPending, noOrder, Except.toOption]
  | emits pending evaluation order identity _ ready production emits =>
    have hfills : fillsPendingAt settings engine book receivedAt = false := by
      unfold fillsPendingAt
      simp [production]
    rcases emitIntent_cases emits with ⟨-, rfl⟩ | ⟨-, intent, -, rfl⟩
    · exact .inl ⟨hfills, rfl, rfl, rfl, rfl⟩
    · exact .inl ⟨hfills, rfl, rfl, rfl, rfl⟩
  | fills pending evaluation order _ _ ready shadow fills =>
    refine .inr ⟨?_, ?_⟩
    · unfold fillsPendingAt
      simp [shadow, ready.isPending, ready.notEarly, ready.hasOrder, Except.toOption]
    · obtain ⟨accrued, haccrued, hmark, hown, hother⟩ := fillPending_accrues hagrees fills
      refine ⟨accrued, haccrued, hmark, ?_⟩
      intro asset
      by_cases hasset : book.asset = asset
      · rw [if_pos hasset, ← hasset]
        exact hown
      · rw [if_neg hasset, add_zero]
        exact hother asset (Ne.symm hasset)

section

variable [Sha256] [IntentEncoding ℚ] {settings : EngineSettings ℚ}
  {engine engine' : DecisionEngine ℚ} {asset : String} {quantity mark rate : ℚ}
  {result : Option (PlannedDecision ℚ)}

section

omit [Sha256] [IntentEncoding ℚ]

theorem accruedFor_of_state (asset : String) (h : fundingState engine' = fundingState engine) :
    accruedFor asset engine' = accruedFor asset engine ∧
      portfolioFunding engine' = portfolioFunding engine ∧
      engine'.lastFundingAccrual = engine.lastFundingAccrual := by
  have haccrued : engine'.accruedFunding = engine.accruedFunding := congrArg Prod.fst h
  have hledger : engine'.ledger = engine.ledger := congrArg (fun state => state.2.2) h
  refine ⟨?_, ?_, congrArg (fun state => state.2.1) h⟩
  · rw [accruedFor, haccrued]
    rfl
  · rw [portfolioFunding, hledger]
    rfl

theorem charged_of_accrual {now : ℕ} {accrued : DecisionEngine ℚ}
    (hsteady : Steady asset quantity mark rate engine)
    (haccrued : engine.accrueFunding now = .ok accrued)
    (hstate : fundingState engine' = fundingState accrued) :
    accruedFor asset engine' = accruedFor asset engine +
        quantity * mark * rate * (sinceMark engine.lastFundingAccrual now / 3600000) ∧
      portfolioFunding engine' = portfolioFunding engine ∧
      engine'.lastFundingAccrual = some (raisedMark engine.lastFundingAccrual now) := by
  obtain ⟨hsame, hfunding, hmark⟩ := accruedFor_of_state asset hstate
  obtain ⟨hcharged, hraised⟩ := accrueFunding_steady hsteady haccrued
  refine ⟨hsame.trans hcharged, ?_, hmark.trans hraised⟩
  rw [hfunding, accrueFunding_eq haccrued]
  rfl

theorem steady_of_state (hsteady : Steady asset quantity mark rate engine)
    (hstate : fundingState engine' = fundingState engine) (hmids : engine'.mids = engine.mids)
    (hmetadata : engine'.metadata = engine.metadata) : Steady asset quantity mark rate engine' where
  position := by
    have hledger : engine'.ledger = engine.ledger := congrArg (fun state => state.2.2) hstate
    rw [hledger]
    exact hsteady.position
  priced := hmids ▸ hsteady.priced
  funded := hmetadata ▸ hsteady.funded

end

theorem orderBook_charges {book : OrderBookResponse ℚ} {receivedAt : ℕ} {technicalDesired : ℚ}
    {strategy : Strategy ℚ} (hagrees : LedgerAgrees engine.ledger)
    (hsteady : Steady asset quantity mark rate engine)
    (h : engine.call settings (.orderBook book receivedAt technicalDesired strategy)
      = .ok (engine', result)) :
    chargedFor asset engine engine' (.orderBook book receivedAt technicalDesired strategy) =
        quantity * mark * rate * (accrualLength settings engine
          (.orderBook book receivedAt technicalDesired strategy) / 3600000) ∧
      engine'.lastFundingAccrual =
        nextMark settings engine (.orderBook book receivedAt technicalDesired strategy) := by
  obtain ⟨⟨executed, recompute⟩, hexecuted, h⟩ := of_bind h
  dsimp only at h
  have hwith : LedgerAgrees (withBook engine book receivedAt).ledger := hagrees
  have hstep := bookStep_charges hwith (tryExecutePending_step hexecuted)
  unfold chargedFor bookedFor accrualLength nextMark accrualTime
  have hfills : fillsPendingAt settings (withBook engine book receivedAt) book receivedAt =
      fillsPendingAt settings engine book receivedAt := rfl
  rw [hfills] at hstep
  dsimp only
  rcases hstep with ⟨hidle, rfl, hstate, hmids, hmetadata⟩ |
    ⟨hfilled, accrued, haccrued, hmark, hbooked⟩
  · rw [hidle, Bool.or_false]
    have hsame : fundingState executed = fundingState engine := hstate
    obtain ⟨hfor, hportfolio, hlast⟩ := accruedFor_of_state asset hsame
    by_cases hwaiting : engine.pendingBook.contains book.asset = true
    · -- The book has been waited for: the decision it makes accrues.
      rw [if_pos (by rw [hwaiting]; rfl)] at h
      obtain ⟨accrued, haccrued, hdecided⟩ := constructNextDecision_accrues h
      obtain ⟨hcharged, hbooked, hraised⟩ :=
        charged_of_accrual (steady_of_state hsteady hsame hmids hmetadata) haccrued hdecided
      rw [if_pos hwaiting, hcharged, hbooked, hportfolio, hfor, hraised, hlast]
      simp [markAfter]
    · rw [if_neg (by simpa using hwaiting)] at h
      cases h
      rw [if_neg hwaiting, hfor, hportfolio, hlast]
      simp
  · rw [hfilled, Bool.or_true, if_pos rfl]
    have hsteadyBook : Steady asset quantity mark rate (withBook engine book receivedAt) :=
      steady_of_state hsteady rfl rfl rfl
    obtain ⟨hcharged, hraised⟩ := accrueFunding_steady hsteadyBook haccrued
    -- A decision after the fill comes at the time of the fill, and accrues nothing more.
    have hdecided : fundingState engine' = fundingState executed := by
      split at h
      · obtain ⟨again, hagain, hdecided⟩ := constructNextDecision_accrues h
        rw [accrueFunding_behind (hmark.trans hraised) (by
          unfold raisedMark
          split <;> omega)] at hagain
        cases hagain
        exact hdecided
      · cases h
        rfl
    obtain ⟨hfor, hportfolio, hlast⟩ := accruedFor_of_state asset hdecided
    have hboth := hbooked asset
    rw [hcharged] at hboth
    refine ⟨?_, (hlast.trans hmark).trans hraised⟩
    rw [hfor, hportfolio]
    have hbefore : accruedFor asset (withBook engine book receivedAt) = accruedFor asset engine :=
      rfl
    have hfunded : portfolioFunding (withBook engine book receivedAt) = portfolioFunding engine :=
      rfl
    have hlast : (withBook engine book receivedAt).lastFundingAccrual =
        engine.lastFundingAccrual := rfl
    rw [hbefore, hfunded, hlast] at hboth
    linarith

/-- **What a call charges an asset with**: the funding since the accrual mark, if it accrues. -/
theorem call_charges {call : EngineCall ℚ} (hagrees : LedgerAgrees engine.ledger)
    (hsteady : Steady asset quantity mark rate engine)
    (h : engine.call settings call = .ok (engine', result)) :
    chargedFor asset engine engine' call =
        quantity * mark * rate * (accrualLength settings engine call / 3600000) ∧
      engine'.lastFundingAccrual = nextMark settings engine call := by
  cases call with
  | orderBook book receivedAt technicalDesired strategy => exact orderBook_charges hagrees hsteady h
  | decision now strategy =>
    obtain ⟨accrued, haccrued, hdecided⟩ := constructNextDecision_accrues h
    obtain ⟨hcharged, -, hraised⟩ := charged_of_accrual hsteady haccrued hdecided
    refine ⟨?_, hraised⟩
    unfold chargedFor bookedFor accrualLength accrualTime
    rw [hcharged]
    ring
  | equityBoundary now =>
    obtain ⟨accrued, haccrued, h⟩ := of_bind h
    cases h
    obtain ⟨hcharged, hraised⟩ := accrueFunding_steady hsteady haccrued
    refine ⟨?_, hraised⟩
    unfold chargedFor bookedFor accrualLength accrualTime
    rw [hcharged]
    ring
  | marketMetadata metadata receivedAt =>
    obtain ⟨accrued, haccrued, h⟩ := of_bind h
    cases h
    obtain ⟨hcharged, -⟩ := accrueFunding_steady hsteady haccrued
    refine ⟨?_, rfl⟩
    have hsame : accruedFor asset { accrued with
        metadata := some metadata, lastFundingAccrual := some receivedAt } =
          accruedFor asset accrued := rfl
    unfold chargedFor bookedFor accrualLength accrualTime
    rw [hsame, hcharged]
    ring
  | _ =>
    cases h
    refine ⟨?_, rfl⟩
    simp [chargedFor, bookedFor, accruedFor, accrualLength, accrualTime,
      DecisionEngine.synchronizeProductionState]

end

/-- A run with what it has charged an asset with, how long its calls have accrued for, and the first
and the latest accrual mark it has had. -/
structure FundingMeter where
  run : EngineRun ℚ
  charged : ℚ
  accruedLength : ℕ
  span : Option (ℕ × ℕ)

def widen (span : Option (ℕ × ℕ)) (mark : Option ℕ) : Option (ℕ × ℕ) :=
  match span, mark with
  | some (first, latest), some mark => some (first, max latest mark)
  | none, some mark => some (mark, mark)
  | span, none => span

namespace FundingMeter

def start (engine : DecisionEngine ℚ) : FundingMeter where
  run := EngineRun.start engine
  charged := 0
  accruedLength := 0
  span := widen none engine.lastFundingAccrual

def step [Sha256] [IntentEncoding ℚ] (settings : EngineSettings ℚ) (asset : String)
    (meter : FundingMeter) (call : EngineCall ℚ) : FundingMeter :=
  let next := meter.run.step settings call
  { run := next
    charged := meter.charged + chargedFor asset meter.run.engine next.engine call
    accruedLength := meter.accruedLength + accrualLength settings meter.run.engine call
    span := widen meter.span next.engine.lastFundingAccrual }

/-- How long the run has had, from its first accrual mark to its latest. -/
def spanLength (meter : FundingMeter) : ℕ :=
  match meter.span with
  | none => 0
  | some (first, latest) => latest - first

/-- The run has charged the asset for a set of instants between its first and its latest accrual
mark, each of them once. -/
def ChargedOnce (quantity mark rate : ℚ) (meter : FundingMeter) : Prop :=
  ∃ instants : Finset ℕ,
    (∀ instant ∈ instants, ∃ first latest, meter.span = some (first, latest) ∧
      first ≤ instant ∧ instant < latest) ∧
    meter.charged = quantity * mark * rate * (instants.card / 3600000)

end FundingMeter

/-- A call succeeds while the position, the price and the rate of the asset are these. -/
def SteadyCall [Sha256] [IntentEncoding ℚ] (settings : EngineSettings ℚ) (asset : String)
    (quantity mark rate : ℚ) (meter : FundingMeter) (call : EngineCall ℚ) : Prop :=
  Steady asset quantity mark rate meter.run.engine ∧ (meter.run.step settings call).stopped = none

instance [Sha256] [IntentEncoding ℚ] (settings : EngineSettings ℚ) (asset : String)
    (quantity mark rate : ℚ) (meter : FundingMeter) (call : EngineCall ℚ) :
    Decidable (SteadyCall settings asset quantity mark rate meter call) :=
  inferInstanceAs (Decidable (_ ∧ _))

/-- A call that accrues does so from the latest mark there has been, or not past its mark. -/
def AccruesFromLatest (settings : EngineSettings ℚ) (meter : FundingMeter)
    (call : EngineCall ℚ) : Prop :=
  ∀ now previous first latest, accrualTime settings meter.run.engine call = some now →
    meter.run.engine.lastFundingAccrual = some previous → meter.span = some (first, latest) →
    latest ≤ previous ∨ now ≤ previous

section

variable [Sha256] [IntentEncoding ℚ] {settings : EngineSettings ℚ} {asset : String}
  {quantity mark rate : ℚ} {meter : FundingMeter} {call : EngineCall ℚ}

/-- The marks of a meter: there has been none, or the span holds the mark of the engine and is no
longer than the calls have accrued for. -/
inductive AccrualMarks : Option ℕ → Option (ℕ × ℕ) → ℕ → Prop
  | unset : AccrualMarks none none 0
  | set (first latest previous length : ℕ) (ordered : first ≤ latest) (held : previous ≤ latest)
      (covered : latest - first ≤ length) :
      AccrualMarks (some previous) (some (first, latest)) length

/-- What holds of a meter all along a run. -/
structure Metered (quantity mark rate : ℚ) (meter : FundingMeter) : Prop where
  agrees : LedgerAgrees meter.run.engine.ledger
  charged : meter.charged = quantity * mark * rate * (meter.accruedLength / 3600000)
  marks : AccrualMarks meter.run.engine.lastFundingAccrual meter.span meter.accruedLength

omit [Sha256] [IntentEncoding ℚ] in
theorem metered_start {engine : DecisionEngine ℚ} (hagrees : LedgerAgrees engine.ledger) :
    Metered quantity mark rate (FundingMeter.start engine) where
  agrees := hagrees
  charged := by simp [FundingMeter.start]
  marks := by
    unfold FundingMeter.start EngineRun.start
    cases engine.lastFundingAccrual with
    | none => exact .unset
    | some previous => exact .set previous previous previous 0 le_rfl le_rfl (by omega)

theorem call_of_step {run : EngineRun ℚ} (h : (run.step settings call).stopped = none) :
    run.stopped = none ∧ ∃ result,
      run.engine.call settings call = .ok ((run.step settings call).engine, result) := by
  unfold EngineRun.step at h ⊢
  cases hstopped : run.stopped with
  | some error =>
    rw [hstopped] at h
    rw [hstopped] at h
    cases h
  | none =>
    rw [hstopped] at h
    cases hcall : run.engine.call settings call with
    | error error =>
      rw [hcall] at h
      cases h
    | ok next => exact ⟨rfl, next.2, rfl⟩

/-- What an accrual does to the mark and the span, and how long it accrues for. -/
inductive AccrualStep : Option ℕ → Option ℕ → Option (ℕ × ℕ) → Option ℕ → Option (ℕ × ℕ) → ℕ → Prop
  | idle (mark : Option ℕ) (span : Option (ℕ × ℕ)) : AccrualStep none mark span mark span 0
  | opens (now : ℕ) : AccrualStep (some now) none none (some now) (some (now, now)) 0
  | moves (first latest previous next now : ℕ) (held : next ≤ max latest now) :
      AccrualStep (some now) (some previous) (some (first, latest)) (some next)
        (some (first, max latest now)) (now - previous)

omit [Sha256] [IntentEncoding ℚ] in
theorem markStep_call (settings : EngineSettings ℚ) (call : EngineCall ℚ)
    {engine : DecisionEngine ℚ} {span : Option (ℕ × ℕ)} {length : ℕ}
    (hmarks : AccrualMarks engine.lastFundingAccrual span length) :
    AccrualStep (accrualTime settings engine call) engine.lastFundingAccrual span
      (nextMark settings engine call) (widen span (nextMark settings engine call))
      (accrualLength settings engine call) := by
  unfold nextMark accrualLength
  generalize engine.lastFundingAccrual = mark at hmarks
  cases accrualTime settings engine call with
  | none =>
    have hsame : widen span mark = span := by
      cases hmarks with
      | unset => rfl
      | set first latest previous _ ordered held covered =>
        unfold widen
        dsimp only
        rw [max_eq_left held]
    rw [hsame]
    exact .idle mark span
  | some now =>
    have hnext : markAfter mark now call = now ∨ markAfter mark now call = raisedMark mark now := by
      unfold markAfter
      split
      · exact .inl rfl
      · exact .inr rfl
    dsimp only
    generalize markAfter mark now call = next at hnext
    unfold raisedMark at hnext
    cases hmarks with
    | unset =>
      have hsame : next = now := hnext.elim id id
      rw [hsame]
      exact .opens now
    | set first latest previous _ ordered held covered =>
      dsimp only at hnext
      unfold widen sinceMark
      dsimp only
      have hlatest : max latest next = max latest now ∨ next = now := by omega
      have hmax : max latest next = max latest now := hlatest.elim id fun hsame => by rw [hsame]
      rw [hmax]
      exact .moves first latest previous next now (by omega)

omit [Sha256] [IntentEncoding ℚ] in
theorem marks_of_step {time mark mark' : Option ℕ} {span span' : Option (ℕ × ℕ)}
    {length accrued : ℕ} (hmarks : AccrualMarks mark span length)
    (hstep : AccrualStep time mark span mark' span' accrued) : AccrualMarks mark' span' (length + accrued) := by
  cases hstep with
  | idle => exact hmarks
  | opens now =>
    cases hmarks
    exact .set now now now _ le_rfl le_rfl (by omega)
  | moves first latest previous next now held =>
    cases hmarks with
    | set _ _ _ _ ordered before covered =>
      exact .set first (max latest now) next _ (by omega) held (by omega)

theorem metered_step (hmetered : Metered quantity mark rate meter)
    (hsteady : SteadyCall settings asset quantity mark rate meter call) :
    Metered quantity mark rate (meter.step settings asset call) ∧
      (meter.step settings asset call).run.engine.lastFundingAccrual =
        nextMark settings meter.run.engine call := by
  obtain ⟨-, result, hcall⟩ := call_of_step hsteady.2
  obtain ⟨hcharged, hmark⟩ := call_charges hmetered.agrees hsteady.1 hcall
  refine ⟨⟨?_, ?_, ?_⟩, hmark⟩
  · exact ledgerAgrees_engineCall hmetered.agrees hcall
  · unfold FundingMeter.step
    dsimp only
    rw [hcharged, hmetered.charged]
    push_cast
    ring
  · unfold FundingMeter.step
    dsimp only
    rw [hmark]
    exact marks_of_step hmetered.marks (markStep_call settings call hmetered.marks)

def excess (meter : FundingMeter) : ℕ := meter.accruedLength - meter.spanLength

theorem excess_step (hmetered : Metered quantity mark rate meter)
    (hsteady : SteadyCall settings asset quantity mark rate meter call) :
    excess meter ≤ excess (meter.step settings asset call) ∧
      (excess (meter.step settings asset call) = excess meter ↔
        AccruesFromLatest settings meter call) := by
  have hmark := (metered_step hmetered hsteady).2
  have hspan : (meter.step settings asset call).span =
      widen meter.span (nextMark settings meter.run.engine call) := by
    rw [← hmark]
    rfl
  have hlength : (meter.step settings asset call).accruedLength =
      meter.accruedLength + accrualLength settings meter.run.engine call := rfl
  have hmarks := hmetered.marks
  have hstep := markStep_call settings call hmarks
  unfold excess FundingMeter.spanLength AccruesFromLatest
  rw [hspan, hlength]
  generalize widen meter.span (nextMark settings meter.run.engine call) = span' at hstep
  generalize nextMark settings meter.run.engine call = mark' at hstep
  generalize accrualLength settings meter.run.engine call = accrued at hstep
  generalize accrualTime settings meter.run.engine call = time at hstep
  generalize meter.run.engine.lastFundingAccrual = mark at hstep hmarks
  generalize meter.span = span at hstep hmarks
  generalize meter.accruedLength = length at hmarks
  cases hstep with
  | idle => simp
  | opens now =>
    cases hmarks
    simp
  | moves first latest previous next now held =>
    cases hmarks with
    | set _ _ _ _ ordered before covered =>
      have hiff : length + (now - previous) - (max latest now - first) = length - (latest - first) ↔
          latest ≤ previous ∨ now ≤ previous := by omega
      dsimp only
      rw [hiff]
      refine ⟨by omega, ?_⟩
      constructor
      · rintro h _ _ _ _ ⟨⟩ ⟨⟩ ⟨⟩
        exact h
      · intro h
        exact h now previous first latest rfl rfl rfl

variable {calls : List (EngineCall ℚ)}

theorem metered_run (hmetered : Metered quantity mark rate meter)
    (hsteady : AllSteps (FundingMeter.step settings asset)
      (SteadyCall settings asset quantity mark rate) meter calls) :
    Metered quantity mark rate (run (FundingMeter.step settings asset) meter calls) :=
  forall_states_of_steps (I := Metered quantity mark rate)
    (fun _ _ hmetered hsteady => (metered_step hmetered hsteady).1) hmetered hsteady _
    (run_mem_states _ _)

section

omit [Sha256] [IntentEncoding ℚ]

theorem spanLength_le (hmetered : Metered quantity mark rate meter) :
    meter.spanLength ≤ meter.accruedLength := by
  have hmarks := hmetered.marks
  unfold FundingMeter.spanLength
  generalize meter.run.engine.lastFundingAccrual = mark at hmarks
  generalize meter.span = span at hmarks
  generalize meter.accruedLength = length at hmarks
  cases hmarks with
  | unset => exact Nat.le_refl 0
  | set first latest previous _ ordered held covered => exact covered

theorem card_le_spanLength {instants : Finset ℕ}
    (h : ∀ instant ∈ instants, ∃ first latest, meter.span = some (first, latest) ∧
      first ≤ instant ∧ instant < latest) : instants.card ≤ meter.spanLength := by
  unfold FundingMeter.spanLength
  cases hspan : meter.span with
  | none =>
    rw [hspan] at h
    have hempty : instants = ∅ := by
      rw [Finset.eq_empty_iff_forall_notMem]
      intro instant hinstant
      obtain ⟨first, latest, hnone, -⟩ := h instant hinstant
      cases hnone
    simp [hempty]
  | some span =>
    obtain ⟨first, latest⟩ := span
    calc instants.card ≤ (Finset.Ico first latest).card := by
          apply Finset.card_le_card
          intro instant hinstant
          obtain ⟨_, _, hsome, hbounds⟩ := h instant hinstant
          rw [hspan] at hsome
          cases hsome
          exact Finset.mem_Ico.mpr hbounds
      _ = latest - first := Nat.card_Ico first latest

/-- A run has charged for instants of its span, each once, exactly when it charges nothing or its
calls have accrued for no longer than the span. -/
theorem chargedOnce_iff_excess (hmetered : Metered quantity mark rate meter) :
    meter.ChargedOnce quantity mark rate ↔ quantity * mark * rate = 0 ∨ excess meter = 0 := by
  have hcovered := spanLength_le hmetered
  constructor
  · rintro ⟨instants, hinstants, hcharged⟩
    by_cases hfree : quantity * mark * rate = 0
    · exact .inl hfree
    · apply Or.inr
      rw [hmetered.charged] at hcharged
      have hlengths := mul_left_cancel₀ hfree hcharged
      have hcard : meter.accruedLength = instants.card := by
        have hcast : (meter.accruedLength : ℚ) = instants.card := by linarith
        exact_mod_cast hcast
      have hle := card_le_spanLength hinstants
      unfold excess
      omega
  · rintro (hfree | hnone)
    · refine ⟨∅, by simp, ?_⟩
      rw [hmetered.charged, hfree, zero_mul, zero_mul]
    · have hlength : meter.accruedLength = meter.spanLength := by
        unfold excess at hnone
        omega
      have hcharged := hmetered.charged
      rw [hlength] at hcharged
      unfold FundingMeter.spanLength at hcharged
      cases hspan : meter.span with
      | none =>
        rw [hspan] at hcharged
        exact ⟨∅, by simp, by simpa using hcharged⟩
      | some span =>
        obtain ⟨first, latest⟩ := span
        rw [hspan] at hcharged
        refine ⟨Finset.Ico first latest, ?_, by rw [Nat.card_Ico]; exact hcharged⟩
        intro instant hinstant
        exact ⟨first, latest, hspan, Finset.mem_Ico.mp hinstant⟩

end

theorem excess_run (hmetered : Metered quantity mark rate meter)
    (hsteady : AllSteps (FundingMeter.step settings asset)
      (SteadyCall settings asset quantity mark rate) meter calls) :
    excess meter ≤ excess (run (FundingMeter.step settings asset) meter calls) ∧
      (excess (run (FundingMeter.step settings asset) meter calls) = excess meter ↔
        AllSteps (FundingMeter.step settings asset) (AccruesFromLatest settings) meter calls) :=
  run_measure_eq_iff (I := Metered quantity mark rate)
    (fun _ _ hmetered hsteady => (metered_step hmetered hsteady).1)
    (fun _ _ hmetered hsteady => (excess_step hmetered hsteady).1)
    (fun _ _ hmetered hsteady => (excess_step hmetered hsteady).2) hmetered hsteady

omit [Sha256] [IntentEncoding ℚ] in
theorem excess_start (engine : DecisionEngine ℚ) : excess (FundingMeter.start engine) = 0 :=
  Nat.zero_sub _

end

theorem ledgerAgrees_run [Sha256] [IntentEncoding ℚ] (settings : EngineSettings ℚ)
    (engineInstance : Bytes 16) (identity : Option ProductionIntentIdentity)
    (calls : List (EngineCall ℚ)) :
    LedgerAgrees (run (EngineRun.step settings)
      (EngineRun.start (DecisionEngine.start engineInstance identity)) calls).engine.ledger := by
  apply run_invariant (I := fun run : EngineRun ℚ => LedgerAgrees run.engine.ledger) _
    ledgerAgrees_empty
  intro run call hagrees
  unfold EngineRun.step
  split
  · exact hagrees
  · split
    · exact hagrees
    · rename_i engine planned hcall
      exact ledgerAgrees_engineCall hagrees hcall

/-- A market in which a position of one dollar pays a cent an hour. -/
def sampleHourlyRate : MarketMetadata ℚ :=
  ⟨["BTC"], ExtTreeMap.ofList [("BTC", 1 / 100)] compare⟩

def sampleHolding [Sha256] [IntentEncoding ℚ] : DecisionEngine ℚ :=
  (sampleEngineRun none (.marketMetadata sampleHourlyRate 0 :: sampleOpening.tail ++
    [.orderBook (sampleBook 100) 100 0 (sampleStrategy 0)])).engine

def sampleHour : List (EngineCall ℚ) := [.equityBoundary 1800100, .equityBoundary 3600100]

def sampleLateMetadata : List (EngineCall ℚ) :=
  [.equityBoundary 3600100, .marketMetadata sampleHourlyRate 100, .equityBoundary 3600100]

end CopyTrade.Analysis
