import CopyTrade.Analysis.Signer.EventOrdering

/-!
# Batches that are applied twice

A fill is on record with the equity of the batch it came in.  When the same batches are applied once
more, a fill is taken as known only if its whole payload is the one on record, so that the second
call needs the equity of the first.  With that equity it changes nothing but the cursors.
-/

namespace CopyTrade.Analysis

open Foundation Model

variable {D : Type} [Decimal D]

def withEquity (fill : VerifiedExchangeFill D) (equity : D) : VerifiedExchangeFill D :=
  { fill with exchangeEquityAfter := equity }

variable {fill : VerifiedExchangeFill D}

variable {equity : D}

theorem eqv_withEquity_iff {existing : VerifiedExchangeFill D} (h : existing.eqv fill = true) :
    existing.eqv (withEquity fill equity) = true ↔
      Decimal.eqv fill.exchangeEquityAfter equity = true := by
  unfold VerifiedExchangeFill.eqv at h ⊢
  simp only [withEquity, Bool.and_eq_true, Decimal.eqv_iff] at h ⊢
  rw [← h.1.2]
  tauto

omit [Decimal D] in
theorem verifiedFill_withEquity {record : UserFill D} {durable : ApprovedExecutionIntent D}
    (h : verifiedFill record durable equity = .ok fill) (other : D) :
    fill.exchangeEquityAfter = equity ∧
      verifiedFill record durable other = .ok (withEquity fill other) := by
  unfold verifiedFill at h ⊢
  dsimp only at h ⊢
  by_cases hmismatch : (record.asset != durable.asset ||
      record.side != if durable.isBuy then "B" else "A") = true
  · rw [if_pos hmismatch] at h
    cases h
  rw [if_neg hmismatch] at h ⊢
  obtain ⟨decision, hdecision, hroot⟩ := of_bind h
  obtain ⟨root, hrootCloid, hparent⟩ := of_bind hroot
  obtain ⟨parent, hparentCloid, hfill⟩ := of_bind hparent
  cases hfill
  refine ⟨rfl, bind_eq_ok_iff.mpr ⟨decision, hdecision, ?_⟩⟩
  refine bind_eq_ok_iff.mpr ⟨root, hrootCloid, ?_⟩
  exact bind_eq_ok_iff.mpr ⟨parent, hparentCloid, rfl⟩

theorem validateFill_withEquity (h : validateFill fill = .ok ())
    (hpositive : Decimal.lt Decimal.zero equity = true) :
    validateFill (withEquity fill equity) = .ok () := by
  have hequity : Decimal.le equity Decimal.zero = false := by
    rw [Bool.eq_false_iff, ne_eq, Decimal.le_iff, not_le]
    exact Decimal.lt_iff.mp hpositive
  unfold validateFill at h ⊢
  split at h
  · cases h
  · rename_i hvalid
    refine if_neg ?_
    simp only [withEquity, Bool.or_eq_true, hequity, Bool.false_eq_true, or_false] at hvalid ⊢
    tauto

section

variable [Sha256] {registry : SubmissionRegistry D} {equity : D}

def Known (live : LiveTradingState D) : ExchangeEvent D → Prop
  | .fill record => ⟨record.exchangeOrderId, record.tradeId, record.cloid⟩ ∈ live.appliedFills
  | .funding record => fundingId record.eventHash ∈ live.appliedFunding

/-- The fill, as a batch with this equity reads it, equals one of these. -/
def HeldWith (registry : SubmissionRegistry D) (equity : D) (held : List (VerifiedExchangeFill D))
    (record : UserFill D) : Prop :=
  ∃ durable fill, registry.intent (toHex record.cloid) = some durable ∧
    verifiedFill record durable equity = .ok fill ∧ validateFill fill = .ok () ∧
    ∃ existing ∈ held, existing.eqv fill = true

def OnRecord (registry : SubmissionRegistry D) (equity : D) (live : LiveTradingState D) :
    ExchangeEvent D → Prop
  | .fill record => Known live (.fill record) ∧ HeldWith registry equity live.verifiedFills record
  | .funding record => Known live (.funding record) ∧ record.asset ≠ "" ∧
      ∃ existing ∈ live.verifiedFunding, existing.eqv (verifiedFunding record) = true

/-- Nothing leaves the record, and the fills that are added carry this equity. -/
structure RecordGrows (equity : D) (live next : LiveTradingState D) : Prop where
  fills : live.appliedFills ⊆ next.appliedFills
  funding : live.appliedFunding ⊆ next.appliedFunding
  verified : live.verifiedFills ⊆ next.verifiedFills
  verifiedFunding : live.verifiedFunding ⊆ next.verifiedFunding
  added : ∀ fill ∈ next.verifiedFills, fill ∈ live.verifiedFills ∨ fill.exchangeEquityAfter = equity

omit [Sha256] [Decimal D] in
theorem RecordGrows.refl (live : LiveTradingState D) : RecordGrows equity live live :=
  ⟨List.Subset.refl _, List.Subset.refl _, List.Subset.refl _, List.Subset.refl _,
    fun _ hfill => .inl hfill⟩

omit [Sha256] [Decimal D] in
theorem RecordGrows.trans {a b c : LiveTradingState D} (hab : RecordGrows equity a b)
    (hbc : RecordGrows equity b c) : RecordGrows equity a c where
  fills := List.Subset.trans hab.fills hbc.fills
  funding := List.Subset.trans hab.funding hbc.funding
  verified := List.Subset.trans hab.verified hbc.verified
  verifiedFunding := List.Subset.trans hab.verifiedFunding hbc.verifiedFunding
  added fill hfill := by
    rcases hbc.added fill hfill with hmiddle | hequity
    · exact hab.added fill hmiddle
    · exact .inr hequity

variable {event : ExchangeEvent D} {live : LiveTradingState D}
  {next : LiveTradingState D × AppliedExchangeBatch D}

theorem OnRecord.mono {next : LiveTradingState D} (h : OnRecord registry equity live event)
    {added : D} (hgrows : RecordGrows added live next) : OnRecord registry equity next event := by
  cases event with
  | fill record =>
    obtain ⟨hknown, durable, fill, hintent, hfill, hvalid, existing, hexisting, hsame⟩ := h
    exact ⟨hgrows.fills hknown, durable, fill, hintent, hfill, hvalid, existing,
      hgrows.verified hexisting, hsame⟩
  | funding record =>
    obtain ⟨hknown, hasset, existing, hexisting, hsame⟩ := h
    exact ⟨hgrows.funding hknown, hasset, existing, hgrows.verifiedFunding hexisting, hsame⟩

theorem OnRecord.known (h : OnRecord registry equity live event) : Known live event := by
  cases event <;> exact h.1

variable {acc : LiveTradingState D × AppliedExchangeBatch D} {events : List (ExchangeEvent D)}
  {batch : AppliedExchangeBatch D}

theorem applyExchangeEvent_onRecord (h : applyExchangeEvent registry equity acc event = .ok next) :
    OnRecord registry equity next.1 event ∧ RecordGrows equity acc.1 next.1 := by
  cases event with
  | fill record =>
    unfold applyExchangeEvent at h
    cases hintent : registry.intent (toHex record.cloid) with
    | none =>
      simp only [hintent] at h
      cases h
    | some durable =>
      simp only [hintent] at h
      obtain ⟨fill, hfill, hrest⟩ := of_bind h
      obtain ⟨⟨result, live⟩, happly, hdone⟩ := of_bind hrest
      have hnext : next.1 = live := by cases result <;> cases hdone <;> rfl
      have hidentity := (reportsFill_of_verifiedFill hfill).identity
      rw [hnext]
      rcases applyExchangeFill_eq_ok (ledgerResult_eq_ok_iff.mp happly) with
        ⟨-, rfl, hvalid, hknown, hheld⟩ | ⟨accounting, closed, figures, books, -, happlies⟩
      · rw [hidentity] at hknown
        exact ⟨⟨hknown, durable, fill, hintent, hfill, hvalid, hheld⟩, .refl _⟩
      · have hmem : fill ∈ live.verifiedFills := by
          rw [happlies.next]
          simp [LiveTradingState.recordFill]
        have hknown : fill.identity ∈ live.appliedFills := by
          rw [happlies.next]
          simp [LiveTradingState.recordFill]
        rw [hidentity] at hknown
        refine ⟨⟨hknown, durable, fill, hintent, hfill, happlies.valid, fill, hmem, fill.eqv_refl⟩, ?_⟩
        rw [happlies.next]
        refine ⟨List.subset_append_left _ _, List.Subset.refl _, List.subset_append_left _ _,
          List.Subset.refl _, ?_⟩
        intro other hother
        rcases List.mem_append.mp hother with hbefore | hnew
        · exact .inl hbefore
        · obtain rfl := List.mem_singleton.mp hnew
          exact .inr (verifiedFill_withEquity hfill equity).1
  | funding record =>
    obtain ⟨⟨result, live⟩, happly, hdone⟩ := of_bind h
    have hnext : next.1 = live := by cases result <;> cases hdone <;> rfl
    rw [hnext]
    rcases applyFundingEvent_eq_ok (ledgerResult_eq_ok_iff.mp happly) with
      ⟨-, rfl, hasset, hknown, hheld⟩ | ⟨accounting, episode, funding, moved, -, happlies⟩
    · exact ⟨⟨hknown, hasset, hheld⟩, .refl _⟩
    · have hmem : verifiedFunding record ∈ live.verifiedFunding := by
        rw [happlies.next]
        simp [LiveTradingState.recordFunding]
      have hknown : (verifiedFunding record).eventId ∈ live.appliedFunding := by
        rw [happlies.next]
        simp [LiveTradingState.recordFunding]
      refine ⟨⟨hknown, happlies.named, _, hmem, (verifiedFunding record).eqv_refl⟩, ?_⟩
      rw [happlies.next]
      exact ⟨List.Subset.refl _, List.subset_append_left _ _, List.Subset.refl _,
        List.subset_append_left _ _, fun fill hfill => .inl hfill⟩

theorem foldlM_applyExchangeEvent_onRecord
    (h : events.foldlM (applyExchangeEvent registry equity) acc = .ok next) :
    (∀ event ∈ events, OnRecord registry equity next.1 event) ∧ RecordGrows equity acc.1 next.1 := by
  induction events generalizing acc with
  | nil =>
    cases h
    exact ⟨by simp, .refl _⟩
  | cons event rest ih =>
    rw [List.foldlM_cons] at h
    obtain ⟨middle, hmiddle, hrest⟩ := of_bind h
    obtain ⟨hrecord, hgrows⟩ := applyExchangeEvent_onRecord hmiddle
    obtain ⟨hrecords, hgrows'⟩ := ih hrest
    refine ⟨?_, hgrows.trans hgrows'⟩
    rw [List.forall_mem_cons]
    exact ⟨hrecord.mono hgrows', hrecords⟩

theorem applyExchangeEvent_known (hknown : Known live event) :
    applyExchangeEvent registry equity (live, batch) event = .ok next ↔
      next = (live, batch) ∧ OnRecord registry equity live event := by
  cases event with
  | fill record =>
    constructor
    · intro h
      unfold applyExchangeEvent at h
      cases hintent : registry.intent (toHex record.cloid) with
      | none =>
        simp only [hintent] at h
        cases h
      | some durable =>
        simp only [hintent] at h
        obtain ⟨fill, hfill, hrest⟩ := of_bind h
        obtain ⟨⟨result, state⟩, happly, hdone⟩ := of_bind hrest
        rcases applyExchangeFill_eq_ok (ledgerResult_eq_ok_iff.mp happly) with
          ⟨rfl, rfl, hvalid, -, hheld⟩ | ⟨accounting, closed, figures, books, -, happlies⟩
        · cases hdone
          exact ⟨rfl, hknown, durable, fill, hintent, hfill, hvalid, hheld⟩
        · refine absurd ?_ happlies.fresh
          rw [(reportsFill_of_verifiedFill hfill).identity]
          exact hknown
    · rintro ⟨rfl, -, durable, fill, hintent, hfill, hvalid, hheld⟩
      unfold applyExchangeEvent
      simp only [hintent]
      refine bind_eq_ok_iff.mpr ⟨fill, hfill, ?_⟩
      refine bind_eq_ok_iff.mpr ⟨(.alreadyApplied, live), ?_, rfl⟩
      rw [ledgerResult_eq_ok_iff]
      refine applyExchangeFill_on_record hvalid ?_ hheld
      rw [(reportsFill_of_verifiedFill hfill).identity]
      exact hknown
  | funding record =>
    constructor
    · intro h
      obtain ⟨⟨result, state⟩, happly, hdone⟩ := of_bind h
      rcases applyFundingEvent_eq_ok (ledgerResult_eq_ok_iff.mp happly) with
        ⟨rfl, rfl, hasset, -, hheld⟩ | ⟨accounting, episode, funding, moved, -, happlies⟩
      · cases hdone
        exact ⟨rfl, hknown, hasset, hheld⟩
      · exact absurd hknown happlies.fresh
    · rintro ⟨rfl, -, hasset, hheld⟩
      refine bind_eq_ok_iff.mpr ⟨(.alreadyApplied, live), ?_, rfl⟩
      rw [ledgerResult_eq_ok_iff]
      exact applyFundingEvent_on_record hasset hknown hheld

theorem foldlM_applyExchangeEvent_known (hknown : ∀ event ∈ events, Known live event) :
    events.foldlM (applyExchangeEvent registry equity) (live, batch) = .ok next ↔
      next = (live, batch) ∧ ∀ event ∈ events, OnRecord registry equity live event := by
  induction events with
  | nil =>
    rw [List.foldlM_nil, pure_eq_ok_iff]
    simp [eq_comm]
  | cons event rest ih =>
    rw [List.forall_mem_cons] at hknown
    rw [foldlM_cons_eq_ok_iff, List.forall_mem_cons]
    constructor
    · rintro ⟨middle, hmiddle, hrest⟩
      obtain ⟨rfl, hrecord⟩ := (applyExchangeEvent_known hknown.1).mp hmiddle
      obtain ⟨hnext, hrecords⟩ := (ih hknown.2).mp hrest
      exact ⟨hnext, hrecord, hrecords⟩
    · rintro ⟨hnext, hrecord, hrecords⟩
      exact ⟨(live, batch), (applyExchangeEvent_known hknown.1).mpr ⟨rfl, hrecord⟩,
        (ih hknown.2).mpr ⟨hnext, hrecords⟩⟩

end

section

variable [Sha256] {registry : SubmissionRegistry D} {state next : LiveTradingState D}
  {fills : EventBatch (UserFill D)} {funding : EventBatch (FundingRecord D)}
  {batch : AppliedExchangeBatch D} {equity other : D}

/-- The call succeeds with nothing newly applied, and leaves the positions, the episodes and the
settled equity. -/
def LeavesBooks (live : LiveTradingState D)
    (result : Except SignerError (LiveTradingState D × AppliedExchangeBatch D)) : Prop :=
  ∃ again, result = .ok (again, ⟨[], []⟩) ∧ again.ledger = live.ledger ∧
    again.positions = live.positions ∧ again.settledEquity = live.settledEquity

omit [Sha256] [Decimal D] in
theorem advanceFillCursor_eq_ok_iff {cursor : ℕ} :
    state.advanceFillCursor cursor = .ok next ↔
      state.fillCursorMs ≤ cursor ∧ { state with fillCursorMs := cursor } = next := by
  unfold LiveTradingState.advanceFillCursor
  by_cases hback : cursor < state.fillCursorMs
  · simp [hback]
  · simp [hback, not_lt.mp hback]

omit [Sha256] [Decimal D] in
theorem advanceFundingCursor_eq_ok_iff {cursor : ℕ} :
    state.advanceFundingCursor cursor = .ok next ↔
      state.fundingCursorMs ≤ cursor ∧ { state with fundingCursorMs := cursor } = next := by
  unfold LiveTradingState.advanceFundingCursor
  by_cases hback : cursor < state.fundingCursorMs
  · simp [hback]
  · simp [hback, not_lt.mp hback]

omit [Sha256] in
theorem reconcileEquity_eq_ok_iff :
    state.reconcileEquity equity = .ok next ↔ Decimal.le equity Decimal.zero = false ∧
      ({ state with currentEquity := equity } : LiveTradingState D).recomputeDeployment = next := by
  unfold LiveTradingState.reconcileEquity
  by_cases hle : Decimal.le equity Decimal.zero = true
  · simp [hle]
  · simp [hle]

theorem applyAuthenticatedBatches_eq_ok_iff :
    applyAuthenticatedBatches state registry fills funding equity = .ok (next, batch) ↔
      ¬ ConflictingNeighbours fills funding ∧
      ∃ applied, (sortedEvents fills funding).foldlM (applyExchangeEvent registry equity)
          (state, ⟨[], []⟩) = .ok (applied, batch) ∧
        applied.fillCursorMs ≤ fills.nextCursor.startTimeMs ∧
        applied.fundingCursorMs ≤ funding.nextCursor.startTimeMs ∧
        Decimal.le equity Decimal.zero = false ∧
        next = ({ applied with
          fillCursorMs := fills.nextCursor.startTimeMs
          fundingCursorMs := funding.nextCursor.startTimeMs
          currentEquity := equity } : LiveTradingState D).recomputeDeployment := by
  rw [← any_ambiguous_iff]
  unfold applyAuthenticatedBatches
  dsimp only
  split
  · rename_i hany
    simp [hany]
  · rename_i hany
    rw [and_iff_right hany]
    constructor
    · intro h
      obtain ⟨⟨applied, collected⟩, hevents, hadvance⟩ := of_bind h
      obtain ⟨filled, hfilled, hadvance'⟩ := of_bind hadvance
      obtain ⟨funded, hfunded, hequity⟩ := of_bind hadvance'
      obtain ⟨reconciled, hreconciled, hdone⟩ := of_bind hequity
      cases hdone
      rw [ledgerResult_eq_ok_iff] at hfilled hfunded hreconciled
      obtain ⟨hfill, rfl⟩ := advanceFillCursor_eq_ok_iff.mp hfilled
      obtain ⟨hfund, rfl⟩ := advanceFundingCursor_eq_ok_iff.mp hfunded
      obtain ⟨hpositive, rfl⟩ := reconcileEquity_eq_ok_iff.mp hreconciled
      exact ⟨applied, hevents, hfill, hfund, hpositive, rfl⟩
    · rintro ⟨applied, hevents, hfill, hfund, hpositive, rfl⟩
      refine bind_eq_ok_iff.mpr ⟨(applied, batch), hevents, ?_⟩
      refine bind_eq_ok_iff.mpr ⟨_, ledgerResult_eq_ok_iff.mpr
        (advanceFillCursor_eq_ok_iff.mpr ⟨hfill, rfl⟩), ?_⟩
      refine bind_eq_ok_iff.mpr ⟨_, ledgerResult_eq_ok_iff.mpr
        (advanceFundingCursor_eq_ok_iff.mpr ⟨hfund, rfl⟩), ?_⟩
      exact bind_eq_ok_iff.mpr ⟨_, ledgerResult_eq_ok_iff.mpr
        (reconcileEquity_eq_ok_iff.mpr ⟨hpositive, rfl⟩), rfl⟩

omit [Sha256] in
/-- After the first call a fill is on record for a batch with another equity exactly when the two
equities are equal or the fill was on record with the other one before. -/
theorem heldWith_iff {live : LiveTradingState D} {record : UserFill D}
    (hgrows : RecordGrows equity state live)
    (hrecord : HeldWith registry equity live.verifiedFills record)
    (hpositive : Decimal.lt Decimal.zero other = true) :
    HeldWith registry other live.verifiedFills record ↔
      Decimal.eqv equity other = true ∨ HeldWith registry other state.verifiedFills record := by
  obtain ⟨durable, fill, hintent, hfill, hvalid, existing, hexisting, hsame⟩ := hrecord
  obtain ⟨hequity, hother⟩ := verifiedFill_withEquity hfill other
  have hvalid' := validateFill_withEquity hvalid hpositive
  constructor
  · rintro ⟨durable', fill', hintent', hfill', -, held, hheld, hsame'⟩
    rw [hintent, Option.some.injEq] at hintent'
    subst hintent'
    rw [hother, Except.ok.injEq] at hfill'
    subst hfill'
    rcases hgrows.added held hheld with hbefore | hadded
    · exact .inr ⟨durable, _, hintent, hother, hvalid', held, hbefore, hsame'⟩
    · -- The fill this call put on record carries its equity.
      left
      unfold VerifiedExchangeFill.eqv at hsame'
      simp only [withEquity, Bool.and_eq_true] at hsame'
      rw [← hadded]
      exact hsame'.1.2
  · rintro (hequal | ⟨durable', fill', hintent', hfill', hvalid'', held, hheld, hsame'⟩)
    · refine ⟨durable, _, hintent, hother, hvalid', existing, hexisting, ?_⟩
      rw [eqv_withEquity_iff hsame, hequity]
      exact hequal
    · exact ⟨durable', fill', hintent', hfill', hvalid'', held, hgrows.verified hheld, hsame'⟩

/-- **A repeated batch.**  The same records with later cursors and a positive equity are accepted,
and change nothing in the books, exactly when the equity is that of the first call or every fill was
on record with the new equity before it. -/
theorem repeated_batches_iff
    (h : applyAuthenticatedBatches state registry fills funding equity = .ok (next, batch))
    (hpositive : Decimal.lt Decimal.zero other = true) {fillCursor fundingCursor : EventCursor}
    (hfillCursor : fills.nextCursor.startTimeMs ≤ fillCursor.startTimeMs)
    (hfundingCursor : funding.nextCursor.startTimeMs ≤ fundingCursor.startTimeMs) :
    LeavesBooks next (applyAuthenticatedBatches next registry ⟨fills.records, fillCursor⟩
        ⟨funding.records, fundingCursor⟩ other) ↔
      Decimal.eqv equity other = true ∨
        ∀ record ∈ fills.records, HeldWith registry other state.verifiedFills record := by
  obtain ⟨hclear, applied, hevents, -, -, -, hnext⟩ := applyAuthenticatedBatches_eq_ok_iff.mp h
  obtain ⟨hrecords, hgrows⟩ := foldlM_applyExchangeEvent_onRecord hevents
  -- The last steps of the call touch neither the records nor the books.
  have hrecords' : ∀ event ∈ sortedEvents fills funding, OnRecord registry equity next event := by
    intro event hevent
    have hrecord := hrecords event hevent
    rw [hnext]
    cases event <;> exact hrecord
  have hgrows' : RecordGrows equity state next := by
    rw [hnext]
    exact ⟨hgrows.fills, hgrows.funding, hgrows.verified, hgrows.verifiedFunding, hgrows.added⟩
  have hpositive' : Decimal.le other Decimal.zero = false := by
    rw [Bool.eq_false_iff, ne_eq, Decimal.le_iff, not_le]
    exact Decimal.lt_iff.mp hpositive
  have hsecond : LeavesBooks next (applyAuthenticatedBatches next registry
      ⟨fills.records, fillCursor⟩ ⟨funding.records, fundingCursor⟩ other) ↔
      ∀ event ∈ sortedEvents fills funding, OnRecord registry other next event := by
    have hknown : ∀ event ∈ sortedEvents fills funding, Known next event :=
      fun event hevent => (hrecords' event hevent).known
    constructor
    · rintro ⟨again, hagain, -⟩
      obtain ⟨-, applied', hevents', -⟩ := applyAuthenticatedBatches_eq_ok_iff.mp hagain
      exact ((foldlM_applyExchangeEvent_known hknown).mp hevents').2
    · intro honRecord
      refine ⟨_, applyAuthenticatedBatches_eq_ok_iff.mpr ⟨hclear, next,
        (foldlM_applyExchangeEvent_known hknown).mpr ⟨rfl, honRecord⟩, ?_, ?_, hpositive', rfl⟩,
        rfl, rfl, rfl⟩
      · rw [hnext]
        exact hfillCursor
      · rw [hnext]
        exact hfundingCursor
  rw [hsecond]
  constructor
  · intro honRecord
    by_cases hequal : Decimal.eqv equity other = true
    · exact .inl hequal
    · refine .inr fun record hrecord => ?_
      have hmem : ExchangeEvent.fill record ∈ sortedEvents fills funding :=
        mem_sortedEvents.mpr (.inl ⟨record, hrecord, rfl⟩)
      exact ((heldWith_iff hgrows' (hrecords' _ hmem).2 hpositive).mp
        (honRecord _ hmem).2).resolve_left hequal
  · intro hcondition event hevent
    have hrecord := hrecords' event hevent
    rcases mem_sortedEvents.mp hevent with ⟨record, hmem, rfl⟩ | ⟨record, -, rfl⟩
    · exact ⟨hrecord.1, (heldWith_iff hgrows' hrecord.2 hpositive).mpr
        (hcondition.imp_right fun hheld => hheld record hmem)⟩
    · exact hrecord

end

def oneFill : EventBatch (UserFill ℚ) := ⟨[unitFill 1 "1" "BTC" "B" 5], ⟨6, none⟩⟩

def noFundingRecords : EventBatch (FundingRecord ℚ) := ⟨[], ⟨6, none⟩⟩

theorem exists_applied {result : Except SignerError (LiveTradingState ℚ × AppliedExchangeBatch ℚ)}
    (h : result.toOption.isSome = true) : ∃ next batch, result = .ok (next, batch) := by
  cases result with
  | error error => cases h
  | ok value => exact ⟨value.1, value.2, rfl⟩

theorem repeated_batches_iff_oneFill : let _ : Sha256 := ⟨foldDigest⟩
    ∃ next : LiveTradingState ℚ,
      LeavesBooks next (applyAuthenticatedBatches next twoOrders ⟨oneFill.records, ⟨7, none⟩⟩
        ⟨noFundingRecords.records, ⟨7, none⟩⟩ 1000) := by
  intro _
  obtain ⟨next, batch, hfirst⟩ := exists_applied (by decide +kernel :
    (applyAuthenticatedBatches (.starting 1000 0) twoOrders oneFill noFundingRecords
      1000).toOption.isSome = true)
  exact ⟨next, (repeated_batches_iff hfirst (by decide +kernel) (by decide) (by decide)).mpr
    (.inl (by decide +kernel))⟩

theorem repeated_fill_refused :
    ¬ ∀ [Sha256] (state next : LiveTradingState ℚ) (registry : SubmissionRegistry ℚ)
      (fills : EventBatch (UserFill ℚ)) (funding : EventBatch (FundingRecord ℚ)) (equity other : ℚ)
      (batch : AppliedExchangeBatch ℚ),
      applyAuthenticatedBatches state registry fills funding equity = .ok (next, batch) →
      Decimal.lt Decimal.zero other = true →
      LeavesBooks next (applyAuthenticatedBatches next registry fills funding other) := by
  intro h
  let sha : Sha256 := ⟨foldDigest⟩
  obtain ⟨next, batch, hfirst⟩ := exists_applied (by decide +kernel :
    (applyAuthenticatedBatches (.starting 1000 0) twoOrders oneFill noFundingRecords
      1000).toOption.isSome = true)
  obtain ⟨again, hagain, -⟩ := h _ next twoOrders oneFill noFundingRecords 1000 1001 batch hfirst
    (by decide +kernel)
  have hrefused : ((applyAuthenticatedBatches (.starting (1000 : ℚ) 0) twoOrders oneFill
      noFundingRecords 1000).toOption.all fun first =>
        (applyAuthenticatedBatches first.1 twoOrders oneFill noFundingRecords
          1001).toOption.isNone) = true := by
    decide +kernel
  rw [hfirst] at hrefused
  simp [Except.toOption, hagain] at hrefused

end CopyTrade.Analysis
