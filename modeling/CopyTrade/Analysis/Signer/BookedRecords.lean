import CopyTrade.Analysis.Ledger.LiveIntegrity
import CopyTrade.Model.Signer.Reconciliation

/-!
# The records of a batch in the ledger

A batch that is applied leaves each of its fills and funding records on record in the live state,
under an identity that stands there once; what was on record before stays.
-/

namespace CopyTrade.Analysis

open Foundation Model

variable {D : Type} [Decimal D]

/-- The live state lists each event it has on record once. -/
structure RecordsOnce (live : LiveTradingState D) : Prop where
  fills : live.appliedFills = live.verifiedFills.map VerifiedExchangeFill.identity
  fillsOnce : live.appliedFills.Nodup
  funding : live.appliedFunding = live.verifiedFunding.map VerifiedFundingEvent.eventId
  fundingOnce : live.appliedFunding.Nodup

structure ReportsFill (fill : VerifiedExchangeFill D) (record : UserFill D) : Prop where
  identity : fill.identity = ⟨record.exchangeOrderId, record.tradeId, record.cloid⟩
  asset : fill.asset = record.asset
  quantity : Decimal.toRat fill.filledQuantity = Decimal.toRat record.quantity
  price : Decimal.toRat fill.averageFillPrice = Decimal.toRat record.price
  fee : Decimal.toRat fill.feeAmount = Decimal.toRat record.fee
  closedPnl : Decimal.toRat fill.exchangeClosedPnl = Decimal.toRat record.closedPnl
  occurredAt : fill.occurredAt = record.occurredAtMs

structure ReportsFunding [Sha256] (event : VerifiedFundingEvent D) (record : FundingRecord D) :
    Prop where
  eventId : event.eventId = fundingId record.eventHash
  asset : event.asset = record.asset
  amount : Decimal.toRat event.amount = Decimal.toRat record.signedUsdcDelta
  occurredAt : event.occurredAt = record.occurredAtMs

def EventBooked [Sha256] (live : LiveTradingState D) : ExchangeEvent D → Prop
  | .fill record => ∃ fill ∈ live.verifiedFills, ReportsFill fill record
  | .funding record => ∃ event ∈ live.verifiedFunding, ReportsFunding event record

/-- What was on record is on record, the cursors stand where they stood. -/
structure KeepsRecords (live next : LiveTradingState D) : Prop where
  fills : live.verifiedFills <+: next.verifiedFills
  funding : live.verifiedFunding <+: next.verifiedFunding
  fillCursor : next.fillCursorMs = live.fillCursorMs
  fundingCursor : next.fundingCursorMs = live.fundingCursorMs

omit [Decimal D] in
theorem KeepsRecords.refl (live : LiveTradingState D) : KeepsRecords live live :=
  ⟨List.prefix_rfl, List.prefix_rfl, rfl, rfl⟩

omit [Decimal D] in
theorem KeepsRecords.trans {a b c : LiveTradingState D} (hab : KeepsRecords a b)
    (hbc : KeepsRecords b c) : KeepsRecords a c :=
  ⟨hab.fills.trans hbc.fills, hab.funding.trans hbc.funding,
    hbc.fillCursor.trans hab.fillCursor, hbc.fundingCursor.trans hab.fundingCursor⟩

variable {event : ExchangeEvent D} {exchangeEquity : D} {record : UserFill D}
  {fills : EventBatch (UserFill D)} {funding : EventBatch (FundingRecord D)}

theorem EventBooked.keep [Sha256] {live next : LiveTradingState D} (h : EventBooked live event)
    (hkeep : KeepsRecords live next) : EventBooked next event := by
  cases event with
  | fill record =>
    obtain ⟨fill, hfill, hreports⟩ := h
    exact ⟨fill, hkeep.fills.subset hfill, hreports⟩
  | funding record =>
    obtain ⟨event, hevent, hreports⟩ := h
    exact ⟨event, hkeep.funding.subset hevent, hreports⟩

theorem ledgerResult_eq_ok_iff {α : Type} {result : Except LedgerError α} {a : α} :
    ledgerResult result = .ok a ↔ result = .ok a := by
  cases result with
  | ok b => exact ⟨fun h => by cases h; rfl, fun h => by cases h; rfl⟩
  | error e => exact iff_of_false (fun h => nomatch h) (fun h => nomatch h)

theorem reportsFill_of_verifiedFill {durable : ApprovedExecutionIntent D}
    {fill : VerifiedExchangeFill D} (h : verifiedFill record durable exchangeEquity = .ok fill) :
    ReportsFill fill record := by
  unfold verifiedFill at h
  dsimp only at h
  generalize (if durable.isBuy = true then "B" else "A") = side at h
  split at h
  · cases h
  obtain ⟨decision, -, hroot⟩ := of_bind h
  obtain ⟨root, -, hparent⟩ := of_bind hroot
  obtain ⟨parent, -, hfill⟩ := of_bind hparent
  cases hfill
  exact ⟨rfl, rfl, rfl, rfl, rfl, rfl, rfl⟩

theorem ReportsFill.of_eqv {existing fill : VerifiedExchangeFill D} (h : ReportsFill fill record)
    (hsame : existing.eqv fill = true) : ReportsFill existing record := by
  unfold VerifiedExchangeFill.eqv at hsame
  simp only [Bool.and_eq_true, beq_iff_eq, Decimal.eqv_iff] at hsame
  exact ⟨by rw [← h.identity]; simp only [hsame], by rw [← h.asset]; simp only [hsame],
    by rw [← h.quantity]; simp only [hsame], by rw [← h.price]; simp only [hsame],
    by rw [← h.fee]; simp only [hsame], by rw [← h.closedPnl]; simp only [hsame],
    by rw [← h.occurredAt]; simp only [hsame]⟩

theorem ReportsFunding.of_eqv [Sha256] {existing event : VerifiedFundingEvent D}
    {record : FundingRecord D} (h : ReportsFunding event record)
    (hsame : existing.eqv event = true) : ReportsFunding existing record := by
  unfold VerifiedFundingEvent.eqv at hsame
  simp only [Bool.and_eq_true, beq_iff_eq, Decimal.eqv_iff] at hsame
  exact ⟨by rw [← h.eventId]; simp only [hsame], by rw [← h.asset]; simp only [hsame],
    by rw [← h.amount]; simp only [hsame], by rw [← h.occurredAt]; simp only [hsame]⟩

section

variable [Sha256] {registry : SubmissionRegistry D} {exchangeEquity : D}

theorem applyExchangeFill_keeps {live next : LiveTradingState D} {fill : VerifiedExchangeFill D}
    {result : AppliedFillResult D} (hlive : RecordsOnce live)
    (h : applyExchangeFill live fill = .ok (result, next)) :
    RecordsOnce next ∧ KeepsRecords live next ∧
      ∃ existing ∈ next.verifiedFills, existing.eqv fill = true := by
  rcases applyExchangeFill_eq_ok h with ⟨-, rfl, -, -, existing, hexisting, hsame⟩ |
    ⟨accounting, closed, figures, books, -, happlies⟩
  · exact ⟨hlive, .refl next, existing, hexisting, hsame⟩
  · have hfresh := happlies.fresh
    rw [happlies.next]
    refine ⟨⟨?_, ?_, hlive.funding, hlive.fundingOnce⟩,
      ⟨List.prefix_append _ _, List.prefix_rfl, rfl, rfl⟩, fill,
      List.mem_append_right _ (List.mem_singleton_self fill), fill.eqv_refl⟩
    · change live.appliedFills ++ [fill.identity] =
        (live.verifiedFills ++ [fill]).map VerifiedExchangeFill.identity
      rw [List.map_append, ← hlive.fills, List.map_singleton]
    · exact List.nodup_append.mpr ⟨hlive.fillsOnce, List.nodup_singleton _,
        fun a ha b hb => by
          rw [List.mem_singleton] at hb
          rintro rfl
          exact hfresh (hb ▸ ha)⟩

omit [Sha256] in
theorem applyFundingEvent_keeps {live next : LiveTradingState D} {event : VerifiedFundingEvent D}
    {result : AppliedFundingResult D} (hlive : RecordsOnce live)
    (h : applyFundingEvent live event = .ok (result, next)) :
    RecordsOnce next ∧ KeepsRecords live next ∧
      ∃ existing ∈ next.verifiedFunding, existing.eqv event = true := by
  rcases applyFundingEvent_eq_ok h with ⟨-, rfl, -, -, existing, hexisting, hsame⟩ |
    ⟨accounting, episode, funding, equity, -, happlies⟩
  · exact ⟨hlive, .refl next, existing, hexisting, hsame⟩
  · have hfresh := happlies.fresh
    rw [happlies.next]
    refine ⟨⟨hlive.fills, hlive.fillsOnce, ?_, ?_⟩,
      ⟨List.prefix_rfl, List.prefix_append _ _, rfl, rfl⟩, event,
      List.mem_append_right _ (List.mem_singleton_self event), event.eqv_refl⟩
    · change live.appliedFunding ++ [event.eventId] =
        (live.verifiedFunding ++ [event]).map VerifiedFundingEvent.eventId
      rw [List.map_append, ← hlive.funding, List.map_singleton]
    · exact List.nodup_append.mpr ⟨hlive.fundingOnce, List.nodup_singleton _,
        fun a ha b hb => by
          rw [List.mem_singleton] at hb
          rintro rfl
          exact hfresh (hb ▸ ha)⟩

theorem applyExchangeEvent_keeps {acc next : LiveTradingState D × AppliedExchangeBatch D}
    {event : ExchangeEvent D} (hacc : RecordsOnce acc.1)
    (h : applyExchangeEvent registry exchangeEquity acc event = .ok next) :
    RecordsOnce next.1 ∧ KeepsRecords acc.1 next.1 ∧ EventBooked next.1 event := by
  cases event with
  | fill record =>
    unfold applyExchangeEvent at h
    cases hintent : registry.intent (toHex record.cloid) with
    | none =>
      simp only [hintent] at h
      cases h
    | some durable =>
      simp only [hintent] at h
      obtain ⟨fill, hfill, hrest⟩ := of_bind h
      obtain ⟨⟨result, live⟩, happly, hdone⟩ := of_bind hrest
      have hnext : next.1 = live := by
        cases result <;> cases hdone <;> rfl
      obtain ⟨honce, hkeep, existing, hexisting, hsame⟩ :=
        applyExchangeFill_keeps hacc (ledgerResult_eq_ok_iff.mp happly)
      rw [hnext]
      exact ⟨honce, hkeep, existing, hexisting, (reportsFill_of_verifiedFill hfill).of_eqv hsame⟩
  | funding record =>
    obtain ⟨⟨result, live⟩, happly, hdone⟩ := of_bind h
    have hnext : next.1 = live := by
      cases result <;> cases hdone <;> rfl
    obtain ⟨honce, hkeep, existing, hexisting, hsame⟩ :=
      applyFundingEvent_keeps hacc (ledgerResult_eq_ok_iff.mp happly)
    have hreports : ReportsFunding (verifiedFunding record) record := ⟨rfl, rfl, rfl, rfl⟩
    rw [hnext]
    exact ⟨honce, hkeep, existing, hexisting, hreports.of_eqv hsame⟩

theorem foldlM_applyExchangeEvent_keeps {events : List (ExchangeEvent D)}
    {acc next : LiveTradingState D × AppliedExchangeBatch D} (hacc : RecordsOnce acc.1)
    (h : events.foldlM (applyExchangeEvent registry exchangeEquity) acc = .ok next) :
    RecordsOnce next.1 ∧ KeepsRecords acc.1 next.1 ∧ ∀ event ∈ events, EventBooked next.1 event := by
  induction events generalizing acc with
  | nil =>
    cases h
    exact ⟨hacc, .refl _, fun event hevent => nomatch hevent⟩
  | cons event rest ih =>
    rw [List.foldlM_cons] at h
    obtain ⟨middle, hmiddle, hrest⟩ := of_bind h
    obtain ⟨honce, hkeep, hbooked⟩ := applyExchangeEvent_keeps hacc hmiddle
    obtain ⟨honce', hkeep', hbooked'⟩ := ih honce hrest
    refine ⟨honce', hkeep.trans hkeep', fun other hother => ?_⟩
    rcases List.mem_cons.mp hother with rfl | hother
    · exact hbooked.keep hkeep'
    · exact hbooked' other hother

end

omit [Decimal D] in
theorem mem_sortedEvents : event ∈ sortedEvents fills funding ↔
      (∃ record ∈ fills.records, ExchangeEvent.fill record = event) ∨
        ∃ record ∈ funding.records, ExchangeEvent.funding record = event := by
  unfold sortedEvents
  rw [(List.perm_insertionSort ExchangeEvent.keyLe _).mem_iff, List.mem_append, List.mem_map,
    List.mem_map]

/-- What a batch that is applied leaves behind: its records, and its cursors. -/
structure BatchBooked [Sha256] (live : LiveTradingState D) (fills : EventBatch (UserFill D))
    (funding : EventBatch (FundingRecord D)) (next : LiveTradingState D) : Prop where
  once : RecordsOnce next
  keptFills : live.verifiedFills <+: next.verifiedFills
  keptFunding : live.verifiedFunding <+: next.verifiedFunding
  fillsBooked : ∀ record ∈ fills.records, EventBooked next (.fill record)
  fundingBooked : ∀ record ∈ funding.records, EventBooked next (.funding record)
  fillCursor : next.fillCursorMs = fills.nextCursor.startTimeMs
  fundingCursor : next.fundingCursorMs = funding.nextCursor.startTimeMs

theorem batchBooked_of_apply [Sha256] {live next : LiveTradingState D}
    {registry : SubmissionRegistry D} {batch : AppliedExchangeBatch D} (hlive : RecordsOnce live)
    (h : applyAuthenticatedBatches live registry fills funding exchangeEquity =
      .ok (next, batch)) : BatchBooked live fills funding next := by
  unfold applyAuthenticatedBatches at h
  dsimp only at h
  split at h
  · cases h
  obtain ⟨⟨applied, collected⟩, hevents, hadvance⟩ := of_bind h
  obtain ⟨filled, hfilled, hadvance'⟩ := of_bind hadvance
  obtain ⟨funded, hfunded, hequity⟩ := of_bind hadvance'
  obtain ⟨reconciled, hreconciled, hdone⟩ := of_bind hequity
  cases hdone
  obtain ⟨honce, hkeep, hbooked⟩ := foldlM_applyExchangeEvent_keeps hlive hevents
  rw [ledgerResult_eq_ok_iff] at hfilled hfunded hreconciled
  unfold LiveTradingState.advanceFillCursor at hfilled
  unfold LiveTradingState.advanceFundingCursor at hfunded
  unfold LiveTradingState.reconcileEquity at hreconciled
  split at hfilled <;> cases hfilled
  split at hfunded <;> cases hfunded
  split at hreconciled <;> cases hreconciled
  have hevent : ∀ event ∈ sortedEvents fills funding, EventBooked
      (({ applied with
        fillCursorMs := fills.nextCursor.startTimeMs
        fundingCursorMs := funding.nextCursor.startTimeMs
        currentEquity := exchangeEquity } : LiveTradingState D).recomputeDeployment) event := by
    intro event hmem
    have hbooked := hbooked event hmem
    cases event <;> exact hbooked
  exact ⟨⟨honce.fills, honce.fillsOnce, honce.funding, honce.fundingOnce⟩, hkeep.fills,
    hkeep.funding, fun record hrecord => hevent _ (mem_sortedEvents.mpr (.inl ⟨record, hrecord, rfl⟩)),
    fun record hrecord => hevent _ (mem_sortedEvents.mpr (.inr ⟨record, hrecord, rfl⟩)), rfl, rfl⟩

end CopyTrade.Analysis
