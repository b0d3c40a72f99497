import CopyTrade.Analysis.Replay.FillFunding
import CopyTrade.Foundation.Runs

/-!
# The live state through every sequence of events

Events are delivered in any order, again and again, and are applied, on record already, or fail.
The live state keeps each of them once, its positions are the sums of its fills, and it passes the
checks of `load` (`SoundState`).
-/

namespace CopyTrade.Analysis

open Foundation Model
open Std (ExtTreeMap)

variable {D : Type} [Decimal D]

def withReportedGross (portfolio : EpisodeBook D) (last : PortfolioEpisode D) (gross net : D) :
    EpisodeBook D :=
  { portfolio with
    closed := portfolio.closed.dropLast ++ [{ last with realizedPnl := gross, netPnl := net }] }

variable {fill : VerifiedExchangeFill D} {state : LiveTradingState D}

theorem bookFill_eq_ok [Sha256] {books next : FillBooks D} {figures : FillFigures D}
    {closed : Option (PortfolioEpisode D)} (h : bookFill books fill figures = .ok (next, closed)) :
    ∃ portfolio gross,
      books.ledger.portfolio.apply (fillExecution fill figures) fill.occurredAt = .ok portfolio ∧
      Decimal.checkedAdd (books.exchangeGross[fill.asset]?.getD Decimal.zero)
        fill.exchangeClosedPnl = some gross ∧
      (portfolio.closed.length ≤ books.ledger.portfolio.closed.length ∧
          next = { books with
            ledger := { books.ledger with portfolio }
            exchangeGross := books.exchangeGross.insert fill.asset gross } ∨
        books.ledger.portfolio.closed.length < portfolio.closed.length ∧
          ∃ last net settled, portfolio.closed.getLast? = some last ∧
            EpisodeBook.netOf gross last.fees last.funding last.slippage = some net ∧
            Decimal.checkedAdd books.settledEquity net = some settled ∧
            next.ledger = { books.ledger with
              portfolio := withReportedGross portfolio last gross net } ∧
            next.exchangeGross = (books.exchangeGross.insert fill.asset gross).erase fill.asset ∧
            next.settledEquity = settled) := by
  unfold bookFill at h
  obtain ⟨ledger, hledger, h⟩ := of_bind h
  obtain ⟨gross, hgross, h⟩ := of_bind h
  unfold DualLedger.applyPortfolioExecution at hledger
  obtain ⟨portfolio, hportfolio, hledger⟩ := of_bind hledger
  rw [pure_eq_ok_iff] at hledger
  subst hledger
  refine ⟨portfolio, gross, hportfolio, EpisodeBook.orOverflow_eq_ok_iff.mp hgross, ?_⟩
  split at h
  · rename_i hcloses
    refine .inr ⟨hcloses, ?_⟩
    unfold settleClosed at h
    simp only [getElem?_insert_eq, if_true] at h
    obtain ⟨ledger, hledger, h⟩ := of_bind h
    unfold DualLedger.reconcileLastPortfolioGrossPnl at hledger
    cases hlast : portfolio.closed.getLast? with
    | none =>
      rw [hlast] at hledger
      cases hledger
    | some last =>
      simp only [hlast] at hledger
      split at hledger
      · cases hledger
      obtain ⟨net, hnet, hledger⟩ := of_bind hledger
      rw [pure_eq_ok_iff] at hledger
      subst hledger
      simp only [DualLedger.portfolioClosed, List.getLast?_concat] at h
      obtain ⟨settled, hsettled, h⟩ := of_bind h
      rw [pure_eq_ok_iff] at h
      cases h
      refine ⟨last, net, settled, rfl, EpisodeBook.orOverflow_eq_ok_iff.mp hnet,
        EpisodeBook.orOverflow_eq_ok_iff.mp hsettled, ?_, ?_, rfl⟩
      · unfold moveAttribution
        split <;> rfl
      · unfold moveAttribution
        split <;> rfl
  · rename_i hopened
    rw [pure_eq_ok_iff] at h
    cases h
    exact .inl ⟨not_lt.mp hopened, rfl⟩

/-- What a fill that is applied has passed and leaves. -/
structure AppliesFill [Sha256] (state : LiveTradingState D) (fill : VerifiedExchangeFill D)
    (figures : FillFigures D) (books : FillBooks D) (closed : Option (PortfolioEpisode D))
    (accounting : LiveFillAccounting D) (next : LiveTradingState D) : Prop where
  valid : validateFill fill = .ok ()
  fresh : fill.identity ∉ state.appliedFills
  figured : fillFigures state.ledger fill = .ok figures
  booked : bookFill state.books fill figures = .ok (books, closed)
  current : Decimal.le fill.exchangeEquityAfter Decimal.zero = false
  settled : Decimal.le books.settledEquity Decimal.zero = false
  recorded : accounting.identity = fill.identity
  next : next = (state.afterFill books fill.exchangeEquityAfter).recordFill fill accounting

theorem applyExchangeFill_eq_ok [Sha256] {next : LiveTradingState D} {result : AppliedFillResult D}
    (h : applyExchangeFill state fill = .ok (result, next)) :
    (result = .alreadyApplied ∧ next = state ∧ validateFill fill = .ok () ∧
        fill.identity ∈ state.appliedFills ∧
        ∃ existing ∈ state.verifiedFills, existing.eqv fill = true) ∨
      ∃ accounting closed figures books, result = .applied accounting closed ∧
        AppliesFill state fill figures books closed accounting next := by
  unfold applyExchangeFill at h
  obtain ⟨u, hvalid, h⟩ := of_bind h
  split at h
  · rename_i hknown
    split at h
    · rename_i hsame
      cases h
      exact .inl ⟨rfl, rfl, hvalid, List.contains_iff_mem.mp hknown, List.any_eq_true.mp hsame⟩
    · cases h
  rename_i hfresh
  obtain ⟨figures, hfigures, h⟩ := of_bind h
  obtain ⟨⟨books, closed⟩, hbook, h⟩ := of_bind h
  dsimp only at h
  split at h
  · cases h
  rename_i hequity
  simp only [Bool.or_eq_true, not_or, Bool.not_eq_true] at hequity
  cases h
  exact .inr ⟨_, closed, figures, books, rfl, hvalid,
    fun hmem => hfresh (List.contains_iff_mem.mpr hmem), hfigures, hbook, hequity.1, hequity.2,
    rfl, rfl⟩

/-- What a funding event that is applied has passed and leaves. -/
structure AppliesFunding (state : LiveTradingState D) (event : VerifiedFundingEvent D)
    (episode : OpenEpisode D) (funding equity : D) (next : LiveTradingState D) : Prop where
  named : event.asset ≠ ""
  fresh : event.eventId ∉ state.appliedFunding
  opened : state.ledger.portfolio.opened[event.asset]? = some episode
  cost : Decimal.checkedAdd episode.funding (Decimal.neg event.amount) = some funding
  moved : Decimal.checkedAdd state.currentEquity event.amount = some equity
  positive : Decimal.le equity Decimal.zero = false
  next : next = (state.afterFunding
    { state.ledger with
      portfolio := putEpisode state.ledger.portfolio event.asset (withFunding episode funding) }
    equity).recordFunding event

theorem applyFundingEvent_eq_ok {next : LiveTradingState D} {event : VerifiedFundingEvent D}
    {result : AppliedFundingResult D} (h : applyFundingEvent state event = .ok (result, next)) :
    (result = .alreadyApplied ∧ next = state ∧ event.asset ≠ "" ∧
        event.eventId ∈ state.appliedFunding ∧
        ∃ existing ∈ state.verifiedFunding, existing.eqv event = true) ∨
      ∃ accounting episode funding equity, result = .applied accounting ∧
        AppliesFunding state event episode funding equity next := by
  unfold applyFundingEvent at h
  split at h
  · cases h
  rename_i hasset
  have hnamed : event.asset ≠ "" := by simpa using hasset
  split at h
  · rename_i hknown
    split at h
    · rename_i hsame
      cases h
      exact .inl ⟨rfl, rfl, hnamed, List.contains_iff_mem.mp hknown, List.any_eq_true.mp hsame⟩
    · cases h
  rename_i hfresh
  obtain ⟨ledger, hledger, h⟩ := of_bind h
  obtain ⟨equity, hadd, h⟩ := of_bind h
  split at h
  · cases h
  rename_i hpositive
  cases h
  unfold DualLedger.applyPortfolioFunding at hledger
  cases hopen : state.ledger.portfolio.opened[event.asset]? with
  | none =>
    rw [hopen] at hledger
    cases hledger
  | some episode =>
    simp only [hopen] at hledger
    obtain ⟨funding, hfunding, hledger⟩ := of_bind hledger
    rw [pure_eq_ok_iff] at hledger
    subst hledger
    exact .inr ⟨_, episode, funding, equity, rfl, hnamed,
      fun hmem => hfresh (List.contains_iff_mem.mpr hmem), hopen,
      EpisodeBook.orOverflow_eq_ok_iff.mp hfunding, EpisodeBook.orOverflow_eq_ok_iff.mp hadd,
      by simpa using hpositive, rfl⟩

theorem applyExchangeFill_on_record [Sha256] (hvalid : validateFill fill = .ok ())
    (hknown : fill.identity ∈ state.appliedFills)
    (hrecord : ∃ existing ∈ state.verifiedFills, existing.eqv fill = true) :
    applyExchangeFill state fill = .ok (.alreadyApplied, state) := by
  unfold applyExchangeFill
  refine bind_eq_ok_iff.mpr ⟨(), hvalid, ?_⟩
  refine (if_pos (List.contains_iff_mem.mpr hknown)).trans ?_
  exact if_pos (List.any_eq_true.mpr hrecord)

theorem applyFundingEvent_on_record {event : VerifiedFundingEvent D} (hnamed : event.asset ≠ "")
    (hknown : event.eventId ∈ state.appliedFunding)
    (hrecord : ∃ existing ∈ state.verifiedFunding, existing.eqv event = true) :
    applyFundingEvent state event = .ok (.alreadyApplied, state) := by
  unfold applyFundingEvent
  rw [if_neg (by simpa using hnamed)]
  refine (if_pos (List.contains_iff_mem.mpr hknown)).trans ?_
  exact if_pos (List.any_eq_true.mpr hrecord)

def appliedFill [Sha256] (state : LiveTradingState D) :
    LiveCall D → Option ExchangeFillIdentity
  | .fill fill =>
    match applyExchangeFill state fill with
    | .ok (.applied _ _, _) => some fill.identity
    | _ => none
  | .funding _ => none

def appliedFundingId (state : LiveTradingState D) : LiveCall D → Option Hash
  | .funding event =>
    match applyFundingEvent state event with
    | .ok (.applied _, _) => some event.eventId
    | _ => none
  | .fill _ => none

def effects [Sha256] {α : Type} (applied : LiveTradingState D → LiveCall D → Option α) :
    LiveTradingState D → List (LiveCall D) → List α
  | _, [] => []
  | state, call :: calls =>
    (applied state call).toList ++ effects applied (state.after call) calls

/-- The sum of the signed quantities of the fills of an asset, in their order. -/
def signedSum (fills : List (VerifiedExchangeFill D)) (asset : String) : Option D :=
  (fills.filter fun fill => fill.asset == asset).foldlM
    (fun sum fill => Decimal.checkedAdd sum (fillDelta fill)) Decimal.zero

theorem signedSum_snoc (fills : List (VerifiedExchangeFill D)) (fill : VerifiedExchangeFill D)
    (asset : String) :
    signedSum (fills ++ [fill]) asset =
      if fill.asset = asset then
        (signedSum fills asset).bind fun sum => Decimal.checkedAdd sum (fillDelta fill)
      else signedSum fills asset := by
  unfold signedSum
  rw [List.filter_append]
  by_cases hasset : fill.asset = asset
  · rw [if_pos hasset, List.filter_cons_of_pos (by simpa using hasset), List.filter_nil,
      List.foldlM_append]
    simp only [List.foldlM_cons, List.foldlM_nil, bind_pure]
    rfl
  · rw [if_neg hasset, List.filter_cons_of_neg (by simpa using hasset), List.filter_nil,
      List.append_nil]

def SamePosition (a b : D) : Prop :=
  a = b ∨ Decimal.isZero a = true ∧ Decimal.isZero b = true

/-- What holds of a live state after any events. -/
structure SoundState (state : LiveTradingState D) : Prop where
  schema : state.schemaVersion = 1
  starting : Decimal.le state.startingEquity Decimal.zero = false
  current : Decimal.le state.currentEquity Decimal.zero = false
  settled : Decimal.le state.settledEquity Decimal.zero = false
  deployment : state.deploymentEquity = Decimal.min state.currentEquity state.settledEquity
  fills : state.appliedFills = state.verifiedFills.map VerifiedExchangeFill.identity
  fillEvents : state.fillEvents.map LiveFillAccounting.identity = state.appliedFills
  fillsOnce : state.appliedFills.Nodup
  funding : state.appliedFunding = state.verifiedFunding.map VerifiedFundingEvent.eventId
  fundingEvents : (state.fundingEvents.map fun record => record.event.eventId) =
    state.appliedFunding
  fundingOnce : state.appliedFunding.Nodup
  ledger : state.ledger.schemaVersion = 2
  sources : state.ledger.sources = ∅
  agrees : Agrees state.ledger.portfolio
  position : ∀ asset, ∃ sum, signedSum state.verifiedFills asset = some sum ∧
    SamePosition sum (state.position asset)

theorem soundState_new {startingEquity : D} {cursor : ℕ} {state : LiveTradingState D}
    (h : LiveTradingState.new startingEquity cursor = .ok state) : SoundState state := by
  unfold LiveTradingState.new at h
  split at h
  · cases h
  rename_i hpositive
  rw [Bool.not_eq_true] at hpositive
  cases h
  refine ⟨rfl, hpositive, hpositive, hpositive, ?_, rfl, rfl, List.nodup_nil, rfl, rfl,
    List.nodup_nil, rfl, rfl, agrees_empty, fun asset => ⟨Decimal.zero, rfl, .inl ?_⟩⟩
  · unfold LiveTradingState.starting Decimal.min
    split <;> rfl
  · have hnone : (EpisodeBook.empty : EpisodeBook D).opened[asset]? = none := by
      rw [show (EpisodeBook.empty : EpisodeBook D).opened = ∅ from rfl, ExtTreeMap.getElem?_empty]
    exact (position_of_getElem?_eq_none agrees_empty hnone).symm

section

variable [Sha256] [DecimalSumLaws D] {state next : LiveTradingState D}

variable {fill : VerifiedExchangeFill D} {call : LiveCall D}

omit [Sha256] in
theorem filledQuantity_nonzero (h : validateFill fill = .ok ()) :
    Decimal.isZero fill.filledQuantity = false := by
  unfold validateFill at h
  split at h
  · cases h
  rename_i hchecks
  simp only [Bool.or_eq_true, not_or, Decimal.le_iff, DecimalSumLaws.toRat_zero, not_le] at hchecks
  rw [isZero_eq_false_iff]
  exact hchecks.1.1.1.1.1.1.1.1.2.ne'

theorem position_apply {book after : EpisodeBook D} {execution : ShadowExecution D}
    {closedAt : ℕ} (hagrees : Agrees book)
    (hfills : Decimal.isZero execution.modeledFilledQuantity = false)
    (h : book.apply execution closedAt = .ok after) :
    ∃ sum, Decimal.checkedAdd (book.position execution.asset)
        (EpisodeBook.signedDelta execution) = some sum ∧
      ∀ asset, after.position asset =
        if execution.asset = asset then (if Decimal.isZero sum then Decimal.zero else sum)
        else book.position asset := by
  rw [EpisodeBook.apply_eq_ok_iff] at h
  obtain ⟨hbefore, ⟨hzero, _⟩ | ⟨_, price, sum, traded, hprice, hsum, hmatches, htraded, rfl⟩⟩ := h
  · rw [hfills] at hzero
    cases hzero
  refine ⟨sum, hsum, fun asset => ?_⟩
  obtain ⟨honly, -⟩ := trade_holds hagrees (signedDelta_nonzero hfills) hsum htraded
  unfold EpisodeBook.position EpisodeBook.setPosition
  rw [honly.positions]
  cases Decimal.isZero sum with
  | true =>
    rw [if_pos rfl, getElem?_erase_eq]
    split <;> rfl
  | false =>
    rw [if_neg Bool.false_ne_true, getElem?_insert_eq]
    split <;> rfl

omit [Sha256] in
theorem samePosition_add {sum position delta after : D} (hsame : SamePosition sum position)
    (h : Decimal.checkedAdd position delta = some after) :
    ∃ sum', Decimal.checkedAdd sum delta = some sum' ∧
      SamePosition sum' (if Decimal.isZero after then Decimal.zero else after) := by
  have hfollows : Decimal.checkedAdd sum delta = some after := by
    rcases hsame with rfl | ⟨hsum, hposition⟩
    · exact h
    · rw [DecimalSumLaws.add_comm, DecimalZeroLaws.add_zero _ _ hposition] at h
      rw [DecimalSumLaws.add_comm, DecimalZeroLaws.add_zero _ _ hsum, h]
  refine ⟨after, hfollows, ?_⟩
  unfold SamePosition
  cases hzero : Decimal.isZero after with
  | true => exact .inr ⟨rfl, isZero_zero⟩
  | false => exact .inl rfl

omit [DecimalSumLaws D] in
theorem bookFill_portfolio {books after : FillBooks D} {figures : FillFigures D}
    {closed : Option (PortfolioEpisode D)} (h : bookFill books fill figures = .ok (after, closed)) :
    ∃ portfolio,
      books.ledger.portfolio.apply (fillExecution fill figures) fill.occurredAt = .ok portfolio ∧
      after.ledger.portfolio.positions = portfolio.positions ∧
      after.ledger.portfolio.opened = portfolio.opened ∧
      after.ledger.schemaVersion = books.ledger.schemaVersion ∧
      after.ledger.sources = books.ledger.sources := by
  obtain ⟨portfolio, gross, hportfolio, -, ⟨-, rfl⟩ |
    ⟨-, last, net, settled, -, -, -, hledger, -, -⟩⟩ := bookFill_eq_ok h
  · exact ⟨portfolio, hportfolio, rfl, rfl, rfl, rfl⟩
  · rw [hledger]
    exact ⟨portfolio, hportfolio, rfl, rfl, rfl, rfl⟩

theorem appliesFill_sound {figures : FillFigures D} {books : FillBooks D}
    {closed : Option (PortfolioEpisode D)} {accounting : LiveFillAccounting D}
    (hsound : SoundState state) (h : AppliesFill state fill figures books closed accounting next) :
    SoundState next := by
  obtain ⟨portfolio, hportfolio, hpositions, hopened, hschema, hsources⟩ :=
    bookFill_portfolio h.booked
  have hfills := filledQuantity_nonzero h.valid
  have hagrees := apply_agrees hsound.agrees hportfolio
  obtain ⟨after, hafter, hposition⟩ := position_apply hsound.agrees hfills hportfolio
  have hafter : Decimal.checkedAdd (state.position fill.asset) (fillDelta fill) = some after :=
    hafter
  have hposition : ∀ asset, portfolio.position asset =
      if fill.asset = asset then (if Decimal.isZero after then Decimal.zero else after)
      else state.position asset := hposition
  have hnext := h.next
  subst hnext
  refine ⟨hsound.schema, hsound.starting, h.current, h.settled, rfl, ?_, ?_, ?_, hsound.funding,
    hsound.fundingEvents, hsound.fundingOnce, hschema.trans hsound.ledger,
    hsources.trans hsound.sources, ⟨?_, ?_⟩, fun asset => ?_⟩
  · show state.appliedFills ++ [fill.identity] = (state.verifiedFills ++ [fill]).map _
    rw [List.map_append, ← hsound.fills]
    rfl
  · show (state.fillEvents ++ [accounting]).map _ = state.appliedFills ++ [fill.identity]
    rw [List.map_append, hsound.fillEvents, List.map_singleton, h.recorded]
  · show (state.appliedFills ++ [fill.identity]).Nodup
    rw [List.nodup_append]
    refine ⟨hsound.fillsOnce, List.nodup_singleton _, fun known hknown identity hidentity => ?_⟩
    rw [List.mem_singleton] at hidentity
    rintro rfl
    exact h.fresh (hidentity ▸ hknown)
  · show ∀ asset : String, books.ledger.portfolio.positions[asset]? =
      books.ledger.portfolio.opened[asset]?.map OpenEpisode.signedQuantity
    rw [hpositions, hopened]
    exact hagrees.quantity
  · show ∀ (asset : String) (quantity : D),
      books.ledger.portfolio.positions[asset]? = some quantity → Decimal.isZero quantity = false
    rw [hpositions]
    exact hagrees.nonzero
  · show ∃ sum, signedSum (state.verifiedFills ++ [fill]) asset = some sum ∧
      SamePosition sum (books.ledger.portfolio.position asset)
    have hbooks : books.ledger.portfolio.position asset = portfolio.position asset := by
      unfold EpisodeBook.position
      rw [hpositions]
    obtain ⟨sum, hsum, hsame⟩ := hsound.position asset
    rw [signedSum_snoc, hbooks, hposition, hsum]
    by_cases hasset : fill.asset = asset
    · rw [if_pos hasset, if_pos hasset, Option.bind_some]
      rw [← hasset] at hsame
      exact samePosition_add hsame hafter
    · rw [if_neg hasset, if_neg hasset]
      exact ⟨sum, rfl, hsame⟩

omit [Sha256] [DecimalSumLaws D] in
theorem appliesFunding_sound {event : VerifiedFundingEvent D} {episode : OpenEpisode D}
    {funding equity : D} (hsound : SoundState state)
    (h : AppliesFunding state event episode funding equity next) : SoundState next := by
  have hnext := h.next
  subst hnext
  refine ⟨hsound.schema, hsound.starting, h.positive, hsound.settled, rfl, hsound.fills,
    hsound.fillEvents, hsound.fillsOnce, ?_, ?_, ?_, hsound.ledger, hsound.sources,
    ⟨fun asset => ?_, hsound.agrees.nonzero⟩, hsound.position⟩
  · show state.appliedFunding ++ [event.eventId] = (state.verifiedFunding ++ [event]).map _
    rw [List.map_append, ← hsound.funding]
    rfl
  · show (state.fundingEvents ++ [_]).map _ = state.appliedFunding ++ [event.eventId]
    rw [List.map_append, hsound.fundingEvents]
    rfl
  · show (state.appliedFunding ++ [event.eventId]).Nodup
    rw [List.nodup_append]
    refine ⟨hsound.fundingOnce, List.nodup_singleton _, fun known hknown id hid => ?_⟩
    rw [List.mem_singleton] at hid
    rintro rfl
    exact h.fresh (hid ▸ hknown)
  · show state.ledger.portfolio.positions[asset]? =
      (state.ledger.portfolio.opened.insert event.asset
        (withFunding episode funding))[asset]?.map OpenEpisode.signedQuantity
    rw [hsound.agrees.quantity, getElem?_insert_eq]
    by_cases hasset : event.asset = asset
    · rw [if_pos hasset, ← hasset, h.opened]
      rfl
    · rw [if_neg hasset]

section

omit [DecimalSumLaws D]

theorem call_eq_ok (h : state.call call = .ok next) :
    (next = state ∧ appliedFill state call = none ∧ appliedFundingId state call = none) ∨
      (∃ fill figures books closed accounting, call = .fill fill ∧
        appliedFill state call = some fill.identity ∧ appliedFundingId state call = none ∧
        AppliesFill state fill figures books closed accounting next) ∨
      ∃ event episode funding equity, call = .funding event ∧
        appliedFill state call = none ∧ appliedFundingId state call = some event.eventId ∧
        AppliesFunding state event episode funding equity next := by
  cases call with
  | fill fill =>
    obtain ⟨⟨outcome, state'⟩, happly, ⟨⟩⟩ := map_eq_ok_iff.mp h
    unfold appliedFill appliedFundingId
    dsimp only
    rw [happly]
    rcases applyExchangeFill_eq_ok happly with ⟨rfl, rfl, -⟩ |
      ⟨accounting, closed, figures, books, rfl, happlies⟩
    · exact .inl ⟨rfl, rfl, rfl⟩
    · exact .inr (.inl ⟨fill, figures, books, closed, accounting, rfl, rfl, rfl, happlies⟩)
  | funding event =>
    obtain ⟨⟨outcome, state'⟩, happly, ⟨⟩⟩ := map_eq_ok_iff.mp h
    unfold appliedFill appliedFundingId
    dsimp only
    rw [happly]
    rcases applyFundingEvent_eq_ok happly with ⟨rfl, rfl, -⟩ |
      ⟨accounting, episode, funding, equity, rfl, happlies⟩
    · exact .inl ⟨rfl, rfl, rfl⟩
    · exact .inr (.inr ⟨event, episode, funding, equity, rfl, rfl, rfl, happlies⟩)

theorem after_of_call_ok (h : state.call call = .ok next) : state.after call = next := by
  unfold LiveTradingState.after
  rw [h]

theorem after_of_call_error {error : LedgerError} (h : state.call call = .error error) :
    state.after call = state := by
  unfold LiveTradingState.after
  rw [h]

end

theorem after_sound (call : LiveCall D) (hsound : SoundState state) :
    SoundState (state.after call) ∧
      (state.after call).appliedFills = state.appliedFills ++ (appliedFill state call).toList ∧
      (state.after call).appliedFunding =
        state.appliedFunding ++ (appliedFundingId state call).toList ∧
      state.verifiedFills <+: (state.after call).verifiedFills ∧
      state.verifiedFunding <+: (state.after call).verifiedFunding := by
  unfold LiveTradingState.after
  cases h : state.call call with
  | error e =>
    have hnone : appliedFill state call = none ∧ appliedFundingId state call = none := by
      unfold LiveTradingState.call at h
      unfold appliedFill appliedFundingId
      cases call with
      | fill fill =>
        cases happly : applyExchangeFill state fill with
        | error e' =>
          dsimp only
          rw [happly]
          exact ⟨rfl, rfl⟩
        | ok result =>
          simp only [happly] at h
          cases h
      | funding event =>
        cases happly : applyFundingEvent state event with
        | error e' =>
          dsimp only
          rw [happly]
          exact ⟨rfl, rfl⟩
        | ok result =>
          simp only [happly] at h
          cases h
    rw [hnone.1, hnone.2]
    exact ⟨hsound, (List.append_nil _).symm, (List.append_nil _).symm, List.prefix_rfl,
      List.prefix_rfl⟩
  | ok next =>
    rcases call_eq_ok h with ⟨rfl, hfill, hfunding⟩ |
      ⟨fill, figures, books, closed, accounting, -, hfill, hfunding, happlies⟩ |
      ⟨event, episode, funding, equity, -, hfill, hfunding, happlies⟩
    · rw [hfill, hfunding]
      exact ⟨hsound, (List.append_nil _).symm, (List.append_nil _).symm, List.prefix_rfl,
        List.prefix_rfl⟩
    · rw [hfill, hfunding]
      refine ⟨appliesFill_sound hsound happlies, ?_⟩
      rw [happlies.next]
      exact ⟨rfl, (List.append_nil _).symm, List.prefix_append _ _, List.prefix_rfl⟩
    · rw [hfill, hfunding]
      refine ⟨appliesFunding_sound hsound happlies, ?_⟩
      rw [happlies.next]
      exact ⟨(List.append_nil _).symm, rfl, List.prefix_rfl, List.prefix_append _ _⟩

theorem run_after_sound (calls : List (LiveCall D)) (hsound : SoundState state) :
    SoundState (run LiveTradingState.after state calls) ∧
      (run LiveTradingState.after state calls).appliedFills =
        state.appliedFills ++ effects appliedFill state calls ∧
      (run LiveTradingState.after state calls).appliedFunding =
        state.appliedFunding ++ effects appliedFundingId state calls ∧
      state.verifiedFills <+: (run LiveTradingState.after state calls).verifiedFills ∧
      state.verifiedFunding <+: (run LiveTradingState.after state calls).verifiedFunding := by
  induction calls generalizing state with
  | nil =>
    exact ⟨hsound, (List.append_nil _).symm, (List.append_nil _).symm, List.prefix_rfl,
      List.prefix_rfl⟩
  | cons call calls ih =>
    obtain ⟨hafter, hfills, hfunding, hkept, hkept'⟩ := after_sound call hsound
    obtain ⟨hrun, hfills', hfunding', hkept'', hkept'''⟩ := ih hafter
    rw [run_cons]
    refine ⟨hrun, ?_, ?_, hkept.trans hkept'', hkept'.trans hkept'''⟩
    · rw [hfills', hfills, List.append_assoc]
      rfl
    · rw [hfunding', hfunding, List.append_assoc]
      rfl

theorem redelivery_unchanged {calls : List (LiveCall D)} (hsound : SoundState state)
    (h : state.call call = .ok next) :
    (run LiveTradingState.after next calls).call call =
      .ok (run LiveTradingState.after next calls) := by
  have hnext : SoundState next := after_of_call_ok h ▸ (after_sound call hsound).1
  obtain ⟨hrun, hfills, hfunding, hkept, hkept'⟩ := run_after_sound calls hnext
  cases call with
  | fill fill =>
    obtain ⟨hvalid, hknown, hrecord⟩ : validateFill fill = .ok () ∧
        fill.identity ∈ next.appliedFills ∧
        ∃ existing ∈ next.verifiedFills, existing.eqv fill = true := by
      obtain ⟨_, happly, ⟨⟩⟩ := map_eq_ok_iff.mp h
      rcases applyExchangeFill_eq_ok happly with ⟨-, hsame, hvalid, hknown, hrecord⟩ |
        ⟨accounting, closed, figures, books, -, happlies⟩
      · rw [hsame]
        exact ⟨hvalid, hknown, hrecord⟩
      · rw [happlies.next]
        refine ⟨happlies.valid, List.mem_append_right _ (List.mem_singleton_self _), fill,
          List.mem_append_right _ (List.mem_singleton_self _), ?_⟩
        exact VerifiedExchangeFill.eqv_refl fill
    obtain ⟨existing, hexisting, hsame⟩ := hrecord
    unfold LiveTradingState.call
    dsimp only
    rw [applyExchangeFill_on_record hvalid (hfills ▸ List.mem_append_left _ hknown)
      ⟨existing, hkept.subset hexisting, hsame⟩]
    rfl
  | funding event =>
    obtain ⟨hnamed, hknown, hrecord⟩ : event.asset ≠ "" ∧
        event.eventId ∈ next.appliedFunding ∧
        ∃ existing ∈ next.verifiedFunding, existing.eqv event = true := by
      obtain ⟨_, happly, ⟨⟩⟩ := map_eq_ok_iff.mp h
      rcases applyFundingEvent_eq_ok happly with ⟨-, hsame, hnamed, hknown, hrecord⟩ |
        ⟨accounting, episode, funding, equity, -, happlies⟩
      · rw [hsame]
        exact ⟨hnamed, hknown, hrecord⟩
      · rw [happlies.next]
        refine ⟨happlies.named, List.mem_append_right _ (List.mem_singleton_self _), event,
          List.mem_append_right _ (List.mem_singleton_self _), ?_⟩
        exact VerifiedFundingEvent.eqv_refl event
    obtain ⟨existing, hexisting, hsame⟩ := hrecord
    unfold LiveTradingState.call
    dsimp only
    rw [applyFundingEvent_on_record hnamed (hfunding ▸ List.mem_append_left _ hknown)
      ⟨existing, hkept'.subset hexisting, hsame⟩]
    rfl

section

omit [Sha256] [DecimalSumLaws D]

theorem validateLoaded_of_sound (hsound : SoundState state) : state.validateLoaded = .ok () := by
  have hfillEvents : (state.fillEvents.map LiveFillAccounting.identity).toFinset.card =
      state.fillEvents.length := by
    rw [hsound.fillEvents, List.toFinset_card_of_nodup hsound.fillsOnce, ← hsound.fillEvents,
      List.length_map]
  have hfundingEvents : (state.fundingEvents.map fun record => record.event.eventId).toFinset.card =
      state.fundingEvents.length := by
    rw [hsound.fundingEvents, List.toFinset_card_of_nodup hsound.fundingOnce,
      ← hsound.fundingEvents, List.length_map]
  unfold LiveTradingState.validateLoaded
  rw [if_neg (by
    simp [hsound.schema, hsound.starting, hsound.current, hsound.settled, hsound.deployment])]
  refine if_neg ?_
  rw [hfillEvents, hfundingEvents, hsound.fillEvents, hsound.fundingEvents]
  simp

theorem validateIntegrity_of_soundState (hsound : SoundState state) :
    state.ledger.validateIntegrity = .ok () := by
  refine validateIntegrity_of_agrees hsound.ledger fun name => ?_
  cases name with
  | portfolio => exact hsound.agrees
  | source candidateId =>
    unfold DualLedger.book
    dsimp only
    rw [hsound.sources, ExtTreeMap.getElem?_empty]
    exact agrees_empty

theorem samePosition_eqv {a b : D} (h : SamePosition a b) : Decimal.eqv a b = true := by
  rcases h with rfl | ⟨ha, hb⟩
  · exact Decimal.eqv_refl a
  · rw [Decimal.eqv_iff, isZero_iff.mp ha, isZero_iff.mp hb]

end

/-- What holds at the end of a run of events. -/
structure LiveIntegrity (start : LiveTradingState D) (calls : List (LiveCall D)) : Prop where
  /-- No fill identity and no funding id takes effect twice. -/
  fillsOnce : (effects appliedFill start calls).Nodup
  fundingOnce : (effects appliedFundingId start calls).Nodup
  /-- An event that was accepted before is accepted again and changes nothing. -/
  redelivery : ∀ before call rest next, calls = before ++ call :: rest →
    (run LiveTradingState.after start before).call call = .ok next →
    (run LiveTradingState.after start calls).call call =
      .ok (run LiveTradingState.after start calls)
  /-- An event that fails changes nothing. -/
  failure : ∀ call error, (run LiveTradingState.after start calls).call call = .error error →
    (run LiveTradingState.after start calls).after call = run LiveTradingState.after start calls
  positions : ∀ asset, ∃ sum,
    signedSum (run LiveTradingState.after start calls).verifiedFills asset = some sum ∧
      Decimal.eqv sum ((run LiveTradingState.after start calls).position asset) = true
  ledger : (run LiveTradingState.after start calls).ledger.validateIntegrity = .ok ()
  deployment : (run LiveTradingState.after start calls).deploymentEquity =
    Decimal.min (run LiveTradingState.after start calls).currentEquity
      (run LiveTradingState.after start calls).settledEquity
  loads : (run LiveTradingState.after start calls).validateLoaded = .ok ()

/-- **The live state keeps its integrity**, in every run of events, valid or not. -/
theorem live_state_integrity {startingEquity : D} {cursor : ℕ} {start : LiveTradingState D}
    (hnew : LiveTradingState.new startingEquity cursor = .ok start) (calls : List (LiveCall D)) :
    LiveIntegrity start calls := by
  have hstart := soundState_new hnew
  obtain ⟨hsound, hfills, hfunding, -, -⟩ := run_after_sound calls hstart
  refine ⟨?_, ?_, ?_, ?_, ?_, validateIntegrity_of_soundState hsound, hsound.deployment,
    validateLoaded_of_sound hsound⟩
  · have honce := hsound.fillsOnce
    rw [hfills] at honce
    exact (List.nodup_append.mp honce).2.1
  · have honce := hsound.fundingOnce
    rw [hfunding] at honce
    exact (List.nodup_append.mp honce).2.1
  · rintro before call rest next rfl hcall
    obtain ⟨hbefore, -⟩ := run_after_sound before hstart
    rw [run_append, run_cons, after_of_call_ok hcall]
    exact redelivery_unchanged hbefore hcall
  · intro call error hcall
    exact after_of_call_error hcall
  · intro asset
    obtain ⟨sum, hsum, hsame⟩ := hsound.position asset
    exact ⟨sum, hsum, samePosition_eqv hsame⟩

end

def sampleVerifiedFill (trade : String) (side : Side) (price closedPnl : ℚ) (occurredAt : ℕ) :
    VerifiedExchangeFill ℚ where
  identity := ⟨"7", trade, Bytes.replicate 16 1⟩
  decisionId := Bytes.replicate 32 0
  targetVersion := 1
  rootCloid := Bytes.replicate 16 1
  parentCloid := none
  continuationGeneration := 0
  asset := "BTC"
  side := side
  reduceOnly := false
  filledQuantity := 1
  averageFillPrice := price
  submittedLimitPrice := price
  feeAmount := 1
  exchangeClosedPnl := closedPnl
  feeAsset := "USDC"
  liquidity := .taker
  decisionReferencePrice := price
  occurredAt := occurredAt
  decisionTimestamp := 0
  exchangeEquityAfter := 1000
  sourceHash := Bytes.replicate 32 0

/-- A purchase that is delivered twice, and the sale that closes it. -/
def duplicatedFill : List (LiveCall ℚ) :=
  [.fill (sampleVerifiedFill "1" .buy 100 0 1), .fill (sampleVerifiedFill "1" .buy 100 0 1),
    .fill (sampleVerifiedFill "2" .sell 110 10 2)]

theorem live_state_integrity_duplicatedFill :
    ∃ (_ : Sha256), LiveIntegrity (LiveTradingState.starting (1000 : ℚ) 0) duplicatedFill := by
  let sha : Sha256 := ⟨prefixDigest⟩
  have hnew : LiveTradingState.new (1000 : ℚ) 0 = .ok (LiveTradingState.starting 1000 0) := by
    decide +kernel
  exact ⟨sha, live_state_integrity hnew duplicatedFill⟩

end CopyTrade.Analysis
