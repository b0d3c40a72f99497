import CopyTrade.Analysis.Ledger.PositionAgreement
import CopyTrade.Model.Core.LiveTrading

/-!
# Exchanging a funding event and a fill

The signer applies fills and funding events in exchange order; the outbox lists all new fills before
all new funding events.  A fill that leaves the episode of an asset open carries its funding along,
so the two may be exchanged; after one that closes it there is nothing to fund.

`Booked` is the part of the live state that does not depend on the equity figure.
-/

namespace CopyTrade.Analysis

open Foundation Model

variable {D : Type} [Decimal D]

/-- The ledger of a live state, its attributions and settled equity, and what it has applied. -/
structure Booked (D : Type) where
  books : FillBooks D
  appliedFills : List ExchangeFillIdentity
  appliedFunding : List Hash
  verifiedFills : List (VerifiedExchangeFill D)
  verifiedFunding : List (VerifiedFundingEvent D)

omit [Decimal D] in
def booked (state : LiveTradingState D) : Booked D where
  books := state.books
  appliedFills := state.appliedFills
  appliedFunding := state.appliedFunding
  verifiedFills := state.verifiedFills
  verifiedFunding := state.verifiedFunding

def fillBooked [Sha256] (b : Booked D) (fill : VerifiedExchangeFill D) :
    Except LedgerError (Booked D) := do
  validateFill fill
  if b.appliedFills.contains fill.identity then .error .invalidExecution
  else
    let figures ← fillFigures b.books.ledger fill
    let (books, _) ← bookFill b.books fill figures
    if Decimal.le fill.exchangeEquityAfter Decimal.zero
        || Decimal.le books.settledEquity Decimal.zero then
      .error .invalidExecution
    else
      pure { b with
        books
        appliedFills := b.appliedFills ++ [fill.identity]
        verifiedFills := b.verifiedFills ++ [fill] }

def fundBooked (b : Booked D) (event : VerifiedFundingEvent D) :
    Except LedgerError (Booked D) :=
  if event.asset == "" || b.appliedFunding.contains event.eventId then .error .invalidExecution
  else do
    let ledger ← b.books.ledger.applyPortfolioFunding event.asset (Decimal.neg event.amount)
    pure { b with
      books := { b.books with ledger }
      appliedFunding := b.appliedFunding ++ [event.eventId]
      verifiedFunding := b.verifiedFunding ++ [event] }

/-- The equity after a funding event, if it stays positive. -/
def fundedEquity (equity : D) (event : VerifiedFundingEvent D) : Option D :=
  (Decimal.checkedAdd equity event.amount).filter fun next => !Decimal.le next Decimal.zero

variable {closed : Option (PortfolioEpisode D)} {fill : VerifiedExchangeFill D}
  {state : LiveTradingState D} {b : Booked D} {event : VerifiedFundingEvent D}

variable {next : LiveTradingState D} {episode : OpenEpisode D}

theorem applyExchangeFill_applied [Sha256] {accounting : LiveFillAccounting D}
    (h : applyExchangeFill state fill = .ok (.applied accounting closed, next)) :
    fillBooked (booked state) fill = .ok (booked next) ∧
      next.currentEquity = fill.exchangeEquityAfter := by
  unfold applyExchangeFill at h
  obtain ⟨u, hvalid, h⟩ := of_bind h
  split at h
  · split at h
    · cases h
    · cases h
  rename_i hfresh
  obtain ⟨figures, hfigures, h⟩ := of_bind h
  obtain ⟨⟨books, episode⟩, hbook, h⟩ := of_bind h
  dsimp only at h
  split at h
  · cases h
  rename_i hequity
  cases h
  refine ⟨?_, rfl⟩
  unfold fillBooked
  refine bind_eq_ok_iff.mpr ⟨u, hvalid, ?_⟩
  refine (if_neg hfresh).trans ?_
  refine bind_eq_ok_iff.mpr ⟨figures, hfigures, ?_⟩
  refine bind_eq_ok_iff.mpr ⟨(books, closed), hbook, ?_⟩
  exact if_neg hequity

theorem applyExchangeFill_of_booked [Sha256] (h : fillBooked (booked state) fill = .ok b) :
    ∃ accounting closed next,
      applyExchangeFill state fill = .ok (.applied accounting closed, next) ∧ booked next = b ∧
        next.currentEquity = fill.exchangeEquityAfter := by
  unfold fillBooked at h
  obtain ⟨u, hvalid, h⟩ := of_bind h
  split at h
  · cases h
  rename_i hfresh
  obtain ⟨figures, hfigures, h⟩ := of_bind h
  obtain ⟨⟨books, episode⟩, hbook, h⟩ := of_bind h
  dsimp only at h
  split at h
  · cases h
  rename_i hequity
  cases h
  let next := state.afterFill books fill.exchangeEquityAfter
  let accounting := fillAccounting next fill figures state.openEpisodeAttribution[fill.asset]?
  refine ⟨accounting, episode, next.recordFill fill accounting, ?_, rfl, rfl⟩
  unfold applyExchangeFill
  refine bind_eq_ok_iff.mpr ⟨u, hvalid, ?_⟩
  refine (if_neg hfresh).trans ?_
  refine bind_eq_ok_iff.mpr ⟨figures, hfigures, ?_⟩
  refine bind_eq_ok_iff.mpr ⟨(books, episode), hbook, ?_⟩
  exact if_neg hequity

theorem applyExchangeFill_alreadyApplied [Sha256]
    (h : applyExchangeFill state fill = .ok (.alreadyApplied, next)) : next = state := by
  unfold applyExchangeFill at h
  obtain ⟨u, hvalid, h⟩ := of_bind h
  split at h
  · split at h
    · cases h
      rfl
    · cases h
  · obtain ⟨figures, hfigures, h⟩ := of_bind h
    obtain ⟨⟨books, episode⟩, hbook, h⟩ := of_bind h
    dsimp only at h
    split at h
    · cases h
    · cases h

theorem applyFundingEvent_applied {accounting : FundingAccounting D}
    (h : applyFundingEvent state event = .ok (.applied accounting, next)) :
    fundBooked (booked state) event = .ok (booked next) ∧
      fundedEquity state.currentEquity event = some next.currentEquity := by
  unfold applyFundingEvent at h
  split at h
  · cases h
  rename_i hasset
  split at h
  · split at h
    · cases h
    · cases h
  rename_i hfresh
  obtain ⟨ledger, hledger, h⟩ := of_bind h
  obtain ⟨equity, hadd, h⟩ := of_bind h
  split at h
  · cases h
  rename_i hpositive
  cases h
  refine ⟨?_, ?_⟩
  · unfold fundBooked
    have hguard : ¬ (event.asset == "" || (booked state).appliedFunding.contains event.eventId) =
        true := by
      simp only [Bool.or_eq_true, not_or]
      exact ⟨hasset, hfresh⟩
    rw [if_neg hguard]
    exact bind_eq_ok_iff.mpr ⟨ledger, hledger, rfl⟩
  · unfold orOverflow at hadd
    cases hsum : Decimal.checkedAdd state.currentEquity event.amount with
    | none =>
      rw [hsum] at hadd
      cases hadd
    | some sum =>
      rw [hsum] at hadd
      cases hadd
      simp only [fundedEquity, hsum, Option.filter_some, hpositive, Bool.not_false, if_true]
      rfl

theorem applyFundingEvent_of_booked {equity : D} (h : fundBooked (booked state) event = .ok b)
    (hequity : fundedEquity state.currentEquity event = some equity) :
    ∃ accounting next, applyFundingEvent state event = .ok (.applied accounting, next) ∧
      booked next = b ∧ next.currentEquity = equity := by
  unfold fundBooked at h
  split at h
  · cases h
  rename_i hguard
  simp only [Bool.or_eq_true, not_or] at hguard
  obtain ⟨hasset, hfresh⟩ := hguard
  obtain ⟨ledger, hledger, h⟩ := of_bind h
  cases h
  obtain ⟨hsum, hpositive⟩ := Option.filter_eq_some_iff.mp hequity
  have hpositive' : ¬ Decimal.le equity Decimal.zero = true := by
    rw [Bool.not_eq_true]
    simpa only [Bool.not_eq_true'] using hpositive
  let next := state.afterFunding ledger equity
  refine ⟨fundingAccounting next event, next.recordFunding event, ?_, rfl, rfl⟩
  unfold applyFundingEvent
  rw [if_neg hasset]
  refine (if_neg hfresh).trans ?_
  refine bind_eq_ok_iff.mpr ⟨ledger, hledger, ?_⟩
  refine bind_eq_ok_iff.mpr ⟨equity, by simp only [hsum, orOverflow], ?_⟩
  exact if_neg hpositive'

theorem applyFundingEvent_alreadyApplied
    (h : applyFundingEvent state event = .ok (.alreadyApplied, next)) : next = state := by
  unfold applyFundingEvent at h
  split at h
  · cases h
  split at h
  · split at h
    · cases h
      rfl
    · cases h
  · obtain ⟨ledger, hledger, h⟩ := of_bind h
    obtain ⟨equity, hadd, h⟩ := of_bind h
    split at h
    · cases h
    · cases h

def putEpisode (book : EpisodeBook D) (asset : String) (episode : OpenEpisode D) :
    EpisodeBook D :=
  { book with opened := book.opened.insert asset episode }

def withFunding (episode : OpenEpisode D) (funding : D) : OpenEpisode D :=
  { episode with funding }

/-- The fill leaves no open episode of its asset behind, or leaves one and opens another: it
closes the episode or flips the position. -/
def closesEpisode (book : EpisodeBook D) (asset : String) (delta : D) : Bool :=
  match book.opened[asset]? with
  | none => false
  | some episode =>
    let closing := Decimal.min (Decimal.abs delta) (Decimal.abs episode.signedQuantity)
    let signedClose :=
      if Decimal.isSignPositive episode.signedQuantity then Decimal.neg closing else closing
    !EpisodeBook.sameDirection (book.position asset) delta &&
      ((Decimal.checkedAdd episode.signedQuantity signedClose).any Decimal.isZero ||
        (Decimal.checkedSub (Decimal.abs delta) closing).any fun residual =>
          !Decimal.isZero residual)

omit [Decimal D] in
theorem putEpisode_putEpisode (book : EpisodeBook D) (asset : String)
    (first second : OpenEpisode D) :
    putEpisode (putEpisode book asset first) asset second = putEpisode book asset second := by
  simp only [putEpisode, insert_insert_self]

omit [Decimal D] in
theorem putEpisode_of_getElem? {book : EpisodeBook D} {asset : String}
    (h : book.opened[asset]? = some episode) : putEpisode book asset episode = book := by
  simp only [putEpisode, insert_of_getElem? h]

section

variable [Sha256] {book next : EpisodeBook D} {execution : ShadowExecution D} {asset : String}
  (episode : OpenEpisode D)

theorem openNew_putEpisode {price quantity fraction : D} (hother : asset ≠ execution.asset)
    (h : book.openNew execution price quantity fraction = .ok next) :
    (putEpisode book asset episode).openNew execution price quantity fraction =
      .ok (putEpisode next asset episode) := by
  unfold EpisodeBook.openNew at h ⊢
  obtain ⟨sequence, hsequence, h⟩ := of_bind h
  obtain ⟨notional, hnotional, h⟩ := of_bind h
  obtain ⟨opened, hopened, h⟩ := of_bind h
  rw [pure_eq_ok_iff] at h
  subst h
  refine bind_eq_ok_iff.mpr ⟨sequence, hsequence, ?_⟩
  refine bind_eq_ok_iff.mpr ⟨notional, hnotional, ?_⟩
  refine bind_eq_ok_iff.mpr ⟨opened, hopened, ?_⟩
  simp only [pure_eq_ok_iff, putEpisode, insert_comm _ hother]

theorem addSameDirection_putEpisode {price delta : D} (hother : asset ≠ execution.asset)
    (h : book.addSameDirection execution price delta = .ok next) :
    (putEpisode book asset episode).addSameDirection execution price delta =
      .ok (putEpisode next asset episode) := by
  have hget : (putEpisode book asset episode).opened[execution.asset]? =
      book.opened[execution.asset]? := getElem?_insert_of_ne hother episode
  unfold EpisodeBook.addSameDirection at h ⊢
  rw [hget]
  cases hopen : book.opened[execution.asset]? with
  | none =>
    rw [hopen] at h
    exact openNew_putEpisode episode hother h
  | some current =>
    simp only [hopen] at h ⊢
    obtain ⟨grown, hgrown, h⟩ := of_bind h
    rw [pure_eq_ok_iff] at h
    subst h
    refine bind_eq_ok_iff.mpr ⟨grown, hgrown, ?_⟩
    simp only [pure_eq_ok_iff, putEpisode, insert_comm _ hother]

omit [Sha256] in
theorem finishEpisode_putEpisode {key : String} {closedAt : ℕ} (hother : asset ≠ key)
    (h : book.finishEpisode key closedAt = .ok next) :
    (putEpisode book asset episode).finishEpisode key closedAt =
      .ok (putEpisode next asset episode) := by
  have hget : (putEpisode book asset episode).opened[key]? = book.opened[key]? :=
    getElem?_insert_of_ne hother episode
  unfold EpisodeBook.finishEpisode at h ⊢
  rw [hget]
  cases hopen : book.opened[key]? with
  | none =>
    rw [hopen] at h
    cases h
  | some current =>
    simp only [hopen] at h ⊢
    obtain ⟨closed, hclosed, h⟩ := of_bind h
    rw [pure_eq_ok_iff] at h
    subst h
    refine bind_eq_ok_iff.mpr ⟨closed, hclosed, ?_⟩
    simp only [pure_eq_ok_iff, putEpisode, erase_insert_comm _ hother]

theorem closeOrFlip_putEpisode {price delta : D} {closedAt : ℕ}
    (hother : asset ≠ execution.asset)
    (h : book.closeOrFlip execution price delta closedAt = .ok next) :
    (putEpisode book asset episode).closeOrFlip execution price delta closedAt =
      .ok (putEpisode next asset episode) := by
  have hget : (putEpisode book asset episode).opened[execution.asset]? =
      book.opened[execution.asset]? := getElem?_insert_of_ne hother episode
  unfold EpisodeBook.closeOrFlip at h ⊢
  rw [hget]
  cases hopen : book.opened[execution.asset]? with
  | none =>
    rw [hopen] at h
    cases h
  | some current =>
    simp only [hopen] at h ⊢
    obtain ⟨fraction, hfraction, h⟩ := of_bind h
    obtain ⟨reduced, hreduced, h⟩ := of_bind h
    obtain ⟨settled, hsettled, h⟩ := of_bind h
    obtain ⟨residual, hresidual, h⟩ := of_bind h
    refine bind_eq_ok_iff.mpr ⟨fraction, hfraction, ?_⟩
    refine bind_eq_ok_iff.mpr ⟨reduced, hreduced, ?_⟩
    have hheld : { putEpisode book asset episode with
        opened := (putEpisode book asset episode).opened.insert execution.asset reduced } =
          putEpisode { book with opened := book.opened.insert execution.asset reduced } asset
            episode := by
      simp only [putEpisode, insert_comm _ hother]
    refine bind_eq_ok_iff.mpr ⟨putEpisode settled asset episode, ?_, ?_⟩
    · rw [hheld]
      split at hsettled
      · rename_i hzero
        rw [if_pos hzero]
        exact finishEpisode_putEpisode episode hother hsettled
      · rename_i hopened
        cases hsettled
        rw [if_neg hopened]
    · refine bind_eq_ok_iff.mpr ⟨residual, hresidual, ?_⟩
      split at h
      · rename_i hzero
        rw [pure_eq_ok_iff] at h
        rw [if_pos hzero, pure_eq_ok_iff, h]
      · rename_i hflips
        obtain ⟨rest, hrest, h⟩ := of_bind h
        rw [if_neg hflips]
        exact bind_eq_ok_iff.mpr ⟨rest, hrest, openNew_putEpisode episode hother h⟩

end

section

variable [DecimalZeroLaws D] {episode next : OpenEpisode D} {execution : ShadowExecution D}

theorem addFraction_zero (current fraction : D) (name : String) :
    EpisodeBook.addFraction current Decimal.zero fraction name = .ok current := by
  obtain ⟨part, hpart, hzero⟩ := DecimalZeroLaws.zero_mul fraction
  unfold EpisodeBook.addFraction
  rw [hpart]
  exact congrArg (orOverflow name) (DecimalZeroLaws.add_zero current part hzero)

theorem addCosts_withFunding {fraction : D} (hfunding : execution.funding = Decimal.zero)
    (h : EpisodeBook.addCosts episode execution fraction = .ok next) (funding : D) :
    next.funding = episode.funding ∧
      EpisodeBook.addCosts (withFunding episode funding) execution fraction =
        .ok (withFunding next funding) := by
  unfold EpisodeBook.addCosts at h ⊢
  rw [hfunding] at h ⊢
  obtain ⟨fees, hfees, h⟩ := of_bind h
  obtain ⟨sum, hsum, h⟩ := of_bind h
  obtain ⟨slippage, hslippage, h⟩ := of_bind h
  rw [addFraction_zero] at hsum
  cases hsum
  rw [pure_eq_ok_iff] at h
  subst h
  refine ⟨rfl, ?_⟩
  refine bind_eq_ok_iff.mpr ⟨fees, hfees, ?_⟩
  refine bind_eq_ok_iff.mpr ⟨funding, addFraction_zero _ _ _, ?_⟩
  exact bind_eq_ok_iff.mpr ⟨slippage, hslippage, rfl⟩

theorem grow_withFunding {price delta : D} (hfunding : execution.funding = Decimal.zero)
    (h : EpisodeBook.grow episode execution price delta = .ok next) (funding : D) :
    next.funding = episode.funding ∧
      EpisodeBook.grow (withFunding episode funding) execution price delta =
        .ok (withFunding next funding) := by
  unfold EpisodeBook.grow at h ⊢
  obtain ⟨total, htotal, h⟩ := of_bind h
  obtain ⟨oldValue, holdValue, h⟩ := of_bind h
  obtain ⟨addedValue, haddedValue, h⟩ := of_bind h
  obtain ⟨average, haverage, h⟩ := of_bind h
  obtain ⟨quantity, hquantity, h⟩ := of_bind h
  obtain ⟨notional, hnotional, h⟩ := of_bind h
  obtain ⟨hsame, hcosts⟩ := addCosts_withFunding hfunding h funding
  refine ⟨hsame, ?_⟩
  refine bind_eq_ok_iff.mpr ⟨total, htotal, ?_⟩
  refine bind_eq_ok_iff.mpr ⟨oldValue, holdValue, ?_⟩
  refine bind_eq_ok_iff.mpr ⟨addedValue, haddedValue, ?_⟩
  refine bind_eq_ok_iff.mpr ⟨average, haverage, ?_⟩
  refine bind_eq_ok_iff.mpr ⟨quantity, hquantity, ?_⟩
  exact bind_eq_ok_iff.mpr ⟨notional, hnotional, hcosts⟩

theorem reduce_withFunding {price quantity fraction : D}
    (hfunding : execution.funding = Decimal.zero)
    (h : EpisodeBook.reduce episode execution price quantity fraction = .ok next) (funding : D) :
    next.funding = episode.funding ∧
      EpisodeBook.reduce (withFunding episode funding) execution price quantity fraction =
        .ok (withFunding next funding) := by
  unfold EpisodeBook.reduce at h ⊢
  obtain ⟨unit, hunit, h⟩ := of_bind h
  obtain ⟨pnl, hpnl, h⟩ := of_bind h
  obtain ⟨realized, hrealized, h⟩ := of_bind h
  obtain ⟨exit, hexit, h⟩ := of_bind h
  obtain ⟨exitNotional, hexitNotional, h⟩ := of_bind h
  obtain ⟨charged, hcharged, h⟩ := of_bind h
  obtain ⟨signed, hsigned, h⟩ := of_bind h
  rw [pure_eq_ok_iff] at h
  subst h
  obtain ⟨hsame, hcosts⟩ := addCosts_withFunding hfunding hcharged funding
  refine ⟨hsame, ?_⟩
  refine bind_eq_ok_iff.mpr ⟨unit, hunit, ?_⟩
  refine bind_eq_ok_iff.mpr ⟨pnl, hpnl, ?_⟩
  refine bind_eq_ok_iff.mpr ⟨realized, hrealized, ?_⟩
  refine bind_eq_ok_iff.mpr ⟨exit, hexit, ?_⟩
  refine bind_eq_ok_iff.mpr ⟨exitNotional, hexitNotional, ?_⟩
  refine bind_eq_ok_iff.mpr ⟨withFunding charged funding, hcosts, ?_⟩
  exact bind_eq_ok_iff.mpr ⟨signed, hsigned, rfl⟩

end

section

variable [Sha256] {book next : EpisodeBook D} {execution : ShadowExecution D} {asset : String}

variable {closedAt : ℕ} {episode : OpenEpisode D}

theorem apply_putEpisode (episode : OpenEpisode D) (hother : asset ≠ execution.asset)
    (h : book.apply execution closedAt = .ok next) :
    (putEpisode book asset episode).apply execution closedAt =
      .ok (putEpisode next asset episode) := by
  rw [EpisodeBook.apply_eq_ok_iff] at h ⊢
  obtain ⟨hbefore, ⟨hzero, hafter, rfl⟩ | ⟨hquantity, price, after, traded, hprice, hadd, hmatches,
    htraded, rfl⟩⟩ := h
  · exact ⟨hbefore, .inl ⟨hzero, hafter, rfl⟩⟩
  refine ⟨hbefore, .inr ⟨hquantity, price, after, putEpisode traded asset episode, hprice, hadd,
    hmatches, ?_, rfl⟩⟩
  unfold EpisodeBook.trade at htraded ⊢
  split at htraded
  · rename_i hdirection
    refine (if_pos hdirection).trans ?_
    exact addSameDirection_putEpisode episode hother htraded
  · rename_i hdirection
    refine (if_neg hdirection).trans ?_
    exact closeOrFlip_putEpisode episode hother htraded

theorem closeOrFlip_withFunding [DecimalZeroLaws D] {price : D}
    (hfunding : execution.funding = Decimal.zero)
    (hopen : book.opened[execution.asset]? = some episode)
    (hdirection : EpisodeBook.sameDirection (book.position execution.asset)
      (EpisodeBook.signedDelta execution) = false)
    (hkeeps : closesEpisode book execution.asset (EpisodeBook.signedDelta execution) = false)
    (h : book.closeOrFlip execution price (EpisodeBook.signedDelta execution) closedAt = .ok next)
    (funding : D) :
    ∃ kept, next.opened[execution.asset]? = some kept ∧ kept.funding = episode.funding ∧
      (putEpisode book execution.asset (withFunding episode funding)).closeOrFlip execution price
          (EpisodeBook.signedDelta execution) closedAt =
        .ok (putEpisode next execution.asset (withFunding kept funding)) := by
  have hput : (putEpisode book execution.asset (withFunding episode funding)).opened[
      execution.asset]? = some (withFunding episode funding) := by
    simp only [putEpisode, getElem?_insert_eq, if_true]
  simp only [closesEpisode, hopen, hdirection, Bool.not_false, Bool.true_and,
    Bool.or_eq_false_iff] at hkeeps
  obtain ⟨hflat, hflip⟩ := hkeeps
  unfold EpisodeBook.closeOrFlip at h ⊢
  simp only [hopen, hput] at h ⊢
  obtain ⟨fraction, hfraction, h⟩ := of_bind h
  obtain ⟨reduced, hreduced, h⟩ := of_bind h
  obtain ⟨settled, hsettled, h⟩ := of_bind h
  obtain ⟨residual, hresidual, h⟩ := of_bind h
  obtain ⟨hsame, hreduce⟩ := reduce_withFunding hfunding hreduced funding
  have hopened : ¬ Decimal.isZero reduced.signedQuantity = true := by
    have hsigned := reduce_signedQuantity hreduced
    rw [hsigned] at hflat
    simpa using hflat
  have hnone : Decimal.isZero residual = true := by
    rw [EpisodeBook.orOverflow_eq_ok_iff.mp hresidual] at hflip
    simpa using hflip
  rw [if_neg hopened] at hsettled
  cases hsettled
  rw [if_pos hnone, pure_eq_ok_iff] at h
  subst h
  refine ⟨reduced, by simp only [getElem?_insert_eq, if_true], hsame, ?_⟩
  refine bind_eq_ok_iff.mpr ⟨fraction, hfraction, ?_⟩
  refine bind_eq_ok_iff.mpr ⟨withFunding reduced funding, hreduce, ?_⟩
  refine bind_eq_ok_iff.mpr ⟨_, if_neg hopened, ?_⟩
  refine bind_eq_ok_iff.mpr ⟨residual, hresidual, ?_⟩
  simp only [if_pos hnone, pure_eq_ok_iff, putEpisode, insert_insert_self]

/-- A fill of the funded asset that leaves its episode open carries the funding sum along and
is booked the same way on any other sum. -/
theorem apply_withFunding [DecimalZeroLaws D] (hfunding : execution.funding = Decimal.zero)
    (hopen : book.opened[execution.asset]? = some episode)
    (hkeeps : closesEpisode book execution.asset (EpisodeBook.signedDelta execution) = false)
    (h : book.apply execution closedAt = .ok next) (funding : D) :
    ∃ kept, next.opened[execution.asset]? = some kept ∧ kept.funding = episode.funding ∧
      (putEpisode book execution.asset (withFunding episode funding)).apply execution closedAt =
        .ok (putEpisode next execution.asset (withFunding kept funding)) := by
  have hput : (putEpisode book execution.asset (withFunding episode funding)).opened[
      execution.asset]? = some (withFunding episode funding) := by
    simp only [putEpisode, getElem?_insert_eq, if_true]
  rw [EpisodeBook.apply_eq_ok_iff] at h
  simp only [EpisodeBook.apply_eq_ok_iff]
  obtain ⟨hbefore, ⟨hzero, hafter, rfl⟩ | ⟨hquantity, price, after, traded, hprice, hadd, hmatches,
    htraded, rfl⟩⟩ := h
  · exact ⟨episode, hopen, rfl, hbefore, .inl ⟨hzero, hafter, rfl⟩⟩
  -- Either way the episode stays open: it grows, or it shrinks without becoming flat.
  obtain ⟨kept, hkept, hsame, htrade⟩ : ∃ kept, traded.opened[execution.asset]? = some kept ∧
      kept.funding = episode.funding ∧
      (putEpisode book execution.asset (withFunding episode funding)).trade execution price
          (EpisodeBook.signedDelta execution) closedAt =
        .ok (putEpisode traded execution.asset (withFunding kept funding)) := by
    unfold EpisodeBook.trade at htraded ⊢
    split at htraded
    · rename_i hdirection
      unfold EpisodeBook.addSameDirection at htraded
      simp only [hopen] at htraded
      obtain ⟨grown, hgrown, htraded⟩ := of_bind htraded
      rw [pure_eq_ok_iff] at htraded
      subst htraded
      obtain ⟨hsame, hgrow⟩ := grow_withFunding hfunding hgrown funding
      refine ⟨grown, by simp only [getElem?_insert_eq, if_true], hsame, ?_⟩
      refine (if_pos hdirection).trans ?_
      unfold EpisodeBook.addSameDirection
      simp only [hput]
      refine bind_eq_ok_iff.mpr ⟨withFunding grown funding, hgrow, ?_⟩
      simp only [pure_eq_ok_iff, putEpisode, insert_insert_self]
    · rename_i hdirection
      obtain ⟨kept, hkept, hsame, hclose⟩ := closeOrFlip_withFunding hfunding hopen
        (by simpa using hdirection) hkeeps htraded funding
      exact ⟨kept, hkept, hsame, (if_neg hdirection).trans hclose⟩
  exact ⟨kept, hkept, hsame, hbefore, .inr ⟨hquantity, price, after, _, hprice, hadd, hmatches,
    htrade, rfl⟩⟩

theorem apply_refund [DecimalZeroLaws D] (hfunding : execution.funding = Decimal.zero)
    (hopen : book.opened[asset]? = some episode) (hkeeps : asset = execution.asset →
      closesEpisode book asset (EpisodeBook.signedDelta execution) = false)
    (h : book.apply execution closedAt = .ok next) (funding : D) :
    ∃ kept, next.opened[asset]? = some kept ∧ kept.funding = episode.funding ∧
      (putEpisode book asset (withFunding episode funding)).apply execution closedAt =
        .ok (putEpisode next asset (withFunding kept funding)) := by
  by_cases hasset : asset = execution.asset
  · subst hasset
    exact apply_withFunding hfunding hopen (hkeeps rfl) h funding
  · refine ⟨episode, ?_, rfl, apply_putEpisode _ hasset h⟩
    -- Putting the episode where it already stands shows that the fill leaves it there.
    have hkept := apply_putEpisode episode hasset h
    rw [putEpisode_of_getElem? hopen, h] at hkept
    have hnext : next = putEpisode next asset episode := Except.ok.inj hkept
    rw [hnext]
    simp only [putEpisode, getElem?_insert_eq, if_true]

end

def putBooks (books : FillBooks D) (asset : String) (episode : OpenEpisode D) : FillBooks D :=
  { books with
    ledger := { books.ledger with portfolio := putEpisode books.ledger.portfolio asset episode } }

omit [Decimal D] in
@[simp] theorem putBooks_exchangeGross (books : FillBooks D) (asset : String)
    (episode : OpenEpisode D) :
    (putBooks books asset episode).exchangeGross = books.exchangeGross := rfl

omit [Decimal D] in
@[simp] theorem putBooks_settledEquity (books : FillBooks D) (asset : String)
    (episode : OpenEpisode D) :
    (putBooks books asset episode).settledEquity = books.settledEquity := rfl

theorem settleClosed_putBooks {books next : FillBooks D} {key : String} (asset : String)
    (episode : OpenEpisode D) (h : settleClosed books key = .ok (next, closed)) :
    settleClosed (putBooks books asset episode) key =
        .ok (putBooks next asset episode, closed) ∧
      next.ledger.portfolio.opened = books.ledger.portfolio.opened := by
  unfold settleClosed at h ⊢
  rw [putBooks_exchangeGross]
  cases hgross : books.exchangeGross[key]? with
  | none =>
    rw [hgross] at h
    cases h
  | some gross =>
    simp only [hgross] at h ⊢
    obtain ⟨ledger, hledger, h⟩ := of_bind h
    unfold DualLedger.reconcileLastPortfolioGrossPnl at hledger ⊢
    have hlast : (putBooks books asset episode).ledger.portfolio.closed.getLast? =
        books.ledger.portfolio.closed.getLast? := rfl
    rw [hlast]
    cases hepisode : books.ledger.portfolio.closed.getLast? with
    | none =>
      rw [hepisode] at hledger
      cases hledger
    | some last =>
      simp only [hepisode] at hledger ⊢
      split at hledger
      · cases hledger
      rename_i hasset
      obtain ⟨net, hnet, hledger⟩ := of_bind hledger
      rw [pure_eq_ok_iff] at hledger
      subst hledger
      simp only [DualLedger.portfolioClosed, List.getLast?_concat] at h
      obtain ⟨settled, hsettled, h⟩ := of_bind h
      rw [pure_eq_ok_iff] at h
      cases h
      refine ⟨?_, ?_⟩
      · rw [if_neg hasset]
        refine bind_eq_ok_iff.mpr ⟨_, bind_eq_ok_iff.mpr ⟨net, hnet, rfl⟩, ?_⟩
        simp only [DualLedger.portfolioClosed, List.getLast?_concat]
        refine bind_eq_ok_iff.mpr ⟨settled, hsettled, ?_⟩
        unfold moveAttribution
        cases hattribution : books.openAttribution[last.asset]? with
        | none => simp only [putBooks, hattribution, pure_eq_ok_iff, putEpisode]
        | some attribution => simp only [putBooks, hattribution, pure_eq_ok_iff, putEpisode]
      · unfold moveAttribution
        split <;> rfl

theorem bookFill_refund [Sha256] [DecimalZeroLaws D] {books next : FillBooks D}
    {figures : FillFigures D} {asset : String}
    (hopen : books.ledger.portfolio.opened[asset]? = some episode)
    (hkeeps : asset = fill.asset → closesEpisode books.ledger.portfolio asset
      (EpisodeBook.signedDelta (fillExecution fill figures)) = false)
    (h : bookFill books fill figures = .ok (next, closed)) (funding : D) :
    ∃ kept, next.ledger.portfolio.opened[asset]? = some kept ∧ kept.funding = episode.funding ∧
      bookFill (putBooks books asset (withFunding episode funding)) fill figures =
        .ok (putBooks next asset (withFunding kept funding), closed) := by
  unfold bookFill at h ⊢
  obtain ⟨ledger, hledger, h⟩ := of_bind h
  obtain ⟨gross, hgross, h⟩ := of_bind h
  unfold DualLedger.applyPortfolioExecution at hledger ⊢
  obtain ⟨portfolio, hportfolio, hledger⟩ := of_bind hledger
  rw [pure_eq_ok_iff] at hledger
  subst hledger
  obtain ⟨kept, hkept, hsum, happly⟩ := apply_refund rfl hopen hkeeps hportfolio funding
  have hstart : (putBooks books asset (withFunding episode funding)).ledger.portfolio.apply
      (fillExecution fill figures) fill.occurredAt =
        .ok (putEpisode portfolio asset (withFunding kept funding)) := happly
  refine ⟨kept, ?_, hsum, ?_⟩
  · split at h
    · rw [(settleClosed_putBooks asset kept h).2]
      exact hkept
    · rw [pure_eq_ok_iff] at h
      cases h
      exact hkept
  · refine bind_eq_ok_iff.mpr ⟨_, bind_eq_ok_iff.mpr ⟨_, hstart, rfl⟩, ?_⟩
    refine bind_eq_ok_iff.mpr ⟨gross, hgross, ?_⟩
    split at h
    · rename_i hcloses
      refine (if_pos hcloses).trans ?_
      exact (settleClosed_putBooks _ (withFunding kept funding) h).1
    · rename_i hopened
      refine (if_neg hopened).trans ?_
      rw [pure_eq_ok_iff] at h
      cases h
      rfl

def fillDelta (fill : VerifiedExchangeFill D) : D :=
  match fill.side with
  | .buy => fill.filledQuantity
  | .sell => Decimal.neg fill.filledQuantity

def closesOn (b : Booked D) (fill : VerifiedExchangeFill D) : Bool :=
  closesEpisode b.books.ledger.portfolio fill.asset (fillDelta fill)

theorem fundBooked_eq_ok_iff {next : Booked D} :
    fundBooked b event = .ok next ↔
      (event.asset == "" || b.appliedFunding.contains event.eventId) = false ∧
        ∃ episode sum, b.books.ledger.portfolio.opened[event.asset]? = some episode ∧
          Decimal.checkedAdd episode.funding (Decimal.neg event.amount) = some sum ∧
          { b with
            books := putBooks b.books event.asset (withFunding episode sum)
            appliedFunding := b.appliedFunding ++ [event.eventId]
            verifiedFunding := b.verifiedFunding ++ [event] } = next := by
  unfold fundBooked
  cases (event.asset == "" || b.appliedFunding.contains event.eventId) with
  | true => simp
  | false =>
    simp only [Bool.false_eq_true, if_false, true_and]
    unfold DualLedger.applyPortfolioFunding
    cases hopen : b.books.ledger.portfolio.opened[event.asset]? with
    | none => simp
    | some episode =>
      constructor
      · intro h
        obtain ⟨ledger, hledger, h⟩ := of_bind h
        obtain ⟨sum, hsum, hledger⟩ := of_bind hledger
        rw [pure_eq_ok_iff] at h hledger
        subst hledger
        exact ⟨episode, sum, rfl, EpisodeBook.orOverflow_eq_ok_iff.mp hsum, h⟩
      · rintro ⟨_, sum, hsame, hsum, rfl⟩
        cases hsame
        refine bind_eq_ok_iff.mpr ⟨_, bind_eq_ok_iff.mpr ⟨sum, ?_, rfl⟩, rfl⟩
        exact EpisodeBook.orOverflow_eq_ok_iff.mpr hsum

theorem closesOn_fundBooked {next : Booked D} (h : fundBooked b event = .ok next)
    (fill : VerifiedExchangeFill D) : closesOn next fill = closesOn b fill := by
  obtain ⟨hguard, episode, sum, hopen, hsum, rfl⟩ := fundBooked_eq_ok_iff.mp h
  unfold closesOn closesEpisode
  by_cases hasset : event.asset = fill.asset
  · rw [hasset] at hopen ⊢
    simp only [putBooks, putEpisode, getElem?_insert_eq, if_true, hopen, withFunding,
      EpisodeBook.position]
  · simp only [putBooks, putEpisode, getElem?_insert_of_ne hasset, EpisodeBook.position]

theorem fill_before_fund [Sha256] [DecimalZeroLaws D] {funded next : Booked D}
    (hfund : fundBooked b event = .ok funded) (hfill : fillBooked funded fill = .ok next)
    (hkeeps : event.asset = fill.asset → closesOn funded fill = false) :
    ∃ filled, fillBooked b fill = .ok filled ∧ fundBooked filled event = .ok next := by
  obtain ⟨hguard, episode, sum, hopen, hsum, rfl⟩ := fundBooked_eq_ok_iff.mp hfund
  unfold fillBooked at hfill
  obtain ⟨u, hvalid, hfill⟩ := of_bind hfill
  split at hfill
  · cases hfill
  rename_i hfresh
  obtain ⟨figures, hfigures, hfill⟩ := of_bind hfill
  obtain ⟨⟨books, closed⟩, hbook, hfill⟩ := of_bind hfill
  dsimp only at hfill
  split at hfill
  · cases hfill
  rename_i hequity
  rw [pure_eq_ok_iff] at hfill
  subst hfill
  have hfunded : (putBooks b.books event.asset
      (withFunding episode sum)).ledger.portfolio.opened[event.asset]? =
        some (withFunding episode sum) := by
    simp only [putBooks, putEpisode, getElem?_insert_eq, if_true]
  have hkeeps' : event.asset = fill.asset →
      closesEpisode (putBooks b.books event.asset (withFunding episode sum)).ledger.portfolio
        event.asset (EpisodeBook.signedDelta (fillExecution fill figures)) = false := by
    intro hasset
    have hcloses := hkeeps hasset
    unfold closesOn at hcloses
    rw [← hasset] at hcloses
    exact hcloses
  obtain ⟨kept, hkept, hcarried, hrefund⟩ :=
    bookFill_refund hfunded hkeeps' hbook episode.funding
  -- Taking the funding back out gives the books before the event.
  have hback : putBooks (putBooks b.books event.asset (withFunding episode sum)) event.asset
      (withFunding (withFunding episode sum) episode.funding) = b.books := by
    have hsame : withFunding (withFunding episode sum) episode.funding = episode := rfl
    rw [hsame]
    simp only [putBooks, putEpisode_putEpisode, putEpisode_of_getElem? hopen]
  rw [hback] at hrefund
  let filled : Booked D := { b with
    books := putBooks books event.asset (withFunding kept episode.funding)
    appliedFills := b.appliedFills ++ [fill.identity]
    verifiedFills := b.verifiedFills ++ [fill] }
  refine ⟨filled, ?_, ?_⟩
  · unfold fillBooked
    refine bind_eq_ok_iff.mpr ⟨u, hvalid, ?_⟩
    refine (if_neg hfresh).trans ?_
    refine bind_eq_ok_iff.mpr ⟨figures, hfigures, ?_⟩
    refine bind_eq_ok_iff.mpr ⟨(_, closed), hrefund, ?_⟩
    exact if_neg hequity
  · refine fundBooked_eq_ok_iff.mpr ⟨hguard, withFunding kept episode.funding, sum, ?_, hsum, ?_⟩
    · simp only [filled, putBooks, putEpisode, getElem?_insert_eq, if_true]
    · have hsame : withFunding (withFunding kept episode.funding) sum = kept := by
        have hcarried' : kept.funding = sum := hcarried
        rw [← hcarried']
        rfl
      rw [hsame]
      simp only [filled, putBooks, putEpisode_putEpisode, putEpisode_of_getElem? hkept]

/-- A fill that follows funding events can be booked before all of them, unless it closes an
episode one of them was for. -/
theorem fill_before_funding [Sha256] [DecimalZeroLaws D] {funded next : Booked D}
    {events : List (VerifiedFundingEvent D)} (hfund : events.foldlM fundBooked b = .ok funded)
    (hfill : fillBooked funded fill = .ok next)
    (hkeeps : ∀ event ∈ events, event.asset = fill.asset → closesOn funded fill = false) :
    ∃ filled, fillBooked b fill = .ok filled ∧ events.foldlM fundBooked filled = .ok next := by
  refine exchange_foldlM (g := fun b => fillBooked b fill)
    (C := fun b event => event.asset = fill.asset → closesOn b fill = false)
    ?_ ?_ hfund hfill hkeeps
  · intro s event t u hevent hg hC
    exact fill_before_fund hevent hg hC
  · intro s event t other hevent hC hasset
    rw [← closesOn_fundBooked hevent fill]
    exact hC hasset

end CopyTrade.Analysis
