import CopyTrade.Model.Core.Ledger

/-!
# The live trading state

`LiveTradingState` of crates/copytrade-core/src/live_trading.rs: the ledger that verified
exchange fills and funding events are applied to, the identities already applied and the
equity figures.  The signer and the observer each keep one and apply events with the same two
functions; both functions work on a clone, so an error leaves the state as it was.
-/

namespace CopyTrade.Model

open Foundation
open Std (ExtTreeMap)

structure ExchangeFillIdentity where
  exchangeOrderId : String
  tradeId : String
  cloid : PlannedCloid
deriving DecidableEq

inductive LiquidityClassification
  | maker
  | taker
  | unknown
deriving DecidableEq

inductive StrategyComponent
  | sourceOnly
  | technicalOnly
  | sourceTechnicalAgreement
  | sourceTechnicalDisagreement
deriving DecidableEq

inductive SignalArchetype
  | trendPullback
  | rangeMeanReversion
  | regimeBreakout
deriving DecidableEq

inductive MarketRegime
  | strongBull
  | transitionUp
  | range
  | transitionDown
  | strongBear
deriving DecidableEq

structure StrategyComponentAttribution (D : Type) where
  component : StrategyComponent
  sourceFraction : D
  technicalFraction : D
  archetype : Option SignalArchetype
  regime : Option MarketRegime
  side : Side
deriving DecidableEq

structure VerifiedExchangeFill (D : Type) where
  identity : ExchangeFillIdentity
  decisionId : Hash
  targetVersion : ℕ
  rootCloid : PlannedCloid
  parentCloid : Option PlannedCloid
  continuationGeneration : ℕ
  asset : String
  side : Side
  reduceOnly : Bool
  filledQuantity : D
  averageFillPrice : D
  submittedLimitPrice : D
  feeAmount : D
  exchangeClosedPnl : D
  feeAsset : String
  liquidity : LiquidityClassification
  decisionReferencePrice : D
  occurredAt : ℕ
  decisionTimestamp : ℕ
  exchangeEquityAfter : D
  sourceHash : Hash
deriving DecidableEq

structure VerifiedFundingEvent (D : Type) where
  eventId : Hash
  asset : String
  amount : D
  occurredAt : ℕ
  sourceHash : Hash
deriving DecidableEq

structure LiveFillAccounting (D : Type) where
  identity : ExchangeFillIdentity
  decisionId : Hash
  rootCloid : PlannedCloid
  parentCloid : Option PlannedCloid
  continuationGeneration : ℕ
  asset : String
  side : Side
  filledQuantity : D
  averageFillPrice : D
  submittedLimitPrice : D
  feeAmount : D
  exchangeClosedPnl : D
  feeAsset : String
  liquidity : LiquidityClassification
  decisionReferencePrice : D
  decisionToFillSlippage : D
  positionBefore : D
  positionAfter : D
  currentEquity : D
  settledEquity : D
  deploymentEquity : D
  occurredAt : ℕ
  strategyAttribution : Option (StrategyComponentAttribution D)
deriving DecidableEq

structure FundingAccounting (D : Type) where
  event : VerifiedFundingEvent D
  currentEquity : D
  settledEquity : D
  deploymentEquity : D
deriving DecidableEq

structure LiveTradingState (D : Type) where
  schemaVersion : ℕ
  startingEquity : D
  currentEquity : D
  settledEquity : D
  deploymentEquity : D
  ledger : DualLedger D
  appliedFills : List ExchangeFillIdentity
  appliedFunding : List Hash
  fillEvents : List (LiveFillAccounting D)
  fundingEvents : List (FundingAccounting D)
  verifiedFills : List (VerifiedExchangeFill D)
  verifiedFunding : List (VerifiedFundingEvent D)
  exchangeGrossPnlByOpenEpisode : ExtTreeMap String D
  openEpisodeAttribution : ExtTreeMap String (StrategyComponentAttribution D)
  closedEpisodeAttribution : ExtTreeMap EpisodeId (StrategyComponentAttribution D)
  fillCursorMs : ℕ
  fundingCursorMs : ℕ
deriving DecidableEq

inductive AppliedFillResult (D : Type)
  | applied (accounting : LiveFillAccounting D) (closedEpisode : Option (PortfolioEpisode D))
  | alreadyApplied

inductive AppliedFundingResult (D : Type)
  | applied (accounting : FundingAccounting D)
  | alreadyApplied

variable {D : Type} [Decimal D]

/-- The derived `==` of two fills, which compares decimals by value. -/
def VerifiedExchangeFill.eqv (a b : VerifiedExchangeFill D) : Bool :=
  a.identity == b.identity && a.decisionId == b.decisionId &&
    a.targetVersion == b.targetVersion && a.rootCloid == b.rootCloid &&
    a.parentCloid == b.parentCloid && a.continuationGeneration == b.continuationGeneration &&
    a.asset == b.asset && a.side == b.side && a.reduceOnly == b.reduceOnly &&
    Decimal.eqv a.filledQuantity b.filledQuantity &&
    Decimal.eqv a.averageFillPrice b.averageFillPrice &&
    Decimal.eqv a.submittedLimitPrice b.submittedLimitPrice &&
    Decimal.eqv a.feeAmount b.feeAmount &&
    Decimal.eqv a.exchangeClosedPnl b.exchangeClosedPnl && a.feeAsset == b.feeAsset &&
    a.liquidity == b.liquidity &&
    Decimal.eqv a.decisionReferencePrice b.decisionReferencePrice &&
    a.occurredAt == b.occurredAt && a.decisionTimestamp == b.decisionTimestamp &&
    Decimal.eqv a.exchangeEquityAfter b.exchangeEquityAfter && a.sourceHash == b.sourceHash

@[simp] theorem VerifiedExchangeFill.eqv_refl (a : VerifiedExchangeFill D) :
    a.eqv a = true := by simp [eqv]

/-- The derived `==` of two funding events, which compares the amounts by value. -/
def VerifiedFundingEvent.eqv (a b : VerifiedFundingEvent D) : Bool :=
  a.eventId == b.eventId && a.asset == b.asset && Decimal.eqv a.amount b.amount &&
    a.occurredAt == b.occurredAt && a.sourceHash == b.sourceHash

@[simp] theorem VerifiedFundingEvent.eqv_refl (a : VerifiedFundingEvent D) :
    a.eqv a = true := by simp [eqv]

namespace LiveTradingState

/-- The state `new` builds. -/
def starting (startingEquity : D) (fillCursorMs : ℕ) : LiveTradingState D where
  schemaVersion := 1
  startingEquity
  currentEquity := startingEquity
  settledEquity := startingEquity
  deploymentEquity := startingEquity
  ledger := DualLedger.empty
  appliedFills := []
  appliedFunding := []
  fillEvents := []
  fundingEvents := []
  verifiedFills := []
  verifiedFunding := []
  exchangeGrossPnlByOpenEpisode := ∅
  openEpisodeAttribution := ∅
  closedEpisodeAttribution := ∅
  fillCursorMs
  fundingCursorMs := fillCursorMs

def new (startingEquity : D) (fillCursorMs : ℕ) : Except LedgerError (LiveTradingState D) :=
  if Decimal.le startingEquity Decimal.zero then
    .error (.invalidLiveEvent "starting equity must be positive")
  else .ok (starting startingEquity fillCursorMs)

def positions (state : LiveTradingState D) : ExtTreeMap String D :=
  state.ledger.portfolio.positions

def recomputeDeployment (state : LiveTradingState D) : LiveTradingState D :=
  { state with deploymentEquity := Decimal.min state.currentEquity state.settledEquity }

def advanceFillCursor (state : LiveTradingState D) (cursorMs : ℕ) :
    Except LedgerError (LiveTradingState D) :=
  if cursorMs < state.fillCursorMs then
    .error (.invalidLiveEvent "fill cursor cannot move backwards")
  else .ok { state with fillCursorMs := cursorMs }

def advanceFundingCursor (state : LiveTradingState D) (cursorMs : ℕ) :
    Except LedgerError (LiveTradingState D) :=
  if cursorMs < state.fundingCursorMs then
    .error (.invalidLiveEvent "funding cursor cannot move backwards")
  else .ok { state with fundingCursorMs := cursorMs }

def reconcileEquity (state : LiveTradingState D) (exchangeEquity : D) :
    Except LedgerError (LiveTradingState D) :=
  if Decimal.le exchangeEquity Decimal.zero then
    .error (.invalidLiveEvent "exchange equity must be positive")
  else .ok ({ state with currentEquity := exchangeEquity } : LiveTradingState D).recomputeDeployment

/-- `==` of two position maps, which compares the quantities by value. -/
def samePositions (a b : ExtTreeMap String D) : Bool :=
  a.keys == b.keys && (a.values.zip b.values).all fun pair => Decimal.eqv pair.1 pair.2

def reconcilePositions (state : LiveTradingState D) (exchangePositions : ExtTreeMap String D) :
    Except LedgerError Unit :=
  if samePositions state.positions exchangePositions then .ok () else .error .positionDivergence

end LiveTradingState

def validateFill (fill : VerifiedExchangeFill D) : Except LedgerError Unit :=
  if fill.asset == ""
      || Decimal.le fill.filledQuantity Decimal.zero
      || Decimal.le fill.averageFillPrice Decimal.zero
      || Decimal.le fill.submittedLimitPrice Decimal.zero
      || fill.feeAsset == ""
      || Decimal.le fill.decisionReferencePrice Decimal.zero
      || Decimal.le fill.exchangeEquityAfter Decimal.zero
      || decide (fill.occurredAt < fill.decisionTimestamp)
      || (fill.identity.cloid != fill.rootCloid && fill.continuationGeneration == 0)
      || (decide (0 < fill.continuationGeneration) && fill.parentCloid.isNone) then
    .error (.invalidLiveEvent "invalid verified exchange fill")
  else .ok ()

/-- The quantities a fill is booked with. -/
structure FillFigures (D : Type) where
  positionBefore : D
  positionAfter : D
  slippage : D

/-- The position before and after a fill and its slippage. -/
def fillFigures (ledger : DualLedger D) (fill : VerifiedExchangeFill D) :
    Except LedgerError (FillFigures D) := do
  let positionBefore := ledger.portfolioPosition fill.asset
  let delta :=
    match fill.side with
    | .buy => fill.filledQuantity
    | .sell => Decimal.neg fill.filledQuantity
  let positionAfter ← orOverflow "live position" (Decimal.checkedAdd positionBefore delta)
  let _ ← orOverflow "live filled notional"
    (Decimal.checkedMul fill.filledQuantity fill.averageFillPrice)
  let slippage ← orOverflow "live slippage"
    ((Decimal.checkedSub fill.averageFillPrice fill.decisionReferencePrice).bind fun difference =>
      Decimal.checkedMul (Decimal.abs difference) fill.filledQuantity)
  pure { positionBefore, positionAfter, slippage }

def fillExecution (fill : VerifiedExchangeFill D) (figures : FillFigures D) :
    ShadowExecution D where
  asset := fill.asset
  side := fill.side
  decisionId := fill.decisionId
  plannedCloid := fill.identity.cloid
  decisionTimestampMono := fill.decisionTimestamp
  modeledFilledQuantity := fill.filledQuantity
  modeledAverageFillPrice := some fill.averageFillPrice
  fees := fill.feeAmount
  funding := Decimal.zero
  slippage := figures.slippage
  positionBefore := figures.positionBefore
  positionAfter := figures.positionAfter

/-- The part of the state a fill is booked in: the ledger, the gross result the exchange
reported for the open episodes, the attributions and the settled equity. -/
structure FillBooks (D : Type) where
  ledger : DualLedger D
  exchangeGross : ExtTreeMap String D
  openAttribution : ExtTreeMap String (StrategyComponentAttribution D)
  closedAttribution : ExtTreeMap EpisodeId (StrategyComponentAttribution D)
  settledEquity : D

def LiveTradingState.books (state : LiveTradingState D) : FillBooks D where
  ledger := state.ledger
  exchangeGross := state.exchangeGrossPnlByOpenEpisode
  openAttribution := state.openEpisodeAttribution
  closedAttribution := state.closedEpisodeAttribution
  settledEquity := state.settledEquity

/-- The attribution of an episode moves from the open to the closed ones. -/
def moveAttribution (books : FillBooks D) (episode : PortfolioEpisode D) : FillBooks D :=
  match books.openAttribution[episode.asset]? with
  | none => books
  | some attribution => { books with
      openAttribution := books.openAttribution.erase episode.asset
      closedAttribution := books.closedAttribution.insert episode.episodeId attribution }

/-- The settlement of the episode a fill has just closed: its gross result becomes the one the
exchange reported, its attribution moves along and its net result is settled. -/
def settleClosed (books : FillBooks D) (asset : String) :
    Except LedgerError (FillBooks D × Option (PortfolioEpisode D)) :=
  match books.exchangeGross[asset]? with
  | none => .error .positionDivergence
  | some gross => do
    let ledger ← books.ledger.reconcileLastPortfolioGrossPnl asset gross
    let booked := { books with ledger, exchangeGross := books.exchangeGross.erase asset }
    match ledger.portfolioClosed.getLast? with
    | none => pure (booked, none)
    | some episode =>
      let settledEquity ← orOverflow "settled equity"
        (Decimal.checkedAdd booked.settledEquity episode.netPnl)
      pure ({ moveAttribution booked episode with settledEquity }, some episode)

/-- The books after a fill, and the episode it closed. -/
def bookFill [Sha256] (books : FillBooks D) (fill : VerifiedExchangeFill D)
    (figures : FillFigures D) : Except LedgerError (FillBooks D × Option (PortfolioEpisode D)) := do
  let closedBefore := books.ledger.portfolioClosed.length
  let ledger ← books.ledger.applyPortfolioExecution (fillExecution fill figures) fill.occurredAt
  let gross ← orOverflow "exchange gross pnl"
    (Decimal.checkedAdd (books.exchangeGross[fill.asset]?.getD Decimal.zero)
      fill.exchangeClosedPnl)
  let booked := { books with ledger, exchangeGross := books.exchangeGross.insert fill.asset gross }
  if closedBefore < ledger.portfolioClosed.length then settleClosed booked fill.asset
  else pure (booked, none)

def fillAccounting (state : LiveTradingState D) (fill : VerifiedExchangeFill D)
    (figures : FillFigures D) (attribution : Option (StrategyComponentAttribution D)) :
    LiveFillAccounting D where
  identity := fill.identity
  decisionId := fill.decisionId
  rootCloid := fill.rootCloid
  parentCloid := fill.parentCloid
  continuationGeneration := fill.continuationGeneration
  asset := fill.asset
  side := fill.side
  filledQuantity := fill.filledQuantity
  averageFillPrice := fill.averageFillPrice
  submittedLimitPrice := fill.submittedLimitPrice
  feeAmount := fill.feeAmount
  exchangeClosedPnl := fill.exchangeClosedPnl
  feeAsset := fill.feeAsset
  liquidity := fill.liquidity
  decisionReferencePrice := fill.decisionReferencePrice
  decisionToFillSlippage := figures.slippage
  positionBefore := figures.positionBefore
  positionAfter := figures.positionAfter
  currentEquity := state.currentEquity
  settledEquity := state.settledEquity
  deploymentEquity := state.deploymentEquity
  occurredAt := fill.occurredAt
  strategyAttribution := attribution

def LiveTradingState.afterFill (state : LiveTradingState D) (books : FillBooks D)
    (exchangeEquity : D) : LiveTradingState D :=
  ({ state with
    ledger := books.ledger
    exchangeGrossPnlByOpenEpisode := books.exchangeGross
    openEpisodeAttribution := books.openAttribution
    closedEpisodeAttribution := books.closedAttribution
    settledEquity := books.settledEquity
    currentEquity := exchangeEquity } : LiveTradingState D).recomputeDeployment

def LiveTradingState.recordFill (state : LiveTradingState D) (fill : VerifiedExchangeFill D)
    (accounting : LiveFillAccounting D) : LiveTradingState D :=
  { state with
    appliedFills := state.appliedFills ++ [fill.identity]
    fillEvents := state.fillEvents ++ [accounting]
    verifiedFills := state.verifiedFills ++ [fill] }

def applyExchangeFill [Sha256] (state : LiveTradingState D) (fill : VerifiedExchangeFill D) :
    Except LedgerError (AppliedFillResult D × LiveTradingState D) := do
  validateFill fill
  if state.appliedFills.contains fill.identity then
    if state.verifiedFills.any fun existing => existing.eqv fill then
      pure (.alreadyApplied, state)
    else .error (.invalidLiveEvent "exchange fill identity payload conflict")
  else
    let figures ← fillFigures state.ledger fill
    let attribution := state.openEpisodeAttribution[fill.asset]?
    let (books, closedEpisode) ← bookFill state.books fill figures
    if Decimal.le fill.exchangeEquityAfter Decimal.zero
        || Decimal.le books.settledEquity Decimal.zero then
      .error (.invalidLiveEvent "equity became nonpositive")
    else
      let next := state.afterFill books fill.exchangeEquityAfter
      let accounting := fillAccounting next fill figures attribution
      pure (.applied accounting closedEpisode, next.recordFill fill accounting)

def LiveTradingState.afterFunding (state : LiveTradingState D) (ledger : DualLedger D)
    (currentEquity : D) : LiveTradingState D :=
  ({ state with ledger, currentEquity } : LiveTradingState D).recomputeDeployment

def fundingAccounting (state : LiveTradingState D) (event : VerifiedFundingEvent D) :
    FundingAccounting D where
  event := event
  currentEquity := state.currentEquity
  settledEquity := state.settledEquity
  deploymentEquity := state.deploymentEquity

def LiveTradingState.recordFunding (state : LiveTradingState D) (event : VerifiedFundingEvent D) :
    LiveTradingState D :=
  { state with
    appliedFunding := state.appliedFunding ++ [event.eventId]
    fundingEvents := state.fundingEvents ++ [fundingAccounting state event]
    verifiedFunding := state.verifiedFunding ++ [event] }

def applyFundingEvent (state : LiveTradingState D) (event : VerifiedFundingEvent D) :
    Except LedgerError (AppliedFundingResult D × LiveTradingState D) :=
  if event.asset == "" then .error (.invalidLiveEvent "funding asset is empty")
  else if state.appliedFunding.contains event.eventId then
    if state.verifiedFunding.any fun existing => existing.eqv event then
      .ok (.alreadyApplied, state)
    else .error (.invalidLiveEvent "funding event identity payload conflict")
  else do
    let ledger ← state.ledger.applyPortfolioFunding event.asset (Decimal.neg event.amount)
    let currentEquity ← orOverflow "funding equity"
      (Decimal.checkedAdd state.currentEquity event.amount)
    if Decimal.le currentEquity Decimal.zero then
      .error (.invalidLiveEvent "funding made equity nonpositive")
    else
      let next := state.afterFunding ledger currentEquity
      pure (.applied (fundingAccounting next event), next.recordFunding event)

namespace LiveTradingState

def position (state : LiveTradingState D) (asset : String) : D :=
  state.ledger.portfolioPosition asset

/-- The checks `load` makes on a decoded state. -/
def validateLoaded (state : LiveTradingState D) : Except LedgerError Unit :=
  if state.schemaVersion ≠ 1
      || Decimal.le state.startingEquity Decimal.zero
      || Decimal.le state.currentEquity Decimal.zero
      || Decimal.le state.settledEquity Decimal.zero
      || !Decimal.eqv state.deploymentEquity
        (Decimal.min state.currentEquity state.settledEquity) then
    .error .schemaMismatch
  else
    let fillIdentities := (state.fillEvents.map LiveFillAccounting.identity).toFinset
    let fundingIdentities := (state.fundingEvents.map fun record => record.event.eventId).toFinset
    if fillIdentities.card ≠ state.fillEvents.length
        ∨ fillIdentities ≠ state.appliedFills.toFinset
        ∨ fundingIdentities.card ≠ state.fundingEvents.length
        ∨ fundingIdentities ≠ state.appliedFunding.toFinset then
      .error .schemaMismatch
    else .ok ()

end LiveTradingState

/-- A call of one of the two application functions. -/
inductive LiveCall (D : Type)
  | fill (fill : VerifiedExchangeFill D)
  | funding (event : VerifiedFundingEvent D)

def LiveTradingState.call [Sha256] (state : LiveTradingState D) :
    LiveCall D → Except LedgerError (LiveTradingState D)
  | .fill fill => (applyExchangeFill state fill).map Prod.snd
  | .funding event => (applyFundingEvent state event).map Prod.snd

/-- The state after a call: one that fails has worked on a clone. -/
def LiveTradingState.after [Sha256] (state : LiveTradingState D) (call : LiveCall D) :
    LiveTradingState D :=
  match state.call call with
  | .ok next => next
  | .error _ => state

end CopyTrade.Model
