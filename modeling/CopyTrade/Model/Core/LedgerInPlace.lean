import CopyTrade.Foundation.InPlace
import CopyTrade.Model.Core.LedgerCalls

/-!
# The mutators of the dual ledger in place

The six mutators of `DualLedger` of crates/copytrade-core/src/ledger.rs with the order of their
checks and writes: what a mutator has written when it fails stays in the ledger.
-/

namespace CopyTrade.Model

open Foundation
open Foundation.InPlace

variable {D : Type} [Decimal D]

namespace OpenEpisode

def addCostsInPlace (execution : ShadowExecution D) (fraction : D) :
    InPlace LedgerError (OpenEpisode D) Unit := do
  assign (fun episode => EpisodeBook.addFraction episode.fees execution.fees fraction "fees")
    fun episode fees => { episode with fees }
  assign (fun episode =>
      EpisodeBook.addFraction episode.funding execution.funding fraction "funding")
    fun episode funding => { episode with funding }
  assign (fun episode =>
      EpisodeBook.addFraction episode.slippage execution.slippage fraction "slippage")
    fun episode slippage => { episode with slippage }

/-- A fill in the direction of the episode. -/
def growInPlace (execution : ShadowExecution D) (price signedDelta : D) :
    InPlace LedgerError (OpenEpisode D) Unit := do
  let episode ← read
  let oldQuantity := Decimal.abs episode.signedQuantity
  let added := Decimal.abs signedDelta
  let total ← check (orOverflow "episode quantity" (Decimal.checkedAdd oldQuantity added))
  let oldValue ← check (orOverflow "entry value"
    (Decimal.checkedMul oldQuantity episode.averageEntryPrice))
  let addedValue ← check (orOverflow "entry value" (Decimal.checkedMul added price))
  assign (fun _ => orOverflow "average entry"
      ((Decimal.checkedAdd oldValue addedValue).bind fun value => Decimal.checkedDiv value total))
    fun episode averageEntryPrice => { episode with averageEntryPrice }
  assign (fun episode => orOverflow "episode quantity"
      (Decimal.checkedAdd episode.signedQuantity signedDelta))
    fun episode signedQuantity => { episode with signedQuantity }
  assign (fun episode => orOverflow "entry notional"
      (Decimal.checkedAdd episode.entryNotional addedValue))
    fun episode entryNotional => { episode with entryNotional }
  addCostsInPlace execution Decimal.one

/-- A fill against the direction of the episode. -/
def reduceInPlace (execution : ShadowExecution D) (price closingQuantity closingFraction : D) :
    InPlace LedgerError (OpenEpisode D) Unit := do
  let episode ← read
  let pnlPerUnit ← check (orOverflow "realized pnl"
    (if Decimal.isSignPositive episode.signedQuantity then
      Decimal.checkedSub price episode.averageEntryPrice
    else Decimal.checkedSub episode.averageEntryPrice price))
  assign (fun episode => do
      let pnl ← orOverflow "realized pnl" (Decimal.checkedMul pnlPerUnit closingQuantity)
      orOverflow "realized pnl" (Decimal.checkedAdd episode.realizedPnl pnl))
    fun episode realizedPnl => { episode with realizedPnl }
  assign (fun episode => do
      let exit ← orOverflow "exit notional" (Decimal.checkedMul price closingQuantity)
      orOverflow "exit notional" (Decimal.checkedAdd episode.exitNotional exit))
    fun episode exitNotional => { episode with exitNotional }
  addCostsInPlace execution closingFraction
  assign (fun episode => orOverflow "episode close" (Decimal.checkedAdd episode.signedQuantity
      (if Decimal.isSignPositive episode.signedQuantity then Decimal.neg closingQuantity
      else closingQuantity)))
    fun episode signedQuantity => { episode with signedQuantity }

end OpenEpisode

namespace EpisodeBook

def onOpened (asset : String) (episode : OpenEpisode D)
    (m : InPlace LedgerError (OpenEpisode D) Unit) : InPlace LedgerError (EpisodeBook D) Unit :=
  onPart episode (fun book episode => { book with opened := book.opened.insert asset episode }) m

def openNewInPlace [Sha256] (execution : ShadowExecution D)
    (price signedQuantity costFraction : D) : InPlace LedgerError (EpisodeBook D) Unit := do
  let book ← read
  assign (fun book => orOverflow "episode sequence" (checkedAddU64 book.nextEpisodeSequence 1))
    fun book nextEpisodeSequence => { book with nextEpisodeSequence }
  let entryNotional ← check (orOverflow "entry notional"
    (Decimal.checkedMul (Decimal.abs signedQuantity) price))
  let episode ← check (addCosts {
      episodeId := deriveEpisodeId execution.asset execution.decisionId execution.plannedCloid
        book.nextEpisodeSequence
      asset := execution.asset
      openedAt := execution.decisionTimestampMono
      openingDecisionId := execution.decisionId
      signedQuantity
      averageEntryPrice := price
      entryNotional
      exitNotional := Decimal.zero
      realizedPnl := Decimal.zero
      fees := Decimal.zero
      funding := Decimal.zero
      slippage := Decimal.zero } execution costFraction)
  write fun book => { book with opened := book.opened.insert execution.asset episode }

def addSameDirectionInPlace [Sha256] (execution : ShadowExecution D) (price signedDelta : D) :
    InPlace LedgerError (EpisodeBook D) Unit := do
  let book ← read
  match book.opened[execution.asset]? with
  | some episode =>
    onOpened execution.asset episode (OpenEpisode.growInPlace execution price signedDelta)
  | none => openNewInPlace execution price signedDelta Decimal.one

def finishEpisodeInPlace (asset : String) (closedAt : ℕ) :
    InPlace LedgerError (EpisodeBook D) Unit := do
  let book ← read
  match book.opened[asset]? with
  | none => check (.error .positionDivergence)
  | some episode => do
    write fun book => { book with opened := book.opened.erase asset }
    let closed ← check (closedEpisode episode closedAt)
    write fun book => { book with closed := book.closed ++ [closed] }

/-- The end of `close_or_flip`: the rest of a fill that is larger than the episode. -/
def flipRestInPlace [Sha256] (execution : ShadowExecution D)
    (price signedDelta closingQuantity closingFraction : D) :
    InPlace LedgerError (EpisodeBook D) Unit := do
  let residual ← check (orOverflow "flip residual"
    (Decimal.checkedSub (Decimal.abs signedDelta) closingQuantity))
  if Decimal.isZero residual then pure ()
  else do
    let residualFraction ← check (orOverflow "residual fraction"
      (Decimal.checkedSub Decimal.one closingFraction))
    openNewInPlace execution price
      (if Decimal.isSignPositive signedDelta then residual else Decimal.neg residual)
      residualFraction

def closeOrFlipInPlace [Sha256] (execution : ShadowExecution D) (price signedDelta : D)
    (closedAt : ℕ) : InPlace LedgerError (EpisodeBook D) Unit := do
  let book ← read
  match book.opened[execution.asset]? with
  | none => check (.error .positionDivergence)
  | some episode => do
    let closingQuantity := Decimal.min (Decimal.abs signedDelta)
      (Decimal.abs episode.signedQuantity)
    let closingFraction ← check (orOverflow "closing fraction"
      (Decimal.checkedDiv closingQuantity (Decimal.abs signedDelta)))
    onOpened execution.asset episode
      (OpenEpisode.reduceInPlace execution price closingQuantity closingFraction)
    let held ← read
    if held.opened[execution.asset]?.any fun entry => Decimal.isZero entry.signedQuantity then do
      finishEpisodeInPlace execution.asset closedAt
      flipRestInPlace execution price signedDelta closingQuantity closingFraction
    else flipRestInPlace execution price signedDelta closingQuantity closingFraction

def applyInPlace [Sha256] (execution : ShadowExecution D) (closedAt : ℕ) :
    InPlace LedgerError (EpisodeBook D) Unit := do
  let book ← read
  let current := book.position execution.asset
  if !Decimal.eqv current execution.positionBefore then check (.error .positionDivergence)
  else if Decimal.isZero execution.modeledFilledQuantity then
    if !Decimal.eqv execution.positionAfter current then check (.error .positionDivergence)
    else pure ()
  else
    match execution.modeledAverageFillPrice with
    | none => check (.error .missingFillPrice)
    | some price => do
      let calculatedAfter ← check (orOverflow "position"
        (Decimal.checkedAdd current (signedDelta execution)))
      if !Decimal.eqv calculatedAfter execution.positionAfter then
        check (.error .positionDivergence)
      else do
        if sameDirection current (signedDelta execution) then
          addSameDirectionInPlace execution price (signedDelta execution)
        else closeOrFlipInPlace execution price (signedDelta execution) closedAt
        write fun book => book.setPosition execution.asset calculatedAfter

end EpisodeBook

namespace DualLedger

def applyPortfolioExecutionInPlace [Sha256] (execution : ShadowExecution D) (closedAt : ℕ) :
    InPlace LedgerError (DualLedger D) Unit := do
  let ledger ← read
  onPart ledger.portfolio (fun ledger portfolio => { ledger with portfolio })
    (EpisodeBook.applyInPlace execution closedAt)

/-- A candidate without a book gets an empty one before the execution is applied to it. -/
def applySourceExecutionInPlace [Sha256] (candidateId : String) (execution : ShadowExecution D)
    (closedAt : ℕ) : InPlace LedgerError (DualLedger D) Unit := do
  let ledger ← read
  onPart (ledger.sources[candidateId]?.getD EpisodeBook.empty)
    (fun ledger book => { ledger with sources := ledger.sources.insert candidateId book })
    (EpisodeBook.applyInPlace execution closedAt)

def applyPortfolioFundingInPlace (asset : String) (fundingCost : D) :
    InPlace LedgerError (DualLedger D) Unit := do
  let ledger ← read
  match ledger.portfolio.opened[asset]? with
  | none => check (.error .positionDivergence)
  | some episode =>
    onPart episode (fun ledger episode => { ledger with portfolio := { ledger.portfolio with
        opened := ledger.portfolio.opened.insert asset episode } })
      (assign (fun episode => orOverflow "funding"
          (Decimal.checkedAdd episode.funding fundingCost))
        fun episode funding => { episode with funding })

def reconcileLastPortfolioGrossPnlInPlace (asset : String) (exchangeRealizedPnl : D) :
    InPlace LedgerError (DualLedger D) Unit := do
  let ledger ← read
  match ledger.portfolio.closed.getLast? with
  | none => check (.error .positionDivergence)
  | some episode =>
    if episode.asset != asset then check (.error .positionDivergence)
    else
      onPart episode (fun ledger episode => { ledger with portfolio := { ledger.portfolio with
          closed := ledger.portfolio.closed.dropLast ++ [episode] } }) do
        write fun (episode : PortfolioEpisode D) =>
          { episode with realizedPnl := exchangeRealizedPnl }
        assign (fun episode => orOverflow "exchange reconciled episode net pnl"
            (EpisodeBook.netOf exchangeRealizedPnl episode.fees episode.funding episode.slippage))
          fun episode netPnl => { episode with netPnl }

/-- Code on the last closed episode of a source book when its id is the given one. -/
def onLastSourceEpisode (candidateId : String) (episodeId : EpisodeId)
    (m : InPlace LedgerError (PortfolioEpisode D) Unit) :
    InPlace LedgerError (DualLedger D) Unit := do
  let ledger ← read
  match ledger.sources[candidateId]? with
  | none => check (.error .positionDivergence)
  | some book =>
    match book.closed.getLast? with
    | none => check (.error .positionDivergence)
    | some episode =>
      if episode.episodeId != episodeId then check (.error .positionDivergence)
      else
        onPart episode (fun ledger episode => { ledger with
          sources := ledger.sources.insert candidateId
            { book with closed := book.closed.dropLast ++ [episode] } }) m

def assignSourceAttributionResidualInPlace (candidateId : String) (episodeId : EpisodeId)
    (residual : D) : InPlace LedgerError (DualLedger D) Unit :=
  onLastSourceEpisode candidateId episodeId do
    assign (fun episode => orOverflow "attribution residual"
        (Decimal.checkedAdd episode.attributionResidual residual))
      fun episode attributionResidual => { episode with attributionResidual }
    assign (fun episode => orOverflow "attribution residual net pnl"
        (Decimal.checkedAdd episode.netPnl residual))
      fun episode netPnl => { episode with netPnl }

def assignSourceEpisodeEconomicResidualsInPlace (candidateId : String) (episodeId : EpisodeId)
    (residuals : EconomicResiduals D) : InPlace LedgerError (DualLedger D) Unit :=
  onLastSourceEpisode candidateId episodeId do
    assign (fun episode => orOverflow "gross attribution residual"
        (Decimal.checkedAdd episode.realizedPnl residuals.gross))
      fun episode realizedPnl => { episode with realizedPnl }
    assign (fun episode => orOverflow "fee attribution residual"
        (Decimal.checkedAdd episode.fees residuals.fees))
      fun episode fees => { episode with fees }
    assign (fun episode => orOverflow "funding attribution residual"
        (Decimal.checkedAdd episode.funding residuals.funding))
      fun episode funding => { episode with funding }
    assign (fun episode => orOverflow "slippage attribution residual"
        (Decimal.checkedAdd episode.slippage residuals.slippage))
      fun episode slippage => { episode with slippage }
    assign (fun episode => orOverflow "economic attribution residual net pnl"
        ((EpisodeBook.netOf episode.realizedPnl episode.fees episode.funding
            episode.slippage).bind fun net =>
          Decimal.checkedAdd net episode.attributionResidual))
      fun episode netPnl => { episode with netPnl }

def callInPlace [Sha256] : LedgerCall D → InPlace LedgerError (DualLedger D) Unit
  | .portfolioExecution execution closedAt => applyPortfolioExecutionInPlace execution closedAt
  | .sourceExecution candidateId execution closedAt =>
    applySourceExecutionInPlace candidateId execution closedAt
  | .portfolioFunding asset fundingCost => applyPortfolioFundingInPlace asset fundingCost
  | .sourceAttributionResidual candidateId episodeId residual =>
    assignSourceAttributionResidualInPlace candidateId episodeId residual
  | .sourceEconomicResiduals candidateId episodeId residuals =>
    assignSourceEpisodeEconomicResidualsInPlace candidateId episodeId residuals
  | .reconcilePortfolioGross asset exchangeRealizedPnl =>
    reconcileLastPortfolioGrossPnlInPlace asset exchangeRealizedPnl

end DualLedger

end CopyTrade.Model
