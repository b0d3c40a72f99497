import CopyTrade.Model.Core.Ledger

/-!
# The calls of the dual ledger

The mutators of `DualLedger` on its source books, its integrity check and the equity it reports,
of crates/copytrade-core/src/ledger.rs.  `LedgerCall` lists the six public mutators.
-/

namespace CopyTrade.Model

open Foundation
open Std (ExtTreeMap)

variable {D : Type} [Decimal D]

namespace DualLedger

/-- `apply_source_execution`, without the episode it reports. -/
def applySourceExecution [Sha256] (ledger : DualLedger D) (candidateId : String)
    (execution : ShadowExecution D) (closedAt : ℕ) : Except LedgerError (DualLedger D) := do
  let book := ledger.sources[candidateId]?.getD EpisodeBook.empty
  let next ← book.apply execution closedAt
  pure { ledger with sources := ledger.sources.insert candidateId next }

/-- The last closed episode of a source book, replaced by `edit` of it when its id is the given
one. -/
def editLastSourceEpisode (ledger : DualLedger D) (candidateId : String) (episodeId : EpisodeId)
    (edit : PortfolioEpisode D → Except LedgerError (PortfolioEpisode D)) :
    Except LedgerError (DualLedger D) :=
  match ledger.sources[candidateId]? with
  | none => .error .positionDivergence
  | some book =>
    match book.closed.getLast? with
    | none => .error .positionDivergence
    | some episode =>
      if episode.episodeId != episodeId then .error .positionDivergence
      else do
        let edited ← edit episode
        pure { ledger with
          sources := ledger.sources.insert candidateId
            { book with closed := book.closed.dropLast ++ [edited] } }

def withAttributionResidual (residual : D) (episode : PortfolioEpisode D) :
    Except LedgerError (PortfolioEpisode D) := do
  let attributionResidual ← orOverflow "attribution residual"
    (Decimal.checkedAdd episode.attributionResidual residual)
  let netPnl ← orOverflow "attribution residual net pnl"
    (Decimal.checkedAdd episode.netPnl residual)
  pure { episode with attributionResidual, netPnl }

def assignSourceAttributionResidual (ledger : DualLedger D) (candidateId : String)
    (episodeId : EpisodeId) (residual : D) : Except LedgerError (DualLedger D) :=
  ledger.editLastSourceEpisode candidateId episodeId (withAttributionResidual residual)

/-- The residuals of an episode's result and costs. -/
structure EconomicResiduals (D : Type) where
  gross : D
  fees : D
  funding : D
  slippage : D

/-- An episode with economic residuals added and its net result recomputed. -/
def withEconomicResiduals (residuals : EconomicResiduals D) (episode : PortfolioEpisode D) :
    Except LedgerError (PortfolioEpisode D) := do
  let realizedPnl ← orOverflow "gross attribution residual"
    (Decimal.checkedAdd episode.realizedPnl residuals.gross)
  let fees ← orOverflow "fee attribution residual"
    (Decimal.checkedAdd episode.fees residuals.fees)
  let funding ← orOverflow "funding attribution residual"
    (Decimal.checkedAdd episode.funding residuals.funding)
  let slippage ← orOverflow "slippage attribution residual"
    (Decimal.checkedAdd episode.slippage residuals.slippage)
  let netPnl ← orOverflow "economic attribution residual net pnl"
    ((EpisodeBook.netOf realizedPnl fees funding slippage).bind fun net =>
      Decimal.checkedAdd net episode.attributionResidual)
  pure { episode with realizedPnl, fees, funding, slippage, netPnl }

def assignSourceEpisodeEconomicResiduals (ledger : DualLedger D) (candidateId : String)
    (episodeId : EpisodeId) (residuals : EconomicResiduals D) :
    Except LedgerError (DualLedger D) :=
  ledger.editLastSourceEpisode candidateId episodeId (withEconomicResiduals residuals)

end DualLedger

namespace EpisodeBook

def positionMatches (book : EpisodeBook D) (entry : String × D) : Except LedgerError Unit :=
  let openQuantity := (book.opened[entry.1]?.map OpenEpisode.signedQuantity).getD Decimal.zero
  if Decimal.eqv entry.2 openQuantity then .ok () else .error .positionDivergence

def episodeMatches (book : EpisodeBook D) (entry : String × OpenEpisode D) :
    Except LedgerError Unit :=
  match book.positions[entry.1]? with
  | none => .error .positionDivergence
  | some position =>
    if Decimal.eqv position entry.2.signedQuantity then .ok () else .error .positionDivergence

/-- The positions and the open episodes of a book agree. -/
def validate (book : EpisodeBook D) : Except LedgerError Unit := do
  checkAll book.positionMatches book.positions.toList
  checkAll book.episodeMatches book.opened.toList

end EpisodeBook

/-- `validate_integrity`, with the private `validate` it ends in. -/
def DualLedger.validateIntegrity (ledger : DualLedger D) : Except LedgerError Unit :=
  if ledger.schemaVersion ≠ 2 then .error .schemaMismatch
  else checkAll EpisodeBook.validate (ledger.portfolio :: ledger.sources.values)

namespace EpisodeBook

/-- The result of the open quantity of an episode at a mark price. -/
def unrealized (operation : String) (episode : OpenEpisode D) (mark : D) :
    Except LedgerError D := do
  let movement ← orOverflow operation
    (if Decimal.isSignPositive episode.signedQuantity then
      Decimal.checkedSub mark episode.averageEntryPrice
    else Decimal.checkedSub episode.averageEntryPrice mark)
  orOverflow operation (Decimal.checkedMul movement (Decimal.abs episode.signedQuantity))

def addOpen (unrealizedText openText : String) (marks : ExtTreeMap String D) (equity : D)
    (entry : String × OpenEpisode D) : Except LedgerError D :=
  match marks[entry.1]? with
  | none => .error .missingMarkPrice
  | some mark => do
    let result ← unrealized unrealizedText entry.2 mark
    orOverflow openText do
      let gained ← Decimal.checkedAdd equity result
      let afterFees ← Decimal.checkedSub gained entry.2.fees
      let afterFunding ← Decimal.checkedSub afterFees entry.2.funding
      Decimal.checkedSub afterFunding entry.2.slippage

/-- The starting equity, the net result of every closed episode and what every open one would
bring at the mark prices. -/
def equityWith (closedText unrealizedText openText : String) (book : EpisodeBook D)
    (startingEquity : D) (marks : ExtTreeMap String D) : Except LedgerError D := do
  let settled ← book.closed.foldlM (fun equity episode =>
    orOverflow closedText (Decimal.checkedAdd equity episode.netPnl)) startingEquity
  book.opened.toList.foldlM (addOpen unrealizedText openText marks) settled

def equity (book : EpisodeBook D) (startingEquity : D) (marks : ExtTreeMap String D) :
    Except LedgerError D :=
  book.equityWith "book equity" "book unrealized pnl" "book open equity" startingEquity marks

end EpisodeBook

namespace DualLedger

def portfolioEquity (ledger : DualLedger D) (startingEquity : D) (marks : ExtTreeMap String D)
    (unbookedFunding : D) : Except LedgerError D := do
  let equity ← ledger.portfolio.equityWith "closed equity" "unrealized pnl" "open equity"
    startingEquity marks
  orOverflow "unbooked funding" (Decimal.checkedSub equity unbookedFunding)

def sourceEquity (ledger : DualLedger D) (candidateId : String) (startingEquity : D)
    (marks : ExtTreeMap String D) : Except LedgerError D :=
  match ledger.sources[candidateId]? with
  | some book => book.equity startingEquity marks
  | none => .ok startingEquity

end DualLedger

inductive BookName
  | portfolio
  | source (candidateId : String)
deriving DecidableEq

/-- A book of the ledger; a source without a book has the empty one. -/
def DualLedger.book (ledger : DualLedger D) : BookName → EpisodeBook D
  | .portfolio => ledger.portfolio
  | .source candidateId => ledger.sources[candidateId]?.getD EpisodeBook.empty

/-- The calls of the six public mutators. -/
inductive LedgerCall (D : Type)
  | portfolioExecution (execution : ShadowExecution D) (closedAt : ℕ)
  | sourceExecution (candidateId : String) (execution : ShadowExecution D) (closedAt : ℕ)
  | portfolioFunding (asset : String) (fundingCost : D)
  | sourceAttributionResidual (candidateId : String) (episodeId : EpisodeId) (residual : D)
  | sourceEconomicResiduals (candidateId : String) (episodeId : EpisodeId)
      (residuals : DualLedger.EconomicResiduals D)
  | reconcilePortfolioGross (asset : String) (exchangeRealizedPnl : D)

def DualLedger.call [Sha256] (ledger : DualLedger D) :
    LedgerCall D → Except LedgerError (DualLedger D)
  | .portfolioExecution execution closedAt => ledger.applyPortfolioExecution execution closedAt
  | .sourceExecution candidateId execution closedAt =>
    ledger.applySourceExecution candidateId execution closedAt
  | .portfolioFunding asset fundingCost => ledger.applyPortfolioFunding asset fundingCost
  | .sourceAttributionResidual candidateId episodeId residual =>
    ledger.assignSourceAttributionResidual candidateId episodeId residual
  | .sourceEconomicResiduals candidateId episodeId residuals =>
    ledger.assignSourceEpisodeEconomicResiduals candidateId episodeId residuals
  | .reconcilePortfolioGross asset exchangeRealizedPnl =>
    ledger.reconcileLastPortfolioGrossPnl asset exchangeRealizedPnl

end CopyTrade.Model
