import CopyTrade.Foundation.Maps
import CopyTrade.Foundation.Results
import CopyTrade.Foundation.Words
import CopyTrade.Model.Decimal
import CopyTrade.Model.Identity

/-!
# The episode ledger

`EpisodeBook` and the portfolio half of `DualLedger` of crates/copytrade-core/src/ledger.rs.
A book keeps the signed position of every asset, the open episode behind it and the closed
episodes.  A mutator that fails leaves the book as it was for its callers (they apply it to a
clone), so each is a function `… → Except LedgerError …`.
-/

namespace CopyTrade.Model

open Foundation
open Std (ExtTreeMap)

abbrev EpisodeId := Bytes 32

structure PortfolioEpisode (D : Type) where
  episodeId : EpisodeId
  asset : String
  openedAt : ℕ
  closedAt : ℕ
  openingDecisionId : Hash
  entryNotional : D
  exitNotional : D
  realizedPnl : D
  fees : D
  funding : D
  slippage : D
  attributionResidual : D
  netPnl : D
deriving DecidableEq

structure OpenEpisode (D : Type) where
  episodeId : EpisodeId
  asset : String
  openedAt : ℕ
  openingDecisionId : Hash
  signedQuantity : D
  averageEntryPrice : D
  entryNotional : D
  exitNotional : D
  realizedPnl : D
  fees : D
  funding : D
  slippage : D
deriving DecidableEq

structure EpisodeBook (D : Type) where
  positions : ExtTreeMap String D
  opened : ExtTreeMap String (OpenEpisode D)
  closed : List (PortfolioEpisode D)
  nextEpisodeSequence : ℕ
deriving DecidableEq

structure DualLedger (D : Type) where
  schemaVersion : ℕ
  portfolio : EpisodeBook D
  sources : ExtTreeMap String (EpisodeBook D)
deriving DecidableEq

inductive LedgerError
  | positionDivergence
  | missingFillPrice
  | missingMarkPrice
  | arithmeticOverflow (operation : String)
  | invalidExecution
  | persistence (message : String)
  | schemaMismatch
  | invalidLiveEvent (message : String)
deriving DecidableEq

/-- `to_string()` of a ledger error, its derived `Debug`. -/
def LedgerError.text : LedgerError → String
  | positionDivergence => "PositionDivergence"
  | missingFillPrice => "MissingFillPrice"
  | missingMarkPrice => "MissingMarkPrice"
  | arithmeticOverflow operation => debugVariant "ArithmeticOverflow" (quoted operation)
  | invalidExecution => "InvalidExecution"
  | persistence message => debugVariant "Persistence" (quoted message)
  | schemaMismatch => "SchemaMismatch"
  | invalidLiveEvent message => debugVariant "InvalidLiveEvent" (quoted message)

/-- The fields of an execution that the ledger reads, those of its action included. -/
structure ShadowExecution (D : Type) where
  asset : String
  side : Side
  decisionId : Hash
  plannedCloid : PlannedCloid
  decisionTimestampMono : ℕ
  modeledFilledQuantity : D
  modeledAverageFillPrice : Option D
  fees : D
  funding : D
  slippage : D
  positionBefore : D
  positionAfter : D
deriving DecidableEq

/-- `ok_or(ArithmeticOverflow(operation))`. -/
def orOverflow {α : Type} (operation : String) : Option α → Except LedgerError α
  | none => .error (.arithmeticOverflow operation)
  | some value => .ok value

variable {D : Type} [Decimal D]

namespace EpisodeBook

def empty : EpisodeBook D := ⟨∅, ∅, [], 0⟩

def position (book : EpisodeBook D) (asset : String) : D :=
  book.positions[asset]?.getD Decimal.zero

def deriveEpisodeId [Sha256] (asset : String) (decisionId : Hash) (cloid : PlannedCloid)
    (sequence : ℕ) : EpisodeId :=
  Sha256.digest (textBytes "HL1G/EPISODE/V1" ++ bigEndian 4 (textBytes asset).length ++
    textBytes asset ++ decisionId.1 ++ cloid.1 ++ bigEndian 8 sequence)

def addFraction (current value fraction : D) (name : String) : Except LedgerError D := do
  let part ← orOverflow name (Decimal.checkedMul value fraction)
  orOverflow name (Decimal.checkedAdd current part)

def addCosts (episode : OpenEpisode D) (execution : ShadowExecution D) (fraction : D) :
    Except LedgerError (OpenEpisode D) := do
  let fees ← addFraction episode.fees execution.fees fraction "fees"
  let funding ← addFraction episode.funding execution.funding fraction "funding"
  let slippage ← addFraction episode.slippage execution.slippage fraction "slippage"
  pure { episode with fees, funding, slippage }

def openNew [Sha256] (book : EpisodeBook D) (execution : ShadowExecution D)
    (price signedQuantity costFraction : D) : Except LedgerError (EpisodeBook D) := do
  let next ← orOverflow "episode sequence" (checkedAddU64 book.nextEpisodeSequence 1)
  let entryNotional ← orOverflow "entry notional"
    (Decimal.checkedMul (Decimal.abs signedQuantity) price)
  let episode ← addCosts {
      episodeId := deriveEpisodeId execution.asset execution.decisionId execution.plannedCloid
        book.nextEpisodeSequence
      asset := execution.asset
      openedAt := execution.decisionTimestampMono
      openingDecisionId := execution.decisionId
      signedQuantity
      averageEntryPrice := price
      entryNotional
      exitNotional := Decimal.zero
      realizedPnl := Decimal.zero
      fees := Decimal.zero
      funding := Decimal.zero
      slippage := Decimal.zero } execution costFraction
  pure { book with
    nextEpisodeSequence := next
    opened := book.opened.insert execution.asset episode }

def grow (episode : OpenEpisode D) (execution : ShadowExecution D) (price signedDelta : D) :
    Except LedgerError (OpenEpisode D) := do
  let oldQuantity := Decimal.abs episode.signedQuantity
  let added := Decimal.abs signedDelta
  let total ← orOverflow "episode quantity" (Decimal.checkedAdd oldQuantity added)
  let oldValue ← orOverflow "entry value"
    (Decimal.checkedMul oldQuantity episode.averageEntryPrice)
  let addedValue ← orOverflow "entry value" (Decimal.checkedMul added price)
  let averageEntryPrice ← orOverflow "average entry"
    ((Decimal.checkedAdd oldValue addedValue).bind fun value => Decimal.checkedDiv value total)
  let signedQuantity ← orOverflow "episode quantity"
    (Decimal.checkedAdd episode.signedQuantity signedDelta)
  let entryNotional ← orOverflow "entry notional"
    (Decimal.checkedAdd episode.entryNotional addedValue)
  addCosts { episode with averageEntryPrice, signedQuantity, entryNotional } execution
    Decimal.one

def addSameDirection [Sha256] (book : EpisodeBook D) (execution : ShadowExecution D)
    (price signedDelta : D) : Except LedgerError (EpisodeBook D) :=
  match book.opened[execution.asset]? with
  | some episode => do
    let grown ← grow episode execution price signedDelta
    pure { book with opened := book.opened.insert execution.asset grown }
  | none => openNew book execution price signedDelta Decimal.one

/-- The open episode after `closingQuantity` of it is closed. -/
def reduce (episode : OpenEpisode D) (execution : ShadowExecution D)
    (price closingQuantity closingFraction : D) : Except LedgerError (OpenEpisode D) := do
  let pnlPerUnit ← orOverflow "realized pnl"
    (if Decimal.isSignPositive episode.signedQuantity then
      Decimal.checkedSub price episode.averageEntryPrice
    else Decimal.checkedSub episode.averageEntryPrice price)
  let pnl ← orOverflow "realized pnl" (Decimal.checkedMul pnlPerUnit closingQuantity)
  let realizedPnl ← orOverflow "realized pnl" (Decimal.checkedAdd episode.realizedPnl pnl)
  let exit ← orOverflow "exit notional" (Decimal.checkedMul price closingQuantity)
  let exitNotional ← orOverflow "exit notional" (Decimal.checkedAdd episode.exitNotional exit)
  let charged ← addCosts { episode with realizedPnl, exitNotional } execution closingFraction
  let signedClose :=
    if Decimal.isSignPositive episode.signedQuantity then Decimal.neg closingQuantity
    else closingQuantity
  let signedQuantity ← orOverflow "episode close"
    (Decimal.checkedAdd episode.signedQuantity signedClose)
  pure { charged with signedQuantity }

/-- `realized_pnl - fees - funding - slippage`, each step checked. -/
def netOf (realizedPnl fees funding slippage : D) : Option D := do
  let afterFees ← Decimal.checkedSub realizedPnl fees
  let afterFunding ← Decimal.checkedSub afterFees funding
  Decimal.checkedSub afterFunding slippage

def closedEpisode (episode : OpenEpisode D) (closedAt : ℕ) :
    Except LedgerError (PortfolioEpisode D) := do
  let netPnl ← orOverflow "net pnl"
    (netOf episode.realizedPnl episode.fees episode.funding episode.slippage)
  pure {
    episodeId := episode.episodeId
    asset := episode.asset
    openedAt := episode.openedAt
    closedAt
    openingDecisionId := episode.openingDecisionId
    entryNotional := episode.entryNotional
    exitNotional := episode.exitNotional
    realizedPnl := episode.realizedPnl
    fees := episode.fees
    funding := episode.funding
    slippage := episode.slippage
    attributionResidual := Decimal.zero
    netPnl }

def finishEpisode (book : EpisodeBook D) (asset : String) (closedAt : ℕ) :
    Except LedgerError (EpisodeBook D) :=
  match book.opened[asset]? with
  | none => .error .positionDivergence
  | some episode => do
    let closed ← closedEpisode episode closedAt
    pure { book with opened := book.opened.erase asset, closed := book.closed ++ [closed] }

def closeOrFlip [Sha256] (book : EpisodeBook D) (execution : ShadowExecution D)
    (price signedDelta : D) (closedAt : ℕ) : Except LedgerError (EpisodeBook D) :=
  match book.opened[execution.asset]? with
  | none => .error .positionDivergence
  | some episode => do
    let fillQuantity := Decimal.abs signedDelta
    let closingQuantity := Decimal.min fillQuantity (Decimal.abs episode.signedQuantity)
    let closingFraction ← orOverflow "closing fraction"
      (Decimal.checkedDiv closingQuantity fillQuantity)
    let reduced ← reduce episode execution price closingQuantity closingFraction
    let held := { book with opened := book.opened.insert execution.asset reduced }
    let settled ←
      (if Decimal.isZero reduced.signedQuantity then finishEpisode held execution.asset closedAt
      else .ok held)
    let residual ← orOverflow "flip residual" (Decimal.checkedSub fillQuantity closingQuantity)
    if Decimal.isZero residual then pure settled
    else
      let residualFraction ← orOverflow "residual fraction"
        (Decimal.checkedSub Decimal.one closingFraction)
      let residualSigned :=
        if Decimal.isSignPositive signedDelta then residual else Decimal.neg residual
      openNew settled execution price residualSigned residualFraction

def signedDelta (execution : ShadowExecution D) : D :=
  match execution.side with
  | .buy => execution.modeledFilledQuantity
  | .sell => Decimal.neg execution.modeledFilledQuantity

/-- A fill of `delta` on a position `current` enlarges it or opens one; any other fill closes
or flips it. -/
def sameDirection (current delta : D) : Bool :=
  Decimal.isZero current || Decimal.isSignPositive current == Decimal.isSignPositive delta

/-- The positions after a fill: a position of zero is not kept. -/
def setPosition (book : EpisodeBook D) (asset : String) (value : D) : EpisodeBook D :=
  { book with
    positions :=
      if Decimal.isZero value then book.positions.erase asset
      else book.positions.insert asset value }

/-- The branch of `apply` on the direction of the fill. -/
def trade [Sha256] (book : EpisodeBook D) (execution : ShadowExecution D) (price delta : D)
    (closedAt : ℕ) : Except LedgerError (EpisodeBook D) :=
  if sameDirection (book.position execution.asset) delta then
    addSameDirection book execution price delta
  else closeOrFlip book execution price delta closedAt

def apply [Sha256] (book : EpisodeBook D) (execution : ShadowExecution D) (closedAt : ℕ) :
    Except LedgerError (EpisodeBook D) :=
  if !Decimal.eqv (book.position execution.asset) execution.positionBefore then
    .error .positionDivergence
  else if Decimal.isZero execution.modeledFilledQuantity then
    if !Decimal.eqv execution.positionAfter (book.position execution.asset) then
      .error .positionDivergence
    else .ok book
  else
    match execution.modeledAverageFillPrice with
    | none => .error .missingFillPrice
    | some price => do
      let calculatedAfter ← orOverflow "position"
        (Decimal.checkedAdd (book.position execution.asset) (signedDelta execution))
      if !Decimal.eqv calculatedAfter execution.positionAfter then .error .positionDivergence
      else
        let traded ← trade book execution price (signedDelta execution) closedAt
        pure (traded.setPosition execution.asset calculatedAfter)

theorem orOverflow_eq_ok_iff {α : Type} {operation : String} {x : Option α} {a : α} :
    orOverflow operation x = .ok a ↔ x = some a := by
  cases x <;> simp [orOverflow]

/-- When a fill can be applied to a book, and what it leaves behind. -/
theorem apply_eq_ok_iff [Sha256] {book next : EpisodeBook D} {execution : ShadowExecution D}
    {closedAt : ℕ} :
    book.apply execution closedAt = .ok next ↔
      Decimal.eqv (book.position execution.asset) execution.positionBefore = true ∧
        (Decimal.isZero execution.modeledFilledQuantity = true ∧
            Decimal.eqv execution.positionAfter (book.position execution.asset) = true ∧
            book = next ∨
          Decimal.isZero execution.modeledFilledQuantity = false ∧
            ∃ price after traded, execution.modeledAverageFillPrice = some price ∧
              Decimal.checkedAdd (book.position execution.asset) (signedDelta execution) =
                some after ∧
              Decimal.eqv after execution.positionAfter = true ∧
              trade book execution price (signedDelta execution) closedAt = .ok traded ∧
              traded.setPosition execution.asset after = next) := by
  unfold apply
  cases hbefore : Decimal.eqv (book.position execution.asset) execution.positionBefore with
  | false => simp
  | true =>
    cases hquantity : Decimal.isZero execution.modeledFilledQuantity with
    | true =>
      cases hafter : Decimal.eqv execution.positionAfter (book.position execution.asset) <;> simp
    | false =>
      cases hprice : execution.modeledAverageFillPrice with
      | none => simp
      | some price =>
        simp only [Bool.not_true, Bool.false_eq_true, if_false, bind_eq_ok_iff,
          orOverflow_eq_ok_iff, true_and, false_and, false_or]
        constructor
        · rintro ⟨after, hadd, h⟩
          split at h
          · cases h
          rename_i hmatches
          obtain ⟨traded, htraded, h⟩ := of_bind h
          exact ⟨price, after, traded, rfl, hadd, by simpa using hmatches, htraded,
            pure_eq_ok_iff.mp h⟩
        · rintro ⟨_, after, traded, hsame, hadd, hmatches, htraded, rfl⟩
          cases hsame
          refine ⟨after, hadd, ?_⟩
          rw [hmatches]
          exact bind_eq_ok_iff.mpr ⟨traded, htraded, rfl⟩

end EpisodeBook

namespace DualLedger

def empty : DualLedger D := ⟨2, EpisodeBook.empty, ∅⟩

def portfolioPosition (ledger : DualLedger D) (asset : String) : D :=
  ledger.portfolio.position asset

def portfolioClosed (ledger : DualLedger D) : List (PortfolioEpisode D) :=
  ledger.portfolio.closed

/-- `apply_portfolio_execution`, without the reference it returns to the closed episode. -/
def applyPortfolioExecution [Sha256] (ledger : DualLedger D) (execution : ShadowExecution D)
    (closedAt : ℕ) : Except LedgerError (DualLedger D) := do
  let portfolio ← ledger.portfolio.apply execution closedAt
  pure { ledger with portfolio }

def applyPortfolioFunding (ledger : DualLedger D) (asset : String) (fundingCost : D) :
    Except LedgerError (DualLedger D) :=
  match ledger.portfolio.opened[asset]? with
  | none => .error .positionDivergence
  | some episode => do
    let funding ← orOverflow "funding" (Decimal.checkedAdd episode.funding fundingCost)
    pure { ledger with portfolio := { ledger.portfolio with
      opened := ledger.portfolio.opened.insert asset { episode with funding } } }

def reconcileLastPortfolioGrossPnl (ledger : DualLedger D) (asset : String)
    (exchangeRealizedPnl : D) : Except LedgerError (DualLedger D) :=
  match ledger.portfolio.closed.getLast? with
  | none => .error .positionDivergence
  | some episode =>
    if episode.asset != asset then .error .positionDivergence
    else do
      let netPnl ← orOverflow "exchange reconciled episode net pnl"
        (EpisodeBook.netOf exchangeRealizedPnl episode.fees episode.funding episode.slippage)
      pure { ledger with portfolio := { ledger.portfolio with
        closed := ledger.portfolio.closed.dropLast ++
          [{ episode with realizedPnl := exchangeRealizedPnl, netPnl }] } }

end DualLedger

end CopyTrade.Model
