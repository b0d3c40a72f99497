import CopyTrade.Model.Core.ShadowIoc
import CopyTrade.Model.Observer.ComponentPartition

/-!
# A shadow fill

The shadow branch of `try_execute_pending` of crates/copytrade-observer/src/live_shadow.rs: a
pending action is sized at the price of the current book, executed against its depth, split among
the components of its asset and booked on the portfolio and on the components, and when the fill
closes a portfolio episode the component episodes it closes are reconciled with it.

The equities that the function reads before and after the booking are left out: they change no
book.  An error ends the run of the observer, so the ledger it leaves behind is not modelled.
-/

namespace CopyTrade.Model

open Foundation
open Std (ExtTreeMap)

structure OrderBookResponse (D : Type) where
  asset : String
  bids : List (DepthLevel D)
  asks : List (DepthLevel D)
deriving DecidableEq

structure ShadowSettings (D : Type) where
  latencyTimeoutMs : ℕ
  slippageBuffer : D
  maximumSlippage : D
  minOrderNotional : D
  orderRoundingBuffer : D
  closeabilityMargin : D
  takerFeeRate : D
  ledgerTimeOffset : ℕ

/-- Market rules that `project_and_validate_portfolio` has accepted, as it has those of every
decision. -/
structure AcceptedRules (D : Type) [Decimal D] extends MarketRules D where
  markPrice_pos : Decimal.lt Decimal.zero markPrice = true
  priceTick_pos : Decimal.lt Decimal.zero priceTick = true
  sizeStep_pos : Decimal.lt Decimal.zero sizeStep = true

/-- A pending action that meets a book: what its decision fixed (the action, the book, the
target of the asset with the contributions to it, the market rules) and what the moment of the
book adds (the book, its time, the target admitted by then, the funding accrued). -/
structure ShadowAttempt (D : Type) [Decimal D] where
  action : Lifecycle.PlannedAction D
  decisionBook : ShadowMarketSnapshot D
  contributions : Option (ExtTreeMap String D)
  constrainedTarget : D
  rules : AcceptedRules D
  book : OrderBookResponse D
  receivedAt : ℕ
  admittedTarget : D
  accruedFunding : D

structure SourceEpisode (D : Type) where
  candidateId : String
  sourceEpisodeId : EpisodeId
  asset : String
  modeledEntry : D
  modeledExit : D
  modeledFees : D
  modeledFunding : D
  modeledSlippage : D
  modeledGrossPnl : D
  attributionResidual : D
  modeledNetPnl : D
  netReturn : D
deriving DecidableEq

/-- The failures of the accounting of a closed portfolio episode. -/
inductive AccountingFailure (D : Type)
  | unassignableResidual (episodeId : EpisodeId) (scope : String) (residual : D)
  | unattributed (episodeId : EpisodeId) (scope : String) (portfolio attributed : D)
  | unassignableNet (episodeId : EpisodeId) (portfolioNet attributedNet residual : D)
  | noAttributionAnchor
  | unreconciledNet (episodeId : EpisodeId) (attributedNet portfolioNet : D)
deriving DecidableEq

/-- An error of a shadow fill: a failure of the accounting, or any other. -/
inductive ShadowFillError (D : Type)
  | accounting (failure : AccountingFailure D)
  | failed (error : LiveShadowError)
deriving DecidableEq

variable {D : Type} [Decimal D]

/-- The derived `Debug` of an episode id. -/
def episodeIdText (episodeId : EpisodeId) : String :=
  debugVariant "EpisodeId"
    ("[" ++ String.intercalate ", " (episodeId.1.map fun byte => Nat.repr byte.toNat) ++ "]")

def AccountingFailure.text : AccountingFailure D → String
  | unassignableResidual episodeId scope residual =>
    "accounting invariant failure for portfolio episode " ++ episodeIdText episodeId ++
      ": unassignable " ++ scope ++ " residual " ++ Decimal.text residual
  | unattributed episodeId scope portfolio attributed =>
    "accounting invariant failure for portfolio episode " ++ episodeIdText episodeId ++
      ": portfolio " ++ scope ++ " " ++ Decimal.text portfolio ++ " != attributed " ++ scope ++
        " " ++ Decimal.text attributed
  | unassignableNet episodeId portfolioNet attributedNet residual =>
    "accounting invariant failure for portfolio episode " ++ episodeIdText episodeId ++
      ": portfolio net " ++ Decimal.text portfolioNet ++ " != attributed net " ++
        Decimal.text attributedNet ++ " (unassignable residual " ++ Decimal.text residual ++ ")"
  | noAttributionAnchor =>
    "accounting invariant failure: closed portfolio episode has no attribution anchor"
  | unreconciledNet episodeId attributedNet portfolioNet =>
    "accounting invariant failure for portfolio episode " ++ episodeIdText episodeId ++
      ": deterministic residual assignment did not reconcile " ++ Decimal.text attributedNet ++
        " != " ++ Decimal.text portfolioNet

def ShadowFillError.toLiveShadowError : ShadowFillError D → LiveShadowError
  | accounting failure => .core failure.text
  | failed error => error

/-- A step whose errors are not failures of the accounting. -/
def orFailed {α : Type} (step : Except LiveShadowError α) : Except (ShadowFillError D) α :=
  step.mapError .failed

/-- `map_err(core)` of a ledger error. -/
def orLedgerFailed {α : Type} (step : Except LedgerError α) : Except (ShadowFillError D) α :=
  step.mapError fun error => .failed (.core error.text)

namespace DualLedger

def sourcePosition (ledger : DualLedger D) (candidateId asset : String) : D :=
  (ledger.sources[candidateId]?.bind fun book => book.positions[asset]?).getD Decimal.zero

def sourcePositionsForAsset (ledger : DualLedger D) (asset : String) : ExtTreeMap String D :=
  ledger.sources.filterMap fun _ book =>
    book.positions[asset]?.filter fun position => !Decimal.isZero position

end DualLedger

def SourceEpisode.report (candidateId : String) (episode : PortfolioEpisode D) :
    SourceEpisode D where
  candidateId
  sourceEpisodeId := episode.episodeId
  asset := episode.asset
  modeledEntry := episode.entryNotional
  modeledExit := episode.exitNotional
  modeledFees := episode.fees
  modeledFunding := episode.funding
  modeledSlippage := episode.slippage
  modeledGrossPnl := episode.realizedPnl
  attributionResidual := episode.attributionResidual
  modeledNetPnl := episode.netPnl
  netReturn :=
    if Decimal.isZero episode.entryNotional then Decimal.zero
    else (Decimal.checkedDiv episode.netPnl episode.entryNotional).getD Decimal.zero

/-- The last closed episode of a book that has closed one since it had `before` of them. -/
def newlyClosed (book : EpisodeBook D) (before : ℕ) : Option (PortfolioEpisode D) :=
  if before < book.closed.length then book.closed.getLast? else none

def shadowSnapshot (book : OrderBookResponse D) (observedAt : ℕ) :
    Except LiveShadowError (ShadowMarketSnapshot D) :=
  match book.bids.head?, book.asks.head? with
  | some bestBid, some bestAsk => do
    let midpoint ← orArithmetic ((Decimal.checkedAdd bestBid.price bestAsk.price).bind fun value =>
      Decimal.checkedDiv value (Decimal.new 2 0))
    pure { observedAtMono := observedAt, midpoint, bids := book.bids, asks := book.asks }
  | _, _ => .error (.invalidMarket book.asset)

def roundExchangeStep (value step : D) (roundUp : Bool) : Except LiveShadowError D :=
  if Decimal.le value Decimal.zero || Decimal.le step Decimal.zero then .error .arithmetic
  else do
    let units ← orArithmetic (Decimal.checkedDiv value step)
    let units := if roundUp then Decimal.ceil units else Decimal.floor units
    orArithmetic (Decimal.checkedMul units step)

def ShadowSettings.floorPolicy (settings : ShadowSettings D) : ExecutionFloorPolicy D where
  exchangeMinimumNotional := settings.minOrderNotional
  roundingBuffer := settings.orderRoundingBuffer
  closeabilityMargin := settings.closeabilityMargin
  maximumSlippageFraction := settings.maximumSlippage

/-- The quantity, the limit price and the required notional of an order. -/
structure SizedOrder (D : Type) where
  quantity : D
  limitPrice : D
  requiredNotional : D

/-- The rules of the asset at the price of the current book. -/
def ShadowAttempt.rulesAt (attempt : ShadowAttempt D) (referencePrice : D) : MarketRules D where
  markPrice := referencePrice
  priceTick := attempt.rules.priceTick
  sizeStep := attempt.rules.sizeStep

/-- The order of a reducing action: the planner sizes it from the position and the admitted
target.  An order below the exchange minimum is dropped. -/
def sizeReduction (settings : ShadowSettings D) (attempt : ShadowAttempt D)
    (filledQuantity : D) (evaluation : ShadowMarketSnapshot D) :
    Except LiveShadowError (Option (SizedOrder D)) := do
  let referencePrice := evaluation.midpoint
  let filledNotional ← orArithmetic (Decimal.checkedMul filledQuantity referencePrice)
  match ExitPlanning.planRiskReducingIoc {
      asset := attempt.action.asset
      desiredTargetNotional := attempt.admittedTarget
      filledNotional
      filledQuantity
      acknowledgedOpenNotional := Decimal.zero
      unknownResultNotional := Decimal.zero
      continuationNotional := Decimal.zero
      referencePrice
      marketRules := attempt.rulesAt referencePrice
      marketSnapshot := evaluation
      executionFloorPolicy := settings.floorPolicy
      executionCushion := settings.slippageBuffer
      maximumSlippage := settings.maximumSlippage } with
  | .ok exit => .ok (some ⟨exit.quantity, exit.ioc.limitPrice,
      exit.executionFloor.minimumOrderNotional⟩)
  | .error (.belowExchangeMinimum _ _) => .ok none
  | .error error => .error (.core ("exit planning blocked: " ++ error.text))

/-- The order of any other action: its notional at the price of the book, in whole lots. -/
def sizeIncrease (settings : ShadowSettings D) (attempt : ShadowAttempt D)
    (evaluation : ShadowMarketSnapshot D) : Except LiveShadowError (SizedOrder D) := do
  let referencePrice := evaluation.midpoint
  let rawQuantity ← orArithmetic
    (Decimal.checkedDiv attempt.action.roundedNotional referencePrice)
  let quantity ← roundExchangeStep rawQuantity attempt.rules.sizeStep false
  let floor ← (ExecutionFloor.executionFloorForAsset attempt.action.side
    (attempt.rulesAt referencePrice) settings.floorPolicy).mapError fun error => .core error.text
  let plan ← (planMarketableIoc attempt.action.side quantity evaluation referencePrice
    settings.slippageBuffer settings.maximumSlippage attempt.rules.priceTick).mapError
      fun error => .core error.text
  pure ⟨quantity, plan.limitPrice, floor.minimumOrderNotional⟩

def sizeOrder (settings : ShadowSettings D) (attempt : ShadowAttempt D) (filledQuantity : D)
    (evaluation : ShadowMarketSnapshot D) : Except LiveShadowError (Option (SizedOrder D)) :=
  if attempt.action.reduceOnly then sizeReduction settings attempt filledQuantity evaluation
  else (sizeIncrease settings attempt evaluation).map some

/-- The order of a pending action at a book; none when it is below the exchange minimum. -/
def attemptOrder (settings : ShadowSettings D) (attempt : ShadowAttempt D) (position : D) :
    Except LiveShadowError (Option (ShadowMarketSnapshot D × SizedOrder D)) := do
  let evaluation ← shadowSnapshot attempt.book attempt.receivedAt
  let some order ← sizeOrder settings attempt position evaluation | .ok none
  if Decimal.le order.quantity Decimal.zero then
    .error (.invalidMarket (attempt.action.asset ++ " rounded to zero quantity"))
  else do
    let valid ← (ExecutionFloor.validatesRoundedOrder order.quantity order.limitPrice
      order.requiredNotional).mapError fun error => .core error.text
    pure (if valid then some (evaluation, order) else none)

/-- The execution of an order and the ledger time it is booked at. -/
def executeOrder (settings : ShadowSettings D) (attempt : ShadowAttempt D) (position : D)
    (evaluation : ShadowMarketSnapshot D) (order : SizedOrder D) :
    Except LiveShadowError (IocExecution D × ℕ) := do
  let execution ← (executeShadowIoc {
    action := attempt.action
    decisionTimestampMono := attempt.decisionBook.observedAtMono
    decisionMarketSnapshot := attempt.decisionBook
    evaluationMarketSnapshot := evaluation
    configuredLatencyMs := settings.latencyTimeoutMs
    proposedLimitPrice := order.limitPrice
    roundedQuantity := order.quantity
    takerFeeRate := settings.takerFeeRate
    fundingAttribution := attempt.accruedFunding
    positionBefore := position }).mapError fun error => .core error.text
  let closedAt ← orArithmetic (checkedAddU64 settings.ledgerTimeOffset attempt.receivedAt)
  pure (execution, closedAt)

/-- A pending action must wait for its latency. -/
def ShadowAttempt.isEarly (settings : ShadowSettings D) (attempt : ShadowAttempt D) : Bool :=
  attempt.receivedAt < min (attempt.decisionBook.observedAtMono + settings.latencyTimeoutMs) maxU64

/-- The execution of the pending action against the book and the ledger time it is booked at; none
when it is too early for it or when its order is below the exchange minimum. -/
def executeAttempt (settings : ShadowSettings D) (ledger : DualLedger D)
    (attempt : ShadowAttempt D) : Except LiveShadowError (Option (IocExecution D × ℕ)) :=
  if attempt.isEarly settings then .ok none
  else do
    let position := ledger.portfolioPosition attempt.action.asset
    let some (evaluation, order) ← attemptOrder settings attempt position | .ok none
    let executed ← executeOrder settings attempt position evaluation order
    pure (some executed)

/-- The component targets the decision fixed. -/
def ShadowAttempt.componentTargets (attempt : ShadowAttempt D) :
    Except LiveShadowError (ExtTreeMap String D) :=
  absoluteDirectionalComponentTargets attempt.contributions attempt.constrainedTarget

/-- The split of an execution among the components, at the price of the decision. -/
def splitExecution (ledger : DualLedger D) (attempt : ShadowAttempt D)
    (componentTargets : ExtTreeMap String D) (execution : IocExecution D) :
    Except LiveShadowError (ComponentFillPartition D) :=
  partitionComponentFill (ledger.sourcePositionsForAsset attempt.action.asset)
    execution.booked.side execution.booked.modeledFilledQuantity componentTargets
    attempt.rules.markPrice execution.booked.positionAfter attempt.rules.sizeStep

/-- The share of a component in an execution. -/
def scaledSourceExecution (execution : IocExecution D) (quantity positionBefore : D) :
    Except LiveShadowError (IocExecution D) := do
  let fraction ← orArithmetic
    (Decimal.checkedDiv quantity execution.booked.modeledFilledQuantity)
  let roundedNotional ← orArithmetic (Decimal.checkedMul execution.roundedNotional fraction)
  let roundedQuantity ← orArithmetic (Decimal.checkedMul execution.roundedQuantity fraction)
  let unfilledIocRemainder ← orArithmetic (Decimal.checkedSub roundedQuantity quantity)
  let modeledFilledNotional ← orArithmetic
    (Decimal.checkedMul execution.modeledFilledNotional fraction)
  let fees ← orArithmetic (Decimal.checkedMul execution.booked.fees fraction)
  let funding ← orArithmetic (Decimal.checkedMul execution.booked.funding fraction)
  let slippage ← orArithmetic (Decimal.checkedMul execution.booked.slippage fraction)
  let positionAfter ← orArithmetic
    (Decimal.checkedAdd positionBefore (signedFill execution.booked.side quantity))
  pure {
    booked := { execution.booked with
      modeledFilledQuantity := quantity
      fees
      funding
      slippage
      positionBefore
      positionAfter }
    roundedNotional
    roundedQuantity
    unfilledIocRemainder
    modeledFilledNotional }

def bookShare [Sha256] (execution : IocExecution D) (closedAt : ℕ)
    (booked : DualLedger D × List (SourceEpisode D)) (share : String × D) :
    Except (ShadowFillError D) (DualLedger D × List (SourceEpisode D)) := do
  let asset := execution.booked.asset
  let source ← orFailed (scaledSourceExecution execution share.2
    (booked.1.sourcePosition share.1 asset))
  let ledger ← orLedgerFailed (booked.1.applySourceExecution share.1 source.booked closedAt)
  let closed := newlyClosed (ledger.book (.source share.1))
    (booked.1.book (.source share.1)).closed.length
  pure (ledger, booked.2 ++ (closed.map (SourceEpisode.report share.1)).toList)

/-- The booking of a fill: the portfolio first, then every component in order, with the episodes
that were closed. -/
def bookExecution [Sha256] (ledger : DualLedger D) (execution : IocExecution D)
    (shares : ExtTreeMap String D) (closedAt : ℕ) :
    Except (ShadowFillError D)
      (DualLedger D × Option (PortfolioEpisode D) × List (SourceEpisode D)) := do
  let portfolio ← orLedgerFailed (ledger.applyPortfolioExecution execution.booked closedAt)
  let closed := newlyClosed portfolio.portfolio ledger.portfolioClosed.length
  let (booked, closedAttributions) ←
    shares.toList.foldlM (bookShare execution closedAt) (portfolio, [])
  pure (booked, closed, closedAttributions)

def sumAttributed (figure : SourceEpisode D → D) (episodes : List (SourceEpisode D)) :
    Except (ShadowFillError D) D :=
  orFailed (orArithmetic ((episodes.map figure).foldlM Decimal.checkedAdd Decimal.zero))

/-- The four figures a closed portfolio episode is reconciled in. -/
structure EpisodeFigures (D : Type) where
  gross : D
  fees : D
  funding : D
  slippage : D
deriving DecidableEq

namespace EpisodeFigures

def named (figures : EpisodeFigures D) : List (String × D) :=
  [("gross", figures.gross), ("fees", figures.fees), ("funding", figures.funding),
    ("slippage", figures.slippage)]

def ofPortfolio (episode : PortfolioEpisode D) : EpisodeFigures D :=
  ⟨episode.realizedPnl, episode.fees, episode.funding, episode.slippage⟩

/-- The figures of the component episodes, added up. -/
def attributed (episodes : List (SourceEpisode D)) :
    Except (ShadowFillError D) (EpisodeFigures D) := do
  let gross ← sumAttributed SourceEpisode.modeledGrossPnl episodes
  let fees ← sumAttributed SourceEpisode.modeledFees episodes
  let funding ← sumAttributed SourceEpisode.modeledFunding episodes
  let slippage ← sumAttributed SourceEpisode.modeledSlippage episodes
  pure ⟨gross, fees, funding, slippage⟩

/-- What the component episodes leave of the figures of the portfolio episode. -/
def residuals (portfolio attributed : EpisodeFigures D) :
    Except (ShadowFillError D) (EpisodeFigures D) := orFailed do
  let gross ← orArithmetic (Decimal.checkedSub portfolio.gross attributed.gross)
  let fees ← orArithmetic (Decimal.checkedSub portfolio.fees attributed.fees)
  let funding ← orArithmetic (Decimal.checkedSub portfolio.funding attributed.funding)
  let slippage ← orArithmetic (Decimal.checkedSub portfolio.slippage attributed.slippage)
  pure ⟨gross, fees, funding, slippage⟩

end EpisodeFigures

/-- The component episode with the greatest candidate id, the last of several, with its place. -/
def attributionAnchor (episodes : List (SourceEpisode D)) : Option (ℕ × SourceEpisode D) :=
  episodes.zipIdx.foldl (fun anchor entry =>
    match anchor with
    | none => some (entry.2, entry.1)
    | some kept =>
      if compare kept.2.candidateId entry.1.candidateId = .gt then some kept
      else some (entry.2, entry.1)) none

/-- The ledger and the component episodes after an edit of the anchor's episode, which the
ledger reports again. -/
def correctAnchor (ledger : DualLedger D) (episodes : List (SourceEpisode D))
    (anchor : ℕ × SourceEpisode D) : DualLedger D × List (SourceEpisode D) :=
  match (ledger.book (.source anchor.2.candidateId)).closed.getLast? with
  | none => (ledger, episodes)
  | some corrected =>
    (ledger, episodes.set anchor.1 (SourceEpisode.report anchor.2.candidateId corrected))

/-- The residuals are assigned to the anchor, which is needed only where one is not zero. -/
def assignEconomicResiduals (ledger : DualLedger D) (episodes : List (SourceEpisode D))
    (portfolio attributed residuals : EpisodeFigures D) :
    Except (ShadowFillError D) (DualLedger D × List (SourceEpisode D) × EpisodeFigures D) :=
  if residuals.named.all fun entry => Decimal.isZero entry.2 then
    .ok (ledger, episodes, attributed)
  else
    match attributionAnchor episodes with
    | none =>
      .error (.failed (.core "portfolio episode closed without a component attribution"))
    | some anchor => do
      let corrected ← orLedgerFailed (ledger.assignSourceEpisodeEconomicResiduals
        anchor.2.candidateId anchor.2.sourceEpisodeId
        ⟨residuals.gross, residuals.fees, residuals.funding, residuals.slippage⟩)
      let (ledger, episodes) := correctAnchor corrected episodes anchor
      pure (ledger, episodes, portfolio)

/-- The net result of the component episodes is brought to that of the portfolio episode. -/
def reconcileNet (ledger : DualLedger D) (episode : PortfolioEpisode D)
    (episodes : List (SourceEpisode D)) (maximumResidual : D) :
    Except (ShadowFillError D) (DualLedger D × List (SourceEpisode D)) := do
  let attributedNet ← sumAttributed SourceEpisode.modeledNetPnl episodes
  if Decimal.eqv attributedNet episode.netPnl then pure (ledger, episodes)
  else do
    let residual ← orFailed (orArithmetic (Decimal.checkedSub episode.netPnl attributedNet))
    if Decimal.lt maximumResidual (Decimal.abs residual) then
      .error (.accounting (.unassignableNet episode.episodeId episode.netPnl attributedNet residual))
    else
      match attributionAnchor episodes with
      | none => .error (.accounting .noAttributionAnchor)
      | some anchor => do
        let corrected ← orLedgerFailed (ledger.assignSourceAttributionResidual
          anchor.2.candidateId anchor.2.sourceEpisodeId residual)
        let (ledger, episodes) := correctAnchor corrected episodes anchor
        let attributedNet ← sumAttributed SourceEpisode.modeledNetPnl episodes
        if Decimal.eqv attributedNet episode.netPnl then pure (ledger, episodes)
        else .error (.accounting (.unreconciledNet episode.episodeId attributedNet episode.netPnl))

/-- The reconciliation of a closed portfolio episode with the component episodes the same fill
closed. -/
def reconcileEpisode (ledger : DualLedger D) (episode : PortfolioEpisode D)
    (episodes : List (SourceEpisode D)) :
    Except (ShadowFillError D) (DualLedger D × List (SourceEpisode D)) := do
  let portfolio := EpisodeFigures.ofPortfolio episode
  let attributed ← EpisodeFigures.attributed episodes
  let maximumResidual : D := Decimal.new episodes.length 28
  let residuals ← portfolio.residuals attributed
  checkAll (fun entry =>
    if Decimal.lt maximumResidual (Decimal.abs entry.2) then
      .error (.accounting (.unassignableResidual episode.episodeId entry.1 entry.2))
    else .ok ()) residuals.named
  let (ledger, episodes, attributed) ←
    assignEconomicResiduals ledger episodes portfolio attributed residuals
  checkAll (fun entry =>
    if Decimal.eqv entry.1.2 entry.2.2 then .ok ()
    else .error (.accounting
      (.unattributed episode.episodeId entry.1.1 entry.1.2 entry.2.2)))
    (portfolio.named.zip attributed.named)
  reconcileNet ledger episode episodes maximumResidual

/-- The component positions add up to the portfolio position, within a fraction of a lot. -/
def validateSourceReconciliation (ledger : DualLedger D) (asset : String)
    (portfolioPosition sizeStep : D) : Except LiveShadowError Unit := do
  let sum ← sumValues (ledger.sourcePositionsForAsset asset)
  requireReconciled ("source positions do not reconcile for " ++ asset ++ ": ") sum
    portfolioPosition sizeStep

structure ShadowFillReport (D : Type) where
  ledger : DualLedger D
  execution : IocExecution D
  partition : ComponentFillPartition D
  closedEpisode : Option (PortfolioEpisode D)
  closedAttributions : List (SourceEpisode D)

/-- The booking and the reconciliation of an execution that has been split. -/
def settleExecution [Sha256] (ledger : DualLedger D) (attempt : ShadowAttempt D)
    (execution : IocExecution D) (closedAt : ℕ) (partition : ComponentFillPartition D) :
    Except (ShadowFillError D) (ShadowFillReport D) := do
  let (booked, closedEpisode, episodes) ←
    bookExecution ledger execution partition.totalQuantities closedAt
  let (reconciled, closedAttributions) ← (match closedEpisode with
    | none => pure (booked, episodes)
    | some episode => reconcileEpisode booked episode episodes)
  orFailed (validateSourceReconciliation reconciled attempt.action.asset
    execution.booked.positionAfter attempt.rules.sizeStep)
  pure { ledger := reconciled, execution, partition, closedEpisode, closedAttributions }

/-- The shadow branch of `try_execute_pending`, with the component targets of the decision; none
when nothing is executed. -/
def tryExecutePending [Sha256] (settings : ShadowSettings D) (ledger : DualLedger D)
    (attempt : ShadowAttempt D) : Except (ShadowFillError D) (Option (ShadowFillReport D)) := do
  let componentTargets ← orFailed attempt.componentTargets
  match ← orFailed (executeAttempt settings ledger attempt) with
  | none => pure none
  | some (execution, closedAt) => do
    let partition ← orFailed (splitExecution ledger attempt componentTargets execution)
    let report ← settleExecution ledger attempt execution closedAt partition
    pure (some report)

/-- The ledger of an observer and the error that has ended its run, if one has: every caller hands
an error of the engine up and ends. -/
structure ShadowRun (D : Type) where
  ledger : DualLedger D
  stopped : Option (ShadowFillError D)

namespace ShadowRun

def start : ShadowRun D := ⟨DualLedger.empty, none⟩

def step [Sha256] (settings : ShadowSettings D) (state : ShadowRun D) (attempt : ShadowAttempt D) :
    ShadowRun D :=
  match state.stopped with
  | some _ => state
  | none =>
    match tryExecutePending settings state.ledger attempt with
    | .error error => { state with stopped := some error }
    | .ok none => state
    | .ok (some report) => { state with ledger := report.ledger }

end ShadowRun

end CopyTrade.Model
