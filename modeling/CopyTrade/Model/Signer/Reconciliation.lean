import CopyTrade.Model.Core.LiveTrading
import CopyTrade.Model.Signer.Registry
import Mathlib.Data.List.Sort

/-!
# Applying authenticated exchange records

The record types of crates/copytrade-signer/src/transport.rs and
`apply_authenticated_batches` of crates/copytrade-signer/src/reconciliation.rs: fills and
funding records are sorted by exchange time, fills before funding at one instant, and applied
to a copy of the live state.
-/

namespace CopyTrade.Model

open Foundation

/-- `FillCursor` and `FundingCursor`. -/
structure EventCursor where
  startTimeMs : ℕ
  endTimeMs : Option ℕ
deriving DecidableEq

structure UserFill (D : Type) where
  cloid : PlannedCloid
  exchangeOrderId : String
  tradeId : String
  asset : String
  side : String
  price : D
  quantity : D
  closedPnl : D
  fee : D
  feeToken : String
  crossed : Bool
  occurredAtMs : ℕ
  sourceHash : Hash
deriving DecidableEq

structure FundingRecord (D : Type) where
  eventHash : String
  asset : String
  signedUsdcDelta : D
  occurredAtMs : ℕ
  sourceHash : Hash
deriving DecidableEq

/-- `UserFillBatch` and `FundingBatch`: one page of records and the cursor after it.  The hash of
the page is not read. -/
structure EventBatch (α : Type) where
  records : List α
  nextCursor : EventCursor
deriving DecidableEq

structure AppliedExchangeBatch (D : Type) where
  fills : List (VerifiedExchangeFill D)
  funding : List (VerifiedFundingEvent D)

inductive ExchangeEvent (D : Type)
  | fill (record : UserFill D)
  | funding (record : FundingRecord D)

namespace ExchangeEvent

variable {D : Type}

def occurredAt : ExchangeEvent D → ℕ
  | .fill record => record.occurredAtMs
  | .funding record => record.occurredAtMs

def kind : ExchangeEvent D → ℕ
  | .fill _ => 0
  | .funding _ => 1

def asset : ExchangeEvent D → String
  | .fill record => record.asset
  | .funding record => record.asset

def identifier : ExchangeEvent D → String
  | .fill record => record.tradeId
  | .funding record => record.eventHash

/-- The order of the keys `(occurred_at, kind, identifier)`. -/
def keyLe (left right : ExchangeEvent D) : Prop :=
  left.occurredAt < right.occurredAt ∨ left.occurredAt = right.occurredAt ∧
    (left.kind < right.kind ∨ left.kind = right.kind ∧ left.identifier ≤ right.identifier)

instance : DecidableRel (keyLe (D := D)) := fun left right =>
  inferInstanceAs (Decidable (_ ∨ _ ∧ (_ ∨ _ ∧ left.identifier ≤ right.identifier)))

/-- Two neighbours of one asset and one instant but of different kinds. -/
def ambiguous (left right : ExchangeEvent D) : Bool :=
  left.occurredAt == right.occurredAt && left.asset == right.asset && left.kind != right.kind

end ExchangeEvent

variable {D : Type} [Decimal D]

def fundingId [Sha256] (exchangeEventHash : String) : Hash :=
  Sha256.digest (textBytes "LIVE/FUNDING_EVENT/V1" ++
    bigEndian 4 (textBytes exchangeEventHash).length ++ textBytes exchangeEventHash)

/-- `ok_or(InvalidIntent)`. -/
def orInvalidIntent {α : Type} : Option α → Except SignerError α
  | none => .error .invalidIntent
  | some value => .ok value

/-- The fill of an order as the ledger books it. -/
def verifiedFill (fill : UserFill D) (durable : ApprovedExecutionIntent D) (exchangeEquity : D) :
    Except SignerError (VerifiedExchangeFill D) :=
  let expectedSide := if durable.isBuy then "B" else "A"
  if fill.asset != durable.asset || fill.side != expectedSide then .error .exchangeFillMismatch
  else do
    let decisionId ← orInvalidIntent (decodeHex32 durable.decisionId)
    let rootCloid ← orInvalidIntent (decodePlannedCloid durable.rootCloid)
    let parentCloid ← (match durable.parentCloid with
      | none => pure none
      | some parent => do
        let cloid ← orInvalidIntent (decodePlannedCloid parent)
        pure (some cloid))
    pure {
      identity := {
        exchangeOrderId := fill.exchangeOrderId
        tradeId := fill.tradeId
        cloid := fill.cloid }
      decisionId
      targetVersion := durable.targetVersion
      rootCloid
      parentCloid
      continuationGeneration := durable.continuationGeneration
      asset := fill.asset
      side := if durable.isBuy then .buy else .sell
      reduceOnly := durable.reduceOnly
      filledQuantity := fill.quantity
      averageFillPrice := fill.price
      submittedLimitPrice := durable.limitPrice
      feeAmount := fill.fee
      exchangeClosedPnl := fill.closedPnl
      feeAsset := fill.feeToken
      liquidity := if fill.crossed then .taker else .maker
      decisionReferencePrice := durable.decisionReferencePrice
      occurredAt := fill.occurredAtMs
      decisionTimestamp := durable.decisionTimestampMs
      exchangeEquityAfter := exchangeEquity
      sourceHash := fill.sourceHash }

def verifiedFunding [Sha256] (event : FundingRecord D) : VerifiedFundingEvent D where
  eventId := fundingId event.eventHash
  asset := event.asset
  amount := event.signedUsdcDelta
  occurredAt := event.occurredAtMs
  sourceHash := event.sourceHash

/-- `map_err(|error| SignerError::Ledger(error.to_string()))`. -/
def ledgerResult {α : Type} : Except LedgerError α → Except SignerError α
  | .error error => .error (.ledger error.text)
  | .ok value => .ok value

def applyExchangeEvent [Sha256] (registry : SubmissionRegistry D) (exchangeEquity : D)
    (acc : LiveTradingState D × AppliedExchangeBatch D) (event : ExchangeEvent D) :
    Except SignerError (LiveTradingState D × AppliedExchangeBatch D) :=
  match event with
  | .fill fill =>
    match registry.intent (toHex fill.cloid) with
    | none => .error .unknownCloid
    | some durable => do
      let verified ← verifiedFill fill durable exchangeEquity
      let (result, next) ← ledgerResult (applyExchangeFill acc.1 verified)
      match result with
      | .applied _ _ => pure (next, { acc.2 with fills := acc.2.fills ++ [verified] })
      | .alreadyApplied => pure (next, acc.2)
  | .funding record => do
    let verified := verifiedFunding record
    let (result, next) ← ledgerResult (applyFundingEvent acc.1 verified)
    match result with
    | .applied _ => pure (next, { acc.2 with funding := acc.2.funding ++ [verified] })
    | .alreadyApplied => pure (next, acc.2)

/-- The events of two batches in the order they are applied in. -/
def sortedEvents (fills : EventBatch (UserFill D)) (funding : EventBatch (FundingRecord D)) :
    List (ExchangeEvent D) :=
  (fills.records.map ExchangeEvent.fill ++
    funding.records.map ExchangeEvent.funding).insertionSort ExchangeEvent.keyLe

/-- `apply_authenticated_batches` up to the save: the caller writes the returned state to the ledger
file and keeps the old one if that fails. -/
def applyAuthenticatedBatches [Sha256] (state : LiveTradingState D)
    (registry : SubmissionRegistry D) (fills : EventBatch (UserFill D))
    (funding : EventBatch (FundingRecord D)) (reconciledExchangeEquity : D) :
    Except SignerError (LiveTradingState D × AppliedExchangeBatch D) :=
  let events := sortedEvents fills funding
  if (events.zip events.tail).any fun pair => pair.1.ambiguous pair.2 then
    .error .ambiguousExchangeEventOrdering
  else do
    let (applied, batch) ← events.foldlM (applyExchangeEvent registry reconciledExchangeEquity)
      (state, ⟨[], []⟩)
    let filled ← ledgerResult (applied.advanceFillCursor fills.nextCursor.startTimeMs)
    let funded ← ledgerResult (filled.advanceFundingCursor funding.nextCursor.startTimeMs)
    let reconciled ← ledgerResult (funded.reconcileEquity reconciledExchangeEquity)
    pure (reconciled, batch)

end CopyTrade.Model
