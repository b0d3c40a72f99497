import CopyTrade.Model.Signer.Production

/-!
# Fills and funding on the wire

The exchange answers a request for fills or funding with a list of records on the wire.  The
transport of crates/copytrade-signer/src/transport.rs parses them and moves the cursor behind the
latest one; a record it cannot parse makes the whole page fail.
-/

namespace CopyTrade.Model

open Foundation

/-- `Decimal::from_str`, with the text of its error. -/
class DecimalFromStr (D : Type) where
  fromStr : String → Except String D

structure UserFillWire where
  closedPnl : String
  coin : String
  crossed : Bool
  oid : UInt64
  px : String
  side : String
  sz : String
  time : UInt64
  fee : String
  feeToken : String
  tid : UInt64
  cloid : Option String
deriving DecidableEq

structure FundingDeltaWire where
  coin : String
  usdc : String
deriving DecidableEq

structure FundingWire where
  time : UInt64
  hash : String
  delta : FundingDeltaWire
deriving DecidableEq

namespace Transport

variable {D : Type} [Decimal D] [DecimalFromStr D]

def parseSignedDecimal (value : String) : Except ReconciliationError D :=
  (DecimalFromStr.fromStr value).mapError .invalidResponse

def parseDecimal (value : String) : Except ReconciliationError D := do
  let value : D ← parseSignedDecimal value
  if Decimal.lt value Decimal.zero then throw (.invalidResponse "expected nonnegative decimal")
  else pure value

def parseCloid (value : String) : Except ReconciliationError PlannedCloid :=
  let raw := stripHexPrefix value.toList
  if raw.length ≠ 32 ∨ raw.any (fun c => (hexValue c).isNone) then
    .error (.invalidResponse "invalid cloid")
  else
    match decodeHex 16 raw with
    | some cloid => .ok cloid
    | none => .error (.invalidResponse "invalid cloid")

end Transport

section

open Transport

variable {D : Type} [Decimal D] [DecimalFromStr D]

/-- A fill of a page, in the order in which its fields are parsed. -/
def UserFillWire.record (sourceHash : Hash) (fill : UserFillWire) :
    Except ReconciliationError (UserFill D) := do
  let cloid ←
    match fill.cloid with
    | none => .error (.invalidResponse "fill missing CLOID")
    | some cloid => Transport.parseCloid cloid
  let price ← parseDecimal fill.px
  let quantity ← parseDecimal fill.sz
  let closedPnl ← parseSignedDecimal fill.closedPnl
  let fee ← parseSignedDecimal fill.fee
  pure {
    cloid
    exchangeOrderId := toString fill.oid.toNat
    tradeId := toString fill.tid.toNat
    asset := fill.coin
    side := fill.side
    price, quantity, closedPnl, fee
    feeToken := fill.feeToken
    crossed := fill.crossed
    occurredAtMs := fill.time.toNat
    sourceHash }

def FundingWire.record (sourceHash : Hash) (event : FundingWire) :
    Except ReconciliationError (FundingRecord D) := do
  let signedUsdcDelta ← parseSignedDecimal event.delta.usdc
  pure {
    eventHash := event.hash
    asset := event.delta.coin
    signedUsdcDelta
    occurredAtMs := event.time.toNat
    sourceHash }

end

/-- A page from what the exchange answered: its records, and a cursor behind the latest of them
(`next.max(time.saturating_add(1))`). -/
def readPage {W R : Type} (time : W → UInt64) (record : Hash → W → Except ReconciliationError R)
    (cursor : EventCursor) (wire : List W) (sourceHash : Hash) :
    Except ReconciliationError (EventBatch R) := do
  let records ← wire.mapM (record sourceHash)
  pure {
    records
    nextCursor := {
      startTimeMs := wire.foldl (fun next event => max next (saturatingAdd (time event).toNat 1))
        cursor.startTimeMs
      endTimeMs := cursor.endTimeMs } }

variable {D : Type} [Decimal D] [DecimalFromStr D]

def readFills (cursor : EventCursor) (wire : List UserFillWire) (sourceHash : Hash) :
    Except ReconciliationError (EventBatch (UserFill D)) :=
  readPage UserFillWire.time UserFillWire.record cursor wire sourceHash

def readFunding (cursor : EventCursor) (wire : List FundingWire) (sourceHash : Hash) :
    Except ReconciliationError (EventBatch (FundingRecord D)) :=
  readPage FundingWire.time FundingWire.record cursor wire sourceHash

end CopyTrade.Model
