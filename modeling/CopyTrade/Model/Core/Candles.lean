import CopyTrade.Model.Decimal
import Std.Data.ExtTreeMap

/-!
# Closed candles

`accept_closed_candle` of crates/copytrade-core/src/technical.rs: the engine keeps the newest 500
candles of every asset and interval and the identities of what it keeps, takes a candle it keeps for
a duplicate and refuses any other candle that is not newer than the newest.  Scores, the
configuration and the counters are left out: the function does not read them.

A `VecDeque` is a list with its front first, a `BTreeSet` of identities a list of them, and an
interval without an entry has an empty list.
-/

namespace CopyTrade.Model

open Std (ExtTreeMap)

inductive CandleInterval
  | fifteenMinutes
  | thirtyMinutes
  | oneHour
  | fourHours
  | twelveHours
deriving DecidableEq

def CandleInterval.durationMs : CandleInterval → ℕ
  | fifteenMinutes => 15 * 60 * 1000
  | thirtyMinutes => 30 * 60 * 1000
  | oneHour => 60 * 60 * 1000
  | fourHours => 4 * 60 * 60 * 1000
  | twelveHours => 12 * 60 * 60 * 1000

def CandleInterval.warmupCandles : CandleInterval → ℕ
  | fifteenMinutes => 22
  | thirtyMinutes => 51
  | oneHour => 51
  | fourHours => 101
  | twelveHours => 201

structure ClosedCandle (D : Type) where
  asset : String
  interval : CandleInterval
  openTimeMs : ℕ
  closeTimeMs : ℕ
  openPrice : D
  high : D
  low : D
  close : D
  baseVolume : D
  tradeCount : ℕ
deriving DecidableEq

structure CandleIdentity where
  interval : CandleInterval
  openTimeMs : ℕ
  closeTimeMs : ℕ
deriving DecidableEq

/-- The errors of a candle, a conflict with both candles, and the panic of an identity whose candle
is not kept. -/
inductive TechnicalError (D : Type)
  | invalidCandle
  | conflictingCandle (accepted refused : ClosedCandle D)
  | nonMonotonicCandle
  | identityWithoutPayload

inductive CandleAcceptance
  | accepted
  | duplicate
deriving DecidableEq

structure AssetCandles (D : Type) where
  intervals : CandleInterval → List (ClosedCandle D)
  accepted : List CandleIdentity

structure TechnicalEngine (D : Type) where
  assets : ExtTreeMap String (AssetCandles D)

variable {D : Type}

/-- `AssetCandles::default()`. -/
def AssetCandles.empty : AssetCandles D := ⟨fun _ => [], []⟩

def TechnicalEngine.assetCandles (engine : TechnicalEngine D) (asset : String) : AssetCandles D :=
  engine.assets[asset]?.getD AssetCandles.empty

namespace ClosedCandle

def identity (candle : ClosedCandle D) : CandleIdentity :=
  ⟨candle.interval, candle.openTimeMs, candle.closeTimeMs⟩

variable [Decimal D]

def isValid (candle : ClosedCandle D) : Bool :=
  !(candle.asset.isEmpty
    || candle.closeTimeMs ≤ candle.openTimeMs
    || Decimal.le candle.openPrice Decimal.zero
    || Decimal.le candle.high Decimal.zero
    || Decimal.le candle.low Decimal.zero
    || Decimal.le candle.close Decimal.zero
    || Decimal.lt candle.baseVolume Decimal.zero
    || Decimal.lt candle.high candle.low
    || Decimal.lt candle.high (Decimal.max candle.openPrice candle.close)
    || Decimal.lt (Decimal.min candle.openPrice candle.close) candle.low)

/-- The derived `==`, which compares decimals by value. -/
def same (a b : ClosedCandle D) : Bool :=
  a.asset == b.asset && a.interval == b.interval && a.openTimeMs == b.openTimeMs
    && a.closeTimeMs == b.closeTimeMs && Decimal.eqv a.openPrice b.openPrice
    && Decimal.eqv a.high b.high && Decimal.eqv a.low b.low && Decimal.eqv a.close b.close
    && Decimal.eqv a.baseVolume b.baseVolume && a.tradeCount == b.tradeCount

end ClosedCandle

/-- The loop that takes candles from the front while there are more than 500, and forgets their
identities. -/
def expireCandles : List (ClosedCandle D) → List CandleIdentity →
    List (ClosedCandle D) × List CandleIdentity
  | [], accepted => ([], accepted)
  | candle :: rest, accepted =>
    if 500 < (candle :: rest).length then
      expireCandles rest (accepted.filter (· != candle.identity))
    else (candle :: rest, accepted)

/-- A candle that is kept already. -/
def acceptKnownCandle [Decimal D] (engine : TechnicalEngine D) (candles : List (ClosedCandle D))
    (candle : ClosedCandle D) : Except (TechnicalError D) (TechnicalEngine D × CandleAcceptance) :=
  match candles.find? fun accepted => accepted.openTimeMs == candle.openTimeMs
      && accepted.closeTimeMs == candle.closeTimeMs with
  | none => .error .identityWithoutPayload
  | some accepted =>
    if accepted.same candle then .ok (engine, .duplicate)
    else .error (.conflictingCandle accepted candle)

/-- A candle that is not kept. -/
def acceptNewCandle (engine : TechnicalEngine D) (asset : AssetCandles D)
    (candle : ClosedCandle D) : Except (TechnicalError D) (TechnicalEngine D × CandleAcceptance) :=
  let candles := asset.intervals candle.interval
  if candles.getLast?.any fun last => candle.openTimeMs ≤ last.openTimeMs then
    .error .nonMonotonicCandle
  else
    let (kept, accepted) := expireCandles (candles ++ [candle]) asset.accepted
    .ok ({ engine with assets := engine.assets.insert candle.asset {
        intervals := Function.update asset.intervals candle.interval kept
        accepted := candle.identity :: accepted } }, .accepted)

def TechnicalEngine.acceptClosedCandle [Decimal D] (engine : TechnicalEngine D)
    (candle : ClosedCandle D) : Except (TechnicalError D) (TechnicalEngine D × CandleAcceptance) :=
  if !candle.isValid then .error .invalidCandle
  else
    let asset := engine.assetCandles candle.asset
    if asset.accepted.contains candle.identity then
      acceptKnownCandle engine (asset.intervals candle.interval) candle
    else acceptNewCandle engine asset candle

/-- The entry of an asset, which a call takes before it looks for the candle. -/
def TechnicalEngine.withEntry (engine : TechnicalEngine D) (asset : String) : TechnicalEngine D :=
  { engine with assets := engine.assets.insert asset (engine.assetCandles asset) }

/-- `accept_closed_candle` with the engine it leaves behind: a valid candle that is refused leaves
the entry of its asset. -/
def TechnicalEngine.offerClosedCandle [Decimal D] (engine : TechnicalEngine D)
    (candle : ClosedCandle D) :
    Except (TechnicalError D) CandleAcceptance × TechnicalEngine D :=
  match engine.acceptClosedCandle candle with
  | .ok (next, acceptance) => (.ok acceptance, next)
  | .error error =>
    (.error error, if candle.isValid then engine.withEntry candle.asset else engine)

/-- The candles of a source state: the first one that is refused ends the process. -/
def TechnicalEngine.ingestClosedCandles [Decimal D] (engine : TechnicalEngine D)
    (candles : List (ClosedCandle D)) : Except (TechnicalError D) (TechnicalEngine D) :=
  candles.foldlM (fun engine candle => (engine.acceptClosedCandle candle).map Prod.fst) engine

def closedCandleFinalityDelayMs : ℕ := 5000

/-- A candle is in the window of a fetch and final by its time. -/
def ClosedCandle.isFetched (candle : ClosedCandle D) (nowMs : ℕ) : Bool :=
  nowMs - candle.interval.durationMs * (candle.interval.warmupCandles + 2) ≤ candle.openTimeMs
    && candle.closeTimeMs + closedCandleFinalityDelayMs ≤ nowMs

end CopyTrade.Model
