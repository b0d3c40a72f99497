import CopyTrade.Foundation.Windows
import CopyTrade.Model.Core.Candles

/-!
# The technical strategy

`TechnicalEngine::evaluate` of crates/copytrade-core/src/technical.rs: the candles of an asset are
classified by the indicators of five intervals, the classification gives a raw score, and the score
that is stored follows from the raw score, the score stored before, the timing of an exit and the
costs.

Doubles and decimals are exact rationals here, which do not overflow.  The logarithm and the square
root of a double are parameters (`DoubleFunctions`).  The counters of the funnel are left out.
-/

namespace CopyTrade.Model.Technical

open Foundation
open Std (ExtTreeMap)

/-- `f64::ln` and `f64::sqrt`. -/
class DoubleFunctions where
  ln : ℚ → ℚ
  sqrt : ℚ → ℚ

/-- The errors of `TechnicalError` that do not concern a candle. -/
inductive StrategyError
  | invalidConfiguration
  | invalidCost
  | arithmetic
deriving DecidableEq

inductive MarketRegime
  | strongBull
  | transitionUp
  | range
  | transitionDown
  | strongBear
deriving DecidableEq

inductive SignalArchetype
  | trendPullback
  | rangeMeanReversion
  | regimeBreakout
deriving DecidableEq

/-- `TrendState` and `TriggerState`. -/
inductive Direction
  | bullish
  | neutral
  | bearish
deriving DecidableEq

def Direction.score : Direction → ℚ
  | bullish => 1
  | neutral => 0
  | bearish => -1

structure RegimeState where
  regime : MarketRegime
  direction : ℚ
  ma50NormalizedSlope : ℚ
  ma100NormalizedSlope : ℚ

structure TechnicalState where
  regime12h : RegimeState
  trend4h : Direction
  trend1h : Direction
  trigger30m : Direction
  trigger15m : Direction

structure TechnicalTarget where
  asset : String
  score : ℚ
  desiredNotional : ℚ
  regime : MarketRegime
  archetype : SignalArchetype
  candleCloseMs : ℕ

structure TechnicalStrategyConfig where
  enabled : Bool
  sourceBudgetFraction : ℚ
  technicalBudgetFraction : ℚ
  universeSize : ℕ
  enterThreshold : ℚ
  maintainThreshold : ℚ
  reduceThreshold : ℚ
  flattenThreshold : ℚ
  pullbackVolumeZ : ℚ
  breakoutVolumeZ : ℚ
  expectedAtrFraction : ℚ
  minimumCostMultiple : ℚ
  expectedHoldingHours : ℕ
deriving DecidableEq

namespace TechnicalStrategyConfig

def default : TechnicalStrategyConfig where
  enabled := false
  sourceBudgetFraction := 35 / 100
  technicalBudgetFraction := 65 / 100
  universeSize := 25
  enterThreshold := 65 / 100
  maintainThreshold := 50 / 100
  reduceThreshold := 45 / 100
  flattenThreshold := 25 / 100
  pullbackVolumeZ := 1
  breakoutVolumeZ := 15 / 10
  expectedAtrFraction := 5 / 10
  minimumCostMultiple := 2
  expectedHoldingHours := 6

/-- `(0.0..=1.0).contains`. -/
def isFraction (value : ℚ) : Prop := 0 ≤ value ∧ value ≤ 1

instance (value : ℚ) : Decidable (isFraction value) :=
  inferInstanceAs (Decidable (0 ≤ value ∧ value ≤ 1))

def validate (config : TechnicalStrategyConfig) : Except StrategyError Unit :=
  if config.sourceBudgetFraction < 0
      ∨ config.technicalBudgetFraction < 0
      ∨ 1 / 10 ^ 12 < |config.sourceBudgetFraction + config.technicalBudgetFraction - 1|
      ∨ config.universeSize = 0
      ∨ 30 < config.universeSize
      ∨ ¬ isFraction config.enterThreshold
      ∨ ¬ isFraction config.maintainThreshold
      ∨ ¬ isFraction config.reduceThreshold
      ∨ ¬ isFraction config.flattenThreshold
      ∨ ¬ (config.maintainThreshold < config.enterThreshold
        ∧ config.reduceThreshold < config.maintainThreshold
        ∧ config.flattenThreshold < config.reduceThreshold)
      ∨ config.expectedAtrFraction ≤ 0
      ∨ config.minimumCostMultiple < 1
      ∨ config.expectedHoldingHours = 0 then
    .error .invalidConfiguration
  else .ok ()

end TechnicalStrategyConfig

structure CostEstimate where
  entryFeeFraction : ℚ
  exitFeeFraction : ℚ
  entrySlippageFraction : ℚ
  exitSlippageFraction : ℚ
  hourlyFundingFraction : ℚ

def CostEstimate.roundTrip (costs : CostEstimate) (expectedHoldingHours : ℕ) :
    Except StrategyError ℚ :=
  if costs.entryFeeFraction < 0 ∨ costs.exitFeeFraction < 0 ∨ costs.entrySlippageFraction < 0
      ∨ costs.exitSlippageFraction < 0 ∨ costs.hourlyFundingFraction < 0 then
    .error .invalidCost
  else
    .ok (costs.entryFeeFraction + costs.exitFeeFraction + costs.entrySlippageFraction
      + costs.exitSlippageFraction + costs.hourlyFundingFraction * expectedHoldingHours)

def closes (candles : List (ClosedCandle ℚ)) : List ℚ := candles.map ClosedCandle.close

def sma (values : List ℚ) (period : ℕ) : Except StrategyError ℚ :=
  if period ≤ values.length then .ok ((values.rtake period).sum / period)
  else .error .arithmetic

def windows {A : Type} (values : List A) : List (A × A) := values.zip values.tail

def gainLoss (window : List ℚ) : ℚ × ℚ :=
  (windows window).foldl (fun sums pair =>
    let delta := pair.2 - pair.1
    if 0 ≤ delta then (sums.1 + delta, sums.2) else (sums.1, sums.2 - delta)) (0, 0)

def rsi (values : List ℚ) (period : ℕ) : Option ℚ :=
  if values.length ≤ period then none
  else
    let sums := gainLoss (values.rtake (period + 1))
    if sums.2 = 0 then some 100 else some (100 - 100 / (1 + sums.1 / sums.2))

def present {A : Type} : Option A → Except StrategyError A
  | some value => .ok value
  | none => .error .arithmetic

def atr (candles : List (ClosedCandle ℚ)) (period : ℕ) : Option ℚ :=
  if candles.length ≤ period then none
  else some (((windows (candles.rtake (period + 1))).map fun pair =>
    max (max (pair.2.high - pair.2.low) |pair.2.high - pair.1.close|)
      |pair.2.low - pair.1.close|).sum / period)

def minPositive : ℚ := 1 / 2 ^ 1022

def quoteVolumes (candles : List (ClosedCandle ℚ)) : List ℚ :=
  candles.map fun candle => max (candle.baseVolume * candle.close) minPositive

/-- `f64::EPSILON`. -/
def doubleEpsilon : ℚ := 1 / 2 ^ 52

def volumeZ [DoubleFunctions] (candles : List (ClosedCandle ℚ)) : Except StrategyError ℚ :=
  let values := quoteVolumes candles
  if values.length < 21 then .error .arithmetic
  else
    let logs := (values.rtake 21).map DoubleFunctions.ln
    let baseline := logs.take 20
    let mean := baseline.sum / 20
    let variance := (baseline.map fun value => (value - mean) ^ 2).sum / 20
    let deviation := DoubleFunctions.sqrt variance
    .ok (if deviation ≤ doubleEpsilon then 0 else (logs.getLastD 0 - mean) / deviation)

def lastOf {A : Type} (values : List A) : Except StrategyError A := present values.getLast?

def regime12h (candles : List (ClosedCandle ℚ)) : Except StrategyError RegimeState := do
  let closes := closes candles
  let last ← lastOf closes
  let ma7 ← sma closes 7
  let ma14 ← sma closes 14
  let ma21 ← sma closes 21
  let ma50 ← sma closes 50
  let ma100 ← sma closes 100
  let ma200 ← sma closes 200
  let atr14 ← present (atr candles 14)
  let previous := closes.dropLast
  let previousMa50 ← sma previous 50
  let previousMa100 ← sma previous 100
  -- a slope over a range of zero is no number, and no decimal
  if atr14 = 0 then throw .arithmetic
  let slope50 := (ma50 - previousMa50) / atr14
  let slope100 := (ma100 - previousMa100) / atr14
  let rsi14 ← present (rsi closes 14)
  let volumes := quoteVolumes candles
  let volume ← lastOf volumes
  let averageVolume ← sma volumes.dropLast 20
  let volumeAbove := averageVolume < volume
  let previousMa21 ← sma previous 21
  let regime : MarketRegime :=
    if ma21 < last ∧ ma14 < ma7 ∧ ma21 < ma14 ∧ ma50 < ma21 ∧ ma100 < ma50 ∧ ma200 < ma100
        ∧ 0 < slope50 ∧ 0 < slope100 ∧ 55 ≤ rsi14 ∧ volumeAbove then .strongBull
    else if last < ma21 ∧ ma7 < ma14 ∧ ma14 < ma21 ∧ ma21 < ma50 ∧ ma50 < ma100 ∧ ma100 < ma200
        ∧ slope50 < 0 ∧ slope100 < 0 ∧ rsi14 ≤ 45 ∧ volumeAbove then .strongBear
    else if ma14 < ma7 ∧ ma21 < ma14 ∧ previousMa21 ≤ previousMa50 ∧ ma50 < ma21 ∧ 0 ≤ slope50
        ∧ 50 < rsi14 ∧ volumeAbove then .transitionUp
    else if ma7 < ma14 ∧ ma14 < ma21 ∧ previousMa50 ≤ previousMa21 ∧ ma21 < ma50 ∧ slope50 ≤ 0
        ∧ rsi14 < 50 ∧ volumeAbove then .transitionDown
    else .range
  let direction : ℚ :=
    match regime with
    | .strongBull => 1
    | .transitionUp => 1
    | .strongBear => -1
    | .transitionDown => -1
    | .range => 0
  pure {
    regime
    direction
    ma50NormalizedSlope := slope50
    ma100NormalizedSlope := slope100 }

def trend4h (candles : List (ClosedCandle ℚ)) : Except StrategyError Direction := do
  let closes := closes candles
  let previous := closes.dropLast
  let close ← lastOf closes
  let ma21 ← sma closes 21
  let ma50 ← sma closes 50
  let ma100 ← sma closes 100
  let previousMa21 ← sma previous 21
  let previousMa50 ← sma previous 50
  let slope21 := ma21 - previousMa21
  let slope50 := ma50 - previousMa50
  let rsi14 ← present (rsi closes 14)
  let volumes := quoteVolumes candles
  let volume ← lastOf volumes
  let averageVolume ← sma volumes.dropLast 20
  pure (
    if ma21 < close ∧ ma50 < ma21 ∧ ma100 < ma50 ∧ 0 < slope21 ∧ 0 ≤ slope50 ∧ 50 < rsi14
        ∧ averageVolume ≤ volume then .bullish
    else if close < ma21 ∧ ma21 < ma50 ∧ ma50 < ma100 ∧ slope21 < 0 ∧ slope50 ≤ 0 ∧ rsi14 < 50
        ∧ averageVolume ≤ volume then .bearish
    else .neutral)

def trend1h (candles : List (ClosedCandle ℚ)) : Except StrategyError Direction := do
  let closes := closes candles
  let close ← lastOf closes
  let ma7 ← sma closes 7
  let ma14 ← sma closes 14
  let ma21 ← sma closes 21
  let ma50 ← sma closes 50
  let rsi14 ← present (rsi closes 14)
  pure (
    if ma14 < ma7 ∧ ma21 < ma14 ∧ ma50 < close ∧ 50 ≤ rsi14 then .bullish
    else if ma7 < ma14 ∧ ma14 < ma21 ∧ close < ma50 ∧ rsi14 ≤ 50 then .bearish
    else .neutral)

def trigger30m [DoubleFunctions] (candles : List (ClosedCandle ℚ)) (regime : RegimeState)
    (trend4 trend1 : Direction) (config : TechnicalStrategyConfig) :
    Except StrategyError (Direction × SignalArchetype) := do
  let closes := closes candles
  let rsiNow ← present (rsi closes 14)
  let previousRsi := [1, 2, 3].filterMap fun offset =>
    rsi (closes.take (closes.length - offset)) 14
  let close ← lastOf closes
  let ma7 ← sma closes 7
  let ma21 ← sma closes 21
  let ma50 ← sma closes 50
  let volumeZ ← volumeZ candles
  let previous := closes.dropLast
  let previousClose ← lastOf previous
  let previousMa7 ← sma previous 7
  let previousMa21 ← sma previous 21
  let previousMa50 ← sma previous 50
  let bullContext := (0 < regime.direction ∧ (trend4 = .bullish ∨ trend1 = .bullish))
    ∨ (trend4 = .bullish ∧ trend1 = .bullish)
  let bearContext := (regime.direction < 0 ∧ (trend4 = .bearish ∨ trend1 = .bearish))
    ∨ (trend4 = .bearish ∧ trend1 = .bearish)
  let bullishMomentumWashout : Bool := previousRsi.any fun value => value < 45
  let bearishMomentumWashout : Bool := previousRsi.any fun value => 55 < value
  let pullbackParticipation := config.pullbackVolumeZ ≤ volumeZ
  let breakoutUpContext := regime.regime = .transitionUp
    ∨ (regime.regime = .range ∧ trend4 = .bullish)
  let breakoutDownContext := regime.regime = .transitionDown
    ∨ (regime.regime = .range ∧ trend4 = .bearish)
  pure (
    if breakoutUpContext ∧ previousClose ≤ max previousMa21 previousMa50 ∧ ma21 < close
        ∧ ma50 < close ∧ config.breakoutVolumeZ ≤ volumeZ then (.bullish, .regimeBreakout)
    else if breakoutDownContext ∧ min previousMa21 previousMa50 ≤ previousClose ∧ close < ma21
        ∧ close < ma50 ∧ config.breakoutVolumeZ ≤ volumeZ then (.bearish, .regimeBreakout)
    else if bullContext
        ∧ (bullishMomentumWashout ∨ (previousClose ≤ previousMa7 ∧ pullbackParticipation))
        ∧ 50 < rsiNow ∧ ma7 < close then (.bullish, .trendPullback)
    else if bearContext
        ∧ (bearishMomentumWashout ∨ (previousMa7 ≤ previousClose ∧ pullbackParticipation))
        ∧ rsiNow < 50 ∧ close < ma7 then (.bearish, .trendPullback)
    else if regime.regime = .range ∧ (bullishMomentumWashout ∨ pullbackParticipation)
        ∧ 50 < rsiNow ∧ previousClose ≤ previousMa7 ∧ ma7 < close then
      (.bullish, .rangeMeanReversion)
    else if regime.regime = .range ∧ (bearishMomentumWashout ∨ pullbackParticipation)
        ∧ rsiNow < 50 ∧ previousMa7 ≤ previousClose ∧ close < ma7 then
      (.bearish, .rangeMeanReversion)
    else (.neutral, .trendPullback))

def trigger15m (candles : List (ClosedCandle ℚ)) (primary : Direction) :
    Except StrategyError Direction := do
  let closes := closes candles
  let close ← lastOf closes
  let ma7 ← sma closes 7
  let rsi14 ← present (rsi closes 14)
  pure (
    if primary = .bullish ∧ ma7 < close ∧ 50 ≤ rsi14 then .bullish
    else if primary = .bearish ∧ close < ma7 ∧ rsi14 ≤ 50 then .bearish
    else .neutral)

/-- What the candles of an asset are classified as. -/
structure Classification where
  state : TechnicalState
  archetype : SignalArchetype
  closeMs : ℕ
  atrFraction : ℚ

def classify [DoubleFunctions] (candles : AssetCandles ℚ) (config : TechnicalStrategyConfig) :
    Except StrategyError (Option Classification) :=
  let h12 := candles.intervals .twelveHours
  let h4 := candles.intervals .fourHours
  let h1 := candles.intervals .oneHour
  let m30 := candles.intervals .thirtyMinutes
  let m15 := candles.intervals .fifteenMinutes
  if h12.length < 201 ∨ h4.length < 101 ∨ h1.length < 51 ∨ m30.length < 51 ∨ m15.length < 22 then
    .ok none
  else do
    let regime ← regime12h h12
    let trend4 ← trend4h h4
    let trend1 ← trend1h h1
    let (trigger30, archetype) ← trigger30m m30 regime trend4 trend1 config
    let trigger15 ← trigger15m m15 trigger30
    let atr14 ← present (atr h1 14)
    let lastHour ← lastOf h1
    let lastQuarter ← lastOf m15
    pure (some {
      state := {
        regime12h := regime
        trend4h := trend4
        trend1h := trend1
        trigger30m := trigger30
        trigger15m := trigger15 }
      archetype
      closeMs := lastQuarter.closeTimeMs
      atrFraction := atr14 / lastHour.close })

def confirmedTriggerDirection (trigger30m trigger15m : Direction) : Option ℚ :=
  match trigger30m, trigger15m with
  | .bullish, .bullish => some 1
  | .bearish, .bearish => some (-1)
  | _, _ => none

def technicalScore (state : TechnicalState) (enterThreshold : ℚ) : ℚ :=
  let contextual := 40 / 100 * state.regime12h.direction + 25 / 100 * state.trend4h.score
    + 20 / 100 * state.trend1h.score + 10 / 100 * state.trigger30m.score
    + 5 / 100 * state.trigger15m.score
  match confirmedTriggerDirection state.trigger30m state.trigger15m with
  | none => contextual
  | some direction =>
    if enterThreshold ≤ contextual * direction then contextual else direction * enterThreshold

inductive ExitTiming
  | hold
  | reduce
  | flatten
deriving DecidableEq

def primaryExit30m (candles : AssetCandles ℚ) (current : ℚ) : Except StrategyError ExitTiming :=
  if current = 0 then .ok .hold
  else
    let closes := closes (candles.intervals .thirtyMinutes)
    if closes.length < 22 then .ok .hold
    else do
      let previous := closes.dropLast
      let close ← lastOf closes
      let previousClose ← lastOf previous
      let ma7 ← sma closes 7
      let ma21 ← sma closes 21
      let previousMa21 ← sma previous 21
      let rsi14 ← present (rsi closes 14)
      pure (
        if 0 < current then
          if (close < ma21 ∧ previousMa21 ≤ previousClose) ∨ rsi14 ≤ 42 then .flatten
          else if close < ma7 ∨ rsi14 < 50 then .reduce
          else .hold
        else if (ma21 < close ∧ previousClose ≤ previousMa21) ∨ 58 ≤ rsi14 then .flatten
        else if ma7 < close ∨ 50 < rsi14 then .reduce
        else .hold)

/-- `raw_score.clamp(-1.0, 1.0)`. -/
def clampScore (rawScore : ℚ) : ℚ := max (-1) (min rawScore 1)

def signum (score : ℚ) : ℚ := if score = 0 then 0 else if 0 < score then 1 else -1

/-- The bands of a clamped score around the score stored before. -/
def bandedScore (config : TechnicalStrategyConfig) (confirmed : Option ℚ) (current candidate : ℚ) :
    ℚ :=
  if current = 0 ∨ (signum current ≠ signum candidate ∧ candidate ≠ 0) then
    if |candidate| < config.enterThreshold ∨ confirmed ≠ some (signum candidate) then 0
    else candidate
  else if signum current = signum candidate then
    if |candidate| < config.flattenThreshold then 0
    else if |candidate| < config.reduceThreshold then signum current * config.flattenThreshold
    else if |candidate| < config.maintainThreshold then current
    else candidate
  else if config.enterThreshold ≤ |candidate| then 0
  else current

def timedScore (config : TechnicalStrategyConfig) (exitTiming : ExitTiming)
    (current candidate : ℚ) : ℚ :=
  match exitTiming with
  | .flatten => 0
  | .reduce =>
    if current ≠ 0 ∧ signum candidate = signum current then
      signum current * config.reduceThreshold
    else candidate
  | .hold => candidate

/-- The cost gate. -/
def admittedScore (config : TechnicalStrategyConfig) (costs : CostEstimate) (atrFraction : ℚ)
    (candidate : ℚ) : Except StrategyError ℚ :=
  if candidate = 0 then .ok candidate
  else do
    let roundTrip ← costs.roundTrip config.expectedHoldingHours
    pure (
      if config.expectedAtrFraction * atrFraction < config.minimumCostMultiple * roundTrip then 0
      else candidate)

/-- The score that a raw score leaves. -/
def storedScore (config : TechnicalStrategyConfig) (confirmed : Option ℚ)
    (exitTiming : ExitTiming) (costs : CostEstimate) (atrFraction current rawScore : ℚ) :
    Except StrategyError ℚ :=
  admittedScore config costs atrFraction
    (timedScore config exitTiming current
      (bandedScore config confirmed current (clampScore rawScore)))

/-- The candles of every asset and the scores stored for them. -/
structure ScoredEngine where
  config : TechnicalStrategyConfig
  candles : TechnicalEngine ℚ
  scores : ExtTreeMap String ℚ

namespace ScoredEngine

def new (config : TechnicalStrategyConfig) : Except StrategyError ScoredEngine := do
  config.validate
  pure { config, candles := ⟨∅⟩, scores := ∅ }

/-- `current_score`, zero until the first evaluation. -/
def currentScore (engine : ScoredEngine) (asset : String) : ℚ := engine.scores[asset]?.getD 0

def withScore (engine : ScoredEngine) (asset : String) (score : ℚ) : ScoredEngine :=
  { engine with scores := engine.scores.insert asset score }

/-- The score that an evaluation of a classified asset stores. -/
def nextScore (engine : ScoredEngine) (asset : String) (classification : Classification)
    (exitTiming : ExitTiming) (costs : CostEstimate) : Except StrategyError ℚ :=
  storedScore engine.config
    (confirmedTriggerDirection classification.state.trigger30m classification.state.trigger15m)
    exitTiming costs classification.atrFraction (engine.currentScore asset)
    (technicalScore classification.state engine.config.enterThreshold)

def evaluate [DoubleFunctions] (engine : ScoredEngine) (asset : String) (availableGross : ℚ)
    (costs : CostEstimate) : Except StrategyError (Option TechnicalTarget) × ScoredEngine :=
  match engine.candles.assets[asset]? with
  | none => (.ok none, engine)
  | some candles =>
    match classify candles engine.config with
    | .error error => (.error error, engine)
    | .ok none => (.ok none, engine)
    | .ok (some classification) =>
      match primaryExit30m candles (engine.currentScore asset) with
      | .error error => (.error error, engine)
      | .ok exitTiming =>
        match engine.nextScore asset classification exitTiming costs with
        | .error error => (.error error, engine)
        | .ok score =>
          (.ok (some {
            asset
            score
            desiredNotional := availableGross * engine.config.technicalBudgetFraction * score
            regime := classification.state.regime12h.regime
            archetype := classification.archetype
            candleCloseMs := classification.closeMs }), engine.withScore asset score)

/-- `accept_closed_candle`; it neither reads nor changes the scores. -/
def acceptCandle (engine : ScoredEngine) (candle : ClosedCandle ℚ) : ScoredEngine :=
  { engine with candles := (engine.candles.offerClosedCandle candle).2 }

end ScoredEngine

inductive TechnicalCall
  | accept (candle : ClosedCandle ℚ)
  | evaluate (asset : String) (availableGross : ℚ) (costs : CostEstimate)

def ScoredEngine.step [DoubleFunctions] (engine : ScoredEngine) : TechnicalCall → ScoredEngine
  | .accept candle => engine.acceptCandle candle
  | .evaluate asset availableGross costs => (engine.evaluate asset availableGross costs).2

end CopyTrade.Model.Technical
