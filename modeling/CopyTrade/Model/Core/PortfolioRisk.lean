import CopyTrade.Foundation.Maps
import CopyTrade.Foundation.Results
import CopyTrade.Foundation.Words
import CopyTrade.Model.Decimal

/-!
# The portfolio projector

`project_and_validate_portfolio` of crates/copytrade-core/src/portfolio_risk.rs.  Targets are
clamped per asset, scaled to the gross cap and the net cap, turned into rounded deltas against
filled positions and open orders, staged to reductions where a transition breaches a cap, and
the worst-case exposure ranges are validated last.

Maps are ordered, and every sum runs in key order.  Where the source indexes a map at a key
that is always present (`baseline[asset]`), the model reads a zero range otherwise.
-/

namespace CopyTrade.Model

open Foundation
open Std (ExtTreeMap ExtTreeSet)

inductive OrderSide
  | buy
  | sell
deriving DecidableEq

inductive OpenOrderLifecycle
  | acknowledged
  | cancelRequested
  | cancelConfirmed
  | submissionUnknown
  | unknown
deriving DecidableEq

structure OpenOrderExposure (D : Type) where
  asset : String
  side : Option OrderSide
  notional : Option D
  lifecycle : OpenOrderLifecycle
deriving DecidableEq

structure MarketRules (D : Type) where
  markPrice : D
  priceTick : D
  sizeStep : D
deriving DecidableEq

structure ExposureRange (D : Type) where
  minimum : D
  maximum : D
deriving DecidableEq

structure PortfolioProjectionInput (D : Type) where
  currentEquity : D
  curveLeverage : D
  globalRiskScale : D
  maxSingleAssetEquityPct : D
  maxNetEquityPct : D
  filledPositions : ExtTreeMap String D
  filledPositionStateComplete : Bool
  acknowledgedOpenOrders : List (OpenOrderExposure D)
  openOrderStateComplete : Bool
  unconstrainedTargets : ExtTreeMap String D
  marketRules : ExtTreeMap String (MarketRules D)
deriving DecidableEq

structure PortfolioProjection (D : Type) where
  constrainedTargets : ExtTreeMap String D
  proposedDeltas : ExtTreeMap String D
  roundedDeltas : ExtTreeMap String D
  projectedRanges : ExtTreeMap String (ExposureRange D)
  maximumProjectedGross : D
  minimumProjectedNet : D
  maximumProjectedNet : D
deriving DecidableEq

inductive RiskViolation (D : Type)
  | invalidInput (message : String)
  | missingMarketRules (asset : String)
  | incompleteFilledPositionState
  | incompleteOpenOrderState
  | unknownOpenOrderState (asset : String)
  | arithmeticOverflow (operation : String)
  | assetCapExceeded (asset : String)
  | grossCapExceeded (projected cap : D)
  | netCapExceeded
  | existingRiskIncreased (asset : String)
deriving DecidableEq

variable {D : Type} [Decimal D]

/-- `to_string()` of a risk violation, its derived `Debug`. -/
def RiskViolation.text : RiskViolation D → String
  | invalidInput message => debugVariant "InvalidInput" (quoted message)
  | missingMarketRules asset => debugVariant "MissingMarketRules" (quoted asset)
  | incompleteFilledPositionState => "IncompleteFilledPositionState"
  | incompleteOpenOrderState => "IncompleteOpenOrderState"
  | unknownOpenOrderState asset => debugVariant "UnknownOpenOrderState" (quoted asset)
  | arithmeticOverflow operation => debugVariant "ArithmeticOverflow" (quoted operation)
  | assetCapExceeded asset => debugVariant "AssetCapExceeded" (quoted asset)
  | grossCapExceeded projected cap =>
    "GrossCapExceeded \x7b projected: " ++ Decimal.text projected ++ ", cap: " ++
      Decimal.text cap ++ " \x7d"
  | netCapExceeded => "NetCapExceeded"
  | existingRiskIncreased asset => debugVariant "ExistingRiskIncreased" (quoted asset)

namespace PortfolioRisk

def checkedAdd (left right : D) (operation : String) : Except (RiskViolation D) D :=
  match Decimal.checkedAdd left right with
  | none => .error (.arithmeticOverflow operation)
  | some value => .ok value

def checkedSub (left right : D) (operation : String) : Except (RiskViolation D) D :=
  match Decimal.checkedSub left right with
  | none => .error (.arithmeticOverflow operation)
  | some value => .ok value

def checkedMul (left right : D) (operation : String) : Except (RiskViolation D) D :=
  match Decimal.checkedMul left right with
  | none => .error (.arithmeticOverflow operation)
  | some value => .ok value

def checkedDiv (left right : D) (operation : String) : Except (RiskViolation D) D :=
  match Decimal.checkedDiv left right with
  | none => .error (.arithmeticOverflow operation)
  | some value => .ok value

def sumChecked (values : List D) (operation : String) : Except (RiskViolation D) D :=
  values.foldlM (fun total value => checkedAdd total value operation) Decimal.zero

/-- The value stored for an asset, or zero (`get(asset).copied().unwrap_or(ZERO)`). -/
def valueAt (m : ExtTreeMap String D) (asset : String) : D := m[asset]?.getD Decimal.zero

/-- `range.minimum.abs().max(range.maximum.abs())`. -/
def magnitude (range : ExposureRange D) : D :=
  Decimal.max (Decimal.abs range.minimum) (Decimal.abs range.maximum)

/-- The magnitude of the range stored for an asset (`ranges[asset]`). -/
def magnitudeAt (ranges : ExtTreeMap String (ExposureRange D)) (asset : String) : D :=
  magnitude (ranges[asset]?.getD ⟨Decimal.zero, Decimal.zero⟩)

def minLaunchRiskScale : D := Decimal.new 25 3

def maxLaunchRiskScale : D := Decimal.new 10 2

def portfolioAssets (input : PortfolioProjectionInput D) : ExtTreeSet String :=
  ExtTreeSet.ofList (input.filledPositions.keys ++ input.unconstrainedTargets.keys ++
    (input.acknowledgedOpenOrders.filter fun order =>
      order.lifecycle != .cancelConfirmed).map (·.asset)) compare

def validateInput (input : PortfolioProjectionInput D) : Except (RiskViolation D) Unit :=
  if Decimal.le input.currentEquity Decimal.zero then
    .error (.invalidInput "current_equity must be positive")
  else if Decimal.le input.curveLeverage Decimal.zero then
    .error (.invalidInput "curve_leverage must be positive")
  else if !(Decimal.le minLaunchRiskScale input.globalRiskScale
      && Decimal.le input.globalRiskScale maxLaunchRiskScale) then
    .error (.invalidInput "global_risk_scale is outside the approved launch range")
  else do
    checkAll (fun (field : String × D) =>
        if !(Decimal.le Decimal.zero field.2 && Decimal.le field.2 Decimal.one) then
          .error (.invalidInput (field.1 ++ " must be within [0, 1]"))
        else .ok ())
      [("max_single_asset_equity_pct", input.maxSingleAssetEquityPct),
        ("max_net_equity_pct", input.maxNetEquityPct)]
    if !input.filledPositionStateComplete then .error .incompleteFilledPositionState
    else if !input.openOrderStateComplete then .error .incompleteOpenOrderState
    else
      checkAll (fun asset =>
          match input.marketRules[asset]? with
          | none => .error (.missingMarketRules asset)
          | some rules =>
            if Decimal.le rules.markPrice Decimal.zero || Decimal.le rules.priceTick Decimal.zero
                || Decimal.le rules.sizeStep Decimal.zero then
              .error (.invalidInput ("invalid market rules for " ++ asset))
            else .ok ())
        (portfolioAssets input).toList

/-- One order of the loop of `active_open_exposure`. -/
def addOpenOrder (exposure : ExtTreeMap String (D × D)) (order : OpenOrderExposure D) :
    Except (RiskViolation D) (ExtTreeMap String (D × D)) :=
  match order.lifecycle with
  | .cancelConfirmed => .ok exposure
  | .unknown => .error (.unknownOpenOrderState order.asset)
  | .acknowledged | .cancelRequested | .submissionUnknown =>
    match order.side, order.notional with
    | none, _ => .error (.unknownOpenOrderState order.asset)
    | some _, none => .error (.unknownOpenOrderState order.asset)
    | some side, some notional =>
      if Decimal.lt notional Decimal.zero then
        .error (.invalidInput ("open-order notional must be non-negative for " ++ order.asset))
      else do
        let entry := exposure[order.asset]?.getD (Decimal.zero, Decimal.zero)
        match side with
        | .buy =>
          let buys ← checkedAdd entry.1 notional "open buys"
          pure (exposure.insert order.asset (buys, entry.2))
        | .sell =>
          let sells ← checkedAdd entry.2 notional "open sells"
          pure (exposure.insert order.asset (entry.1, sells))

def activeOpenExposure (input : PortfolioProjectionInput D) :
    Except (RiskViolation D) (ExtTreeMap String (D × D)) :=
  input.acknowledgedOpenOrders.foldlM addOpenOrder ∅

/-- The asset of the largest non-zero target; among equals the first in key order. -/
def largestTarget (targets : ExtTreeMap String D) : Option (String × D) :=
  (targets.toList.filter fun entry => !Decimal.isZero entry.2).foldl (fun best entry =>
    match best with
    | none => some entry
    | some current =>
      if Decimal.lt (Decimal.abs current.2) (Decimal.abs entry.2) then some entry
      else some current) none

def trimGrossResidual (targets : ExtTreeMap String D) (grossCap : D) :
    Except (RiskViolation D) (ExtTreeMap String D) := do
  let scaledGross ← sumChecked (targets.values.map Decimal.abs) "scaled target gross"
  if Decimal.le scaledGross grossCap then pure targets
  else
    let residual ← checkedSub scaledGross grossCap "gross scaling residual"
    match largestTarget targets with
    | none => .error (.arithmeticOverflow "gross residual target")
    | some (asset, target) =>
      if Decimal.lt (Decimal.abs target) residual then
        .error (.arithmeticOverflow "gross residual exceeds target")
      else if Decimal.isSignPositive target then
        let trimmed ← checkedSub target residual "positive gross residual"
        pure (targets.insert asset trimmed)
      else
        let trimmed ← checkedAdd target residual "negative gross residual"
        pure (targets.insert asset trimmed)

def scaleTargetsToGrossCap (targets : ExtTreeMap String D) (grossCap : D) :
    Except (RiskViolation D) (ExtTreeMap String D) := do
  let gross ← sumChecked (targets.values.map Decimal.abs) "target gross"
  if Decimal.le gross grossCap || Decimal.isZero gross then pure targets
  else
    let scale ← checkedDiv grossCap gross "gross scaling"
    let scaled ← mapValuesM (fun _ target => checkedMul target scale "scaled target") targets
    trimGrossResidual scaled grossCap

def enforceTargetNetCap (targets : ExtTreeMap String D) (netCap : D) :
    Except (RiskViolation D) (ExtTreeMap String D) := do
  let positive ← sumChecked (targets.values.filter fun value => Decimal.lt Decimal.zero value)
    "positive targets"
  let negative ← sumChecked
    ((targets.values.filter fun value => Decimal.lt value Decimal.zero).map Decimal.abs)
    "negative targets"
  let net ← checkedSub positive negative "target net"
  if Decimal.lt netCap net && !Decimal.isZero positive then
    let allowedPositive ← checkedAdd negative netCap "allowed positive target"
    let scale ← checkedDiv allowedPositive positive "positive net scaling"
    mapValuesM (fun _ target =>
      if Decimal.lt Decimal.zero target then checkedMul target scale "net-scaled positive target"
      else .ok target) targets
  else if Decimal.lt net (Decimal.neg netCap) && !Decimal.isZero negative then
    let allowedNegative ← checkedAdd positive netCap "allowed negative target"
    let scale ← checkedDiv allowedNegative negative "negative net scaling"
    mapValuesM (fun _ target =>
      if Decimal.lt target Decimal.zero then checkedMul target scale "net-scaled negative target"
      else .ok target) targets
  else pure targets

def roundDownToStep (value step : D) : Except (RiskViolation D) D := do
  let units ← checkedDiv value step "round-down units"
  checkedMul (Decimal.floor units) step "round-down result"

def roundUpToStep (value step : D) : Except (RiskViolation D) D := do
  let units ← checkedDiv value step "round-up units"
  checkedMul (Decimal.ceil units) step "round-up result"

def roundDelta (delta : D) (rules : MarketRules D) : Except (RiskViolation D) D :=
  if Decimal.isZero delta then .ok Decimal.zero
  else do
    let roundedPrice ←
      (if Decimal.lt Decimal.zero delta then roundUpToStep rules.markPrice rules.priceTick
      else roundDownToStep rules.markPrice rules.priceTick)
    let quantity ← checkedDiv (Decimal.abs delta) roundedPrice "unrounded quantity"
    let roundedQuantity ← roundDownToStep quantity rules.sizeStep
    let notional ← checkedMul roundedQuantity roundedPrice "rounded notional"
    pure (if Decimal.lt Decimal.zero delta then notional else Decimal.neg notional)

/-- The range of one asset: the filled position, all open orders of one side and the delta. -/
def projectedRange (input : PortfolioProjectionInput D)
    (openByAsset : ExtTreeMap String (D × D)) (roundedDeltas : ExtTreeMap String D)
    (asset : String) : Except (RiskViolation D) (ExposureRange D) := do
  let filled := valueAt input.filledPositions asset
  let orders := openByAsset[asset]?.getD (Decimal.zero, Decimal.zero)
  let delta := valueAt roundedDeltas asset
  let proposedBuy := Decimal.max delta Decimal.zero
  let proposedSell := Decimal.max (Decimal.neg delta) Decimal.zero
  let afterSells ← checkedSub filled orders.2 "range minimum open sells"
  let minimum ← checkedSub afterSells proposedSell "range minimum proposed sells"
  let afterBuys ← checkedAdd filled orders.1 "range maximum open buys"
  let maximum ← checkedAdd afterBuys proposedBuy "range maximum proposed buys"
  pure { minimum, maximum }

def projectedRanges (input : PortfolioProjectionInput D) (assets : ExtTreeSet String)
    (openByAsset : ExtTreeMap String (D × D)) (roundedDeltas : ExtTreeMap String D) :
    Except (RiskViolation D) (ExtTreeMap String (ExposureRange D)) :=
  assets.toList.foldlM (fun ranges asset => do
    let range ← projectedRange input openByAsset roundedDeltas asset
    pure (ranges.insert asset range)) ∅

def rangeMetrics (ranges : ExtTreeMap String (ExposureRange D)) :
    Except (RiskViolation D) (D × D × D) := do
  let gross ← sumChecked (ranges.values.map magnitude) "projected gross"
  let minimumNet ← sumChecked (ranges.values.map (·.minimum)) "minimum net"
  let maximumNet ← sumChecked (ranges.values.map (·.maximum)) "maximum net"
  pure (gross, minimumNet, maximumNet)

/-- `minimum.abs().max(maximum.abs())` of the two net endpoints. -/
def worstNet (minimumNet maximumNet : D) : D :=
  Decimal.max (Decimal.abs minimumNet) (Decimal.abs maximumNet)

/-- The staged delta of one asset: kept when it does not enlarge the asset's own worst-case
exposure, zero otherwise; the flag says whether it is a reduction. -/
def stageAsset (input : PortfolioProjectionInput D) (assets : ExtTreeSet String)
    (openByAsset : ExtTreeMap String (D × D)) (baseline : ExtTreeMap String (ExposureRange D))
    (delta : D) (asset : String) : Except (RiskViolation D) (D × Bool) :=
  if Decimal.isZero delta then .ok (Decimal.zero, false)
  else do
    let withDelta ← projectedRanges input assets openByAsset
      ((∅ : ExtTreeMap String D).insert asset delta)
    if Decimal.le (magnitudeAt withDelta asset) (magnitudeAt baseline asset) then
      pure (delta, true)
    else pure (Decimal.zero, false)

/-- The smallest delta on the offending side; among equals the first in key order. -/
def smallestOffending (staged : ExtTreeMap String D) (negativeSide : Bool) :
    Option (String × D) :=
  (staged.toList.filter fun entry =>
      if negativeSide then Decimal.lt entry.2 Decimal.zero
      else Decimal.lt Decimal.zero entry.2).foldl (fun best entry =>
    match best with
    | none => some entry
    | some current =>
      if Decimal.lt (Decimal.abs entry.2) (Decimal.abs current.2) then some entry
      else some current) none

/-- The pruning loop.  Every round that does not end the loop turns one non-zero staged delta
into zero, so as many rounds as there are entries, and one more, reach its end. -/
def pruneStaged (input : PortfolioProjectionInput D) (assets : ExtTreeSet String)
    (openByAsset : ExtTreeMap String (D × D)) (baselineWorstNet : D) :
    ℕ → ExtTreeMap String D → Except (RiskViolation D) (ExtTreeMap String D)
  | 0, staged => .ok staged
  | rounds + 1, staged => do
    let candidateRanges ← projectedRanges input assets openByAsset staged
    let (_, candidateMinimumNet, candidateMaximumNet) ← rangeMetrics candidateRanges
    if Decimal.le (worstNet candidateMinimumNet candidateMaximumNet) baselineWorstNet then
      pure staged
    else
      let negativeSide :=
        Decimal.le (Decimal.abs candidateMaximumNet) (Decimal.abs candidateMinimumNet)
          && Decimal.lt candidateMinimumNet Decimal.zero
      match smallestOffending staged negativeSide with
      | none => .error (.arithmeticOverflow "net-worsening staged reduction")
      | some (remove, _) =>
        pruneStaged input assets openByAsset baselineWorstNet rounds
          (staged.insert remove Decimal.zero)

def stageRiskReducingDeltas (input : PortfolioProjectionInput D) (assets : ExtTreeSet String)
    (openByAsset : ExtTreeMap String (D × D)) (roundedDeltas : ExtTreeMap String D) :
    Except (RiskViolation D) (ExtTreeMap String D) := do
  let baseline ← projectedRanges input assets openByAsset ∅
  let (staged, hasReduction) ← assets.toList.foldlM
    (fun (acc : ExtTreeMap String D × Bool) asset => do
      let (delta, reduces) ← stageAsset input assets openByAsset baseline
        (valueAt roundedDeltas asset) asset
      pure (acc.1.insert asset delta, acc.2 || reduces)) (∅, false)
  if hasReduction then
    let (_, baselineMinimumNet, baselineMaximumNet) ← rangeMetrics baseline
    pruneStaged input assets openByAsset (worstNet baselineMinimumNet baselineMaximumNet)
      (staged.size + 1) staged
  else pure staged

/-- The limits of one projection. -/
structure Caps (D : Type) where
  asset : D
  gross : D
  net : D

/-- One rounded delta against a portfolio whose filled positions already breach a cap. -/
def increasesExistingRisk (input : PortfolioProjectionInput D)
    (ranges baselineRanges : ExtTreeMap String (ExposureRange D)) (entry : String × D) : Bool :=
  let filled := valueAt input.filledPositions entry.1
  !Decimal.isZero entry.2 &&
    (Decimal.isZero filled || Decimal.signum entry.2 == Decimal.signum filled
      || Decimal.lt (Decimal.abs filled) (Decimal.abs entry.2)
      || Decimal.lt (magnitudeAt baselineRanges entry.1) (magnitudeAt ranges entry.1))

def validateFinalRanges (input : PortfolioProjectionInput D)
    (ranges : ExtTreeMap String (ExposureRange D)) (roundedDeltas : ExtTreeMap String D)
    (caps : Caps D) (projectedGross minimumNet maximumNet : D)
    (openByAsset : ExtTreeMap String (D × D)) : Except (RiskViolation D) Unit := do
  let filledRanges := input.filledPositions.map fun _ filled => ExposureRange.mk filled filled
  let (filledGross, filledMinimumNet, filledMaximumNet) ← rangeMetrics filledRanges
  let filledAssetViolation :=
    filledRanges.values.any fun range => Decimal.lt caps.asset (magnitude range)
  let filledViolation := filledAssetViolation || Decimal.lt caps.gross filledGross
    || Decimal.lt caps.net (worstNet filledMinimumNet filledMaximumNet)
  let finalAssetViolation :=
    ranges.toList.find? fun entry => Decimal.lt caps.asset (magnitude entry.2)
  if !filledViolation then
    match finalAssetViolation with
    | some (asset, _) => .error (.assetCapExceeded asset)
    | none =>
      if Decimal.lt caps.gross projectedGross then
        .error (.grossCapExceeded projectedGross caps.gross)
      else if Decimal.lt caps.net (worstNet minimumNet maximumNet) then .error .netCapExceeded
      else pure ()
  else
    let baselineRanges ← projectedRanges input (portfolioAssets input) openByAsset ∅
    let (baselineGross, baselineMinimumNet, baselineMaximumNet) ← rangeMetrics baselineRanges
    checkAll (fun entry =>
        if increasesExistingRisk input ranges baselineRanges entry then
          .error (.existingRiskIncreased entry.1)
        else .ok ()) roundedDeltas.toList
    if Decimal.lt baselineGross projectedGross
        || Decimal.lt (worstNet baselineMinimumNet baselineMaximumNet)
          (worstNet minimumNet maximumNet) then
      .error (.grossCapExceeded projectedGross baselineGross)
    else pure ()

def clampedTargets (input : PortfolioProjectionInput D) (assets : ExtTreeSet String)
    (assetCap : D) : ExtTreeMap String D :=
  assets.toList.foldl (fun targets asset =>
    targets.insert asset (Decimal.clamp (valueAt input.unconstrainedTargets asset)
      (Decimal.neg assetCap) assetCap)) ∅

def assetDelta (input : PortfolioProjectionInput D) (openByAsset : ExtTreeMap String (D × D))
    (constrainedTargets : ExtTreeMap String D) (asset : String) :
    Except (RiskViolation D) (D × D) := do
  let orders := openByAsset[asset]?.getD (Decimal.zero, Decimal.zero)
  let signedOpen ← checkedSub orders.1 orders.2 "signed open exposure"
  let lessFilled ← checkedSub (valueAt constrainedTargets asset)
    (valueAt input.filledPositions asset) "target less filled"
  let proposed ← checkedSub lessFilled signedOpen "target less open exposure"
  match input.marketRules[asset]? with
  | none => .error (.missingMarketRules asset)
  | some rules =>
    let rounded ← roundDelta proposed rules
    pure (proposed, rounded)

/-- A worst-case range or metric of the transition is above its cap. -/
def transitionBreaches (ranges : ExtTreeMap String (ExposureRange D)) (caps : Caps D)
    (metrics : D × D × D) : Bool :=
  (ranges.values.any fun range => Decimal.lt caps.asset (magnitude range))
    || Decimal.lt caps.gross metrics.1
    || Decimal.lt caps.net (worstNet metrics.2.1 metrics.2.2)

def projectAndValidatePortfolio (input : PortfolioProjectionInput D) :
    Except (RiskViolation D) (PortfolioProjection D) := do
  validateInput input
  let assetCap ← checkedMul input.currentEquity input.maxSingleAssetEquityPct "single-asset cap"
  let leveraged ← checkedMul input.currentEquity input.curveLeverage "leveraged equity"
  let grossCap ← checkedMul leveraged input.globalRiskScale "gross cap"
  let netCap ← checkedMul input.currentEquity input.maxNetEquityPct "net cap"
  let caps : Caps D := { asset := assetCap, gross := grossCap, net := netCap }
  let assets := portfolioAssets input
  let openByAsset ← activeOpenExposure input
  let scaledTargets ← scaleTargetsToGrossCap (clampedTargets input assets assetCap) grossCap
  let constrainedTargets ← enforceTargetNetCap scaledTargets netCap
  let (proposedDeltas, initialDeltas) ← assets.toList.foldlM
    (fun (acc : ExtTreeMap String D × ExtTreeMap String D) asset => do
      let (proposed, rounded) ← assetDelta input openByAsset constrainedTargets asset
      pure (acc.1.insert asset proposed, acc.2.insert asset rounded)) (∅, ∅)
  let initialRanges ← projectedRanges input assets openByAsset initialDeltas
  let initialMetrics ← rangeMetrics initialRanges
  let (roundedDeltas, ranges, metrics) ←
    (if transitionBreaches initialRanges caps initialMetrics then do
      let staged ← stageRiskReducingDeltas input assets openByAsset initialDeltas
      let stagedRanges ← projectedRanges input assets openByAsset staged
      let stagedMetrics ← rangeMetrics stagedRanges
      pure (staged, stagedRanges, stagedMetrics)
    else pure (initialDeltas, initialRanges, initialMetrics))
  validateFinalRanges input ranges roundedDeltas caps metrics.1 metrics.2.1 metrics.2.2
    openByAsset
  pure {
    constrainedTargets
    proposedDeltas
    roundedDeltas
    projectedRanges := ranges
    maximumProjectedGross := metrics.1
    minimumProjectedNet := metrics.2.1
    maximumProjectedNet := metrics.2.2 }

end PortfolioRisk

end CopyTrade.Model
