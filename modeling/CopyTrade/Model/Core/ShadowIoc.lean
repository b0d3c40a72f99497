import CopyTrade.Model.Core.Ledger
import CopyTrade.Model.Core.Lifecycle
import CopyTrade.Model.Core.PortfolioRisk

/-!
# Sizing, pricing and executing a shadow order

`execution_floor_for_asset` and `validates_rounded_order` of
crates/copytrade-core/src/execution_floor.rs, `plan_marketable_ioc` and `execute_shadow_ioc` of
crates/copytrade-core/src/shadow.rs, and `plan_risk_reducing_ioc` of
crates/copytrade-core/src/exit_planning.rs.  A shadow order is an immediate-or-cancel order
that is filled against the visible depth of a book, up to its limit price.
-/

namespace CopyTrade.Model

open Foundation

structure DepthLevel (D : Type) where
  price : D
  quantity : D
deriving DecidableEq

/-- A book, without the hash of its bytes. -/
structure ShadowMarketSnapshot (D : Type) where
  observedAtMono : ℕ
  midpoint : D
  bids : List (DepthLevel D)
  asks : List (DepthLevel D)
deriving DecidableEq

inductive ShadowError
  | invalidInput (message : String)
  | invalidBook (message : String)
  | snapshotTooEarly
  | arithmeticOverflow (operation : String)
deriving DecidableEq

/-- `to_string()`, the derived `Debug`. -/
def ShadowError.text : ShadowError → String
  | invalidInput message => debugVariant "InvalidInput" (quoted message)
  | invalidBook message => debugVariant "InvalidBook" (quoted message)
  | snapshotTooEarly => "SnapshotTooEarly"
  | arithmeticOverflow operation => debugVariant "ArithmeticOverflow" (quoted operation)

/-- `ok_or(ShadowError::ArithmeticOverflow(operation))`. -/
def orShadowOverflow {α : Type} (operation : String) : Option α → Except ShadowError α
  | none => .error (.arithmeticOverflow operation)
  | some value => .ok value

variable {D : Type} [Decimal D]

/-- Two neighbours of a list stand in the given relation. -/
def someNeighbours {α : Type} (related : α → α → Bool) (levels : List α) : Bool :=
  (levels.zip levels.tail).any fun pair => related pair.1 pair.2

def validateBook (snapshot : ShadowMarketSnapshot D) : Except ShadowError Unit :=
  if (snapshot.bids ++ snapshot.asks).any fun level =>
      Decimal.le level.price Decimal.zero || Decimal.le level.quantity Decimal.zero then
    .error (.invalidBook "non-positive depth")
  else if someNeighbours (fun upper lower => Decimal.le upper.price lower.price)
      snapshot.bids then
    .error (.invalidBook "bids must be strictly descending")
  else if someNeighbours (fun lower upper => Decimal.le upper.price lower.price)
      snapshot.asks then
    .error (.invalidBook "asks must be strictly ascending")
  else .ok ()

def ShadowMarketSnapshot.executable (snapshot : ShadowMarketSnapshot D) :
    Side → List (DepthLevel D)
  | .buy => snapshot.asks
  | .sell => snapshot.bids

def withinLimit (side : Side) (limitPrice price : D) : Bool :=
  match side with
  | .buy => Decimal.le price limitPrice
  | .sell => Decimal.le limitPrice price

/-- A factor of one and a fraction against the side of an order: a buyer pays more, a seller
takes less. -/
def adverseFactor (side : Side) (fraction : D) : Option D :=
  match side with
  | .buy => Decimal.checkedAdd Decimal.one fraction
  | .sell => Decimal.checkedSub Decimal.one fraction

/-- `units.ceil()` of a buyer and `units.floor()` of a seller. -/
def roundOutward (side : Side) (units : D) : D :=
  match side with
  | .buy => Decimal.ceil units
  | .sell => Decimal.floor units

structure ExecutionFloorPolicy (D : Type) where
  exchangeMinimumNotional : D
  roundingBuffer : D
  closeabilityMargin : D
  maximumSlippageFraction : D
deriving DecidableEq

structure AssetExecutionFloor (D : Type) where
  boundedIocPrice : D
  minimumQuantity : D
  minimumOrderNotional : D
  minimumOpeningNotional : D
deriving DecidableEq

inductive ExecutionFloorError
  | invalidInput (message : String)
  | arithmeticOverflow (operation : String)
deriving DecidableEq

/-- `to_string()`, the derived `Debug`. -/
def ExecutionFloorError.text : ExecutionFloorError → String
  | invalidInput message => debugVariant "InvalidInput" (quoted message)
  | arithmeticOverflow operation => debugVariant "ArithmeticOverflow" (quoted operation)

namespace ExecutionFloor

/-- `ok_or(ExecutionFloorError::ArithmeticOverflow(operation))`. -/
def orFloorOverflow {α : Type} (operation : String) : Option α → Except ExecutionFloorError α
  | none => .error (.arithmeticOverflow operation)
  | some value => .ok value

def validate (rules : MarketRules D) (policy : ExecutionFloorPolicy D) :
    Except ExecutionFloorError Unit :=
  if Decimal.le rules.markPrice Decimal.zero || Decimal.le rules.priceTick Decimal.zero
      || Decimal.le rules.sizeStep Decimal.zero
      || Decimal.lt policy.exchangeMinimumNotional (Decimal.new 10 0)
      || Decimal.le policy.roundingBuffer Decimal.zero
      || Decimal.lt policy.closeabilityMargin Decimal.zero
      || !(Decimal.le Decimal.zero policy.maximumSlippageFraction
        && Decimal.lt policy.maximumSlippageFraction Decimal.one) then
    .error (.invalidInput "execution floor policy")
  else .ok ()

def roundPriceOutward (price tick : D) (side : Side) : Except ExecutionFloorError D := do
  let units ← orFloorOverflow "price units" (Decimal.checkedDiv price tick)
  orFloorOverflow "rounded price" (Decimal.checkedMul (roundOutward side units) tick)

def quantityForNotional (notional price sizeStep : D) : Except ExecutionFloorError D := do
  let rawQuantity ← orFloorOverflow "minimum quantity" (Decimal.checkedDiv notional price)
  let units ← orFloorOverflow "lot units" (Decimal.checkedDiv rawQuantity sizeStep)
  orFloorOverflow "rounded quantity" (Decimal.checkedMul (Decimal.ceil units) sizeStep)

def executionFloorForAsset (side : Side) (rules : MarketRules D)
    (policy : ExecutionFloorPolicy D) : Except ExecutionFloorError (AssetExecutionFloor D) := do
  validate rules policy
  let rawIocPrice ← orFloorOverflow "bounded IOC price"
    ((adverseFactor side policy.maximumSlippageFraction).bind fun factor =>
      Decimal.checkedMul rules.markPrice factor)
  let boundedIocPrice ← roundPriceOutward rawIocPrice rules.priceTick side
  let requiredOrder ← orFloorOverflow "order buffer"
    (Decimal.checkedAdd policy.exchangeMinimumNotional policy.roundingBuffer)
  let requiredOpening ← orFloorOverflow "closeability margin"
    (Decimal.checkedAdd requiredOrder policy.closeabilityMargin)
  let minimumQuantity ← quantityForNotional requiredOrder boundedIocPrice rules.sizeStep
  let openingQuantity ← quantityForNotional requiredOpening boundedIocPrice rules.sizeStep
  let minimumOrderNotional ← orFloorOverflow "minimum notional"
    (Decimal.checkedMul minimumQuantity boundedIocPrice)
  let minimumOpeningNotional ← orFloorOverflow "opening notional"
    (Decimal.checkedMul openingQuantity boundedIocPrice)
  pure { boundedIocPrice, minimumQuantity, minimumOrderNotional, minimumOpeningNotional }

def validatesRoundedOrder (quantity iocPrice exchangeMinimumNotional : D) :
    Except ExecutionFloorError Bool :=
  if Decimal.lt quantity Decimal.zero || Decimal.le iocPrice Decimal.zero then
    .error (.invalidInput "rounded order")
  else do
    let notional ← orFloorOverflow "rounded notional" (Decimal.checkedMul quantity iocPrice)
    pure (Decimal.le exchangeMinimumNotional notional)

end ExecutionFloor

inductive MarketableIocPricingMode
  | completeVisibleDepth
  | boundedReferenceFallback
deriving DecidableEq

structure MarketableIocPlan (D : Type) where
  limitPrice : D
  requestedQuantity : D
  visibleExecutableQuantity : D
  worstRequiredDepthPrice : Option D
  pricingMode : MarketableIocPricingMode
deriving DecidableEq

def roundPriceOutward (value tick : D) (side : Side) : Except ShadowError D :=
  if Decimal.le value Decimal.zero || Decimal.le tick Decimal.zero then
    .error (.invalidInput "price and tick")
  else do
    let units ← orShadowOverflow "price units" (Decimal.checkedDiv value tick)
    orShadowOverflow "rounded IOC price" (Decimal.checkedMul (roundOutward side units) tick)

/-- The price of the level at which the visible depth covers a quantity. -/
def worstRequiredPrice (quantity : D) : D → List (DepthLevel D) → Except ShadowError (Option D)
  | _, [] => .ok none
  | visible, level :: rest => do
    let visible ← orShadowOverflow "visible depth" (Decimal.checkedAdd visible level.quantity)
    if Decimal.le quantity visible then pure (some level.price)
    else worstRequiredPrice quantity visible rest

def planMarketableIoc (side : Side) (quantity : D) (snapshot : ShadowMarketSnapshot D)
    (referencePrice executionCushion maximumSlippage priceTick : D) :
    Except ShadowError (MarketableIocPlan D) :=
  if Decimal.le quantity Decimal.zero || Decimal.le referencePrice Decimal.zero
      || Decimal.lt executionCushion Decimal.zero || Decimal.lt maximumSlippage Decimal.zero
      || Decimal.le priceTick Decimal.zero then
    .error (.invalidInput "marketable IOC pricing inputs")
  else do
    validateBook snapshot
    let levels := snapshot.executable side
    let worstRequired ← worstRequiredPrice quantity Decimal.zero levels
    let maximumRaw ← orShadowOverflow "maximum IOC price"
      ((adverseFactor side maximumSlippage).bind fun factor =>
        Decimal.checkedMul referencePrice factor)
    let maximumLimit ← roundPriceOutward maximumRaw priceTick side
    let (limitPrice, pricingMode) ← (match worstRequired with
      | some worstPrice => do
        let depthRaw ← orShadowOverflow "depth IOC price"
          ((adverseFactor side executionCushion).bind fun factor =>
            Decimal.checkedMul worstPrice factor)
        let limitPrice ← roundPriceOutward depthRaw priceTick side
        pure (limitPrice, MarketableIocPricingMode.completeVisibleDepth)
      | none => pure (maximumLimit, MarketableIocPricingMode.boundedReferenceFallback))
    let visible ← orShadowOverflow "executable visible depth"
      (((levels.takeWhile fun level => withinLimit side limitPrice level.price).map
        DepthLevel.quantity).foldlM Decimal.checkedAdd Decimal.zero)
    pure {
      limitPrice
      requestedQuantity := quantity
      visibleExecutableQuantity := Decimal.min visible quantity
      worstRequiredDepthPrice := worstRequired
      pricingMode }

/-- The input of an execution, without what only goes into its identity. -/
structure ShadowExecutionInput (D : Type) where
  action : Lifecycle.PlannedAction D
  decisionTimestampMono : ℕ
  decisionMarketSnapshot : ShadowMarketSnapshot D
  evaluationMarketSnapshot : ShadowMarketSnapshot D
  configuredLatencyMs : ℕ
  proposedLimitPrice : D
  roundedQuantity : D
  takerFeeRate : D
  fundingAttribution : D
  positionBefore : D

/-- An execution: what the ledger books of it, the notional of its action, the quantity asked for
and what of it was left, and the value of the fill. -/
structure IocExecution (D : Type) where
  booked : ShadowExecution D
  roundedNotional : D
  roundedQuantity : D
  unfilledIocRemainder : D
  modeledFilledNotional : D
deriving DecidableEq

def ShadowExecutionInput.validate (input : ShadowExecutionInput D) : Except ShadowError Unit :=
  if Decimal.le input.roundedQuantity Decimal.zero
      || Decimal.le input.proposedLimitPrice Decimal.zero
      || Decimal.lt input.takerFeeRate Decimal.zero
      || Decimal.le input.decisionMarketSnapshot.midpoint Decimal.zero then
    .error (.invalidInput "quantity, prices, midpoint, and fee rate")
  else do
    validateBook input.decisionMarketSnapshot
    validateBook input.evaluationMarketSnapshot

/-- What is filled and what it costs, and what is left, level by level. -/
def fillLevels (side : Side) (limitPrice : D) (remaining filled fillValue : D) :
    List (DepthLevel D) → Except ShadowError (D × D × D)
  | [] => .ok (filled, fillValue, remaining)
  | level :: rest =>
    if !withinLimit side limitPrice level.price || Decimal.isZero remaining then
      .ok (filled, fillValue, remaining)
    else do
      let quantity := Decimal.min remaining level.quantity
      let filled ← orShadowOverflow "filled quantity" (Decimal.checkedAdd filled quantity)
      let value ← orShadowOverflow "fill value" (Decimal.checkedMul quantity level.price)
      let fillValue ← orShadowOverflow "fill value sum" (Decimal.checkedAdd fillValue value)
      let remaining ← orShadowOverflow "IOC remainder" (Decimal.checkedSub remaining quantity)
      fillLevels side limitPrice remaining filled fillValue rest

/-- The average price of a fill, none when nothing is filled. -/
def averagePrice (filled fillValue : D) : Except ShadowError (Option D) :=
  if Decimal.isZero filled then .ok none
  else do
    let average ← orShadowOverflow "average fill price" (Decimal.checkedDiv fillValue filled)
    pure (some average)

/-- What a fill costs against the midpoint of the decision's book. -/
def slippageCost (side : Side) (midpoint filled : D) : Option D → Except ShadowError D
  | none => .ok Decimal.zero
  | some average => do
    let priceCost ← orShadowOverflow "slippage price"
      (match side with
      | .buy => Decimal.checkedSub average midpoint
      | .sell => Decimal.checkedSub midpoint average)
    orShadowOverflow "slippage" (Decimal.checkedMul priceCost filled)

def executeShadowIoc (input : ShadowExecutionInput D) : Except ShadowError (IocExecution D) := do
  input.validate
  let expectedEvaluationAt ← orShadowOverflow "latency timestamp"
    (checkedAddU64 input.decisionTimestampMono input.configuredLatencyMs)
  if input.evaluationMarketSnapshot.observedAtMono < expectedEvaluationAt then
    .error .snapshotTooEarly
  else do
    let side := input.action.side
    let (filled, fillValue, remaining) ← fillLevels side input.proposedLimitPrice
      input.roundedQuantity Decimal.zero Decimal.zero
      (input.evaluationMarketSnapshot.executable side)
    let average ← averagePrice filled fillValue
    let fees ← orShadowOverflow "fees" (Decimal.checkedMul fillValue input.takerFeeRate)
    let slippage ← slippageCost side input.decisionMarketSnapshot.midpoint filled average
    let signedFill :=
      match side with
      | .buy => filled
      | .sell => Decimal.neg filled
    let positionAfter ← orShadowOverflow "position after"
      (Decimal.checkedAdd input.positionBefore signedFill)
    pure {
      booked := {
        asset := input.action.asset
        side
        decisionId := input.action.decisionId
        plannedCloid := input.action.plannedCloid
        decisionTimestampMono := input.decisionTimestampMono
        modeledFilledQuantity := filled
        modeledAverageFillPrice := average
        fees
        funding := input.fundingAttribution
        slippage
        positionBefore := input.positionBefore
        positionAfter }
      roundedNotional := input.action.roundedNotional
      roundedQuantity := input.roundedQuantity
      unfilledIocRemainder := remaining
      modeledFilledNotional := fillValue }

structure ExitPlanningInput (D : Type) where
  asset : String
  desiredTargetNotional : D
  filledNotional : D
  filledQuantity : D
  acknowledgedOpenNotional : D
  unknownResultNotional : D
  continuationNotional : D
  referencePrice : D
  marketRules : MarketRules D
  marketSnapshot : ShadowMarketSnapshot D
  executionFloorPolicy : ExecutionFloorPolicy D
  executionCushion : D
  maximumSlippage : D

inductive ResidualClass
  | fullExit
  | riskReduction
  | directionFlipCloseLeg
  | exposureIncrease
  | alreadySatisfied
deriving DecidableEq

structure ExitPlan (D : Type) where
  asset : String
  desiredTargetNotional : D
  committedNotional : D
  signedResidualNotional : D
  residualClass : ResidualClass
  side : Side
  reduceOnly : Bool
  quantity : D
  plannedNotional : D
  executionFloor : AssetExecutionFloor D
  ioc : MarketableIocPlan D

inductive ExitPlanningBlock (D : Type)
  | invalidInput (message : String)
  | arithmeticOverflow (operation : String)
  | alreadySatisfied
  | exposureIncreasing
  | outstandingExposureRequiresReconciliation
  | belowExchangeMinimum (residualNotional requiredNotional : D)
  | pricing (message : String)
deriving DecidableEq

/-- The derived `Debug` of a block. -/
def ExitPlanningBlock.text : ExitPlanningBlock D → String
  | invalidInput message => debugVariant "InvalidInput" (quoted message)
  | arithmeticOverflow operation => debugVariant "ArithmeticOverflow" (quoted operation)
  | alreadySatisfied => "AlreadySatisfied"
  | exposureIncreasing => "ExposureIncreasing"
  | outstandingExposureRequiresReconciliation => "OutstandingExposureRequiresReconciliation"
  | belowExchangeMinimum residual required =>
    "BelowExchangeMinimum \x7b residual_notional: " ++ Decimal.text residual ++
      ", required_notional: " ++ Decimal.text required ++ " \x7d"
  | pricing message => debugVariant "Pricing" (quoted message)

namespace ExitPlanning

/-- `ok_or(ExitPlanningBlock::ArithmeticOverflow(operation))`. -/
def orExitOverflow {α : Type} (operation : String) : Option α → Except (ExitPlanningBlock D) α
  | none => .error (.arithmeticOverflow operation)
  | some value => .ok value

def validate (input : ExitPlanningInput D) : Except (ExitPlanningBlock D) Unit :=
  if input.asset.isEmpty || Decimal.le input.referencePrice Decimal.zero
      || Decimal.le input.marketRules.sizeStep Decimal.zero
      || Decimal.isZero input.filledNotional != Decimal.isZero input.filledQuantity then
    .error (.invalidInput "exit planning input")
  else .ok ()

def classify (committed desired : D) : ResidualClass :=
  if Decimal.eqv committed desired then .alreadySatisfied
  else if Decimal.isZero committed then .exposureIncrease
  else if Decimal.isZero desired then .fullExit
  else if Decimal.isSignPositive committed != Decimal.isSignPositive desired then
    .directionFlipCloseLeg
  else if Decimal.lt (Decimal.abs desired) (Decimal.abs committed) then .riskReduction
  else .exposureIncrease

def roundDown (value step : D) : Except (ExitPlanningBlock D) D :=
  orExitOverflow "quantity rounding"
    ((Decimal.checkedDiv value step).bind fun units => Decimal.checkedMul (Decimal.floor units) step)

/-- The quantity of an exit before rounding: all of the position, or what exceeds the desired target
at the reference price. -/
def rawQuantity (input : ExitPlanningInput D) : ResidualClass → Except (ExitPlanningBlock D) D
  | .fullExit | .directionFlipCloseLeg => .ok (Decimal.abs input.filledQuantity)
  | .riskReduction => do
    let destination ← orExitOverflow "destination quantity"
      (Decimal.checkedDiv (Decimal.abs input.desiredTargetNotional) input.referencePrice)
    let reduction ← orExitOverflow "reduction quantity"
      (Decimal.checkedSub (Decimal.abs input.filledQuantity) destination)
    pure (Decimal.max reduction Decimal.zero)
  | .exposureIncrease | .alreadySatisfied => .error .exposureIncreasing

/-- The notional an exit is meant to take off. -/
def intendedNotional (input : ExitPlanningInput D) (residual : D) :
    ResidualClass → Except (ExitPlanningBlock D) D
  | .fullExit | .directionFlipCloseLeg => .ok (Decimal.abs input.filledNotional)
  | .riskReduction => .ok (Decimal.min (Decimal.abs residual) (Decimal.abs input.filledNotional))
  | .exposureIncrease | .alreadySatisfied => .error .exposureIncreasing

def planRiskReducingIoc (input : ExitPlanningInput D) :
    Except (ExitPlanningBlock D) (ExitPlan D) := do
  validate input
  let committed ← orExitOverflow "committed exposure"
    (((Decimal.checkedAdd input.filledNotional input.acknowledgedOpenNotional).bind fun value =>
      Decimal.checkedAdd value input.unknownResultNotional).bind fun value =>
        Decimal.checkedAdd value input.continuationNotional)
  let residual ← orExitOverflow "signed residual"
    (Decimal.checkedSub input.desiredTargetNotional committed)
  let residualClass := classify committed input.desiredTargetNotional
  if residualClass = .alreadySatisfied then .error .alreadySatisfied
  else if residualClass = .exposureIncrease then .error .exposureIncreasing
  else if !Decimal.isZero input.acknowledgedOpenNotional
      || !Decimal.isZero input.unknownResultNotional
      || !Decimal.isZero input.continuationNotional then
    .error .outstandingExposureRequiresReconciliation
  else do
    let side := if Decimal.lt Decimal.zero input.filledNotional then Side.sell else Side.buy
    let intended ← intendedNotional input residual residualClass
    let raw ← rawQuantity input residualClass
    let rounded ← roundDown raw input.marketRules.sizeStep
    let quantity := Decimal.min rounded (Decimal.abs input.filledQuantity)
    let floor ← (ExecutionFloor.executionFloorForAsset side input.marketRules
      input.executionFloorPolicy).mapError fun error => .pricing error.text
    let plannedNotional ← orExitOverflow "exit notional"
      (Decimal.checkedMul quantity floor.boundedIocPrice)
    if Decimal.isZero quantity || Decimal.lt plannedNotional floor.minimumOrderNotional then
      .error (.belowExchangeMinimum intended floor.minimumOrderNotional)
    else do
      let ioc ← (planMarketableIoc side quantity input.marketSnapshot input.referencePrice
        input.executionCushion input.maximumSlippage input.marketRules.priceTick).mapError
          fun error => .pricing error.text
      pure {
        asset := input.asset
        desiredTargetNotional := input.desiredTargetNotional
        committedNotional := committed
        signedResidualNotional := residual
        residualClass
        side
        reduceOnly := true
        quantity
        plannedNotional
        executionFloor := floor
        ioc }

end ExitPlanning

end CopyTrade.Model
