import CopyTrade.Model.Core.Ipc
import CopyTrade.Model.Signer.Registry

/-!
# The signer's check of an intent

`validate_authorized_intent` of crates/copytrade-signer/src/production.rs and the durable form
of an intent.  The two remainders it takes panic on a zero step or tick, so the check has a
third outcome besides success and a failure.
-/

namespace CopyTrade.Model

open Foundation

inductive AuthorizationFailure
  | expired
  | policyHashMismatch
  | invalidIdentity
  | invalidMarketRules
  | belowExchangeMinimum
  | currentTargetNoLongerRequiresAction
  | projectionChanged
  | unresolvedAsset
  | duplicateCloid
  | risk (message : String)
  | arithmetic
deriving DecidableEq

/-- `to_string()` of an authorization failure, its derived `Debug`. -/
def AuthorizationFailure.text : AuthorizationFailure → String
  | expired => "Expired"
  | policyHashMismatch => "PolicyHashMismatch"
  | invalidIdentity => "InvalidIdentity"
  | invalidMarketRules => "InvalidMarketRules"
  | belowExchangeMinimum => "BelowExchangeMinimum"
  | currentTargetNoLongerRequiresAction => "CurrentTargetNoLongerRequiresAction"
  | projectionChanged => "ProjectionChanged"
  | unresolvedAsset => "UnresolvedAsset"
  | duplicateCloid => "DuplicateCloid"
  | risk message => debugVariant "Risk" (quoted message)
  | arithmetic => "Arithmetic"

/-- Why a check ends early: a failure, or a panic of an operator. -/
inductive AuthorizationStop
  | failed (failure : AuthorizationFailure)
  | panicked
deriving DecidableEq

variable {D : Type} [Decimal D]

/-- ; the two errors are told apart by no caller. -/
def validatesRoundedOrder (quantity iocPrice exchangeMinimumNotional : D) : Option Bool :=
  if Decimal.lt quantity Decimal.zero || Decimal.le iocPrice Decimal.zero then none
  else (Decimal.checkedMul quantity iocPrice).map fun notional =>
    Decimal.le exchangeMinimumNotional notional

/-- `value % step != 0`. -/
def leavesRemainder (value step : D) : Except AuthorizationStop Bool :=
  match Decimal.checkedRem value step with
  | none => .error .panicked
  | some remainder => .ok (!Decimal.isZero remainder)

/-- `ok_or(failure)`. -/
def orFailure {α : Type} (failure : AuthorizationFailure) :
    Option α → Except AuthorizationStop α
  | none => .error (.failed failure)
  | some value => .ok value

/-- The continuation fields and the amounts of an intent. -/
def invalidIntentFields (intent : AuthorizedExecutionIntent D) : Bool :=
  intent.asset == ""
    || Decimal.le intent.quantity Decimal.zero
    || Decimal.le intent.limitPrice Decimal.zero
    || Decimal.le intent.decisionReferencePrice Decimal.zero
    || (intent.continuationGeneration == 0 && intent.parentCloid.isSome)
    || (decide (0 < intent.continuationGeneration) && intent.parentCloid.isNone)

/-- The size or the price is no multiple of its step; the price is looked at only when the size is
one. -/
def offGrid (intent : AuthorizedExecutionIntent D) (rules : MarketRules D) :
    Except AuthorizationStop Bool := do
  let offSize ← leavesRemainder intent.quantity rules.sizeStep
  if offSize then pure true else leavesRemainder intent.limitPrice rules.priceTick

/-- The order is the one the projection asks for. -/
def checkRequiredDelta (intent : AuthorizedExecutionIntent D) (rules : MarketRules D)
    (projection : PortfolioProjection D) : Except AuthorizationStop Unit := do
  let required := projection.roundedDeltas[intent.asset]?.getD Decimal.zero
  let intended ← orFailure .arithmetic (Decimal.checkedMul intent.quantity rules.markPrice)
  let sideMatches :=
    match intent.side with
    | .buy => Decimal.lt Decimal.zero required
    | .sell => Decimal.lt required Decimal.zero
  if !sideMatches || !Decimal.eqv (Decimal.abs required) intended then
    .error (.failed .currentTargetNoLongerRequiresAction)
  else .ok ()

/-- The checks of an intent that passed the ones on the registry. -/
def validateAgainstProjection [Sha256] (intent : AuthorizedExecutionIntent D)
    (context : PreSigningContext D) : Except AuthorizationStop Unit := do
  let rules ← orFailure .invalidMarketRules
    context.projectionInput.marketRules[intent.asset]?
  let off ← offGrid intent rules
  if off then .error (.failed .invalidMarketRules)
  else
    let meetsMinimum ← orFailure .arithmetic
      (validatesRoundedOrder intent.quantity intent.limitPrice context.exchangeMinimumNotional)
    if !meetsMinimum then .error (.failed .belowExchangeMinimum)
    else
      match PortfolioRisk.projectAndValidatePortfolio context.projectionInput with
      | .error violation => .error (.failed (.risk violation.text))
      | .ok projection =>
        let hash ← orFailure .arithmetic (deriveProjectionHash projection)
        if hash != intent.projectedPortfolioHash then .error (.failed .projectionChanged)
        else checkRequiredDelta intent rules projection

def validateAuthorizedIntent [Sha256] [IntentEncoding D] (intent : AuthorizedExecutionIntent D)
    (context : PreSigningContext D) (registry : SubmissionRegistry D) :
    Except AuthorizationStop Unit :=
  match intent.validateCanonical with
  | .error _ => .error (.failed .invalidIdentity)
  | .ok _ =>
    if intent.expiresAt < context.nowMono then .error (.failed .expired)
    else if intent.riskPolicyHash != context.deployedRiskPolicyHash then
      .error (.failed .policyHashMismatch)
    else if (registry.state (toHex intent.plannedCloid)).any fun state =>
        !state.eqv .authorizedNotSubmitted then
      .error (.failed .duplicateCloid)
    else if !intent.reduceOnly && !registry.permitsIncrease intent.asset then
      .error (.failed .unresolvedAsset)
    else if invalidIntentFields intent then .error (.failed .invalidIdentity)
    else validateAgainstProjection intent context

def durableIntent (intent : AuthorizedExecutionIntent D) : ApprovedExecutionIntent D where
  decisionId := hex32 intent.decisionId
  targetVersion := intent.targetVersion
  rootCloid := toHex intent.rootCloid
  cloid := toHex intent.plannedCloid
  parentCloid := intent.parentCloid.map toHex
  continuationGeneration := intent.continuationGeneration
  asset := intent.asset
  assetIndex := intent.assetIndex
  isBuy := intent.side == .buy
  reduceOnly := intent.reduceOnly
  limitPrice := intent.limitPrice
  quantity := intent.quantity
  riskProjectionHash := hex32 intent.projectedPortfolioHash
  riskPolicyHash := hex32 intent.riskPolicyHash
  configurationHash := hex32 intent.configurationHash
  releaseManifestHash := hex32 intent.releaseManifestHash
  decisionReferencePrice := intent.decisionReferencePrice
  decisionTimestampMs := intent.decisionTimestampMs
  expiresAtMono := intent.expiresAt
  canonicalIntentHash := hex32 intent.canonicalHash

end CopyTrade.Model
