import CopyTrade.Foundation.InPlace
import CopyTrade.Foundation.Words
import CopyTrade.Model.Decimal
import Mathlib.Data.Finset.Basic
import Std.Data.ExtTreeMap
import Std.Data.ExtTreeSet

/-!
# The cohort

The part of crates/copytrade-core/src/cohort.rs that decides.  `aggregate_authoritative_positions`
sums up what the wallets hold of an asset on each side, weighted by their quality.
`VeryProfitableCohortEngine` keeps the frames of two hours and the last target of every asset, and
`evaluate` writes to both on its way.
-/

namespace CopyTrade.Model.Cohort

open Foundation
open Std (ExtTreeMap ExtTreeSet)

/-- The errors of the cohort; the last one stands for the panic of an operator that does not check
its result. -/
inductive CohortError
  | invalidMembership (message : String)
  | invalidQualityPolicy
  | invalidQualityObservation (address : String)
  | invalidWalletState (address : String)
  | invalidSignalInput (message : String)
  | nonMonotonicSnapshot
  | conflictingSnapshot
  | arithmetic
  | panicked
deriving DecidableEq

/-- `ok_or(CohortError::Arithmetic)`. -/
def orArithmetic {α : Type} : Option α → Except CohortError α
  | none => .error .arithmetic
  | some value => .ok value

def orPanic {α : Type} : Option α → Except CohortError α
  | none => .error .panicked
  | some value => .ok value

def validAddress (value : String) : Bool :=
  let digits := value.toList.drop 2
  value.utf8ByteSize == 42 && ['0', 'x'].isPrefixOf value.toList &&
    digits.all (fun c => c.isDigit || ('a' ≤ c && c ≤ 'f') || ('A' ≤ c && c ≤ 'F')) &&
      digits.any (· != '0')

structure AuthoritativeWalletPosition (D : Type) where
  signedNotional : D
  entryPrice : D
  unrealizedPnl : D

structure FilteredCohortWallet (D : Type) where
  address : String
  observedAtMs : ℕ
  boundedWalletWeight : D
  realizedQualityScore : D
  positions : ExtTreeMap String (AuthoritativeWalletPosition D)

structure CohortAssetAggregate (D : Type) where
  asset : String
  observedAtMs : ℕ
  walletCountAfterFiltering : ℕ
  positionedWalletCount : ℕ
  longNotional : D
  shortNotional : D
  weightedLongNotional : D
  weightedShortNotional : D
  longTraderCount : ℕ
  shortTraderCount : ℕ
  notionalBias : D
  traderCountBias : D
  cohortPosition : D
  weightedRealizedQuality : D
  unrealizedProfitFraction : D
  dominantWalletPercentage : D
  observedEntryOpportunity : Option D
deriving DecidableEq

structure SideTotals (D : Type) where
  traderCount : ℕ
  notional : D
  weightedNotional : D
  entryNumerator : D
  entryDenominator : D
deriving DecidableEq

structure WalletTotals (D : Type) where
  seen : ExtTreeSet String
  long : SideTotals D
  short : SideTotals D
  positionedWalletCount : ℕ
  dominantNotional : D
  signedWeightedQuality : D
  walletWeightTotal : D
  weightedPositiveUnrealizedPnl : D

section

variable {D : Type} [Decimal D]

def SideTotals.zero : SideTotals D := ⟨0, Decimal.zero, Decimal.zero, Decimal.zero, Decimal.zero⟩

def WalletTotals.zero : WalletTotals D where
  seen := ∅
  long := .zero
  short := .zero
  positionedWalletCount := 0
  dominantNotional := Decimal.zero
  signedWeightedQuality := Decimal.zero
  walletWeightTotal := Decimal.zero
  weightedPositiveUnrealizedPnl := Decimal.zero

/-- `(low..=high).contains(&value)`. -/
def within (low high value : D) : Bool := Decimal.le low value && Decimal.le value high

/-- `left.checked_mul(right).and_then(|product| sum.checked_add(product))`. -/
def checkedAddMul (sum left right : D) : Option D :=
  (Decimal.checkedMul left right).bind (Decimal.checkedAdd sum)

/-- The wallet is one of the qualified ones, seen for the first time, with a state of this moment.
-/
def walletAccepted (observedAtMs : ℕ) (allowedMembers seen : ExtTreeSet String)
    (wallet : FilteredCohortWallet D) : Bool :=
  let address := wallet.address.toLower
  validAddress address && allowedMembers.contains address && !seen.contains address
    && wallet.observedAtMs == observedAtMs
    && within Decimal.zero Decimal.one wallet.boundedWalletWeight
    && within Decimal.zero Decimal.one wallet.realizedQualityScore

def SideTotals.add (side : SideTotals D) (rawNotional weightedNotional entryPrice : D) :
    Except CohortError (SideTotals D) := do
  let notional ← orArithmetic (Decimal.checkedAdd side.notional rawNotional)
  let weighted ← orArithmetic (Decimal.checkedAdd side.weightedNotional weightedNotional)
  let entryNumerator ← orArithmetic (checkedAddMul side.entryNumerator entryPrice weightedNotional)
  let entryDenominator ← orArithmetic
    (Decimal.checkedAdd side.entryDenominator weightedNotional)
  pure ⟨side.traderCount + 1, notional, weighted, entryNumerator, entryDenominator⟩

def WalletTotals.addPosition (totals : WalletTotals D) (wallet : FilteredCohortWallet D)
    (position : AuthoritativeWalletPosition D) : Except CohortError (WalletTotals D) := do
  let rawNotional := Decimal.abs position.signedNotional
  let weightedNotional ← orArithmetic
    (Decimal.checkedMul rawNotional wallet.boundedWalletWeight)
  let weightedPositiveUnrealizedPnl ← orArithmetic
    (checkedAddMul totals.weightedPositiveUnrealizedPnl
      (Decimal.max position.unrealizedPnl Decimal.zero) wallet.boundedWalletWeight)
  let isLong := Decimal.isSignPositive position.signedNotional
  let side ← (if isLong then totals.long else totals.short).add rawNotional weightedNotional
    position.entryPrice
  let direction := if isLong then Decimal.one else Decimal.neg Decimal.one
  let signedQuality ← orArithmetic
    ((Decimal.checkedMul wallet.realizedQualityScore wallet.boundedWalletWeight).bind fun value =>
      Decimal.checkedMul value direction)
  let signedWeightedQuality ← orArithmetic
    (Decimal.checkedAdd totals.signedWeightedQuality signedQuality)
  let walletWeightTotal ← orArithmetic
    (Decimal.checkedAdd totals.walletWeightTotal wallet.boundedWalletWeight)
  pure
    { seen := totals.seen
      long := if isLong then side else totals.long
      short := if isLong then totals.short else side
      positionedWalletCount := totals.positionedWalletCount + 1
      dominantNotional := Decimal.max totals.dominantNotional weightedNotional
      signedWeightedQuality
      walletWeightTotal
      weightedPositiveUnrealizedPnl }

def WalletTotals.addWallet (asset : String) (observedAtMs : ℕ) (allowedMembers : ExtTreeSet String)
    (totals : WalletTotals D) (wallet : FilteredCohortWallet D) :
    Except CohortError (WalletTotals D) :=
  if !walletAccepted observedAtMs allowedMembers totals.seen wallet then
    .error (.invalidWalletState wallet.address.toLower)
  else
    let totals := { totals with seen := totals.seen.insert wallet.address.toLower }
    match wallet.positions[asset]? with
    | none => .ok totals
    | some position =>
      if Decimal.isZero position.signedNotional then .ok totals
      else if Decimal.le position.entryPrice Decimal.zero then
        .error (.invalidWalletState wallet.address.toLower)
      else totals.addPosition wallet position

/-- `numerator / denominator`, and zero where there is nothing to divide by. -/
def ratioOrZero (numerator : Option D) (denominator : D) : Except CohortError D :=
  if Decimal.isZero denominator then .ok Decimal.zero
  else orArithmetic (numerator.bind fun value => Decimal.checkedDiv value denominator)

def countBias (longTraderCount shortTraderCount : ℕ) : Except CohortError D :=
  if longTraderCount + shortTraderCount = 0 then .ok Decimal.zero
  else orArithmetic (Decimal.checkedDiv
    (Decimal.new ((longTraderCount : ℤ) - shortTraderCount) 0)
    (Decimal.new (longTraderCount + shortTraderCount : ℕ) 0))

def SideTotals.entry (side : SideTotals D) : Except CohortError (Option D) := do
  let entry ← orArithmetic (Decimal.checkedDiv side.entryNumerator side.entryDenominator)
  pure (some entry)

/-- The average entry on the side of the cohort's position; a zero has a positive sign. -/
def observedEntryOpportunity (cohortPosition : D) (long short : SideTotals D) :
    Except CohortError (Option D) :=
  if Decimal.isSignPositive cohortPosition && !Decimal.isZero long.entryDenominator then
    long.entry
  else if !Decimal.isSignPositive cohortPosition && !Decimal.isZero short.entryDenominator then
    short.entry
  else .ok none

/-- `clamp(-1, 1)`. -/
def clampUnit (value : D) : D := Decimal.clamp value (Decimal.neg Decimal.one) Decimal.one

/-- The ratios of the sums. -/
def WalletTotals.aggregate (totals : WalletTotals D) (asset : String) (observedAtMs : ℕ)
    (walletCount : ℕ) : Except CohortError (CohortAssetAggregate D) := do
  let long := totals.long
  let short := totals.short
  let weightedGross ← orArithmetic
    (Decimal.checkedAdd long.weightedNotional short.weightedNotional)
  let notionalBias ← ratioOrZero
    (Decimal.checkedSub long.weightedNotional short.weightedNotional) weightedGross
  let traderCountBias ← countBias long.traderCount short.traderCount
  let position ← orArithmetic ((Decimal.checkedMul (Decimal.new 70 2) notionalBias).bind
    fun value => checkedAddMul value (Decimal.new 30 2) traderCountBias)
  let cohortPosition := clampUnit position
  let quality ← ratioOrZero (some totals.signedWeightedQuality) totals.walletWeightTotal
  let dominantWalletPercentage ← ratioOrZero
    (Decimal.checkedMul totals.dominantNotional (Decimal.new 100 0)) weightedGross
  let unrealizedProfitFraction ← ratioOrZero
    (some totals.weightedPositiveUnrealizedPnl) weightedGross
  let entry ← observedEntryOpportunity cohortPosition long short
  pure
    { asset
      observedAtMs
      walletCountAfterFiltering := walletCount
      positionedWalletCount := totals.positionedWalletCount
      longNotional := long.notional
      shortNotional := short.notional
      weightedLongNotional := long.weightedNotional
      weightedShortNotional := short.weightedNotional
      longTraderCount := long.traderCount
      shortTraderCount := short.traderCount
      notionalBias
      traderCountBias
      cohortPosition
      weightedRealizedQuality := clampUnit quality
      unrealizedProfitFraction
      dominantWalletPercentage
      observedEntryOpportunity := entry }

def aggregateAuthoritativePositions (asset : String) (observedAtMs : ℕ)
    (allowedMembers : ExtTreeSet String) (wallets : List (FilteredCohortWallet D)) :
    Except CohortError (CohortAssetAggregate D) :=
  if asset.isEmpty || observedAtMs == 0 then .error (.invalidWalletState asset)
  else do
    let totals ← wallets.foldlM (WalletTotals.addWallet asset observedAtMs allowedMembers) .zero
    totals.aggregate asset observedAtMs wallets.length

end

structure ActiveTwapContext (D : Type) where
  observedAtMs : ℕ
  direction : ℤ
  totalQuantity : D
  executedQuantity : D
  remainingQuantity : D
  progress : D
  nearlyCompleted : Bool

structure CohortRiskFlags where
  incompleteAuthoritativeWalletState : Bool
  staleUnrealizedProfitDominated : Bool
  shortCoveringNotInitiation : Bool
  adverseFunding : Bool
  liquidationCascade : Bool
  recentAdditionsUnwound : Bool
  originalFilteredWalletsClosed : Bool

structure CohortPenalties (D : Type) where
  chase : D
  crowding : D
  funding : D
  liquidation : D

/-- The fields the signal reads. -/
structure CohortMembershipResolution where
  snapshotTimestampMs : ℕ
  membershipSetHash : String
  walletCountBeforeFiltering : ℕ
  overlapWithExisting : ℕ

structure CohortSignalInput (D : Type) where
  membership : CohortMembershipResolution
  aggregate : CohortAssetAggregate D
  filteredWalletConsensus : D
  activeTwap : Option (ActiveTwapContext D)
  marketConfirmation : D
  penalties : CohortPenalties D
  riskFlags : CohortRiskFlags
  positionChangeAgeMs : ℕ
  maximumPositionChangeAgeMs : ℕ
  dominantWalletLimitPct : D
  currentPrice : D
  rUnit : D
  estimatedRoundTripCostFraction : D
  expectedMoveFraction : D
  sourceBudgetFraction : D
  existingWalletSourceTarget : D
  technicalTarget : D
  rebalanceTolerance : D

inductive CohortDecisionReason
  | eligibleLong
  | eligibleShort
  | neutralScore
  | directionalDisagreement
  | incompleteAuthoritativeWalletState
  | chaseLimit
  | staleUnrealizedProfit
  | nearlyCompletedTwap
  | shortCovering
  | adverseFunding
  | liquidationCascade
  | dominantWallet
  | stalePositionChange
  | recentAdditionsUnwound
  | originalFilteredWalletsClosed
  | expectedMoveDoesNotCoverCosts
  | missingEntryOpportunity
  | authoritativeWalletHydrationFailed
  | missingMarketPrice
  | missingAtr
  | missingExpectedMove
  | positionAggregationFailed
  | filteredWalletConsensusFailed
  | signalEvaluationFailed
  | immaterialRefresh
deriving DecidableEq

inductive AttributionTag
  | existingWalletSourceOnly
  | veryProfitableCohortOnly
  | bothSourceSetsAgreeing
  | sourceSetsDisagreeing
  | technicalOnly
  | sourceTechnicalHybrid
deriving DecidableEq

structure CohortIndicatorRecord (D : Type) where
  asset : String
  cohortSnapshotTimestampMs : ℕ
  membershipSetHash : String
  walletCountBeforeFiltering : ℕ
  walletCountAfterFiltering : ℕ
  overlapWithExisting : ℕ
  longNotional : D
  shortNotional : D
  longTraderCount : ℕ
  shortTraderCount : ℕ
  impulse5m : D
  impulse15m : D
  impulse1h : D
  activeTwapDirection : ℤ
  activeTwapRemainingQuantity : D
  weightedWalletQuality : D
  dominantWalletPercentage : D
  cohortScore : D
  chaseDistanceR : Option D
  costEstimateFraction : D
  existingWalletSourceTarget : D
  veryProfitableCohortTarget : D
  sourceTarget : D
  technicalTarget : D
  combinedTarget : D
  targetVersion : ℕ
  independentExecutionRoot : Bool
  reasons : Finset CohortDecisionReason
  attribution : Finset AttributionTag

structure AggregateFrame (D : Type) where
  observedAtMs : ℕ
  netNotional : D
  grossNotional : D
deriving DecidableEq

structure MaterialTargetState (D : Type) where
  version : ℕ
  cohortDirection : ℤ
  impulse : D
  filteredWalletConsensus : D
  twapPressure : D
  existingWalletSourceTarget : D
  veryProfitableCohortTarget : D
  sourceTarget : D
deriving DecidableEq

/-- The frames of an asset, the oldest first, and its last target. -/
structure VeryProfitableCohortEngine (D : Type) where
  history : ExtTreeMap String (List (AggregateFrame D))
  targets : ExtTreeMap String (MaterialTargetState D)

section

variable {D : Type} [Decimal D]

/-- The context is one of a running order, and the pressure is the share of it that is left. -/
def ActiveTwapContext.pressure (twap : ActiveTwapContext D) : Except CohortError D :=
  let invalid : Except CohortError D := .error (.invalidSignalInput "invalid active TWAP context")
  if (twap.direction != -1 && twap.direction != 1)
      || Decimal.le twap.totalQuantity Decimal.zero
      || Decimal.lt twap.executedQuantity Decimal.zero
      || Decimal.lt twap.remainingQuantity Decimal.zero then invalid
  else do
    let quantity ← orPanic (Decimal.checkedAdd twap.executedQuantity twap.remainingQuantity)
    if !Decimal.eqv quantity twap.totalQuantity
        || !within Decimal.zero Decimal.one twap.progress then invalid
    else orArithmetic ((Decimal.checkedDiv twap.remainingQuantity twap.totalQuantity).bind
      fun share => Decimal.checkedMul (Decimal.new twap.direction 0) share)

def twapPressure (input : CohortSignalInput D) : Except CohortError D :=
  match input.activeTwap with
  | some twap => twap.pressure
  | none => .ok Decimal.zero

def validateSignalInput (input : CohortSignalInput D) : Except CohortError Unit :=
  let signed := within (Decimal.neg Decimal.one) (Decimal.one : D)
  let fraction := within Decimal.zero (Decimal.one : D)
  let penalties := [input.penalties.chase, input.penalties.crowding, input.penalties.funding,
    input.penalties.liquidation]
  if input.aggregate.observedAtMs < input.membership.snapshotTimestampMs
      || !signed input.filteredWalletConsensus
      || !signed input.marketConfirmation
      || !signed input.existingWalletSourceTarget
      || !signed input.technicalTarget
      || penalties.any (fun penalty => !fraction penalty)
      || input.maximumPositionChangeAgeMs == 0
      || !within Decimal.zero (Decimal.new 100 0) input.dominantWalletLimitPct
      || Decimal.le input.currentPrice Decimal.zero
      || Decimal.le input.rUnit Decimal.zero
      || Decimal.lt input.estimatedRoundTripCostFraction Decimal.zero
      || Decimal.lt input.expectedMoveFraction Decimal.zero
      || !fraction input.sourceBudgetFraction
      || Decimal.lt input.rebalanceTolerance Decimal.zero then
    .error (.invalidSignalInput input.aggregate.asset)
  else if input.activeTwap.any fun twap =>
      twap.observedAtMs < input.membership.snapshotTimestampMs then
    .error (.invalidSignalInput "TWAP predates membership snapshot")
  else .ok ()

/-- `current == last`. -/
def AggregateFrame.eqv (a b : AggregateFrame D) : Bool :=
  a.observedAtMs == b.observedAtMs && Decimal.eqv a.netNotional b.netNotional
    && Decimal.eqv a.grossNotional b.grossNotional

/-- The change of the net notional since the last frame before the horizon. -/
def impulseAt (history : List (AggregateFrame D)) (current : AggregateFrame D)
    (horizonMs maximumObservationAgeMs : ℕ) : Except CohortError D :=
  let cutoff := current.observedAtMs - horizonMs
  match history.reverse.find? fun frame => decide (frame.observedAtMs ≤ cutoff
      ∧ cutoff - frame.observedAtMs ≤ maximumObservationAgeMs) with
  | none => .ok Decimal.zero
  | some previous =>
    let denominator := Decimal.max current.grossNotional previous.grossNotional
    if Decimal.isZero denominator then .ok Decimal.zero
    else orArithmetic (((Decimal.checkedSub current.netNotional previous.netNotional).bind
      fun value => Decimal.checkedDiv value denominator).map clampUnit)

def weightedSum (weight value : D) (terms : List (D × D)) : Option D :=
  (Decimal.checkedMul weight value).bind fun first =>
    terms.foldlM (fun sum term => checkedAddMul sum term.1 term.2) first

def cents (value : ℤ) : D := Decimal.new value 2

def fiveMinutesMs : ℕ := 300000

def fifteenMinutesMs : ℕ := 900000

def oneHourMs : ℕ := 3600000

def historyRetentionMs : ℕ := 2 * oneHourMs

/-- What an evaluation sees of the frames. -/
structure Observation (D : Type) where
  current : AggregateFrame D
  previousFrame : Option (AggregateFrame D)
  impulse5m : D
  impulse15m : D
  impulse1h : D
  impulse : D

def currentFrame (input : CohortSignalInput D) : Except CohortError (AggregateFrame D) := do
  validateSignalInput input
  let net ← orArithmetic (Decimal.checkedSub input.aggregate.weightedLongNotional
    input.aggregate.weightedShortNotional)
  let gross ← orArithmetic (Decimal.checkedAdd input.aggregate.weightedLongNotional
    input.aggregate.weightedShortNotional)
  pure ⟨input.aggregate.observedAtMs, net, gross⟩

/-- A frame does not precede the last one, and one of the same moment is equal to it. -/
def checkOrder (current : AggregateFrame D) : Option (AggregateFrame D) → Except CohortError Unit
  | none => .ok ()
  | some last =>
    if current.observedAtMs < last.observedAtMs then .error .nonMonotonicSnapshot
    else if current.observedAtMs == last.observedAtMs && !current.eqv last then
      .error .conflictingSnapshot
    else .ok ()

def observe (maximumObservationAgeMs : ℕ) (history : List (AggregateFrame D))
    (current : AggregateFrame D) : Except CohortError (Observation D) := do
  checkOrder current history.getLast?
  let impulse5m ← impulseAt history current fiveMinutesMs maximumObservationAgeMs
  let impulse15m ← impulseAt history current fifteenMinutesMs maximumObservationAgeMs
  let impulse1h ← impulseAt history current oneHourMs maximumObservationAgeMs
  let impulse ← orArithmetic
    (weightedSum (cents 20) impulse5m [(cents 50, impulse15m), (cents 30, impulse1h)])
  pure ⟨current, history.getLast?, impulse5m, impulse15m, impulse1h, clampUnit impulse⟩

/-- The frame is put at the end, unless it is there, and what is too old is taken from the front. -/
def recordFrame (history : List (AggregateFrame D)) (current : AggregateFrame D) :
    List (AggregateFrame D) :=
  let history := if history.getLast?.any fun last => last.eqv current then history
    else history ++ [current]
  history.dropWhile fun frame =>
    decide (saturatingAdd frame.observedAtMs historyRetentionMs < current.observedAtMs)

def saturatingSub (a b : D) : D :=
  (Decimal.checkedSub a b).getD
    (Decimal.new (if Decimal.isSignPositive b then -(2 ^ 96 - 1) else 2 ^ 96 - 1) 0)

def attenuateMagnitude (value penalty : D) : D :=
  let magnitude := Decimal.max (saturatingSub (Decimal.abs value) penalty) Decimal.zero
  if Decimal.isZero magnitude then Decimal.zero
  else if Decimal.isSignPositive value then magnitude
  else Decimal.neg magnitude

def directionalAgreement (a b c : D) : Bool :=
  Decimal.signum a != 0 && Decimal.signum a == Decimal.signum b
    && Decimal.signum b == Decimal.signum c

def cohortActivationScore : D := cents 35

def cohortChaseLimitR : D := cents 15

/-- The score before the penalties. -/
def rawScore (input : CohortSignalInput D) (impulse twapPressure : D) : Option D :=
  weightedSum (cents 30) input.aggregate.cohortPosition
    [(cents 20, impulse), (cents 20, input.filteredWalletConsensus),
      (cents 15, input.aggregate.weightedRealizedQuality), (cents 10, twapPressure),
      (cents 5, input.marketConfirmation)]

def CohortPenalties.total (penalties : CohortPenalties D) : Option D :=
  [penalties.crowding, penalties.funding, penalties.liquidation].foldlM Decimal.checkedAdd
    penalties.chase

def signalsAgree (input : CohortSignalInput D) (impulse : D) : Bool :=
  directionalAgreement input.aggregate.cohortPosition impulse input.filteredWalletConsensus

def proposedDirection (agreement : Bool) (cohortScore : D) : ℤ :=
  if agreement && Decimal.le cohortActivationScore cohortScore then 1
  else if agreement && Decimal.le cohortScore (Decimal.neg cohortActivationScore) then -1
  else 0

def chaseDistanceR (input : CohortSignalInput D) (direction : ℤ) : Option D :=
  if direction == 0 || !Decimal.lt Decimal.zero input.rUnit then none
  else input.aggregate.observedEntryOpportunity.bind fun opportunity =>
    (if 0 < direction then Decimal.checkedSub input.currentPrice opportunity
      else Decimal.checkedSub opportunity input.currentPrice).bind fun distance =>
      Decimal.checkedDiv distance input.rUnit

def derivedShortCovering (previous : Option (AggregateFrame D)) (current : AggregateFrame D) :
    Bool :=
  previous.any fun previous => Decimal.lt previous.netNotional Decimal.zero
    && Decimal.lt current.netNotional Decimal.zero
    && Decimal.lt previous.netNotional current.netNotional

def unwinds (impulse tolerance : D) (direction : ℤ) : Bool :=
  (decide (0 < direction) && Decimal.lt impulse (Decimal.neg tolerance))
    || (decide (direction < 0) && Decimal.lt tolerance impulse)

def derivedRecentAdditionsUnwound (previous : Option (MaterialTargetState D))
    (impulse tolerance : D) : Bool :=
  previous.any fun previous => unwinds impulse tolerance previous.cohortDirection

def derivedStaleUnrealizedProfit (input : CohortSignalInput D) (direction : ℤ) (impulse : D) :
    Bool :=
  direction != 0
    && Decimal.lt input.expectedMoveFraction input.aggregate.unrealizedProfitFraction
    && Decimal.le (Decimal.abs impulse) input.rebalanceTolerance

/-- The reasons against the cohort, from what was derived of the frames and of the last target. -/
def refusals (input : CohortSignalInput D) (impulse cohortScore : D)
    (shortCovering unwound : Bool) : Finset CohortDecisionReason :=
  let agreement := signalsAgree input impulse
  let direction := proposedDirection agreement cohortScore
  let chase := chaseDistanceR input direction
  let flags := input.riskFlags
  let reasons := [
    (!agreement, .directionalDisagreement),
    (agreement && direction == 0, .neutralScore),
    (flags.incompleteAuthoritativeWalletState, .incompleteAuthoritativeWalletState),
    (direction != 0 && chase.isNone, .missingEntryOpportunity),
    (chase.any (Decimal.lt cohortChaseLimitR), .chaseLimit),
    (flags.staleUnrealizedProfitDominated || derivedStaleUnrealizedProfit input direction impulse,
      .staleUnrealizedProfit),
    (input.activeTwap.any ActiveTwapContext.nearlyCompleted, .nearlyCompletedTwap),
    ((flags.shortCoveringNotInitiation || shortCovering)
      && Decimal.lt input.aggregate.cohortPosition Decimal.zero, .shortCovering),
    (flags.adverseFunding, .adverseFunding),
    (flags.liquidationCascade, .liquidationCascade),
    (Decimal.lt input.dominantWalletLimitPct input.aggregate.dominantWalletPercentage,
      .dominantWallet),
    (decide (input.maximumPositionChangeAgeMs < input.positionChangeAgeMs), .stalePositionChange),
    (flags.recentAdditionsUnwound || unwound, .recentAdditionsUnwound),
    (flags.originalFilteredWalletsClosed, .originalFilteredWalletsClosed),
    (Decimal.le input.expectedMoveFraction input.estimatedRoundTripCostFraction,
      .expectedMoveDoesNotCoverCosts)]
  ((reasons.filter Prod.fst).map Prod.snd).toFinset

/-- What an evaluation proposes. -/
structure Assessment (D : Type) where
  cohortScore : D
  chaseDistanceR : Option D
  reasons : Finset CohortDecisionReason
  proposed : MaterialTargetState D

/-- The score, the reasons and the target they lead to. -/
def assess (input : CohortSignalInput D) (observation : Observation D)
    (previousTarget : Option (MaterialTargetState D)) : Except CohortError (Assessment D) := do
  let impulse := observation.impulse
  let twapPressure ← twapPressure input
  let rawScore ← orArithmetic (rawScore input impulse twapPressure)
  let penalty ← orArithmetic input.penalties.total
  let cohortScore := attenuateMagnitude rawScore penalty
  let direction := proposedDirection (signalsAgree input impulse) cohortScore
  let refusals := refusals input impulse cohortScore
    (derivedShortCovering observation.previousFrame observation.current)
    (derivedRecentAdditionsUnwound previousTarget impulse input.rebalanceTolerance)
  let eligible := decide (refusals = ∅)
  let admittedCohortScore := if eligible then cohortScore else Decimal.zero
  let combinedSourceScore ← orArithmetic
    (Decimal.checkedAdd input.existingWalletSourceTarget admittedCohortScore)
  let sourceTarget ← orArithmetic
    (Decimal.checkedMul input.sourceBudgetFraction (clampUnit combinedSourceScore))
  let existingWalletSourceTarget ← orArithmetic
    (Decimal.checkedMul input.sourceBudgetFraction input.existingWalletSourceTarget)
  let veryProfitableCohortTarget ← orArithmetic
    (Decimal.checkedMul input.sourceBudgetFraction admittedCohortScore)
  pure
    { cohortScore
      chaseDistanceR := chaseDistanceR input direction
      reasons := if eligible then
          {if 0 < direction then .eligibleLong else .eligibleShort}
        else refusals
      proposed :=
        { version := 0
          cohortDirection := Decimal.signum input.aggregate.cohortPosition
          impulse
          filteredWalletConsensus := input.filteredWalletConsensus
          twapPressure
          existingWalletSourceTarget
          veryProfitableCohortTarget
          sourceTarget } }

/-- Some pair is further apart than the tolerance; a difference that overflows panics. -/
def anyApart (tolerance : D) : List (D × D) → Except CohortError Bool
  | [] => .ok false
  | pair :: pairs => do
    let difference ← orPanic (Decimal.checkedSub pair.1 pair.2)
    if Decimal.lt tolerance (Decimal.abs difference) then .ok true else anyApart tolerance pairs

def MaterialTargetState.pairs (previous proposed : MaterialTargetState D) : List (D × D) :=
  [(previous.impulse, proposed.impulse),
    (previous.filteredWalletConsensus, proposed.filteredWalletConsensus),
    (previous.twapPressure, proposed.twapPressure),
    (previous.existingWalletSourceTarget, proposed.existingWalletSourceTarget),
    (previous.veryProfitableCohortTarget, proposed.veryProfitableCohortTarget),
    (previous.sourceTarget, proposed.sourceTarget)]

def materialChange (previous proposed : MaterialTargetState D) (tolerance : D) :
    Except CohortError Bool :=
  let pairs := previous.pairs proposed
  if previous.cohortDirection != proposed.cohortDirection
      || pairs.any (fun pair => Decimal.signum pair.1 != Decimal.signum pair.2) then .ok true
  else anyApart tolerance pairs

/-- The target that is emitted, and whether it is a new one. -/
structure Settlement (D : Type) where
  target : MaterialTargetState D
  stored : Bool
  independentExecutionRoot : Bool

def settle (previous : Option (MaterialTargetState D)) (proposed : MaterialTargetState D)
    (tolerance : D) : Except CohortError (Settlement D) :=
  match previous with
  | none => .ok ⟨proposed, true, !Decimal.isZero proposed.sourceTarget⟩
  | some previous => do
    let material ← materialChange previous proposed tolerance
    if material then do
      let version ← orArithmetic (checkedAddU64 previous.version 1)
      pure ⟨{ proposed with version }, true,
        !Decimal.isZero previous.sourceTarget || !Decimal.isZero proposed.sourceTarget⟩
    else pure ⟨previous, false, false⟩

def classifyAttribution (existingWalletSource veryProfitableCohort technical : D) :
    Finset AttributionTag :=
  let existing := Decimal.signum existingWalletSource
  let cohort := Decimal.signum veryProfitableCohort
  let technical := Decimal.signum technical
  (if existing ≠ 0 ∧ cohort = 0 then {.existingWalletSourceOnly}
    else if existing = 0 ∧ cohort ≠ 0 then {.veryProfitableCohortOnly}
    else if existing ≠ 0 ∧ cohort ≠ 0 ∧ existing = cohort then {.bothSourceSetsAgreeing}
    else if existing ≠ 0 ∧ cohort ≠ 0 then {.sourceSetsDisagreeing}
    else ∅)
  ∪ (if existing = 0 ∧ cohort = 0 ∧ technical ≠ 0 then {.technicalOnly} else ∅)
  ∪ (if (existing ≠ 0 ∨ cohort ≠ 0) ∧ technical ≠ 0 then {.sourceTechnicalHybrid} else ∅)

def indicatorRecord (input : CohortSignalInput D) (observation : Observation D)
    (assessment : Assessment D) (settlement : Settlement D) (combinedTarget : D) :
    CohortIndicatorRecord D where
  asset := input.aggregate.asset
  cohortSnapshotTimestampMs := input.membership.snapshotTimestampMs
  membershipSetHash := input.membership.membershipSetHash
  walletCountBeforeFiltering := input.membership.walletCountBeforeFiltering
  walletCountAfterFiltering := input.aggregate.walletCountAfterFiltering
  overlapWithExisting := input.membership.overlapWithExisting
  longNotional := input.aggregate.longNotional
  shortNotional := input.aggregate.shortNotional
  longTraderCount := input.aggregate.longTraderCount
  shortTraderCount := input.aggregate.shortTraderCount
  impulse5m := observation.impulse5m
  impulse15m := observation.impulse15m
  impulse1h := observation.impulse1h
  activeTwapDirection := input.activeTwap.elim 0 ActiveTwapContext.direction
  activeTwapRemainingQuantity := input.activeTwap.elim Decimal.zero
    ActiveTwapContext.remainingQuantity
  weightedWalletQuality := input.aggregate.weightedRealizedQuality
  dominantWalletPercentage := input.aggregate.dominantWalletPercentage
  cohortScore := assessment.cohortScore
  chaseDistanceR := assessment.chaseDistanceR
  costEstimateFraction := input.estimatedRoundTripCostFraction
  existingWalletSourceTarget := settlement.target.existingWalletSourceTarget
  veryProfitableCohortTarget := settlement.target.veryProfitableCohortTarget
  sourceTarget := settlement.target.sourceTarget
  technicalTarget := input.technicalTarget
  combinedTarget
  targetVersion := settlement.target.version
  independentExecutionRoot := settlement.independentExecutionRoot
  reasons := if settlement.stored then assessment.reasons
    else insert .immaterialRefresh assessment.reasons
  attribution := classifyAttribution settlement.target.existingWalletSourceTarget
    settlement.target.veryProfitableCohortTarget input.technicalTarget

namespace VeryProfitableCohortEngine

def frames (engine : VeryProfitableCohortEngine D) (asset : String) : List (AggregateFrame D) :=
  engine.history[asset]?.getD []

/-- `history.entry(asset).or_default()`. -/
def openHistory (asset : String) (engine : VeryProfitableCohortEngine D) :
    VeryProfitableCohortEngine D :=
  { engine with history := engine.history.insert asset (engine.frames asset) }

def putFrame (asset : String) (current : AggregateFrame D)
    (engine : VeryProfitableCohortEngine D) : VeryProfitableCohortEngine D :=
  { engine with history := engine.history.insert asset (recordFrame (engine.frames asset) current) }

def putTarget (asset : String) (settlement : Settlement D)
    (engine : VeryProfitableCohortEngine D) : VeryProfitableCohortEngine D :=
  if settlement.stored then { engine with targets := engine.targets.insert asset settlement.target }
  else engine

/-- What follows the record of the frame. -/
def conclude (input : CohortSignalInput D) (observation : Observation D)
    (previousTarget : Option (MaterialTargetState D)) :
    InPlace CohortError (VeryProfitableCohortEngine D) (CohortIndicatorRecord D) := do
  let assessment ← .check (assess input observation previousTarget)
  let settlement ← .check (settle previousTarget assessment.proposed input.rebalanceTolerance)
  .write (putTarget input.aggregate.asset settlement)
  let combinedTarget ← .check (orArithmetic
    (Decimal.checkedAdd settlement.target.sourceTarget input.technicalTarget))
  pure (indicatorRecord input observation assessment settlement combinedTarget)

def evaluate (input : CohortSignalInput D) :
    InPlace CohortError (VeryProfitableCohortEngine D) (CohortIndicatorRecord D) := do
  let asset := input.aggregate.asset
  let engine ← .read
  let current ← .check (currentFrame input)
  .write (openHistory asset)
  let observation ← .check
    (observe input.maximumPositionChangeAgeMs (engine.frames asset) current)
  .write (putFrame asset current)
  conclude input observation engine.targets[asset]?

end VeryProfitableCohortEngine

end

end CopyTrade.Model.Cohort
