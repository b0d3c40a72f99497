import CopyTrade.Foundation.Pruning
import CopyTrade.Model.Core.ShadowIoc
import Mathlib.Data.List.Sort

/-!
# Sparse target admission

`allocate_sparse_portfolio` of crates/copytrade-core/src/allocation.rs.  Every asset whose target
differs from its position becomes a candidate of one of four classes, admitted in rank order as long
as the caps hold; exits and reductions are admitted anyway, and a new position that finds no room
closes the weakest slot.
-/

namespace CopyTrade.Model

open Foundation
open PortfolioRisk (Caps valueAt)
open Std (ExtTreeMap ExtTreeSet)

structure SparseAllocationInput (D : Type) where
  rawTargets : ExtTreeMap String D
  convictions : ExtTreeMap String D
  agreementWeights : ExtTreeMap String D
  executionFloors : ExtTreeMap String (AssetExecutionFloor D)
  filledPositions : ExtTreeMap String D
  currentEquity : D
  curveLeverage : D
  globalRiskScale : D
  maxSingleAssetEquityPct : D
  maxNetEquityPct : D
  rankHysteresis : D

structure SparseAllocation (D : Type) where
  admittedTargets : ExtTreeMap String D
  retainedBelowMinimum : ExtTreeMap String D

inductive AllocationError
  | invalidInput (message : String)
  | missingExecutionFloor
  | arithmeticOverflow (operation : String)
deriving DecidableEq

/-- `to_string()`, the derived `Debug`. -/
def AllocationError.text : AllocationError → String
  | invalidInput message => debugVariant "InvalidInput" (quoted message)
  | missingExecutionFloor => "MissingExecutionFloor"
  | arithmeticOverflow operation => debugVariant "ArithmeticOverflow" (quoted operation)

namespace Allocation

structure Candidate (D : Type) where
  asset : String
  desired : D
  current : D
  conviction : D
  agreementWeight : D
  transition : ℕ
deriving DecidableEq

variable {D : Type} [Decimal D]

/-- `ok_or(AllocationError::ArithmeticOverflow(operation))`. -/
def orAllocationOverflow (operation : String) : Option D → Except AllocationError D
  | none => .error (.arithmeticOverflow operation)
  | some value => .ok value

def checkedMul (left right : D) (operation : String) : Except AllocationError D :=
  orAllocationOverflow operation (Decimal.checkedMul left right)

def checkedSub (left right : D) (operation : String) : Except AllocationError D :=
  orAllocationOverflow operation (Decimal.checkedSub left right)

/-- `cmp`, the order of the values. -/
def compareDecimal (left right : D) : Ordering := compare (Decimal.toRat left) (Decimal.toRat right)

/-- The assets of the targets and of the positions, in key order. -/
def allocationAssets (input : SparseAllocationInput D) : ExtTreeSet String :=
  ExtTreeSet.ofList (input.rawTargets.keys ++ input.filledPositions.keys) compare

def validate (input : SparseAllocationInput D) : Except AllocationError Unit :=
  if Decimal.le input.currentEquity Decimal.zero || Decimal.le input.curveLeverage Decimal.zero
      || Decimal.le input.globalRiskScale Decimal.zero
      || Decimal.lt input.rankHysteresis Decimal.zero then
    .error (.invalidInput "non-positive allocation input")
  else if (input.rawTargets.keys ++ input.filledPositions.keys).any fun asset =>
      !input.executionFloors.contains asset then
    .error .missingExecutionFloor
  else if !(Decimal.le Decimal.zero input.maxSingleAssetEquityPct
        && Decimal.le input.maxSingleAssetEquityPct Decimal.one)
      || !(Decimal.le Decimal.zero input.maxNetEquityPct
        && Decimal.le input.maxNetEquityPct Decimal.one) then
    .error (.invalidInput "invalid risk percentage")
  else .ok ()

def allocationCaps (input : SparseAllocationInput D) :
    Except AllocationError (Caps D) := do
  let asset ← checkedMul input.currentEquity input.maxSingleAssetEquityPct "asset cap"
  let leveraged ← checkedMul input.currentEquity input.curveLeverage "leveraged equity"
  let gross ← checkedMul leveraged input.globalRiskScale "gross cap"
  let net ← checkedMul input.currentEquity input.maxNetEquityPct "net cap"
  pure ⟨asset, gross, net⟩

/-- 0 a required exit, 1 a reduction or close-first flip, 2 an increase of a position, 3 a new one.
-/
def transitionClass (current desired : D) : ℕ :=
  if !Decimal.isZero current && Decimal.isZero desired then 0
  else if !Decimal.isZero current
      && (Decimal.isSignPositive current != Decimal.isSignPositive desired
        || Decimal.lt (Decimal.abs desired) (Decimal.abs current)) then 1
  else if !Decimal.isZero current then 2
  else 3

/-- The target of a candidate: a flip whose new side can be opened on its own is closed first, a
narrower one crosses over in one order. -/
def stagedDesired (current desired minimumOpeningNotional : D) : D :=
  if transitionClass current desired == 1 && !Decimal.isZero current && !Decimal.isZero desired
      && Decimal.isSignPositive current != Decimal.isSignPositive desired
      && Decimal.le minimumOpeningNotional (Decimal.abs desired) then Decimal.zero
  else desired

/-- One round of the loop over the assets: a candidate, a residual below the minimum, or nothing. -/
def collectCandidate (input : SparseAllocationInput D) (assetCap : D)
    (acc : List (Candidate D) × ExtTreeMap String D) (asset : String) :
    Except AllocationError (List (Candidate D) × ExtTreeMap String D) := do
  let current := valueAt input.filledPositions asset
  let desired := Decimal.clamp (valueAt input.rawTargets asset) (Decimal.neg assetCap) assetCap
  let residual ← checkedSub desired current "allocation residual"
  if Decimal.isZero residual then pure acc
  else
    match input.executionFloors[asset]? with
    | none => .error .missingExecutionFloor
    | some floor =>
      let required := if Decimal.isZero current then floor.minimumOpeningNotional
        else floor.minimumOrderNotional
      if 2 ≤ transitionClass current desired && Decimal.lt (Decimal.abs residual) required then
        pure (acc.1, acc.2.insert asset residual)
      else
        pure (acc.1 ++ [{
          asset
          desired := stagedDesired current desired floor.minimumOpeningNotional
          current
          conviction := valueAt input.convictions asset
          agreementWeight := valueAt input.agreementWeights asset
          transition := transitionClass current desired }], acc.2)

/-- The size of the change a candidate asks for, zero where it cannot be computed. -/
def Candidate.change (candidate : Candidate D) : D :=
  Decimal.abs ((Decimal.checkedSub candidate.desired candidate.current).getD Decimal.zero)

def compareCandidates (left right : Candidate D) : Ordering :=
  (compare left.transition right.transition).then <|
    (compareDecimal (Decimal.abs right.conviction) (Decimal.abs left.conviction)).then <|
      (compareDecimal right.agreementWeight left.agreementWeight).then <|
        (compareDecimal right.change left.change).then <|
          compare left.asset right.asset

/-- The sums of the values, or nothing where one of them exceeds the cap on one asset. -/
def sumsWithin (assetCap : D) : List D → D → D → Except AllocationError (Option (D × D))
  | [], gross, net => .ok (some (gross, net))
  | value :: values, gross, net =>
    if Decimal.lt assetCap (Decimal.abs value) then .ok none
    else do
      let gross ← orAllocationOverflow "gross" (Decimal.checkedAdd gross (Decimal.abs value))
      let net ← orAllocationOverflow "net" (Decimal.checkedAdd net value)
      sumsWithin assetCap values gross net

def withinCaps (targets : ExtTreeMap String D) (caps : Caps D) :
    Except AllocationError Bool := do
  match ← sumsWithin caps.asset targets.values Decimal.zero Decimal.zero with
  | none => pure false
  | some (gross, net) =>
    pure (Decimal.le gross caps.gross && Decimal.le (Decimal.abs net) caps.net)

/-- What an incoming candidate's conviction leaves above the hysteresis. -/
def displacementThreshold (input : SparseAllocationInput D) (incoming : Candidate D) : D :=
  (Decimal.checkedSub (Decimal.abs incoming.conviction) input.rankHysteresis).getD Decimal.zero

/-- A slot that a threshold displaces: its target and its position are not zero, and its conviction
is below the threshold. -/
def isDisplaceable (input : SparseAllocationInput D) (threshold : D) (slot : String × D) : Bool :=
  !Decimal.isZero slot.2
    && input.filledPositions[slot.1]?.any (fun filled => !Decimal.isZero filled)
    && input.convictions[slot.1]?.any fun conviction =>
      Decimal.lt (Decimal.abs conviction) threshold

def compareSlots (input : SparseAllocationInput D) (left right : String) : Ordering :=
  (compareDecimal (Decimal.abs (valueAt input.convictions left))
      (Decimal.abs (valueAt input.convictions right))).then <|
    (compareDecimal (valueAt input.agreementWeights left) (valueAt input.agreementWeights right)).then <|
      compare left right

def weakestDisplaceableSlot (input : SparseAllocationInput D) (admitted : ExtTreeMap String D)
    (incoming : Candidate D) : Option String :=
  leastOf (fun left right => compareSlots input left right == .lt)
    ((admitted.toList.filter (isDisplaceable input (displacementThreshold input incoming))).map
      Prod.fst)

/-- One round of the loop over the candidates. -/
def admitCandidate (input : SparseAllocationInput D) (caps : Caps D)
    (admitted : ExtTreeMap String D) (candidate : Candidate D) :
    Except AllocationError (ExtTreeMap String D) := do
  let proposed := admitted.insert candidate.asset candidate.desired
  if ← withinCaps proposed caps then pure proposed
  else if candidate.transition ≤ 1 then pure proposed
  else if candidate.transition == 3 then
    match weakestDisplaceableSlot input admitted candidate with
    | some victim => pure (admitted.insert victim Decimal.zero)
    | none => pure admitted
  else pure admitted

/-- The candidates in rank order and the residuals below the minimum. -/
def rankedCandidates (input : SparseAllocationInput D) (assetCap : D) :
    Except AllocationError (List (Candidate D) × ExtTreeMap String D) := do
  let (candidates, retained) ←
    (allocationAssets input).toList.foldlM (collectCandidate input assetCap) ([], ∅)
  pure (candidates.insertionSort fun left right => (compareCandidates left right).isLE, retained)

/-- The positions, with a zero for every asset that has only a target. -/
def initialTargets (input : SparseAllocationInput D) : ExtTreeMap String D :=
  (allocationAssets input).toList.foldl
    (fun admitted asset => admitted.insert asset (valueAt input.filledPositions asset)) ∅

def allocateSparsePortfolio (input : SparseAllocationInput D) :
    Except AllocationError (SparseAllocation D) := do
  validate input
  let caps ← allocationCaps input
  let (candidates, retained) ← rankedCandidates input caps.asset
  let admitted ← candidates.foldlM (admitCandidate input caps) (initialTargets input)
  pure ⟨admitted, retained⟩

end Allocation

end CopyTrade.Model
