import CopyTrade.Model.Core.LedgerCalls
import CopyTrade.Model.Observer.LiveShadow

/-!
# The split of a fill among the components of an asset

`partition_component_fill` of crates/copytrade-observer/src/live_shadow.rs and what it calls: a
portfolio fill closes and opens positions of the components (sources and technical strategies) whose
targets make up the portfolio target.
-/

namespace CopyTrade.Model

open Foundation
open Std (ExtTreeMap)

variable {D : Type} [Decimal D]

/-- `is_sign_negative()`, for the values the code asks it of. -/
def Decimal.isSignNegative (a : D) : Bool := !Decimal.isSignPositive a

/-- `values().try_fold(ZERO, checked_add).ok_or(Arithmetic)`. -/
def sumValues (quantities : ExtTreeMap String D) : Except LiveShadowError D :=
  orArithmetic ((quantities.toList.map Prod.snd).foldlM Decimal.checkedAdd Decimal.zero)

/-- A map whose values are computed one by one, in the order of the keys. -/
def collectValues {A B : Type} (value : String → A → Except LiveShadowError B)
    (entries : ExtTreeMap String A) : Except LiveShadowError (ExtTreeMap String B) :=
  entries.toList.foldlM (fun output entry => do
    let result ← value entry.1 entry.2
    pure (output.insert entry.1 result)) ∅

/-- The share of a candidate: its proportion of the total and no more than what is left, and all of
what is left for the last one. -/
def candidateShare (total weightSum remaining weight : D) (last : Bool) :
    Except LiveShadowError D :=
  if last then .ok remaining
  else do
    let share ← orArithmetic
      ((Decimal.checkedMul total weight).bind fun value => Decimal.checkedDiv value weightSum)
    pure (Decimal.min share remaining)

/-- The loop of `proportional_allocations`. -/
def allocateShares (total weightSum : D) :
    D → List (String × D) → Except LiveShadowError (List (String × D))
  | _, [] => .ok []
  | remaining, (candidate, weight) :: rest => do
    let allocation ← candidateShare total weightSum remaining weight rest.isEmpty
    let left ← orArithmetic (Decimal.checkedSub remaining allocation)
    let others ← allocateShares total weightSum left rest
    pure ((candidate, allocation) :: others)

def proportionalAllocations (total : D) (weights : ExtTreeMap String D) :
    Except LiveShadowError (ExtTreeMap String D) :=
  if Decimal.isZero total then .ok ∅
  else do
    let weightSum ← sumValues weights
    if Decimal.le weightSum Decimal.zero then .error (.core "invalid attribution weights")
    else do
      let allocations ← allocateShares total weightSum total weights.toList
      pure (ExtTreeMap.ofList allocations compare)

/-- A quantity over what each candidate can take: a quantity that is all of it is not
recomputed. -/
def capacityShares (quantity capacityTotal : D) (capacity : ExtTreeMap String D) :
    Except LiveShadowError (ExtTreeMap String D) :=
  if Decimal.eqv quantity capacityTotal then .ok capacity
  else proportionalAllocations quantity capacity

/-- The last candidate gets what the others leave of the expected total. -/
def canonicalizeAllocationTotal (allocations : ExtTreeMap String D) (expectedTotal : D) :
    Except LiveShadowError (ExtTreeMap String D) :=
  match allocations.keys.getLast? with
  | none => .error (.core "source fill has no allocation anchor")
  | some anchor => do
    let sumOfOthers ← sumValues (allocations.erase anchor)
    let anchorAllocation ← orArithmetic (Decimal.checkedSub expectedTotal sumOfOthers)
    if Decimal.lt anchorAllocation Decimal.zero then
      .error (.core "source allocation residual is negative")
    else pure (allocations.insert anchor anchorAllocation)

def normalizedDirectionalWeights (contributions : Option (ExtTreeMap String D)) (target : D) :
    Except LiveShadowError (ExtTreeMap String D) :=
  if Decimal.isZero target then .ok ∅
  else do
    let selected := (contributions.getD ∅).filterMap fun _ contribution =>
      if !Decimal.isZero contribution
          && Decimal.isSignPositive contribution == Decimal.isSignPositive target then
        some (Decimal.abs contribution)
      else none
    let total ← sumValues selected
    if Decimal.isZero total then .ok ∅
    else collectValues (fun _ value => orArithmetic (Decimal.checkedDiv value total)) selected

def absoluteDirectionalComponentTargets (contributions : Option (ExtTreeMap String D))
    (portfolioTarget : D) : Except LiveShadowError (ExtTreeMap String D) :=
  if Decimal.isZero portfolioTarget then .ok ∅
  else do
    let weights ← normalizedDirectionalWeights contributions portfolioTarget
    if weights.isEmpty then
      .error (.core "nonzero portfolio target has no directional component target")
    else do
      let notionals ← proportionalAllocations (Decimal.abs portfolioTarget) weights
      pure (notionals.map fun _ notional =>
        if Decimal.isSignPositive portfolioTarget then notional else Decimal.neg notional)

/-- The difference of two quantities and what of it is tolerated. -/
def reconciliationDifference (attributed portfolioPosition sizeStep : D) :
    Except LiveShadowError (D × D) :=
  if Decimal.le sizeStep Decimal.zero then
    .error (.core "source reconciliation requires a positive size step")
  else do
    let tolerance ← orArithmetic (Decimal.checkedMul sizeStep (Decimal.new 1 12))
    let difference ← orArithmetic (Decimal.checkedSub attributed portfolioPosition)
    pure (Decimal.abs difference, tolerance)

/-- How an error reports two quantities that do not reconcile. -/
def unreconciledText (attributed expected difference tolerance : D) : String :=
  Decimal.text attributed ++ " != " ++ Decimal.text expected ++ " (difference " ++
    Decimal.text difference ++ ", tolerance " ++ Decimal.text tolerance ++ ")"

/-- Two quantities that differ by more than the tolerance are an error. -/
def requireReconciled (message : String) (attributed expected sizeStep : D) :
    Except LiveShadowError Unit := do
  let (difference, tolerance) ← reconciliationDifference attributed expected sizeStep
  if Decimal.lt tolerance difference then
    .error (.core (message ++ unreconciledText attributed expected difference tolerance))
  else pure ()

structure ComponentFillPartition (D : Type) where
  closeQuantities : ExtTreeMap String D
  openQuantities : ExtTreeMap String D
  totalQuantities : ExtTreeMap String D
deriving DecidableEq

/-- A fill of a side closes a position of the other sign. -/
def closesPosition (side : Side) (position : D) : Bool :=
  match side with
  | .buy => Decimal.isSignNegative position
  | .sell => Decimal.isSignPositive position

def matchesFill (side : Side) (quantity : D) : Bool :=
  match side with
  | .buy => Decimal.isSignPositive quantity
  | .sell => Decimal.isSignNegative quantity

def signedFill (side : Side) (filled : D) : D :=
  match side with
  | .buy => filled
  | .sell => Decimal.neg filled

/-- A fill that flattens the portfolio closes every component by what it holds. -/
def flattenPartition (currentPositions : ExtTreeMap String D) (side : Side)
    (filled sizeStep : D) : Except LiveShadowError (ComponentFillPartition D) := do
  let held := currentPositions.filter fun _ position => !Decimal.isZero position
  if held.isEmpty || held.toList.any (fun entry => !closesPosition side entry.2) then
    .error (.core "portfolio flatten does not exclusively close component positions")
  else do
    let allocations := held.map fun _ position => Decimal.abs position
    let attributed ← sumValues allocations
    requireReconciled "portfolio flatten component quantities do not reconcile: " attributed
      filled sizeStep
    pure ⟨allocations, ∅, allocations⟩

/-- What each component may open in the direction of a fill that crosses zero. -/
def openingCapacity (side : Side) (absoluteTargets : ExtTreeMap String D) (referencePrice : D) :
    ExtTreeMap String D :=
  absoluteTargets.filterMap fun _ targetNotional =>
    (Decimal.checkedDiv targetNotional referencePrice).bind fun desired =>
      if matchesFill side desired && !Decimal.isZero desired then some (Decimal.abs desired)
      else none

/-- The closed and the opened quantities of each component, added up. -/
def addQuantities (closes opens : ExtTreeMap String D) :
    Except LiveShadowError (ExtTreeMap String D) :=
  opens.toList.foldlM (fun totals entry => do
    let combined ← orArithmetic
      (Decimal.checkedAdd (totals[entry.1]?.getD Decimal.zero) entry.2)
    pure (totals.insert entry.1 combined)) closes

/-- A fill that takes the portfolio across zero closes the old side and opens the new one. -/
def crossingPartition (currentPositions : ExtTreeMap String D) (side : Side) (filled : D)
    (absoluteTargets : ExtTreeMap String D) (referencePrice portfolioPositionBefore sizeStep : D) :
    Except LiveShadowError (ComponentFillPartition D) := do
  let closes := currentPositions.filterMap fun _ position =>
    if closesPosition side position && !Decimal.isZero position then some (Decimal.abs position)
    else none
  let closeTotal ← sumValues closes
  let (closeDifference, closeTolerance) ←
    reconciliationDifference closeTotal (Decimal.abs portfolioPositionBefore) sizeStep
  if closes.isEmpty || Decimal.lt closeTolerance closeDifference then
    .error (.core ("crossing fill old-side component close quantity does not reconcile: " ++
      unreconciledText closeTotal (Decimal.abs portfolioPositionBefore) closeDifference
        closeTolerance))
  else do
    let openingQuantity ← orArithmetic (Decimal.checkedSub filled closeTotal)
    if Decimal.le openingQuantity Decimal.zero then
      .error (.core "crossing fill has no quantity remaining for the new side")
    else do
      let capacity := openingCapacity side absoluteTargets referencePrice
      if capacity.isEmpty then
        .error (.core "crossing fill has no matching new-side component target")
      else do
        let capacityTotal ← sumValues capacity
        let shares ← capacityShares openingQuantity capacityTotal capacity
        let opens ← canonicalizeAllocationTotal shares openingQuantity
        let totals ← addQuantities closes opens
        let attributed ← sumValues totals
        requireReconciled "crossing fill component partition does not reconcile: " attributed
          filled sizeStep
        pure ⟨closes, opens, totals⟩

/-- What a component lacks in the direction of a fill. -/
def directionalDelta (currentPositions : ExtTreeMap String D) (side : Side)
    (absoluteTargets : ExtTreeMap String D) (referencePrice : D) (component : String) : Option D :=
  (Decimal.checkedDiv (absoluteTargets[component]?.getD Decimal.zero) referencePrice).bind
    fun desired =>
      (Decimal.checkedSub desired (currentPositions[component]?.getD Decimal.zero)).bind
        fun delta =>
          if matchesFill side delta && !Decimal.isZero delta then some (Decimal.abs delta)
          else none

/-- A quantity collected under its component, when there is one. -/
def collectQuantity (quantities : ExtTreeMap String D) (component : String) :
    Option D → ExtTreeMap String D
  | none => quantities
  | some quantity => quantities.insert component quantity

/-- What every component lacks in the direction of a fill. -/
def directionalDeltas (currentPositions : ExtTreeMap String D) (side : Side)
    (absoluteTargets : ExtTreeMap String D) (referencePrice : D) : ExtTreeMap String D :=
  (currentPositions.keys ++ absoluteTargets.keys).foldl (fun deltas component =>
    collectQuantity deltas component
      (directionalDelta currentPositions side absoluteTargets referencePrice component)) ∅

/-- The part of an allocation that closes what the component holds. -/
def closePart (side : Side) (current quantity : D) : D :=
  if closesPosition side current then Decimal.min quantity (Decimal.abs current)
  else Decimal.zero

/-- A part of an allocation; a part of zero is not kept. -/
def keepPart (quantity : D) : Option D := if Decimal.isZero quantity then none else some quantity

/-- The closing and the opening part of one allocation, added to the others. -/
def splitAllocation (currentPositions : ExtTreeMap String D) (side : Side)
    (parts : ExtTreeMap String D × ExtTreeMap String D) (entry : String × D) :
    Except LiveShadowError (ExtTreeMap String D × ExtTreeMap String D) := do
  let close := closePart side (currentPositions[entry.1]?.getD Decimal.zero) entry.2
  let opened ← orArithmetic (Decimal.checkedSub entry.2 close)
  pure (collectQuantity parts.1 entry.1 (keepPart close),
    collectQuantity parts.2 entry.1 (keepPart opened))

/-- The closing and the opening parts of the allocations. -/
def closeAndOpen (currentPositions : ExtTreeMap String D) (side : Side)
    (allocations : ExtTreeMap String D) :
    Except LiveShadowError (ExtTreeMap String D × ExtTreeMap String D) :=
  allocations.toList.foldlM (splitAllocation currentPositions side) (∅, ∅)

/-- Any other fill is spread in proportion to what each component lacks. -/
def proportionalPartition (currentPositions : ExtTreeMap String D) (side : Side) (filled : D)
    (absoluteTargets : ExtTreeMap String D) (referencePrice : D) :
    Except LiveShadowError (ComponentFillPartition D) := do
  let deltas := directionalDeltas currentPositions side absoluteTargets referencePrice
  if deltas.isEmpty then
    .error (.core "filled portfolio delta has no matching component target delta")
  else do
    let capacity ← sumValues deltas
    let shares ← capacityShares filled capacity deltas
    let allocations ← canonicalizeAllocationTotal shares filled
    let total ← sumValues allocations
    if !Decimal.eqv total filled then
      .error (.core "source fill quantities do not reconcile")
    else do
      let (closes, opens) ← closeAndOpen currentPositions side allocations
      pure ⟨closes, opens, allocations⟩

def crossesZero (positionBefore positionAfter : D) : Bool :=
  !Decimal.isZero positionBefore && !Decimal.isZero positionAfter &&
    Decimal.isSignPositive positionBefore != Decimal.isSignPositive positionAfter

def partitionComponentFill (currentPositions : ExtTreeMap String D) (side : Side) (filled : D)
    (absoluteTargets : ExtTreeMap String D)
    (referencePrice portfolioPositionAfter sizeStep : D) :
    Except LiveShadowError (ComponentFillPartition D) :=
  if Decimal.isZero filled then .ok ⟨∅, ∅, ∅⟩
  else if Decimal.le referencePrice Decimal.zero then
    .error (.invalidMarket "component target reference price must be positive")
  else if Decimal.isZero portfolioPositionAfter then
    flattenPartition currentPositions side filled sizeStep
  else do
    let portfolioPositionBefore ← orArithmetic
      (Decimal.checkedSub portfolioPositionAfter (signedFill side filled))
    if crossesZero portfolioPositionBefore portfolioPositionAfter then
      crossingPartition currentPositions side filled absoluteTargets referencePrice
        portfolioPositionBefore sizeStep
    else proportionalPartition currentPositions side filled absoluteTargets referencePrice

end CopyTrade.Model
