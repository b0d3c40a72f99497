import CopyTrade.Model.Core.IdentityHash

/-!
# The ledger of virtual targets

`VirtualTargetLedger` of crates/copytrade-core/src/target_state.rs: per asset the target a decision
wants and the one it admits, what of it is filled, open or unknown, and the residual.  Every
decision replaces the targets of all assets, also of those it does not name any more.
-/

namespace CopyTrade.Model

open Foundation
open Std (ExtTreeMap)

structure VirtualTargetState (D : Type) where
  rawDesiredNotional : D
  admittedTargetNotional : D
  filledNotional : D
  acknowledgedOpenNotional : D
  unknownResultNotional : D
  executableResidual : D
  targetVersion : ℕ
  latestSourceSetId : Hash
deriving DecidableEq

structure VirtualTargetLedger (D : Type) where
  schemaVersion : ℕ
  assets : ExtTreeMap String (VirtualTargetState D)
deriving DecidableEq

inductive TargetStateError
  | arithmeticOverflow (operation : String)
  | persistence (message : String)
  | schemaMismatch
deriving DecidableEq

/-- `to_string()`, the derived `Debug`. -/
def TargetStateError.text : TargetStateError → String
  | arithmeticOverflow operation => debugVariant "ArithmeticOverflow" (quoted operation)
  | persistence message => debugVariant "Persistence" (quoted message)
  | schemaMismatch => "SchemaMismatch"

/-- What a decision and the pending actions replace the targets by. -/
structure AbsoluteTargets (D : Type) where
  rawDesired : ExtTreeMap String D
  admittedTargets : ExtTreeMap String D
  filled : ExtTreeMap String D
  acknowledgedOpen : ExtTreeMap String D
  unknownResult : ExtTreeMap String D
  targetVersion : ℕ
  sourceSetId : Hash

variable {D : Type} [Decimal D]

/-- `ok_or(TargetStateError::ArithmeticOverflow(operation))`. -/
def orTargetOverflow (operation : String) : Option D → Except TargetStateError D
  | none => .error (.arithmeticOverflow operation)
  | some value => .ok value

/-- `filled.checked_add(open).and_then(|value| value.checked_add(unknown))`. -/
def committedExposure (filled acknowledgedOpen unknownResult : D) : Except TargetStateError D :=
  orTargetOverflow "committed exposure"
    ((Decimal.checkedAdd filled acknowledgedOpen).bind fun value =>
      Decimal.checkedAdd value unknownResult)

def AbsoluteTargets.stateOf (targets : AbsoluteTargets D) (asset : String) :
    Except TargetStateError (VirtualTargetState D) := do
  let valueIn := fun (quantities : ExtTreeMap String D) => quantities[asset]?.getD Decimal.zero
  let committed ← committedExposure (valueIn targets.filled) (valueIn targets.acknowledgedOpen)
    (valueIn targets.unknownResult)
  let residual ← orTargetOverflow "target residual"
    (Decimal.checkedSub (valueIn targets.admittedTargets) committed)
  pure {
    rawDesiredNotional := valueIn targets.rawDesired
    admittedTargetNotional := valueIn targets.admittedTargets
    filledNotional := valueIn targets.filled
    acknowledgedOpenNotional := valueIn targets.acknowledgedOpen
    unknownResultNotional := valueIn targets.unknownResult
    executableResidual := residual
    targetVersion := targets.targetVersion
    latestSourceSetId := targets.sourceSetId }

def AbsoluteTargets.keys (targets : AbsoluteTargets D) : List String :=
  targets.rawDesired.keys ++ targets.admittedTargets.keys ++ targets.filled.keys ++
    targets.acknowledgedOpen.keys ++ targets.unknownResult.keys

namespace VirtualTargetLedger

def empty : VirtualTargetLedger D := ⟨1, ∅⟩

def replaceAbsoluteTargets (ledger : VirtualTargetLedger D) (targets : AbsoluteTargets D) :
    Except TargetStateError (VirtualTargetLedger D) := do
  let replacement ← (ledger.assets.keys ++ targets.keys).foldlM (fun replacement asset => do
    let state ← targets.stateOf asset
    pure (replacement.insert asset state)) ∅
  pure { ledger with assets := replacement }

def admittedTargets (ledger : VirtualTargetLedger D) : ExtTreeMap String D :=
  ledger.assets.map fun _ state => state.admittedTargetNotional

/-- The target admitted for an asset, zero when there is none. -/
def admittedTarget (ledger : VirtualTargetLedger D) (asset : String) : D :=
  (ledger.assets[asset]?.map VirtualTargetState.admittedTargetNotional).getD Decimal.zero

def latestTargetVersion (ledger : VirtualTargetLedger D) : Option ℕ :=
  match ledger.assets.toList.map fun entry => entry.2.targetVersion with
  | [] => none
  | first :: rest => if rest.all (· == first) then some first else none

def validateState (state : VirtualTargetState D) : Except TargetStateError Unit := do
  let committed ← committedExposure state.filledNotional state.acknowledgedOpenNotional
    state.unknownResultNotional
  let expected ← orTargetOverflow "target residual"
    (Decimal.checkedSub state.admittedTargetNotional committed)
  if Decimal.eqv expected state.executableResidual then pure ()
  else .error (.persistence "target residual invariant mismatch")

def validateIntegrity (ledger : VirtualTargetLedger D) : Except TargetStateError Unit :=
  if ledger.schemaVersion != 1 then .error .schemaMismatch
  else do
    checkAll validateState (ledger.assets.toList.map Prod.snd)
    if !ledger.assets.isEmpty && ledger.latestTargetVersion.isNone then
      .error (.persistence "target versions are inconsistent")
    else pure ()

end VirtualTargetLedger

structure PreviousTargetState where
  version : ℕ
  targetHash : Hash
deriving DecidableEq

def resolveTargetVersion [Sha256] [DecimalNormalize D] (previous : Option PreviousTargetState)
    (targets : ExtTreeMap String D) : Except IdentityError (ℕ × Hash) := do
  let currentHash ← canonicalTargetHash targets
  match previous with
  | none => pure (0, currentHash)
  | some previous =>
    if previous.targetHash = currentHash then pure (previous.version, currentHash)
    else if previous.version < maxU64 then pure (previous.version + 1, currentHash)
    else .error (.arithmeticOverflow "target version")

end CopyTrade.Model
