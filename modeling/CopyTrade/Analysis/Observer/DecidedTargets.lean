import CopyTrade.Analysis.Observer.EngineSteps
import CopyTrade.Foundation.MapLoops
import CopyTrade.Model.Observer.UnsignedState

/-!
# The targets of the last decision

A decision replaces the targets of every asset the target ledger knows, with one version, and hashes
the targets it names itself.  The previous target can be rebuilt from the ledger where the decision
names every asset of it.
-/

namespace CopyTrade.Analysis

open Foundation Model
open Std (ExtTreeMap)

variable {D : Type} [Decimal D]

/-- The targets of all assets of a ledger are those of one decision, which names no other asset. -/
structure TargetsOf (ledger : VirtualTargetLedger D) (version : ℕ)
    (targets : ExtTreeMap String D) : Prop where
  schema : ledger.schemaVersion = 1
  valid : ∀ (asset : String) (state : VirtualTargetState D), ledger.assets[asset]? = some state →
    VirtualTargetLedger.validateState state = .ok ()
  decided : ∀ (asset : String) (state : VirtualTargetState D), ledger.assets[asset]? = some state →
    state.targetVersion = version ∧
      state.admittedTargetNotional = targets[asset]?.getD Decimal.zero
  named : ∀ asset : String, asset ∈ targets → asset ∈ ledger.assets

variable {targets : AbsoluteTargets D}

theorem stateOf_spec {asset : String} {state : VirtualTargetState D}
    (h : targets.stateOf asset = .ok state) :
    VirtualTargetLedger.validateState state = .ok () ∧
      state.targetVersion = targets.targetVersion ∧
      state.admittedTargetNotional = targets.admittedTargets[asset]?.getD Decimal.zero := by
  unfold AbsoluteTargets.stateOf at h
  obtain ⟨committed, hcommitted, h⟩ := of_bind h
  obtain ⟨residual, hresidual, h⟩ := of_bind h
  rw [pure_eq_ok_iff] at h
  subst h
  refine ⟨?_, rfl, rfl⟩
  unfold VirtualTargetLedger.validateState
  rw [hcommitted, ok_bind, hresidual, ok_bind, if_pos (Decimal.eqv_refl residual)]
  rfl

theorem targetsOf_replace {ledger next : VirtualTargetLedger D} (hschema : ledger.schemaVersion = 1)
    (h : ledger.replaceAbsoluteTargets targets = .ok next) :
    TargetsOf next targets.targetVersion targets.admittedTargets := by
  unfold VirtualTargetLedger.replaceAbsoluteTargets at h
  obtain ⟨replacement, hreplacement, h⟩ := of_bind h
  rw [pure_eq_ok_iff] at h
  subst h
  have hstate (asset : String) (state : VirtualTargetState D)
      (hget : replacement[asset]? = some state) : targets.stateOf asset = .ok state := by
    obtain ⟨hvisited, hleft⟩ := getElem?_foldlM_insert hreplacement asset
    by_cases hmem : asset ∈ ledger.assets.keys ++ targets.keys
    · obtain ⟨value, hvalue, hfilled⟩ := hvisited hmem
      rw [hget] at hfilled
      cases hfilled
      exact hvalue
    · rw [hleft hmem, ExtTreeMap.getElem?_empty] at hget
      cases hget
  refine ⟨hschema, ?_, ?_, ?_⟩
  · intro asset state hget
    exact (stateOf_spec (hstate asset state hget)).1
  · intro asset state hget
    exact (stateOf_spec (hstate asset state hget)).2
  · intro asset hasset
    have hmem : asset ∈ ledger.assets.keys ++ targets.keys := by
      unfold AbsoluteTargets.keys
      simp only [List.mem_append, ExtTreeMap.mem_keys]
      exact .inr (.inl (.inl (.inl (.inr hasset))))
    obtain ⟨value, -, hfilled⟩ := (getElem?_foldlM_insert hreplacement asset).1 hmem
    exact (mem_iff_exists _ _).mpr ⟨value, hfilled⟩

theorem targetHash_of_resolved [Sha256] [DecimalNormalize D] {previous : Option PreviousTargetState}
    {targets : ExtTreeMap String D} {version : ℕ} {targetHash : Hash}
    (h : resolveTargetVersion previous targets = .ok (version, targetHash)) :
    canonicalTargetHash targets = .ok targetHash := by
  unfold resolveTargetVersion at h
  obtain ⟨currentHash, hhash, h⟩ := of_bind h
  rw [hhash]
  cases previous with
  | none =>
    cases h
    rfl
  | some previous =>
    dsimp only at h
    split at h
    · cases h
      rfl
    · split at h
      · cases h
        rfl
      · cases h

section

variable {ledger : VirtualTargetLedger D} {version : ℕ} {targets : ExtTreeMap String D}

theorem latestTargetVersion_eq (h : TargetsOf ledger version targets) :
    ledger.latestTargetVersion = if ledger.assets.isEmpty then none else some version := by
  have hversions : ∀ stored ∈ ledger.assets.toList.map fun entry => entry.2.targetVersion,
      stored = version := by
    intro stored hstored
    obtain ⟨⟨asset, state⟩, hentry, rfl⟩ := List.mem_map.mp hstored
    exact (h.decided asset state (ExtTreeMap.mem_toList_iff_getElem?_eq_some.mp hentry)).1
  have hempty : ledger.assets.isEmpty = ledger.assets.toList.isEmpty :=
    ExtTreeMap.isEmpty_toList.symm
  unfold VirtualTargetLedger.latestTargetVersion
  rw [hempty]
  cases hentries : ledger.assets.toList with
  | nil => rfl
  | cons entry entries =>
    rw [hentries, List.map_cons, List.forall_mem_cons] at hversions
    rw [List.map_cons]
    dsimp only
    rw [if_pos, hversions.1]
    · rfl
    · rw [List.all_eq_true]
      intro stored hstored
      rw [hversions.1, hversions.2 stored hstored]
      exact beq_self_eq_true version

theorem validateIntegrity_of_targetsOf (h : TargetsOf ledger version targets) :
    ledger.validateIntegrity = .ok () := by
  unfold VirtualTargetLedger.validateIntegrity
  rw [if_neg (by simp [h.schema])]
  refine bind_eq_ok_iff.mpr ⟨(), ?_, if_neg ?_⟩
  · rw [checkAll_eq_ok_iff]
    intro state hstate
    obtain ⟨⟨asset, _⟩, hentry, rfl⟩ := List.mem_map.mp hstate
    exact h.valid asset _ (ExtTreeMap.mem_toList_iff_getElem?_eq_some.mp hentry)
  · rw [latestTargetVersion_eq h]
    cases ledger.assets.isEmpty <;> simp

theorem admittedTargets_eq (h : TargetsOf ledger version targets)
    (hnamed : ∀ asset : String, asset ∈ ledger.assets → asset ∈ targets) :
    ledger.admittedTargets = targets := by
  refine ExtTreeMap.ext_getElem? fun asset => ?_
  unfold VirtualTargetLedger.admittedTargets
  rw [ExtTreeMap.getElem?_map]
  cases hstate : ledger.assets[asset]? with
  | some state =>
    obtain ⟨target, htarget⟩ := (mem_iff_exists _ _).mp
      (hnamed asset ((mem_iff_exists _ _).mpr ⟨state, hstate⟩))
    rw [Option.map_some, (h.decided asset state hstate).2, htarget, Option.getD_some]
  | none =>
    cases htarget : targets[asset]? with
    | none => rfl
    | some target =>
      obtain ⟨state, hsome⟩ := (mem_iff_exists _ _).mp
        (h.named asset ((mem_iff_exists _ _).mpr ⟨target, htarget⟩))
      rw [hstate] at hsome
      cases hsome

end

/-- The previous target of an engine is that of the last decision, whose targets are given, and
there is none before the first decision. -/
def TargetsDecided [Sha256] [DecimalNormalize D] (engine : DecisionEngine D) :
    Option (ExtTreeMap String D) → Prop
  | none => engine.previousTarget = none ∧ engine.targetLedger = VirtualTargetLedger.empty
  | some targets => ∃ previous, engine.previousTarget = some previous ∧
    canonicalTargetHash targets = .ok previous.targetHash ∧
    TargetsOf engine.targetLedger previous.version targets

variable [Sha256] [DecimalNormalize D] {settings : EngineSettings D}
  {engine engine' : DecisionEngine D} {targets : Option (ExtTreeMap String D)}

theorem schema_of_targetsDecided (h : TargetsDecided engine targets) :
    engine.targetLedger.schemaVersion = 1 := by
  cases targets with
  | none =>
    rw [h.2]
    rfl
  | some targets =>
    obtain ⟨previous, -, -, htargets⟩ := h
    exact htargets.schema

theorem targetsOf_of_decided (h : TargetsDecided engine targets) :
    ∃ version decided, TargetsOf engine.targetLedger version decided := by
  cases targets with
  | none =>
    refine ⟨0, ∅, ?_⟩
    rw [h.2]
    have hempty (asset : String) :
        (VirtualTargetLedger.empty : VirtualTargetLedger D).assets[asset]? = none :=
      ExtTreeMap.getElem?_empty
    refine ⟨rfl, ?_, ?_, ?_⟩
    · intro asset state hget
      rw [hempty] at hget
      cases hget
    · intro asset state hget
      rw [hempty] at hget
      cases hget
    · intro asset hasset
      exact absurd hasset ExtTreeMap.not_mem_empty
  | some targets =>
    obtain ⟨previous, -, -, htargets⟩ := h
    exact ⟨previous.version, targets, htargets⟩

/-- The previous target is the one that can be rebuilt, where the last decision names an asset, and
every asset of the ledger. -/
theorem rebuiltPreviousTarget_eq (h : TargetsDecided engine targets)
    (hnamed : ∀ decided, targets = some decided → decided.isEmpty = false ∧
      ∀ asset : String, asset ∈ engine.targetLedger.assets → asset ∈ decided) :
    UnsignedObserver.rebuiltPreviousTarget engine.targetLedger = .ok engine.previousTarget := by
  unfold UnsignedObserver.rebuiltPreviousTarget
  cases targets with
  | none =>
    rw [h.1, h.2]
    rfl
  | some decided =>
    obtain ⟨hnonempty, hall⟩ := hnamed decided rfl
    obtain ⟨previous, hprevious, hhash, htargets⟩ := h
    have hassets : engine.targetLedger.assets.isEmpty = false := by
      obtain ⟨asset, target, hget⟩ := (isEmpty_eq_false_iff_exists decided).mp hnonempty
      obtain ⟨state, hstate⟩ := (mem_iff_exists _ _).mp
        (htargets.named asset ((mem_iff_exists _ _).mpr ⟨target, hget⟩))
      exact (isEmpty_eq_false_iff_exists _).mpr ⟨asset, state, hstate⟩
    rw [latestTargetVersion_eq htargets, hassets, if_neg Bool.false_ne_true]
    rw [admittedTargets_eq htargets hall, hhash, hprevious]
    rfl

theorem targetsDecided_rebuilt {previousTarget : Option PreviousTargetState}
    (h : ∃ version decided, TargetsOf engine.targetLedger version decided)
    (hrebuilt : UnsignedObserver.rebuiltPreviousTarget engine.targetLedger = .ok previousTarget)
    (hprevious : engine.previousTarget = previousTarget) :
    TargetsDecided engine (previousTarget.map fun _ => engine.targetLedger.admittedTargets) := by
  obtain ⟨version, decided, htargets⟩ := h
  unfold UnsignedObserver.rebuiltPreviousTarget at hrebuilt
  rw [latestTargetVersion_eq htargets] at hrebuilt
  cases hempty : engine.targetLedger.assets.isEmpty with
  | true =>
    rw [hempty, if_pos rfl] at hrebuilt
    cases hrebuilt
    refine ⟨hprevious, ?_⟩
    have hassets : engine.targetLedger.assets = ∅ := ExtTreeMap.isEmpty_iff.mp hempty
    have hschema := htargets.schema
    cases hledger : engine.targetLedger with
    | mk schemaVersion assets =>
      rw [hledger] at hassets hschema
      dsimp only at hassets hschema
      rw [hassets, hschema]
      rfl
  | false =>
    rw [hempty, if_neg Bool.false_ne_true] at hrebuilt
    obtain ⟨targetHash, hhash, hrebuilt⟩ := of_bind hrebuilt
    cases hrebuilt
    refine ⟨⟨version, targetHash⟩, hprevious, mapError_eq_ok_iff.mp hhash, htargets.schema,
      htargets.valid, ?_, ?_⟩
    · intro asset state hget
      refine ⟨(htargets.decided asset state hget).1, ?_⟩
      unfold VirtualTargetLedger.admittedTargets
      rw [ExtTreeMap.getElem?_map, hget]
      rfl
    · intro asset hasset
      unfold VirtualTargetLedger.admittedTargets at hasset
      exact ExtTreeMap.mem_map.mp hasset

variable {allocated : AllocatedTargets D} {now : ℕ} {planned : PlannedDecision D}

omit [DecimalNormalize D] [Sha256] in
theorem commitDecision_targets (hschema : engine.targetLedger.schemaVersion = 1)
    (h : engine.commitDecision now allocated planned = .ok engine') :
    engine'.previousTarget = engine.previousTarget ∧
      TargetsOf engine'.targetLedger planned.decision.targetVersion
        planned.decision.projection.constrainedTargets := by
  unfold DecisionEngine.commitDecision at h
  obtain ⟨placed, hplaced, h⟩ := of_bind h
  have hframe : withoutSlots placed = withoutSlots (engine.dropUnrequired now planned.executable) :=
    foldlM_frame (fun _ _ _ hround => (planExecutable_step hround).1) hplaced
  have hledger : placed.targetLedger = engine.targetLedger :=
    (congrArg DecisionEngine.targetLedger hframe :)
  have hprevious : placed.previousTarget = engine.previousTarget :=
    (congrArg DecisionEngine.previousTarget hframe :)
  unfold DecisionEngine.replaceTargets at h
  obtain ⟨targetLedger, htargets, h⟩ := of_bind h
  rw [pure_eq_ok_iff] at h
  subst h
  exact ⟨hprevious, targetsOf_replace (hledger ▸ hschema) (mapError_eq_ok_iff.mp htargets)⟩

theorem planDecision_targets {numbered : DecisionEngine D}
    (hschema : engine.targetLedger.schemaVersion = 1)
    (h : engine.planDecision now allocated = .ok (numbered, planned)) :
    numbered.previousTarget = some ⟨planned.decision.targetVersion, planned.decision.targetHash⟩ ∧
      canonicalTargetHash planned.decision.projection.constrainedTargets =
        .ok planned.decision.targetHash ∧
      numbered.targetLedger.schemaVersion = 1 := by
  unfold DecisionEngine.planDecision at h
  obtain ⟨decision, hdecision, h⟩ := of_bind h
  obtain ⟨targeted, htargeted, h⟩ := of_bind h
  obtain ⟨decisionSequence, -, h⟩ := of_bind h
  obtain ⟨actions, -, h⟩ := of_bind h
  cases h
  refine ⟨rfl, ?_, ?_⟩
  · have hdecision := mapError_eq_ok_iff.mp hdecision
    unfold constructDecision at hdecision
    obtain ⟨projection, -, hdecision⟩ := of_bind hdecision
    obtain ⟨⟨targetVersion, targetHash⟩, hresolved, hdecision⟩ := of_bind hdecision
    rw [pure_eq_ok_iff] at hdecision
    subst hdecision
    exact targetHash_of_resolved (mapError_eq_ok_iff.mp hresolved)
  · unfold DecisionEngine.replaceTargets at htargeted
    obtain ⟨targetLedger, htargets, htargeted⟩ := of_bind htargeted
    rw [pure_eq_ok_iff] at htargeted
    subst htargeted
    exact (targetsOf_replace hschema (mapError_eq_ok_iff.mp htargets)).schema

/-- **A decision leaves its own targets**, and without one the targets stay. -/
theorem constructNextDecision_targets {strategy : Strategy D} {result : Option (PlannedDecision D)}
    (hdecided : TargetsDecided engine targets)
    (h : engine.constructNextDecision settings now strategy = .ok (engine', result)) :
    TargetsDecided engine' ((result.map fun planned =>
      planned.decision.projection.constrainedTargets).or targets) := by
  unfold DecisionEngine.constructNextDecision at h
  obtain ⟨accrued, haccrued, h⟩ := of_bind h
  rw [accrueFunding_eq haccrued] at h
  split at h
  · obtain ⟨allocated, -, h⟩ := of_bind h
    obtain ⟨⟨decided, planned⟩, hdecide, h⟩ := of_bind h
    cases h
    unfold DecisionEngine.decide at hdecide
    obtain ⟨⟨numbered, planned'⟩, hplan, hdecide⟩ := of_bind hdecide
    obtain ⟨committed, hcommit, hdecide⟩ := of_bind hdecide
    cases hdecide
    obtain ⟨hprevious, hhash, hnumbered⟩ := planDecision_targets
      (by exact schema_of_targetsDecided hdecided) hplan
    obtain ⟨hkept, htargets⟩ := commitDecision_targets hnumbered hcommit
    exact ⟨_, hkept.trans hprevious, hhash, htargets⟩
  · cases h
    cases targets with
    | none => exact hdecided
    | some targets => exact hdecided

variable [IntentEncoding D] {call : EngineCall D} {result : Option (PlannedDecision D)}

/-- **A call leaves the targets of the last decision.** -/
theorem call_targets (hdecided : TargetsDecided engine targets)
    (h : engine.call settings call = .ok (engine', result)) :
    TargetsDecided engine' ((result.map fun planned =>
      planned.decision.projection.constrainedTargets).or targets) := by
  have hkeeps {after : DecisionEngine D} (hprevious : after.previousTarget = engine.previousTarget)
      (hledger : after.targetLedger = engine.targetLedger) : TargetsDecided after targets := by
    unfold TargetsDecided at hdecided ⊢
    rwa [hprevious, hledger]
  cases call with
  | decision now strategy => exact constructNextDecision_targets hdecided h
  | orderBook book receivedAt technicalDesired strategy =>
    obtain ⟨⟨executed, recompute⟩, hexecuted, h⟩ := of_bind h
    have hframe := (tryExecutePending_step hexecuted).frame_eq
    have hattempted : TargetsDecided executed targets :=
      hkeeps (congrArg DecisionEngine.previousTarget hframe :)
        (congrArg DecisionEngine.targetLedger hframe :)
    dsimp only at h
    split at h
    · exact constructNextDecision_targets hattempted h
    · cases h
      exact hattempted
  | marketMetadata metadata receivedAt =>
    obtain ⟨accrued, haccrued, h⟩ := of_bind h
    cases h
    rw [accrueFunding_eq haccrued]
    exact hkeeps rfl rfl
  | equityBoundary now =>
    obtain ⟨accrued, haccrued, h⟩ := of_bind h
    cases h
    rw [accrueFunding_eq haccrued]
    exact hkeeps rfl rfl
  | _ =>
    cases h
    exact hkeeps rfl rfl

end CopyTrade.Analysis
