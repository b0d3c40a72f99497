import CopyTrade.Analysis.Signer.PlainActions

/-!
# The exposure an authorization counts

`authorize` checks an intent against the open orders it rebuilds from the registry, and marks
that list complete.  The list holds the `UnknownResult` entries alone, without those whose
notional cannot be represented, so an order that may still execute is left out in every other
state.
-/

namespace CopyTrade.Analysis

open Foundation Model
open Std (ExtTreeMap)

variable {D : Type} [Decimal D]

abbrev RegistryEntry (D : Type) := String × ApprovedExecutionIntent D × SubmissionState D

/-- The order of an intent in this state may still execute on the exchange. -/
def mayExecute : SubmissionState D → Bool
  | .submissionStarted _ | .acknowledged _ | .partiallyFilled _ _ | .unknownResult _ => true
  | _ => false

/-- The other registered intents whose orders may still execute. -/
def otherLive (registry : SubmissionRegistry D) (cloid : String) : List (RegistryEntry D) :=
  registry.entries.filter fun entry => entry.1 != cloid && mayExecute entry.2.2

def remainingQuantity (intent : ApprovedExecutionIntent D) : SubmissionState D → Option D
  | .partiallyFilled _ filled => Decimal.checkedSub intent.quantity filled
  | _ => some intent.quantity

def remainingNotional (entry : RegistryEntry D) : Option D := do
  let remaining ← remainingQuantity entry.2.1 entry.2.2
  Decimal.checkedMul remaining entry.2.1.limitPrice

def orderSide (intent : ApprovedExecutionIntent D) : OrderSide :=
  if intent.isBuy then .buy else .sell

def Covers (entry : RegistryEntry D) (exposure : OpenOrderExposure D) : Prop :=
  exposure.asset = entry.2.1.asset ∧ exposure.side = some (orderSide entry.2.1) ∧
    ∃ notional remaining, exposure.notional = some notional ∧
      remainingNotional entry = some remaining ∧ Decimal.le remaining notional = true

/-- Every other intent whose order may execute has an exposure in the input. -/
def ExposureCounted (cloid : String) (registry : SubmissionRegistry D)
    (input : PortfolioProjectionInput D) : Prop :=
  ∀ entry ∈ otherLive registry cloid, ∃ exposure ∈ input.acknowledgedOpenOrders,
    Covers entry exposure

/-- Every other intent whose order may execute has an exposure of its own in the input. -/
def EachCounted (cloid : String) (registry : SubmissionRegistry D)
    (input : PortfolioProjectionInput D) : Prop :=
  ∃ chosen, chosen.Subperm input.acknowledgedOpenOrders ∧
    List.Forall₂ Covers (otherLive registry cloid) chosen

/-- The entry is in `UnknownResult` and its notional can be represented. -/
def KeptByFilter (entry : RegistryEntry D) : Prop :=
  entry.2.2.isUnknownResult = true ∧
    (Decimal.checkedMul entry.2.1.quantity entry.2.1.limitPrice).isSome = true

/-- An entry that the filter keeps stands on the same asset and side with at least the remaining
notional. -/
def MatchedByKept (entries : List (RegistryEntry D)) (entry : RegistryEntry D) : Prop :=
  ∃ kept ∈ entries, kept.2.2.isUnknownResult = true ∧ kept.2.1.asset = entry.2.1.asset ∧
    orderSide kept.2.1 = orderSide entry.2.1 ∧ ∃ notional remaining,
      Decimal.checkedMul kept.2.1.quantity kept.2.1.limitPrice = some notional ∧
      remainingNotional entry = some remaining ∧ Decimal.le remaining notional = true

variable {entry : RegistryEntry D} {exposure : OpenOrderExposure D} {context : PreSigningContext D}
  {intent : AuthorizedExecutionIntent D} {registry : SubmissionRegistry D}

theorem openOrderExposure_eq_some_iff :
    openOrderExposure entry = some exposure ↔ entry.2.2.isUnknownResult = true ∧ ∃ notional,
      Decimal.checkedMul entry.2.1.quantity entry.2.1.limitPrice = some notional ∧
        (OpenOrderExposure.mk entry.2.1.asset (some (orderSide entry.2.1)) (some notional)
          .submissionUnknown) = exposure := by
  unfold openOrderExposure orderSide
  split
  · rename_i hunknown
    simp only [Option.map_eq_some_iff, hunknown, true_and]
  · rename_i hunknown
    simp only [hunknown, false_and, reduceCtorEq]

theorem openOrderExposure_isSome_iff :
    (openOrderExposure entry).isSome = true ↔ KeptByFilter entry := by
  unfold openOrderExposure KeptByFilter
  split
  · rename_i hunknown
    simp only [Option.isSome_map, hunknown, true_and]
  · rename_i hunknown
    simp only [Option.isSome_none, hunknown, Bool.false_eq_true, false_and]

theorem remainingNotional_of_unknown (h : entry.2.2.isUnknownResult = true) :
    remainingNotional entry = Decimal.checkedMul entry.2.1.quantity entry.2.1.limitPrice := by
  obtain ⟨cloid, intent, state⟩ := entry
  cases state <;> first | rfl | exact absurd h Bool.false_ne_true

theorem covers_openOrderExposure (h : openOrderExposure entry = some exposure) :
    Covers entry exposure := by
  obtain ⟨hunknown, notional, hnotional, rfl⟩ := openOrderExposure_eq_some_iff.mp h
  refine ⟨rfl, rfl, notional, notional, rfl, ?_, Decimal.le_iff.mpr le_rfl⟩
  rw [remainingNotional_of_unknown hunknown, hnotional]

theorem forall₂_covers {entries : List (RegistryEntry D)}
    (h : ∀ entry ∈ entries, KeptByFilter entry) :
    List.Forall₂ Covers entries (entries.filterMap openOrderExposure) := by
  induction entries with
  | nil => exact List.Forall₂.nil
  | cons entry entries ih =>
    obtain ⟨exposure, hexposure⟩ := Option.isSome_iff_exists.mp
      (openOrderExposure_isSome_iff.mpr (h entry List.mem_cons_self))
    rw [List.filterMap_cons_some hexposure]
    exact List.Forall₂.cons (covers_openOrderExposure hexposure)
      (ih fun other hother => h other (List.mem_cons_of_mem _ hother))

theorem openOrders_authorizationContext (intent : AuthorizedExecutionIntent D) (nowMs : ℕ)
    (account : AccountSnapshot D) (filledPositions : ExtTreeMap String D)
    (registry : SubmissionRegistry D) :
    (authorizationContext intent nowMs account filledPositions
      registry).projectionInput.acknowledgedOpenOrders =
        registry.entries.filterMap openOrderExposure := rfl

theorem own_not_unknown [Sha256] [IntentEncoding D]
    (h : validateAuthorizedIntent intent context registry = .ok ()) {state : SubmissionState D}
    (hstate : registry.state (toHex intent.plannedCloid) = some state) :
    state.isUnknownResult = false := by
  unfold validateAuthorizedIntent at h
  split at h
  · cases h
  split at h
  · cases h
  split at h
  · cases h
  split at h
  · cases h
  · rename_i hduplicate
    rw [hstate] at hduplicate
    cases state <;> first | rfl | exact absurd rfl hduplicate

theorem openOrders_eq [Sha256] [IntentEncoding D]
    (h : validateAuthorizedIntent intent context registry = .ok ()) :
    registry.entries.filterMap openOrderExposure =
      (otherLive registry (toHex intent.plannedCloid)).filterMap openOrderExposure := by
  unfold otherLive
  rw [List.filterMap_filter]
  refine List.filterMap_congr ?_
  intro entry hentry
  split
  · rfl
  · rename_i hother
    unfold openOrderExposure
    refine if_neg ?_
    intro hunknown
    refine hother ?_
    rw [Bool.and_eq_true, bne_iff_ne]
    refine ⟨?_, ?_⟩
    · -- The entry of the intent itself is not unknown.
      intro hown
      have hstate : registry.state (toHex intent.plannedCloid) = some entry.2.2 := by
        rw [SubmissionRegistry.state, ← hown, SubmissionRegistry.mem_entries_iff.mp hentry,
          Option.map_some]
      rw [own_not_unknown h hstate] at hunknown
      cases hunknown
    · obtain ⟨cloid, intent, state⟩ := entry
      cases state <;> first | rfl | exact absurd hunknown Bool.false_ne_true

section

variable {orders : List (OpenOrderExposure D)} {entries : List (RegistryEntry D)}

theorem eachCounted_iff :
    (∃ chosen, chosen.Subperm (entries.filterMap openOrderExposure) ∧
      List.Forall₂ Covers entries chosen) ↔ ∀ entry ∈ entries, KeptByFilter entry := by
  constructor
  · rintro ⟨chosen, hchosen, hcovers⟩ entry hentry
    have hlength : (entries.filterMap openOrderExposure).length = entries.length := by
      have hle := hchosen.length_le
      rw [← hcovers.length_eq] at hle
      exact Nat.le_antisymm (List.length_filterMap_le _ _) hle
    exact openOrderExposure_isSome_iff.mp (List.filterMap_length_eq_length.mp hlength entry hentry)
  · intro h
    exact ⟨_, List.Subperm.refl _, forall₂_covers h⟩

theorem exposureCounted_iff :
    (∀ entry ∈ entries, ∃ exposure ∈ entries.filterMap openOrderExposure, Covers entry exposure) ↔
      ∀ entry ∈ entries, MatchedByKept entries entry := by
  refine forall₂_congr ?_
  intro entry hentry
  constructor
  · rintro ⟨exposure, hexposure, hasset, hside, notional, remaining, hnotional, hremaining, hle⟩
    obtain ⟨kept, hkept, hsome⟩ := List.mem_filterMap.mp hexposure
    obtain ⟨hunknown, product, hproduct, rfl⟩ := openOrderExposure_eq_some_iff.mp hsome
    cases hnotional
    exact ⟨kept, hkept, hunknown, hasset, Option.some.inj hside, notional, remaining, hproduct,
      hremaining, hle⟩
  · rintro ⟨kept, hkept, hunknown, hasset, hside, notional, remaining, hnotional, hremaining, hle⟩
    refine ⟨_, List.mem_filterMap.mpr ⟨kept, hkept, openOrderExposure_eq_some_iff.mpr
      ⟨hunknown, notional, hnotional, rfl⟩⟩, hasset, congrArg some hside, notional, remaining, rfl,
      hremaining, hle⟩

end

/-- **What an authorization counts.**  The input it checked has an exposure for every other live
intent exactly when the unknown intents match them all, and for all of them at once exactly when
every one is unknown with a representable notional. -/
theorem exposure_counted_iff [Sha256] [IntentEncoding D] {thread n m nowMs sequence : ℕ}
    {environment : ℕ → (op : SignerOp D) → op.Choice} {deployment : Deployment}
    {intent : AuthorizedExecutionIntent D} {w w' : SignerWorld D}
    (h : Returns thread environment (authorize deployment intent nowMs) n w sequence m w') :
    ∃ account filledPositions context,
      context = authorizationContext intent nowMs account filledPositions w.registry ∧
      validateAuthorizedIntent intent context w.registry = .ok () ∧
      (ExposureCounted (toHex intent.plannedCloid) w.registry context.projectionInput ↔
        ∀ entry ∈ otherLive w.registry (toHex intent.plannedCloid),
          MatchedByKept (otherLive w.registry (toHex intent.plannedCloid)) entry) ∧
      (EachCounted (toHex intent.plannedCloid) w.registry context.projectionInput ↔
        ∀ entry ∈ otherLive w.registry (toHex intent.plannedCloid), KeptByFilter entry) := by
  obtain ⟨account, filledPositions, hvalid⟩ := returns_authorize h
  refine ⟨account, filledPositions, _, rfl, hvalid, ?_, ?_⟩
  · unfold ExposureCounted
    rw [openOrders_authorizationContext, openOrders_eq hvalid]
    exact exposureCounted_iff
  · unfold EachCounted
    rw [openOrders_authorizationContext, openOrders_eq hvalid]
    exact eachCounted_iff

def samplePortfolio : PortfolioProjectionInput ℚ where
  currentEquity := 1000
  curveLeverage := 10
  globalRiskScale := 1 / 10
  maxSingleAssetEquityPct := 1
  maxNetEquityPct := 1
  filledPositions := ∅
  filledPositionStateComplete := true
  acknowledgedOpenOrders := []
  openOrderStateComplete := true
  unconstrainedTargets := ExtTreeMap.ofList [("BTC", 100)] compare
  marketRules := ExtTreeMap.ofList [("BTC", ⟨100, 1, 1⟩)] compare

def zeroHash : Hash := Bytes.replicate 32 0

/-- An intent that buys one BTC at 100, as the sample portfolio asks. -/
def sampleEnvelope (cloid : UInt8) : AuthorizedExecutionIntent ℚ where
  schemaVersion := 1
  decisionId := zeroHash
  targetVersion := 1
  rootCloid := Bytes.replicate 16 cloid
  plannedCloid := Bytes.replicate 16 cloid
  parentCloid := none
  continuationGeneration := 0
  asset := "BTC"
  assetIndex := 0
  side := .buy
  quantity := 1
  limitPrice := 100
  reduceOnly := false
  timeInForce := .ioc
  projectedPortfolioHash :=
    prefixDigest (textBytes "LIVE/PORTFOLIO_PROJECTION/V1" ++ bigEndian 4 1)
  riskPolicyHash := zeroHash
  configurationHash := zeroHash
  marketRulesHash := zeroHash
  dynamicFloorPolicyHash := zeroHash
  iocPolicyHash := zeroHash
  observerReleaseHash := zeroHash
  signerReleaseHash := zeroHash
  releaseManifestHash := zeroHash
  decisionReferencePrice := 100
  expectedCommittedBefore := 0
  expectedCommittedAfter := 100
  decisionTimestampMs := 1
  expiresAt := 1000
  authorization := ⟨1, zeroHash, samplePortfolio, 10⟩
  canonicalHash := zeroHash

def sampleDeployment : Deployment := ⟨zeroHash, zeroHash, zeroHash⟩

/-- An exchange that acknowledges every order and keeps it open, and a disk that never fails. -/
def restingExchange : (op : SignerOp ℚ) → op.Choice
  | .persist | .saveLedger _ => .written
  | .sign _ _ => .ok []
  | .submitIoc _ => .ok .acknowledged
  | .lookupOrder _ => .ok (.opened "5" 1 1)
  | .readFills _ | .readFunding _ => .ok ⟨[], ⟨0, none⟩⟩
  | .readPositions => .ok ⟨∅, 1000⟩
  | .readEquity => .ok 1000
  | .acquire _ | .release _ | .readReady | .writeReady _ | .readRegistry | .callRegistry _
  | .nextNonce _ | .panic => ()

def callAlone (thread : ℕ) (call : SignerCall ℚ) : List (ProcessStep ℚ) :=
  .call call :: List.replicate 64 (.progress thread restingExchange)

/-- The first order is acknowledged and found open by the reconciliation after it. -/
def restingRun : List (ProcessStep ℚ) :=
  .start 0 ::
    (callAlone 0 (.reconcileStartup (LiveTradingState.starting 1000 0) 1 2 1000) ++
      callAlone 1 (.authorize (sampleEnvelope 1) 1) ++
      callAlone 2 (.submitAuthorized (sampleEnvelope 1) 1) ++
      callAlone 3 (.reconcileStartup (LiveTradingState.starting 1000 0) 1 2 1000))

def worldAfter [Sha256] [IntentEncoding ℚ] (steps : List (ProcessStep ℚ)) : SignerWorld ℚ :=
  (run (SignerProcess.step sampleDeployment) SignerProcess.initial steps).pool.world

theorem restingRun_authorizes :
    ∃ (_ : Sha256) (_ : IntentEncoding ℚ),
      (∃ sequence m w', Returns 4 (fun _ => restingExchange)
        (authorize sampleDeployment (sampleEnvelope 2) 1) 0 (worldAfter restingRun) sequence m w') ∧
      (worldAfter restingRun).registry.entries.filterMap openOrderExposure = [] ∧
      ∃ entry ∈ otherLive (worldAfter restingRun).registry (toHex (sampleEnvelope 2).plannedCloid),
        entry.2.2.isUnknownResult = false := by
  let sha : Sha256 := ⟨prefixDigest⟩
  let encoding : IntentEncoding ℚ := ⟨fun _ => .ok []⟩
  refine ⟨sha, encoding, ?_⟩
  have hrun : (((authorize sampleDeployment (sampleEnvelope 2) 1).run.eval (SignerWorld.respond 4)
        (fun _ => restingExchange) 0 (worldAfter restingRun)).any fun result =>
          result.1.toOption.isSome) = true ∧
      ((worldAfter restingRun).registry.entries.filterMap openOrderExposure).isEmpty = true ∧
      ((otherLive (worldAfter restingRun).registry (toHex (sampleEnvelope 2).plannedCloid)).any
        fun entry => !entry.2.2.isUnknownResult) = true := by
    decide +kernel
  obtain ⟨hauthorize, hempty, hlive⟩ := hrun
  obtain ⟨entry, hentry, hknown⟩ := List.any_eq_true.mp hlive
  exact ⟨exists_returns hauthorize, List.isEmpty_iff.mp hempty, entry, hentry, by simpa using hknown⟩

theorem exposure_counted_iff_restingRun :
    ∃ (_ : Sha256) (_ : IntentEncoding ℚ) (context : PreSigningContext ℚ),
      validateAuthorizedIntent (sampleEnvelope 2) context (worldAfter restingRun).registry =
        .ok () ∧
      ¬ EachCounted (toHex (sampleEnvelope 2).plannedCloid) (worldAfter restingRun).registry
        context.projectionInput := by
  obtain ⟨sha, encoding, ⟨sequence, m, w', hreturns⟩, -, entry, hentry, hknown⟩ :=
    restingRun_authorizes
  obtain ⟨account, filledPositions, context, -, hvalid, -, heach⟩ := exposure_counted_iff hreturns
  refine ⟨sha, encoding, context, hvalid, ?_⟩
  intro hcounted
  have hkept := heach.mp hcounted entry hentry
  rw [hkept.1] at hknown
  cases hknown

/-- An acknowledged order is not counted against the next intent, although it may still
execute. -/
theorem resting_order_not_counted :
    ¬ ∀ [Sha256] [IntentEncoding ℚ] (steps : List (ProcessStep ℚ)) (thread n m nowMs sequence : ℕ)
      (environment : ℕ → (op : SignerOp ℚ) → op.Choice) (intent : AuthorizedExecutionIntent ℚ)
      (w' : SignerWorld ℚ),
      Returns thread environment (authorize sampleDeployment intent nowMs) n (worldAfter steps)
        sequence m w' →
      ∃ account filledPositions, ExposureCounted (toHex intent.plannedCloid)
        (worldAfter steps).registry (authorizationContext intent nowMs account filledPositions
          (worldAfter steps).registry).projectionInput := by
  intro h
  obtain ⟨sha, encoding, ⟨sequence, m, w', hreturns⟩, hempty, entry, hentry, -⟩ :=
    restingRun_authorizes
  obtain ⟨account, filledPositions, hcounted⟩ := h restingRun _ _ _ _ _ _ _ _ hreturns
  obtain ⟨exposure, hexposure, -⟩ := hcounted entry hentry
  rw [openOrders_authorizationContext, hempty] at hexposure
  exact absurd hexposure List.not_mem_nil

end CopyTrade.Analysis
