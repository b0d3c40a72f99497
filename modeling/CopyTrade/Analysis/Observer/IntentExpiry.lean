import CopyTrade.Analysis.Signer.CountedExposure
import CopyTrade.Model.Observer.LiveShadow

/-!
# When an intent expires

The observer stamps `expires_at` from a clock that starts with its process, and the signer
compares the stamp with Unix time.  The two mean the same time only where the observer's clock
counts from the Unix epoch.
-/

namespace CopyTrade.Analysis

open Foundation Model
open Std (ExtTreeMap)

variable {D : Type} [Decimal D]

section

variable [Sha256] [IntentEncoding D] {engine : LiveShadowEngine D}
  {identity : ProductionIntentIdentity} {asset : String} {pending : PendingShadow D}
  {order : ExecutableOrder D} {receivedAt : ℕ} {intent : AuthorizedExecutionIntent D}

omit [Decimal D] in
theorem expiresAt_of_sealed {draft : AuthorizedExecutionIntent D}
    (h : draft.sealed = .ok intent) : intent.expiresAt = draft.expiresAt := by
  unfold AuthorizedExecutionIntent.sealed at h
  obtain ⟨hash, -, h⟩ := of_bind h
  cases h
  rfl

theorem expiresAt_of_buildIntent
    (h : engine.buildIntent identity asset pending order receivedAt = .ok intent) :
    intent.expiresAt = receivedAt + identity.expiresAfterMs := by
  unfold LiveShadowEngine.buildIntent at h
  obtain ⟨committedBefore, -, h⟩ := of_bind h
  obtain ⟨notional, -, h⟩ := of_bind h
  obtain ⟨committedAfter, -, h⟩ := of_bind h
  obtain ⟨projection, -, h⟩ := of_bind h
  obtain ⟨hash, -, h⟩ := of_bind h
  obtain ⟨assetIndex, -, h⟩ := of_bind h
  obtain ⟨rootCloid, -, h⟩ := of_bind h
  obtain ⟨parentCloid, -, h⟩ := of_bind h
  obtain ⟨expiresAt, hexpires, h⟩ := of_bind h
  rw [expiresAt_of_sealed (mapError_eq_ok_iff.mp h)]
  exact (checkedAddU64_eq_some_iff.mp (orArithmetic_eq_ok_iff.mp hexpires)).1.symm

theorem buildIntent_of_prepared
    (h : (engine.emitProductionIntent identity asset pending order
      receivedAt).1.preparedAuthorizedIntents = engine.preparedAuthorizedIntents ++ [intent]) :
    ∃ emitted : LiveShadowEngine D,
      emitted.buildIntent identity asset pending order receivedAt = .ok intent := by
  unfold LiveShadowEngine.emitProductionIntent at h
  split at h
  · exact absurd h (by simp)
  dsimp only at h
  split at h
  · exact absurd h (by simp)
  · rename_i built hbuilt
    obtain rfl : built = intent := by simpa using h
    exact ⟨_, hbuilt⟩

end

theorem orFailure_eq_error {α : Type} {failure : AuthorizationFailure} {x : Option α}
    {stop : AuthorizationStop} (h : orFailure failure x = .error stop) : stop = .failed failure := by
  cases x with
  | none =>
    cases h
    rfl
  | some a => cases h

variable {intent : AuthorizedExecutionIntent D}

theorem offGrid_ne_expired {rules : MarketRules D} :
    offGrid intent rules ≠ .error (.failed .expired) := by
  have hremainder : ∀ value step : D, leavesRemainder value step ≠ .error (.failed .expired) := by
    intro value step h
    unfold leavesRemainder at h
    split at h <;> cases h
  intro h
  rcases bind_eq_error_iff.mp h with hsize | ⟨off, -, hprice⟩
  · exact hremainder _ _ hsize
  · split at hprice
    · cases hprice
    · exact hremainder _ _ hprice

theorem checkRequiredDelta_ne_expired {rules : MarketRules D} {projection : PortfolioProjection D} :
    checkRequiredDelta intent rules projection ≠ .error (.failed .expired) := by
  intro h
  rcases bind_eq_error_iff.mp h with hintended | ⟨intended, -, h⟩
  · cases orFailure_eq_error hintended
  · split at h <;> dsimp only at h <;> split at h <;> cases h

theorem validateAgainstProjection_ne_expired [Sha256] {context : PreSigningContext D} :
    validateAgainstProjection intent context ≠ .error (.failed .expired) := by
  intro h
  rcases bind_eq_error_iff.mp h with hrules | ⟨rules, -, h⟩
  · cases orFailure_eq_error hrules
  rcases bind_eq_error_iff.mp h with hgrid | ⟨off, -, h⟩
  · exact offGrid_ne_expired hgrid
  split at h
  · cases h
  rcases bind_eq_error_iff.mp h with hminimum | ⟨meetsMinimum, -, h⟩
  · cases orFailure_eq_error hminimum
  split at h
  · cases h
  split at h
  · cases h
  rcases bind_eq_error_iff.mp h with hhash | ⟨hash, -, h⟩
  · cases orFailure_eq_error hhash
  split at h
  · cases h
  · exact checkRequiredDelta_ne_expired h

theorem reports_expired_iff [Sha256] [IntentEncoding D] {context : PreSigningContext D}
    {registry : SubmissionRegistry D} (hcanonical : intent.validateCanonical = .ok ()) :
    validateAuthorizedIntent intent context registry = .error (.failed .expired) ↔
      intent.expiresAt < context.nowMono := by
  unfold validateAuthorizedIntent
  rw [hcanonical]
  dsimp only
  split
  · rename_i hexpired
    exact ⟨fun _ => hexpired, fun _ => rfl⟩
  · rename_i hvalid
    refine ⟨?_, fun h => absurd h hvalid⟩
    intro h
    split at h
    · cases h
    split at h
    · cases h
    split at h
    · cases h
    split at h
    · cases h
    · exact absurd h validateAgainstProjection_ne_expired

/-- **Expiry across the two clocks.**  The signer's report at the real time `u` on an intent
stamped at the real time `t` by an observer started at `epoch` is the right one exactly when the
lifetime is over, or the stamp counted from the observer's start is not yet passed either. -/
theorem expiry_agrees_iff [Sha256] [IntentEncoding D] {engine : LiveShadowEngine D}
    {identity : ProductionIntentIdentity} {asset : String} {pending : PendingShadow D}
    {order : ExecutableOrder D} {intent : AuthorizedExecutionIntent D} {epoch t u : ℕ}
    (hprepared : (engine.emitProductionIntent identity asset pending order
      (monotonicNow epoch t)).1.preparedAuthorizedIntents =
        engine.preparedAuthorizedIntents ++ [intent])
    (hcanonical : intent.validateCanonical = .ok ()) (hlater : t ≤ u)
    (account : AccountSnapshot D) (filledPositions : ExtTreeMap String D)
    (registry : SubmissionRegistry D) :
    (validateAuthorizedIntent intent (authorizationContext intent u account filledPositions
        registry) registry = .error (.failed .expired) ↔ identity.expiresAfterMs < u - t) ↔
      identity.expiresAfterMs < u - t ∨ u ≤ monotonicNow epoch t + identity.expiresAfterMs := by
  obtain ⟨emitted, hbuilt⟩ := buildIntent_of_prepared hprepared
  have hstamp : monotonicNow epoch t ≤ t := (Nat.min_le_left _ _).trans (Nat.sub_le _ _)
  have hnow : (authorizationContext intent u account filledPositions registry).nowMono = u := rfl
  rw [reports_expired_iff hcanonical, hnow, expiresAt_of_buildIntent hbuilt]
  omega

def sampleEngine : LiveShadowEngine ℚ where
  productionPositions := some ∅
  shadowPositions := ∅
  admittedTargets := ExtTreeMap.ofList [("BTC", 100)] compare
  metadata := some ["BTC"]
  emittedProductionCloids := []
  preparedAuthorizedIntents := []

/-- The identity of the sample deployment, with the lifetime the observer is started with. -/
def sampleIdentity : ProductionIntentIdentity where
  observerReleaseHash := zeroHash
  signerReleaseHash := zeroHash
  releaseManifestHash := zeroHash
  marketRulesHash := zeroHash
  dynamicFloorPolicyHash := zeroHash
  iocPolicyHash := zeroHash
  expiresAfterMs := 20000

def samplePending : PendingShadow ℚ where
  action := ⟨zeroHash, 1, .buy, false, 0, Bytes.replicate 16 1⟩
  rootPlannedCloid := toHex (Bytes.replicate 16 1)
  parentPlannedCloid := none
  decisionObservedAtMono := 900
  decisionMidpoint := 100
  projectionInput := samplePortfolio
  riskPolicyHash := zeroHash
  configurationHash := zeroHash

def sampleOrder : ExecutableOrder ℚ := ⟨100, 1, 100, 10⟩

def sampleEpoch : ℕ := 1700000000000

theorem sample_prepared :
    ∃ (_ : Sha256) (_ : IntentEncoding ℚ) (intent : AuthorizedExecutionIntent ℚ),
      (sampleEngine.emitProductionIntent sampleIdentity "BTC" samplePending sampleOrder
        (monotonicNow sampleEpoch (sampleEpoch + 1000))).1.preparedAuthorizedIntents =
          sampleEngine.preparedAuthorizedIntents ++ [intent] ∧
      intent.validateCanonical = .ok () := by
  let sha : Sha256 := ⟨prefixDigest⟩
  let encoding : IntentEncoding ℚ := ⟨fun _ => .ok []⟩
  refine ⟨sha, encoding, ?_⟩
  have hrun : (sampleEngine.emitProductionIntent sampleIdentity "BTC" samplePending sampleOrder
      (monotonicNow sampleEpoch (sampleEpoch + 1000))).1.preparedAuthorizedIntents.map
        (fun intent => intent.validateCanonical) = [.ok ()] := by
    decide +kernel
  obtain ⟨intent, hprepared, hcanonical⟩ := List.map_eq_singleton_iff.mp hrun
  exact ⟨intent, hprepared, hcanonical⟩

theorem expiry_agrees_iff_sample :
    ∃ (_ : Sha256) (_ : IntentEncoding ℚ) (intent : AuthorizedExecutionIntent ℚ),
      ¬ (validateAuthorizedIntent intent (authorizationContext intent (sampleEpoch + 1000)
          ⟨∅, 1000⟩ ∅ (SubmissionRegistry.empty 4)) (SubmissionRegistry.empty 4) =
            .error (.failed .expired) ↔
        sampleIdentity.expiresAfterMs < sampleEpoch + 1000 - (sampleEpoch + 1000)) := by
  obtain ⟨sha, encoding, intent, hprepared, hcanonical⟩ := sample_prepared
  refine ⟨sha, encoding, intent, ?_⟩
  rw [expiry_agrees_iff hprepared hcanonical le_rfl]
  decide

/-- An intent that reaches the signer in the millisecond it was prepared in is refused as
expired. -/
theorem fresh_intent_expired :
    ¬ ∀ [Sha256] [IntentEncoding ℚ] (engine : LiveShadowEngine ℚ)
      (identity : ProductionIntentIdentity) (asset : String) (pending : PendingShadow ℚ)
      (order : ExecutableOrder ℚ) (intent : AuthorizedExecutionIntent ℚ) (epoch t u : ℕ)
      (account : AccountSnapshot ℚ) (filledPositions : ExtTreeMap String ℚ)
      (registry : SubmissionRegistry ℚ),
      epoch ≤ t → t ≤ u → intent.validateCanonical = .ok () →
      (engine.emitProductionIntent identity asset pending order
        (monotonicNow epoch t)).1.preparedAuthorizedIntents =
          engine.preparedAuthorizedIntents ++ [intent] →
      (validateAuthorizedIntent intent (authorizationContext intent u account filledPositions
        registry) registry = .error (.failed .expired) ↔ identity.expiresAfterMs < u - t) := by
  intro h
  obtain ⟨sha, encoding, intent, hprepared, hcanonical⟩ := sample_prepared
  have hreport := h sampleEngine sampleIdentity "BTC" samplePending sampleOrder intent sampleEpoch
    (sampleEpoch + 1000) (sampleEpoch + 1000) ⟨∅, 1000⟩ ∅ (SubmissionRegistry.empty 4) (by decide)
    le_rfl hcanonical hprepared
  obtain ⟨emitted, hbuilt⟩ := buildIntent_of_prepared hprepared
  rw [reports_expired_iff hcanonical, expiresAt_of_buildIntent hbuilt] at hreport
  have hlate := hreport.mp (show monotonicNow sampleEpoch (sampleEpoch + 1000) +
    sampleIdentity.expiresAfterMs < sampleEpoch + 1000 by decide)
  rw [Nat.sub_self] at hlate
  exact absurd hlate (Nat.not_lt_zero _)

end CopyTrade.Analysis
