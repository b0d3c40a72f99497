import CopyTrade.Analysis.Signer.CountedExposure
import CopyTrade.Model.Core.IdentityHash

/-!
# The risk parameters an authorization projects with

`authorize` replaces the exchange-owned fields of the projection input of an intent and keeps its
risk scale and its two caps.  An intent with other values, sealed anew, is authorized exactly when
its own projection asks for the same order.
-/

namespace CopyTrade.Analysis

open Foundation Model
open Std (ExtTreeMap)

variable {D : Type} [Decimal D]

section

variable {α : Type} {thread n m nowMs : ℕ} {environment : ℕ → (op : SignerOp D) → op.Choice}
  {w w' : SignerWorld D} {deployment : Deployment} {intent : AuthorizedExecutionIntent D}

theorem returns_withLock_iff {lock : SignerLock} {body : SignerAction D α} {a : α} :
    Returns thread environment (SignerAction.withLock lock body) n w a m w' ↔
      w.holder lock = none ∧ ∃ k v,
        Returns thread environment body (n + 1) (w.withHolder lock (some thread)) a k v ∧
          m = k + 1 ∧
          w' = if v.holder lock = some thread then v.withHolder lock none else v := by
  constructor
  · intro h
    obtain ⟨answer, world, hacquire, hrest⟩ := Program.eval_ask_eq_some_iff.mp h
    obtain ⟨hfree, rfl⟩ := respond_acquire_eq_some hacquire
    obtain ⟨result, k, v, hbody, hrest⟩ := Program.eval_bind_eq_some_iff.mp hrest
    obtain ⟨answer, world, hrelease, hdone⟩ := Program.eval_ask_eq_some_iff.mp hrest
    cases hdone
    exact ⟨hfree, k, v, hbody, rfl, respond_release hrelease⟩
  · rintro ⟨hfree, k, v, hbody, rfl, rfl⟩
    refine Program.eval_ask_eq_some_iff.mpr ⟨(), w.withHolder lock (some thread), ?_, ?_⟩
    · unfold SignerWorld.respond
      dsimp only
      rw [hfree]
      rfl
    · refine Program.eval_bind_eq_some_iff.mpr ⟨.ok a, k, v, hbody, ?_⟩
      refine Program.eval_ask_eq_some_iff.mpr ⟨(), _, ?_, rfl⟩
      unfold SignerWorld.respond
      dsimp only
      split
      · rfl
      · rfl

def AuthorizeSucceeds [Sha256] [IntentEncoding D] (thread : ℕ)
    (environment : ℕ → (op : SignerOp D) → op.Choice) (deployment : Deployment)
    (intent : AuthorizedExecutionIntent D) (nowMs n : ℕ) (w : SignerWorld D) : Prop :=
  ∃ sequence m w', Returns thread environment (authorize deployment intent nowMs) n w sequence m w'

def ReadsAccount (environment : ℕ → (op : SignerOp D) → op.Choice) (n : ℕ)
    (account : AccountSnapshot D) : Prop :=
  ∃ positions : ExchangePositionSnapshot D, ∃ equity : D,
    environment n .readPositions = .ok positions ∧ environment (n + 1) .readEquity = .ok equity ∧
      Decimal.eqv equity positions.accountEquity = true ∧ account = ⟨positions.positions, equity⟩

theorem ReadsAccount.unique {environment : ℕ → (op : SignerOp D) → op.Choice} {n : ℕ}
    {first second : AccountSnapshot D} (h : ReadsAccount environment n first)
    (h' : ReadsAccount environment n second) : first = second := by
  obtain ⟨positions, equity, hpositions, hequity, -, rfl⟩ := h
  obtain ⟨others, other, hothers, hother, -, rfl⟩ := h'
  rw [hpositions] at hothers
  rw [hequity] at hother
  cases hothers
  cases hother
  rfl

def recordCall (intent : AuthorizedExecutionIntent D) (registry : SubmissionRegistry D)
    (nowMs : ℕ) : Except SignerError (RegistryCall D) :=
  if isAuthorizedNotSubmitted registry (toHex intent.plannedCloid) then
    if !(registry.intent (toHex intent.plannedCloid)).any fun existing =>
        existing.eqv (durableIntent intent) then
      .error .cloidMismatch
    else .ok (.transitionAt (toHex intent.plannedCloid) .authorized nowMs)
  else .ok (.register (durableIntent intent))

structure Admissible [Sha256] [IntentEncoding D]
    (environment : ℕ → (op : SignerOp D) → op.Choice) (deployment : Deployment)
    (intent : AuthorizedExecutionIntent D) (nowMs n : ℕ) (w : SignerWorld D)
    (account : AccountSnapshot D) (filledPositions : ExtTreeMap String D) : Prop where
  submissionFree : w.submissionHolder = none
  registryFree : w.registryHolder = none
  canonical : checkCanonical intent = .ok ()
  ready : w.startupReconciled = true
  deployed : checkDeployment deployment intent = .ok ()
  notBlocked : checkNotBlocked intent w.registry = .ok ()
  read : ReadsAccount environment (n + 5) account
  filled : positionsToNotional account.positions intent.authorization.projectionInput =
    .ok filledPositions
  checked : validateAuthorizedIntent intent
    (authorizationContext intent nowMs account filledPositions w.registry) w.registry = .ok ()
  recorded : ∃ call resolved next, recordCall intent w.registry nowMs = .ok call ∧
    w.registry.answer call = .ok (resolved, next)
  persisted : environment (n + 10) .persist = .written

theorem returns_readAccount_iff {account : AccountSnapshot D} :
    Returns thread environment readAccount n w account m w' ↔
      ReadsAccount environment n account ∧ m = n + 2 ∧ w' = w := by
  unfold readAccount ReadsAccount
  rw [returns_bind_iff]
  constructor
  · rintro ⟨positions, k, v, hpositions, hrest⟩
    obtain ⟨answer, hanswer, hsnapshot, rfl⟩ := returns_attempt_iff.mp hpositions
    cases hanswer
    obtain ⟨equity, k, u, hequity, hrest⟩ := returns_bind_iff.mp hrest
    obtain ⟨answer, hanswer, hvalue, rfl⟩ := returns_attempt_iff.mp hequity
    cases hanswer
    split at hrest
    · exact (not_returns_throw hrest).elim
    · rename_i hagree
      obtain ⟨rfl, rfl, rfl⟩ := returns_pure_iff.mp hrest
      refine ⟨⟨positions, equity, fromExchange_eq_ok_iff.mp hsnapshot,
        fromExchange_eq_ok_iff.mp hvalue, by simpa using hagree, rfl⟩, rfl, rfl⟩
  · rintro ⟨⟨positions, equity, hpositions, hequity, hagree, rfl⟩, rfl, rfl⟩
    refine ⟨positions, n + 1, w', returns_attempt_iff.mpr
      ⟨_, rfl, fromExchange_eq_ok_iff.mpr hpositions, rfl⟩, ?_⟩
    refine returns_bind_iff.mpr ⟨equity, n + 2, w', returns_attempt_iff.mpr
      ⟨_, rfl, fromExchange_eq_ok_iff.mpr hequity, rfl⟩, ?_⟩
    rw [hagree, if_neg (by decide)]
    exact returns_pure_iff.mpr ⟨rfl, rfl, rfl⟩

theorem returns_checkIntent_iff [Sha256] [IntentEncoding D] {context : PreSigningContext D}
    {registry : SubmissionRegistry D} {u : Unit} :
    Returns thread environment (checkIntent intent context registry) n w u m w' ↔
      validateAuthorizedIntent intent context registry = .ok () ∧ n = m ∧ w = w' := by
  unfold checkIntent
  split
  · rename_i hpanicked
    rw [hpanicked]
    refine iff_of_false ?_ (fun h => nomatch h.1)
    intro h
    obtain ⟨answer, world, hpanic, -⟩ := Program.eval_ask_eq_some_iff.mp h
    cases hpanic
  · rename_i hfailed
    rw [hfailed]
    exact iff_of_false not_returns_throw fun h => nomatch h.1
  · rename_i hpassed
    rw [hpassed, returns_pure_iff]
    simp

theorem returns_recordAuthorization_iff {registry : SubmissionRegistry D} {resolved : Bool} :
    Returns thread environment (recordAuthorization intent registry nowMs) n w resolved m w' ↔
      ∃ call next, recordCall intent registry nowMs = .ok call ∧
        w.registry.answer call = .ok (resolved, next) ∧ m = n + 1 ∧
        w' = { w with registry := next } := by
  have hcall (call : RegistryCall D) :
      Returns thread environment (SignerAction.call call) n w resolved m w' ↔
        ∃ next, w.registry.answer call = .ok (resolved, next) ∧ m = n + 1 ∧
          w' = { w with registry := next } := by
    refine returns_attempt_iff.trans ?_
    unfold SignerWorld.respond
    dsimp only
    constructor
    · rintro ⟨answer, hrespond, hresult, rfl⟩
      cases hresult
      split at hrespond
      · cases hrespond
      · rename_i hanswer
        cases hrespond
        exact ⟨_, hanswer, rfl, rfl⟩
    · rintro ⟨next, hanswer, rfl, rfl⟩
      rw [hanswer]
      exact ⟨.ok resolved, rfl, rfl, rfl⟩
  unfold recordAuthorization recordCall
  split
  · split
    · exact iff_of_false not_returns_throw (by simp)
    · rw [hcall]
      simp
  · rw [hcall]
    simp

theorem returns_notBlocked_iff {u : Unit} :
    Returns thread environment (SignerAction.withLock .registry do
        let registry : SubmissionRegistry D ← SignerAction.ask .readRegistry
        SignerAction.fromResult (checkNotBlocked intent registry)) n w u m w' ↔
      w.registryHolder = none ∧ checkNotBlocked intent w.registry = .ok () ∧ m = n + 3 ∧
        w' = { w with registryHolder := none } := by
  rw [returns_withLock_iff]
  refine and_congr Iff.rfl ?_
  constructor
  · rintro ⟨k, v, hbody, rfl, rfl⟩
    obtain ⟨registry, l, u', hregistry, hlooked⟩ := returns_bind_iff.mp hbody
    obtain ⟨hregistry, rfl⟩ := returns_ask_iff.mp hregistry
    cases hregistry
    obtain ⟨hcheck, rfl, rfl⟩ := returns_fromResult_iff.mp hlooked
    exact ⟨hcheck, rfl, if_pos rfl⟩
  · rintro ⟨hcheck, rfl, rfl⟩
    refine ⟨n + 2, w.withHolder .registry (some thread), ?_, rfl, (if_pos rfl).symm⟩
    refine returns_bind_iff.mpr ⟨w.registry, n + 2, _, returns_ask_iff.mpr ⟨rfl, rfl⟩, ?_⟩
    exact returns_fromResult_iff.mpr ⟨hcheck, rfl, rfl⟩

theorem returns_checkAndRecord_iff [Sha256] [IntentEncoding D] {account : AccountSnapshot D}
    {filledPositions : ExtTreeMap String D} :
    (∃ sequence m w', Returns thread environment (SignerAction.withLock .registry do
        let registry : SubmissionRegistry D ← SignerAction.ask .readRegistry
        checkIntent intent (authorizationContext intent nowMs account filledPositions registry)
          registry
        let _ ← recordAuthorization intent registry nowMs
        SignerAction.persist
        let recorded : SubmissionRegistry D ← SignerAction.ask .readRegistry
        pure recorded.durableSequence) n w sequence m w') ↔
      w.registryHolder = none ∧
        validateAuthorizedIntent intent
          (authorizationContext intent nowMs account filledPositions w.registry) w.registry =
            .ok () ∧
        (∃ call resolved next, recordCall intent w.registry nowMs = .ok call ∧
          w.registry.answer call = .ok (resolved, next)) ∧
        environment (n + 3) .persist = .written := by
  constructor
  · rintro ⟨sequence, m, w', hreturns⟩
    obtain ⟨hfree, k, v, hbody, -, -⟩ := returns_withLock_iff.mp hreturns
    obtain ⟨registry, l, u, hregistry, hrest⟩ := returns_bind_iff.mp hbody
    obtain ⟨hregistry, rfl⟩ := returns_ask_iff.mp hregistry
    cases hregistry
    obtain ⟨_, l, u, hlooked, hrecord⟩ := returns_bind_iff.mp hrest
    obtain ⟨hcheck, rfl, rfl⟩ := returns_checkIntent_iff.mp hlooked
    obtain ⟨resolved, l, u, hrecorded, hsave⟩ := returns_bind_iff.mp hrecord
    obtain ⟨call, next, hcall, hanswer, rfl, rfl⟩ := returns_recordAuthorization_iff.mp hrecorded
    obtain ⟨_, l, u, hsaved, -⟩ := returns_bind_iff.mp hsave
    obtain ⟨answer, hrespond, hwritten, rfl⟩ := returns_attempt_iff.mp hsaved
    refine ⟨hfree, hcheck, ⟨call, resolved, next, hcall, hanswer⟩, ?_⟩
    unfold SignerWorld.respond at hrespond
    dsimp only at hrespond
    cases hrespond
    unfold SignerOp.WriteOutcome.apply at hwritten
    split at hwritten
    · assumption
    · cases hwritten
    · cases hwritten
  · rintro ⟨hfree, hcheck, ⟨call, resolved, next, hcall, hanswer⟩, hwritten⟩
    let locked := w.withHolder .registry (some thread)
    let recorded : SignerWorld D := { locked with registry := next }
    let saved : SignerWorld D := { recorded with registryFile := some next }
    refine ⟨next.durableSequence, _, _, returns_withLock_iff.mpr
      ⟨hfree, n + 5, saved, ?_, rfl, rfl⟩⟩
    refine returns_bind_iff.mpr ⟨w.registry, n + 2, locked, returns_ask_iff.mpr ⟨rfl, rfl⟩, ?_⟩
    refine returns_bind_iff.mpr ⟨(), n + 2, locked,
      returns_checkIntent_iff.mpr ⟨hcheck, rfl, rfl⟩, ?_⟩
    refine returns_bind_iff.mpr ⟨resolved, n + 3, recorded,
      returns_recordAuthorization_iff.mpr ⟨call, next, hcall, hanswer, rfl, rfl⟩, ?_⟩
    refine returns_bind_iff.mpr ⟨(), n + 4, saved, returns_attempt_iff.mpr ⟨.ok (), ?_, rfl, rfl⟩, ?_⟩
    · unfold SignerWorld.respond
      dsimp only
      rw [hwritten]
      rfl
    · refine returns_bind_iff.mpr ⟨next, n + 5, saved, returns_ask_iff.mpr ⟨rfl, rfl⟩, ?_⟩
      exact returns_pure_iff.mpr ⟨rfl, rfl, rfl⟩

theorem authorizeSucceeds_iff [Sha256] [IntentEncoding D] :
    AuthorizeSucceeds thread environment deployment intent nowMs n w ↔
      ∃ account filledPositions,
        Admissible environment deployment intent nowMs n w account filledPositions := by
  unfold AuthorizeSucceeds authorize
  constructor
  · rintro ⟨sequence, m, w', hreturns⟩
    obtain ⟨hsubmission, k, v, hbody, -, -⟩ := returns_withLock_iff.mp hreturns
    obtain ⟨_, k, v, hsealed, hrest⟩ := returns_bind_iff.mp hbody
    obtain ⟨hcanonical, rfl, rfl⟩ := returns_fromResult_iff.mp hsealed
    obtain ⟨ready, k, v, hasked, hdeployed⟩ := returns_bind_iff.mp hrest
    obtain ⟨hasked, rfl⟩ := returns_ask_iff.mp hasked
    cases hasked
    split at hdeployed
    · exact (not_returns_throw hdeployed).elim
    rename_i hready
    rw [Bool.not_eq_true, Bool.not_eq_false'] at hready
    obtain ⟨_, k, v, hdeployment, hopen⟩ := returns_bind_iff.mp hdeployed
    obtain ⟨hmatches, rfl, rfl⟩ := returns_fromResult_iff.mp hdeployment
    obtain ⟨_, k, v, hlooked, hread⟩ := returns_bind_iff.mp hopen
    obtain ⟨hregistry, hblocked, rfl, rfl⟩ := returns_notBlocked_iff.mp hlooked
    obtain ⟨account, k, v, hsnapshots, hfill⟩ := returns_bind_iff.mp hread
    obtain ⟨haccount, rfl, rfl⟩ := returns_readAccount_iff.mp hsnapshots
    obtain ⟨filledPositions, k, v, hnotional, hlast⟩ := returns_bind_iff.mp hfill
    obtain ⟨hfilled, rfl, rfl⟩ := returns_fromResult_iff.mp hnotional
    obtain ⟨-, hchecked, hrecorded, hpersisted⟩ :=
      returns_checkAndRecord_iff.mp ⟨_, _, _, hlast⟩
    exact ⟨account, filledPositions, hsubmission, hregistry, hcanonical, hready, hmatches,
      hblocked, haccount, hfilled, hchecked, hrecorded, hpersisted⟩
  · rintro ⟨account, filledPositions, h⟩
    let locked := w.withHolder .submission (some thread)
    let unlocked : SignerWorld D := { locked with registryHolder := none }
    obtain ⟨sequence, m, w', hlast⟩ := (@returns_checkAndRecord_iff D _ thread (n + 7) nowMs environment unlocked
      intent _ _ account filledPositions).mpr
      ⟨rfl, h.checked, h.recorded, h.persisted⟩
    refine ⟨sequence, m + 1, _, returns_withLock_iff.mpr ⟨h.submissionFree, m, w', ?_, rfl, rfl⟩⟩
    refine returns_bind_iff.mpr ⟨(), n + 1, locked,
      returns_fromResult_iff.mpr ⟨h.canonical, rfl, rfl⟩, ?_⟩
    refine returns_bind_iff.mpr ⟨true, n + 2, locked, returns_ask_iff.mpr ⟨?_, rfl⟩, ?_⟩
    · show some (w.startupReconciled, locked) = some (true, locked)
      rw [h.ready]
    rw [if_neg (by decide)]
    refine returns_bind_iff.mpr ⟨(), n + 2, locked,
      returns_fromResult_iff.mpr ⟨h.deployed, rfl, rfl⟩, ?_⟩
    refine returns_bind_iff.mpr ⟨(), n + 5, unlocked,
      returns_notBlocked_iff.mpr ⟨h.registryFree, h.notBlocked, rfl, rfl⟩, ?_⟩
    refine returns_bind_iff.mpr ⟨account, n + 7, unlocked,
      returns_readAccount_iff.mpr ⟨h.read, rfl, rfl⟩, ?_⟩
    exact returns_bind_iff.mpr ⟨filledPositions, n + 7, unlocked,
      returns_fromResult_iff.mpr ⟨h.filled, rfl, rfl⟩, hlast⟩

end

section

variable [Sha256] {intent : AuthorizedExecutionIntent D} {context : PreSigningContext D}
  {registry : SubmissionRegistry D}

/-- The projection asks for the order of the intent: its side, and its quantity at the mark. -/
def RequiresOrder (intent : AuthorizedExecutionIntent D) (rules : MarketRules D)
    (projection : PortfolioProjection D) : Prop :=
  ∃ intended, Decimal.checkedMul intent.quantity rules.markPrice = some intended ∧
    (match intent.side with
      | .buy => Decimal.lt Decimal.zero (PortfolioRisk.valueAt projection.roundedDeltas intent.asset)
      | .sell => Decimal.lt (PortfolioRisk.valueAt projection.roundedDeltas intent.asset)
          Decimal.zero) = true ∧
    Decimal.eqv (Decimal.abs (PortfolioRisk.valueAt projection.roundedDeltas intent.asset)) intended =
      true

omit [Sha256] in
theorem checkRequiredDelta_eq_ok_iff {rules : MarketRules D} {projection : PortfolioProjection D} :
    checkRequiredDelta intent rules projection = .ok () ↔ RequiresOrder intent rules projection := by
  unfold checkRequiredDelta RequiresOrder PortfolioRisk.valueAt orFailure
  cases Decimal.checkedMul intent.quantity rules.markPrice with
  | none => simp [bind, Except.bind]
  | some intended =>
    simp only [ok_bind, Option.some.injEq, exists_eq_left']
    cases intent.side with
    | buy => exact refuse_eq_ok_iff.trans (by simp)
    | sell => exact refuse_eq_ok_iff.trans (by simp)

omit [Decimal D] [Sha256] in
theorem orFailure_eq_ok_iff {α : Type} {failure : AuthorizationFailure} {value : Option α} {a : α} :
    orFailure failure value = .ok a ↔ value = some a := by
  cases value with
  | none => simp [orFailure]
  | some b => simp [orFailure]

theorem validateAgainstProjection_eq_ok_iff :
    validateAgainstProjection intent context = .ok () ↔
      ∃ rules, context.projectionInput.marketRules[intent.asset]? = some rules ∧
        offGrid intent rules = .ok false ∧
        validatesRoundedOrder intent.quantity intent.limitPrice context.exchangeMinimumNotional =
          some true ∧
        ∃ projection,
          PortfolioRisk.projectAndValidatePortfolio context.projectionInput = .ok projection ∧
          deriveProjectionHash projection = some intent.projectedPortfolioHash ∧
          RequiresOrder intent rules projection := by
  unfold validateAgainstProjection
  rw [bind_eq_ok_iff]
  refine exists_congr fun rules => and_congr orFailure_eq_ok_iff ?_
  constructor
  · intro h
    obtain ⟨off, hoff, hminimum⟩ := of_bind h
    rw [refuse_eq_ok_iff, Bool.not_eq_true] at hminimum
    obtain ⟨rfl, hminimum⟩ := hminimum
    obtain ⟨meets, hmeets, hproject⟩ := of_bind hminimum
    rw [refuse_eq_ok_iff, Bool.not_eq_true, Bool.not_eq_false'] at hproject
    obtain ⟨rfl, hproject⟩ := hproject
    refine ⟨hoff, orFailure_eq_ok_iff.mp hmeets, ?_⟩
    split at hproject
    · cases hproject
    · rename_i projection hprojection
      obtain ⟨hash, hhash, hrequired⟩ := of_bind hproject
      rw [refuse_eq_ok_iff, Bool.not_eq_true, bne_eq_false_iff_eq] at hrequired
      exact ⟨projection, hprojection, hrequired.1 ▸ orFailure_eq_ok_iff.mp hhash,
        checkRequiredDelta_eq_ok_iff.mp hrequired.2⟩
  · rintro ⟨hoff, hmeets, projection, hprojection, hhash, hrequired⟩
    rw [hoff, ok_bind, refuse_eq_ok_iff, orFailure_eq_ok_iff.mpr hmeets, ok_bind, refuse_eq_ok_iff,
      hprojection]
    refine ⟨Bool.false_ne_true, Bool.false_ne_true,
      bind_eq_ok_iff.mpr ⟨_, orFailure_eq_ok_iff.mpr hhash, ?_⟩⟩
    rw [refuse_eq_ok_iff, Bool.not_eq_true]
    exact ⟨bne_self_eq_false _, checkRequiredDelta_eq_ok_iff.mpr hrequired⟩

def PassesFields [IntentEncoding D] (intent : AuthorizedExecutionIntent D)
    (context : PreSigningContext D) (registry : SubmissionRegistry D) : Prop :=
  context.nowMono ≤ intent.expiresAt ∧ intent.riskPolicyHash = context.deployedRiskPolicyHash ∧
    ((registry.state (toHex intent.plannedCloid)).any fun state =>
      !state.eqv .authorizedNotSubmitted) = false ∧
    (intent.reduceOnly = true ∨ registry.permitsIncrease intent.asset = true) ∧
    invalidIntentFields intent = false

theorem validateAuthorizedIntent_eq_ok_iff [IntentEncoding D] :
    validateAuthorizedIntent intent context registry = .ok () ↔
      intent.validateCanonical = .ok () ∧ PassesFields intent context registry ∧
        validateAgainstProjection intent context = .ok () := by
  unfold validateAuthorizedIntent PassesFields
  cases hcanonical : intent.validateCanonical with
  | error e => simp
  | ok u =>
    dsimp only
    rw [refuse_eq_ok_iff, refuse_eq_ok_iff, refuse_eq_ok_iff, refuse_eq_ok_iff, refuse_eq_ok_iff,
      not_lt, Bool.not_eq_true, bne_eq_false_iff_eq, Bool.not_eq_true, Bool.not_eq_true,
      Bool.and_eq_false_iff, Bool.not_eq_false', Bool.not_eq_false', Bool.not_eq_true,
      and_iff_right rfl]
    simp only [and_assoc]

end

structure RiskParameters (D : Type) where
  globalRiskScale : D
  maxSingleAssetEquityPct : D
  maxNetEquityPct : D
deriving DecidableEq

def parametersOf (input : PortfolioProjectionInput D) : RiskParameters D :=
  ⟨input.globalRiskScale, input.maxSingleAssetEquityPct, input.maxNetEquityPct⟩

def withParameters (input : PortfolioProjectionInput D) (parameters : RiskParameters D) :
    PortfolioProjectionInput D :=
  { input with
    globalRiskScale := parameters.globalRiskScale
    maxSingleAssetEquityPct := parameters.maxSingleAssetEquityPct
    maxNetEquityPct := parameters.maxNetEquityPct }

/-- The parameters are in the ranges the projector accepts. -/
def InLaunchRange (parameters : RiskParameters D) : Prop :=
  Decimal.le PortfolioRisk.minLaunchRiskScale parameters.globalRiskScale = true ∧
    Decimal.le parameters.globalRiskScale PortfolioRisk.maxLaunchRiskScale = true ∧
    Decimal.le Decimal.zero parameters.maxSingleAssetEquityPct = true ∧
    Decimal.le parameters.maxSingleAssetEquityPct Decimal.one = true ∧
    Decimal.le Decimal.zero parameters.maxNetEquityPct = true ∧
    Decimal.le parameters.maxNetEquityPct Decimal.one = true

/-- The intent with other parameters and another projection hash, not sealed yet. -/
def reparameterized (intent : AuthorizedExecutionIntent D) (parameters : RiskParameters D)
    (projectedPortfolioHash : Hash) : AuthorizedExecutionIntent D :=
  { intent with
    projectedPortfolioHash
    authorization := { intent.authorization with
      projectionInput := withParameters intent.authorization.projectionInput parameters } }

theorem isHashText_hex32 (hash : Hash) : ApprovedExecutionIntent.isHashText (hex32 hash) = true :=
  Bool.and_eq_true_iff.mpr (hasByteLength_hex32 hash)

section

variable {thread n nowMs : ℕ} {environment : ℕ → (op : SignerOp D) → op.Choice} {w : SignerWorld D}
  {deployment : Deployment} {intent tampered : AuthorizedExecutionIntent D}
  {parameters : RiskParameters D} {hash : Hash}

theorem inLaunchRange_of_projection {input : PortfolioProjectionInput D}
    {projection : PortfolioProjection D}
    (h : PortfolioRisk.projectAndValidatePortfolio input = .ok projection) :
    InLaunchRange (parametersOf input) := by
  unfold PortfolioRisk.projectAndValidatePortfolio at h
  obtain ⟨_, hvalid, -⟩ := of_bind h
  unfold PortfolioRisk.validateInput at hvalid
  rw [refuse_eq_ok_iff, refuse_eq_ok_iff, refuse_eq_ok_iff] at hvalid
  obtain ⟨-, -, hscale, hfields⟩ := hvalid
  obtain ⟨_, hfields, -⟩ := of_bind hfields
  rw [checkAll_eq_ok_iff] at hfields
  have hasset := hfields ("max_single_asset_equity_pct", input.maxSingleAssetEquityPct) (by simp)
  have hnet := hfields ("max_net_equity_pct", input.maxNetEquityPct) (by simp)
  rw [refuse_eq_ok_iff] at hasset hnet
  simp only [Bool.not_eq_true', Bool.not_eq_false, Bool.and_eq_true] at hscale hasset hnet
  exact ⟨hscale.1, hscale.2, hasset.1.1, hasset.1.2, hnet.1.1, hnet.1.2⟩

variable [Sha256] [IntentEncoding D]

omit [Decimal D] in
theorem sealed_eq_ok_iff : (reparameterized intent parameters hash).sealed = .ok tampered ↔
    ∃ canonicalHash,
      (reparameterized intent parameters hash).computeCanonicalHash = .ok canonicalHash ∧
        tampered = { reparameterized intent parameters hash with canonicalHash } := by
  unfold AuthorizedExecutionIntent.sealed
  rw [bind_eq_ok_iff]
  refine exists_congr fun canonicalHash => and_congr Iff.rfl ?_
  rw [pure_eq_ok_iff, eq_comm]

theorem validateCanonical_tampered (h : intent.validateCanonical = .ok ()) {canonicalHash : Hash}
    (hsealed : (reparameterized intent parameters hash).computeCanonicalHash = .ok canonicalHash) :
    AuthorizedExecutionIntent.validateCanonical
      { reparameterized intent parameters hash with canonicalHash } = .ok () := by
  unfold AuthorizedExecutionIntent.validateCanonical at h ⊢
  rw [refuse_eq_ok_iff, refuse_eq_ok_iff, refuse_eq_ok_iff] at h ⊢
  refine ⟨h.1, h.2.1, h.2.2.1, bind_eq_ok_iff.mpr ⟨canonicalHash, hsealed, ?_⟩⟩
  rw [refuse_eq_ok_iff, Bool.not_eq_true]
  exact ⟨bne_self_eq_false _, rfl⟩

omit [Sha256] [IntentEncoding D] in
theorem exists_register_of_register {registry next : SubmissionRegistry D}
    {first second : ApprovedExecutionIntent D} (h : registry.register first = .ok next)
    (hvalid : second.validate = .ok ()) (hcloid : second.cloid = first.cloid)
    (hreduceOnly : second.reduceOnly = first.reduceOnly) (hasset : second.asset = first.asset) :
    ∃ next, registry.register second = .ok next := by
  unfold SubmissionRegistry.register at h ⊢
  obtain ⟨_, -, hrest⟩ := of_bind h
  rw [hvalid, ok_bind, hcloid, hreduceOnly, hasset]
  split at hrest
  · cases hrest
  rename_i hfresh
  split at hrest
  · cases hrest
  rename_i hopen
  split at hrest
  · cases hrest
  rename_i hroom
  rw [if_neg hfresh, if_neg hopen, if_neg hroom]
  exact ⟨_, rfl⟩

omit [Decimal D] [Sha256] [IntentEncoding D] in
theorem durableIntent_tampered (canonicalHash : Hash) :
    durableIntent { reparameterized intent parameters hash with canonicalHash } =
      { durableIntent intent with
        riskProjectionHash := hex32 hash
        canonicalIntentHash := hex32 canonicalHash } := rfl

section

omit [Sha256] [IntentEncoding D]

theorem validate_withHashes {record : ApprovedExecutionIntent D} (h : record.validate = .ok ())
    (first second : Hash) :
    ApprovedExecutionIntent.validate
      { record with riskProjectionHash := hex32 first, canonicalIntentHash := hex32 second } =
        .ok () := by
  unfold ApprovedExecutionIntent.validate at h ⊢
  rw [refuse_eq_ok_iff, refuse_eq_ok_iff, refuse_eq_ok_iff] at h ⊢
  refine ⟨?_, h.2⟩
  have hfields := h.1
  simp only [Bool.or_eq_true, not_or, Bool.not_eq_true', Bool.not_eq_false] at hfields ⊢
  simp only [hfields, isHashText_hex32, Bool.false_eq_true, not_false_eq_true, and_self]

theorem eqv_withHashes_iff (parameters : RiskParameters D) (hash : Hash)
    {existing : ApprovedExecutionIntent D} (h : existing.eqv (durableIntent intent) = true) (canonicalHash : Hash) :
    existing.eqv (durableIntent { reparameterized intent parameters hash with canonicalHash }) =
        true ↔
      canonicalHash = intent.canonicalHash ∧ hash = intent.projectedPortfolioHash := by
  rw [durableIntent_tampered]
  unfold ApprovedExecutionIntent.eqv at h ⊢
  simp only [Bool.and_eq_true, beq_iff_eq] at h ⊢
  obtain ⟨⟨⟨⟨⟨⟨⟨⟨hfirst, hprojection⟩, hpolicy⟩, hconfiguration⟩, hrelease⟩, hreference⟩,
    hdecided⟩, hexpires⟩, hcanonical⟩ := h
  simp only [hfirst, hpolicy, hconfiguration, hrelease, hreference, hdecided, hexpires, hprojection,
    hcanonical, true_and, and_true, and_self]
  unfold durableIntent
  rw [hex32_inj, hex32_inj]
  exact ⟨fun hsame => ⟨hsame.2.symm, hsame.1.symm⟩, fun hsame => ⟨hsame.2.symm, hsame.1.symm⟩⟩

theorem answer_register {registry : SubmissionRegistry D} {record : ApprovedExecutionIntent D} :
    (∃ resolved next, registry.answer (.register record) = .ok (resolved, next)) ↔
      ∃ next, registry.register record = .ok next := by
  unfold SubmissionRegistry.answer
  dsimp only
  cases registry.register record with
  | error e => simp [Except.map]
  | ok next => simp [Except.map]

/-- Where the original is recorded, the other one is recorded exactly when the cloid is new or the
hashes are the same. -/
theorem recorded_tampered_iff (parameters : RiskParameters D) (hash canonicalHash : Hash)
    {registry : SubmissionRegistry D}
    (h : ∃ call resolved next, recordCall intent registry nowMs = .ok call ∧
      registry.answer call = .ok (resolved, next)) :
    (∃ call resolved next,
        recordCall { reparameterized intent parameters hash with canonicalHash } registry nowMs =
          .ok call ∧ registry.answer call = .ok (resolved, next)) ↔
      isAuthorizedNotSubmitted registry (toHex intent.plannedCloid) = false ∨
        canonicalHash = intent.canonicalHash ∧ hash = intent.projectedPortfolioHash := by
  obtain ⟨call, resolved, next, hcall, hanswer⟩ := h
  have hcloid : AuthorizedExecutionIntent.plannedCloid
      { reparameterized intent parameters hash with canonicalHash } = intent.plannedCloid := rfl
  unfold recordCall at hcall ⊢
  rw [hcloid]
  split at hcall
  · rename_i hleft
    rw [if_pos hleft]
    split at hcall
    · cases hcall
    rename_i hmatches
    rw [Except.ok.injEq] at hcall
    subst hcall
    rw [Bool.not_eq_true, Bool.not_eq_false', Option.any_eq_true] at hmatches
    obtain ⟨existing, hexisting, heqv⟩ := hmatches
    rw [hexisting, Option.any_some, hleft]
    have hsame := eqv_withHashes_iff parameters hash heqv canonicalHash
    simp only [Bool.true_eq_false, false_or]
    rw [← hsame]
    constructor
    · rintro ⟨call, _, _, hother, -⟩
      split at hother
      · cases hother
      · rename_i hagrees
        rwa [Bool.not_eq_true, Bool.not_eq_false'] at hagrees
    · intro hagrees
      rw [hagrees, if_neg (by decide)]
      exact ⟨_, resolved, next, rfl, hanswer⟩
  · rename_i hleft
    rw [if_neg hleft]
    rw [Except.ok.injEq] at hcall
    subst hcall
    obtain ⟨next, hregister⟩ := answer_register.mp ⟨resolved, next, hanswer⟩
    have hvalid : (durableIntent intent).validate = .ok () := by
      unfold SubmissionRegistry.register at hregister
      obtain ⟨_, hvalid, -⟩ := of_bind hregister
      exact hvalid
    refine iff_of_true ?_ (.inl (Bool.not_eq_true _ ▸ hleft))
    rw [durableIntent_tampered]
    obtain ⟨resolved, next, hother⟩ := answer_register.mpr (exists_register_of_register hregister
      (validate_withHashes hvalid hash canonicalHash) rfl rfl rfl)
    exact ⟨_, resolved, next, rfl, hother⟩

end

omit [IntentEncoding D] in
theorem validateAgainstProjection_tampered_iff {context : PreSigningContext D}
    (h : validateAgainstProjection intent context = .ok ()) (canonicalHash : Hash) :
    validateAgainstProjection { reparameterized intent parameters hash with canonicalHash }
        { context with projectionInput := withParameters context.projectionInput parameters } =
          .ok () ↔
      ∃ rules projection, context.projectionInput.marketRules[intent.asset]? = some rules ∧
        PortfolioRisk.projectAndValidatePortfolio
          (withParameters context.projectionInput parameters) = .ok projection ∧
        deriveProjectionHash projection = some hash ∧ RequiresOrder intent rules projection := by
  obtain ⟨rules, hrules, hoff, hminimum, -⟩ := validateAgainstProjection_eq_ok_iff.mp h
  refine validateAgainstProjection_eq_ok_iff.trans ?_
  constructor
  · rintro ⟨other, hother, -, -, projection, hprojection, hhash, hrequires⟩
    exact ⟨other, projection, hother, hprojection, hhash, hrequires⟩
  · rintro ⟨other, projection, hother, hprojection, hhash, hrequires⟩
    obtain rfl : rules = other := Option.some.inj (hrules.symm.trans hother)
    exact ⟨rules, hrules, hoff, hminimum, projection, hprojection, hhash, hrequires⟩

/-- **The parameters of an authorization.**  An accepted intent was projected with the parameters it
carries, which are in the accepted ranges.  The same intent with other parameters, sealed anew, is
accepted in its place exactly when its own projection asks for the same order. -/
theorem authorized_parameters
    (h : AuthorizeSucceeds thread environment deployment intent nowMs n w) :
    ∃ (account : AccountSnapshot D) (filledPositions : ExtTreeMap String D)
      (input : PortfolioProjectionInput D),
      input = rebuiltInput intent.authorization.projectionInput account.equity filledPositions
        w.registry ∧
      (∃ projection, PortfolioRisk.projectAndValidatePortfolio input = .ok projection ∧
        deriveProjectionHash projection = some intent.projectedPortfolioHash) ∧
      parametersOf input = parametersOf intent.authorization.projectionInput ∧
      InLaunchRange (parametersOf intent.authorization.projectionInput) ∧
      ∀ parameters hash tampered, (reparameterized intent parameters hash).sealed = .ok tampered →
        (AuthorizeSucceeds thread environment deployment tampered nowMs n w ↔
          (isAuthorizedNotSubmitted w.registry (toHex intent.plannedCloid) = false ∨
            tampered.canonicalHash = intent.canonicalHash ∧
              hash = intent.projectedPortfolioHash) ∧
          ∃ rules projection, input.marketRules[intent.asset]? = some rules ∧
            PortfolioRisk.projectAndValidatePortfolio (withParameters input parameters) =
              .ok projection ∧
            deriveProjectionHash projection = some hash ∧ RequiresOrder intent rules projection) := by
  obtain ⟨account, filledPositions, hadmissible⟩ := authorizeSucceeds_iff.mp h
  obtain ⟨hcanonical, hfields, hprojected⟩ :=
    validateAuthorizedIntent_eq_ok_iff.mp hadmissible.checked
  obtain ⟨rules, -, -, -, projection, hprojection, hhash, -⟩ :=
    validateAgainstProjection_eq_ok_iff.mp hprojected
  have hrange := inLaunchRange_of_projection hprojection
  refine ⟨account, filledPositions, _, rfl, ⟨projection, hprojection, hhash⟩, rfl, hrange, ?_⟩
  intro parameters hash tampered hsealed
  obtain ⟨canonicalHash, hcompute, rfl⟩ := sealed_eq_ok_iff.mp hsealed
  refine Iff.trans ?_ (and_congr
    (recorded_tampered_iff parameters hash canonicalHash hadmissible.recorded)
    (validateAgainstProjection_tampered_iff hprojected canonicalHash))
  refine authorizeSucceeds_iff.trans ?_
  constructor
  · rintro ⟨other, otherFilled, hother⟩
    obtain rfl := hother.read.unique hadmissible.read
    have hsame : otherFilled = filledPositions :=
      Except.ok.inj (hother.filled.symm.trans hadmissible.filled)
    subst hsame
    exact ⟨hother.recorded, (validateAuthorizedIntent_eq_ok_iff.mp hother.checked).2.2⟩
  · rintro ⟨hrecorded, hprojected⟩
    have hsealedAgain := validateCanonical_tampered hcanonical hcompute
    refine ⟨account, filledPositions, {
      submissionFree := hadmissible.submissionFree
      registryFree := hadmissible.registryFree
      canonical := ?_
      ready := hadmissible.ready
      deployed := hadmissible.deployed
      notBlocked := hadmissible.notBlocked
      read := hadmissible.read
      filled := hadmissible.filled
      checked := validateAuthorizedIntent_eq_ok_iff.mpr ⟨hsealedAgain, hfields, hprojected⟩
      recorded := hrecorded
      persisted := hadmissible.persisted }⟩
    unfold checkCanonical
    rw [hsealedAgain]

end

def scaleBytes (intent : AuthorizedExecutionIntent ℚ) : Except String (List UInt8) :=
  .ok (intent.plannedCloid.1 ++
    [UInt8.ofNat intent.authorization.projectionInput.globalRiskScale.den])

/-- The order for one BTC, sealed with a risk scale and the hash of its own projection. -/
def scaledOrder [Sha256] [IntentEncoding ℚ] (cloid : UInt8) (scale : ℚ) :
    AuthorizedExecutionIntent ℚ :=
  let input := { samplePortfolio with globalRiskScale := scale }
  let projectedPortfolioHash := ((PortfolioRisk.projectAndValidatePortfolio input).toOption.bind
    deriveProjectionHash).getD zeroHash
  let draft := { sampleEnvelope cloid with
    projectedPortfolioHash, authorization := ⟨1, zeroHash, input, 10⟩ }
  draft.sealed.toOption.getD draft

def reconciledRun : List (ProcessStep ℚ) :=
  .start 0 :: callAlone 0 (.reconcileStartup (LiveTradingState.starting 1000 0) 1 2 1000)

theorem reconciledRun_authorizes :
    ∃ (_ : Sha256) (_ : IntentEncoding ℚ), ∃ sequence m w',
      Returns 1 (fun _ => restingExchange) (authorize sampleDeployment (scaledOrder 1 (1 / 10)) 1) 0
        (worldAfter reconciledRun) sequence m w' ∧
      AuthorizeSucceeds 2 (fun _ => restingExchange) sampleDeployment (scaledOrder 2 (1 / 20)) 1 m
        w' ∧
      parametersOf (scaledOrder 1 (1 / 10)).authorization.projectionInput ≠
        parametersOf (scaledOrder 2 (1 / 20)).authorization.projectionInput := by
  let sha : Sha256 := ⟨foldDigest⟩
  let encoding : IntentEncoding ℚ := ⟨scaleBytes⟩
  refine ⟨sha, encoding, ?_⟩
  have hrun : (((authorize sampleDeployment (scaledOrder 1 (1 / 10)) 1).run.eval
        (SignerWorld.respond 1) (fun _ => restingExchange) 0 (worldAfter reconciledRun)).any
          fun first => first.1.toOption.isSome &&
            ((authorize sampleDeployment (scaledOrder 2 (1 / 20)) 1).run.eval
              (SignerWorld.respond 2) (fun _ => restingExchange) first.2.1 first.2.2).any
                fun second => second.1.toOption.isSome) = true := by
    decide +kernel
  have hscales : parametersOf (scaledOrder 1 (1 / 10)).authorization.projectionInput ≠
      parametersOf (scaledOrder 2 (1 / 20)).authorization.projectionInput := by
    decide +kernel
  obtain ⟨⟨result, m, w'⟩, heval, hboth⟩ := (Option.any_eq_true _ _).mp hrun
  obtain ⟨hfirst, hsecond⟩ := Bool.and_eq_true_iff.mp hboth
  cases result with
  | error e => cases hfirst
  | ok sequence => exact ⟨sequence, m, w', heval, exists_returns hsecond, hscales⟩

theorem authorized_parameters_sample :
    ∃ (_ : Sha256) (_ : IntentEncoding ℚ) (account : AccountSnapshot ℚ)
      (filledPositions : ExtTreeMap String ℚ),
      parametersOf (rebuiltInput (scaledOrder 1 (1 / 10)).authorization.projectionInput
          account.equity filledPositions (worldAfter reconciledRun).registry) =
        parametersOf (scaledOrder 1 (1 / 10)).authorization.projectionInput ∧
      InLaunchRange (parametersOf (scaledOrder 1 (1 / 10)).authorization.projectionInput) := by
  obtain ⟨sha, encoding, sequence, m, w', hfirst, -, -⟩ := reconciledRun_authorizes
  obtain ⟨account, filledPositions, _, rfl, -, hsame, hrange, -⟩ :=
    authorized_parameters ⟨sequence, m, w', hfirst⟩
  exact ⟨sha, encoding, account, filledPositions, hsame, hrange⟩

/-- One signer accepts two intents that were projected with different risk scales. -/
theorem risk_scale_not_enforced :
    ¬ ∀ [Sha256] [IntentEncoding ℚ] (steps : List (ProcessStep ℚ))
      (thread other n m nowMs sequence : ℕ) (environment : ℕ → (op : SignerOp ℚ) → op.Choice)
      (first second : AuthorizedExecutionIntent ℚ) (w' : SignerWorld ℚ),
      Returns thread environment (authorize sampleDeployment first nowMs) n (worldAfter steps)
        sequence m w' →
      AuthorizeSucceeds other environment sampleDeployment second nowMs m w' →
      parametersOf first.authorization.projectionInput =
        parametersOf second.authorization.projectionInput := by
  intro h
  obtain ⟨sha, encoding, sequence, m, w', hfirst, hsecond, hdiffer⟩ := reconciledRun_authorizes
  exact hdiffer (h reconciledRun 1 2 0 m 1 sequence _ _ _ w' hfirst hsecond)

end CopyTrade.Analysis
