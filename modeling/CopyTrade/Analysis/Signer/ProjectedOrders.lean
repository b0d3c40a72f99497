import CopyTrade.Analysis.Risk.TargetBounds
import CopyTrade.Analysis.Signer.RiskParameters

/-!
# The signer's check of the projector's own orders

The projector sizes a delta at the mark rounded to the tick against the order, and what it returns
is that many lots at that price.  The signer multiplies the lots by the mark itself and asks for the
same amount.  The two agree exactly where the mark is on the tick.
-/

namespace CopyTrade.Analysis

open Foundation Model Model.PortfolioRisk
open Model.ExactDecimal
open Std (ExtTreeMap ExtTreeSet)

/-- The order that the rounding of a delta has in mind: the rounded price, and the lots that the
delta holds at it. -/
structure OrderOf (rules : MarketRules ℚ) (proposed quantity price : ℚ) : Prop where
  rounded : roundedPrice proposed rules = .ok price
  lots : ∃ unrounded,
    PortfolioRisk.checkedDiv (Decimal.abs proposed) price "unrounded quantity" = .ok unrounded ∧
      roundDownToStep unrounded rules.sizeStep = .ok quantity

section

variable {rules : MarketRules ℚ} {proposed quantity price : ℚ}

theorem OrderOf.roundDelta_eq (h : OrderOf rules proposed quantity price) (hne : proposed ≠ 0) :
    roundDelta proposed rules =
      .ok (if 0 < proposed then quantity * price else -(quantity * price)) := by
  obtain ⟨hprice, unrounded, hunrounded, hquantity⟩ := h
  unfold roundedPrice at hprice
  unfold roundDelta
  rw [if_neg (mt (isZero_iff_eq_zero _).mp hne), hprice, ok_bind, hunrounded, ok_bind, hquantity,
    ok_bind, checkedMul_eq_ok, ok_bind]
  simp only [lt_iff_lt, zero_eq, neg_eq]
  rfl

theorem OrderOf.onGrid (h : OrderOf rules proposed quantity price) (htick : 0 < rules.priceTick)
    (hstep : 0 < rules.sizeStep) :
    (∃ lots : ℤ, quantity = lots * rules.sizeStep) ∧ ∃ ticks : ℤ, price = ticks * rules.priceTick := by
  obtain ⟨hprice, unrounded, -, hquantity⟩ := h
  rw [roundDownToStep_eq hstep.ne', Except.ok.injEq] at hquantity
  rw [roundedPrice_eq htick, Except.ok.injEq] at hprice
  refine ⟨⟨_, hquantity.symm⟩, ?_⟩
  unfold outwardMark at hprice
  split at hprice
  · exact ⟨_, hprice.symm⟩
  · exact ⟨_, hprice.symm⟩

theorem OrderOf.price_eq_mark_iff (h : OrderOf rules proposed quantity price)
    (htick : 0 < rules.priceTick) :
    price = rules.markPrice ↔ ∃ ticks : ℤ, rules.markPrice = ticks * rules.priceTick := by
  have hprice := h.rounded
  rw [roundedPrice_eq htick, Except.ok.injEq] at hprice
  rw [← hprice]
  constructor
  · intro heq
    unfold outwardMark at heq
    split at heq
    · exact ⟨_, heq.symm⟩
    · exact ⟨_, heq.symm⟩
  · rintro ⟨ticks, hticks⟩
    have hunits : rules.markPrice / rules.priceTick = ticks := by
      rw [hticks, mul_div_cancel_right₀ _ htick.ne']
    unfold outwardMark
    rw [hunits, Int.ceil_intCast, Int.floor_intCast, ite_self]
    exact hticks.symm

theorem leavesRemainder_of_multiple {step : ℚ} (hstep : 0 < step) (units : ℤ) :
    leavesRemainder (units * step) step = .ok false := by
  have hquotient : units * step / step = units := mul_div_cancel_right₀ _ hstep.ne'
  have hremainder : Decimal.checkedRem (units * step) step = some (0 : ℚ) := by
    show (if step = 0 then none else some (units * step - step *
      (if 0 ≤ units * step / step then ⌊units * step / step⌋ else ⌈units * step / step⌉ : ℤ))) = _
    rw [if_neg hstep.ne', hquotient, Int.floor_intCast, Int.ceil_intCast, ite_self, mul_comm step,
      sub_self]
  unfold leavesRemainder
  rw [hremainder]
  rfl

end

/-- A canonical intent in time, with the hashes of its context and of its projection, whose cloid was
not submitted, for the order of a rounded delta that is not zero and reaches the minimum. -/
structure ProjectorsOrder [Sha256] [IntentEncoding ℚ] (intent : AuthorizedExecutionIntent ℚ)
    (context : PreSigningContext ℚ) (registry : SubmissionRegistry ℚ)
    (projection : PortfolioProjection ℚ) (rules : MarketRules ℚ) : Prop where
  projected : projectAndValidatePortfolio context.projectionInput = .ok projection
  market : context.projectionInput.marketRules[intent.asset]? = some rules
  asked : valueAt projection.roundedDeltas intent.asset ≠ 0
  minimum : context.exchangeMinimumNotional ≤ |valueAt projection.roundedDeltas intent.asset|
  canonical : intent.validateCanonical = .ok ()
  unexpired : context.nowMono ≤ intent.expiresAt
  policy : intent.riskPolicyHash = context.deployedRiskPolicyHash
  projectionHash : deriveProjectionHash projection = some intent.projectedPortfolioHash
  notDuplicate : ((registry.state (toHex intent.plannedCloid)).any fun state =>
    !state.eqv .authorizedNotSubmitted) = false
  side : intent.side = if 0 < valueAt projection.roundedDeltas intent.asset then .buy else .sell
  order : OrderOf rules (valueAt projection.proposedDeltas intent.asset) intent.quantity
    intent.limitPrice

/-- The signer takes such an intent at all: it names an asset, that is not blocked unless the order
only reduces, and a parent exactly when it is a continuation. -/
def TakenBySigner (intent : AuthorizedExecutionIntent ℚ) (registry : SubmissionRegistry ℚ) : Prop :=
  intent.asset ≠ "" ∧
    (intent.reduceOnly = true ∨ registry.permitsIncrease intent.asset = true) ∧
    (intent.continuationGeneration = 0 ↔ intent.parentCloid = none)

section

variable [Sha256] [IntentEncoding ℚ] {intent : AuthorizedExecutionIntent ℚ}
  {context : PreSigningContext ℚ} {registry : SubmissionRegistry ℚ}
  {projection : PortfolioProjection ℚ} {rules : MarketRules ℚ}

theorem positive_of_validateCanonical (h : intent.validateCanonical = .ok ()) :
    0 < intent.quantity ∧ 0 < intent.limitPrice ∧ 0 < intent.decisionReferencePrice := by
  unfold AuthorizedExecutionIntent.validateCanonical at h
  rw [refuse_eq_ok_iff, refuse_eq_ok_iff, refuse_eq_ok_iff] at h
  obtain ⟨-, -, hfields, -⟩ := h
  simp only [Bool.or_eq_true, not_or, le_iff_le, zero_eq, not_le] at hfields
  exact ⟨hfields.1.1.1, hfields.1.1.2, hfields.1.2⟩

theorem ProjectorsOrder.mem_assets (h : ProjectorsOrder intent context registry projection rules) :
    intent.asset ∈ portfolioAssets context.projectionInput := by
  by_contra hout
  apply h.asked
  have hwithin := (projectAndValidatePortfolio_eq_ok h.projected).2.1 intent.asset hout
  unfold valueAt
  rw [hwithin, Option.getD_none, zero_eq]

theorem ProjectorsOrder.positiveRules
    (h : ProjectorsOrder intent context registry projection rules) :
    0 < rules.markPrice ∧ 0 < rules.priceTick ∧ 0 < rules.sizeStep := by
  have hvalid := validInput_of_validateInput (projectAndValidatePortfolio_eq_ok h.projected).1
  obtain ⟨found, hget, hpositive⟩ := hvalid.rules _ (mem_assetsOf.mpr h.mem_assets)
  rw [h.market, Option.some.injEq] at hget
  subst hget
  exact hpositive

theorem ProjectorsOrder.delta_eq (h : ProjectorsOrder intent context registry projection rules) :
    valueAt projection.roundedDeltas intent.asset =
      if 0 < valueAt projection.proposedDeltas intent.asset then
        intent.quantity * intent.limitPrice
      else -(intent.quantity * intent.limitPrice) := by
  obtain ⟨openByAsset, initial, ranges, metrics, hparts⟩ :=
    projectAndValidatePortfolio_parts h.projected
  obtain ⟨delta, rounded, hdelta, hproposed, -, hreturned⟩ := hparts.roundedDelta_eq_or h.mem_assets
  have hrounded : roundDelta delta rules = .ok rounded := by
    unfold assetDelta at hdelta
    simp only [checkedSub_eq_ok, ok_bind, h.market] at hdelta
    obtain ⟨value, hvalue, hdelta⟩ := of_bind hdelta
    rw [pure_eq_ok_iff, Prod.mk.injEq] at hdelta
    rw [← hdelta.1, ← hdelta.2]
    exact hvalue
  have hvalue : valueAt projection.roundedDeltas intent.asset = rounded :=
    hreturned.resolve_right h.asked
  have hne : delta ≠ 0 := by
    rintro rfl
    apply h.asked
    unfold roundDelta at hrounded
    rw [if_pos ((isZero_iff_eq_zero _).mpr rfl), Except.ok.injEq, zero_eq] at hrounded
    rw [hvalue, ← hrounded]
  have horder := h.order
  rw [hproposed] at horder ⊢
  rw [horder.roundDelta_eq hne, Except.ok.injEq] at hrounded
  rw [hvalue, ← hrounded]

theorem ProjectorsOrder.abs_delta_eq
    (h : ProjectorsOrder intent context registry projection rules) :
    |valueAt projection.roundedDeltas intent.asset| = intent.quantity * intent.limitPrice := by
  obtain ⟨hquantity, hprice, -⟩ := positive_of_validateCanonical h.canonical
  have hnotional := mul_pos hquantity hprice
  rw [h.delta_eq]
  split
  · exact abs_of_pos hnotional
  · rw [abs_neg, abs_of_pos hnotional]

theorem ProjectorsOrder.passesFields_iff
    (h : ProjectorsOrder intent context registry projection rules) :
    PassesFields intent context registry ↔ TakenBySigner intent registry := by
  obtain ⟨hquantity, hprice, hreference⟩ := positive_of_validateCanonical h.canonical
  have hfields : invalidIntentFields intent = false ↔
      intent.asset ≠ "" ∧ (intent.continuationGeneration = 0 ↔ intent.parentCloid = none) := by
    have hpositive {amount : ℚ} (hamount : 0 < amount) : Decimal.le amount Decimal.zero = false := by
      rw [← Bool.not_eq_true, le_iff_le, zero_eq]
      exact not_le.mpr hamount
    unfold invalidIntentFields
    rw [hpositive hquantity, hpositive hprice, hpositive hreference]
    cases intent.parentCloid with
    | none => simp
    | some cloid => simp
  unfold PassesFields TakenBySigner
  rw [hfields]
  constructor
  · rintro ⟨-, -, -, hpermitted, hasset, hparent⟩
    exact ⟨hasset, hpermitted, hparent⟩
  · rintro ⟨hasset, hpermitted, hparent⟩
    exact ⟨h.unexpired, h.policy, h.notDuplicate, hpermitted, hasset, hparent⟩

theorem ProjectorsOrder.requiresOrder_iff
    (h : ProjectorsOrder intent context registry projection rules) (htick : 0 < rules.priceTick) :
    RequiresOrder intent rules projection ↔
      ∃ ticks : ℤ, rules.markPrice = ticks * rules.priceTick := by
  obtain ⟨hquantity, hprice, -⟩ := positive_of_validateCanonical h.canonical
  have hmagnitude := h.abs_delta_eq
  rw [← h.order.price_eq_mark_iff htick]
  unfold RequiresOrder
  simp only [checkedMul_eq, Option.some.injEq, exists_eq_left', eqv_iff_eq, ExactDecimal.abs_eq,
    hmagnitude, h.side]
  have hnotionals : intent.quantity * intent.limitPrice = intent.quantity * rules.markPrice ↔
      intent.limitPrice = rules.markPrice := mul_right_inj' hquantity.ne'
  by_cases hbuys : 0 < valueAt projection.roundedDeltas intent.asset
  · rw [if_pos hbuys]
    simp only [lt_iff_lt, zero_eq, hbuys, true_and, hnotionals]
  · have hsells := lt_of_le_of_ne (not_lt.mp hbuys) h.asked
    rw [if_neg hbuys]
    simp only [lt_iff_lt, zero_eq, hsells, true_and, hnotionals]

/-- **The signer accepts the projector's own orders where the mark is on the tick.** -/
theorem signer_accepts_iff (h : ProjectorsOrder intent context registry projection rules) :
    validateAuthorizedIntent intent context registry = .ok () ↔
      TakenBySigner intent registry ∧
        ∃ ticks : ℤ, rules.markPrice = ticks * rules.priceTick := by
  obtain ⟨hquantity, hprice, -⟩ := positive_of_validateCanonical h.canonical
  obtain ⟨hmark, htick, hstep⟩ := h.positiveRules
  obtain ⟨⟨lots, hlots⟩, ticks, hticks⟩ := h.order.onGrid htick hstep
  have hgrid : offGrid intent rules = .ok false := by
    unfold offGrid
    rw [hlots, hticks, leavesRemainder_of_multiple hstep, ok_bind, if_neg Bool.false_ne_true,
      leavesRemainder_of_multiple htick]
  have hminimum : validatesRoundedOrder intent.quantity intent.limitPrice
      context.exchangeMinimumNotional = some true := by
    have hreached := h.minimum
    rw [h.abs_delta_eq] at hreached
    unfold validatesRoundedOrder
    rw [if_neg]
    · simp [hreached]
    · simp [hquantity.le, hprice]
  rw [validateAuthorizedIntent_eq_ok_iff, validateAgainstProjection_eq_ok_iff,
    h.passesFields_iff, ← h.requiresOrder_iff htick]
  constructor
  · rintro ⟨-, htaken, rules', hrules, -, -, projection', hprojection, -, hrequires⟩
    rw [h.market, Option.some.injEq] at hrules
    rw [h.projected, Except.ok.injEq] at hprojection
    subst hrules hprojection
    exact ⟨htaken, hrequires⟩
  · rintro ⟨htaken, hrequires⟩
    exact ⟨h.canonical, htaken, rules, h.market, hgrid, hminimum, projection, h.projected,
      h.projectionHash, hrequires⟩

end

/-- A portfolio that wants 100 USDC of BTC, with a tick of 1 and this mark. -/
def markedPortfolio (mark : ℚ) : PortfolioProjectionInput ℚ :=
  { samplePortfolio with marketRules := ExtTreeMap.ofList [("BTC", ⟨mark, 1, 1⟩)] compare }

def draftOrder (mark : ℚ) (projectedPortfolioHash canonicalHash : Hash) :
    AuthorizedExecutionIntent ℚ :=
  { sampleEnvelope 1 with
    projectedPortfolioHash
    authorization := ⟨1, zeroHash, markedPortfolio mark, 10⟩
    canonicalHash }

/-- The order for one BTC at 100, sealed with the hash of the projection at a mark. -/
def markedOrder [Sha256] [IntentEncoding ℚ] (mark : ℚ) : AuthorizedExecutionIntent ℚ :=
  let projectedPortfolioHash := ((projectAndValidatePortfolio (markedPortfolio mark)).toOption.bind
    deriveProjectionHash).getD zeroHash
  let draft := draftOrder mark projectedPortfolioHash zeroHash
  draft.sealed.toOption.getD draft

def asksOneLot [Sha256] [IntentEncoding ℚ] (mark : ℚ) : Bool :=
  (projectAndValidatePortfolio (markedPortfolio mark)).toOption.any fun projection =>
    decide (valueAt projection.roundedDeltas "BTC" = 100 ∧
      valueAt projection.proposedDeltas "BTC" = 100 ∧
      deriveProjectionHash projection = some (markedOrder mark).projectedPortfolioHash) &&
    (markedOrder mark).validateCanonical.toOption.isSome

section

variable [Sha256] [IntentEncoding ℚ] {mark : ℚ}

theorem markedOrder_eq (mark : ℚ) : ∃ projectedPortfolioHash canonicalHash,
    markedOrder mark = draftOrder mark projectedPortfolioHash canonicalHash := by
  unfold markedOrder
  dsimp only
  generalize ((projectAndValidatePortfolio (markedPortfolio mark)).toOption.bind
    deriveProjectionHash).getD zeroHash = projectedPortfolioHash
  refine ⟨projectedPortfolioHash, ?_⟩
  unfold AuthorizedExecutionIntent.sealed
  cases (draftOrder mark projectedPortfolioHash zeroHash).computeCanonicalHash with
  | error e => exact ⟨zeroHash, rfl⟩
  | ok hash => exact ⟨hash, rfl⟩

theorem projectorsOrder_marked (h : asksOneLot mark = true) (hlow : 99 < mark) (hhigh : mark ≤ 100) :
    ∃ projection, ProjectorsOrder (markedOrder mark) ⟨1, zeroHash, markedPortfolio mark, 10⟩
        (SubmissionRegistry.empty 1) projection ⟨mark, 1, 1⟩ ∧
      TakenBySigner (markedOrder mark) (SubmissionRegistry.empty 1) := by
  unfold asksOneLot at h
  obtain ⟨projection, hprojection, hasks⟩ := (Option.any_eq_true _ _).mp h
  rw [Bool.and_eq_true, decide_eq_true_eq] at hasks
  obtain ⟨⟨hrounded, hproposed, hhash⟩, hcanonical⟩ := hasks
  have hprojected : projectAndValidatePortfolio (markedPortfolio mark) = .ok projection := by
    cases hresult : projectAndValidatePortfolio (markedPortfolio mark) with
    | error violation =>
      rw [hresult] at hprojection
      cases hprojection
    | ok value =>
      rw [hresult] at hprojection
      cases hprojection
      rfl
  have hcanonical : (markedOrder mark).validateCanonical = .ok () := by
    cases hresult : (markedOrder mark).validateCanonical with
    | error e =>
      rw [hresult] at hcanonical
      cases hcanonical
    | ok _ => rfl
  have hceil : ⌈mark / 1⌉ = (100 : ℤ) := by
    rw [div_one, Int.ceil_eq_iff]
    norm_num
    exact ⟨hlow, hhigh⟩
  have hprice : roundedPrice (100 : ℚ) (⟨mark, 1, 1⟩ : MarketRules ℚ) = .ok 100 := by
    rw [roundedPrice_eq (by norm_num)]
    unfold outwardMark
    rw [decide_eq_true (by norm_num), if_pos rfl]
    rw [hceil]
    norm_num
  have horder : OrderOf (⟨mark, 1, 1⟩ : MarketRules ℚ) 100 1 100 := by
    refine ⟨hprice, 1, ?_, ?_⟩
    · unfold PortfolioRisk.checkedDiv
      rw [ExactDecimal.abs_eq, checkedDiv_eq (by norm_num)]
      norm_num
    · rw [roundDownToStep_eq (by norm_num)]
      norm_num
  obtain ⟨projectedPortfolioHash, canonicalHash, hmarked⟩ := markedOrder_eq mark
  have hasset : (markedOrder mark).asset = "BTC" := by
    rw [hmarked]
    rfl
  have hunknown : (SubmissionRegistry.empty 1 : SubmissionRegistry ℚ).state
      (toHex (markedOrder mark).plannedCloid) = none := by
    unfold SubmissionRegistry.state SubmissionRegistry.empty
    rw [ExtTreeMap.getElem?_empty, Option.map_none]
  refine ⟨projection, ?_, ?_⟩
  · exact {
      projected := hprojected
      market := by
        rw [hasset]
        rfl
      asked := by
        rw [hasset, hrounded]
        norm_num
      minimum := by
        rw [hasset, hrounded]
        norm_num
      canonical := hcanonical
      unexpired := by
        rw [hmarked]
        exact Nat.le_of_ble_eq_true rfl
      policy := by
        rw [hmarked]
        rfl
      projectionHash := hhash
      notDuplicate := by
        rw [hunknown, Option.any_none]
      side := by
        rw [hasset, hrounded, if_pos (by norm_num), hmarked]
        rfl
      order := by
        rw [hasset, hproposed, hmarked]
        exact horder }
  · refine ⟨?_, .inr ?_, ?_⟩
    · rw [hasset]
      decide
    · unfold SubmissionRegistry.permitsIncrease SubmissionRegistry.empty
      rw [Bool.not_eq_true']
      exact ExtTreeSet.contains_empty
    · rw [hmarked]
      exact iff_of_true rfl rfl

end

theorem signer_accepts_iff_onTick :
    ∃ (_ : Sha256) (_ : IntentEncoding ℚ),
      validateAuthorizedIntent (markedOrder 100) ⟨1, zeroHash, markedPortfolio 100, 10⟩
        (SubmissionRegistry.empty 1) = .ok () := by
  let sha : Sha256 := ⟨foldDigest⟩
  let encoding : IntentEncoding ℚ := ⟨scaleBytes⟩
  refine ⟨sha, encoding, ?_⟩
  have hasks : asksOneLot (100 : ℚ) = true := by decide +kernel
  obtain ⟨projection, horder, htaken⟩ := projectorsOrder_marked hasks (by norm_num) (by norm_num)
  exact (signer_accepts_iff horder).mpr ⟨htaken, 100, by norm_num⟩

/-- At a mark of 99.5 the projector asks for one lot at 100, and the signer refuses it. -/
theorem signer_refuses_off_tick :
    ¬ ∀ [Sha256] [IntentEncoding ℚ] (intent : AuthorizedExecutionIntent ℚ)
      (context : PreSigningContext ℚ) (registry : SubmissionRegistry ℚ)
      (projection : PortfolioProjection ℚ) (rules : MarketRules ℚ),
      ProjectorsOrder intent context registry projection rules → TakenBySigner intent registry →
        validateAuthorizedIntent intent context registry = .ok () := by
  intro h
  let sha : Sha256 := ⟨foldDigest⟩
  let encoding : IntentEncoding ℚ := ⟨scaleBytes⟩
  have hasks : asksOneLot (199 / 2 : ℚ) = true := by decide +kernel
  obtain ⟨projection, horder, htaken⟩ := projectorsOrder_marked hasks (by norm_num) (by norm_num)
  have haccepted := h _ _ _ _ _ horder htaken
  have hrefused : (validateAuthorizedIntent (markedOrder (199 / 2))
      ⟨1, zeroHash, markedPortfolio (199 / 2), 10⟩ (SubmissionRegistry.empty 1)).isOk = false := by
    decide +kernel
  rw [haccepted] at hrefused
  cases hrefused

end CopyTrade.Analysis
