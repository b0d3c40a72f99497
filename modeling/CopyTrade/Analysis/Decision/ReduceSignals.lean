import CopyTrade.Analysis.Observer.CandleStore
import CopyTrade.Foundation.Results
import CopyTrade.Model.Core.Technical

/-!
# The bands of a score

Under a long score a raw score leaves zero, the flatten threshold, the reduce threshold, the score
stored before or itself; under a short score the same with the signs changed.  What is left falls
with the raw score in two places only (`hysteresis_monotone_iff`).  A
reduce signal on the side of the score stored before stores the reduce threshold, whatever the bands
have left, and this may raise the score (`reduce_signals_iff`).
-/

namespace CopyTrade.Analysis

open Foundation Model Model.Technical
open Std (ExtTreeMap)

section

theorem signum_of_pos {score : ℚ} (h : 0 < score) : signum score = 1 := by
  unfold signum
  rw [if_neg h.ne', if_pos h]

theorem signum_of_neg {score : ℚ} (h : score < 0) : signum score = -1 := by
  unfold signum
  rw [if_neg h.ne, if_neg h.le.not_gt]

@[simp] theorem signum_zero : signum 0 = 0 := if_pos rfl

theorem signum_neg (score : ℚ) : signum (-score) = -signum score := by
  rcases lt_trichotomy score 0 with hneg | rfl | hpos
  · rw [signum_of_neg hneg, signum_of_pos (neg_pos.mpr hneg), neg_neg]
  · simp
  · rw [signum_of_pos hpos, signum_of_neg (neg_neg_iff_pos.mpr hpos)]

/-- The thresholds of an accepted configuration are in order. -/
structure ThresholdsOrdered (config : TechnicalStrategyConfig) : Prop where
  flatten_nonneg : 0 ≤ config.flattenThreshold
  flatten_lt : config.flattenThreshold < config.reduceThreshold
  reduce_lt : config.reduceThreshold < config.maintainThreshold
  maintain_lt : config.maintainThreshold < config.enterThreshold

theorem thresholdsOrdered_of_validate {config : TechnicalStrategyConfig}
    (h : config.validate = .ok ()) : ThresholdsOrdered config := by
  unfold TechnicalStrategyConfig.validate at h
  split at h
  · cases h
  rename_i hvalid
  simp only [not_or, not_not] at hvalid
  obtain ⟨-, -, -, -, -, -, -, -, hflatten, ⟨hmaintain, hreduce, hlower⟩, -⟩ := hvalid
  exact ⟨hflatten.1, hlower, hreduce, hmaintain⟩

section

variable {config : TechnicalStrategyConfig} {confirmed : Option ℚ} {current candidate : ℚ}

theorem bandedScore_neg (config : TechnicalStrategyConfig) (confirmed : Option ℚ)
    (current candidate : ℚ) :
    bandedScore config (confirmed.map Neg.neg) (-current) (-candidate) =
      -bandedScore config confirmed current candidate := by
  have hconfirmed : confirmed.map Neg.neg = some (-signum candidate) ↔
      confirmed = some (signum candidate) := by
    cases confirmed with
    | none => simp
    | some direction => simp
  unfold bandedScore
  simp only [signum_neg, abs_neg, neg_eq_zero, ne_eq, neg_inj, hconfirmed]
  split
  · split
    · rw [neg_zero]
    · rfl
  · split
    · split
      · rw [neg_zero]
      · split
        · rw [neg_mul]
        · split
          · rfl
          · rfl
    · split
      · rw [neg_zero]
      · rfl

theorem bandedScore_long (hcurrent : 0 < current) (hcandidate : 0 < candidate) :
    bandedScore config confirmed current candidate =
      if candidate < config.flattenThreshold then 0
      else if candidate < config.reduceThreshold then config.flattenThreshold
      else if candidate < config.maintainThreshold then current
      else candidate := by
  unfold bandedScore
  rw [signum_of_pos hcurrent, signum_of_pos hcandidate, abs_of_pos hcandidate, one_mul,
    if_neg (by simp [hcurrent.ne']), if_pos rfl]

theorem bandedScore_opposite (hcurrent : 0 ≤ current) (hcandidate : candidate < 0) :
    bandedScore config confirmed current candidate =
      if |candidate| < config.enterThreshold ∨ confirmed ≠ some (-1) then 0 else candidate := by
  have hnew : current = 0 ∨ (signum current ≠ signum candidate ∧ candidate ≠ 0) := by
    rcases hcurrent.eq_or_lt with hzero | hpos
    · exact .inl hzero.symm
    · right
      rw [signum_of_pos hpos, signum_of_neg hcandidate]
      exact ⟨by norm_num, hcandidate.ne⟩
  unfold bandedScore
  rw [if_pos hnew, signum_of_neg hcandidate]

theorem bandedScore_opposite_nonpos (hcurrent : 0 ≤ current) (hcandidate : candidate < 0) :
    bandedScore config confirmed current candidate ≤ 0 := by
  rw [bandedScore_opposite hcurrent hcandidate]
  split
  · exact le_rfl
  · exact hcandidate.le

/-- Under a long score, the two places where what is left falls. -/
def Falls (config : TechnicalStrategyConfig) (current low high : ℚ) : Prop :=
  (config.reduceThreshold ≤ low ∧ low < config.maintainThreshold ∧
    config.maintainThreshold ≤ high ∧ high < current) ∨
  (config.flattenThreshold ≤ low ∧ low < config.reduceThreshold ∧
    config.reduceThreshold ≤ high ∧ high < config.maintainThreshold ∧
      current < config.flattenThreshold)

theorem bandedScore_long_le_iff (h : ThresholdsOrdered config) (hcurrent : 0 < current)
    {low high : ℚ} (hle : low ≤ high) (hlow : low ≠ 0) (hhigh : high ≠ 0) :
    bandedScore config confirmed current low ≤ bandedScore config confirmed current high ↔
      ¬ Falls config current low high := by
  have hflatten := h.flatten_nonneg
  have hreduce := h.flatten_lt
  unfold Falls
  rcases lt_or_gt_of_ne hhigh with hhigh | hhigh
  · have hlow : low < 0 := hle.trans_lt hhigh
    refine iff_of_true ?_ (by rintro (hfall | hfall) <;> linarith [hfall.1])
    rw [bandedScore_opposite hcurrent.le hlow, bandedScore_opposite hcurrent.le hhigh,
      abs_of_neg hlow, abs_of_neg hhigh]
    split
    · rename_i hnone
      split
      · exact le_rfl
      · rename_i hsome
        rcases hnone with hsmall | hother
        · rw [not_or, not_lt] at hsome
          linarith [hsome.1]
        · exact absurd (.inr hother) hsome
    · split
      · exact hlow.le
      · exact hle
  · rw [bandedScore_long hcurrent hhigh]
    rcases lt_or_gt_of_ne hlow with hlow | hlow
    · refine iff_of_true ?_ (by rintro (hfall | hfall) <;> linarith [hfall.1])
      refine (bandedScore_opposite_nonpos hcurrent.le hlow).trans ?_
      split
      · exact le_rfl
      · split
        · exact hflatten
        · split
          · exact hcurrent.le
          · exact hhigh.le
    · rw [bandedScore_long hcurrent hlow]
      constructor
      · rintro hbands (⟨hlow, hlow', hhigh, hhigh'⟩ | ⟨hlow, hlow', hhigh, hhigh', hsmall⟩)
        · rw [if_neg (by linarith), if_neg (by linarith), if_pos hlow', if_neg (by linarith),
            if_neg (by linarith), if_neg (by linarith)] at hbands
          linarith
        · rw [if_neg (by linarith), if_pos hlow', if_neg (by linarith), if_neg (by linarith),
            if_pos hhigh'] at hbands
          linarith
      · intro hfalls
        rw [not_or] at hfalls
        obtain ⟨hkept, hflattened⟩ := hfalls
        split_ifs with h1 h2 h3 h4 h5 h6 h7 h8 h9 h10 h11 h12
        all_goals first
          | linarith
          | skip
        · by_contra hlt
          exact hflattened ⟨by linarith, by linarith, by linarith, by linarith, by linarith⟩
        · by_contra hlt
          exact hkept ⟨by linarith, by linarith, by linarith, by linarith⟩

theorem bandedScore_none_le (h : ThresholdsOrdered config) {low high : ℚ} (hle : low ≤ high) :
    bandedScore config confirmed 0 low ≤ bandedScore config confirmed 0 high := by
  have henter : 0 < config.enterThreshold := by
    linarith [h.flatten_nonneg, h.flatten_lt, h.reduce_lt, h.maintain_lt]
  have hnew : ∀ candidate, bandedScore config confirmed 0 candidate =
      if |candidate| < config.enterThreshold ∨ confirmed ≠ some (signum candidate) then 0
      else candidate := fun candidate => if_pos (.inl rfl)
  have hsign : ∀ candidate, ¬ (|candidate| < config.enterThreshold ∨
      confirmed ≠ some (signum candidate)) →
        config.enterThreshold ≤ |candidate| ∧ confirmed = some (signum candidate) := by
    intro candidate hentered
    rw [not_or, not_lt, not_not] at hentered
    exact hentered
  rw [hnew, hnew]
  split_ifs with hlow hhigh hhigh
  · exact le_rfl
  · -- a long score is entered above a raw score that leaves none
    obtain ⟨hlarge, hconfirmed⟩ := hsign high hhigh
    rcases lt_trichotomy high 0 with hneg | rfl | hpos
    · exfalso
      refine absurd hlow (not_or.mpr ⟨?_, ?_⟩)
      · rw [abs_of_neg hneg] at hlarge
        rw [abs_of_neg (hle.trans_lt hneg)]
        linarith
      · rw [not_not, hconfirmed, signum_of_neg hneg, signum_of_neg (hle.trans_lt hneg)]
    · exact le_rfl
    · exact hpos.le
  · obtain ⟨hlarge, hconfirmed⟩ := hsign low hlow
    rcases lt_trichotomy low 0 with hneg | rfl | hpos
    · exact hneg.le
    · exact le_rfl
    · exfalso
      refine absurd hhigh (not_or.mpr ⟨?_, ?_⟩)
      · rw [abs_of_pos hpos] at hlarge
        rw [abs_of_pos (hpos.trans_le hle)]
        linarith
      · rw [not_not, hconfirmed, signum_of_pos hpos, signum_of_pos (hpos.trans_le hle)]
  · exact hle

/-- The two places where what is left falls, for a long and for a short score. -/
def FallsAround (config : TechnicalStrategyConfig) (current low high : ℚ) : Prop :=
  (0 < current ∧ Falls config current low high) ∨
    (current < 0 ∧ Falls config (-current) (-high) (-low))

theorem bandedScore_le_iff (h : ThresholdsOrdered config) {low high : ℚ} (hle : low ≤ high)
    (hnonzero : current = 0 ∨ (low ≠ 0 ∧ high ≠ 0)) :
    bandedScore config confirmed current low ≤ bandedScore config confirmed current high ↔
      ¬ FallsAround config current low high := by
  unfold FallsAround
  rcases lt_trichotomy current 0 with hneg | rfl | hpos
  · have hboth := hnonzero.resolve_left hneg.ne
    have hmirrored : bandedScore config (confirmed.map Neg.neg) (-current) (-high) ≤
        bandedScore config (confirmed.map Neg.neg) (-current) (-low) ↔
          ¬ Falls config (-current) (-high) (-low) :=
      bandedScore_long_le_iff h (neg_pos.mpr hneg) (neg_le_neg hle) (neg_ne_zero.mpr hboth.2)
        (neg_ne_zero.mpr hboth.1)
    rw [bandedScore_neg, bandedScore_neg, neg_le_neg_iff] at hmirrored
    rw [hmirrored]
    simp [hneg, hneg.not_gt]
  · simp [bandedScore_none_le h hle]
  · have hboth := hnonzero.resolve_left hpos.ne'
    rw [bandedScore_long_le_iff h hpos hle hboth.1 hboth.2]
    simp [hpos, hpos.not_gt]

end

def CostGatePasses (config : TechnicalStrategyConfig) (costs : CostEstimate) (atrFraction : ℚ) :
    Prop :=
  ∃ roundTrip, costs.roundTrip config.expectedHoldingHours = .ok roundTrip ∧
    config.minimumCostMultiple * roundTrip ≤ config.expectedAtrFraction * atrFraction

theorem admittedScore_of_passes {config : TechnicalStrategyConfig} {costs : CostEstimate}
    {atrFraction : ℚ} (h : CostGatePasses config costs atrFraction) (candidate : ℚ) :
    admittedScore config costs atrFraction candidate = .ok candidate := by
  obtain ⟨roundTrip, hcosts, hpasses⟩ := h
  unfold admittedScore
  split
  · rfl
  · rw [hcosts, ok_bind, if_neg hpasses.not_gt]
    rfl

/-- **The bands and the order of raw scores.**  Two clamped raw scores other than zero leave scores
in their order except where the smaller one keeps the score stored before and the larger one is
below it, and where the smaller one leaves the flatten threshold and the larger one keeps less. -/
theorem hysteresis_monotone_iff {config : TechnicalStrategyConfig}
    (hvalid : config.validate = .ok ()) {costs : CostEstimate} {atrFraction : ℚ}
    (hcosts : CostGatePasses config costs atrFraction) (confirmed : Option ℚ)
    {current rawLow rawHigh : ℚ} (hle : clampScore rawLow ≤ clampScore rawHigh)
    (hnonzero : current = 0 ∨ (clampScore rawLow ≠ 0 ∧ clampScore rawHigh ≠ 0)) :
    ∃ low high,
      storedScore config confirmed .hold costs atrFraction current rawLow = .ok low ∧
      storedScore config confirmed .hold costs atrFraction current rawHigh = .ok high ∧
      (low ≤ high ↔ ¬ FallsAround config current (clampScore rawLow) (clampScore rawHigh)) :=
  ⟨_, _, admittedScore_of_passes hcosts _, admittedScore_of_passes hcosts _,
    bandedScore_le_iff (thresholdsOrdered_of_validate hvalid) hle hnonzero⟩

def freeCosts : CostEstimate := ⟨0, 0, 0, 0, 0⟩

theorem default_validate : TechnicalStrategyConfig.default.validate = .ok () := by
  decide +kernel

theorem freeCosts_passes {atrFraction : ℚ} (h : 0 ≤ atrFraction) :
    CostGatePasses .default freeCosts atrFraction := by
  refine ⟨0, by decide +kernel, ?_⟩
  rw [mul_zero]
  exact mul_nonneg (by norm_num [TechnicalStrategyConfig.default]) h

/-- A long score that is entered at 0.65 and maintained at 0.60 and at 0.70. -/
theorem hysteresis_monotone_iff_maintained :
    ∃ low high,
      storedScore .default (some 1) .hold freeCosts 1 (65 / 100) (60 / 100) = .ok low ∧
      storedScore .default (some 1) .hold freeCosts 1 (65 / 100) (70 / 100) = .ok high ∧
      (low ≤ high ↔ ¬ FallsAround .default (65 / 100) (clampScore (60 / 100))
        (clampScore (70 / 100))) :=
  hysteresis_monotone_iff default_validate (freeCosts_passes zero_le_one) (some 1)
    (by norm_num [clampScore]) (.inr (by norm_num [clampScore]))

/-- A long score of 0.85 is kept under a raw score of 0.45 and gives way to one of 0.60. -/
theorem kept_score_above_maintained :
    ¬ ∀ (config : TechnicalStrategyConfig) (confirmed : Option ℚ) (costs : CostEstimate)
        (atrFraction current rawLow rawHigh low high : ℚ),
      config.validate = .ok () → CostGatePasses config costs atrFraction →
        clampScore rawLow ≤ clampScore rawHigh →
          storedScore config confirmed .hold costs atrFraction current rawLow = .ok low →
            storedScore config confirmed .hold costs atrFraction current rawHigh = .ok high →
              low ≤ high := by
  intro h
  have hfalls := h .default none freeCosts 1 (85 / 100) (45 / 100) (60 / 100) (85 / 100) (60 / 100)
    default_validate (freeCosts_passes zero_le_one) (by norm_num [clampScore]) (by decide +kernel)
    (by decide +kernel)
  exact absurd hfalls (by norm_num)

end

section

variable {config : TechnicalStrategyConfig} {current candidate : ℚ}

theorem signum_ne_zero {score : ℚ} (h : score ≠ 0) : signum score ≠ 0 := by
  rcases lt_or_gt_of_ne h with hneg | hpos
  · rw [signum_of_neg hneg]
    norm_num
  · rw [signum_of_pos hpos]
    norm_num

theorem abs_signum_mul {score : ℚ} (h : score ≠ 0) (threshold : ℚ) :
    |signum score * threshold| = |threshold| := by
  rcases lt_or_gt_of_ne h with hneg | hpos
  · rw [signum_of_neg hneg, neg_one_mul, abs_neg]
  · rw [signum_of_pos hpos, one_mul]

theorem signum_signum_mul {score threshold : ℚ} (hthreshold : 0 < threshold) :
    signum (signum score * threshold) = signum score := by
  rcases lt_trichotomy score 0 with hneg | rfl | hpos
  · rw [signum_of_neg hneg, neg_one_mul, signum_neg, signum_of_pos hthreshold]
  · simp
  · rw [signum_of_pos hpos, one_mul, signum_of_pos hthreshold]

/-- A clamped raw score under which the bands leave a score on the side of the score stored before,
and one of the two is below the reduce threshold. -/
def BelowReduce (config : TechnicalStrategyConfig) (current candidate : ℚ) : Prop :=
  (signum candidate = signum current ∧ 0 < config.flattenThreshold ∧
    config.flattenThreshold ≤ |candidate| ∧ |candidate| < config.reduceThreshold) ∨
  ((candidate = 0 ∨ (signum candidate = signum current ∧ config.reduceThreshold ≤ |candidate|)) ∧
    |current| < config.reduceThreshold)

instance (config : TechnicalStrategyConfig) (current candidate : ℚ) :
    Decidable (BelowReduce config current candidate) := by
  unfold BelowReduce
  infer_instance

theorem belowReduce_iff (h : ThresholdsOrdered config) (confirmed : Option ℚ)
    (hcurrent : current ≠ 0) :
    BelowReduce config current candidate ↔
      signum (bandedScore config confirmed current candidate) = signum current ∧
        (|current| < config.reduceThreshold ∨
          |bandedScore config confirmed current candidate| < config.reduceThreshold) := by
  have hflatten := h.flatten_nonneg
  have hreduce := h.flatten_lt
  have hmaintain := h.reduce_lt
  have henter := h.maintain_lt
  have hside := signum_ne_zero hcurrent
  unfold BelowReduce
  by_cases hzero : candidate = 0
  · have hkept : bandedScore config confirmed current candidate = current := by
      unfold bandedScore
      rw [hzero, signum_zero, abs_zero, if_neg (by simp [hcurrent]), if_neg hside,
        if_neg (by linarith)]
    rw [hkept, hzero, signum_zero]
    simp [hside.symm]
  by_cases hsame : signum candidate = signum current
  · have hbands : bandedScore config confirmed current candidate =
        if |candidate| < config.flattenThreshold then 0
        else if |candidate| < config.reduceThreshold then
          signum current * config.flattenThreshold
        else if |candidate| < config.maintainThreshold then current
        else candidate := by
      unfold bandedScore
      rw [if_neg (by simp [hcurrent, hsame]), if_pos hsame.symm]
    rw [hbands]
    split_ifs with h1 h2 h3
    · refine iff_of_false ?_ (fun hleft => hside (signum_zero ▸ hleft.1).symm)
      rintro (⟨-, -, hlow, -⟩ | ⟨hlow | ⟨-, hlow⟩, -⟩)
      · linarith
      · exact hzero hlow
      · linarith
    · rcases hflatten.eq_or_lt with hnone | hpos
      · rw [← hnone, mul_zero, signum_zero]
        refine iff_of_false ?_ (fun hleft => hside hleft.1.symm)
        rintro (⟨-, hpos, -⟩ | ⟨hlow | ⟨-, hlow⟩, -⟩)
        · exact lt_irrefl _ hpos
        · exact hzero hlow
        · linarith
      · refine iff_of_true (.inl ⟨hsame, hpos, not_lt.mp h1, h2⟩) ?_
        rw [signum_signum_mul hpos, abs_signum_mul hcurrent, abs_of_pos hpos]
        exact ⟨rfl, .inr hreduce⟩
    · simp [hsame, hzero, not_lt.mp h2, not_lt.mpr (not_lt.mp h2)]
    · have hlarge : ¬ |candidate| < config.reduceThreshold := h2
      simp [hsame, hzero, not_lt.mp h2, hlarge]
  · have hother : signum (bandedScore config confirmed current candidate) ≠ signum current := by
      unfold bandedScore
      rw [if_pos (.inr ⟨Ne.symm hsame, hzero⟩)]
      split
      · rw [signum_zero]
        exact hside.symm
      · exact hsame
    refine iff_of_false ?_ (fun hleft => hother hleft.1)
    rintro (⟨heq, -⟩ | ⟨hnone | ⟨heq, -⟩, -⟩)
    · exact hsame heq
    · exact hzero hnone
    · exact hsame heq

end

section

variable {engine : ScoredEngine} {asset : String} {costs : CostEstimate}
  {candles : AssetCandles ℚ} {classification : Classification} {timing : ExitTiming}

def leftByBands (engine : ScoredEngine) (asset : String) (classification : Classification) : ℚ :=
  bandedScore engine.config
    (confirmedTriggerDirection classification.state.trigger30m classification.state.trigger15m)
    (engine.currentScore asset)
    (clampScore (technicalScore classification.state engine.config.enterThreshold))

theorem nextScore_eq (engine : ScoredEngine) (asset : String) (classification : Classification)
    (timing : ExitTiming) (costs : CostEstimate) :
    engine.nextScore asset classification timing costs =
      admittedScore engine.config costs classification.atrFraction
        (timedScore engine.config timing (engine.currentScore asset)
          (leftByBands engine asset classification)) :=
  rfl

theorem nextScore_reduce (hcurrent : engine.currentScore asset ≠ 0)
    (hside : signum (leftByBands engine asset classification) =
      signum (engine.currentScore asset)) :
    engine.nextScore asset classification .reduce costs =
      admittedScore engine.config costs classification.atrFraction
        (signum (engine.currentScore asset) * engine.config.reduceThreshold) := by
  rw [nextScore_eq]
  unfold timedScore
  rw [if_pos ⟨hcurrent, hside⟩]

theorem nextScore_reduce_other (hside : signum (leftByBands engine asset classification) ≠
    signum (engine.currentScore asset)) :
    engine.nextScore asset classification .reduce costs =
      engine.nextScore asset classification .hold costs := by
  rw [nextScore_eq, nextScore_eq]
  unfold timedScore
  rw [if_neg fun hboth => hside hboth.2]

theorem nextScore_flatten :
    engine.nextScore asset classification .flatten costs = .ok 0 := by
  rw [nextScore_eq]
  exact if_pos rfl

theorem admittedScore_cases {config : TechnicalStrategyConfig} {atrFraction candidate score : ℚ}
    (h : admittedScore config costs atrFraction candidate = .ok score) :
    score = candidate ∨ score = 0 := by
  unfold admittedScore at h
  split at h
  · cases h
    exact .inl rfl
  · obtain ⟨roundTrip, -, hscore⟩ := of_bind h
    cases hscore
    split
    · exact .inr rfl
    · exact .inl rfl

theorem admittedScore_of_not_passes {config : TechnicalStrategyConfig}
    {atrFraction candidate score : ℚ} (hblocked : ¬ CostGatePasses config costs atrFraction)
    (h : admittedScore config costs atrFraction candidate = .ok score) (hcandidate : candidate ≠ 0)
    (other : ℚ) : admittedScore config costs atrFraction other = .ok 0 := by
  unfold admittedScore at h ⊢
  rw [if_neg hcandidate] at h
  obtain ⟨roundTrip, hcosts, -⟩ := of_bind h
  have hless : config.expectedAtrFraction * atrFraction < config.minimumCostMultiple * roundTrip := by
    by_contra hle
    exact hblocked ⟨roundTrip, hcosts, not_lt.mp hle⟩
  split
  · rename_i hzero
    rw [hzero]
  · rw [hcosts, ok_bind, if_pos hless]
    rfl

theorem timing_of_current_zero (h : primaryExit30m candles 0 = .ok timing) : timing = .hold := by
  unfold primaryExit30m at h
  rw [if_pos rfl] at h
  cases h
  rfl

end

section

variable [DoubleFunctions]

/-- An evaluation whose exit signal does not hold stores a score on the side of the score stored
before only if it is no larger than that one and than the one it would store without the signal. -/
def ReduceSafe (engine : ScoredEngine) : TechnicalCall → Prop
  | .accept _ => True
  | .evaluate asset availableGross costs =>
    ∀ candles classification timing held,
      engine.candles.assets[asset]? = some candles →
        classify candles engine.config = .ok (some classification) →
          engine.currentScore asset ≠ 0 →
            primaryExit30m candles (engine.currentScore asset) = .ok timing → timing ≠ .hold →
              engine.nextScore asset classification .hold costs = .ok held →
                signum ((engine.evaluate asset availableGross costs).2.currentScore asset) =
                    signum (engine.currentScore asset) →
                  |(engine.evaluate asset availableGross costs).2.currentScore asset| ≤
                      |engine.currentScore asset| ∧
                    |(engine.evaluate asset availableGross costs).2.currentScore asset| ≤ |held|

/-- An evaluation with a reduce signal and costs that pass the gate, whose raw score leaves a score
on the side of the score stored before while one of the two is below the reduce threshold. -/
def RaisesScore (engine : ScoredEngine) : TechnicalCall → Prop
  | .accept _ => False
  | .evaluate asset _ costs =>
    ∃ candles classification, engine.candles.assets[asset]? = some candles ∧
      classify candles engine.config = .ok (some classification) ∧
      primaryExit30m candles (engine.currentScore asset) = .ok .reduce ∧
      CostGatePasses engine.config costs classification.atrFraction ∧
      BelowReduce engine.config (engine.currentScore asset)
        (clampScore (technicalScore classification.state engine.config.enterThreshold))

variable {engine : ScoredEngine} {asset : String} {availableGross : ℚ} {costs : CostEstimate}
  {candles : AssetCandles ℚ} {classification : Classification} {timing : ExitTiming}

omit [DoubleFunctions] in
theorem currentScore_withScore (engine : ScoredEngine) (asset : String) (score : ℚ) :
    (engine.withScore asset score).currentScore asset = score := by
  unfold ScoredEngine.currentScore ScoredEngine.withScore
  rw [getElem?_insert_eq, if_pos rfl, Option.getD_some]

theorem evaluate_stores (hcandles : engine.candles.assets[asset]? = some candles)
    (hclass : classify candles engine.config = .ok (some classification))
    (htiming : primaryExit30m candles (engine.currentScore asset) = .ok timing) {score : ℚ}
    (hscore : engine.nextScore asset classification timing costs = .ok score) :
    (engine.evaluate asset availableGross costs).2.currentScore asset = score := by
  unfold ScoredEngine.evaluate
  rw [hcandles]
  dsimp only
  rw [hclass]
  rw [htiming]
  dsimp only
  rw [hscore]
  exact currentScore_withScore engine asset score

theorem evaluate_config (asset : String) (availableGross : ℚ) (costs : CostEstimate) :
    (engine.evaluate asset availableGross costs).2.config = engine.config := by
  unfold ScoredEngine.evaluate
  repeat' split
  all_goals rfl

theorem evaluate_candles (asset : String) (availableGross : ℚ) (costs : CostEstimate) :
    (engine.evaluate asset availableGross costs).2.candles = engine.candles := by
  unfold ScoredEngine.evaluate
  repeat' split
  all_goals rfl

theorem step_config (call : TechnicalCall) : (engine.step call).config = engine.config := by
  cases call with
  | accept candle => rfl
  | evaluate asset availableGross costs => exact evaluate_config asset availableGross costs

theorem not_reduceSafe_of_raises (h : ThresholdsOrdered engine.config)
    (hraises : RaisesScore engine (.evaluate asset availableGross costs)) :
    ¬ ReduceSafe engine (.evaluate asset availableGross costs) := by
  obtain ⟨candles, classification, hcandles, hclass, htiming, hpasses, hbelow⟩ := hraises
  intro hsafe
  have hthreshold : 0 < engine.config.reduceThreshold := h.flatten_nonneg.trans_lt h.flatten_lt
  have hcurrent : engine.currentScore asset ≠ 0 := by
    intro hzero
    rw [hzero] at htiming
    cases timing_of_current_zero htiming
  obtain ⟨hside, hsmall⟩ := (belowReduce_iff h _ hcurrent).mp hbelow
  have hheld : engine.nextScore asset classification .hold costs =
      .ok (leftByBands engine asset classification) := admittedScore_of_passes hpasses _
  have hstored := (nextScore_reduce hcurrent hside).trans (admittedScore_of_passes hpasses _)
  have hbounds := hsafe candles classification .reduce _ hcandles hclass hcurrent htiming
    (by simp) hheld
  rw [evaluate_stores hcandles hclass htiming hstored, signum_signum_mul hthreshold,
    abs_signum_mul hcurrent, abs_of_pos hthreshold] at hbounds
  obtain ⟨hle, hle'⟩ := hbounds rfl
  rcases hsmall with hsmall | hsmall
  · exact absurd hle hsmall.not_ge
  · exact absurd hle' hsmall.not_ge

theorem reduceSafe_iff (h : ThresholdsOrdered engine.config) (call : TechnicalCall) :
    ReduceSafe engine call ↔ ¬ RaisesScore engine call := by
  cases call with
  | accept candle => simp [ReduceSafe, RaisesScore]
  | evaluate asset availableGross costs =>
    refine ⟨fun hsafe hraises => not_reduceSafe_of_raises h hraises hsafe, ?_⟩
    intro hraises candles classification timing held hcandles hclass hcurrent htiming hexit hheld
      hside
    have hthreshold : 0 < engine.config.reduceThreshold := h.flatten_nonneg.trans_lt h.flatten_lt
    have hnonzero := signum_ne_zero hcurrent
    cases timing with
    | hold => exact absurd rfl hexit
    | flatten =>
      rw [evaluate_stores hcandles hclass htiming nextScore_flatten, signum_zero] at hside
      exact absurd hside.symm hnonzero
    | reduce =>
      by_cases hkeeps : signum (leftByBands engine asset classification) =
          signum (engine.currentScore asset)
      · have hstored : engine.nextScore asset classification .reduce costs = _ :=
          nextScore_reduce hcurrent hkeeps
        by_cases hpasses : CostGatePasses engine.config costs classification.atrFraction
        · rw [evaluate_stores hcandles hclass htiming
            (hstored.trans (admittedScore_of_passes hpasses _)), abs_signum_mul hcurrent,
            abs_of_pos hthreshold]
          have hlarge : ¬ (|engine.currentScore asset| < engine.config.reduceThreshold ∨
              |leftByBands engine asset classification| < engine.config.reduceThreshold) := by
            intro hsmall
            exact hraises ⟨candles, classification, hcandles, hclass, htiming, hpasses,
              (belowReduce_iff h _ hcurrent).mpr ⟨hkeeps, hsmall⟩⟩
          obtain ⟨hleft, hright⟩ := not_or.mp hlarge
          cases hheld.symm.trans (admittedScore_of_passes hpasses _)
          exact ⟨not_lt.mp hleft, not_lt.mp hright⟩
        · -- what the gate has not let pass for one score it lets pass for none
          have hleft : leftByBands engine asset classification ≠ 0 := by
            intro hzero
            rw [hzero, signum_zero] at hkeeps
            exact hnonzero hkeeps.symm
          rw [evaluate_stores hcandles hclass htiming
            (hstored.trans (admittedScore_of_not_passes hpasses hheld hleft _)), signum_zero]
            at hside
          exact absurd hside.symm hnonzero
      · have hstored : engine.nextScore asset classification .reduce costs = .ok held :=
          (nextScore_reduce_other hkeeps).trans hheld
        rw [evaluate_stores hcandles hclass htiming hstored] at hside
        rcases admittedScore_cases hheld with rfl | rfl
        · exact absurd hside hkeeps
        · rw [signum_zero] at hside
          exact absurd hside.symm hnonzero

/-- **Reduce signals.**  Every evaluation of a run with an exit signal stores a score no larger than
the one before and than the one without the signal, exactly if no evaluation raises the score. -/
theorem reduce_signals_iff {config : TechnicalStrategyConfig}
    (hnew : ScoredEngine.new config = .ok engine) (calls : List TechnicalCall) :
    AllSteps ScoredEngine.step ReduceSafe engine calls ↔
      AllSteps ScoredEngine.step (fun engine call => ¬ RaisesScore engine call) engine calls := by
  obtain ⟨_, hvalid, hengine⟩ := of_bind hnew
  cases hengine
  have hordered := thresholdsOrdered_of_validate hvalid
  exact allSteps_congr (I := fun engine => ThresholdsOrdered engine.config)
    (fun s call hs => (step_config call).symm ▸ hs) (fun s call hs => reduceSafe_iff hs call)
    hordered calls

end

def priceCandle (interval : CandleInterval) (i : ℕ) (close : ℚ) : ClosedCandle ℚ where
  asset := "BTC"
  interval
  openTimeMs := i * interval.durationMs
  closeTimeMs := (i + 1) * interval.durationMs - 1
  openPrice := close
  high := close + 1
  low := close - 1
  close
  baseVolume := 0
  tradeCount := 0

def priceSeries (interval : CandleInterval) (start : ℕ) (closes : List ℚ) :
    List (ClosedCandle ℚ) :=
  (closes.zipIdx start).map fun close => priceCandle interval close.2 close.1

/-- Four hours trend upwards, half an hour falls and turns, and the rest is flat. -/
def entryCloses : CandleInterval → List ℚ
  | .twelveHours => List.replicate 201 100
  | .fourHours => (List.range 101).map fun i => (100 + i : ℚ)
  | .oneHour => List.replicate 51 100
  | .thirtyMinutes => List.replicate 44 100 ++ [99, 98, 97, 96, 95, 94, 101]
  | .fifteenMinutes => List.replicate 21 100 ++ [101]

def laterCloses : List ℚ := [105, 108, 110, 110, 110, 110, 108]

theorem entryCloses_gt (interval : CandleInterval) : ∀ close ∈ entryCloses interval, 1 < close := by
  cases interval
  case fourHours =>
    intro close hclose
    obtain ⟨i, hi, rfl⟩ := List.mem_map.mp hclose
    obtain ⟨n, -, hn⟩ := List.mem_flatMap.mp hi
    rw [List.mem_singleton.mp hn]
    linarith [(Nat.cast_nonneg n : (0 : ℚ) ≤ n)]
  all_goals norm_num [entryCloses]

theorem entryCloses_length (interval : CandleInterval) : (entryCloses interval).length ≤ 500 := by
  cases interval
  all_goals simp [entryCloses, -List.reduceReplicate]

theorem entryCloses_ne_nil : entryCloses .fifteenMinutes ≠ [] :=
  List.append_ne_nil_of_right_ne_nil _ (List.cons_ne_nil _ _)

def candlesOf (closes : CandleInterval → List ℚ) : List (ClosedCandle ℚ) :=
  priceSeries .twelveHours 0 (closes .twelveHours)
    ++ priceSeries .fourHours 0 (closes .fourHours)
    ++ priceSeries .oneHour 0 (closes .oneHour)
    ++ priceSeries .thirtyMinutes 0 (closes .thirtyMinutes)
    ++ priceSeries .fifteenMinutes 0 (closes .fifteenMinutes)

def entryCandles : List (ClosedCandle ℚ) := candlesOf entryCloses

def laterCandles : List (ClosedCandle ℚ) := priceSeries .thirtyMinutes 51 laterCloses

@[reducible] def sampleDoubles : DoubleFunctions where
  ln _ := -7083964185322641 / 10 ^ 13
  sqrt value := value

def freshScores : ScoredEngine where
  config := .default
  candles := ⟨∅⟩
  scores := ∅

theorem new_freshScores : ScoredEngine.new .default = .ok freshScores := by
  unfold ScoredEngine.new
  rw [default_validate]
  rfl

theorem fresh_currentScore (candles : TechnicalEngine ℚ) :
    ({ freshScores with candles } : ScoredEngine).currentScore "BTC" = 0 := by
  unfold ScoredEngine.currentScore freshScores
  rw [ExtTreeMap.getElem?_empty, Option.getD_none]

def acceptCalls (candles : List (ClosedCandle ℚ)) : List TechnicalCall :=
  candles.map TechnicalCall.accept

theorem run_acceptCalls [DoubleFunctions] (engine : ScoredEngine)
    (candles : List (ClosedCandle ℚ)) :
    run ScoredEngine.step engine (acceptCalls candles) =
      { engine with candles := run candleStep engine.candles candles } := by
  induction candles generalizing engine with
  | nil => rfl
  | cons candle candles ih => exact ih (engine.acceptCandle candle)

/-- The store holds the candles with the listed prices. -/
structure HoldsCloses (engine : TechnicalEngine ℚ) (closes : CandleInterval → List ℚ) : Prop where
  sound : StoreSound engine
  candles : ∀ interval, heldCandles engine "BTC" interval = priceSeries interval 0 (closes interval)

theorem one_lt_durationMs (interval : CandleInterval) : 1 < interval.durationMs := by
  cases interval
  all_goals decide

theorem priceCandle_isValid {close : ℚ} (h : 1 < close) (interval : CandleInterval) (i : ℕ) :
    (priceCandle interval i close).isValid = true := by
  have htimes : i * interval.durationMs + 1 < (i + 1) * interval.durationMs := by
    have hduration := one_lt_durationMs interval
    rw [add_one_mul]
    omega
  have hasset : "BTC".isEmpty = false := by decide
  have hclose : 0 < close := by linarith
  have hhigh : 0 < close + 1 := by linarith
  have hrange : close ≤ close + 1 + 1 := by linarith
  unfold ClosedCandle.isValid priceCandle
  simp only [Decimal.le, Decimal.lt, Decimal.max, Decimal.min, ExactDecimal.toRat_eq,
    ExactDecimal.zero_eq, hasset]
  simp [htimes, h, hclose, hhigh, hrange]

theorem priceSeries_append (interval : CandleInterval) (start : ℕ) (closes later : List ℚ) :
    priceSeries interval start closes ++ priceSeries interval (start + closes.length) later =
      priceSeries interval start (closes ++ later) := by
  unfold priceSeries
  rw [List.zipIdx_append, List.map_append]

theorem priceSeries_sorted (interval : CandleInterval) (start : ℕ) (closes : List ℚ) :
    (priceSeries interval start closes).Pairwise fun a b => a.openTimeMs < b.openTimeMs := by
  have hindices : ((closes.zipIdx start).map Prod.snd).Pairwise (· < ·) := by
    rw [List.zipIdx_map_snd]
    exact List.pairwise_lt_range'
  unfold priceSeries
  rw [List.pairwise_map] at hindices ⊢
  have hduration : 0 < interval.durationMs := zero_lt_one.trans (one_lt_durationMs interval)
  exact hindices.imp fun hlt => Nat.mul_lt_mul_of_pos_right hlt hduration

theorem HoldsCloses.series {engine : TechnicalEngine ℚ} {closes : CandleInterval → List ℚ}
    (h : HoldsCloses engine closes) (interval : CandleInterval) {later : List ℚ}
    (hlater : ∀ close ∈ later, 1 < close) (hlength : (closes interval ++ later).length ≤ 500) :
    HoldsCloses (run candleStep engine (priceSeries interval (closes interval).length later))
      (Function.update closes interval (closes interval ++ later)) := by
  have happend : heldCandles engine "BTC" interval ++
      priceSeries interval (closes interval).length later =
        priceSeries interval 0 (closes interval ++ later) := by
    have hjoined := priceSeries_append interval 0 (closes interval) later
    rw [zero_add] at hjoined
    rw [h.candles, hjoined]
  have hseries : ∀ candle ∈ priceSeries interval (closes interval).length later,
      candle.isValid = true ∧ candle.asset = "BTC" ∧ candle.interval = interval := by
    intro candle hmem
    obtain ⟨close, hclose, rfl⟩ := List.mem_map.mp hmem
    exact ⟨priceCandle_isValid (hlater _ (List.fst_mem_of_mem_zipIdx hclose)) interval _, rfl, rfl⟩
  obtain ⟨hsound, hrun⟩ := h.sound.run_series hseries
    (by
      rw [happend]
      exact priceSeries_sorted interval 0 _)
    (by
      rw [happend]
      unfold priceSeries
      rwa [List.length_map, List.length_zipIdx])
  refine ⟨hsound, ?_⟩
  intro other
  rw [hrun, happend]
  by_cases hother : other = interval
  · rw [hother, if_pos ⟨rfl, rfl⟩, Function.update_self]
  · rw [if_neg fun hboth => hother hboth.2, Function.update_of_ne hother, h.candles]

theorem HoldsCloses.congr {engine : TechnicalEngine ℚ} {closes others : CandleInterval → List ℚ}
    (h : HoldsCloses engine closes) (heq : ∀ interval, closes interval = others interval) :
    HoldsCloses engine others :=
  ⟨h.sound, fun interval => heq interval ▸ h.candles interval⟩

def heldCloses (interval : CandleInterval) : List ℚ :=
  if interval = .thirtyMinutes then entryCloses interval ++ laterCloses else entryCloses interval

theorem holds_candlesOf {closes : CandleInterval → List ℚ}
    (hcloses : ∀ interval, ∀ close ∈ closes interval, 1 < close)
    (hlength : ∀ interval, (closes interval).length ≤ 500) :
    HoldsCloses (run candleStep ⟨∅⟩ (candlesOf closes)) closes := by
  have hempty : HoldsCloses (⟨∅⟩ : TechnicalEngine ℚ) (fun _ => []) :=
    ⟨storeSound_empty, fun _ => rfl⟩
  have htwelve := hempty.series .twelveHours (hcloses _) (hlength .twelveHours)
  have hfour := htwelve.series .fourHours (hcloses _) (hlength .fourHours)
  have hone := hfour.series .oneHour (hcloses _) (hlength .oneHour)
  have hthirty := hone.series .thirtyMinutes (hcloses _) (hlength .thirtyMinutes)
  have hfifteen := hthirty.series .fifteenMinutes (hcloses _) (hlength .fifteenMinutes)
  unfold candlesOf
  rw [run_append, run_append, run_append, run_append]
  refine hfifteen.congr ?_
  intro interval
  cases interval
  all_goals rfl

theorem holds_entry : HoldsCloses (run candleStep ⟨∅⟩ entryCandles) entryCloses :=
  holds_candlesOf entryCloses_gt entryCloses_length

theorem holds_later {candles : TechnicalEngine ℚ} (h : HoldsCloses candles entryCloses) :
    HoldsCloses (run candleStep candles laterCandles) heldCloses := by
  have hlater := h.series .thirtyMinutes (by norm_num [laterCloses] : ∀ close ∈ laterCloses, 1 < close)
    (by simp [entryCloses, laterCloses])
  refine hlater.congr ?_
  intro interval
  cases interval
  all_goals rfl

def listedCandles (closes : CandleInterval → List ℚ) : AssetCandles ℚ :=
  ⟨fun interval => priceSeries interval 0 (closes interval), []⟩

theorem HoldsCloses.entry {engine : TechnicalEngine ℚ} {closes : CandleInterval → List ℚ}
    (h : HoldsCloses engine closes) (hclosed : closes .fifteenMinutes ≠ []) :
    ∃ accepted, engine.assets["BTC"]? = some ⟨(listedCandles closes).intervals, accepted⟩ := by
  have hintervals : (engine.assetCandles "BTC").intervals = (listedCandles closes).intervals :=
    funext h.candles
  unfold TechnicalEngine.assetCandles at hintervals
  cases hentry : engine.assets["BTC"]? with
  | none =>
    rw [hentry] at hintervals
    have hnone : priceSeries .fifteenMinutes 0 (closes .fifteenMinutes) = [] :=
      (congrFun hintervals .fifteenMinutes).symm
    unfold priceSeries at hnone
    rw [List.map_eq_nil_iff, List.zipIdx_eq_nil_iff] at hnone
    exact absurd hnone hclosed
  | some candles =>
    rw [hentry, Option.getD_some] at hintervals
    exact ⟨candles.accepted, by rw [← hintervals]⟩

def classified [DoubleFunctions] (closes : CandleInterval → List ℚ) : Option Classification :=
  match classify (listedCandles closes) .default with
  | .ok classification => classification
  | .error _ => none

theorem classify_of_classified [DoubleFunctions] {closes : CandleInterval → List ℚ}
    {classification : Classification} (h : classified closes = some classification)
    (accepted : List CandleIdentity) :
    classify ⟨(listedCandles closes).intervals, accepted⟩ .default = .ok (some classification) := by
  have hsame : classify ⟨(listedCandles closes).intervals, accepted⟩ .default =
      classify (listedCandles closes) .default := rfl
  rw [hsame]
  unfold classified at h
  split at h
  · rename_i hclass
    rw [hclass, h]
  · cases h

def sampleEvaluation : TechnicalCall := .evaluate "BTC" 1000 freeCosts

theorem classified_entry : ∃ classification,
    @classified sampleDoubles entryCloses = some classification ∧
      storedScore .default (confirmedTriggerDirection classification.state.trigger30m
          classification.state.trigger15m) .hold freeCosts classification.atrFraction 0
        (technicalScore classification.state (65 / 100)) = .ok (65 / 100) := by
  have hsome : (@classified sampleDoubles entryCloses).any (fun classification =>
      storedScore .default (confirmedTriggerDirection classification.state.trigger30m
          classification.state.trigger15m) .hold freeCosts classification.atrFraction 0
        (technicalScore classification.state (65 / 100)) = .ok (65 / 100)) = true := by
    decide +kernel
  obtain ⟨classification, hclass, hstored⟩ := (Option.any_eq_true _ _).mp hsome
  exact ⟨classification, hclass, of_decide_eq_true hstored⟩

theorem classified_later : ∃ classification,
    @classified sampleDoubles heldCloses = some classification ∧
      primaryExit30m (listedCandles heldCloses) (65 / 100) = .ok .reduce ∧
      0 ≤ classification.atrFraction ∧
      BelowReduce .default (65 / 100)
        (clampScore (technicalScore classification.state (65 / 100))) := by
  have hsome : (@classified sampleDoubles heldCloses).any (fun classification =>
      0 ≤ classification.atrFraction ∧ BelowReduce .default (65 / 100)
        (clampScore (technicalScore classification.state (65 / 100)))) = true := by
    decide +kernel
  have htiming : primaryExit30m (listedCandles heldCloses) (65 / 100) = .ok .reduce := by
    decide +kernel
  obtain ⟨classification, hclass, hbelow⟩ := (Option.any_eq_true _ _).mp hsome
  obtain ⟨hatr, hbelow⟩ := of_decide_eq_true hbelow
  exact ⟨classification, hclass, htiming, hatr, hbelow⟩

theorem first_stored [DoubleFunctions] {engine : ScoredEngine} {closes : CandleInterval → List ℚ}
    (hconfig : engine.config = .default) (hcurrent : engine.currentScore "BTC" = 0)
    (h : HoldsCloses engine.candles closes) (hclosed : closes .fifteenMinutes ≠ [])
    {classification : Classification} {score : ℚ}
    (hclass : classified closes = some classification)
    (hscore : storedScore .default (confirmedTriggerDirection classification.state.trigger30m
        classification.state.trigger15m) .hold freeCosts classification.atrFraction 0
      (technicalScore classification.state (65 / 100)) = .ok score) :
    (engine.step sampleEvaluation).currentScore "BTC" = score := by
  obtain ⟨accepted, hentry⟩ := h.entry hclosed
  have hclassify : classify ⟨(listedCandles closes).intervals, accepted⟩ engine.config =
      .ok (some classification) := by
    rw [hconfig]
    exact classify_of_classified hclass accepted
  have htiming : primaryExit30m ⟨(listedCandles closes).intervals, accepted⟩
      (engine.currentScore "BTC") = .ok .hold := by
    rw [hcurrent]
    exact if_pos rfl
  have hnext : engine.nextScore "BTC" classification .hold freeCosts = .ok score := by
    unfold ScoredEngine.nextScore
    rw [hconfig, hcurrent]
    exact hscore
  exact evaluate_stores hentry hclassify htiming hnext

/-- An evaluation of the asset raises its score where its listed prices give a reduce signal and too
small a raw score. -/
theorem later_raises [DoubleFunctions] {engine : ScoredEngine}
    {closes : CandleInterval → List ℚ} {score : ℚ} (hconfig : engine.config = .default)
    (hcurrent : engine.currentScore "BTC" = score) (h : HoldsCloses engine.candles closes)
    (hclosed : closes .fifteenMinutes ≠ []) {classification : Classification}
    (hclass : classified closes = some classification)
    (htiming : primaryExit30m (listedCandles closes) score = .ok .reduce)
    (hatr : 0 ≤ classification.atrFraction)
    (hbelow : BelowReduce .default score
      (clampScore (technicalScore classification.state (65 / 100)))) :
    RaisesScore engine sampleEvaluation := by
  obtain ⟨accepted, hentry⟩ := h.entry hclosed
  have hpasses := freeCosts_passes hatr
  unfold RaisesScore sampleEvaluation
  dsimp only
  rw [hconfig, hcurrent]
  exact ⟨_, classification, hentry, classify_of_classified hclass accepted, htiming, hpasses,
    hbelow⟩

/-- The first evaluation of an asset is safe, since nothing is stored before it. -/
theorem reduce_signals_iff_first :
    ∃ _ : DoubleFunctions,
      AllSteps ScoredEngine.step ReduceSafe freshScores
        (acceptCalls entryCandles ++ [sampleEvaluation]) := by
  refine ⟨sampleDoubles, (@reduce_signals_iff sampleDoubles _ _ new_freshScores _).mpr ?_⟩
  rw [allSteps_append, @run_acceptCalls sampleDoubles]
  refine ⟨?_, ?_, trivial⟩
  · unfold acceptCalls
    generalize entryCandles = candles
    generalize freshScores = engine
    induction candles generalizing engine with
    | nil => trivial
    | cons candle candles ih => exact ⟨id, ih _⟩
  · generalize run candleStep freshScores.candles entryCandles = candles
    rintro ⟨held, classification, -, -, htiming, -, -⟩
    rw [fresh_currentScore] at htiming
    cases timing_of_current_zero htiming

def twoEvaluations (first later : List (ClosedCandle ℚ)) : List TechnicalCall :=
  acceptCalls first ++ [sampleEvaluation] ++ acceptCalls later ++ [sampleEvaluation]

theorem allSteps_twoEvaluations [DoubleFunctions] {first later : List (ClosedCandle ℚ)}
    (h : AllSteps ScoredEngine.step ReduceSafe freshScores (twoEvaluations first later)) :
    ∃ engine : ScoredEngine, ReduceSafe engine sampleEvaluation ∧ engine.config = .default ∧
      engine.candles = run candleStep (run candleStep ⟨∅⟩ first) later ∧
      engine.currentScore "BTC" = (({ freshScores with
        candles := run candleStep ⟨∅⟩ first } : ScoredEngine).step
          sampleEvaluation).currentScore "BTC" := by
  unfold twoEvaluations at h
  rw [allSteps_append, run_append, run_append, run_acceptCalls, run_cons, run_nil,
    run_acceptCalls] at h
  refine ⟨_, h.2.1, ?_, ?_, rfl⟩
  · exact evaluate_config "BTC" 1000 freeCosts
  · exact congrArg (fun engine => run candleStep engine later)
      (evaluate_candles "BTC" 1000 freeCosts)

/-- A long score of 0.65 whose raw score has fallen to 0.25 is stored as 0.45 under a reduce signal,
and would be stored as 0.25 without it. -/
theorem reduce_signal_raises :
    ¬ ∀ [DoubleFunctions] (config : TechnicalStrategyConfig) (engine : ScoredEngine)
        (calls : List TechnicalCall), ScoredEngine.new config = .ok engine →
          AllSteps ScoredEngine.step ReduceSafe engine calls := by
  intro h
  obtain ⟨engine, hsafe, hconfig, hcandles, hcurrent⟩ := @allSteps_twoEvaluations sampleDoubles
    entryCandles laterCandles (@h sampleDoubles .default freshScores _ new_freshScores)
  obtain ⟨classification, hclass, hscore⟩ := classified_entry
  obtain ⟨later, hlater, htiming, hatr, hbelow⟩ := classified_later
  have hentry := holds_entry
  generalize run candleStep ⟨∅⟩ entryCandles = candles at hentry hcandles hcurrent
  have hstored := @first_stored sampleDoubles { freshScores with candles } _ rfl
    (fresh_currentScore candles) hentry entryCloses_ne_nil _ _ hclass hscore
  have hholds : HoldsCloses engine.candles heldCloses := hcandles ▸ holds_later hentry
  have hordered : ThresholdsOrdered engine.config :=
    hconfig ▸ thresholdsOrdered_of_validate default_validate
  exact @not_reduceSafe_of_raises sampleDoubles _ _ _ _ hordered
    (@later_raises sampleDoubles _ _ _ hconfig (hcurrent.trans hstored) hholds
      entryCloses_ne_nil _ hlater htiming hatr hbelow) hsafe

end CopyTrade.Analysis
