import CopyTrade.Analysis.Decision.ReduceSignals

/-!
# Two evaluations in a row

With no candle in between the second evaluation finds the score that the first one has stored, and
stores it again where the triggers confirm no side.  Where they confirm one, the exit rule decides,
which looks at the side of the score stored before (`evaluation_settles_iff`).
-/

namespace CopyTrade.Analysis

open Foundation Model Model.Technical
open Std (ExtTreeMap)

section

variable {config : TechnicalStrategyConfig} {confirmed : Option ℚ} {state : TechnicalState}
  {current other candidate side : ℚ} {candles : AssetCandles ℚ}

theorem signum_score_eq_zero_iff : signum current = 0 ↔ current = 0 := by
  constructor
  · intro h
    by_contra hcurrent
    exact signum_ne_zero hcurrent h
  · rintro rfl
    exact signum_zero

theorem signum_score_eq_one_iff : signum current = 1 ↔ 0 < current := by
  rcases lt_trichotomy current 0 with hneg | rfl | hpos
  · rw [signum_of_neg hneg]
    exact iff_of_false (by norm_num) hneg.not_gt
  · simp
  · exact iff_of_true (signum_of_pos hpos) hpos

theorem side_congr (h : signum other = signum current) :
    (other = 0 ↔ current = 0) ∧ (0 < other ↔ 0 < current) := by
  constructor
  · rw [← signum_score_eq_zero_iff, h, signum_score_eq_zero_iff]
  · rw [← signum_score_eq_one_iff, h, signum_score_eq_one_iff]

theorem enterThreshold_bounds (h : config.validate = .ok ()) :
    0 < config.enterThreshold ∧ config.enterThreshold ≤ 1 := by
  have hordered := thresholdsOrdered_of_validate h
  unfold TechnicalStrategyConfig.validate at h
  split at h
  · cases h
  rename_i hvalid
  simp only [not_or, not_not] at hvalid
  obtain ⟨-, -, -, -, -, henter, -⟩ := hvalid
  refine ⟨?_, henter.2⟩
  linarith [hordered.flatten_nonneg, hordered.flatten_lt, hordered.reduce_lt, hordered.maintain_lt]

theorem clampScore_long {threshold score : ℚ} (hone : threshold ≤ 1) (h : threshold ≤ score) :
    threshold ≤ clampScore score :=
  (le_min h hone).trans (le_max_right _ _)

theorem clampScore_short {threshold score : ℚ} (hone : threshold ≤ 1) (h : score ≤ -threshold) :
    clampScore score ≤ -threshold := by
  refine max_le (by linarith) ?_
  exact (min_le_left _ _).trans h

/-- A confirmed side is the side of the raw score, which reaches the enter threshold. -/
theorem clampScore_confirmed (h : config.validate = .ok ())
    (hconfirmed : confirmedTriggerDirection state.trigger30m state.trigger15m = some side) :
    signum (clampScore (technicalScore state config.enterThreshold)) = side ∧
      config.enterThreshold ≤ |clampScore (technicalScore state config.enterThreshold)| ∧
      signum side = side := by
  obtain ⟨hpos, hone⟩ := enterThreshold_bounds h
  have hreaches : config.enterThreshold ≤ technicalScore state config.enterThreshold * side ∨
      technicalScore state config.enterThreshold = side * config.enterThreshold := by
    unfold technicalScore
    rw [hconfirmed]
    dsimp only
    split
    · rename_i hlarge
      exact .inl hlarge
    · exact .inr rfl
  have hsides : side = 1 ∨ side = -1 := by
    unfold confirmedTriggerDirection at hconfirmed
    split at hconfirmed
    · exact .inl (Option.some.inj hconfirmed).symm
    · exact .inr (Option.some.inj hconfirmed).symm
    · cases hconfirmed
  rcases hsides with rfl | rfl
  · have hlong := clampScore_long hone (by rcases hreaches with hreaches | hreaches <;> linarith)
    have hpositive := hpos.trans_le hlong
    rw [signum_of_pos hpositive, abs_of_pos hpositive]
    exact ⟨rfl, hlong, signum_of_pos one_pos⟩
  · have hshort := clampScore_short hone (by rcases hreaches with hreaches | hreaches <;> linarith)
    have hnegative : clampScore (technicalScore state config.enterThreshold) < 0 := by linarith
    rw [signum_of_neg hnegative, abs_of_neg hnegative]
    exact ⟨rfl, by linarith, signum_of_neg (by norm_num)⟩

/-- A confirmed raw score is what the bands leave, whatever is stored. -/
theorem bandedScore_confirmed (h : ThresholdsOrdered config)
    (henter : config.enterThreshold ≤ |candidate|) (current : ℚ) :
    bandedScore config (some (signum candidate)) current candidate = candidate := by
  have hflatten := h.flatten_nonneg
  have hreduce := h.flatten_lt
  have hmaintain := h.reduce_lt
  have hlower := h.maintain_lt
  have hcandidate : candidate ≠ 0 := by
    rintro rfl
    rw [abs_zero] at henter
    linarith
  unfold bandedScore
  split
  · rw [if_neg]
    rintro (hsmall | hother)
    · linarith
    · exact hother rfl
  · rename_i hkept
    have hsame : signum current = signum candidate := by
      by_contra hother
      exact hkept (.inr ⟨hother, hcandidate⟩)
    rw [if_pos hsame, if_neg (by linarith), if_neg (by linarith), if_neg (by linarith)]

/-- Beside two scores of one side the bands leave one score, or each of the two. -/
theorem bandedScore_congr (h : signum other = signum current) :
    bandedScore config confirmed other candidate = bandedScore config confirmed current candidate ∨
      (bandedScore config confirmed other candidate = other ∧
        bandedScore config confirmed current candidate = current) := by
  unfold bandedScore
  simp only [h, (side_congr h).1]
  split_ifs
  all_goals simp

theorem bandedScore_unconfirmed (h : ThresholdsOrdered config) :
    bandedScore config none current candidate = 0 ∨
      signum (bandedScore config none current candidate) = signum current := by
  unfold bandedScore
  split
  · simp
  · rename_i hkept
    split
    · rename_i hsame
      split_ifs
      · exact .inl rfl
      · rcases h.flatten_nonneg.eq_or_lt with hzero | hpos
        · exact .inl (by rw [← hzero, mul_zero])
        · exact .inr (signum_signum_mul hpos)
      · exact .inr rfl
      · exact .inr hsame.symm
    · split
      · exact .inl rfl
      · exact .inr rfl

theorem primaryExit30m_congr (h : signum other = signum current) :
    primaryExit30m candles other = primaryExit30m candles current := by
  unfold primaryExit30m
  simp only [(side_congr h).1, (side_congr h).2]

end

section

variable {config : TechnicalStrategyConfig} {timing : ExitTiming} {current candidate : ℚ}

theorem timedScore_reduce (hcurrent : current ≠ 0) (h : signum candidate = signum current) :
    timedScore config .reduce current candidate = signum current * config.reduceThreshold :=
  if_pos ⟨hcurrent, h⟩

theorem timedScore_other (htiming : timing ≠ .flatten) (h : signum candidate ≠ signum current) :
    timedScore config timing current candidate = candidate := by
  cases timing with
  | flatten => exact absurd rfl htiming
  | hold => rfl
  | reduce => exact if_neg fun hboth => h hboth.2

theorem timedScore_ne_zero (hthreshold : 0 < config.reduceThreshold) (hcandidate : candidate ≠ 0)
    (htiming : timing ≠ .flatten) : timedScore config timing current candidate ≠ 0 := by
  by_cases hside : signum candidate = signum current
  · cases timing with
    | flatten => exact absurd rfl htiming
    | hold => exact hcandidate
    | reduce =>
      unfold timedScore
      dsimp only
      split
      · rename_i hboth
        exact mul_ne_zero (signum_ne_zero hboth.1) hthreshold.ne'
      · exact hcandidate
  · rw [timedScore_other htiming hside]
    exact hcandidate

end

section

variable {config : TechnicalStrategyConfig} {costs : CostEstimate} {atrFraction : ℚ}

def CostGateRefuses (config : TechnicalStrategyConfig) (costs : CostEstimate) (atrFraction : ℚ) :
    Prop :=
  ∃ roundTrip, costs.roundTrip config.expectedHoldingHours = .ok roundTrip ∧
    config.expectedAtrFraction * atrFraction < config.minimumCostMultiple * roundTrip

theorem admittedScore_of_refuses (h : CostGateRefuses config costs atrFraction) (candidate : ℚ) :
    admittedScore config costs atrFraction candidate = .ok 0 := by
  obtain ⟨roundTrip, hcosts, hless⟩ := h
  unfold admittedScore
  split
  · rename_i hzero
    rw [hzero]
  · rw [hcosts, ok_bind, if_pos hless]
    rfl

theorem not_refuses_of_passes (h : CostGatePasses config costs atrFraction) :
    ¬ CostGateRefuses config costs atrFraction := by
  rintro ⟨roundTrip, hcosts, hless⟩
  obtain ⟨other, hother, hpasses⟩ := h
  cases hother.symm.trans hcosts
  exact absurd hpasses hless.not_ge

/-- Costs that overflow are an error of every score but zero. -/
theorem admittedScore_of_neither (hpasses : ¬ CostGatePasses config costs atrFraction)
    (hrefuses : ¬ CostGateRefuses config costs atrFraction) {candidate score : ℚ}
    (hcandidate : candidate ≠ 0) : admittedScore config costs atrFraction candidate ≠ .ok score := by
  unfold admittedScore
  rw [if_neg hcandidate]
  intro h
  obtain ⟨roundTrip, hcosts, -⟩ := of_bind h
  rcases le_or_gt (config.minimumCostMultiple * roundTrip)
    (config.expectedAtrFraction * atrFraction) with hle | hlt
  · exact hpasses ⟨roundTrip, hcosts, hle⟩
  · exact hrefuses ⟨roundTrip, hcosts, hlt⟩

theorem admittedScore_ne_zero (hrefuses : ¬ CostGateRefuses config costs atrFraction)
    {candidate : ℚ} (hcandidate : candidate ≠ 0) :
    admittedScore config costs atrFraction candidate ≠ .ok 0 := by
  by_cases hpasses : CostGatePasses config costs atrFraction
  · rw [admittedScore_of_passes hpasses]
    intro h
    exact hcandidate (Except.ok.inj h)
  · exact admittedScore_of_neither hpasses hrefuses hcandidate

end

section

variable {config : TechnicalStrategyConfig} {costs : CostEstimate} {atrFraction : ℚ}
  {timing : ℚ → ExitTiming} {current raw score side : ℚ}

theorem stored_again_of_unconfirmed (h : ThresholdsOrdered config)
    (hcongr : ∀ a b, signum a = signum b → timing a = timing b)
    (hstored : storedScore config none (timing current) costs atrFraction current raw = .ok score) :
    storedScore config none (timing score) costs atrFraction score raw = .ok score := by
  have hthreshold : 0 < config.reduceThreshold := h.flatten_nonneg.trans_lt h.flatten_lt
  by_cases hzero : score = 0
  · have hbands : bandedScore config none 0 (clampScore raw) = 0 := by
      unfold bandedScore
      simp
    have htimed : timedScore config (timing 0) 0 0 = 0 := by
      unfold timedScore
      split
      · rfl
      · simp
      · rfl
    unfold storedScore
    rw [hzero, hbands, htimed]
    exact if_pos rfl
  · unfold storedScore at hstored ⊢
    have hscore := (admittedScore_cases hstored).resolve_right hzero
    rw [← hscore] at hstored
    rw [← hstored]
    congr 1
    -- the bands have left a score on the side of the score stored before
    have hside : signum (bandedScore config none current (clampScore raw)) = signum current := by
      refine (bandedScore_unconfirmed h).resolve_left fun hnone => hzero ?_
      rw [hscore, hnone]
      unfold timedScore
      split
      · rfl
      · rw [if_neg]
        rintro ⟨hcurrent, hsame⟩
        rw [signum_zero] at hsame
        exact signum_ne_zero hcurrent hsame.symm
      · rfl
    unfold timedScore at hscore
    cases htiming : timing current with
    | flatten =>
      rw [htiming] at hscore
      exact absurd hscore hzero
    | hold =>
      rw [htiming] at hscore
      have hsame : signum score = signum current := hscore ▸ hside
      have hagain : bandedScore config none score (clampScore raw) = score := by
        rcases bandedScore_congr hsame with hequal | ⟨hkept, -⟩
        · exact hequal.trans hscore.symm
        · exact hkept
      rw [hcongr score current hsame, htiming, hagain]
      rfl
    | reduce =>
      rw [htiming] at hscore
      dsimp only at hscore
      split at hscore
      · rename_i hboth
        have hsame : signum score = signum current := by
          rw [hscore, signum_signum_mul hthreshold]
        have hagain : signum (bandedScore config none score (clampScore raw)) = signum score := by
          rcases bandedScore_congr hsame with hequal | ⟨hkept, -⟩
          · rw [hequal, hside, hsame]
          · rw [hkept]
        have hscored : score ≠ 0 := hzero
        rw [hcongr score current hsame, htiming, timedScore_reduce hscored hagain, hsame]
        exact hscore.symm
      · rename_i hneither
        refine absurd ?_ hzero
        have hcurrent : current = 0 := by
          by_contra hcurrent
          exact hneither ⟨hcurrent, hside⟩
        rw [hcurrent, signum_zero, signum_score_eq_zero_iff] at hside
        rw [hscore, hcurrent, hside]

/-- A confirmed raw score that the gate refuses or an exit rule meets is stored by one of two
evaluations only. -/
theorem stored_again_iff_of_confirmed (h : ThresholdsOrdered config)
    (hcongr : ∀ a b, signum a = signum b → timing a = timing b) (hhold : timing 0 = .hold)
    (hraw : signum (clampScore raw) = side) (henter : config.enterThreshold ≤ |clampScore raw|)
    (hside : signum side = side) :
    (∀ score, storedScore config (some side) (timing current) costs atrFraction current raw =
        .ok score →
      storedScore config (some side) (timing score) costs atrFraction score raw = .ok score) ↔
    ¬ (timing current = .flatten ∧ ¬ CostGateRefuses config costs atrFraction ∨
      signum current ≠ side ∧ CostGatePasses config costs atrFraction ∧ timing side ≠ .hold) := by
  have hthreshold : 0 < config.reduceThreshold := h.flatten_nonneg.trans_lt h.flatten_lt
  have hlarge : config.reduceThreshold < |clampScore raw| := by
    linarith [h.reduce_lt, h.maintain_lt]
  have hnonzero : clampScore raw ≠ 0 := by
    intro hzero
    rw [hzero, abs_zero] at hlarge
    linarith
  have hstored : ∀ stored, storedScore config (some side) (timing stored) costs atrFraction stored
      raw = admittedScore config costs atrFraction
        (timedScore config (timing stored) stored (clampScore raw)) := by
    intro stored
    unfold storedScore
    rw [← hraw, bandedScore_confirmed h henter]
  simp only [hstored]
  by_cases hrefuses : CostGateRefuses config costs atrFraction
  · simp only [admittedScore_of_refuses hrefuses, imp_self, implies_true, true_iff]
    rintro (⟨-, hnot⟩ | ⟨-, hpasses, -⟩)
    · exact hnot hrefuses
    · exact not_refuses_of_passes hpasses hrefuses
  by_cases hflatten : timing current = .flatten
  · refine iff_of_false ?_ (fun hnot => hnot (.inl ⟨hflatten, hrefuses⟩))
    intro hagain
    have hflat : timedScore config (timing current) current (clampScore raw) = 0 := by
      rw [hflatten]
      rfl
    have hnothing : admittedScore config costs atrFraction 0 = .ok 0 := if_pos rfl
    have hentered := hagain 0 (hflat ▸ hnothing)
    rw [hhold] at hentered
    exact admittedScore_ne_zero hrefuses hnonzero hentered
  by_cases hpasses : CostGatePasses config costs atrFraction
  · simp only [admittedScore_of_passes hpasses, Except.ok.injEq, forall_eq', hflatten, false_and,
      hpasses, true_and, false_or]
    by_cases hsame : signum current = side
    · refine iff_of_true ?_ (fun hother => hother.1 hsame)
      have hcurrent : current ≠ 0 := by
        rintro rfl
        rw [signum_zero] at hsame
        exact signum_ne_zero hnonzero (hraw.trans hsame.symm)
      cases htiming : timing current with
      | flatten => exact absurd htiming hflatten
      | hold =>
        have hkept : timing (clampScore raw) = .hold :=
          (hcongr _ current (hraw.trans hsame.symm)).trans htiming
        show timedScore config (timing (clampScore raw)) (clampScore raw) (clampScore raw) = _
        rw [hkept]
        rfl
      | reduce =>
        rw [timedScore_reduce hcurrent (hraw.trans hsame.symm)]
        have hagain : signum (signum current * config.reduceThreshold) = signum current :=
          signum_signum_mul hthreshold
        have hreduced : signum current * config.reduceThreshold ≠ 0 :=
          mul_ne_zero (signum_ne_zero hcurrent) hthreshold.ne'
        rw [hcongr _ current hagain, htiming,
          timedScore_reduce hreduced (hraw.trans (hsame.symm.trans hagain.symm)), hagain]
    · have hother : signum (clampScore raw) ≠ signum current := fun heq => hsame (heq ▸ hraw)
      have hentered : timing (clampScore raw) = timing side := hcongr _ _ (hraw.trans hside.symm)
      rw [timedScore_other hflatten hother, hentered, and_iff_right hsame, not_not]
      cases timing side with
      | hold => simp [timedScore]
      | flatten => simpa [timedScore] using hnonzero.symm
      | reduce =>
        rw [timedScore_reduce hnonzero rfl]
        refine iff_of_false ?_ (by simp)
        intro hreduced
        have hsize := abs_signum_mul hnonzero config.reduceThreshold
        rw [hreduced, abs_of_pos hthreshold] at hsize
        exact absurd hsize hlarge.ne'
  · refine iff_of_true ?_ (by simp [hflatten, hpasses])
    intro score hscore
    exact absurd hscore (admittedScore_of_neither hpasses hrefuses
      (timedScore_ne_zero hthreshold hnonzero hflatten))

end

section

variable [DoubleFunctions] {engine : ScoredEngine} {asset : String} {availableGross : ℚ}
  {costs : CostEstimate} {candles : AssetCandles ℚ} {config : TechnicalStrategyConfig}
  {classification : Classification}

/-- Where the candles are classified, the exit rule has its averages. -/
theorem exists_timing (h : classify candles config = .ok (some classification)) :
    ∃ timing : ℚ → ExitTiming, timing 0 = .hold ∧
      ∀ current, primaryExit30m candles current = .ok (timing current) := by
  have hexists : ∀ current, ∃ timing, primaryExit30m candles current = .ok timing := by
    intro current
    unfold classify at h
    dsimp only at h
    split at h
    · cases h
    obtain ⟨regime, -, h⟩ := of_bind h
    obtain ⟨trend4, -, h⟩ := of_bind h
    obtain ⟨trend1, -, h⟩ := of_bind h
    obtain ⟨triggered, htrigger, -⟩ := of_bind h
    unfold trigger30m at htrigger
    obtain ⟨rsi14, hrsi, htrigger⟩ := of_bind htrigger
    obtain ⟨close, hclose, htrigger⟩ := of_bind htrigger
    obtain ⟨ma7, hma7, htrigger⟩ := of_bind htrigger
    obtain ⟨ma21, hma21, htrigger⟩ := of_bind htrigger
    obtain ⟨ma50, -, htrigger⟩ := of_bind htrigger
    obtain ⟨volumeZ, -, htrigger⟩ := of_bind htrigger
    obtain ⟨previousClose, hpreviousClose, htrigger⟩ := of_bind htrigger
    obtain ⟨previousMa7, -, htrigger⟩ := of_bind htrigger
    obtain ⟨previousMa21, hpreviousMa21, -⟩ := of_bind htrigger
    unfold primaryExit30m
    dsimp only
    rw [hrsi, hclose, hma7, hma21, hpreviousClose, hpreviousMa21]
    split
    · exact ⟨_, rfl⟩
    · split
      · exact ⟨_, rfl⟩
      · exact ⟨_, rfl⟩
  choose timing htiming using hexists
  refine ⟨timing, ?_, htiming⟩
  exact timing_of_current_zero (htiming 0)

/-- The score that an evaluation returns. -/
def evaluatedScore (engine : ScoredEngine) (asset : String) (availableGross : ℚ)
    (costs : CostEstimate) : Except StrategyError (Option ℚ) :=
  (engine.evaluate asset availableGross costs).1.map (Option.map TechnicalTarget.score)

theorem evaluate_classified {timing : ExitTiming}
    (hcandles : engine.candles.assets[asset]? = some candles)
    (hclass : classify candles engine.config = .ok (some classification))
    (htiming : primaryExit30m candles (engine.currentScore asset) = .ok timing) :
    evaluatedScore engine asset availableGross costs =
        (engine.nextScore asset classification timing costs).map some ∧
      (engine.evaluate asset availableGross costs).2 =
        match engine.nextScore asset classification timing costs with
        | .error _ => engine
        | .ok score => engine.withScore asset score := by
  unfold evaluatedScore ScoredEngine.evaluate
  rw [hcandles]
  dsimp only
  rw [hclass]
  rw [htiming]
  dsimp only
  cases engine.nextScore asset classification timing costs with
  | error e => exact ⟨rfl, rfl⟩
  | ok score => exact ⟨rfl, rfl⟩

/-- The triggers confirm a side, and the exit rule meets the entry: it flattens the score stored
before while the gate does not refuse the side, or it does not hold the score of the side, which is
not the one stored before, while the gate lets it pass. -/
def Undone (engine : ScoredEngine) (asset : String) (costs : CostEstimate) : Prop :=
  ∃ candles classification side, engine.candles.assets[asset]? = some candles ∧
    classify candles engine.config = .ok (some classification) ∧
    confirmedTriggerDirection classification.state.trigger30m classification.state.trigger15m =
      some side ∧
    (primaryExit30m candles (engine.currentScore asset) = .ok .flatten ∧
        ¬ CostGateRefuses engine.config costs classification.atrFraction ∨
      signum (engine.currentScore asset) ≠ side ∧
        CostGatePasses engine.config costs classification.atrFraction ∧
        primaryExit30m candles side ≠ .ok .hold)

theorem settles_of_unclassified {availableGross laterGross : ℚ}
    (h : ∀ candles classification, engine.candles.assets[asset]? = some candles →
      classify candles engine.config ≠ .ok (some classification)) :
    evaluatedScore (engine.evaluate asset availableGross costs).2 asset laterGross costs =
      evaluatedScore engine asset availableGross costs := by
  have hresult : ∃ result : Except StrategyError (Option ℚ), ∀ gross : ℚ,
      evaluatedScore engine asset gross costs = result ∧
        (engine.evaluate asset gross costs).2 = engine := by
    unfold evaluatedScore ScoredEngine.evaluate
    cases hcandles : engine.candles.assets[asset]? with
    | none => exact ⟨.ok none, fun _ => ⟨rfl, rfl⟩⟩
    | some candles =>
      dsimp only
      cases hclass : classify candles engine.config with
      | error e => exact ⟨.error e, fun _ => ⟨rfl, rfl⟩⟩
      | ok classified =>
        cases classified with
        | none => exact ⟨.ok none, fun _ => ⟨rfl, rfl⟩⟩
        | some classification => exact absurd hclass (h candles classification hcandles)
  obtain ⟨result, hresult⟩ := hresult
  rw [(hresult availableGross).2, (hresult laterGross).1, (hresult availableGross).1]

/-- Of a classified asset the second evaluation stores what the first one has stored, or the first
one has failed. -/
theorem settles_iff_of_classified {timing : ℚ → ExitTiming} {availableGross laterGross : ℚ}
    (hcandles : engine.candles.assets[asset]? = some candles)
    (hclass : classify candles engine.config = .ok (some classification))
    (htiming : ∀ current, primaryExit30m candles current = .ok (timing current)) :
    evaluatedScore (engine.evaluate asset availableGross costs).2 asset laterGross costs =
        evaluatedScore engine asset availableGross costs ↔
      ∀ score, engine.nextScore asset classification (timing (engine.currentScore asset)) costs =
          .ok score →
        (engine.withScore asset score).nextScore asset classification (timing score) costs =
          .ok score := by
  obtain ⟨hfirst, hstate⟩ := @evaluate_classified _ _ _ availableGross costs _ _ _ hcandles hclass
    (htiming _)
  rw [hstate, hfirst]
  cases hnext : engine.nextScore asset classification (timing (engine.currentScore asset)) costs with
  | error e =>
    rw [(evaluate_classified hcandles hclass (htiming _)).1, hnext]
    simp
  | ok score =>
    have hlater : primaryExit30m candles ((engine.withScore asset score).currentScore asset) =
        .ok (timing score) := by
      rw [currentScore_withScore, htiming]
    have hsecond := (@evaluate_classified _ (engine.withScore asset score) _ laterGross costs _ _ _
      hcandles hclass hlater).1
    rw [hsecond]
    simp only [Except.ok.injEq, forall_eq']
    cases (engine.withScore asset score).nextScore asset classification (timing score) costs with
    | error e => simp [Except.map]
    | ok later => simp [Except.map]

theorem undone_iff {side : ℚ} {timing : ℚ → ExitTiming}
    (hcandles : engine.candles.assets[asset]? = some candles)
    (hclass : classify candles engine.config = .ok (some classification))
    (hconfirmed : confirmedTriggerDirection classification.state.trigger30m
      classification.state.trigger15m = some side)
    (htiming : ∀ current, primaryExit30m candles current = .ok (timing current)) :
    Undone engine asset costs ↔
      timing (engine.currentScore asset) = .flatten ∧
          ¬ CostGateRefuses engine.config costs classification.atrFraction ∨
        signum (engine.currentScore asset) ≠ side ∧
          CostGatePasses engine.config costs classification.atrFraction ∧ timing side ≠ .hold := by
  unfold Undone
  constructor
  · rintro ⟨found, other, otherSide, hfound, hother, hotherSide, hundone⟩
    cases hcandles.symm.trans hfound
    cases hclass.symm.trans hother
    cases hconfirmed.symm.trans hotherSide
    simpa only [htiming, Except.ok.injEq, ne_eq] using hundone
  · intro hundone
    refine ⟨candles, classification, side, hcandles, hclass, hconfirmed, ?_⟩
    simpa only [htiming, Except.ok.injEq, ne_eq] using hundone

theorem settles_iff (hvalid : engine.config.validate = .ok ()) (asset : String)
    (availableGross laterGross : ℚ) (costs : CostEstimate) :
    evaluatedScore (engine.evaluate asset availableGross costs).2 asset laterGross costs =
      evaluatedScore engine asset availableGross costs ↔ ¬ Undone engine asset costs := by
  have hordered := thresholdsOrdered_of_validate hvalid
  by_cases hclassified : ∃ candles classification, engine.candles.assets[asset]? = some candles ∧
      classify candles engine.config = .ok (some classification)
  · obtain ⟨candles, classification, hcandles, hclass⟩ := hclassified
    obtain ⟨timing, hhold, htiming⟩ := exists_timing hclass
    have hcongr : ∀ a b, signum a = signum b → timing a = timing b := by
      intro a b hside
      have hsame : primaryExit30m candles a = primaryExit30m candles b := primaryExit30m_congr hside
      rw [htiming, htiming] at hsame
      exact Except.ok.inj hsame
    rw [settles_iff_of_classified hcandles hclass htiming]
    unfold ScoredEngine.nextScore
    simp only [currentScore_withScore]
    show (∀ score, _ → storedScore engine.config _ _ _ _ _ (technicalScore _
      engine.config.enterThreshold) = _) ↔ _
    cases hconfirmed : confirmedTriggerDirection classification.state.trigger30m
        classification.state.trigger15m with
    | none =>
      refine iff_of_true (fun score hstored =>
        stored_again_of_unconfirmed hordered hcongr hstored) ?_
      rintro ⟨found, other, side, hfound, hother, hside, -⟩
      cases hcandles.symm.trans hfound
      cases hclass.symm.trans hother
      cases hconfirmed.symm.trans hside
    | some side =>
      obtain ⟨hraw, henter, hside⟩ := clampScore_confirmed hvalid hconfirmed
      rw [stored_again_iff_of_confirmed hordered hcongr hhold hraw henter hside,
        undone_iff hcandles hclass hconfirmed htiming]
  · refine iff_of_true (settles_of_unclassified ?_) ?_
    · intro candles classification hcandles hclass
      exact hclassified ⟨candles, classification, hcandles, hclass⟩
    · rintro ⟨candles, classification, -, hcandles, hclass, -⟩
      exact hclassified ⟨candles, classification, hcandles, hclass⟩

/-- **Two evaluations in a row.**  An evaluation that follows another one with the same costs and no
candle between them returns its score, exactly if no exit rule meets an entry. -/
theorem evaluation_settles_iff (hvalid : engine.config.validate = .ok ()) (asset : String)
    (availableGross laterGross : ℚ) (costs : CostEstimate) :
    evaluatedScore (engine.evaluate asset availableGross costs).2 asset laterGross costs =
      evaluatedScore engine asset availableGross costs ↔ ¬ Undone engine asset costs :=
  settles_iff hvalid asset availableGross laterGross costs

end

/-- A fresh engine has no candles, and its evaluations return nothing. -/
theorem evaluation_settles_iff_fresh :
    ∃ _ : DoubleFunctions,
      evaluatedScore (freshScores.evaluate "BTC" 1000 freeCosts).2 "BTC" 1000 freeCosts =
        evaluatedScore freshScores "BTC" 1000 freeCosts := by
  refine ⟨sampleDoubles, (@evaluation_settles_iff sampleDoubles freshScores default_validate _ _ _
    _).mpr ?_⟩
  rintro ⟨candles, -, -, hcandles, -⟩
  have hnone : freshScores.candles.assets["BTC"]? = none := ExtTreeMap.getElem?_empty
  rw [hnone] at hcandles
  cases hcandles

/-- Half an hour ago the prices have fallen out of the momentum, and a low price has just left the
moving average of 21 candles. -/
def turningCloses : CandleInterval → List ℚ
  | .thirtyMinutes => List.replicate 29 100 ++ [30] ++ List.replicate 6 110
      ++ List.replicate 14 100 ++ [101]
  | interval => entryCloses interval

theorem turningCloses_other {interval : CandleInterval} (h : interval ≠ .thirtyMinutes) :
    turningCloses interval = entryCloses interval := by
  cases interval
  case thirtyMinutes => exact absurd rfl h
  all_goals rfl

theorem holds_turning : HoldsCloses (run candleStep ⟨∅⟩ (candlesOf turningCloses)) turningCloses := by
  refine holds_candlesOf ?_ ?_
  · intro interval
    by_cases h : interval = .thirtyMinutes
    · subst h
      norm_num [turningCloses]
    · rw [turningCloses_other h]
      exact entryCloses_gt interval
  · intro interval
    by_cases h : interval = .thirtyMinutes
    · subst h
      simp [turningCloses]
    · rw [turningCloses_other h]
      exact entryCloses_length interval

theorem classified_turning : ∃ classification,
    @classified sampleDoubles turningCloses = some classification ∧
      confirmedTriggerDirection classification.state.trigger30m classification.state.trigger15m =
        some 1 ∧
      0 ≤ classification.atrFraction := by
  have hsome : (@classified sampleDoubles turningCloses).any (fun classification =>
      confirmedTriggerDirection classification.state.trigger30m classification.state.trigger15m =
        some 1 ∧ 0 ≤ classification.atrFraction) = true := by
    decide +kernel
  obtain ⟨classification, hclass, hboth⟩ := (Option.any_eq_true _ _).mp hsome
  exact ⟨classification, hclass, of_decide_eq_true hboth⟩

/-- A long score of 0.65 that is entered from none is flattened by the next evaluation. -/
theorem entry_undone :
    ¬ ∀ [DoubleFunctions] (config : TechnicalStrategyConfig) (engine : ScoredEngine)
        (calls : List TechnicalCall) (asset : String) (availableGross : ℚ) (costs : CostEstimate),
      ScoredEngine.new config = .ok engine →
        evaluatedScore ((run ScoredEngine.step engine calls).evaluate asset availableGross costs).2
            asset availableGross costs =
          evaluatedScore (run ScoredEngine.step engine calls) asset availableGross costs := by
  intro h
  have hsettles := @h sampleDoubles .default freshScores (acceptCalls (candlesOf turningCloses))
    "BTC" 1000 freeCosts new_freshScores
  rw [@run_acceptCalls sampleDoubles] at hsettles
  have hholds := holds_turning
  change HoldsCloses (run candleStep freshScores.candles _) _ at hholds
  generalize run candleStep freshScores.candles (candlesOf turningCloses) = candles
    at hholds hsettles
  obtain ⟨accepted, hentry⟩ := hholds.entry entryCloses_ne_nil
  obtain ⟨classification, hclass, hconfirmed, hatr⟩ := classified_turning
  refine (@settles_iff sampleDoubles { freshScores with candles } default_validate _ _ _ _).mp hsettles
    ⟨_, classification, 1, hentry, @classify_of_classified sampleDoubles _ _ hclass _,
      hconfirmed, .inr ⟨?_, ?_, ?_⟩⟩
  · rw [fresh_currentScore, signum_zero]
    norm_num
  · exact freeCosts_passes hatr
  · have htiming : primaryExit30m (listedCandles turningCloses) 1 = .ok .flatten := by
      decide +kernel
    intro hhold
    cases htiming.symm.trans hhold

end CopyTrade.Analysis
