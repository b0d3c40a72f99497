import CopyTrade.Analysis.Decision.CohortSymmetry
import CopyTrade.Foundation.Runs
import Mathlib.Data.List.TakeWhile

/-!
# The evaluations of the cohort

`evaluate` records the new frame of an asset before it computes what may still fail.  `look` is the
part of the call in front of the record and `conclude` the part behind it.
-/

namespace CopyTrade.Analysis

open Foundation Model Model.Cohort
open Model.ExactDecimal Model.Cohort.VeryProfitableCohortEngine

section

variable {D : Type} [Decimal D] {input : CohortSignalInput D}
  {engine : VeryProfitableCohortEngine D} {history : List (AggregateFrame D)}
  {current : AggregateFrame D} {observation : Observation D}

def look (input : CohortSignalInput D) (engine : VeryProfitableCohortEngine D) :
    Except CohortError (Observation D) :=
  currentFrame input >>=
    observe input.maximumPositionChangeAgeMs (engine.frames input.aggregate.asset)

def recorded (asset : String) (current : AggregateFrame D)
    (engine : VeryProfitableCohortEngine D) : VeryProfitableCohortEngine D :=
  putFrame asset current (openHistory asset engine)

omit [Decimal D] in
theorem frames_openHistory (asset other : String) :
    (openHistory asset engine).frames other = engine.frames other := by
  unfold openHistory frames
  simp only [getElem?_insert_eq]
  split
  · rename_i heq
    rw [heq]
    rfl
  · rfl

theorem frames_recorded (asset other : String) :
    (recorded asset current engine).frames other =
      if asset = other then recordFrame (engine.frames other) current else engine.frames other := by
  unfold recorded putFrame
  rw [frames_openHistory, frames]
  simp only [getElem?_insert_eq]
  split
  · rename_i heq
    rw [heq]
    rfl
  · exact frames_openHistory asset other

theorem current_of_observe {maximumAgeMs : ℕ}
    (h : observe maximumAgeMs history current = .ok observation) :
    observation.current = current := by
  unfold observe at h
  obtain ⟨_, -, h⟩ := of_bind h
  obtain ⟨_, -, h⟩ := of_bind h
  obtain ⟨_, -, h⟩ := of_bind h
  obtain ⟨_, -, h⟩ := of_bind h
  obtain ⟨_, -, h⟩ := of_bind h
  rw [pure_eq_ok_iff] at h
  rw [← h]

/-- The frames of every asset and the targets with their versions are the same. -/
structure Unchanged (before after : VeryProfitableCohortEngine D) : Prop where
  frames_eq : ∀ asset, after.frames asset = before.frames asset
  targets_eq : after.targets = before.targets

variable {error : CohortError} {previousTarget : Option (MaterialTargetState D)} {tolerance : D}

theorem evaluate_of_refused (h : look input engine = .error error) :
    ∃ next, evaluate input engine = (.error error, next) ∧ Unchanged engine next := by
  unfold look at h
  unfold evaluate
  cases hcurrent : currentFrame input with
  | error e =>
    rw [hcurrent, error_bind] at h
    cases h
    exact ⟨engine, rfl, fun _ => rfl, rfl⟩
  | ok current =>
    rw [hcurrent, ok_bind] at h
    refine ⟨openHistory input.aggregate.asset engine, ?_, frames_openHistory _, rfl⟩
    simp only [InPlace.bind_run, InPlace.andThen, InPlace.read, InPlace.check, InPlace.write, h]

theorem evaluate_of_seen (h : look input engine = .ok observation) :
    evaluate input engine = conclude input observation engine.targets[input.aggregate.asset]?
      (recorded input.aggregate.asset observation.current engine) := by
  obtain ⟨current, hcurrent, hobserve⟩ := of_bind h
  unfold evaluate recorded
  simp only [InPlace.bind_run, InPlace.andThen, InPlace.read, InPlace.check, InPlace.write, hcurrent,
    hobserve, current_of_observe hobserve]

/-- The frame is the last one already, and none is older than two hours. -/
structure FramesStay (history : List (AggregateFrame D)) (current : AggregateFrame D) : Prop where
  last : ∃ last, history.getLast? = some last ∧ last.eqv current = true
  kept : ∀ first, history.head? = some first →
    current.observedAtMs ≤ saturatingAdd first.observedAtMs historyRetentionMs

theorem getLast?_dropWhile {α : Type} {p : α → Bool} {l : List α} {a : α}
    (h : l.getLast? = some a) (hp : p a = false) : (l.dropWhile p).getLast? = some a := by
  obtain ⟨init, rfl⟩ := List.getLast?_eq_some_iff.mp h
  rw [List.dropWhile_append]
  split
  · simp [hp]
  · simp

theorem getLast?_recordFrame (history : List (AggregateFrame D))
    (hword : current.observedAtMs ≤ maxU64) :
    ∃ last, (recordFrame history current).getLast? = some last ∧ last.eqv current = true := by
  have hyoung (frame : AggregateFrame D) (h : frame.eqv current = true) :
      decide (saturatingAdd frame.observedAtMs historyRetentionMs < current.observedAtMs) =
        false := by
    have htime : frame.observedAtMs = current.observedAtMs := by
      simp only [AggregateFrame.eqv, Bool.and_eq_true, beq_iff_eq] at h
      exact h.1.1
    rw [decide_eq_false_iff_not, htime]
    unfold saturatingAdd
    omega
  have heqv : current.eqv current = true := by simp [AggregateFrame.eqv]
  unfold recordFrame
  by_cases hlast : history.getLast?.any (fun last => last.eqv current) = true
  · obtain ⟨last, hsome, hsame⟩ := (Option.any_eq_true _ _).mp hlast
    rw [if_pos hlast]
    exact ⟨last, getLast?_dropWhile hsome (hyoung last hsame), hsame⟩
  · rw [if_neg hlast]
    exact ⟨current, getLast?_dropWhile List.getLast?_concat (hyoung current heqv), heqv⟩

theorem recordFrame_eq_self_iff (hword : current.observedAtMs ≤ maxU64) :
    recordFrame history current = history ↔ FramesStay history current := by
  constructor
  · intro h
    obtain ⟨last, hlast, hsame⟩ := getLast?_recordFrame history hword
    rw [h] at hlast
    refine ⟨⟨last, hlast, hsame⟩, fun first hfirst => ?_⟩
    have hany : history.getLast?.any (fun last => last.eqv current) = true := by
      rw [hlast]
      exact hsame
    unfold recordFrame at h
    rw [if_pos hany, List.dropWhile_eq_self_iff] at h
    obtain ⟨rest, rfl⟩ := List.head?_eq_some_iff.mp hfirst
    exact not_lt.mp (mt decide_eq_true (h (Nat.succ_pos _)))
  · rintro ⟨⟨last, hlast, hsame⟩, hkept⟩
    have hany : history.getLast?.any (fun last => last.eqv current) = true := by
      rw [hlast]
      exact hsame
    unfold recordFrame
    rw [if_pos hany, List.dropWhile_eq_self_iff]
    intro hlength
    have hfirst := hkept _ (List.head?_eq_getElem?.trans (List.getElem?_eq_getElem hlength))
    simpa using hfirst

/-- The decisions of a call after its frame is recorded. -/
def verdict (input : CohortSignalInput D) (observation : Observation D)
    (previousTarget : Option (MaterialTargetState D)) :
    Except CohortError (Assessment D × Settlement D) := do
  let assessment ← assess input observation previousTarget
  let settlement ← settle previousTarget assessment.proposed input.rebalanceTolerance
  pure (assessment, settlement)

theorem conclude_undecided (h : verdict input observation previousTarget = .error error) :
    conclude input observation previousTarget engine = (.error error, engine) := by
  unfold verdict at h
  unfold conclude
  cases hassess : assess input observation previousTarget with
  | error e =>
    rw [hassess, error_bind] at h
    cases h
    rfl
  | ok assessment =>
    rw [hassess, ok_bind] at h
    rw [InPlace.check_run_ok]
    cases hsettle : settle previousTarget assessment.proposed input.rebalanceTolerance with
    | error e =>
      rw [hsettle, error_bind] at h
      cases h
      rfl
    | ok settlement =>
      rw [hsettle, ok_bind] at h
      cases h

theorem conclude_decided {decided : Assessment D × Settlement D}
    (h : verdict input observation previousTarget = .ok decided) :
    conclude input observation previousTarget engine =
      ((orArithmetic (Decimal.checkedAdd decided.2.target.sourceTarget input.technicalTarget)).map
          (indicatorRecord input observation decided.1 decided.2),
        putTarget input.aggregate.asset decided.2 engine) := by
  obtain ⟨assessment, hassess, h⟩ := of_bind h
  obtain ⟨settlement, hsettle, h⟩ := of_bind h
  rw [pure_eq_ok_iff] at h
  subst h
  unfold conclude
  rw [hassess, InPlace.check_run_ok, hsettle, InPlace.check_run_ok]
  simp only [InPlace.bind_run, InPlace.andThen, InPlace.check, InPlace.write]
  cases Decimal.checkedAdd settlement.target.sourceTarget input.technicalTarget with
  | none => rfl
  | some combined => rfl

/-- No step after the record fails, unless the record leaves the frames and nothing is stored before
the failure. -/
structure LeavesNoTrace (input : CohortSignalInput D) (engine : VeryProfitableCohortEngine D)
    (observation : Observation D) : Prop where
  decides : ∀ error, verdict input observation engine.targets[input.aggregate.asset]? = .error error →
    error ≠ .panicked → FramesStay (engine.frames input.aggregate.asset) observation.current
  combines : ∀ decided, verdict input observation engine.targets[input.aggregate.asset]? =
      .ok decided →
    Decimal.checkedAdd decided.2.target.sourceTarget input.technicalTarget = none →
    FramesStay (engine.frames input.aggregate.asset) observation.current ∧
      decided.2.stored = false

variable {proposed : MaterialTargetState D} {settlement : Settlement D}

theorem settled_version_ne {previous : MaterialTargetState D}
    (h : settle (some previous) proposed tolerance = .ok settlement)
    (hstored : settlement.stored = true) : settlement.target.version = previous.version + 1 := by
  obtain ⟨material, -, h⟩ := of_bind h
  cases material with
  | false =>
    cases h
    cases hstored
  | true =>
    obtain ⟨version, hversion, h⟩ := of_bind h
    cases h
    cases hchecked : checkedAddU64 previous.version 1 with
    | none =>
      rw [hchecked] at hversion
      cases hversion
    | some next =>
      rw [hchecked] at hversion
      cases hversion
      exact (checkedAddU64_eq_some_iff.mp hchecked).1.symm

theorem putTarget_targets_eq_iff (asset : String)
    (h : settle engine.targets[asset]? proposed tolerance = .ok settlement) :
    (putTarget asset settlement engine).targets = engine.targets ↔ settlement.stored = false := by
  unfold putTarget
  cases hstored : settlement.stored with
  | false => simp
  | true =>
    simp only [if_true, insert_eq_self_iff, Bool.true_eq_false, iff_false]
    intro hsame
    rw [hsame] at h
    have hversion := settled_version_ne h hstored
    omega

theorem unchanged_recorded_iff (asset : String) (hword : current.observedAtMs ≤ maxU64) :
    Unchanged engine (recorded asset current engine) ↔ FramesStay (engine.frames asset) current := by
  rw [← recordFrame_eq_self_iff hword]
  constructor
  · intro h
    have hframes := h.frames_eq asset
    rwa [frames_recorded, if_pos rfl] at hframes
  · intro h
    refine ⟨fun other => ?_, rfl⟩
    rw [frames_recorded]
    split
    · rename_i heq
      rw [← heq, h]
    · rfl

theorem unchanged_putTarget_iff {asset : String} {before : VeryProfitableCohortEngine D}
    (htargets : before.targets = engine.targets)
    (h : settle engine.targets[asset]? proposed tolerance = .ok settlement) :
    Unchanged engine (putTarget asset settlement before) ↔
      Unchanged engine before ∧ settlement.stored = false := by
  have hframes (other : String) : (putTarget asset settlement before).frames other =
      before.frames other := by
    unfold putTarget
    split <;> rfl
  rw [← htargets] at h
  rw [← putTarget_targets_eq_iff asset h]
  constructor
  · intro hkept
    exact ⟨⟨fun other => (hframes other).symm.trans (hkept.frames_eq other), htargets⟩,
      hkept.targets_eq.trans htargets.symm⟩
  · rintro ⟨hkept, hsame⟩
    exact ⟨fun other => (hframes other).trans (hkept.frames_eq other), hsame.trans htargets⟩

theorem observedAt_of_look (h : look input engine = .ok observation) :
    observation.current.observedAtMs = input.aggregate.observedAtMs := by
  obtain ⟨current, hcurrent, hobserve⟩ := of_bind h
  obtain ⟨_, -, hcurrent⟩ := of_bind hcurrent
  obtain ⟨_, -, hcurrent⟩ := of_bind hcurrent
  obtain ⟨_, -, hcurrent⟩ := of_bind hcurrent
  rw [current_of_observe hobserve, ← pure_eq_ok_iff.mp hcurrent]

/-- A failed call leaves the engine exactly where it fails before the frame is recorded, or cleanly
after it. -/
theorem evaluate_atomic_iff (input : CohortSignalInput D) (engine : VeryProfitableCohortEngine D)
    (hword : input.aggregate.observedAtMs ≤ maxU64) :
    (∀ error next, evaluate input engine = (.error error, next) → error ≠ .panicked →
        Unchanged engine next) ↔
      ∀ observation, look input engine = .ok observation → LeavesNoTrace input engine observation := by
  cases hlook : look input engine with
  | error e =>
    obtain ⟨next, hrun, hunchanged⟩ := evaluate_of_refused hlook
    rw [hrun]
    constructor
    · intro _ observation h
      cases h
    · rintro _ error _ ⟨⟩ -
      exact hunchanged
  | ok observation =>
    rw [← observedAt_of_look hlook] at hword
    have hrecorded : Unchanged engine (recorded input.aggregate.asset observation.current engine) ↔
        FramesStay (engine.frames input.aggregate.asset) observation.current :=
      unchanged_recorded_iff input.aggregate.asset hword
    rw [evaluate_of_seen hlook]
    cases hverdict : verdict input observation engine.targets[input.aggregate.asset]? with
    | error e =>
      rw [conclude_undecided hverdict]
      constructor
      · rintro h observation ⟨⟩
        refine ⟨fun error herror hpanic => ?_, fun decided hdecided => ?_⟩
        · rw [hverdict] at herror
          cases herror
          exact hrecorded.mp (h e _ rfl hpanic)
        · rw [hverdict] at hdecided
          cases hdecided
      · rintro h error _ ⟨⟩ hpanic
        exact hrecorded.mpr ((h observation rfl).decides e hverdict hpanic)
    | ok decided =>
      rw [conclude_decided hverdict]
      obtain ⟨assessment, -, hrest⟩ := of_bind hverdict
      obtain ⟨settlement, hsettle, hdecided⟩ := of_bind hrest
      rw [pure_eq_ok_iff] at hdecided
      subst hdecided
      have hstored : Unchanged engine (putTarget input.aggregate.asset settlement
          (recorded input.aggregate.asset observation.current engine)) ↔
          FramesStay (engine.frames input.aggregate.asset) observation.current ∧
            settlement.stored = false := by
        have htargets : (recorded input.aggregate.asset observation.current engine).targets =
          engine.targets := rfl
        rw [unchanged_putTarget_iff htargets hsettle, hrecorded]
      cases hcombined : Decimal.checkedAdd settlement.target.sourceTarget input.technicalTarget with
      | none =>
        constructor
        · rintro h observation ⟨⟩
          refine ⟨fun error herror => ?_, fun decided hdecided _ => ?_⟩
          · rw [hverdict] at herror
            cases herror
          · rw [hverdict] at hdecided
            cases hdecided
            exact hstored.mp (h .arithmetic _ rfl (by simp))
        · rintro h error _ ⟨⟩ -
          exact hstored.mpr ((h observation rfl).combines _ hverdict hcombined)
      | some combined =>
        constructor
        · rintro - observation ⟨⟩
          refine ⟨fun error herror => ?_, fun decided hdecided hnone => ?_⟩
          · rw [hverdict] at herror
            cases herror
          · rw [hverdict] at hdecided
            cases hdecided
            rw [hcombined] at hnone
            cases hnone
        · rintro - error _ ⟨⟩

end

def longAggregate (asset : String) (observedAtMs : ℕ) : CohortAssetAggregate ℚ where
  asset
  observedAtMs
  walletCountAfterFiltering := 1
  positionedWalletCount := 1
  longNotional := 1000
  shortNotional := 0
  weightedLongNotional := 1000
  weightedShortNotional := 0
  longTraderCount := 1
  shortTraderCount := 0
  notionalBias := 1
  traderCountBias := 1
  cohortPosition := 1
  weightedRealizedQuality := 1
  unrealizedProfitFraction := 0
  dominantWalletPercentage := 100
  observedEntryOpportunity := some 100

def sampleSignal (aggregate : CohortAssetAggregate ℚ) : CohortSignalInput ℚ where
  membership := ⟨1, "", 1, 0⟩
  aggregate
  filteredWalletConsensus := 1
  activeTwap := none
  marketConfirmation := 1
  penalties := ⟨0, 0, 0, 0⟩
  riskFlags := ⟨false, false, false, false, false, false, false⟩
  positionChangeAgeMs := 0
  maximumPositionChangeAgeMs := 3600000
  dominantWalletLimitPct := 100
  currentPrice := 100
  rUnit := 1
  estimatedRoundTripCostFraction := 0
  expectedMoveFraction := 1
  sourceBudgetFraction := 1
  existingWalletSourceTarget := 1 / 2
  technicalTarget := 0
  rebalanceTolerance := 1 / 100

def directionlessTwap : CohortSignalInput ℚ :=
  { sampleSignal (longAggregate "BTC" 1) with activeTwap := some ⟨1, 0, 1, 0, 1, 0, false⟩ }

theorem evaluate_directionlessTwap : ∃ error next,
    evaluate directionlessTwap ⟨∅, ∅⟩ = (.error error, next) ∧ error ≠ .panicked ∧
      ¬ Unchanged ⟨∅, ∅⟩ next := by
  have hrefused : ((evaluate directionlessTwap ⟨∅, ∅⟩).1.map fun _ => ()) =
      .error (.invalidSignalInput "invalid active TWAP context") := by
    decide +kernel
  have hframes : (evaluate directionlessTwap ⟨∅, ∅⟩).2.frames "BTC" = [⟨1, 1000, 1000⟩] := by
    decide +kernel
  rcases hrun : evaluate directionlessTwap ⟨∅, ∅⟩ with ⟨error | record, next⟩
  · rw [hrun] at hrefused hframes
    cases hrefused
    refine ⟨_, next, rfl, by simp, fun hunchanged => ?_⟩
    rw [hunchanged.frames_eq] at hframes
    revert hframes
    decide
  · rw [hrun] at hrefused
    cases hrefused

theorem frame_left_by_refused_twap :
    ¬ ∀ (engine : VeryProfitableCohortEngine ℚ) (input : CohortSignalInput ℚ),
      input.aggregate.observedAtMs ≤ maxU64 → ∀ error next,
        evaluate input engine = (.error error, next) → error ≠ .panicked →
          Unchanged engine next := by
  intro h
  obtain ⟨error, next, hrun, hpanic, hchanged⟩ := evaluate_directionlessTwap
  exact hchanged (h _ _ (by decide) error next hrun hpanic)

theorem evaluate_atomic_directionless :
    ¬ ∀ observation, look directionlessTwap ⟨∅, ∅⟩ = .ok observation →
      LeavesNoTrace directionlessTwap ⟨∅, ∅⟩ observation := by
  intro h
  obtain ⟨error, next, hrun, hpanic, hchanged⟩ := evaluate_directionlessTwap
  exact hchanged ((evaluate_atomic_iff directionlessTwap ⟨∅, ∅⟩ (by decide)).mpr h error next hrun
    hpanic)

variable {input : CohortSignalInput ℚ} {engine next : VeryProfitableCohortEngine ℚ}
  {observation : Observation ℚ} {previous proposed : MaterialTargetState ℚ} {tolerance : ℚ}

theorem signum_eq_zero_iff {value : ℚ} : Decimal.signum value = 0 ↔ value = 0 := by
  unfold Decimal.signum
  simp only [toRat_eq]
  split
  · rename_i h
    simp [h.ne]
  · split <;> simp_all

theorem exists_weightedSum (weight value : ℚ) (terms : List (ℚ × ℚ)) :
    ∃ sum, weightedSum weight value terms = some sum := by
  unfold weightedSum
  rw [checkedMul_eq, Option.bind_some]
  generalize weight * value = first
  induction terms generalizing first with
  | nil => exact ⟨first, rfl⟩
  | cons term terms ih => exact ih (first + term.1 * term.2)

theorem exists_observe {history : List (AggregateFrame ℚ)} {current : AggregateFrame ℚ}
    (maximumAgeMs : ℕ) (h : checkOrder current history.getLast? = .ok ()) :
    ∃ observation, observe maximumAgeMs history current = .ok observation ∧
      observation.previousFrame = history.getLast? := by
  have himpulse (horizonMs : ℕ) : ∃ impulse, impulseAt history current horizonMs maximumAgeMs =
      .ok impulse := by
    unfold impulseAt
    dsimp only
    split
    · exact ⟨_, rfl⟩
    · split
      · exact ⟨_, rfl⟩
      · rename_i hne
        rw [checkedSub_eq, Option.bind_some, checkedDiv_eq (mt (isZero_iff_eq_zero _).mpr hne)]
        exact ⟨_, rfl⟩
  obtain ⟨i5, h5⟩ := himpulse fiveMinutesMs
  obtain ⟨i15, h15⟩ := himpulse fifteenMinutesMs
  obtain ⟨i60, h60⟩ := himpulse oneHourMs
  obtain ⟨sum, hsum⟩ := exists_weightedSum (cents 20) i5 [(cents 50, i15), (cents 30, i60)]
  unfold observe
  rw [h, h5, h15, h60]
  simp only [ok_bind, hsum, orArithmetic]
  exact ⟨_, rfl, rfl⟩

def scoreOf (input : CohortSignalInput ℚ) (impulse pressure : ℚ) : ℚ :=
  attenuateMagnitude ((rawScore input impulse pressure).getD 0) (input.penalties.total.getD 0)

def refused (input : CohortSignalInput ℚ) (pressure : ℚ) (observation : Observation ℚ)
    (previousTarget : Option (MaterialTargetState ℚ)) : Finset CohortDecisionReason :=
  refusals input observation.impulse (scoreOf input observation.impulse pressure)
    (derivedShortCovering observation.previousFrame observation.current)
    (derivedRecentAdditionsUnwound previousTarget observation.impulse input.rebalanceTolerance)

def admitted (input : CohortSignalInput ℚ) (pressure : ℚ) (observation : Observation ℚ)
    (previousTarget : Option (MaterialTargetState ℚ)) : ℚ :=
  if refused input pressure observation previousTarget = ∅ then
    scoreOf input observation.impulse pressure
  else 0

def directionOf (input : CohortSignalInput ℚ) (pressure : ℚ) (observation : Observation ℚ) : ℤ :=
  proposedDirection (signalsAgree input observation.impulse)
    (scoreOf input observation.impulse pressure)

def assessed (input : CohortSignalInput ℚ) (pressure : ℚ) (observation : Observation ℚ)
    (previousTarget : Option (MaterialTargetState ℚ)) : Assessment ℚ where
  cohortScore := scoreOf input observation.impulse pressure
  chaseDistanceR := chaseDistanceR input (directionOf input pressure observation)
  reasons := if refused input pressure observation previousTarget = ∅ then
      {if 0 < directionOf input pressure observation then .eligibleLong else .eligibleShort}
    else refused input pressure observation previousTarget
  proposed :=
    { version := 0
      cohortDirection := Decimal.signum input.aggregate.cohortPosition
      impulse := observation.impulse
      filteredWalletConsensus := input.filteredWalletConsensus
      twapPressure := pressure
      existingWalletSourceTarget := input.sourceBudgetFraction * input.existingWalletSourceTarget
      veryProfitableCohortTarget :=
        input.sourceBudgetFraction * admitted input pressure observation previousTarget
      sourceTarget := input.sourceBudgetFraction * clampUnit (input.existingWalletSourceTarget +
        admitted input pressure observation previousTarget) }

variable {previousTarget : Option (MaterialTargetState ℚ)} {settlement : Settlement ℚ}

theorem assess_eq_ok_iff {assessment : Assessment ℚ} :
    assess input observation previousTarget = .ok assessment ↔
      ∃ pressure, twapPressure input = .ok pressure ∧
        assessed input pressure observation previousTarget = assessment := by
  unfold assess
  simp only [bind_eq_ok_iff (x := twapPressure input)]
  refine exists_congr fun pressure => and_congr_right fun _ => ?_
  obtain ⟨raw, hraw⟩ := exists_weightedSum (cents 30) input.aggregate.cohortPosition
    [(cents 20, observation.impulse), (cents 20, input.filteredWalletConsensus),
      (cents 15, input.aggregate.weightedRealizedQuality), (cents 10, pressure),
      (cents 5, input.marketConfirmation)]
  have hscore : rawScore input observation.impulse pressure = some raw := hraw
  have hpenalty : input.penalties.total = some (input.penalties.chase +
      [input.penalties.crowding, input.penalties.funding, input.penalties.liquidation].sum) :=
    foldlM_checkedAdd _ _
  unfold assessed admitted refused directionOf scoreOf
  simp only [hscore, hpenalty, orArithmetic, ok_bind, checkedAdd_eq, checkedMul_eq, pure_eq_ok_iff,
    Option.getD_some, zero_eq, decide_eq_true_eq]

def material (tolerance : ℚ) (previous proposed : MaterialTargetState ℚ) : Prop :=
  previous.cohortDirection ≠ proposed.cohortDirection ∨
    ∃ pair ∈ previous.pairs proposed, Decimal.signum pair.1 ≠ Decimal.signum pair.2 ∨
      tolerance < |pair.1 - pair.2|

theorem materialChange_eq_iff {changed : Bool} :
    materialChange previous proposed tolerance = .ok changed ↔
      (changed = true ↔ material tolerance previous proposed) := by
  have hapart (pairs : List (ℚ × ℚ)) : anyApart tolerance pairs =
      .ok (pairs.any fun pair => decide (tolerance < |pair.1 - pair.2|)) := by
    induction pairs with
    | nil => rfl
    | cons pair pairs ih =>
      rw [anyApart, checkedSub_eq, orPanic, ok_bind, ih, List.any_cons]
      by_cases h : tolerance < |pair.1 - pair.2| <;> simp [h]
  have hiff : material tolerance previous proposed ↔
      ((previous.cohortDirection != proposed.cohortDirection || (previous.pairs proposed).any
          fun pair => Decimal.signum pair.1 != Decimal.signum pair.2) = true ∨
        (previous.pairs proposed).any (fun pair => decide (tolerance < |pair.1 - pair.2|)) = true) := by
    unfold material
    simp only [Bool.or_eq_true, bne_iff_ne, List.any_eq_true, decide_eq_true_eq, and_or_left,
      exists_or, or_assoc]
  unfold materialChange
  dsimp only
  rw [hiff, hapart]
  split
  · rename_i h
    simp only [h, true_or, iff_true, Except.ok.injEq]
    exact eq_comm
  · rename_i h
    simp only [h, Bool.false_eq_true, false_or, Except.ok.injEq]
    rw [Bool.eq_iff_iff]
    exact Iff.comm

theorem settle_cases (h : settle previousTarget proposed tolerance = .ok settlement) :
    (previousTarget = none ∧
        settlement = ⟨proposed, true, !Decimal.isZero proposed.sourceTarget⟩) ∨
      ∃ previous, previousTarget = some previous ∧
        (material tolerance previous proposed ∧ settlement = ⟨{ proposed with
            version := previous.version + 1 }, true, !Decimal.isZero previous.sourceTarget
              || !Decimal.isZero proposed.sourceTarget⟩ ∨
          ¬ material tolerance previous proposed ∧ settlement = ⟨previous, false, false⟩) := by
  cases previousTarget with
  | none =>
    cases h
    exact .inl ⟨rfl, rfl⟩
  | some previous =>
    refine .inr ⟨previous, rfl, ?_⟩
    obtain ⟨changed, hchanged, h⟩ := of_bind h
    have hmaterial := materialChange_eq_iff.mp hchanged
    cases changed with
    | false =>
      cases h
      exact .inr ⟨mt hmaterial.mpr (by simp), rfl⟩
    | true =>
      obtain ⟨version, hversion, h⟩ := of_bind h
      cases h
      refine .inl ⟨hmaterial.mp rfl, ?_⟩
      cases hchecked : checkedAddU64 previous.version 1 with
      | none =>
        rw [hchecked] at hversion
        cases hversion
      | some next =>
        rw [hchecked] at hversion
        cases hversion
        rw [(checkedAddU64_eq_some_iff.mp hchecked).1]

variable {record : CohortIndicatorRecord ℚ} {reason : CohortDecisionReason} {pressure : ℚ}

/-- **The inversion lemma** of `evaluate`. -/
theorem evaluate_eq_ok_iff :
    evaluate input engine = (.ok record, next) ↔ ∃ observation pressure settlement,
      look input engine = .ok observation ∧ twapPressure input = .ok pressure ∧
      settle engine.targets[input.aggregate.asset]?
          (assessed input pressure observation engine.targets[input.aggregate.asset]?).proposed
          input.rebalanceTolerance = .ok settlement ∧
      record = indicatorRecord input observation
        (assessed input pressure observation engine.targets[input.aggregate.asset]?) settlement
        (settlement.target.sourceTarget + input.technicalTarget) ∧
      next = putTarget input.aggregate.asset settlement
        (recorded input.aggregate.asset observation.current engine) := by
  cases hlook : look input engine with
  | error e =>
    obtain ⟨after, hrun, -⟩ := evaluate_of_refused hlook
    simp [hrun]
  | ok observation =>
    simp only [Except.ok.injEq, exists_and_left, exists_eq_left']
    rw [evaluate_of_seen hlook]
    cases hverdict : verdict input observation engine.targets[input.aggregate.asset]? with
    | error e =>
      rw [conclude_undecided hverdict]
      constructor
      · rintro ⟨⟩
      · rintro ⟨pressure, hpressure, settlement, hsettle, -, -⟩
        have hok : verdict input observation engine.targets[input.aggregate.asset]? =
            .ok (_, settlement) :=
          bind_eq_ok_iff.mpr ⟨_, assess_eq_ok_iff.mpr ⟨pressure, hpressure, rfl⟩,
            bind_eq_ok_iff.mpr ⟨settlement, hsettle, rfl⟩⟩
        cases hverdict.symm.trans hok
    | ok decided =>
      rw [conclude_decided hverdict]
      obtain ⟨assessment, hassess, hrest⟩ := of_bind hverdict
      obtain ⟨settlement, hsettle, hdecided⟩ := of_bind hrest
      obtain ⟨pressure, hpressure, rfl⟩ := assess_eq_ok_iff.mp hassess
      rw [pure_eq_ok_iff] at hdecided
      subst hdecided
      simp only [hpressure, Except.ok.injEq, exists_eq_left', hsettle]
      constructor
      · rintro ⟨⟩
        exact ⟨rfl, rfl⟩
      · rintro ⟨rfl, rfl⟩
        rfl

/-- The part of the cohort's score that a record admits. -/
def admittedSignal (record : CohortIndicatorRecord ℚ) : ℚ :=
  if .eligibleLong ∈ record.reasons ∨ .eligibleShort ∈ record.reasons then record.cohortScore else 0

def intendedTarget (input : CohortSignalInput ℚ) (record : CohortIndicatorRecord ℚ) : ℚ :=
  input.sourceBudgetFraction *
    clampUnit (input.existingWalletSourceTarget + admittedSignal record)

def versionOf (engine : VeryProfitableCohortEngine ℚ) (asset : String) : Option ℕ :=
  engine.targets[asset]?.map MaterialTargetState.version

/-- The call proposes a material change to the last target. -/
def ChangesMaterially (input : CohortSignalInput ℚ) (engine : VeryProfitableCohortEngine ℚ) : Prop :=
  ∃ observation assessment previous, look input engine = .ok observation ∧
    assess input observation engine.targets[input.aggregate.asset]? = .ok assessment ∧
    engine.targets[input.aggregate.asset]? = some previous ∧
    materialChange previous assessment.proposed input.rebalanceTolerance = .ok true

/-- What a record says of the call that made it. -/
structure FailsClosed (input : CohortSignalInput ℚ) (engine next : VeryProfitableCohortEngine ℚ)
    (record : CohortIndicatorRecord ℚ) : Prop where
  refused : ∀ reason ∈ record.reasons, reason ≠ .eligibleLong → reason ≠ .eligibleShort →
    reason ≠ .immaterialRefresh → record.veryProfitableCohortTarget = 0
  sign_eq : Decimal.signum record.sourceTarget = Decimal.signum (intendedTarget input record)
  close : |record.sourceTarget - intendedTarget input record| ≤ input.rebalanceTolerance
  first : versionOf engine input.aggregate.asset = none → record.targetVersion = 0
  changed : ∀ version, versionOf engine input.aggregate.asset = some version →
    (ChangesMaterially input engine ∧ record.targetVersion = version + 1 ∨
      ¬ ChangesMaterially input engine ∧ record.targetVersion = version)
  stored : versionOf next input.aggregate.asset = some record.targetVersion
  root : record.independentExecutionRoot = true →
    versionOf engine input.aggregate.asset = none ∧ record.sourceTarget ≠ 0 ∨
      ∃ version, versionOf engine input.aggregate.asset = some version ∧
        record.targetVersion ≠ version

theorem bounds_of_look (h : look input engine = .ok observation) :
    0 ≤ input.sourceBudgetFraction ∧ 0 ≤ input.rebalanceTolerance := by
  obtain ⟨current, hcurrent, -⟩ := of_bind h
  obtain ⟨_, hvalid, -⟩ := of_bind hcurrent
  unfold validateSignalInput at hvalid
  dsimp only at hvalid
  split at hvalid
  · cases hvalid
  rename_i hguard
  simp only [Bool.or_eq_true, not_or, within, Bool.not_eq_true', Bool.not_eq_false,
    Bool.and_eq_true, le_iff_le, lt_iff_lt, zero_eq, not_lt] at hguard
  exact ⟨hguard.1.2.1, hguard.2⟩

theorem ne_of_mem_refusals {impulse score : ℚ} {shortCovering unwound : Bool}
    (h : reason ∈ refusals input impulse score shortCovering unwound) :
    reason ≠ .eligibleLong ∧ reason ≠ .eligibleShort ∧ reason ≠ .immaterialRefresh := by
  unfold refusals at h
  simp only [List.mem_toFinset, List.mem_map, List.mem_filter, List.mem_cons, List.not_mem_nil,
    or_false] at h
  obtain ⟨entry, ⟨hentry, -⟩, rfl⟩ := h
  rcases hentry with rfl | rfl | rfl | rfl | rfl | rfl | rfl | rfl | rfl | rfl | rfl | rfl | rfl |
    rfl | rfl <;> simp

theorem mem_reasons_iff {combined : ℚ} (hne : reason ≠ .immaterialRefresh) :
    reason ∈ (indicatorRecord input observation (assessed input pressure observation previousTarget)
        settlement combined).reasons ↔
      reason ∈ (assessed input pressure observation previousTarget).reasons := by
  unfold indicatorRecord
  split
  · rfl
  · rw [Finset.mem_insert, or_iff_right hne]

theorem admittedSignal_eq {combined : ℚ} :
    admittedSignal (indicatorRecord input observation
        (assessed input pressure observation previousTarget) settlement combined) =
      admitted input pressure observation previousTarget := by
  have hlong : CohortDecisionReason.eligibleLong ≠ .immaterialRefresh := by simp
  have hshort : CohortDecisionReason.eligibleShort ≠ .immaterialRefresh := by simp
  unfold admittedSignal admitted
  simp only [mem_reasons_iff hlong, mem_reasons_iff hshort]
  by_cases hrefused : refused input pressure observation previousTarget = ∅
  · have heligible : CohortDecisionReason.eligibleLong ∈
          (assessed input pressure observation previousTarget).reasons ∨
        CohortDecisionReason.eligibleShort ∈
          (assessed input pressure observation previousTarget).reasons := by
      simp only [assessed, hrefused, if_true, Finset.mem_singleton]
      split <;> simp
    rw [if_pos heligible, if_pos hrefused]
    rfl
  · have hnone : ¬ (CohortDecisionReason.eligibleLong ∈
          (assessed input pressure observation previousTarget).reasons ∨
        CohortDecisionReason.eligibleShort ∈
          (assessed input pressure observation previousTarget).reasons) := by
      simp only [assessed, hrefused, if_false]
      rintro (h | h)
      · exact (ne_of_mem_refusals h).1 rfl
      · exact (ne_of_mem_refusals h).2.1 rfl
    rw [if_neg hnone, if_neg hrefused]

theorem kept_of_immaterial (h : ¬ material tolerance previous proposed) :
    Decimal.signum previous.veryProfitableCohortTarget =
        Decimal.signum proposed.veryProfitableCohortTarget ∧
      Decimal.signum previous.sourceTarget = Decimal.signum proposed.sourceTarget ∧
      |previous.sourceTarget - proposed.sourceTarget| ≤ tolerance := by
  unfold material at h
  push Not at h
  have hcohort := h.2 (previous.veryProfitableCohortTarget, proposed.veryProfitableCohortTarget)
    (by simp [MaterialTargetState.pairs])
  have hsource := h.2 (previous.sourceTarget, proposed.sourceTarget)
    (by simp [MaterialTargetState.pairs])
  exact ⟨hcohort.1, hsource⟩

theorem changesMaterially_iff (hlook : look input engine = .ok observation)
    (hpressure : twapPressure input = .ok pressure)
    (hprevious : engine.targets[input.aggregate.asset]? = some previous) :
    ChangesMaterially input engine ↔ material input.rebalanceTolerance previous
      (assessed input pressure observation (some previous)).proposed := by
  unfold ChangesMaterially
  simp only [hlook, hprevious, Except.ok.injEq, Option.some.injEq, exists_and_left, exists_eq_left',
    assess_eq_ok_iff, hpressure, materialChange_eq_iff, true_iff]

theorem failsClosed_of_evaluate (h : evaluate input engine = (.ok record, next)) :
    FailsClosed input engine next record := by
  obtain ⟨observation, pressure, settlement, hlook, hpressure, hsettle, rfl, rfl⟩ :=
    evaluate_eq_ok_iff.mp h
  have htolerance := (bounds_of_look hlook).2
  have hrefused (reason : CohortDecisionReason) (hreason : reason ∈ (assessed input pressure
      observation engine.targets[input.aggregate.asset]?).reasons) (hlong : reason ≠ .eligibleLong)
      (hshort : reason ≠ .eligibleShort) : (assessed input pressure observation
        engine.targets[input.aggregate.asset]?).proposed.veryProfitableCohortTarget = 0 := by
    have hsome : refused input pressure observation engine.targets[input.aggregate.asset]? ≠ ∅ := by
      intro hempty
      simp only [assessed, hempty, if_true, Finset.mem_singleton] at hreason
      split at hreason
      · exact hlong hreason
      · exact hshort hreason
    simp [assessed, admitted, hsome]
  have hstored (target : MaterialTargetState ℚ) (root : Bool) : versionOf
      (putTarget input.aggregate.asset ⟨target, true, root⟩
        (recorded input.aggregate.asset observation.current engine)) input.aggregate.asset =
      some target.version := by
    unfold versionOf putTarget
    rw [if_pos rfl, getElem?_insert_eq, if_pos rfl]
    rfl
  rcases settle_cases hsettle with ⟨hnone, rfl⟩ | ⟨previous, hprevious, hcase⟩
  · have hversion : versionOf engine input.aggregate.asset = none := by
      rw [versionOf, hnone]
      rfl
    refine ⟨fun reason hreason hlong hshort himmaterial => ?_, ?_, ?_, fun _ => rfl, ?_, ?_, ?_⟩
    · exact hrefused reason ((mem_reasons_iff himmaterial).mp hreason) hlong hshort
    · rw [intendedTarget, admittedSignal_eq]
      rfl
    · rw [intendedTarget, admittedSignal_eq]
      simpa [indicatorRecord, assessed] using htolerance
    · intro version hsome
      rw [hversion] at hsome
      cases hsome
    · exact hstored _ _
    · intro hroot
      refine .inl ⟨hversion, ?_⟩
      simpa [indicatorRecord] using hroot
  · have hversion : versionOf engine input.aggregate.asset = some previous.version := by
      rw [versionOf, hprevious]
      rfl
    have hchanges := changesMaterially_iff hlook hpressure hprevious
    rw [hprevious] at hrefused hcase ⊢
    rcases hcase with ⟨hmaterial, rfl⟩ | ⟨himmaterial, rfl⟩
    · refine ⟨fun reason hreason hlong hshort himmaterial => ?_, ?_, ?_, ?_, ?_, ?_, ?_⟩
      · exact hrefused reason ((mem_reasons_iff himmaterial).mp hreason) hlong hshort
      · rw [intendedTarget, admittedSignal_eq]
        rfl
      · rw [intendedTarget, admittedSignal_eq]
        simpa [indicatorRecord, assessed] using htolerance
      · intro hnone
        rw [hversion] at hnone
        cases hnone
      · intro version hsome
        rw [hversion] at hsome
        cases hsome
        exact .inl ⟨hchanges.mpr hmaterial, rfl⟩
      · exact hstored _ _
      · intro _
        refine .inr ⟨previous.version, hversion, ?_⟩
        simp [indicatorRecord]
    · obtain ⟨hcohort, hsign, hclose⟩ := kept_of_immaterial himmaterial
      refine ⟨fun reason hreason hlong hshort himmaterial => ?_, ?_, ?_, ?_, ?_, ?_, ?_⟩
      · have hzero := hrefused reason ((mem_reasons_iff himmaterial).mp hreason) hlong hshort
        rw [hzero, signum_eq_zero_iff.mpr rfl] at hcohort
        exact signum_eq_zero_iff.mp hcohort
      · rw [intendedTarget, admittedSignal_eq]
        exact hsign
      · rw [intendedTarget, admittedSignal_eq]
        exact hclose
      · intro hnone
        rw [hversion] at hnone
        cases hnone
      · intro version hsome
        rw [hversion] at hsome
        cases hsome
        exact .inr ⟨mt hchanges.mp himmaterial, rfl⟩
      · exact hversion
      · rintro ⟨⟩

theorem targets_of_error {error : CohortError} (h : evaluate input engine = (.error error, next)) :
    next.targets = engine.targets := by
  cases hlook : look input engine with
  | error e =>
    obtain ⟨after, hrun, hunchanged⟩ := evaluate_of_refused hlook
    cases hrun.symm.trans h
    exact hunchanged.targets_eq
  | ok observation =>
    rw [evaluate_of_seen hlook] at h
    cases hverdict : verdict input observation engine.targets[input.aggregate.asset]? with
    | error e =>
      rw [conclude_undecided hverdict] at h
      cases h
      rfl
    | ok decided =>
      rw [conclude_decided hverdict, checkedAdd_eq] at h
      cases h

def TargetsWithin (budget : ℚ) (engine : VeryProfitableCohortEngine ℚ) : Prop :=
  ∀ (asset : String) (target : MaterialTargetState ℚ),
    engine.targets[asset]? = some target → |target.sourceTarget| ≤ budget

theorem targetsWithin_evaluate {budget : ℚ} (hwithin : TargetsWithin budget engine)
    (hbudget : input.sourceBudgetFraction = budget) :
    TargetsWithin budget (evaluate input engine).2 ∧ ∀ record next,
      evaluate input engine = (.ok record, next) → |record.sourceTarget| ≤ budget := by
  rcases hrun : evaluate input engine with ⟨error | record, next⟩
  · refine ⟨fun asset target htarget => hwithin asset target ?_, fun _ _ hok => by cases hok⟩
    rwa [← targets_of_error hrun]
  · obtain ⟨observation, pressure, settlement, hlook, -, hsettle, rfl, rfl⟩ :=
      evaluate_eq_ok_iff.mp hrun
    have hproposed (previousTarget : Option (MaterialTargetState ℚ)) :
        |(assessed input pressure observation previousTarget).proposed.sourceTarget| ≤ budget := by
      have hnonneg := (bounds_of_look hlook).1
      simp only [assessed, clampUnit_eq]
      rw [abs_mul, abs_of_nonneg hnonneg, hbudget]
      exact mul_le_of_le_one_right (hbudget ▸ hnonneg) (abs_clampTo_le_bound zero_le_one)
    have hemitted : |settlement.target.sourceTarget| ≤ budget := by
      rcases settle_cases hsettle with ⟨-, rfl⟩ | ⟨previous, hprevious, ⟨-, rfl⟩ | ⟨-, rfl⟩⟩
      · exact hproposed _
      · exact hproposed _
      · exact hwithin _ previous hprevious
    refine ⟨fun asset target htarget => ?_, fun _ _ hok => ?_⟩
    · unfold putTarget at htarget
      split at htarget
      · rw [getElem?_insert_eq] at htarget
        split at htarget
        · cases htarget
          exact hemitted
        · exact hwithin asset target htarget
      · exact hwithin asset target htarget
    · cases hok
      exact hemitted

/-- **The cohort fails closed.**  Every record of a run says of its call what it should, a failed
call stores nothing, and with a constant budget no source target is beyond it. -/
theorem cohort_fails_closed (inputs : List (CohortSignalInput ℚ)) :
    AllSteps (fun engine input => (evaluate input engine).2)
      (fun engine input =>
        (∀ record next, evaluate input engine = (.ok record, next) →
          FailsClosed input engine next record) ∧
        ∀ error next, evaluate input engine = (.error error, next) → next.targets = engine.targets)
      ⟨∅, ∅⟩ inputs ∧
    ∀ budget, (∀ input ∈ inputs, input.sourceBudgetFraction = budget) →
      AllSteps (fun engine input => (evaluate input engine).2)
        (fun engine input => ∀ record next, evaluate input engine = (.ok record, next) →
          |record.sourceTarget| ≤ budget) ⟨∅, ∅⟩ inputs := by
  constructor
  · apply allSteps_of_forall
    intro engine input
    exact ⟨fun _ _ h => failsClosed_of_evaluate h, fun _ _ h => targets_of_error h⟩
  · intro budget hbudget
    have hstart : TargetsWithin budget (⟨∅, ∅⟩ : VeryProfitableCohortEngine ℚ) := by
      intro asset target htarget
      simp at htarget
    generalize (⟨∅, ∅⟩ : VeryProfitableCohortEngine ℚ) = engine at hstart ⊢
    induction inputs generalizing engine with
    | nil => trivial
    | cons input inputs ih =>
      rw [List.forall_mem_cons] at hbudget
      have hstep := targetsWithin_evaluate hstart hbudget.1
      exact ⟨hstep.2, ih hbudget.2 _ hstep.1⟩

theorem cohort_fails_closed_sample :
    AllSteps (fun engine input => (evaluate input engine).2)
      (fun engine input => ∀ record next, evaluate input engine = (.ok record, next) →
        |record.sourceTarget| ≤ 1)
      ⟨∅, ∅⟩ [sampleSignal (longAggregate "BTC" 1), sampleSignal (longAggregate "BTC" 300001)] := by
  apply (cohort_fails_closed _).2 1
  decide

end CopyTrade.Analysis
