import CopyTrade.Foundation.MaximalRuns
import CopyTrade.Model.Observer.UnsignedState

/-!
# The expectancy of a source

The signals of an asset are cut into maximal runs of one direction: a direction has the number of
its runs that have ended and the exponential averages of their returns and lifetimes, and the last
run is the active observation.
-/

namespace CopyTrade.Analysis

open Foundation Model
open Model.ExactDecimal
open Std (ExtTreeMap)

/-- A call of `observe_source_signal`. -/
structure SourceSignal where
  asset : String
  desiredTarget : ℚ
  midpoint : ℚ
  now : ℕ

namespace SourceSignal

def direction (signal : SourceSignal) : Option SourceSignalDirection :=
  SourceSignalDirection.fromTarget signal.desiredTarget

/-- The return of a position between two signals in basis points, for its direction. -/
def returnBps (direction : SourceSignalDirection) (run : SourceSignal × SourceSignal) : ℚ :=
  let unsigned := (run.2.midpoint - run.1.midpoint) / run.1.midpoint * 10000
  match direction with
  | .long => unsigned
  | .short => -unsigned

def lifetime (run : SourceSignal × SourceSignal) : ℚ := ((run.2.now : ℚ) - run.1.now) / 1000

def average (values : List ℚ) : ℚ := values.foldl (fun mean value => mean * (3 / 4) + value / 4) 0

/-- The runs of a direction that have ended, each by its first signal and the one after it. -/
def finishedRuns (direction : SourceSignalDirection) (signals : List SourceSignal) :
    List (SourceSignal × SourceSignal) :=
  (endedRuns SourceSignal.direction signals).filter fun run =>
    run.1.direction = some direction

def reference (direction : SourceSignalDirection) (signals : List SourceSignal) :
    SourceExpectancyEstimate ℚ where
  count := (finishedRuns direction signals).length
  ewmaGrossReturnBps := average ((finishedRuns direction signals).map (returnBps direction))
  ewmaLifetimeSeconds := average ((finishedRuns direction signals).map lifetime)

/-- The run that has not ended, if its signals have a direction. -/
def unfinished (signals : List SourceSignal) : Option (ActiveSourceObservation ℚ) :=
  (runHeads SourceSignal.direction signals).getLast?.bind fun entry =>
    entry.direction.map fun direction => ⟨entry.midpoint, entry.now, direction⟩

def referenceState (signals : List SourceSignal) : SourceExpectancyState ℚ where
  long := reference .long signals
  short := reference .short signals
  active := unfinished signals

/-- The calls of `observe_source_signal`, one after the other. -/
def observeAll (signals : List SourceSignal) :
    Except LiveShadowError (ExtTreeMap String (SourceExpectancyState ℚ)) :=
  signals.foldlM (fun states signal => do
    let observed ← observeSourceSignal states signal.asset signal.desiredTarget signal.midpoint
      signal.now
    pure observed.1) ∅

def ofAsset (asset : String) (signals : List SourceSignal) : List SourceSignal :=
  signals.filter fun signal => signal.asset = asset

theorem average_concat (values : List ℚ) (value : ℚ) :
    average (values ++ [value]) = average values * (3 / 4) + value / 4 := by
  simp [average]

variable {signals : List SourceSignal} {signal : SourceSignal}
  {active : ActiveSourceObservation ℚ}

theorem unfinished_eq_some_iff :
    unfinished signals = some active ↔
      ∃ entry, (runHeads SourceSignal.direction signals).getLast? = some entry ∧
        entry.direction = some active.direction ∧ active.entryMidpoint = entry.midpoint ∧
          active.entryTimestamp = entry.now := by
  unfold unfinished
  simp only [Option.bind_eq_some_iff, Option.map_eq_some_iff]
  constructor
  · rintro ⟨entry, hentry, direction, hdirection, rfl⟩
    exact ⟨entry, hentry, hdirection, rfl, rfl⟩
  · rintro ⟨entry, hentry, hdirection, hmidpoint, hnow⟩
    refine ⟨entry, hentry, active.direction, hdirection, ?_⟩
    rw [← hmidpoint, ← hnow]

variable {last : SourceSignal} {ended : SourceSignalDirection}
  {states : ExtTreeMap String (SourceExpectancyState ℚ)}

theorem referenceState_concat_of_same (hlast : signals.getLast? = some last)
    (h : last.direction = signal.direction) :
    referenceState (signals ++ [signal]) = referenceState signals := by
  simp only [referenceState, reference, finishedRuns, unfinished,
    endedRuns_concat_of_eq hlast h, runHeads_concat_of_eq hlast h]

theorem unfinished_direction (hlast : signals.getLast? = some last) :
    (unfinished signals).map ActiveSourceObservation.direction = last.direction := by
  have hkey : (runHeads SourceSignal.direction signals).getLast?.map SourceSignal.direction =
      signals.getLast?.map SourceSignal.direction := key_getLast?_runHeads signals
  rw [hlast, Option.map_some, Option.map_eq_some_iff] at hkey
  obtain ⟨entry, hentry, hdirection⟩ := hkey
  unfold unfinished
  rw [hentry, Option.bind_some, Option.map_map, hdirection]
  exact Option.map_id'

theorem unfinished_concat (h : ∀ last ∈ signals.getLast?, last.direction ≠ signal.direction) :
    unfinished (signals ++ [signal]) =
      signal.direction.map fun direction => ⟨signal.midpoint, signal.now, direction⟩ := by
  unfold unfinished
  rw [runHeads_concat_of_ne h, List.getLast?_concat, Option.bind_some]

theorem finishedRuns_concat (h : ∀ last ∈ signals.getLast?, last.direction ≠ signal.direction)
    (direction : SourceSignalDirection) :
    finishedRuns direction (signals ++ [signal]) = finishedRuns direction signals ++
      ((runHeads SourceSignal.direction signals).getLast?.map fun entry =>
        (entry, signal)).toList.filter fun run => run.1.direction = some direction := by
  unfold finishedRuns
  rw [endedRuns_concat_of_ne h, List.filter_append]

theorem finishedRuns_concat_of_none
    (h : ∀ last ∈ signals.getLast?, last.direction ≠ signal.direction)
    (hnone : unfinished signals = none) (direction : SourceSignalDirection) :
    finishedRuns direction (signals ++ [signal]) = finishedRuns direction signals := by
  rw [finishedRuns_concat h]
  apply List.append_right_eq_self.mpr
  unfold unfinished at hnone
  cases hentry : (runHeads SourceSignal.direction signals).getLast? with
  | none => rfl
  | some entry =>
    rw [hentry, Option.bind_some, Option.map_eq_none_iff] at hnone
    simp [hnone]

variable {entry : SourceSignal} {state : SourceExpectancyState ℚ}

theorem finishedRuns_concat_of_some
    (h : ∀ last ∈ signals.getLast?, last.direction ≠ signal.direction)
    (hentry : (runHeads SourceSignal.direction signals).getLast? = some entry)
    (hended : entry.direction = some ended) (direction : SourceSignalDirection) :
    finishedRuns direction (signals ++ [signal]) =
      if direction = ended then finishedRuns direction signals ++ [(entry, signal)]
      else finishedRuns direction signals := by
  rw [finishedRuns_concat h, hentry]
  split
  · rename_i hsame
    simp [hended, hsame]
  · rename_i hother
    simp [hended, Ne.symm hother]

def begunWith (state : SourceExpectancyState ℚ) (signal : SourceSignal) :
    SourceExpectancyState ℚ :=
  match signal.direction with
  | none => state
  | some direction => beginObservation state direction signal.midpoint signal.now

def nextState (state : SourceExpectancyState ℚ) (signal : SourceSignal) :
    Except LiveShadowError (SourceExpectancyState ℚ) := do
  let ended ← endOtherObservation state signal.direction signal.midpoint signal.now
  pure (begunWith ended signal)

theorem observeSourceSignal_of_ok {next : SourceExpectancyState ℚ} (hmidpoint : 0 < signal.midpoint)
    (h : nextState (states[signal.asset]?.getD .default) signal = .ok next) :
    ∃ after estimate,
      observeSourceSignal states signal.asset signal.desiredTarget signal.midpoint signal.now =
        .ok (after, estimate) ∧
      ∀ asset, after[asset]?.getD .default =
        if asset = signal.asset then next else states[asset]?.getD .default := by
  obtain ⟨ended, hended, h⟩ := of_bind h
  have hinsert (state : SourceExpectancyState ℚ) (asset : String) :
      (states.insert signal.asset state)[asset]?.getD .default =
        if asset = signal.asset then state else states[asset]?.getD .default := by
    rw [getElem?_insert_eq]
    simp only [eq_comm (a := asset)]
    split <;> rfl
  have hpositive : ¬Decimal.le signal.midpoint Decimal.zero = true := by
    simpa using hmidpoint
  unfold observeSourceSignal
  rw [if_neg hpositive]
  rw [pure_eq_ok_iff] at h
  subst h
  unfold begunWith
  unfold SourceSignal.direction at hended ⊢
  cases hdirection : SourceSignalDirection.fromTarget signal.desiredTarget with
  | none =>
    cases hcontains : states.contains signal.asset with
    | false =>
      have hget : states[signal.asset]? = none := by
        rw [ExtTreeMap.contains_eq_isSome_getElem?, Option.isSome_eq_false_iff] at hcontains
        exact Option.isNone_iff_eq_none.mp hcontains
      rw [hdirection, hget] at hended
      cases hended
      refine ⟨states, .default, rfl, ?_⟩
      intro asset
      split
      · rename_i hsame
        rw [hsame, hget, Option.getD_none]
      · rfl
    | true =>
      rw [hdirection] at hended
      refine ⟨states.insert signal.asset ended, .default, ?_, hinsert ended⟩
      simp [hended]
  | some direction =>
    rw [hdirection] at hended
    refine ⟨_, (beginObservation ended direction signal.midpoint signal.now).estimate direction,
      ?_, hinsert _⟩
    simp [hended]

theorem observeSourceSignal_of_error {error : LiveShadowError} (hmidpoint : 0 < signal.midpoint)
    (h : nextState (states[signal.asset]?.getD .default) signal = .error error) :
    observeSourceSignal states signal.asset signal.desiredTarget signal.midpoint signal.now =
      .error error := by
  have hended : endOtherObservation (states[signal.asset]?.getD .default) signal.direction
      signal.midpoint signal.now = .error error := by
    rcases bind_eq_error_iff.mp h with hended | ⟨ended, -, hbegun⟩
    · exact hended
    · cases hbegun
  have hpositive : ¬Decimal.le signal.midpoint Decimal.zero = true := by
    simpa using hmidpoint
  unfold observeSourceSignal
  rw [if_neg hpositive]
  unfold SourceSignal.direction at hended
  have hknown : ¬((SourceSignalDirection.fromTarget signal.desiredTarget).isNone &&
      !states.contains signal.asset) = true := by
    rw [Bool.and_eq_true, Bool.not_eq_true', Option.isNone_iff_eq_none]
    rintro ⟨hnone, hcontains⟩
    rw [ExtTreeMap.contains_eq_isSome_getElem?, Option.isSome_eq_false_iff] at hcontains
    rw [hnone, Option.isNone_iff_eq_none.mp hcontains] at hended
    cases hended
  rw [if_neg hknown, hended, error_bind]

theorem averagedWith_eq_ok (mean observed : ℚ) :
    averagedWith mean observed = .ok (mean * (3 / 4) + observed / 4) := by
  have hretained : Decimal.checkedSub Decimal.one sourceExpectancyAlpha = some (3 / 4 : ℚ) := by
    decide +kernel
  have halpha : (sourceExpectancyAlpha : ℚ) = 1 / 4 := by decide +kernel
  unfold averagedWith
  rw [hretained, halpha]
  simp [orArithmetic, ok_bind, div_eq_mul_inv]

theorem endObservation_eq (direction : SourceSignalDirection) (hmidpoint : 0 < entry.midpoint)
    (hnow : entry.now ≤ signal.now) :
    endObservation state ⟨entry.midpoint, entry.now, direction⟩ signal.midpoint signal.now =
      if (state.estimate direction).count + 1 ≤ maxU64 then
        .ok ({ state with active := none }.setEstimate direction
          ⟨(state.estimate direction).count + 1,
            (state.estimate direction).ewmaGrossReturnBps * (3 / 4) +
              returnBps direction (entry, signal) / 4,
            (state.estimate direction).ewmaLifetimeSeconds * (3 / 4) +
              lifetime (entry, signal) / 4⟩)
      else .error .arithmetic := by
  have hbps : (bpsPerUnitReturn : ℚ) = 10000 := by decide +kernel
  have hthousand : (Decimal.new 1000 0 : ℚ) = 1000 := by decide +kernel
  have hseconds : Decimal.checkedDiv (Decimal.new (signal.now - entry.now : ℕ) 0) (1000 : ℚ) =
      some (lifetime (entry, signal)) := by
    rw [checkedDiv_eq (by norm_num)]
    simp [lifetime, Decimal.new, Nat.cast_sub hnow]
  unfold endObservation updateSourceExpectancy
  simp only [checkedSub_eq, Option.bind_some, checkedDiv_eq hmidpoint.ne', checkedMul_eq, hbps,
    orArithmetic, ok_bind, hthousand, hseconds, averagedWith_eq_ok]
  by_cases hcount : (state.estimate direction).count + 1 ≤ maxU64
  · have hadded : checkedAddU64 (state.estimate direction).count 1 =
        some ((state.estimate direction).count + 1) := if_pos hcount
    rw [if_pos hcount, hadded]
    cases direction <;> rfl
  · have hadded : checkedAddU64 (state.estimate direction).count 1 = none := if_neg hcount
    rw [if_neg hcount, hadded]
    cases direction <;> rfl

theorem reference_concat_of_some (h : ∀ last ∈ signals.getLast?, last.direction ≠ signal.direction)
    (hentry : (runHeads SourceSignal.direction signals).getLast? = some entry)
    (hended : entry.direction = some ended) (direction : SourceSignalDirection) :
    reference direction (signals ++ [signal]) =
      if direction = ended then
        ⟨(reference direction signals).count + 1,
          (reference direction signals).ewmaGrossReturnBps * (3 / 4) +
            returnBps direction (entry, signal) / 4,
          (reference direction signals).ewmaLifetimeSeconds * (3 / 4) +
            lifetime (entry, signal) / 4⟩
      else reference direction signals := by
  have hruns := finishedRuns_concat_of_some h hentry hended direction
  split
  · rename_i hsame
    rw [if_pos hsame] at hruns
    simp only [reference, hruns, List.map_append, List.map_singleton, List.length_append,
      List.length_singleton, average_concat]
  · rename_i hother
    rw [if_neg hother] at hruns
    simp only [reference, hruns]

theorem begunWith_of_none (hnone : state.active = none) :
    begunWith state signal = { state with active := signal.direction.map fun direction =>
      ⟨signal.midpoint, signal.now, direction⟩ } := by
  unfold begunWith beginObservation
  rw [hnone]
  cases signal.direction with
  | none =>
    rw [Option.map_none, ← hnone]
  | some direction => rfl

theorem begunWith_of_some (hsome : state.active = some active) :
    begunWith state signal = state := by
  unfold begunWith beginObservation
  rw [hsome]
  cases signal.direction <;> rfl

theorem nextState_of_same
    (h : state.active.map ActiveSourceObservation.direction = signal.direction) :
    nextState state signal = .ok state := by
  unfold nextState endOtherObservation
  cases hactive : state.active with
  | none =>
    rw [hactive, Option.map_none] at h
    unfold begunWith
    rw [← h]
    rfl
  | some active =>
    rw [hactive, Option.map_some] at h
    simp only [h, if_true, ok_bind, begunWith_of_some hactive]
    rfl

/-- **One signal.**  A state that follows the signals of its asset follows them with one more,
unless the number of its runs is too large. -/
theorem nextState_referenceState
    (hmidpoints : ∀ earlier ∈ signals, 0 < earlier.midpoint)
    (htimes : ∀ earlier ∈ signals, earlier.now ≤ signal.now) :
    nextState (referenceState signals) signal = .ok (referenceState (signals ++ [signal])) ∨
      nextState (referenceState signals) signal = .error .arithmetic ∧
        ∃ direction, maxU64 < (finishedRuns direction (signals ++ [signal])).length := by
  by_cases hnew : ∀ last ∈ signals.getLast?, last.direction ≠ signal.direction
  · cases hactive : unfinished signals with
    | none =>
      left
      have hended : endOtherObservation (referenceState signals) signal.direction signal.midpoint
          signal.now = .ok (referenceState signals) := by
        unfold endOtherObservation referenceState
        rw [hactive]
      unfold nextState
      rw [hended, ok_bind, begunWith_of_none hactive]
      simp only [referenceState, reference, finishedRuns_concat_of_none hnew hactive,
        unfinished_concat hnew]
      rfl
    | some active =>
      obtain ⟨entry, hentry, hdirection, hmidpoint, hnow⟩ := unfinished_eq_some_iff.mp hactive
      have hentered := mem_of_mem_runHeads (List.mem_of_getLast? hentry)
      have hother : signal.direction ≠ some active.direction := by
        intro hsame
        cases hlast : signals.getLast? with
        | none =>
          rw [List.getLast?_eq_none_iff.mp hlast] at hentered
          cases hentered
        | some last =>
          have hlastDirection := unfinished_direction hlast
          rw [hactive, Option.map_some] at hlastDirection
          exact hnew last hlast (hlastDirection.symm.trans hsame.symm)
      have hended : endOtherObservation (referenceState signals) signal.direction signal.midpoint
          signal.now = endObservation (referenceState signals)
            ⟨entry.midpoint, entry.now, active.direction⟩ signal.midpoint signal.now := by
        unfold endOtherObservation referenceState
        rw [hactive]
        simp only [if_neg hother, ← hmidpoint, ← hnow]
      have hcount : ((referenceState signals).estimate active.direction).count + 1 =
          (finishedRuns active.direction (signals ++ [signal])).length := by
        rw [finishedRuns_concat_of_some hnew hentry hdirection, if_pos rfl, List.length_append]
        cases active.direction <;> rfl
      have hestimate := reference_concat_of_some hnew hentry hdirection
      unfold nextState
      rw [hended, endObservation_eq _ (hmidpoints entry hentered) (htimes entry hentered)]
      split
      · left
        rw [ok_bind, begunWith_of_none (by cases active.direction <;> rfl)]
        unfold referenceState
        rw [unfinished_concat hnew, hestimate, hestimate]
        cases active.direction <;> rfl
      · rename_i hlarge
        right
        refine ⟨rfl, active.direction, ?_⟩
        omega
  · push Not at hnew
    obtain ⟨last, hlast, hsame⟩ := hnew
    left
    rw [referenceState_concat_of_same hlast hsame]
    exact nextState_of_same ((unfinished_direction hlast).trans hsame)

variable {calls : List SourceSignal}

def Follows (states : ExtTreeMap String (SourceExpectancyState ℚ)) (calls : List SourceSignal) :
    Prop :=
  ∀ asset, states[asset]?.getD .default = referenceState (ofAsset asset calls)

/-- The midpoints are positive, and the times of an asset do not go back. -/
structure Admissible (calls : List SourceSignal) : Prop where
  midpoints : ∀ signal ∈ calls, 0 < signal.midpoint
  times : ∀ asset, (ofAsset asset calls).Pairwise fun earlier later => earlier.now ≤ later.now

theorem ofAsset_concat (asset : String) (calls : List SourceSignal) (signal : SourceSignal) :
    ofAsset asset (calls ++ [signal]) =
      if asset = signal.asset then ofAsset asset calls ++ [signal] else ofAsset asset calls := by
  unfold ofAsset
  rw [List.filter_append]
  split
  · rename_i hsame
    simp [hsame]
  · rename_i hother
    simp [Ne.symm hother]

theorem Admissible.init (h : Admissible (calls ++ [signal])) : Admissible calls := by
  refine ⟨fun earlier hmem => h.midpoints earlier (List.mem_append_left _ hmem), ?_⟩
  intro asset
  have htimes := h.times asset
  rw [ofAsset_concat] at htimes
  split at htimes
  · exact (List.pairwise_append.mp htimes).1
  · exact htimes

theorem Admissible.le_last (h : Admissible (calls ++ [signal])) :
    ∀ earlier ∈ ofAsset signal.asset calls, earlier.now ≤ signal.now := by
  intro earlier hearlier
  have htimes := h.times signal.asset
  rw [ofAsset_concat, if_pos rfl] at htimes
  exact (List.pairwise_append.mp htimes).2.2 earlier hearlier signal (List.mem_singleton_self _)

theorem length_finishedRuns_le (asset : String) (direction : SourceSignalDirection)
    (calls : List SourceSignal) (signal : SourceSignal) :
    (finishedRuns direction (ofAsset asset calls)).length ≤
      (finishedRuns direction (ofAsset asset (calls ++ [signal]))).length := by
  rw [ofAsset_concat]
  split
  · exact ((endedRuns_prefix_concat _ _).sublist.filter _).length_le
  · exact le_rfl

/-- **Every run of calls.**  The states follow the signals, and the calls do not fail unless an asset
has too many runs of a direction to count. -/
theorem observeAll_follows (h : Admissible calls) :
    (∃ states, observeAll calls = .ok states ∧ Follows states calls) ∨
      observeAll calls = .error .arithmetic ∧
        ∃ asset direction, maxU64 < (finishedRuns direction (ofAsset asset calls)).length := by
  induction calls using List.reverseRecOn with
  | nil =>
    left
    refine ⟨∅, rfl, ?_⟩
    intro asset
    simp [ofAsset, referenceState, reference, finishedRuns, average, unfinished,
      SourceExpectancyState.default, SourceExpectancyEstimate.default]
  | append_singleton calls signal ih =>
    have hmidpoint := h.midpoints signal (by simp)
    unfold observeAll
    rw [List.foldlM_append]
    rcases ih h.init with ⟨states, hstates, hfollows⟩ | ⟨herror, asset, direction, hlarge⟩
    · unfold observeAll at hstates
      rw [hstates, ok_bind, List.foldlM_cons]
      have hmidpoints : ∀ earlier ∈ ofAsset signal.asset calls, 0 < earlier.midpoint :=
        fun earlier hmem => h.init.midpoints earlier (List.mem_of_mem_filter hmem)
      have hone := nextState_referenceState hmidpoints h.le_last
      rw [← hfollows signal.asset] at hone
      rcases hone with hnext | ⟨hfailed, direction, hlarge⟩
      · left
        obtain ⟨after, estimate, hobserved, hafter⟩ := observeSourceSignal_of_ok hmidpoint hnext
        refine ⟨after, by simp [hobserved], ?_⟩
        intro asset
        rw [hafter, ofAsset_concat]
        split
        · rename_i hsame
          rw [hsame]
        · exact hfollows asset
      · right
        rw [observeSourceSignal_of_error hmidpoint hfailed, error_bind, error_bind]
        refine ⟨rfl, signal.asset, direction, ?_⟩
        rwa [ofAsset_concat, if_pos rfl]
    · unfold observeAll at herror
      right
      rw [herror, error_bind]
      exact ⟨rfl, asset, direction, hlarge.trans_le (length_finishedRuns_le _ _ _ _)⟩

end SourceSignal

open SourceSignal

/-- **The expectancy of a source is that of its finished runs.**  After any calls at positive
midpoints, with the times of each asset in order, the states follow the signals; and the calls do
not fail, as long as the runs of a direction can be counted. -/
theorem source_expectancy_follows (calls : List SourceSignal)
    (hmidpoints : ∀ signal ∈ calls, 0 < signal.midpoint)
    (htimes : ∀ asset, (ofAsset asset calls).Pairwise fun earlier later =>
      earlier.now ≤ later.now) :
    (∀ states, observeAll calls = .ok states → ∀ asset,
      states[asset]?.getD .default = referenceState (ofAsset asset calls)) ∧
    ((∀ asset direction, (finishedRuns direction (ofAsset asset calls)).length ≤ maxU64) →
      ∃ states, observeAll calls = .ok states) := by
  rcases observeAll_follows ⟨hmidpoints, htimes⟩ with
    ⟨states, hstates, hfollows⟩ | ⟨herror, asset, direction, hlarge⟩
  · refine ⟨?_, fun _ => ⟨states, hstates⟩⟩
    intro found hfound
    rw [hstates] at hfound
    cases hfound
    exact hfollows
  · refine ⟨?_, fun hcounted => absurd (hcounted asset direction) (not_le.mpr hlarge)⟩
    intro found hfound
    rw [herror] at hfound
    cases hfound

def reversedSignals : List SourceSignal :=
  [⟨"BTC", 5, 100, 0⟩, ⟨"BTC", 3, 110, 1000⟩, ⟨"BTC", -2, 120, 2000⟩, ⟨"BTC", 0, 90, 6000⟩]

/-- The expectancy after two runs: the long one gained 2000 basis points in 2 seconds, the short one
2500 in 4. -/
theorem source_expectancy_follows_reversed :
    (∃ states, observeAll reversedSignals = .ok states) ∧
    (∀ states, observeAll reversedSignals = .ok states → ∀ asset,
      states[asset]?.getD .default = referenceState (ofAsset asset reversedSignals)) ∧
    referenceState reversedSignals = ⟨⟨1, 500, 1 / 2⟩, ⟨1, 625, 1⟩, none⟩ := by
  have hmidpoints : ∀ signal ∈ reversedSignals, 0 < signal.midpoint := by
    decide +kernel
  have htimes : ∀ asset, (ofAsset asset reversedSignals).Pairwise fun earlier later =>
      earlier.now ≤ later.now := by
    intro asset
    apply List.Pairwise.filter
    decide +kernel
  have hfollows := source_expectancy_follows reversedSignals hmidpoints htimes
  have hlength (asset : String) (direction : SourceSignalDirection) :
      (finishedRuns direction (ofAsset asset reversedSignals)).length ≤ maxU64 := by
    by_cases hasset : asset = "BTC"
    · subst hasset
      cases direction <;> decide +kernel
    · have hnone : ofAsset asset reversedSignals = [] := by
        simp [ofAsset, reversedSignals, Ne.symm hasset]
      rw [hnone]
      exact Nat.zero_le _
  exact ⟨hfollows.2 hlength, hfollows.1, by decide +kernel⟩

end CopyTrade.Analysis
