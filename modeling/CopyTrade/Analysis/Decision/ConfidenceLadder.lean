import CopyTrade.Foundation.Runs
import CopyTrade.Model.Core.Confidence

/-!
# The confidence ladder

The modifier of a candidate stays on the ladder, and is zero exactly in quarantine and under a
block. A review moves it by one rung or quarantines the candidate, and no rung changes within 25
closed episodes of the last change (`confidence_ladder_safe`).
-/

namespace CopyTrade.Analysis

open Foundation Model Model.Confidence
open Model.Confidence.CandidateConfidence

def rungs : List ℚ := [0, 1 / 40, 1 / 20, 1 / 10, 1 / 4, 1 / 2, 1]

section

variable {D : Type} [Decimal D]

def OnRung (candidate : CandidateConfidence D) (rung : ℕ) : Prop :=
  rungs[rung]? = some (Decimal.toRat candidate.confidenceModifier)

variable {rung : ℕ}

theorem lt_of_rung {value : ℚ} (h : rungs[rung]? = some value) : rung < 7 := by
  have hlt := (List.getElem?_eq_some_iff.mp h).1
  simpa [rungs] using hlt

theorem rung_unique {other : ℕ} {value : ℚ} (h : rungs[rung]? = some value)
    (hother : rungs[other]? = some value) : rung = other := by
  have hnodup : rungs.Nodup := by
    unfold rungs
    norm_num
  exact (List.getElem?_inj (List.getElem?_eq_some_iff.mp h).1 hnodup).mp (h.trans hother.symm)

theorem rung_zero_iff {value : ℚ} (h : rungs[rung]? = some value) : rung = 0 ↔ value = 0 := by
  constructor
  · rintro rfl
    simpa [rungs] using h.symm
  · rintro rfl
    exact rung_unique h rfl

theorem findIdx?_rungs {value : ℚ} (h : rungs[rung]? = some value) :
    rungs.findIdx? (fun level => level == value) = some rung := by
  obtain ⟨hlt, hvalue⟩ := List.getElem?_eq_some_iff.mp h
  rw [List.findIdx?_eq_some_iff_getElem]
  refine ⟨hlt, by rw [hvalue, beq_self_eq_true], ?_⟩
  intro earlier hearlier heqv
  have hsame : rungs[earlier]? = some value :=
    List.getElem?_eq_some_iff.mpr ⟨hearlier.trans hlt, eq_of_beq heqv⟩
  exact hearlier.ne (rung_unique hsame h)

variable [DecimalSignLaws D]

theorem map_confidenceLevels : (confidenceLevels : List D).map Decimal.toRat = rungs := by
  unfold confidenceLevels rungs Decimal.zero Decimal.one
  simp only [List.map_cons, List.map_nil]
  repeat rw [DecimalSignLaws.toRat_new _ _ (by norm_num) (by norm_num)]
  norm_num

theorem rung_level (h : rung < 7) : rungs[rung]? = some (Decimal.toRat (level rung : D)) := by
  rw [← map_confidenceLevels (D := D), List.getElem?_map]
  unfold level
  have hlt : rung < (confidenceLevels : List D).length := h
  rw [List.getD_eq_getElem?_getD, List.getElem?_eq_getElem hlt, Option.map_some, Option.getD_some]

theorem confidenceIndex_of_rung {value : D} (h : rungs[rung]? = some (Decimal.toRat value)) :
    confidenceIndex value = some rung := by
  have hfind := findIdx?_rungs h
  rw [← map_confidenceLevels (D := D), List.findIdx?_map] at hfind
  exact hfind

omit [DecimalSignLaws D] in
theorem isZero_iff_of_rung {value : D} (h : rungs[rung]? = some (Decimal.toRat value)) :
    Decimal.isZero value = true ↔ rung = 0 := by
  rw [rung_zero_iff h]
  simp [Decimal.isZero]

theorem stateForConfidence_eq_quarantined_iff {value : D}
    (h : rungs[rung]? = some (Decimal.toRat value)) :
    stateForConfidence value = .quarantined ↔ rung = 0 := by
  have hone : Decimal.toRat (Decimal.one : D) = 1 := by
    unfold Decimal.one
    rw [DecimalSignLaws.toRat_new _ _ (by norm_num) (by norm_num)]
    norm_num
  have hzero := isZero_iff_of_rung h
  unfold stateForConfidence
  split
  · rename_i heqv
    rw [Decimal.eqv_iff, hone] at heqv
    rw [rung_zero_iff h, heqv]
    simp
  · split
    · rename_i h
      simp [hzero.mp h]
    · rename_i h
      simp [mt hzero.mpr h]

end

section

variable {D : Type} [Decimal D] (candidate : CandidateConfidence D)

def Blocked : Prop :=
  candidate.state = .integrityBlocked ∨ candidate.state = .manualDenylist

theorem reviewed_cases (netExpectancy annualizedSharpe : ℚ) :
    (candidate.state = .quarantined ∧
      candidate.reviewed netExpectancy annualizedSharpe = (.quarantined, candidate)) ∨
    (candidate.state ≠ .quarantined ∧
      (candidate.reviewed netExpectancy annualizedSharpe =
          (.gatheringData, { candidate with state := .warmup }) ∨
        candidate.reviewed netExpectancy annualizedSharpe = (.held, candidate.held) ∨
        candidate.reviewed netExpectancy annualizedSharpe =
          (.quarantined, candidate.quarantine) ∨
        (25 ≤ candidate.closedEpisodes - candidate.lastRungChangeEpisode ∧
          (candidate.reviewed netExpectancy annualizedSharpe =
              (.reducedOneRung, candidate.reduceOneRung.dated) ∨
            candidate.reviewed netExpectancy annualizedSharpe =
              (.increasedOneRung, candidate.increaseOneRung.dated))))) := by
  unfold reviewed
  by_cases hstate : candidate.state = .quarantined
  · exact .inl ⟨hstate, if_pos hstate⟩
  refine .inr ⟨hstate, ?_⟩
  rw [if_neg hstate]
  by_cases hgathering : candidate.closedEpisodes < 50
  · exact .inl (if_pos hgathering)
  right
  rw [if_neg hgathering]
  by_cases hyoung : candidate.closedEpisodes < 100 ∨ candidate.activeDays < 14
  · rw [if_pos hyoung]
    by_cases hreduce : netExpectancy < 0 ∧
        25 ≤ candidate.closedEpisodes - candidate.lastRungChangeEpisode
    · exact .inr (.inr ⟨hreduce.2, .inl (if_pos hreduce)⟩)
    · exact .inl (if_neg hreduce)
  · rw [if_neg hyoung]
    by_cases hnegative : annualizedSharpe < 0
    · exact .inr (.inl (if_pos hnegative))
    rw [if_neg hnegative]
    by_cases heligible : 25 ≤ candidate.closedEpisodes - candidate.lastRungChangeEpisode
    · rw [if_neg (not_not.mpr heligible)]
      by_cases hhigh : 15 ≤ annualizedSharpe
      · exact .inr (.inr ⟨heligible, .inr (if_pos hhigh)⟩)
      rw [if_neg hhigh]
      by_cases hlow : annualizedSharpe < 10
      · exact .inr (.inr ⟨heligible, .inl (if_pos hlow)⟩)
      · exact .inl (if_neg hlow)
    · exact .inl (if_pos heligible)

theorem not_blocked_stateForConfidence (value : D) :
    stateForConfidence value ≠ .integrityBlocked ∧ stateForConfidence value ≠ .manualDenylist := by
  unfold stateForConfidence
  split
  · simp
  · split
    all_goals simp

omit [Decimal D] in
theorem countedWindows_cases {annualizedSharpe : ℚ} {windows : ℕ}
    (h : candidate.countedWindows annualizedSharpe = some windows) :
    (15 ≤ annualizedSharpe ∧ windows = candidate.consecutiveReentryWindows + 1) ∨
      (¬ 15 ≤ annualizedSharpe ∧ windows = 0) := by
  unfold countedWindows at h
  split at h
  · rename_i hhigh
    split at h
    · cases h
      exact .inl ⟨hhigh, rfl⟩
    · cases h
  · rename_i hlow
    cases h
    exact .inr ⟨hlow, rfl⟩

theorem applyConfidenceReview_cases (review : ConfidenceReview) :
    (∃ error, candidate.applyConfidenceReview review = (.error error, candidate)) ∨
    ∃ netExpectancy annualizedSharpe, ¬ Blocked candidate ∧
      candidate.closedEpisodes ≤ review.closedEpisodes ∧
      candidate.applyConfidenceReview review =
        (.ok ((candidate.withCounts review).reviewed netExpectancy annualizedSharpe).1,
          ((candidate.withCounts review).reviewed netExpectancy annualizedSharpe).2) := by
  unfold applyConfidenceReview
  by_cases hblocked : candidate.state = .integrityBlocked ∨ candidate.state = .manualDenylist
  · exact .inl ⟨.permanentlyBlocked, if_pos hblocked⟩
  rw [if_neg hblocked]
  cases review.netExpectancy with
  | notFinite => exact .inl ⟨.nonFiniteMetric, rfl⟩
  | finite netExpectancy =>
    cases review.annualizedSharpe with
    | notFinite => exact .inl ⟨.nonFiniteMetric, rfl⟩
    | finite annualizedSharpe =>
      by_cases hregressed : review.closedEpisodes < candidate.closedEpisodes
      · exact .inl ⟨.episodeCountRegressed, if_pos hregressed⟩
      · exact .inr ⟨netExpectancy, annualizedSharpe, hblocked, not_lt.mp hregressed,
          if_neg hregressed⟩

def measured : ConfidenceCall → Option ℚ
  | .window (.finite annualizedSharpe) => some annualizedSharpe
  | _ => none

/-- **What a call does.**  It is refused and changes nothing, it is a window without a quarantine,
a review, a window of a quarantine or a block. -/
theorem call_cases (called : ConfidenceCall) :
    (∃ error, candidate.call called = (.error error, candidate) ∧
      (candidate.state = .quarantined → measured called = none ∨
        maxU32 ≤ candidate.consecutiveReentryWindows)) ∨
    (candidate.state ≠ .quarantined ∧ candidate.call called = (.ok .held, candidate)) ∨
    (∃ review netExpectancy annualizedSharpe, called = .review review ∧ ¬ Blocked candidate ∧
      candidate.closedEpisodes ≤ review.closedEpisodes ∧
      candidate.call called =
        (.ok ((candidate.withCounts review).reviewed netExpectancy annualizedSharpe).1,
          ((candidate.withCounts review).reviewed netExpectancy annualizedSharpe).2)) ∨
    (∃ annualizedSharpe windows, called = .window (.finite annualizedSharpe) ∧
      candidate.state = .quarantined ∧
      candidate.countedWindows annualizedSharpe = some windows ∧
      candidate.call called =
        if 3 ≤ windows then (.ok .reenteredWarmup, candidate.reentered)
        else (.ok .quarantined, { candidate with consecutiveReentryWindows := windows })) ∨
    (called = .blockIntegrity ∧ candidate.call called = candidate.blockIntegrity) ∨
    (called = .manualDenylist ∧ candidate.call called = candidate.manualDenylist) := by
  cases called with
  | blockIntegrity => exact .inr (.inr (.inr (.inr (.inl ⟨rfl, rfl⟩))))
  | manualDenylist => exact .inr (.inr (.inr (.inr (.inr ⟨rfl, rfl⟩))))
  | window ratio =>
    by_cases hstate : candidate.state = .quarantined
    · cases ratio with
      | notFinite =>
        refine .inl ⟨.nonFiniteMetric, ?_, fun _ => .inl rfl⟩
        simp [call, observeQuarantineReentryWindow, hstate]
      | finite annualizedSharpe =>
        cases hwindows : candidate.countedWindows annualizedSharpe with
        | none =>
          refine .inl ⟨.episodeCountRegressed, ?_, fun _ => .inr ?_⟩
          · simp [call, observeQuarantineReentryWindow, hstate, hwindows]
          · unfold countedWindows at hwindows
            split at hwindows
            · split at hwindows
              · cases hwindows
              · omega
            · cases hwindows
        | some windows =>
          refine .inr (.inr (.inr (.inl ⟨annualizedSharpe, windows, rfl, hstate, hwindows, ?_⟩)))
          simp [call, observeQuarantineReentryWindow, hstate, hwindows]
    · refine .inr (.inl ⟨hstate, ?_⟩)
      simp [call, observeQuarantineReentryWindow, hstate]
  | review review =>
    rcases applyConfidenceReview_cases candidate review with
      ⟨error, h⟩ | ⟨netExpectancy, annualizedSharpe, hopen, hcount, h⟩
    · exact .inl ⟨error, h, fun _ => .inl rfl⟩
    · exact .inr (.inr (.inl ⟨review, netExpectancy, annualizedSharpe, rfl, hopen, hcount, h⟩))

end

section

variable {D : Type} [Decimal D]

/-- The modifier is on the ladder, and zero exactly in quarantine and under a block; the last rung
change is dated, and windows are counted in a quarantine only. -/
structure LadderSound (candidate : CandidateConfidence D) : Prop where
  onRung : ∃ rung, OnRung candidate rung
  zero_iff : OnRung candidate 0 ↔ candidate.state = .quarantined ∨ Blocked candidate
  dated : candidate.lastRungChangeEpisode ≤ candidate.closedEpisodes
  windows_lt : candidate.consecutiveReentryWindows < 3
  windows_eq : candidate.state ≠ .quarantined → ¬ Blocked candidate →
    candidate.consecutiveReentryWindows = 0

variable {candidate : CandidateConfidence D}

theorem LadderSound.withCounts (h : LadderSound candidate) {review : ConfidenceReview}
    (hcount : candidate.closedEpisodes ≤ review.closedEpisodes) :
    LadderSound (candidate.withCounts review) :=
  ⟨h.onRung, h.zero_iff, h.dated.trans hcount, h.windows_lt, h.windows_eq⟩

theorem LadderSound.rung_pos (h : LadderSound candidate) (hstate : candidate.state ≠ .quarantined)
    (hopen : ¬ Blocked candidate) {rung : ℕ} (hrung : OnRung candidate rung) : rung ≠ 0 := by
  rintro rfl
  rcases h.zero_iff.mp hrung with hquarantined | hblocked
  · exact hstate hquarantined
  · exact hopen hblocked

theorem ladderSound_of_open {rung : ℕ} (hrung : OnRung candidate rung)
    (hzero : rung = 0 ↔ candidate.state = .quarantined) (hopen : ¬ Blocked candidate)
    (hdated : candidate.lastRungChangeEpisode ≤ candidate.closedEpisodes)
    (hwindows : candidate.consecutiveReentryWindows = 0) : LadderSound candidate := by
  refine ⟨⟨rung, hrung⟩, ?_, hdated, by omega, fun _ _ => hwindows⟩
  rw [or_iff_left hopen, ← hzero]
  constructor
  · intro hother
    exact rung_unique hrung hother
  · rintro rfl
    exact hrung

variable [DecimalSignLaws D]

theorem onRung_reduceOneRung {rung : ℕ} (hrung : OnRung candidate rung) :
    OnRung candidate.reduceOneRung (rung - 1) := by
  have hlt := lt_of_rung hrung
  unfold OnRung reduceOneRung
  rw [confidenceIndex_of_rung hrung]
  have hlower : rung - 1 < 7 := by omega
  exact rung_level hlower

theorem onRung_increaseOneRung {rung : ℕ} (hrung : OnRung candidate rung) :
    OnRung candidate.increaseOneRung (min (rung + 1) 6) := by
  unfold OnRung increaseOneRung
  rw [confidenceIndex_of_rung hrung]
  have hhigher : min (rung + 1) 6 < 7 := by omega
  exact rung_level hhigher

theorem LadderSound.reviewed (h : LadderSound candidate) (hopen : ¬ Blocked candidate)
    (netExpectancy annualizedSharpe : ℚ) :
    LadderSound (candidate.reviewed netExpectancy annualizedSharpe).2 ∧
      ¬ Blocked (candidate.reviewed netExpectancy annualizedSharpe).2 := by
  obtain ⟨rung, hrung⟩ := h.onRung
  have hnot : ∀ {next : CandidateConfidence D}, next.state = stateForConfidence
      next.confidenceModifier → ¬ Blocked next := by
    intro next hstate hblocked
    have hvalue := not_blocked_stateForConfidence next.confidenceModifier
    rw [← hstate] at hvalue
    rcases hblocked with hblocked | hblocked
    · exact hvalue.1 hblocked
    · exact hvalue.2 hblocked
  rcases reviewed_cases candidate netExpectancy annualizedSharpe with
    ⟨-, hr⟩ | ⟨hstate, hr | hr | hr | ⟨-, hr | hr⟩⟩
  · rw [hr]
    exact ⟨h, hopen⟩
  all_goals
    have hwindows := h.windows_eq hstate hopen
    have hpos := h.rung_pos hstate hopen hrung
    rw [hr]
  · have hnext : ¬ Blocked { candidate with state := CandidateState.warmup } := by
      simp [Blocked]
    exact ⟨ladderSound_of_open hrung (by simp [hpos]) hnext h.dated hwindows, hnext⟩
  · have hnext : ¬ Blocked candidate.held := hnot rfl
    exact ⟨ladderSound_of_open hrung (stateForConfidence_eq_quarantined_iff hrung).symm hnext
      h.dated hwindows, hnext⟩
  · have hnext : ¬ Blocked candidate.quarantine := by simp [Blocked, quarantine]
    have hzero : OnRung candidate.quarantine 0 := rung_level (by norm_num)
    exact ⟨ladderSound_of_open hzero (by simp [quarantine]) hnext le_rfl rfl, hnext⟩
  · have hlower : OnRung candidate.reduceOneRung.dated (rung - 1) := onRung_reduceOneRung hrung
    have hstateAfter : candidate.reduceOneRung.dated.state =
        if Decimal.isZero candidate.reduceOneRung.dated.confidenceModifier then .quarantined
        else .decayed := rfl
    have hnext : ¬ Blocked candidate.reduceOneRung.dated := by
      unfold Blocked
      rw [hstateAfter]
      split
      all_goals simp
    refine ⟨ladderSound_of_open hlower ?_ hnext le_rfl hwindows, hnext⟩
    rw [hstateAfter, ← isZero_iff_of_rung hlower]
    split
    all_goals simp_all
  · have hhigher : OnRung candidate.increaseOneRung.dated (min (rung + 1) 6) :=
      onRung_increaseOneRung hrung
    have hnext : ¬ Blocked candidate.increaseOneRung.dated := hnot rfl
    exact ⟨ladderSound_of_open hhigher (stateForConfidence_eq_quarantined_iff hhigher).symm hnext
      le_rfl hwindows, hnext⟩

theorem ladderSound_step (h : LadderSound candidate) (called : ConfidenceCall) :
    LadderSound (candidate.step called) := by
  unfold step
  rcases call_cases candidate called with ⟨error, hcall, -⟩ | ⟨-, hcall⟩ |
    ⟨review, netExpectancy, annualizedSharpe, -, hopen, hcount, hcall⟩ |
    ⟨annualizedSharpe, windows, -, hstate, hwindows, hcall⟩ | ⟨-, hcall⟩ | ⟨-, hcall⟩
  all_goals rw [hcall]
  · exact h
  · exact h
  · exact ((h.withCounts hcount).reviewed hopen netExpectancy annualizedSharpe).1
  · split
    · have hopen : ¬ Blocked candidate.reentered := by simp [Blocked, reentered]
      have hlowest : OnRung candidate.reentered 1 := rung_level (by norm_num)
      exact ladderSound_of_open hlowest (by simp [reentered]) hopen le_rfl rfl
    · rename_i hfew
      refine ⟨h.onRung, h.zero_iff, h.dated, not_le.mp hfew, ?_⟩
      intro hother
      exact absurd hstate hother
  · have hzero : OnRung candidate.blockIntegrity.2 0 := rung_level (by norm_num)
    refine ⟨⟨0, hzero⟩, iff_of_true hzero (.inr (.inl rfl)), h.dated, h.windows_lt, ?_⟩
    intro _ hopen
    exact absurd (.inl rfl) hopen
  · have hzero : OnRung candidate.manualDenylist.2 0 := rung_level (by norm_num)
    refine ⟨⟨0, hzero⟩, iff_of_true hzero (.inr (.inr rfl)), h.dated, h.windows_lt, ?_⟩
    intro _ hopen
    exact absurd (.inr rfl) hopen

theorem ladderSound_run (h : LadderSound candidate) (calls : List ConfidenceCall) :
    LadderSound (run step candidate calls) := by
  induction calls generalizing candidate with
  | nil => exact h
  | cons called calls ih => exact ih (ladderSound_step h called)

theorem ladderSound_new {baseConfidence : D}
    (h : CandidateConfidence.new baseConfidence = .ok candidate) : LadderSound candidate := by
  unfold CandidateConfidence.new at h
  split at h
  · cases h
  rename_i hbase
  cases h
  simp only [Bool.or_eq_true, Bool.not_eq_true', not_or, Bool.not_eq_false] at hbase
  obtain ⟨hlevel, hzero⟩ := hbase
  obtain ⟨base, hmem, heqv⟩ := List.any_eq_true.mp hlevel
  obtain ⟨rung, hrung, rfl⟩ := List.getElem_of_mem hmem
  rw [Decimal.eqv_iff] at heqv
  have hon : rungs[rung]? = some (Decimal.toRat baseConfidence) := by
    rw [← map_confidenceLevels (D := D), List.getElem?_map, List.getElem?_eq_getElem hrung,
      Option.map_some, heqv]
  have hpos := mt (isZero_iff_of_rung hon).mpr hzero
  exact ladderSound_of_open hon (by simp [hpos]) (by simp [Blocked]) le_rfl rfl

end

section

variable {D : Type} [Decimal D]

def MovesRung (candidate : CandidateConfidence D) (called : ConfidenceCall) : Prop :=
  (candidate.call called).1 = .ok .increasedOneRung ∨
    (candidate.call called).1 = .ok .reducedOneRung

/-- A call moves the candidate by a rung, lets it enter again or quarantines it. -/
def ChangesRung (candidate : CandidateConfidence D) (called : ConfidenceCall) : Prop :=
  MovesRung candidate called ∨ (candidate.call called).1 = .ok .reenteredWarmup ∨
    ((candidate.call called).1 = .ok .quarantined ∧ candidate.state ≠ .quarantined)

variable {candidate : CandidateConfidence D} {called : ConfidenceCall}

theorem ChangesRung.dated (h : ChangesRung candidate called) :
    (candidate.step called).lastRungChangeEpisode = (candidate.step called).closedEpisodes := by
  unfold ChangesRung MovesRung at h
  unfold step
  rcases call_cases candidate called with ⟨error, hcall, -⟩ | ⟨-, hcall⟩ |
    ⟨review, netExpectancy, annualizedSharpe, -, -, -, hcall⟩ |
    ⟨annualizedSharpe, windows, -, hstate, -, hcall⟩ | ⟨-, hcall⟩ | ⟨-, hcall⟩
  all_goals rw [hcall] at h ⊢
  · simp at h
  · simp at h
  · rcases reviewed_cases (candidate.withCounts review) netExpectancy annualizedSharpe with
      ⟨hstate, hr⟩ | ⟨-, hr | hr | hr | ⟨-, hr | hr⟩⟩
    all_goals rw [hr] at h ⊢
    · have hquarantined : candidate.state = .quarantined := hstate
      simp [hquarantined] at h
    · simp at h
    · simp at h
    · rfl
    · rfl
    · rfl
  · split at h
    · rename_i hmany
      rw [if_pos hmany]
      rfl
    · simp [hstate] at h
  · simp [blockIntegrity] at h
  · simp [manualDenylist] at h

theorem MovesRung.apart (h : MovesRung candidate called) :
    candidate.lastRungChangeEpisode + 25 ≤ (candidate.step called).closedEpisodes := by
  unfold MovesRung at h
  unfold step
  rcases call_cases candidate called with ⟨error, hcall, -⟩ | ⟨-, hcall⟩ |
    ⟨review, netExpectancy, annualizedSharpe, -, -, -, hcall⟩ |
    ⟨annualizedSharpe, windows, -, hstate, -, hcall⟩ | ⟨-, hcall⟩ | ⟨-, hcall⟩
  all_goals rw [hcall] at h ⊢
  · simp at h
  · simp at h
  · rcases reviewed_cases (candidate.withCounts review) netExpectancy annualizedSharpe with
      ⟨-, hr⟩ | ⟨-, hr | hr | hr | ⟨heligible, hr⟩⟩
    · simp [hr] at h
    · simp [hr] at h
    · simp [hr] at h
    · simp [hr] at h
    · have hsince : 25 ≤ review.closedEpisodes - candidate.lastRungChangeEpisode := heligible
      have hclosed : ((candidate.withCounts review).reviewed netExpectancy
          annualizedSharpe).2.closedEpisodes = review.closedEpisodes := by
        rcases hr with hr | hr
        all_goals
          rw [hr]
          rfl
      rw [hclosed]
      omega
  · split at h
    all_goals simp at h
  · simp [blockIntegrity] at h
  · simp [manualDenylist] at h

theorem lastRungChange_le_step (h : LadderSound candidate) (called : ConfidenceCall) :
    candidate.lastRungChangeEpisode ≤ (candidate.step called).lastRungChangeEpisode := by
  unfold step
  rcases call_cases candidate called with ⟨error, hcall, -⟩ | ⟨-, hcall⟩ |
    ⟨review, netExpectancy, annualizedSharpe, -, -, hcount, hcall⟩ |
    ⟨annualizedSharpe, windows, -, -, -, hcall⟩ | ⟨-, hcall⟩ | ⟨-, hcall⟩
  all_goals rw [hcall]
  · have hdated := h.dated.trans hcount
    rcases reviewed_cases (candidate.withCounts review) netExpectancy annualizedSharpe with
      ⟨-, hr⟩ | ⟨-, hr | hr | hr | ⟨-, hr | hr⟩⟩
    all_goals rw [hr]
    · exact le_rfl
    · exact le_rfl
    · exact le_rfl
    · exact hdated
    · exact hdated
    · exact hdated
  · split
    · exact h.dated
    · exact le_rfl
  all_goals exact le_rfl

variable [DecimalSignLaws D]

theorem lastRungChange_le_run (h : LadderSound candidate) (calls : List ConfidenceCall) :
    candidate.lastRungChangeEpisode ≤ (run step candidate calls).lastRungChangeEpisode := by
  induction calls generalizing candidate with
  | nil => exact le_rfl
  | cons called calls ih =>
    exact (lastRungChange_le_step h called).trans (ih (ladderSound_step h called))

theorem apart_of_changes (h : LadderSound candidate) (hfirst : ChangesRung candidate called)
    {between : List ConfidenceCall} {last : ConfidenceCall}
    (hlast : MovesRung (run step candidate (called :: between)) last) :
    (candidate.step called).closedEpisodes + 25 ≤
      (run step candidate (called :: between ++ [last])).closedEpisodes := by
  rw [run_append, run_cons, run_nil]
  have hdated := hfirst.dated
  have hkept := lastRungChange_le_run (ladderSound_step h called) between
  have hapart := hlast.apart
  rw [run_cons] at hapart ⊢
  omega

end

section

variable {D : Type} [Decimal D] {candidate : CandidateConfidence D}

/-- The calls end in a quarantine in which exactly the ratios of `qualifying` have been measured
last, and all of them qualify. -/
def WindowsInQuarantine (candidate : CandidateConfidence D) (calls : List ConfidenceCall)
    (qualifying : List ℚ) : Prop :=
  ∃ earlier within, calls = earlier ++ within ∧
    (∀ s ∈ states step (run step candidate earlier) within, s.state = .quarantined) ∧
    within.filterMap measured = qualifying ∧ ∀ ratio ∈ qualifying, 15 ≤ ratio

variable {calls : List ConfidenceCall}

theorem windowsInQuarantine_nil (h : (run step candidate calls).state = .quarantined) :
    WindowsInQuarantine candidate calls [] := by
  refine ⟨calls, [], (List.append_nil calls).symm, ?_, rfl, by simp⟩
  simpa [states] using h

theorem WindowsInQuarantine.snoc {qualifying : List ℚ}
    (h : WindowsInQuarantine candidate calls qualifying) {called : ConfidenceCall}
    (hstate : ((run step candidate calls).step called).state = .quarantined)
    (hratio : ∀ ratio, measured called = some ratio → 15 ≤ ratio) :
    WindowsInQuarantine candidate (calls ++ [called])
      (qualifying ++ (measured called).toList) := by
  obtain ⟨earlier, within, rfl, hwithin, rfl, hqualify⟩ := h
  refine ⟨earlier, within ++ [called], List.append_assoc earlier within [called], ?_, ?_, ?_⟩
  · intro s hs
    obtain ⟨calls, hprefix, rfl⟩ := mem_states_iff.mp hs
    rcases List.prefix_concat_iff.mp hprefix with rfl | hprefix
    · rw [← run_append, ← List.append_assoc, run_append, run_cons, run_nil]
      exact hstate
    · exact hwithin _ (mem_states_iff.mpr ⟨calls, hprefix, rfl⟩)
  · rw [List.filterMap_append, List.filterMap_cons]
    cases measured called with
    | none => rfl
    | some ratio => rfl
  · intro ratio hmem
    rcases List.mem_append.mp hmem with hmem | hmem
    · exact hqualify ratio hmem
    · exact hratio ratio (Option.mem_toList.mp hmem)

variable [DecimalSignLaws D]

theorem windows_counted (h : LadderSound candidate) (hcount : candidate.consecutiveReentryWindows = 0)
    (calls : List ConfidenceCall) (hstate : (run step candidate calls).state = .quarantined) :
    ∃ qualifying, WindowsInQuarantine candidate calls qualifying ∧
      qualifying.length = (run step candidate calls).consecutiveReentryWindows := by
  induction calls using List.reverseRecOn with
  | nil => exact ⟨[], windowsInQuarantine_nil hstate, hcount.symm⟩
  | append_singleton calls called ih =>
    have hsound := ladderSound_run h calls
    have hnext : run step candidate (calls ++ [called]) = (run step candidate calls).step called := by
      rw [run_append, run_cons, run_nil]
    rw [hnext] at hstate ⊢
    generalize hs : run step candidate calls = s at ih hsound hstate ⊢
    have hfresh : ((s.step called).consecutiveReentryWindows = 0) →
        ∃ qualifying, WindowsInQuarantine candidate (calls ++ [called]) qualifying ∧
          qualifying.length = (s.step called).consecutiveReentryWindows := by
      intro hzero
      refine ⟨[], windowsInQuarantine_nil ?_, hzero.symm⟩
      rw [hnext, hs]
      exact hstate
    have hsnoc : s.state = .quarantined → (∀ ratio, measured called = some ratio → 15 ≤ ratio) →
        s.consecutiveReentryWindows + (measured called).toList.length =
          (s.step called).consecutiveReentryWindows →
        ∃ qualifying, WindowsInQuarantine candidate (calls ++ [called]) qualifying ∧
          qualifying.length = (s.step called).consecutiveReentryWindows := by
      intro hquarantined hratio hlength
      obtain ⟨qualifying, hwindows, hcounted⟩ := ih hquarantined
      refine ⟨qualifying ++ (measured called).toList, hwindows.snoc ?_ hratio, ?_⟩
      · rw [hs]
        exact hstate
      · rw [List.length_append, hcounted, hlength]
    have hlt := hsound.windows_lt
    unfold step at hstate hfresh hsnoc ⊢
    rcases call_cases s called with ⟨error, hcall, hnone⟩ | ⟨hother, hcall⟩ |
      ⟨review, netExpectancy, annualizedSharpe, rfl, hopen, hclosed, hcall⟩ |
      ⟨annualizedSharpe, windows, rfl, hquarantined, hwindows, hcall⟩ | ⟨-, hcall⟩ | ⟨-, hcall⟩
    all_goals rw [hcall] at hstate hfresh hsnoc ⊢
    · have hmeasured : measured called = none := by
        rcases hnone hstate with hmeasured | hmany
        · exact hmeasured
        · unfold maxU32 at hmany
          omega
      refine hsnoc hstate ?_ ?_
      · intro ratio hratio
        rw [hmeasured] at hratio
        cases hratio
      · rw [hmeasured]
        rfl
    · exact absurd hstate hother
    · by_cases hquarantined : s.state = .quarantined
      · have hr : (s.withCounts review).reviewed netExpectancy annualizedSharpe =
            (.quarantined, s.withCounts review) := if_pos hquarantined
        rw [hr] at hstate hsnoc ⊢
        refine hsnoc hquarantined ?_ rfl
        intro ratio hratio
        cases hratio
      · have hzero := hsound.windows_eq hquarantined hopen
        apply hfresh
        rcases reviewed_cases (s.withCounts review) netExpectancy annualizedSharpe with
          ⟨hstate, -⟩ | ⟨-, hr | hr | hr | ⟨-, hr | hr⟩⟩
        · exact absurd hstate hquarantined
        all_goals rw [hr]
        · exact hzero
        · exact hzero
        · rfl
        · exact hzero
        · exact hzero
    · split at hstate
      · cases hstate
      rename_i hfew
      rw [if_neg hfew] at hfresh hsnoc ⊢
      rcases countedWindows_cases s hwindows with ⟨hhigh, rfl⟩ | ⟨-, rfl⟩
      · refine hsnoc hquarantined ?_ rfl
        intro ratio hratio
        cases hratio
        exact hhigh
      · exact hfresh rfl
    · cases hstate
    · cases hstate

theorem reentry_earned (h : LadderSound candidate)
    (hcount : candidate.consecutiveReentryWindows = 0) {called : ConfidenceCall}
    (hreentry : ((run step candidate calls).call called).1 = .ok .reenteredWarmup) :
    ∃ first second third, WindowsInQuarantine candidate calls [first, second] ∧
      called = .window (.finite third) ∧ 15 ≤ third := by
  have hsound := ladderSound_run h calls
  rcases call_cases (run step candidate calls) called with ⟨error, hcall, -⟩ | ⟨-, hcall⟩ |
    ⟨review, netExpectancy, annualizedSharpe, -, -, -, hcall⟩ |
    ⟨annualizedSharpe, windows, rfl, hstate, hwindows, hcall⟩ | ⟨-, hcall⟩ | ⟨-, hcall⟩
  all_goals rw [hcall] at hreentry
  · cases hreentry
  · cases hreentry
  · rcases reviewed_cases ((run step candidate calls).withCounts review) netExpectancy
      annualizedSharpe with ⟨-, hr⟩ | ⟨-, hr | hr | hr | ⟨-, hr | hr⟩⟩
    all_goals
      rw [hr] at hreentry
      cases hreentry
  · split at hreentry
    · rename_i hmany
      obtain ⟨qualifying, hqualifying, hlength⟩ := windows_counted h hcount calls hstate
      have hlt := hsound.windows_lt
      rcases countedWindows_cases _ hwindows with ⟨hhigh, rfl⟩ | ⟨-, rfl⟩
      · have htwo : qualifying.length = 2 := by omega
        obtain ⟨first, second, rfl⟩ := List.length_eq_two.mp htwo
        exact ⟨first, second, annualizedSharpe, hqualifying, rfl, hhigh⟩
      · omega
    · cases hreentry
  · cases hreentry
  · cases hreentry

end

section

variable {D : Type} [Decimal D]

/-- A call that is refused changes nothing, a blocked candidate stays blocked, and a review moves
the candidate by at most one rung or quarantines it. -/
structure SafeCall (candidate : CandidateConfidence D) (called : ConfidenceCall) : Prop where
  refused : ∀ error, (candidate.call called).1 = .error error → candidate.step called = candidate
  blocked : Blocked candidate → Blocked (candidate.step called)
  review : ∀ review before after, called = .review review → OnRung candidate before →
    OnRung (candidate.step called) after →
      (after ≤ before + 1 ∧ before ≤ after + 1) ∨
        ((candidate.step called).state = .quarantined ∧ after = 0)

variable {candidate : CandidateConfidence D}

theorem blocked_step (h : Blocked candidate) (called : ConfidenceCall) :
    Blocked (candidate.step called) := by
  unfold step
  rcases call_cases candidate called with ⟨error, hcall, -⟩ | ⟨-, hcall⟩ |
    ⟨review, netExpectancy, annualizedSharpe, -, hopen, -, hcall⟩ |
    ⟨annualizedSharpe, windows, -, hstate, -, hcall⟩ | ⟨-, hcall⟩ | ⟨-, hcall⟩
  · rw [hcall]
    exact h
  · rw [hcall]
    exact h
  · exact absurd h hopen
  · unfold Blocked at h
    simp [hstate] at h
  · rw [hcall]
    exact .inl rfl
  · rw [hcall]
    exact .inr rfl

theorem step_of_refused {called : ConfidenceCall} {error : ConfidenceError}
    (h : (candidate.call called).1 = .error error) : candidate.step called = candidate := by
  unfold step
  rcases call_cases candidate called with ⟨error, hcall, -⟩ | ⟨-, hcall⟩ |
    ⟨review, netExpectancy, annualizedSharpe, -, -, -, hcall⟩ |
    ⟨annualizedSharpe, windows, -, -, -, hcall⟩ | ⟨-, hcall⟩ | ⟨-, hcall⟩
  all_goals rw [hcall] at h ⊢
  · cases h
  · split at h
    all_goals cases h
  · cases h
  · cases h

variable [DecimalSignLaws D]

theorem review_moves_rung {review : ConfidenceReview} {before after : ℕ}
    (hbefore : OnRung candidate before) (hafter : OnRung (candidate.step (.review review)) after) :
    (after ≤ before + 1 ∧ before ≤ after + 1) ∨
      ((candidate.step (.review review)).state = .quarantined ∧ after = 0) := by
  have hkept : OnRung candidate after → after ≤ before + 1 ∧ before ≤ after + 1 := by
    intro hsame
    have heq := rung_unique hbefore hsame
    omega
  rcases applyConfidenceReview_cases candidate review with
    ⟨error, hcall⟩ | ⟨netExpectancy, annualizedSharpe, -, -, hcall⟩
  · have hstep : candidate.step (.review review) = candidate := congrArg Prod.snd hcall
    rw [hstep] at hafter
    exact .inl (hkept hafter)
  have hstep : candidate.step (.review review) =
      ((candidate.withCounts review).reviewed netExpectancy annualizedSharpe).2 :=
    congrArg Prod.snd hcall
  have hcounts : OnRung (candidate.withCounts review) before := hbefore
  rw [hstep] at hafter ⊢
  rcases reviewed_cases (candidate.withCounts review) netExpectancy annualizedSharpe with
    ⟨-, hr⟩ | ⟨-, hr | hr | hr | ⟨-, hr | hr⟩⟩
  all_goals rw [hr] at hafter ⊢
  · exact .inl (hkept hafter)
  · exact .inl (hkept hafter)
  · exact .inl (hkept hafter)
  · have hzero : OnRung (candidate.withCounts review).quarantine 0 := rung_level (by norm_num)
    exact .inr ⟨rfl, rung_unique hafter hzero⟩
  · have heq := rung_unique hafter (onRung_reduceOneRung hcounts)
    exact .inl (by omega)
  · have heq := rung_unique hafter (onRung_increaseOneRung hcounts)
    have hlt := lt_of_rung hbefore
    exact .inl (by omega)

/-- **The ladder is safe.**  In every run the modifier is on the ladder and is zero exactly in
quarantine and under a block; a rung change by a review comes at least 25 closed episodes after
every earlier change; and a candidate enters again on the third window in a row that qualifies. -/
theorem confidence_ladder_safe {baseConfidence : D}
    (hnew : CandidateConfidence.new baseConfidence = .ok candidate)
    (calls : List ConfidenceCall) :
    (∀ s ∈ states step candidate calls, (∃ rung, OnRung s rung) ∧
      (Decimal.toRat s.confidenceModifier = 0 ↔ s.state = .quarantined ∨ Blocked s)) ∧
    AllSteps step SafeCall candidate calls ∧
    (∀ before first between last after,
      calls = before ++ first :: between ++ last :: after →
        ChangesRung (run step candidate before) first →
          MovesRung (run step candidate (before ++ first :: between)) last →
            (run step candidate (before ++ [first])).closedEpisodes + 25 ≤
              (run step candidate (before ++ first :: between ++ [last])).closedEpisodes) ∧
    (∀ before last after, calls = before ++ last :: after →
      ((run step candidate before).call last).1 = .ok .reenteredWarmup →
        ∃ first second third, WindowsInQuarantine candidate before [first, second] ∧
          last = .window (.finite third) ∧ 15 ≤ third) := by
  have hsound := ladderSound_new hnew
  have hcount : candidate.consecutiveReentryWindows = 0 := by
    unfold CandidateConfidence.new at hnew
    split at hnew
    · cases hnew
    · cases hnew
      rfl
  refine ⟨?_, ?_, ?_, ?_⟩
  · intro s hs
    obtain ⟨bs, -, rfl⟩ := mem_states_iff.mp hs
    have hrun := ladderSound_run hsound bs
    refine ⟨hrun.onRung, ?_⟩
    rw [← hrun.zero_iff]
    exact ⟨fun hzero => by simp [OnRung, rungs, hzero], fun hzero => (rung_zero_iff hzero).mp rfl⟩
  · apply allSteps_of_forall
    intro s called
    exact {
      refused := fun error => step_of_refused
      blocked := fun hblocked => blocked_step hblocked called
      review := by
        rintro review before after rfl hbefore hafter
        exact review_moves_rung hbefore hafter }
  · intro before first between last after _ hfirst hlast
    rw [run_append] at hlast
    have hapart := apart_of_changes (ladderSound_run hsound before) hfirst hlast
    rw [run_append, run_cons, run_nil, List.append_assoc, run_append]
    exact hapart
  · intro before last after _ hreentry
    exact reentry_earned hsound hcount hreentry

end

def ratioReview (closedEpisodes : ℕ) (annualizedSharpe : ℚ) : ConfidenceCall :=
  .review {
    closedEpisodes
    activeDays := 14
    netExpectancy := .finite 0
    annualizedSharpe := .finite annualizedSharpe }

/-- The candidate loses a rung, is quarantined one episode later and enters again. -/
def reentryCalls : List ConfidenceCall := [
  ratioReview 100 5,
  ratioReview 101 (-1),
  .window (.finite 15),
  .window (.finite 15),
  .window (.finite 15)]

def fullCandidate : CandidateConfidence ℚ where
  state := .warmup
  confidenceModifier := 1
  closedEpisodes := 0
  activeDays := 0
  lastRungChangeEpisode := 0
  consecutiveReentryWindows := 0

theorem new_fullCandidate : CandidateConfidence.new (1 : ℚ) = .ok fullCandidate := by
  unfold CandidateConfidence.new
  rw [if_neg (by decide +kernel)]
  rfl

theorem confidence_ladder_safe_reentry :
    (∀ s ∈ states step fullCandidate reentryCalls, (∃ rung, OnRung s rung) ∧
      (Decimal.toRat s.confidenceModifier = 0 ↔ s.state = .quarantined ∨ Blocked s)) ∧
    (run step fullCandidate reentryCalls).confidenceModifier = 1 / 40 :=
  ⟨(confidence_ladder_safe new_fullCandidate reentryCalls).1, by decide +kernel⟩

def MovesModifier (candidate : CandidateConfidence ℚ) (called : ConfidenceCall) : Prop :=
  (candidate.step called).confidenceModifier ≠ candidate.confidenceModifier ∧
    (candidate.step called).confidenceModifier ≠ 0

/-- Entering again is a rung change, and it may follow another one after a single episode; and a
candidate leaves the denylist for the other blocked state. -/
theorem reentry_within_one_episode :
    (¬ ∀ (candidate : CandidateConfidence ℚ) before first between last,
      CandidateConfidence.new (1 : ℚ) = .ok candidate →
        MovesModifier (run step candidate before) first →
          MovesModifier (run step candidate (before ++ first :: between)) last →
            (run step candidate (before ++ [first])).closedEpisodes + 25 ≤
              (run step candidate (before ++ first :: between ++ [last])).closedEpisodes) ∧
    ¬ ∀ (candidate : CandidateConfidence ℚ) before called,
      CandidateConfidence.new (1 : ℚ) = .ok candidate → Blocked (run step candidate before) →
        (run step candidate (before ++ [called])).state = (run step candidate before).state := by
  constructor
  · intro h
    have hapart := h fullCandidate [] (ratioReview 100 5)
      [ratioReview 101 (-1), .window (.finite 15), .window (.finite 15)] (.window (.finite 15))
      new_fullCandidate (by unfold MovesModifier; decide +kernel)
      (by unfold MovesModifier; decide +kernel)
    exact absurd hapart (by decide +kernel)
  · intro h
    have hkept := h fullCandidate [.manualDenylist] .blockIntegrity new_fullCandidate (.inr rfl)
    cases hkept

end CopyTrade.Analysis
