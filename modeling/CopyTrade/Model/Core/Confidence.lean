import CopyTrade.Foundation.Words
import CopyTrade.Model.Decimal

/-!
# The confidence of a candidate

crates/copytrade-core/src/confidence.rs: the modifier of a candidate moves on a ladder of seven
levels.  Reviews move it by a rung or quarantine the candidate, windows let a quarantined candidate
enter again, and two calls block it.  The metrics are doubles, which are only compared with
constants: a finite one is its rational value.
-/

namespace CopyTrade.Model

open Foundation

/-- A double. -/
inductive Metric
  | finite (value : ℚ)
  | notFinite
deriving DecidableEq

namespace Confidence

variable {D : Type} [Decimal D]

def confidenceLevels : List D := [
  Decimal.zero,
  Decimal.new 25 3,
  Decimal.new 5 2,
  Decimal.new 10 2,
  Decimal.new 25 2,
  Decimal.new 50 2,
  Decimal.one]

inductive CandidateState
  | warmup
  | active
  | decayed
  | quarantined
  | integrityBlocked
  | manualDenylist
deriving DecidableEq

structure CandidateConfidence (D : Type) where
  state : CandidateState
  confidenceModifier : D
  closedEpisodes : ℕ
  activeDays : ℕ
  lastRungChangeEpisode : ℕ
  consecutiveReentryWindows : ℕ

structure ConfidenceReview where
  closedEpisodes : ℕ
  activeDays : ℕ
  netExpectancy : Metric
  annualizedSharpe : Metric

inductive ConfidenceOutcome
  | gatheringData
  | held
  | increasedOneRung
  | reducedOneRung
  | quarantined
  | reenteredWarmup
  | integrityBlocked
  | manualDenylisted
deriving DecidableEq

inductive ConfidenceError
  | invalidConfidenceLevel
  | nonFiniteMetric
  | episodeCountRegressed
  | permanentlyBlocked
deriving DecidableEq

/-- `CONFIDENCE_LEVELS[index]`. -/
def level (index : ℕ) : D := confidenceLevels.getD index Decimal.one

def confidenceIndex (value : D) : Option ℕ :=
  confidenceLevels.findIdx? fun level => Decimal.eqv level value

def stateForConfidence (value : D) : CandidateState :=
  if Decimal.eqv value Decimal.one then .active
  else if Decimal.isZero value then .quarantined
  else .decayed

namespace CandidateConfidence

def new (baseConfidence : D) : Except ConfidenceError (CandidateConfidence D) :=
  if !(confidenceLevels.any fun level => Decimal.eqv level baseConfidence)
      || Decimal.isZero baseConfidence then
    .error .invalidConfidenceLevel
  else .ok {
    state := .warmup
    confidenceModifier := baseConfidence
    closedEpisodes := 0
    activeDays := 0
    lastRungChangeEpisode := 0
    consecutiveReentryWindows := 0 }

def increaseOneRung (candidate : CandidateConfidence D) : CandidateConfidence D :=
  let index := (confidenceIndex candidate.confidenceModifier).getD 0
  let confidenceModifier := level (min (index + 1) 6)
  { candidate with confidenceModifier, state := stateForConfidence confidenceModifier }

def reduceOneRung (candidate : CandidateConfidence D) : CandidateConfidence D :=
  let index := (confidenceIndex candidate.confidenceModifier).getD 1
  let confidenceModifier := level (index - 1)
  { candidate with
    confidenceModifier
    state := if Decimal.isZero confidenceModifier then .quarantined else .decayed }

def held (candidate : CandidateConfidence D) : CandidateConfidence D :=
  { candidate with state := stateForConfidence candidate.confidenceModifier }

def quarantine (candidate : CandidateConfidence D) : CandidateConfidence D :=
  { candidate with
    state := .quarantined
    confidenceModifier := Decimal.zero
    consecutiveReentryWindows := 0
    lastRungChangeEpisode := candidate.closedEpisodes }

/-- A rung change is dated with the closed episodes of its review. -/
def dated (candidate : CandidateConfidence D) : CandidateConfidence D :=
  { candidate with lastRungChangeEpisode := candidate.closedEpisodes }

def withCounts (candidate : CandidateConfidence D) (review : ConfidenceReview) :
    CandidateConfidence D :=
  { candidate with closedEpisodes := review.closedEpisodes, activeDays := review.activeDays }

/-- A review with finite metrics, once its counts have been taken over. -/
def reviewed (candidate : CandidateConfidence D) (netExpectancy annualizedSharpe : ℚ) :
    ConfidenceOutcome × CandidateConfidence D :=
  if candidate.state = .quarantined then (.quarantined, candidate)
  else if candidate.closedEpisodes < 50 then
    (.gatheringData, { candidate with state := .warmup })
  else
    let rungEligible := 25 ≤ candidate.closedEpisodes - candidate.lastRungChangeEpisode
    if candidate.closedEpisodes < 100 ∨ candidate.activeDays < 14 then
      if netExpectancy < 0 ∧ rungEligible then
        (.reducedOneRung, candidate.reduceOneRung.dated)
      else (.held, candidate.held)
    else if annualizedSharpe < 0 then (.quarantined, candidate.quarantine)
    else if ¬ rungEligible then (.held, candidate.held)
    else if 15 ≤ annualizedSharpe then (.increasedOneRung, candidate.increaseOneRung.dated)
    else if annualizedSharpe < 10 then (.reducedOneRung, candidate.reduceOneRung.dated)
    else (.held, candidate.held)

/-- The result of a call and the candidate it leaves behind. -/
abbrev Called (D : Type) := Except ConfidenceError ConfidenceOutcome × CandidateConfidence D

def applyConfidenceReview (candidate : CandidateConfidence D) (review : ConfidenceReview) :
    Called D :=
  if candidate.state = .integrityBlocked ∨ candidate.state = .manualDenylist then
    (.error .permanentlyBlocked, candidate)
  else
    match review.netExpectancy, review.annualizedSharpe with
    | .finite netExpectancy, .finite annualizedSharpe =>
      if review.closedEpisodes < candidate.closedEpisodes then
        (.error .episodeCountRegressed, candidate)
      else
        let called := (candidate.withCounts review).reviewed netExpectancy annualizedSharpe
        (.ok called.1, called.2)
    | _, _ => (.error .nonFiniteMetric, candidate)

/-- The windows after a qualifying window; their number is a `u32`. -/
def countedWindows (candidate : CandidateConfidence D) (annualizedSharpe : ℚ) :
    Option ℕ :=
  if 15 ≤ annualizedSharpe then
    if candidate.consecutiveReentryWindows + 1 ≤ maxU32 then
      some (candidate.consecutiveReentryWindows + 1)
    else none
  else some 0

def reentered (candidate : CandidateConfidence D) : CandidateConfidence D :=
  { candidate with
    state := .warmup
    confidenceModifier := level 1
    consecutiveReentryWindows := 0
    lastRungChangeEpisode := candidate.closedEpisodes }

def observeQuarantineReentryWindow (candidate : CandidateConfidence D)
    (annualizedSharpe : Metric) : Called D :=
  if candidate.state ≠ .quarantined then (.ok .held, candidate)
  else
    match annualizedSharpe with
    | .notFinite => (.error .nonFiniteMetric, candidate)
    | .finite annualizedSharpe =>
      match candidate.countedWindows annualizedSharpe with
      | none => (.error .episodeCountRegressed, candidate)
      | some windows =>
        if 3 ≤ windows then (.ok .reenteredWarmup, candidate.reentered)
        else (.ok .quarantined, { candidate with consecutiveReentryWindows := windows })

def blockIntegrity (candidate : CandidateConfidence D) : Called D :=
  (.ok .integrityBlocked,
    { candidate with state := .integrityBlocked, confidenceModifier := Decimal.zero })

def manualDenylist (candidate : CandidateConfidence D) : Called D :=
  (.ok .manualDenylisted,
    { candidate with state := .manualDenylist, confidenceModifier := Decimal.zero })

end CandidateConfidence

inductive ConfidenceCall
  | review (review : ConfidenceReview)
  | window (annualizedSharpe : Metric)
  | blockIntegrity
  | manualDenylist

namespace CandidateConfidence

def call (candidate : CandidateConfidence D) : ConfidenceCall → Called D
  | .review review => candidate.applyConfidenceReview review
  | .window annualizedSharpe => candidate.observeQuarantineReentryWindow annualizedSharpe
  | .blockIntegrity => candidate.blockIntegrity
  | .manualDenylist => candidate.manualDenylist

def step (candidate : CandidateConfidence D) (called : ConfidenceCall) : CandidateConfidence D :=
  (candidate.call called).2

end CandidateConfidence

end Confidence

end CopyTrade.Model
