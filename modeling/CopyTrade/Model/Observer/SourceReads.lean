import CopyTrade.Model.Core.Candles
import CopyTrade.Model.Core.ReadBudget
import CopyTrade.Model.Core.Scheduler

/-!
# The reads of the observer

`run_qualification` of crates/copytrade-observer/src/qualification.rs with the transport of
crates/copytrade-observer/src/public_mainnet.rs: every dispatch is a task of its own, and the loop
finishes the tasks that have ended one by one.  A task works between two waits under the locks of
the transport; the events of a run are these pieces of work, in any order of the tasks.  Candles are
fetched for the buckets that are due, which are marked when a batch begins, and travel with the
response of the source state they were fetched for.

The readings of the clocks and what the exchange answers are arguments.  Counters, the audit and
what a response carries for the market are left out.
-/

namespace CopyTrade.Model

open Foundation
open Std (ExtTreeMap ExtTreeSet)

namespace CandleInterval

def all : List CandleInterval :=
  [.fifteenMinutes, .thirtyMinutes, .oneHour, .fourHours, .twelveHours]

def rank : CandleInterval → ℕ
  | .fifteenMinutes => 0
  | .thirtyMinutes => 1
  | .oneHour => 2
  | .fourHours => 3
  | .twelveHours => 4

instance : Ord CandleInterval := ⟨compareOn rank⟩

instance : Std.TransOrd CandleInterval := inferInstanceAs (Std.TransCmp (compareOn rank))

instance : Std.LawfulEqOrd CandleInterval where
  eq_of_compare {a b} h := by
    have hrank : rank a = rank b := Std.LawfulEqOrd.eq_of_compare h
    cases a <;> cases b <;> first | rfl | cases hrank

end CandleInterval

/-- The key of `requested_buckets`. -/
structure CandleSeries where
  asset : String
  interval : CandleInterval
deriving DecidableEq

namespace CandleSeries

def order : CandleSeries → CandleSeries → Ordering :=
  compareLex (compareOn CandleSeries.asset) (compareOn CandleSeries.interval)

instance : Ord CandleSeries := ⟨order⟩

instance : Std.TransOrd CandleSeries := inferInstanceAs (Std.TransCmp (compareLex _ _))

instance : Std.LawfulEqOrd CandleSeries where
  compare_self := Std.ReflCmp.compare_self
  eq_of_compare {a b} h := by
    obtain ⟨asset, interval⟩ := a
    obtain ⟨asset', interval'⟩ := b
    have hparts : order ⟨asset, interval⟩ ⟨asset', interval'⟩ = .eq := h
    simp only [order, compareLex_eq_eq, compareOn, Std.LawfulEqOrd.compare_eq_iff_eq] at hparts
    obtain ⟨rfl, rfl⟩ := hparts
    rfl

end CandleSeries

def technicalBatchIntervalMs : ℕ := 5000

structure TechnicalCandleFetchState where
  technicalAssets : ExtTreeSet String
  sourceAssetsByCandidate : ExtTreeMap String (ExtTreeSet String)
  requestedBuckets : ExtTreeMap CandleSeries ℕ
  lastBatchStartedMs : Option ℕ

/-- The bucket of an interval at a time, the last one that is final. -/
def CandleInterval.bucketAt (interval : CandleInterval) (nowMs : ℕ) : ℕ :=
  (nowMs - closedCandleFinalityDelayMs) / interval.durationMs

/-- The buckets a batch has marked: of an asset, at a time. -/
structure CandleReservation where
  asset : String
  intervals : List CandleInterval
  nowMs : ℕ
deriving DecidableEq

namespace TechnicalCandleFetchState

/-- `TechnicalCandleFetchState::default()`. -/
def empty : TechnicalCandleFetchState := ⟨∅, ∅, ∅, none⟩

def allAssets (state : TechnicalCandleFetchState) : ExtTreeSet String :=
  state.sourceAssetsByCandidate.values.foldl
    (fun assets sourceAssets => assets.insertMany sourceAssets.toList) state.technicalAssets

def pruneInactiveBuckets (state : TechnicalCandleFetchState) : TechnicalCandleFetchState :=
  { state with
    requestedBuckets := state.requestedBuckets.filter fun series _ =>
      state.allAssets.contains series.asset }

def replaceTechnicalAssets (state : TechnicalCandleFetchState) (assets : List String) :
    TechnicalCandleFetchState :=
  pruneInactiveBuckets { state with technicalAssets := ExtTreeSet.ofList assets compare }

def replaceCandidateAssets (state : TechnicalCandleFetchState) (candidateId : String)
    (assets : ExtTreeSet String) : TechnicalCandleFetchState :=
  pruneInactiveBuckets { state with
    sourceAssetsByCandidate := state.sourceAssetsByCandidate.insert candidateId.toLower assets }

/-- No bucket has been requested of a series, or one before the given one. -/
def isDue (state : TechnicalCandleFetchState) (series : CandleSeries) (bucket : ℕ) : Bool :=
  match state.requestedBuckets[series]? with
  | none => true
  | some requested => requested < bucket

def dueIntervals (state : TechnicalCandleFetchState) (nowMs : ℕ) (asset : String) :
    List CandleInterval :=
  CandleInterval.all.filter fun interval =>
    state.isDue ⟨asset, interval⟩ (interval.bucketAt nowMs)

/-- The first asset with intervals that are due. -/
def dueBatch (state : TechnicalCandleFetchState) (nowMs : ℕ) : Option CandleReservation :=
  (state.allAssets.toList.find? fun asset => !(state.dueIntervals nowMs asset).isEmpty).map
    fun asset => ⟨asset, state.dueIntervals nowMs asset, nowMs⟩

/-- The buckets of a batch are marked as requested. -/
def mark (state : TechnicalCandleFetchState) (batch : CandleReservation) :
    TechnicalCandleFetchState :=
  { state with
    lastBatchStartedMs := some batch.nowMs
    requestedBuckets := batch.intervals.foldl
      (fun buckets interval =>
        buckets.insert ⟨batch.asset, interval⟩ (interval.bucketAt batch.nowMs))
      state.requestedBuckets }

/-- The first part of `fetch_due_source_candles`, under the lock. -/
def reserve (state : TechnicalCandleFetchState) (candidateId : String) (assets : ExtTreeSet String)
    (nowMs : ℕ) : Option CandleReservation × TechnicalCandleFetchState :=
  let state := state.replaceCandidateAssets candidateId assets
  if state.lastBatchStartedMs.any fun last => nowMs - last < technicalBatchIntervalMs then
    (none, state)
  else
    match state.dueBatch nowMs with
    | none => (none, state)
    | some batch => (some batch, state.mark batch)

end TechnicalCandleFetchState

/-- What the exchange answers to a candle request: rows, each a candle or not, or nothing that is
an array of rows. -/
abbrev CandleReply (D : Type) := Option (List (Option (ClosedCandle D)))

def parseCandleSnapshot {D : Type} (asset : String) (interval : CandleInterval)
    (rows : List (Option (ClosedCandle D))) (nowMs : ℕ) : Option (List (ClosedCandle D)) :=
  if 5000 < rows.length then none
  else do
    let candles ← rows.mapM fun row =>
      row.filter fun candle => candle.asset == asset && candle.interval == interval
    pure (candles.filter fun candle => candle.closeTimeMs + closedCandleFinalityDelayMs ≤ nowMs)

def fetchCandleSnapshot {D : Type} (asset : String) (interval : CandleInterval) (nowMs : ℕ)
    (reply : CandleReply D) : Option (List (ClosedCandle D)) :=
  let startTimeMs := nowMs - interval.durationMs * (interval.warmupCandles + 2)
  if asset.isEmpty || nowMs ≤ startTimeMs then none
  else reply.bind fun rows => parseCandleSnapshot asset interval rows nowMs

/-- A bucket of a batch after its request: its candles, or none when the request has failed. -/
structure FetchedBucket (D : Type) where
  series : CandleSeries
  bucket : ℕ
  candles : Option (List (ClosedCandle D))

/-- The requests of a batch, one after the other. -/
def fetchBatch {D : Type} (batch : CandleReservation) (reply : CandleInterval → CandleReply D) :
    List (FetchedBucket D) :=
  batch.intervals.map fun interval => {
    series := ⟨batch.asset, interval⟩
    bucket := interval.bucketAt batch.nowMs
    candles := fetchCandleSnapshot batch.asset interval batch.nowMs (reply interval) }

/-- The marks of the buckets whose request has failed are taken back. -/
def TechnicalCandleFetchState.releaseFailed {D : Type} (state : TechnicalCandleFetchState)
    (fetched : List (FetchedBucket D)) : TechnicalCandleFetchState :=
  { state with
    requestedBuckets := (fetched.filter fun bucket => bucket.candles.isNone).foldl
      (fun buckets bucket => buckets.erase bucket.series) state.requestedBuckets }

/-- The candles of a batch, by interval and time. -/
def batchCandles {D : Type} (fetched : List (FetchedBucket D)) : List (ClosedCandle D) :=
  (fetched.flatMap fun bucket => bucket.candles.getD []).mergeSort fun left right =>
    ((compare left.interval right.interval).then
      (compare left.openTimeMs right.openTimeMs)).isLE

structure PublicTransportPolicy where
  activeSourceIntervalMs : ℕ
  inactiveSourceIntervalMs : ℕ
  queueDelayAllowanceMs : ℕ
  transportP99AllowanceMs : ℕ
  marketValidityMs : ℕ

def PublicTransportPolicy.sourceDeadlineMs (policy : PublicTransportPolicy) (tier : SourceTier) :
    Option ℕ :=
  let interval := match tier with
    | .active => policy.activeSourceIntervalMs
    | .inactive => policy.inactiveSourceIntervalMs
  (checkedAddU64 interval policy.queueDelayAllowanceMs).bind fun sum =>
    checkedAddU64 sum policy.transportP99AllowanceMs

/-- A source state: its candidate, its time and the assets of its positions. -/
structure SourceStateResponse where
  candidateId : String
  sourceTimeMs : ℕ
  assets : ExtTreeSet String

/-- A response that waits for the loop; one for the market carries no candles. -/
structure AcceptedPublicResponse (D : Type) where
  requestKind : ReadRequestKind
  subject : String
  requestedAtMono : ℕ
  receivedAtMono : ℕ
  validUntilMono : ℕ
  closedCandles : List (ClosedCandle D)

def RequestSubject.text : RequestSubject → String
  | .candidate value | .follower value | .asset value => value
  | .market => "market"

/-- How far the task of a dispatch is: it waits for the exchange's first answer, it waits for the
candles of a batch, its last reading of the clock is next, or it has ended. -/
inductive TaskProgress (D : Type)
  | reading
  | fetching (batch : Option CandleReservation)
  | fetched (buckets : List (FetchedBucket D))
  | ended (result : Except ReadFailure ReadResponse) (buckets : List (FetchedBucket D))

/-- A dispatch that is being executed. -/
structure ReadTask (D : Type) where
  dispatch : ScheduledDispatch
  progress : TaskProgress D

/-- The scheduler, the state of the transport, the tasks, and the responses that have been handed
to `LiveShadowEngine::ingest`. -/
structure SourceReads (D : Type) where
  scheduler : RequestScheduler
  candleFetch : TechnicalCandleFetchState
  accepted : List (AcceptedPublicResponse D)
  tasks : List (ReadTask D)
  ingested : List (AcceptedPublicResponse D)

/-- What can happen next; a task is named by its place. -/
inductive ReadEvent (D : Type)
  | schedule (request : ScheduledReadRequest) (nowMs : ℕ)
  | beginNext (nowMs : ℕ)
  | readSource (index : ℕ) (state : SourceStateResponse) (ageReadMs fetchMs : ℕ)
  | answerCandles (index : ℕ) (reply : CandleInterval → CandleReply D)
  | respondSource (index : ℕ) (receivedAtMono : ℕ)
  | respondMarket (index : ℕ) (technicalAssets : List String) (receivedAtMono : ℕ)
  | fail (index : ℕ) (failure : ReadFailure)
  | finish (index : ℕ) (nowMs scheduleNowMs : ℕ)

variable {D : Type}

def AcceptedPublicResponse.answers (response : AcceptedPublicResponse D)
    (request : ScheduledReadRequest) : Bool :=
  response.requestKind == request.kind && response.subject == request.key.subject.text
    && response.requestedAtMono == request.createdAt

/-- A request of the loop: the state of a source, or what the market has to answer. -/
def ScheduledReadRequest.isEnqueued (request : ScheduledReadRequest) : Bool :=
  request.key.kind == request.kind &&
    match request.kind, request.key.subject with
    | .sourceState, .candidate _ => true
    | .marketMids, .market | .exchangeMetadata, .market | .orderBook, .asset _ => true
    | _, _ => false

namespace SourceReads

def start (scheduler : RequestScheduler) : SourceReads D :=
  ⟨scheduler, TechnicalCandleFetchState.empty, [], [], []⟩

def setProgress (state : SourceReads D) (index : ℕ) (task : ReadTask D)
    (progress : TaskProgress D) : SourceReads D :=
  { state with tasks := state.tasks.set index { task with progress } }

/-- `execute` after `perform`: the response waits for the loop. -/
def respond (state : SourceReads D) (index : ℕ) (task : ReadTask D) (validity : Option ℕ)
    (receivedAtMono : ℕ) (buckets : List (FetchedBucket D)) : SourceReads D :=
  let request := task.dispatch.request
  match validity.bind fun validity => checkedAddU64 receivedAtMono validity with
  | none => state.setProgress index task (.ended (.error .invalidResponse) buckets)
  | some validUntilMono =>
    let responded := state.setProgress index task (.ended (.ok {
      receivedAt := receivedAtMono
      validUntil := min validUntilMono request.expiresAt
      payloadValid := true }) buckets)
    { responded with
      accepted := state.accepted ++ [{
        requestKind := request.kind
        subject := request.key.subject.text
        requestedAtMono := request.createdAt
        receivedAtMono
        validUntilMono
        closedCandles := batchCandles buckets }] }

/-- The state of a source is there: it is refused when it is too old, and a batch of candles is
reserved otherwise. -/
def readSource (policy : PublicTransportPolicy) (state : SourceReads D) (index : ℕ)
    (task : ReadTask D) (source : SourceStateResponse) (ageReadMs fetchMs : ℕ) : SourceReads D :=
  match task.dispatch.request.sourceTier.bind policy.sourceDeadlineMs with
  | none => state.setProgress index task (.ended (.error .invalidResponse) [])
  | some maximumAge =>
    if maximumAge < ageReadMs - source.sourceTimeMs then
      state.setProgress index task (.ended (.error .invalidResponse) [])
    else
      let (batch, candleFetch) :=
        state.candleFetch.reserve source.candidateId source.assets fetchMs
      { state.setProgress index task (.fetching batch) with candleFetch }

/-- The candles of a batch are there. -/
def answerCandles (state : SourceReads D) (index : ℕ) (task : ReadTask D)
    (batch : Option CandleReservation) (reply : CandleInterval → CandleReply D) : SourceReads D :=
  let buckets := batch.elim [] fun batch => fetchBatch batch reply
  { state.setProgress index task (.fetched buckets) with
    candleFetch := state.candleFetch.releaseFailed buckets }

/-- `take_accepted`: the first response that answers a request. -/
def takeAccepted (accepted : List (AcceptedPublicResponse D)) (request : ScheduledReadRequest) :
    Option (AcceptedPublicResponse D) × List (AcceptedPublicResponse D) :=
  (accepted.find? fun response => response.answers request,
    accepted.eraseP fun response => response.answers request)

/-- The loop finishes a task: its response is taken, and handed to the engine when the scheduler has
found it fresh. -/
def finish (state : SourceReads D) (index : ℕ) (task : ReadTask D)
    (result : Except ReadFailure ReadResponse) (nowMs scheduleNowMs : ℕ) : SourceReads D :=
  let request := task.dispatch.request
  let (outcome, scheduler) := state.scheduler.finish task.dispatch result nowMs scheduleNowMs
  let (response, accepted) := takeAccepted state.accepted request
  { state with
    scheduler
    accepted
    tasks := state.tasks.eraseIdx index
    ingested := state.ingested ++
      if outcome = .completedFresh then response.toList else [] }

/-- One event.  An event that the state of its task does not allow does not happen. -/
def step [SliceSort] (policy : PublicTransportPolicy) (state : SourceReads D) :
    ReadEvent D → SourceReads D
  | .schedule request nowMs =>
    if request.isEnqueued then
      { state with scheduler := (state.scheduler.schedule request nowMs).2 }
    else state
  | .beginNext nowMs =>
    let (dispatch, scheduler) := state.scheduler.beginNext nowMs
    { state with
      scheduler
      tasks := state.tasks ++ dispatch.toList.map fun dispatch => ⟨dispatch, .reading⟩ }
  | .readSource index source ageReadMs fetchMs =>
    match state.tasks[index]? with
    | some task =>
      match task.progress, task.dispatch.request.kind with
      | .reading, .sourceState => state.readSource policy index task source ageReadMs fetchMs
      | _, _ => state
    | none => state
  | .answerCandles index reply =>
    match state.tasks[index]? with
    | some task =>
      match task.progress with
      | .fetching batch => state.answerCandles index task batch reply
      | _ => state
    | none => state
  | .respondSource index receivedAtMono =>
    match state.tasks[index]? with
    | some task =>
      match task.progress with
      | .fetched buckets =>
        state.respond index task (task.dispatch.request.sourceTier.bind policy.sourceDeadlineMs)
          receivedAtMono buckets
      | _ => state
    | none => state
  | .respondMarket index technicalAssets receivedAtMono =>
    match state.tasks[index]? with
    | some task =>
      match task.progress, task.dispatch.request.kind with
      | .reading, .sourceState => state
      | .reading, kind =>
        let responded := state.respond index task (some policy.marketValidityMs) receivedAtMono []
        -- The metadata bring the assets of the technical universe with them.
        { responded with
          candleFetch :=
            if kind = .exchangeMetadata then
              state.candleFetch.replaceTechnicalAssets technicalAssets
            else state.candleFetch }
      | _, _ => state
    | none => state
  | .fail index failure =>
    match state.tasks[index]? with
    | some task =>
      match task.progress with
      | .reading => state.setProgress index task (.ended (.error failure) [])
      | _ => state
    | none => state
  | .finish index nowMs scheduleNowMs =>
    match state.tasks[index]? with
    | some task =>
      match task.progress with
      | .ended result _ => state.finish index task result nowMs scheduleNowMs
      | _ => state
    | none => state

end SourceReads

end CopyTrade.Model
