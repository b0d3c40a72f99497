import CopyTrade.Model.Observer.ShadowFill

/-!
# The aggregate of the profitability windows

`summarize` of crates/copytrade-observer/src/railway_aggregate.rs: the checks that a list of window
records passes and the drawdown over the equities of the verified ones.  The arithmetic is exact.
Sums over episodes and return statistics, which nothing refuses then, are left out.
-/

namespace CopyTrade.Model.Aggregate

open Foundation

def fiveMinutesMs : ℕ := 300000

structure AggregateEquityBucket where
  runId : String
  bucketId : String
  bucketIndex : ℕ
  openedAtMono : ℕ
  closedAtMono : ℕ
  startingEquity : ℚ
  endingEquity : ℚ
  returnFraction : ℚ

structure WindowProfitability where
  startingEquity : ℚ
  endingEquity : ℚ
  equityChangeIncludingOpenPositions : ℚ
  fiveMinuteBucketCount : ℕ

structure ProfitabilityIdentity where
  frozenIdentitySha256 : String
  sourceTreeSha256 : String
  observerBinarySha256 : String
  configurationSha256 : String
  riskPolicySha256 : String
  releaseManifestSha256 : String
deriving DecidableEq

structure WindowRecord where
  runId : String
  identity : ProfitabilityIdentity
  startWallClockUtcMs : ℕ
  expectedDurationSeconds : ℕ
  monotonicElapsedSeconds : ℕ
  completedFourHours : Bool
  evidenceVerified : Bool
  unsigned : Bool
  plannedOnly : Bool
  submissionCapable : Bool
  apiWalletPresent : Bool
  riskInvariantViolations : ℕ
  mutationRequests : ℕ
  keyFileOpens : ℕ
  portfolioEpisodes : List (PortfolioEpisode ℚ)
  sourceEpisodes : List (SourceEpisode ℚ)
  equityBuckets : List AggregateEquityBucket
  profitability : Option WindowProfitability

structure RailwayAggregateSummary where
  profitabilityIdentity : Option ProfitabilityIdentity
  totalWindows : ℕ
  completedFourHourWindows : ℕ
  incompleteWindows : ℕ
  completedObservationSeconds : ℕ
  minimumDurationMet : Bool
  independentClosedEpisodes : ℕ
  minimumClosedEpisodesMet : Bool
  maximumDrawdown : ℚ
  riskInvariantViolations : ℕ
  mutationRequests : ℕ
  keyFileOpens : ℕ

/-- One round of the loop over the buckets of a window. -/
def validateBucket (record : WindowRecord) :
    AggregateEquityBucket × ℕ → Except String Unit
  | (bucket, index) =>
    let previous := if index = 0 then none else record.equityBuckets[index - 1]?
    if bucket.runId ≠ record.runId ∨ bucket.bucketIndex ≠ index ∨
        bucket.bucketId ≠ record.runId ++ ":" ++ Nat.repr index ∨
        checkedSubNat bucket.closedAtMono bucket.openedAtMono ≠ some fiveMinutesMs ∨
        previous.any (fun earlier => earlier.closedAtMono ≠ bucket.openedAtMono) ∨
        previous.any (fun earlier => earlier.endingEquity ≠ bucket.startingEquity) ∨
        bucket.startingEquity = 0 then
      .error ("invalid five-minute bucket structure for " ++ record.runId ++ " at index " ++
        Nat.repr index)
    else if bucket.returnFraction ≠
        (bucket.endingEquity - bucket.startingEquity) / bucket.startingEquity then
      .error ("five-minute bucket return mismatch for " ++ record.runId ++ " at index " ++
        Nat.repr index)
    else .ok ()

/-- The check of the profitability of a window against its buckets. -/
def validateProfitability (record : WindowRecord) : Except String Unit :=
  match record.profitability with
  | some profitability =>
    let measuredEnd :=
      record.equityBuckets.getLast?.elim profitability.startingEquity (·.endingEquity)
    if profitability.fiveMinuteBucketCount ≠ record.equityBuckets.length then
      .error ("profitability bucket count mismatch for " ++ record.runId)
    else if profitability.endingEquity ≠ measuredEnd ∨
        profitability.equityChangeIncludingOpenPositions ≠
          measuredEnd - profitability.startingEquity then
      .error ("profitability equity continuity mismatch for " ++ record.runId)
    else .ok ()
  | none =>
    if record.completedFourHours then
      .error ("completed window " ++ record.runId ++ " has no profitability summary")
    else .ok ()

def validateWindowBuckets (record : WindowRecord) : Except String Unit :=
  if record.completedFourHours ∧ (record.equityBuckets.length ≠ 48 ∨
      record.monotonicElapsedSeconds < record.expectedDurationSeconds) then
    .error ("completed window " ++ record.runId ++
      " does not contain a full four-hour measurement")
  else do
    let measuredBucketMs ← (checkedMulU64 record.equityBuckets.length fiveMinutesMs).elim
      (.error "aggregate bucket duration overflow") .ok
    let elapsedMs ← (checkedMulU64 record.monotonicElapsedSeconds 1000).elim
      (.error "aggregate elapsed duration overflow") .ok
    if elapsedMs < measuredBucketMs then
      .error ("five-minute buckets exceed elapsed time for " ++ record.runId)
    else do
      checkAll (validateBucket record) record.equityBuckets.zipIdx
      validateProfitability record

def validateVerifiedWindowBuckets (records : List WindowRecord) : Except String Unit :=
  checkAll validateWindowBuckets (records.filter (·.evidenceVerified))

def verifiedBuckets (records : List WindowRecord) : List AggregateEquityBucket :=
  (records.filter (·.evidenceVerified)).flatMap (·.equityBuckets)

/-- One round of the loop of `aggregate_drawdown`. -/
def observeBucket : Option ℚ × ℚ → AggregateEquityBucket → Option ℚ × ℚ
  | (peak, maximum), bucket =>
    let nextPeak :=
      max (max (peak.getD bucket.startingEquity) bucket.startingEquity) bucket.endingEquity
    (some nextPeak,
      if nextPeak = 0 then maximum
      else max maximum ((nextPeak - bucket.endingEquity) / nextPeak))

def aggregateDrawdown (records : List WindowRecord) : ℚ :=
  ((verifiedBuckets records).foldl observeBucket (none, 0)).2

def insertIdentical {K V : Type} [DecidableEq K] [DecidableEq V] (values : List (K × V))
    (key : K) (value : V) : Except String (List (K × V)) :=
  match values.lookup key with
  | some existing =>
    if existing ≠ value then .error "aggregate episode identity collision" else .ok values
  | none => .ok (values ++ [(key, value)])

def checkedU64Sum (values : List ℕ) : Except String ℕ :=
  values.foldlM (fun sum value =>
    (checkedAddU64 sum value).elim (.error "aggregate counter overflow") .ok) 0

def checkInterval : WindowRecord × WindowRecord → Except String Unit
  | (previous, next) => do
    let previousEnd ← ((checkedMulU64 previous.monotonicElapsedSeconds 1000).bind
      (checkedAddU64 previous.startWallClockUtcMs)).elim
        (.error "aggregate window interval overflow") .ok
    if next.startWallClockUtcMs < previousEnd then
      .error ("aggregate windows overlap: " ++ previous.runId ++ " and " ++ next.runId)

def WindowRecord.countsEpisodes (record : WindowRecord) : Bool :=
  record.evidenceVerified && record.unsigned && record.plannedOnly &&
    !record.submissionCapable && !record.apiWalletPresent

def summarize (records : List WindowRecord) (minimumObservationSeconds minimumClosedEpisodes : ℕ) :
    Except String RailwayAggregateSummary :=
  let identity := records.head?.map (·.identity)
  if records.any fun record => identity.any (record.identity ≠ ·) then
    .error "aggregate contains more than one profitability identity"
  else do
    validateVerifiedWindowBuckets records
    checkAll checkInterval (records.zip records.tail)
    let completed := records.filter (·.completedFourHours)
    let completedObservationSeconds ← completed.foldlM (fun sum record =>
      (checkedAddU64 sum record.expectedDurationSeconds).elim
        (.error "aggregate observation duration overflow") .ok) 0
    let counted := records.filter (·.countsEpisodes)
    let portfolio ← (counted.flatMap (·.portfolioEpisodes)).foldlM (fun values episode =>
      insertIdentical values episode.episodeId episode) []
    let _sources ← (counted.flatMap (·.sourceEpisodes)).foldlM (fun values episode =>
      insertIdentical values (episode.candidateId, episode.sourceEpisodeId) episode) []
    let riskInvariantViolations ← checkedU64Sum (records.map (·.riskInvariantViolations))
    let mutationRequests ← checkedU64Sum (records.map (·.mutationRequests))
    let keyFileOpens ← checkedU64Sum (records.map (·.keyFileOpens))
    .ok { profitabilityIdentity := identity
          totalWindows := records.length
          completedFourHourWindows := completed.length
          incompleteWindows := records.length - completed.length
          completedObservationSeconds
          minimumDurationMet := minimumObservationSeconds ≤ completedObservationSeconds
          independentClosedEpisodes := portfolio.length
          minimumClosedEpisodesMet := minimumClosedEpisodes ≤ portfolio.length
          maximumDrawdown := aggregateDrawdown records
          riskInvariantViolations
          mutationRequests
          keyFileOpens }

end CopyTrade.Model.Aggregate
