import CopyTrade.Foundation.Drawdown
import CopyTrade.Model.Observer.Aggregate

/-!
# The drawdown of the aggregate

`aggregate_drawdown` raises its peak to the starting equity of a bucket and measures the fall at its
ending equity only.  Inside a window nothing is missed; between two windows the equity may have
moved, and a fall to the next start is measured only as far as it is left at the end of the bucket.
-/

namespace CopyTrade.Analysis.WindowDrawdown

open Foundation Model Model.Aggregate

/-- Where an equity of a bucket stands in its window. -/
inductive Moment
  | opening
  | continuation
  | ending
deriving DecidableEq

structure EquityPoint where
  moment : Moment
  equity : ℚ

def bucketPoints (bucket : AggregateEquityBucket) : List EquityPoint :=
  [⟨if bucket.bucketIndex = 0 then .opening else .continuation, bucket.startingEquity⟩,
    ⟨.ending, bucket.endingEquity⟩]

def equityPoints (buckets : List AggregateEquityBucket) : List EquityPoint :=
  buckets.flatMap bucketPoints

/-- Every starting and ending equity of the buckets of the verified windows, in order. -/
def verifiedEquities (records : List WindowRecord) : List ℚ :=
  (verifiedBuckets records).flatMap fun bucket => [bucket.startingEquity, bucket.endingEquity]

/-- The largest loss from an equity to itself or a later one; without an equity there is none. -/
def IsMaximumDrawdown (equities : List ℚ) (drawdown : ℚ) : Prop :=
  IsGreatest (insert 0 {loss | ∃ (i j : ℕ) (before after : ℚ), i ≤ j ∧ equities[i]? = some before ∧
    equities[j]? = some after ∧ loss = (before - after) / before}) drawdown

def lossesAt (moment : Moment) (records : List WindowRecord) : Set ℚ :=
  falls EquityPoint.equity (·.moment = moment) (equityPoints (verifiedBuckets records))

/-- No window opens with a loss greater than all that the ends of the buckets show. -/
def OpeningLossesShow (records : List WindowRecord) : Prop :=
  ∀ loss ∈ lossesAt .opening records, 0 < loss → ∃ shown ∈ lossesAt .ending records, loss ≤ shown

theorem verifiedEquities_eq (records : List WindowRecord) :
    verifiedEquities records = (equityPoints (verifiedBuckets records)).map (·.equity) := by
  unfold verifiedEquities equityPoints
  rw [List.map_flatMap]
  rfl

theorem isMaximumDrawdown_iff (records : List WindowRecord) (drawdown : ℚ) :
    IsMaximumDrawdown (verifiedEquities records) drawdown ↔
      IsGreatest (insert 0 (falls EquityPoint.equity (fun _ => True)
        (equityPoints (verifiedBuckets records)))) drawdown := by
  have hmap := falls_map id (fun _ : ℚ => True) EquityPoint.equity
    (equityPoints (verifiedBuckets records))
  rw [← verifiedEquities_eq] at hmap
  have hlosses : {loss | ∃ (i j : ℕ) (before after : ℚ), i ≤ j ∧ (verifiedEquities records)[i]? = some before ∧
      (verifiedEquities records)[j]? = some after ∧ loss = (before - after) / before} =
      falls id (fun _ => True) (verifiedEquities records) := by
    simp only [falls, fall, id_eq, true_and]
  unfold IsMaximumDrawdown
  rw [hlosses, hmap]
  rfl

/-- Neighbouring buckets: the later one opens a window or goes on from the equity of the other. -/
def Follows (previous next : AggregateEquityBucket) : Prop :=
  next.bucketIndex = 0 ∨ previous.endingEquity = next.startingEquity

theorem validateBucket_ok {record : WindowRecord} {bucket : AggregateEquityBucket} {index : ℕ}
    (h : validateBucket record (bucket, index) = .ok ()) :
    bucket.bucketIndex = index ∧ ∀ earlier, index ≠ 0 →
      record.equityBuckets[index - 1]? = some earlier →
        earlier.endingEquity = bucket.startingEquity := by
  unfold validateBucket at h
  rw [refuse_eq_ok_iff] at h
  have hvalid := h.1
  push Not at hvalid
  refine ⟨hvalid.2.1, fun earlier hindex hearlier => ?_⟩
  have hequity := hvalid.2.2.2.2.2.1
  rw [if_neg hindex, hearlier] at hequity
  simpa using hequity

theorem validateWindowBuckets_ok {record : WindowRecord}
    (h : validateWindowBuckets record = .ok ()) :
    checkAll (validateBucket record) record.equityBuckets.zipIdx = .ok () := by
  unfold validateWindowBuckets at h
  simp only [refuse_eq_ok_iff, bind_eq_ok_iff] at h
  obtain ⟨-, _, -, _, -, -, _, hbuckets, -⟩ := h
  exact hbuckets

theorem window_follows {record : WindowRecord} (h : validateWindowBuckets record = .ok ()) :
    record.equityBuckets.IsChain Follows ∧ ∀ first ∈ record.equityBuckets.head?,
      first.bucketIndex = 0 := by
  have hvalid (index : ℕ) (bucket : AggregateEquityBucket)
      (hbucket : record.equityBuckets[index]? = some bucket) :
      validateBucket record (bucket, index) = .ok () := by
    apply (checkAll_eq_ok_iff _ _).mp (validateWindowBuckets_ok h)
    rw [List.mem_zipIdx_iff_getElem?]
    exact hbucket
  constructor
  · rw [List.isChain_iff_getElem]
    intro index hindex
    have hnext := validateBucket_ok (hvalid (index + 1) _ (List.getElem?_eq_getElem hindex))
    exact .inr (hnext.2 _ (Nat.succ_ne_zero index) (List.getElem?_eq_getElem _))
  · intro first hfirst
    rw [Option.mem_def, List.head?_eq_getElem?] at hfirst
    exact (validateBucket_ok (hvalid 0 first hfirst)).1

theorem verified_follows {records : List WindowRecord}
    (h : validateVerifiedWindowBuckets records = .ok ()) :
    (verifiedBuckets records).IsChain Follows ∧ ∀ first ∈ (verifiedBuckets records).head?,
      first.bucketIndex = 0 := by
  unfold validateVerifiedWindowBuckets at h
  rw [checkAll_eq_ok_iff] at h
  unfold verifiedBuckets
  generalize records.filter (·.evidenceVerified) = verified at h
  induction verified with
  | nil => simp
  | cons record rest ih =>
    obtain ⟨hchain, hhead⟩ := window_follows (h record List.mem_cons_self)
    obtain ⟨hrest, hopens⟩ := ih fun other hother => h other (List.mem_cons_of_mem _ hother)
    rw [List.flatMap_cons]
    refine ⟨hchain.append hrest fun _ _ next hnext => .inl (hopens next hnext), ?_⟩
    intro first hfirst
    rw [List.head?_append, Option.mem_def, Option.or_eq_some_iff] at hfirst
    rcases hfirst with hfirst | ⟨-, hfirst⟩
    · exact hhead first hfirst
    · exact hopens first hfirst

/-- Only an opening equity may differ from the ending equity before it. -/
theorem points_follow {buckets : List AggregateEquityBucket} (h : buckets.IsChain Follows) :
    (equityPoints buckets).IsChain fun x y => y.moment = .ending ∨ y.moment = .opening ∨
      x.moment = .ending ∧ x.equity = y.equity := by
  unfold equityPoints
  induction h with
  | nil => exact .nil
  | singleton bucket => simp [bucketPoints]
  | @cons_cons previous next rest hfollows _ ih =>
    rw [List.flatMap_cons] at ih ⊢
    rw [List.flatMap_cons]
    refine List.IsChain.append (by simp [bucketPoints]) ih ?_
    intro x hx y hy
    obtain rfl : ⟨.ending, previous.endingEquity⟩ = x := by simpa [bucketPoints] using hx
    obtain rfl : ⟨if next.bucketIndex = 0 then .opening else .continuation, next.startingEquity⟩ =
        y := by simpa [bucketPoints] using hy
    by_cases hopening : next.bucketIndex = 0
    · simp [hopening]
    · exact .inr (.inr ⟨rfl, hfollows.resolve_left hopening⟩)

theorem watched_foldl {buckets : List AggregateEquityBucket}
    (hpositive : ∀ point ∈ equityPoints buckets, 0 < point.equity) :
    Watched EquityPoint.equity (·.moment = .ending) (equityPoints buckets)
      (buckets.foldl observeBucket (none, 0)).1 (buckets.foldl observeBucket (none, 0)).2 := by
  induction buckets using List.reverseRecOn with
  | nil => exact watched_nil
  | append_singleton buckets bucket ih =>
    have hsplit : equityPoints (buckets ++ [bucket]) = equityPoints buckets ++
        [⟨if bucket.bucketIndex = 0 then .opening else .continuation, bucket.startingEquity⟩] ++
        [⟨.ending, bucket.endingEquity⟩] := by
      simp [equityPoints, bucketPoints]
    rw [hsplit] at hpositive ⊢
    have hstart := (ih fun point hpoint => hpositive point (by simp [hpoint])).snoc
      fun point hpoint => hpositive point (List.mem_append_left _ hpoint)
    have hending := hstart.snoc hpositive
    rw [List.foldl_append, List.foldl_cons, List.foldl_nil]
    generalize buckets.foldl observeBucket (none, 0) = watch at hending ⊢
    obtain ⟨peak, worst⟩ := watch
    have hend : 0 < bucket.endingEquity := hpositive ⟨.ending, bucket.endingEquity⟩ (by simp)
    have hpeak : max (max (peak.getD bucket.startingEquity) bucket.startingEquity)
        bucket.endingEquity ≠ 0 := (lt_max_of_lt_right hend).ne'
    have hkind : (if bucket.bucketIndex = 0 then Moment.opening else .continuation) ≠ .ending := by
      split <;> simp
    simpa [observeBucket, hpeak, hkind, fall] using hending

/-- The loop finds the largest loss at an ending equity. -/
theorem aggregateDrawdown_greatest {records : List WindowRecord}
    (hpositive : ∀ equity ∈ verifiedEquities records, 0 < equity) :
    IsGreatest (insert 0 (lossesAt .ending records)) (aggregateDrawdown records) := by
  refine (watched_foldl fun point hpoint => ?_).greatest
  apply hpositive
  rw [verifiedEquities_eq]
  exact List.mem_map_of_mem hpoint

theorem summarize_ok {records : List WindowRecord} {seconds episodes : ℕ}
    {summary : RailwayAggregateSummary} (h : summarize records seconds episodes = .ok summary) :
    validateVerifiedWindowBuckets records = .ok () ∧
      summary.maximumDrawdown = aggregateDrawdown records := by
  unfold summarize at h
  simp only [refuse_eq_ok_iff, bind_eq_ok_iff] at h
  obtain ⟨-, _, hvalid, _, -, _, -, _, -, _, -, _, -, _, -, _, -, hsummary⟩ := h
  refine ⟨hvalid, ?_⟩
  rw [← Except.ok.inj hsummary]

/-- **The maximum drawdown of the summary.**  It is the largest loss between any two equities of the
verified windows exactly when no window opens with a loss greater than those the ends of the buckets
show. -/
theorem maximum_drawdown_iff {records : List WindowRecord} {seconds episodes : ℕ}
    {summary : RailwayAggregateSummary} (h : summarize records seconds episodes = .ok summary)
    (hpositive : ∀ equity ∈ verifiedEquities records, 0 < equity) :
    IsMaximumDrawdown (verifiedEquities records) summary.maximumDrawdown ↔
      OpeningLossesShow records := by
  obtain ⟨hvalid, hdrawdown⟩ := summarize_ok h
  obtain ⟨hchain, hhead⟩ := verified_follows hvalid
  rw [isMaximumDrawdown_iff, hdrawdown]
  refine isGreatest_falls_iff (aggregateDrawdown_greatest hpositive) (points_follow hchain) ?_
  intro point hpoint
  unfold equityPoints at hpoint
  cases hbuckets : verifiedBuckets records with
  | nil => simp [hbuckets] at hpoint
  | cons first rest =>
    have hopens : first.bucketIndex = 0 := hhead first (by simp [hbuckets])
    simp [hbuckets, bucketPoints, hopens] at hpoint
    simp [← hpoint]

def bucketFrom (runId : String) (opening closing : ℚ) : AggregateEquityBucket where
  runId := runId
  bucketId := runId ++ ":0"
  bucketIndex := 0
  openedAtMono := 1000
  closedAtMono := 301000
  startingEquity := opening
  endingEquity := closing
  returnFraction := (closing - opening) / opening

/-- A verified window that was interrupted after its first bucket. -/
def interruptedWindow (runId : String) (start : ℕ) (opening closing : ℚ) : WindowRecord where
  runId := runId
  identity := ⟨"01", "02", "03", "04", "05", "06"⟩
  startWallClockUtcMs := start
  expectedDurationSeconds := 14400
  monotonicElapsedSeconds := 320
  completedFourHours := false
  evidenceVerified := true
  unsigned := true
  plannedOnly := true
  submissionCapable := false
  apiWalletPresent := false
  riskInvariantViolations := 0
  mutationRequests := 0
  keyFileOpens := 0
  portfolioEpisodes := []
  sourceEpisodes := []
  equityBuckets := [bucketFrom runId opening closing]
  profitability := some ⟨opening, closing, closing - opening, 1⟩

/-- The equity falls from 100 to 80 between the windows; the second bucket ends at `closing`. -/
def gappedWindows (closing : ℚ) : List WindowRecord :=
  [interruptedWindow "1785115756447-46864-2b091b0cebb2" 1785115756447 100 100,
    interruptedWindow "1785119756447-46864-2b091b0cebb2" 1785119756447 80 closing]

theorem gappedWindows_accepted {closing drawdown : ℚ}
    (h : (summarize (gappedWindows closing) 604800 100).toOption.map (·.maximumDrawdown) =
      some drawdown) :
    ∃ summary, summarize (gappedWindows closing) 604800 100 = .ok summary ∧
      summary.maximumDrawdown = drawdown := by
  obtain ⟨summary, haccepted, hdrawdown⟩ := Option.map_eq_some_iff.mp h
  exact ⟨summary, eq_ok_of_toOption haccepted, hdrawdown⟩

/-- Nothing is missed where the second bucket ends at its low. -/
theorem maximum_drawdown_iff_gapped : ∃ summary,
    summarize (gappedWindows 80) 604800 100 = .ok summary ∧
      (IsMaximumDrawdown (verifiedEquities (gappedWindows 80)) summary.maximumDrawdown ↔
        OpeningLossesShow (gappedWindows 80)) := by
  have hrun := @gappedWindows_accepted 80 (1 / 5) (by decide +kernel)
  obtain ⟨summary, haccepted, -⟩ := hrun
  exact ⟨summary, haccepted, maximum_drawdown_iff haccepted (by decide +kernel)⟩

/-- A fall from 100 to 80 that the second bucket wins back to 90 is reported as one of a tenth. -/
theorem opening_loss_missed : ∃ summary,
    summarize (gappedWindows 90) 604800 100 = .ok summary ∧
      (∀ equity ∈ verifiedEquities (gappedWindows 90), 0 < equity) ∧
      summary.maximumDrawdown = 1 / 10 ∧
      ¬ IsMaximumDrawdown (verifiedEquities (gappedWindows 90)) summary.maximumDrawdown := by
  have hrun := @gappedWindows_accepted 90 (1 / 10) (by decide +kernel)
  obtain ⟨summary, haccepted, hdrawdown⟩ := hrun
  refine ⟨summary, haccepted, by decide +kernel, hdrawdown, ?_⟩
  rintro ⟨-, hbound⟩
  have hloss : (100 - 80) / 100 ≤ summary.maximumDrawdown :=
    hbound (.inr ⟨1, 2, 100, 80, by omega, rfl, rfl, rfl⟩)
  rw [hdrawdown] at hloss
  norm_num at hloss

end CopyTrade.Analysis.WindowDrawdown
