import CopyTrade.Analysis.Scheduling.SnapshotAges
import CopyTrade.Model.Observer.SourceIngest

/-!
# Snapshots and exposures in step

The store takes a snapshot only if its sequence is new, and so does the book, so one rule stands for
both: every sequence that either holds was handed out before.  The sequence of a response is new to
both, whatever failed earlier, and what the store takes the book takes too.
-/

namespace CopyTrade.Analysis

open Foundation Model Model.SourceIngest

variable {D : Type}

theorem bookAccept_sequence {book : SourceExposureBook D} {candidate : String}
    {incoming : SourceExposureState D}
    (hnew : ∀ existing, book.states[candidate]? = some existing →
      existing.acceptedSequence < incoming.acceptedSequence) (other : String) :
    (book.accept candidate incoming).2.states[other]?.map (·.acceptedSequence) =
      if candidate = other then some incoming.acceptedSequence
      else book.states[other]?.map (·.acceptedSequence) := by
  have htaken : ∃ state, (acceptSourceExposureState book.states[candidate]? incoming).2 =
      some state ∧ state.acceptedSequence = incoming.acceptedSequence := by
    cases hget : book.states[candidate]? with
    | none => exact ⟨incoming, rfl, rfl⟩
    | some existing =>
      unfold acceptSourceExposureState
      simp only [if_neg (not_le.mpr (hnew existing hget))]
      split
      · exact ⟨_, rfl, rfl⟩
      · exact ⟨_, rfl, rfl⟩
  obtain ⟨state, hstate, hsequence⟩ := htaken
  unfold SourceExposureBook.accept
  simp only [hstate]
  rw [getElem?_insert_eq, getElem?_erase_eq]
  split
  · rw [Option.map_some, hsequence]
  · rfl

variable [Decimal D] {engine : SourceEngine D}

theorem offerCandles_stores (candles : List (ClosedCandle D)) (engine : SourceEngine D) :
    ∃ technicalEngine, (SourceEngine.offerCandles candles engine).2 =
      { engine with technicalEngine } := by
  induction candles generalizing engine with
  | nil => exact ⟨engine.technicalEngine, rfl⟩
  | cons candle candles ih =>
    unfold SourceEngine.offerCandles
    split
    · exact ⟨_, rfl⟩
    · rename_i acceptance technicalEngine hoffered
      obtain ⟨last, hlast⟩ := ih { engine with technicalEngine }
      split
      · rename_i error next hrest
        rw [hrest] at hlast
        exact ⟨last, hlast⟩
      · rename_i changed next hrest
        rw [hrest] at hlast
        exact ⟨last, hlast⟩

/-- The snapshot store and the exposure book are as they were, and no sequence was taken back. -/
structure StoresKept (before after : SourceEngine D) : Prop where
  store_eq : after.sourceStore = before.sourceStore
  book_eq : after.sourceExposureBook = before.sourceExposureBook
  sequences_le : ∀ candidate : String, before.sourceSequences[candidate]?.getD 0 ≤
    after.sourceSequences[candidate]?.getD 0

/-- A candidate has got a snapshot and exposures under a new sequence. -/
structure SourceStored (before after : SourceEngine D) (candidate : String) (sequence : ℕ)
    (snapshot : SourceSnapshot (SourceStateResponse D)) (exposures : SourceExposureState D) :
    Prop where
  snapshot_eq : snapshot.candidateId = candidate ∧ snapshot.sequence = sequence
  exposures_eq : exposures.acceptedSequence = sequence
  store_eq : after.sourceStore.accepted = before.sourceStore.accepted.insert candidate snapshot
  book_eq : after.sourceExposureBook = (before.sourceExposureBook.accept candidate exposures).2
  new : before.sourceSequences[candidate]?.getD 0 < sequence
  sequences_eq : ∀ other : String, after.sourceSequences[other]?.getD 0 =
    if candidate = other then sequence else before.sourceSequences[other]?.getD 0

omit [Decimal D] in
theorem advanceSequence_cases (candidate : String) (engine : SourceEngine D) :
    (∃ next, SourceEngine.advanceSequence candidate engine = (.error .arithmetic, next) ∧
      StoresKept engine next) ∨
    ∃ sequence next, SourceEngine.advanceSequence candidate engine = (.ok sequence, next) ∧
      StoresKept engine next ∧ engine.sourceSequences[candidate]?.getD 0 < sequence ∧
      ∀ other : String, next.sourceSequences[other]?.getD 0 =
        if candidate = other then sequence else engine.sourceSequences[other]?.getD 0 := by
  have hinsert (sequence : ℕ) (other : String) :
      (engine.sourceSequences.insert candidate sequence)[other]?.getD 0 =
        if candidate = other then sequence else engine.sourceSequences[other]?.getD 0 := by
    rw [getElem?_insert_eq]
    split <;> rfl
  unfold SourceEngine.advanceSequence
  dsimp only
  split
  · left
    refine ⟨_, rfl, rfl, rfl, ?_⟩
    intro other
    rw [hinsert]
    split
    · rename_i hsame
      rw [hsame]
    · exact le_rfl
  · rename_i sequence hadded
    right
    obtain ⟨hsequence, -⟩ := checkedAddU64_eq_some_iff.mp hadded
    refine ⟨sequence, _, rfl, ⟨rfl, rfl, ?_⟩, by omega, hinsert sequence⟩
    intro other
    rw [hinsert]
    split
    · rename_i hsame
      rw [← hsame]
      omega
    · exact le_rfl

omit [Decimal D] in
theorem accept_outcome {T : Type} (store : SnapshotStore T) (snapshot : SourceSnapshot T)
    (now : ℕ) (payloadValid : Bool) :
    (store.accept snapshot now payloadValid).1 = .accepted ∧
        (store.accept snapshot now payloadValid).2 =
          { store with accepted := store.accepted.insert snapshot.candidateId snapshot } ∨
      (store.accept snapshot now payloadValid).1 ≠ .accepted ∧
        (store.accept snapshot now payloadValid).2 = store := by
  unfold SnapshotStore.accept
  split
  · exact .inr ⟨by simp, rfl⟩
  split
  · exact .inr ⟨by simp, rfl⟩
  split
  · exact .inr ⟨by simp, rfl⟩
  split
  · exact .inr ⟨by simp, rfl⟩
  split
  · exact .inr ⟨by simp, rfl⟩
  split
  · exact .inr ⟨by simp, rfl⟩
  split
  · exact .inr ⟨by simp, rfl⟩
  split
  · exact .inr ⟨by simp, rfl⟩
  · exact .inl ⟨rfl, rfl⟩

omit [Decimal D] in
theorem acceptSnapshot_cases (snapshot : SourceSnapshot (SourceStateResponse D))
    (exposures : SourceExposureState D) (now : ℕ) (engine : SourceEngine D) :
    ∃ next, SourceEngine.acceptSnapshot snapshot exposures now engine = (.ok (), next) ∧
      (next = engine ∨
        next.sourceStore.accepted =
          engine.sourceStore.accepted.insert snapshot.candidateId snapshot ∧
        next.sourceExposureBook =
          (engine.sourceExposureBook.accept snapshot.candidateId exposures).2 ∧
        next.sourceSequences = engine.sourceSequences) := by
  unfold SourceEngine.acceptSnapshot
  rcases accept_outcome engine.sourceStore snapshot now true with
    ⟨houtcome, hstore⟩ | ⟨houtcome, hstore⟩
  · simp only [houtcome, hstore]
    exact ⟨_, rfl, .inr ⟨rfl, rfl, rfl⟩⟩
  · refine ⟨engine, ?_, .inl rfl⟩
    dsimp only
    split
    · rename_i haccepted
      exact absurd haccepted houtcome
    · rw [hstore]

/-- **One response.**  It leaves the store and the book, or both take it under a new sequence. -/
theorem ingest_cases (calls : SourceEngine.IngestCalls D) (response : AcceptedSourceResponse D)
    (now : ℕ) (engine : SourceEngine D) :
    StoresKept engine (SourceEngine.ingest calls response now engine).2 ∨
      ∃ candidate sequence snapshot exposures,
        SourceStored engine (SourceEngine.ingest calls response now engine).2 candidate sequence
          snapshot exposures := by
  unfold SourceEngine.ingest
  obtain ⟨technicalEngine, hcandles⟩ := offerCandles_stores response.payload.closedCandles engine
  cases hoffered : (SourceEngine.offerCandles response.payload.closedCandles engine).1 with
  | error error =>
    rw [InPlace.bind_run_error (Prod.ext hoffered hcandles)]
    exact .inl ⟨rfl, rfl, fun _ => le_rfl⟩
  | ok changed =>
    rw [InPlace.bind_run_ok (Prod.ext hoffered hcandles)]
    rcases advanceSequence_cases response.payload.candidateId { engine with technicalEngine } with
      ⟨next, hrun, hkept⟩ | ⟨sequence, next, hrun, hkept, hnew, hsequences⟩
    · rw [InPlace.bind_run_error hrun]
      exact .inl ⟨hkept.store_eq, hkept.book_eq, hkept.sequences_le⟩
    · rw [InPlace.bind_run_ok hrun]
      have hstores : StoresKept engine next := ⟨hkept.store_eq, hkept.book_eq, hkept.sequences_le⟩
      cases hpayload : (calls.toVec { response.payload with closedCandles := [] }).mapError
          LiveShadowError.core with
      | error error => exact .inl hstores
      | ok payload =>
        cases hexposures : SourceEngine.exposuresOf
            { response.payload with closedCandles := [] } with
        | error error =>
          rw [InPlace.check_run_ok, InPlace.check_run_error]
          exact .inl hstores
        | ok exposures =>
          rw [InPlace.check_run_ok, InPlace.check_run_ok]
          obtain ⟨last, hlast, hcases⟩ := acceptSnapshot_cases
            { candidateId := response.payload.candidateId
              payload := { response.payload with closedCandles := [] }
              requestedAt := response.requestedAtMono
              receivedAt := response.receivedAtMono
              sourceObservedAt := none
              validUntil := response.validUntilMono
              sequence }
            { acceptedSequence := sequence
              payloadHash := calls.hashPayloadBytes payload
              exposures } now next
          rw [InPlace.bind_run_ok hlast]
          rcases hcases with rfl | ⟨hstore, hbook, hkeptSequences⟩
          · exact .inl hstores
          · right
            rw [hstores.store_eq] at hstore
            rw [hstores.book_eq] at hbook
            refine ⟨response.payload.candidateId, sequence, _, _, ?_, ?_, hstore, hbook, hnew, ?_⟩
            · exact ⟨rfl, rfl⟩
            · rfl
            · intro other
              rw [← hsequences other, ← hkeptSequences]
              rfl

structure SourceIngestCall (D : Type) [Decimal D] where
  calls : SourceEngine.IngestCalls D
  response : AcceptedSourceResponse D
  now : ℕ

def afterSourceIngest (engine : SourceEngine D) (call : SourceIngestCall D) : SourceEngine D :=
  (SourceEngine.ingest call.calls call.response call.now engine).2

/-- The store and the book hold the same candidates under the same sequences, which were handed out
before. -/
structure InStep (engine : SourceEngine D) : Prop where
  same : ∀ candidate : String,
    engine.sourceStore.accepted[candidate]?.map (·.sequence) =
      engine.sourceExposureBook.states[candidate]?.map (·.acceptedSequence)
  handedOut : ∀ (candidate : String) (snapshot : SourceSnapshot (SourceStateResponse D)),
    engine.sourceStore.accepted[candidate]? = some snapshot →
      snapshot.sequence ≤ engine.sourceSequences[candidate]?.getD 0

omit [Decimal D] in
theorem inStep_new (technicalEngine : TechnicalEngine D) (policy : FreshnessPolicy) :
    InStep (SourceEngine.new technicalEngine policy) := by
  constructor
  · intro candidate
    simp [SourceEngine.new]
  · intro candidate snapshot h
    simp [SourceEngine.new] at h

omit [Decimal D] in
theorem InStep.of_kept {before after : SourceEngine D} (h : InStep before)
    (hkept : StoresKept before after) : InStep after := by
  constructor
  · rw [hkept.store_eq, hkept.book_eq]
    exact h.same
  · intro candidate snapshot hget
    rw [hkept.store_eq] at hget
    exact (h.handedOut candidate snapshot hget).trans (hkept.sequences_le candidate)

omit [Decimal D] in
theorem InStep.of_stored {before after : SourceEngine D} {candidate : String} {sequence : ℕ}
    {snapshot : SourceSnapshot (SourceStateResponse D)} {exposures : SourceExposureState D}
    (h : InStep before)
    (hstored : SourceStored before after candidate sequence snapshot exposures) : InStep after := by
  have hnew : ∀ existing, before.sourceExposureBook.states[candidate]? = some existing →
      existing.acceptedSequence < exposures.acceptedSequence := by
    intro existing hexisting
    have hsame := h.same candidate
    rw [hexisting, Option.map_some, Option.map_eq_some_iff] at hsame
    obtain ⟨earlier, hearlier, hsequence⟩ := hsame
    have hle := h.handedOut candidate earlier hearlier
    have hlt := hstored.new
    rw [hstored.exposures_eq]
    omega
  constructor
  · intro other
    rw [hstored.store_eq, hstored.book_eq, bookAccept_sequence hnew, getElem?_insert_eq]
    split
    · rw [Option.map_some, hstored.snapshot_eq.2, hstored.exposures_eq]
    · exact h.same other
  · intro other found hget
    rw [hstored.store_eq, getElem?_insert_eq] at hget
    rw [hstored.sequences_eq]
    split at hget
    · rename_i hsame
      rw [if_pos hsame]
      cases hget
      exact hstored.snapshot_eq.2.le
    · rename_i hother
      rw [if_neg hother]
      exact h.handedOut other found hget

theorem InStep.step {engine : SourceEngine D} (h : InStep engine) (call : SourceIngestCall D) :
    InStep (afterSourceIngest engine call) := by
  rcases ingest_cases call.calls call.response call.now engine with hkept | ⟨_, _, _, _, hstored⟩
  · exact h.of_kept hkept
  · exact h.of_stored hstored

omit [Decimal D] in
theorem InStep.selectSource (h : InStep engine) (maximumAgeMs : String → ℕ) (now : ℕ)
    (selected : SourceEngine.SelectedSources D) (candidate : String × Bool) :
    ∃ next, engine.selectSource maximumAgeMs now selected candidate = .ok next := by
  unfold SourceEngine.selectSource
  split
  · exact ⟨_, rfl⟩
  · split
    · exact ⟨_, rfl⟩
    · rename_i snapshot hfresh
      have hget : engine.sourceStore.accepted[candidate.1]? = some snapshot := by
        obtain ⟨hstored, -⟩ := Option.filter_eq_some_iff.mp hfresh
        exact (fresh_eq_some_iff.mp hstored).1
      have hsame := h.same candidate.1
      rw [hget, Option.map_some] at hsame
      obtain ⟨exposureState, hexposure, hsequence⟩ := Option.map_eq_some_iff.mp hsame.symm
      rw [hexposure]
      dsimp only
      rw [if_neg (not_not_intro hsequence)]
      exact ⟨_, rfl⟩

omit [Decimal D] in
theorem InStep.selectSources (h : InStep engine) (maximumAgeMs : String → ℕ) (now : ℕ)
    (candidates : List (String × Bool)) :
    ∃ selected, engine.selectSources maximumAgeMs now candidates = .ok selected := by
  unfold SourceEngine.selectSources
  generalize (⟨⟨∅, ∅⟩, [], [], ∅⟩ : SourceEngine.SelectedSources D) = selected
  induction candidates generalizing selected with
  | nil => exact ⟨selected, rfl⟩
  | cons candidate candidates ih =>
    obtain ⟨next, hnext⟩ := h.selectSource maximumAgeMs now selected candidate
    rw [List.foldlM_cons, hnext, ok_bind]
    exact ih next

/-- **Snapshots and exposures stay in step.**  After any responses of any candidates the store and
the book hold the same candidates under the same sequences, and no decision fails to find the
exposures of a fresh snapshot. -/
theorem snapshots_and_exposures_in_step (technicalEngine : TechnicalEngine D)
    (policy : FreshnessPolicy) (ingests : List (SourceIngestCall D)) :
    ∀ engine ∈ states afterSourceIngest (SourceEngine.new technicalEngine policy) ingests,
      (∀ candidate : String, engine.sourceStore.accepted[candidate]?.map (·.sequence) =
        engine.sourceExposureBook.states[candidate]?.map (·.acceptedSequence)) ∧
      ∀ (maximumAgeMs : String → ℕ) (now : ℕ) (candidates : List (String × Bool)),
        ∃ selected, engine.selectSources maximumAgeMs now candidates = .ok selected := by
  intro engine hmem
  have hinStep : InStep engine := by
    obtain ⟨earlier, -, rfl⟩ := mem_states_iff.mp hmem
    exact run_invariant (I := InStep) (fun _ call h => h.step call)
      (inStep_new technicalEngine policy) earlier
  exact ⟨hinStep.same, hinStep.selectSources⟩

def leaderIngest : SourceIngestCall ℚ where
  calls :=
    { toVec := fun state => .ok (textBytes ("\x7b\"candidate_id\":\"" ++ state.candidateId ++
        "\",\"account_value\":\"100\",\"source_time_ms\":0,\"positions\":\x7b\x7d\x7d"))
      hashPayloadBytes := prefixDigest
      constructNextDecision := fun _ _ => .ok () }
  response :=
    { payload := ⟨"leader", 100, 0, ∅, []⟩
      requestedAtMono := 0
      receivedAtMono := 0
      validUntilMono := 60000 }
  now := 0

theorem snapshots_and_exposures_in_step_leader :
    let engine := run afterSourceIngest (SourceEngine.new ⟨∅⟩ ⟨60000, 1000⟩) [leaderIngest]
    engine.sourceStore.accepted["leader"]?.map (·.sequence) =
        engine.sourceExposureBook.states["leader"]?.map (·.acceptedSequence) ∧
      ∃ selected, engine.selectSources (fun _ => 60000) 0 [("leader", true)] = .ok selected :=
  have hleader := snapshots_and_exposures_in_step ⟨∅⟩ ⟨60000, 1000⟩ [leaderIngest] _
    (run_mem_states _ _)
  ⟨hleader.1 "leader", hleader.2 _ _ _⟩

end CopyTrade.Analysis
