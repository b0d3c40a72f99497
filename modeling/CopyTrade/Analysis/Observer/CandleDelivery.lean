import CopyTrade.Foundation.Maps
import CopyTrade.Foundation.Results
import CopyTrade.Foundation.Runs
import CopyTrade.Foundation.Windows
import CopyTrade.Model.Core.Candles
import Mathlib.Data.Finset.Lattice.Fold

/-!
# Batches of candles in any order

A fetch returns the candles of an exchange history that are final and in its window, and the engine
keeps the newest 500 it has accepted.  A batch passes exactly when each of its candles is newer than
all delivered before it, or was delivered before and is still among the newest 500.
-/

namespace CopyTrade.Analysis

open Foundation Model

variable {D : Type} [Decimal D]

/-- The finalised candles of an asset and an interval on the exchange. -/
structure CandleHistory (D : Type) [Decimal D] where
  asset : String
  interval : CandleInterval
  candle : ℕ → ClosedCandle D
  asset_eq : ∀ i, (candle i).asset = asset
  interval_eq : ∀ i, (candle i).interval = interval
  isValid : ∀ i, (candle i).isValid = true
  openTimes : StrictMono fun i => (candle i).openTimeMs
  closeTimes : StrictMono fun i => (candle i).closeTimeMs

namespace CandleHistory

def batch (history : CandleHistory D) (fetchedAt : ℕ) : List ℕ :=
  (List.range (fetchedAt + 1)).filter fun i => (history.candle i).isFetched fetchedAt

theorem mem_batch_iff {history : CandleHistory D} {fetchedAt i : ℕ} :
    i ∈ history.batch fetchedAt ↔ (history.candle i).isFetched fetchedAt = true := by
  unfold batch
  rw [List.mem_filter, List.mem_range, and_iff_right_iff_imp]
  intro hfetched
  unfold ClosedCandle.isFetched at hfetched
  rw [Bool.and_eq_true, decide_eq_true_eq, decide_eq_true_eq] at hfetched
  have hindex : i ≤ (history.candle i).closeTimeMs := history.closeTimes.id_le i
  omega

theorem batch_sorted (history : CandleHistory D) (fetchedAt : ℕ) :
    (history.batch fetchedAt).Pairwise (· < ·) :=
  List.pairwise_lt_range.filter _

def delivered (history : CandleHistory D) (fetches : List ℕ) : Finset ℕ :=
  fetches.foldr (fun fetchedAt rest => (history.batch fetchedAt).toFinset ∪ rest) ∅

theorem mem_delivered_snoc {history : CandleHistory D} {fetches : List ℕ} {fetchedAt i : ℕ} :
    i ∈ history.delivered (fetches ++ [fetchedAt]) ↔
      i ∈ history.delivered fetches ∨ i ∈ history.batch fetchedAt := by
  induction fetches with
  | nil => simp [delivered]
  | cons first fetches ih =>
    unfold delivered at ih ⊢
    rw [List.cons_append, List.foldr_cons, List.foldr_cons, Finset.mem_union, ih,
      Finset.mem_union, or_assoc]

def deliver (history : CandleHistory D) (engine : TechnicalEngine D) (fetchedAt : ℕ) :
    Except (TechnicalError D) (TechnicalEngine D) :=
  engine.ingestClosedCandles ((history.batch fetchedAt).map history.candle)

/-- Every candle of a batch is newer than all that was delivered before it, or was delivered
before and is one of the newest 500 of these. -/
def Passes (history : CandleHistory D) (earlier : List ℕ) (fetchedAt : ℕ) : Prop :=
  ∀ i ∈ history.batch fetchedAt, (∀ j ∈ history.delivered earlier, j < i) ∨
    (i ∈ history.delivered earlier ∧ ((history.delivered earlier).filter (i < ·)).card < 500)

end CandleHistory

/-- The engine keeps the newest 500 of the candles it has accepted. -/
structure KeepsNewest (history : CandleHistory D) (engine : TechnicalEngine D)
    (accepted : List ℕ) : Prop where
  sorted : accepted.Pairwise (· < ·)
  candles : (engine.assetCandles history.asset).intervals history.interval =
    (accepted.rtake 500).map history.candle
  identities : ∀ i, (history.candle i).identity ∈
    (engine.assetCandles history.asset).accepted ↔ i ∈ accepted.rtake 500

omit [Decimal D] in
theorem expireCandles_candles (candles : List (ClosedCandle D)) (identities : List CandleIdentity) :
    (expireCandles candles identities).1 = candles.rtake 500 := by
  induction candles generalizing identities with
  | nil => simp [expireCandles]
  | cons candle rest ih =>
    unfold expireCandles
    split
    · rename_i hlong
      rw [ih]
      unfold List.rtake
      rw [List.length_cons] at hlong ⊢
      rw [show rest.length + 1 - 500 = rest.length - 500 + 1 by omega, List.drop_succ_cons]
    · rename_i hshort
      exact (rtake_of_length_le (not_lt.mp hshort)).symm

omit [Decimal D] in
theorem mem_expireCandles_identities {candles : List (ClosedCandle D)}
    {identities : List CandleIdentity} {identity : CandleIdentity} :
    identity ∈ (expireCandles candles identities).2 ↔
      identity ∈ identities ∧
        ∀ candle ∈ candles.take (candles.length - 500), identity ≠ candle.identity := by
  induction candles generalizing identities with
  | nil => simp [expireCandles]
  | cons candle rest ih =>
    unfold expireCandles
    split
    · rename_i hlong
      rw [ih, List.mem_filter]
      rw [List.length_cons] at hlong ⊢
      rw [show rest.length + 1 - 500 = rest.length - 500 + 1 by omega, List.take_succ_cons,
        List.forall_mem_cons, bne_iff_ne, and_assoc]
    · rename_i hshort
      rw [Nat.sub_eq_zero_of_le (not_lt.mp hshort)]
      simp

section

variable {history : CandleHistory D} {engine : TechnicalEngine D} {accepted : List ℕ} {i : ℕ}

theorem identity_inj {j : ℕ} :
    (history.candle i).identity = (history.candle j).identity ↔ i = j := by
  constructor
  · intro h
    exact history.openTimes.injective (congrArg CandleIdentity.openTimeMs h)
  · rintro rfl
    rfl

theorem same_refl (candle : ClosedCandle D) : candle.same candle = true := by
  simp [ClosedCandle.same]

theorem accept_kept (h : KeepsNewest history engine accepted) (hi : i ∈ accepted.rtake 500) :
    engine.acceptClosedCandle (history.candle i) = .ok (engine, .duplicate) := by
  unfold TechnicalEngine.acceptClosedCandle
  rw [history.isValid, history.asset_eq]
  rw [if_neg (by simp), if_pos (List.contains_iff_mem.mpr ((h.identities i).mpr hi)),
    history.interval_eq, h.candles]
  unfold acceptKnownCandle
  cases hfound : ((accepted.rtake 500).map history.candle).find? fun kept =>
      kept.openTimeMs == (history.candle i).openTimeMs
        && kept.closeTimeMs == (history.candle i).closeTimeMs with
  | none =>
    rw [List.find?_eq_none] at hfound
    exact absurd (by simp) (hfound _ (List.mem_map_of_mem hi))
  | some found =>
    obtain ⟨j, -, rfl⟩ := List.mem_map.mp (List.mem_of_find?_eq_some hfound)
    have htimes := List.find?_some hfound
    rw [Bool.and_eq_true, beq_iff_eq] at htimes
    rw [history.openTimes.injective htimes.1]
    dsimp only
    rw [if_pos (same_refl _)]

theorem not_kept_contains (h : KeepsNewest history engine accepted)
    (hi : i ∉ accepted.rtake 500) : ¬ (engine.assetCandles history.asset).accepted.contains
      (history.candle i).identity = true :=
  fun hcontains => hi ((h.identities i).mp (List.contains_iff_mem.mp hcontains))

theorem accept_not_kept (h : KeepsNewest history engine accepted) (hi : i ∉ accepted.rtake 500) :
    engine.acceptClosedCandle (history.candle i) =
      if ∀ j ∈ accepted, j < i then
        .ok ({ engine with assets := engine.assets.insert history.asset {
          intervals := Function.update (engine.assetCandles history.asset).intervals
            history.interval
            (expireCandles ((accepted.rtake 500).map history.candle ++ [history.candle i])
              (engine.assetCandles history.asset).accepted).1
          accepted := (history.candle i).identity ::
            (expireCandles ((accepted.rtake 500).map history.candle ++ [history.candle i])
              (engine.assetCandles history.asset).accepted).2 } }, .accepted)
      else .error .nonMonotonicCandle := by
  unfold TechnicalEngine.acceptClosedCandle
  rw [history.isValid, history.asset_eq]
  rw [if_neg (by simp), if_neg (not_kept_contains h hi)]
  unfold acceptNewCandle
  rw [history.interval_eq, history.asset_eq, h.candles]
  have hlast : ((accepted.rtake 500).map history.candle).getLast?.any (fun last =>
      (history.candle i).openTimeMs ≤ last.openTimeMs) = true ↔ ¬ ∀ j ∈ accepted, j < i := by
    rw [List.getLast?_map, getLast?_rtake (by omega)]
    rcases List.eq_nil_or_concat accepted with rfl | ⟨front, last, rfl⟩
    · simp
    · have hsorted := h.sorted
      rw [List.concat_eq_append] at hsorted ⊢
      rw [List.getLast?_concat, Option.map_some, Option.any_some, decide_eq_true_eq,
        history.openTimes.le_iff_le]
      constructor
      · intro hle hless
        exact absurd (hless last (by simp)) (not_lt.mpr hle)
      · intro hsome
        by_contra hless
        refine hsome ?_
        intro j hj
        rcases List.mem_append.mp hj with hfront | hend
        · exact ((List.pairwise_append.mp hsorted).2.2 j hfront last (by simp)).trans
            (not_le.mp hless)
        · rw [List.mem_singleton.mp hend]
          exact not_le.mp hless
  by_cases hless : ∀ j ∈ accepted, j < i
  · rw [if_neg (fun hany => hlast.mp hany hless), if_pos hless]
  · rw [if_pos (hlast.mpr hless), if_neg hless]

omit [Decimal D] in
theorem assetCandles_insert (engine : TechnicalEngine D) (asset : String)
    (candles : AssetCandles D) :
    ({ engine with assets := engine.assets.insert asset candles } :
      TechnicalEngine D).assetCandles asset = candles := by
  unfold TechnicalEngine.assetCandles
  rw [getElem?_insert_eq, if_pos rfl, Option.getD_some]

theorem accept_newer (h : KeepsNewest history engine accepted) (hi : ∀ j ∈ accepted, j < i) :
    ∃ next, engine.acceptClosedCandle (history.candle i) = .ok (next, .accepted) ∧
      KeepsNewest history next (accepted ++ [i]) := by
  have hnew : i ∉ accepted.rtake 500 := fun hmem => absurd (hi i (mem_of_mem_rtake hmem)) (lt_irrefl i)
  have hwindow : (accepted.rtake 500 ++ [i]).rtake 500 = (accepted ++ [i]).rtake 500 := by
    rw [rtake_snoc, rtake_snoc, rtake_rtake (by omega)]
  have hsorted : (accepted ++ [i]).Pairwise (· < ·) := by
    rw [List.pairwise_append]
    refine ⟨h.sorted, List.pairwise_singleton _ _, ?_⟩
    intro j hj k hk
    rw [List.mem_singleton.mp hk]
    exact hi j hj
  have hnodup : (accepted.rtake 500 ++ [i]).Nodup := by
    rw [← List.concat_eq_append, List.nodup_concat]
    exact ⟨hnew, (h.sorted.sublist (List.drop_sublist _ _)).nodup⟩
  refine ⟨_, (accept_not_kept h hnew).trans (if_pos hi), hsorted, ?_, ?_⟩
  · rw [assetCandles_insert]
    dsimp only
    rw [Function.update_self, expireCandles_candles, ← List.map_singleton, ← List.map_append,
      ← map_rtake, hwindow]
  · intro k
    have htaken : (∀ candle ∈ ((accepted.rtake 500 ++ [i]).map history.candle).take
          (((accepted.rtake 500 ++ [i]).map history.candle).length - 500),
          (history.candle k).identity ≠ candle.identity) ↔
        k ∉ (accepted.rtake 500 ++ [i]).take ((accepted.rtake 500 ++ [i]).length - 500) := by
      rw [List.length_map, ← List.map_take, List.forall_mem_map]
      simp only [ne_eq, identity_inj]
      exact ⟨fun hall hk => hall k hk rfl, fun hk j hj heq => hk (heq ▸ hj)⟩
    have hlast : i ∉ (accepted.rtake 500 ++ [i]).take
        ((accepted.rtake 500 ++ [i]).length - 500) := by
      have hkept : i ∈ (accepted.rtake 500 ++ [i]).rtake 500 := by
        rw [rtake_snoc]
        exact List.mem_append_right _ (List.mem_singleton_self i)
      exact ((mem_rtake_iff_of_nodup hnodup).mp hkept).2
    rw [assetCandles_insert, List.mem_cons, identity_inj, mem_expireCandles_identities,
      h.identities, ← hwindow, mem_rtake_iff_of_nodup hnodup, ← List.map_singleton,
      ← List.map_append, htaken, List.mem_append, List.mem_singleton]
    constructor
    · rintro (rfl | ⟨hkept, htake⟩)
      · exact ⟨.inr rfl, hlast⟩
      · exact ⟨.inl hkept, htake⟩
    · rintro ⟨hkept | rfl, htake⟩
      · exact .inr ⟨hkept, htake⟩
      · exact .inl rfl

theorem ingest_cons (engine : TechnicalEngine D) (candle : ClosedCandle D)
    (candles : List (ClosedCandle D)) :
    engine.ingestClosedCandles (candle :: candles) =
      ((engine.acceptClosedCandle candle).map Prod.fst).bind fun next =>
        next.ingestClosedCandles candles := by
  unfold TechnicalEngine.ingestClosedCandles
  rw [List.foldlM_cons]
  rfl

theorem ingest_newer {batch : List ℕ} (hbatch : batch.Pairwise (· < ·))
    (h : KeepsNewest history engine accepted) (hnew : ∀ i ∈ batch, ∀ j ∈ accepted, j < i) :
    ∃ next, engine.ingestClosedCandles (batch.map history.candle) = .ok next ∧
      KeepsNewest history next (accepted ++ batch) := by
  induction batch generalizing engine accepted with
  | nil => exact ⟨engine, rfl, by rwa [List.append_nil]⟩
  | cons i batch ih =>
    rw [List.pairwise_cons] at hbatch
    rw [List.forall_mem_cons] at hnew
    obtain ⟨next, hnext, hkeeps⟩ := accept_newer h hnew.1
    have hrest : ∀ k ∈ batch, ∀ j ∈ accepted ++ [i], j < k := by
      intro k hk j hj
      rcases List.mem_append.mp hj with hold | hlast
      · exact hnew.2 k hk j hold
      · rw [List.mem_singleton.mp hlast]
        exact hbatch.1 k hk
    obtain ⟨last, hlast, hfinal⟩ := ih hbatch.2 hkeeps hrest
    refine ⟨last, ?_, ?_⟩
    · rw [List.map_cons, ingest_cons, hnext]
      exact hlast
    · rwa [List.append_assoc, List.singleton_append] at hfinal

/-- Candles in order pass exactly when each of them is kept or newer than all that were accepted;
then the newer ones are accepted too. -/
theorem ingest_iff {batch : List ℕ} (hbatch : batch.Pairwise (· < ·))
    (h : KeepsNewest history engine accepted) :
    ((engine.ingestClosedCandles (batch.map history.candle)).isOk = true ↔
      ∀ i ∈ batch, (∀ j ∈ accepted, j < i) ∨ i ∈ accepted.rtake 500) ∧
    ∀ next, engine.ingestClosedCandles (batch.map history.candle) = .ok next →
      KeepsNewest history next (accepted ++ batch.filter fun i => ∀ j ∈ accepted, j < i) := by
  induction batch with
  | nil =>
    refine ⟨iff_of_true rfl (List.forall_mem_nil _), ?_⟩
    intro next hnext
    cases hnext
    simpa using h
  | cons i batch ih =>
    by_cases hkept : i ∈ accepted.rtake 500
    · -- A duplicate leaves the engine as it is.
      rw [List.pairwise_cons] at hbatch
      have hold : ¬ ∀ j ∈ accepted, j < i := fun hall =>
        absurd (hall i (mem_of_mem_rtake hkept)) (lt_irrefl i)
      rw [List.map_cons, ingest_cons, accept_kept h hkept, List.forall_mem_cons,
        List.filter_cons_of_neg (by simpa using hold)]
      exact ⟨(ih hbatch.2).1.trans (iff_and_self.mpr fun _ => .inr hkept), (ih hbatch.2).2⟩
    · by_cases hnew : ∀ j ∈ accepted, j < i
      · -- What follows is newer still.
        have hall : ∀ k ∈ i :: batch, ∀ j ∈ accepted, j < k := by
          rw [List.pairwise_cons] at hbatch
          rw [List.forall_mem_cons]
          exact ⟨hnew, fun k hk j hj => (hnew j hj).trans (hbatch.1 k hk)⟩
        obtain ⟨next, hnext, hkeeps⟩ := ingest_newer hbatch h hall
        rw [hnext, List.filter_eq_self.mpr fun k hk => decide_eq_true (hall k hk)]
        refine ⟨iff_of_true rfl fun k hk => .inl (hall k hk), ?_⟩
        intro other hother
        cases hother
        exact hkeeps
      · rw [List.map_cons, ingest_cons, accept_not_kept h hkept, if_neg hnew]
        refine ⟨iff_of_false Bool.false_ne_true ?_, fun next hnext => nomatch hnext⟩
        rw [List.forall_mem_cons]
        rintro ⟨hnewer | hwindow, -⟩
        · exact hnew hnewer
        · exact hkept hwindow

/-- The engine has accepted what was delivered. -/
structure Tracks (history : CandleHistory D) (earlier : List ℕ) (engine : TechnicalEngine D)
    (accepted : List ℕ) : Prop extends KeepsNewest history engine accepted where
  mem_iff : ∀ i, i ∈ accepted ↔ i ∈ history.delivered earlier

theorem Tracks.mem_rtake_iff_delivered {earlier : List ℕ}
    (h : Tracks history earlier engine accepted) :
    i ∈ accepted.rtake 500 ↔ i ∈ history.delivered earlier ∧
      ((history.delivered earlier).filter (i < ·)).card < 500 := by
  have hset : accepted.toFinset = history.delivered earlier := by
    ext j
    rw [List.mem_toFinset, h.mem_iff]
  have hnewer : ((history.delivered earlier).filter (i < ·)).card =
      (accepted.filter (i < ·)).length := by
    rw [← List.toFinset_card_of_nodup (h.sorted.nodup.filter _), List.toFinset_filter, hset]
    simp only [decide_eq_true_eq]
  rw [mem_rtake_iff h.sorted, h.mem_iff, hnewer]

theorem deliver_iff {earlier : List ℕ} {fetchedAt : ℕ}
    (h : Tracks history earlier engine accepted) :
    ((history.deliver engine fetchedAt).isOk = true ↔ history.Passes earlier fetchedAt) ∧
    ∀ next, history.deliver engine fetchedAt = .ok next →
      ∃ accepted', Tracks history (earlier ++ [fetchedAt]) next accepted' := by
  obtain ⟨hiff, hkeeps⟩ := ingest_iff (history.batch_sorted fetchedAt) h.toKeepsNewest
  have hpasses : (∀ i ∈ history.batch fetchedAt,
      (∀ j ∈ accepted, j < i) ∨ i ∈ accepted.rtake 500) ↔ history.Passes earlier fetchedAt := by
    unfold CandleHistory.Passes
    simp only [h.mem_rtake_iff_delivered, h.mem_iff]
  refine ⟨hiff.trans hpasses, ?_⟩
  intro next hnext
  refine ⟨_, hkeeps next hnext, ?_⟩
  intro i
  have hfits := hiff.mp (by
    unfold CandleHistory.deliver at hnext
    rw [hnext]
    rfl)
  rw [List.mem_append, List.mem_filter, CandleHistory.mem_delivered_snoc, h.mem_iff,
    decide_eq_true_eq]
  constructor
  · rintro (hold | ⟨hbatch, -⟩)
    · exact .inl hold
    · exact .inr hbatch
  · rintro (hold | hbatch)
    · exact .inl hold
    · rcases hfits i hbatch with hnew | hkept
      · exact .inr ⟨hbatch, hnew⟩
      · exact .inl ((h.mem_iff i).mp (mem_of_mem_rtake hkept))

theorem deliveries_iff {earlier : List ℕ} (h : Tracks history earlier engine accepted)
    (fetches : List ℕ) :
    (fetches.foldlM history.deliver engine).isOk = true ↔
      AllSteps (fun earlier fetchedAt => earlier ++ [fetchedAt]) history.Passes earlier
        fetches := by
  induction fetches generalizing engine earlier accepted with
  | nil => exact iff_of_true rfl trivial
  | cons fetchedAt fetches ih =>
    obtain ⟨hiff, htracks⟩ : ((history.deliver engine fetchedAt).isOk = true ↔
        history.Passes earlier fetchedAt) ∧ _ := deliver_iff h
    rw [List.foldlM_cons, AllSteps, ← hiff]
    cases hdeliver : history.deliver engine fetchedAt with
    | error error => exact iff_of_false Bool.false_ne_true fun hall => Bool.false_ne_true hall.1
    | ok next =>
      obtain ⟨accepted', hnext⟩ := htracks next hdeliver
      rw [ok_bind, ih hnext]
      exact (and_iff_right rfl).symm

end

theorem tracks_empty (history : CandleHistory D) : Tracks history [] ⟨∅⟩ [] := by
  refine ⟨⟨List.Pairwise.nil, ?_, ?_⟩, ?_⟩
  · simp [TechnicalEngine.assetCandles, AssetCandles.empty]
  · simp [TechnicalEngine.assetCandles, AssetCandles.empty]
  · simp [CandleHistory.delivered]

/-- **Delivery of candles.**  Batches of one history are ingested without an error exactly when each
of them passes: its candles are newer than everything delivered before it, or among the newest 500
of it. -/
theorem candles_ingested_iff (history : CandleHistory D) (fetches : List ℕ) :
    (fetches.foldlM history.deliver ⟨∅⟩).isOk = true ↔
      AllSteps (fun earlier fetchedAt => earlier ++ [fetchedAt]) history.Passes [] fetches :=
  deliveries_iff (tracks_empty history) fetches

def quarterCandle (i : ℕ) : ClosedCandle ℚ :=
  ⟨"BTC", .fifteenMinutes, i * 900000, i * 900000 + 899999, 100, 101, 99, 100, 1, 1⟩

theorem quarterCandle_asset (i : ℕ) : (quarterCandle i).asset = "BTC" := rfl

theorem quarterCandle_interval (i : ℕ) : (quarterCandle i).interval = .fifteenMinutes := rfl

theorem quarterCandle_isValid (i : ℕ) : (quarterCandle i).isValid = true := by
  unfold quarterCandle ClosedCandle.isValid
  simp [Decimal.le, Decimal.lt, Decimal.max, Decimal.min]
  norm_num

theorem quarterCandle_openTimes (i j : ℕ) (h : i < j) :
    (quarterCandle i).openTimeMs < (quarterCandle j).openTimeMs := by
  unfold quarterCandle
  dsimp only
  omega

theorem quarterCandle_closeTimes (i j : ℕ) (h : i < j) :
    (quarterCandle i).closeTimeMs < (quarterCandle j).closeTimeMs := by
  unfold quarterCandle
  dsimp only
  omega

def sampleHistory : CandleHistory ℚ where
  asset := "BTC"
  interval := .fifteenMinutes
  candle := quarterCandle
  asset_eq := quarterCandle_asset
  interval_eq := quarterCandle_interval
  isValid := quarterCandle_isValid
  openTimes := quarterCandle_openTimes
  closeTimes := quarterCandle_closeTimes

/-- A later fetch is delivered first, and the oldest candle of the earlier one is refused. -/
theorem late_batch_refused :
    ¬ ∀ (history : CandleHistory ℚ) (fetches : List ℕ),
      (fetches.foldlM history.deliver ⟨∅⟩).isOk = true := by
  intro h
  have hpasses := (deliveries_iff (tracks_empty sampleHistory) [27905000, 27005000]).mp
    (h sampleHistory [27905000, 27005000])
  have hlate : sampleHistory.Passes [27905000] 27005000 := hpasses.2.1
  have hdelivered (i : ℕ) : i ∈ sampleHistory.delivered [27905000] ↔
      (sampleHistory.candle i).isFetched 27905000 = true := by
    rw [← CandleHistory.mem_batch_iff, ← List.nil_append [27905000],
      CandleHistory.mem_delivered_snoc]
    simp [CandleHistory.delivered]
  have hoffered : 7 ∈ sampleHistory.batch 27005000 :=
    CandleHistory.mem_batch_iff.mpr (by decide +kernel)
  rcases hlate 7 hoffered with hnewer | ⟨hkept, -⟩
  · exact absurd (hnewer 8 ((hdelivered 8).mpr (by decide +kernel))) (by omega)
  · exact absurd ((hdelivered 7).mp hkept) (by decide +kernel)

end CopyTrade.Analysis
