import CopyTrade.Analysis.Signer.BookedRecords
import CopyTrade.Foundation.StableSort
import CopyTrade.Model.Core.IdentityHash
import CopyTrade.Model.Signer.RegistryCalls
import Mathlib.Data.String.Basic

/-!
# Which conflicting records are refused

A fill and a funding record of one asset and one instant leave open which of them came first, and
`apply_authenticated_batches` refuses such batches.  It looks at neighbours in the sorted list only:
of the records of one instant it compares the last fill with the first funding record.
-/

namespace CopyTrade.Analysis

open Foundation Model

variable {D : Type}

section

instance : IsTrans (ExchangeEvent D) ExchangeEvent.keyLe where
  trans left middle right hleft hright := by
    unfold ExchangeEvent.keyLe at hleft hright ⊢
    rcases hleft with hleft | ⟨hleft, hkind⟩
    · rcases hright with hright | ⟨hright, -⟩ <;> exact .inl (by omega)
    rcases hright with hright | ⟨hright, hkind'⟩
    · exact .inl (by omega)
    refine .inr ⟨by omega, ?_⟩
    rcases hkind with hkind | ⟨hkind, hle⟩
    · rcases hkind' with hkind' | ⟨hkind', -⟩ <;> exact .inl (by omega)
    rcases hkind' with hkind' | ⟨hkind', hle'⟩
    · exact .inl (by omega)
    · exact .inr ⟨by omega, le_trans hle hle'⟩

instance : Std.Total (ExchangeEvent.keyLe (D := D)) where
  total left right := by
    unfold ExchangeEvent.keyLe
    rcases lt_trichotomy left.occurredAt right.occurredAt with hlt | heq | hgt
    · exact .inl (.inl hlt)
    · rcases lt_trichotomy left.kind right.kind with hkind | hkind | hkind
      · exact .inl (.inr ⟨heq, .inl hkind⟩)
      · rcases le_total left.identifier right.identifier with hle | hle
        · exact .inl (.inr ⟨heq, .inr ⟨hkind, hle⟩⟩)
        · exact .inr (.inr ⟨heq.symm, .inr ⟨hkind.symm, hle⟩⟩)
      · exact .inr (.inr ⟨heq.symm, .inl hkind⟩)
    · exact .inr (.inl hgt)

theorem occurredAt_le_of_keyLe {left right : ExchangeEvent D} (h : left.keyLe right) :
    left.occurredAt ≤ right.occurredAt := by
  unfold ExchangeEvent.keyLe at h
  omega

theorem keyLe_fill_iff {left right : UserFill D} (h : left.occurredAtMs = right.occurredAtMs) :
    left.tradeId ≤ right.tradeId ↔ (ExchangeEvent.fill left).keyLe (.fill right) := by
  simp [ExchangeEvent.keyLe, ExchangeEvent.occurredAt, ExchangeEvent.kind,
    ExchangeEvent.identifier, h]

theorem keyLe_funding_iff {left right : FundingRecord D}
    (h : left.occurredAtMs = right.occurredAtMs) :
    left.eventHash ≤ right.eventHash ↔ (ExchangeEvent.funding left).keyLe (.funding right) := by
  simp [ExchangeEvent.keyLe, ExchangeEvent.occurredAt, ExchangeEvent.kind,
    ExchangeEvent.identifier, h]

theorem keyLe_fill_funding {fill : UserFill D} {record : FundingRecord D}
    (h : fill.occurredAtMs = record.occurredAtMs) :
    (ExchangeEvent.fill fill).keyLe (.funding record) := by
  simp [ExchangeEvent.keyLe, ExchangeEvent.occurredAt, ExchangeEvent.kind, h]

end

section

variable (fills : EventBatch (UserFill D)) (funding : EventBatch (FundingRecord D)) (time : ℕ)

def fillsAt : List (UserFill D) := fills.records.filter fun fill => fill.occurredAtMs = time

def fundingAt : List (FundingRecord D) :=
  funding.records.filter fun record => record.occurredAtMs = time

/-- The last of the fills of an instant with the greatest trade id. -/
def lastFillAt : Option (UserFill D) := (fillsAt fills time).reverse.argmax (·.tradeId)

/-- The first of the funding records of an instant with the least hash. -/
def firstFundingAt : Option (FundingRecord D) := (fundingAt funding time).argmin (·.eventHash)

theorem sortedEvents_at :
    (sortedEvents fills funding).filter (fun event => event.occurredAt = time) =
      ((fillsAt fills time).insertionSort fun a b => a.tradeId ≤ b.tradeId).map .fill ++
        ((fundingAt funding time).insertionSort fun a b => a.eventHash ≤ b.eventHash).map
          .funding := by
  unfold sortedEvents
  rw [filter_insertionSort, List.filter_append, List.filter_map, List.filter_map]
  have hfills : fills.records.filter
      ((fun event : ExchangeEvent D => decide (event.occurredAt = time)) ∘ .fill) =
      fillsAt fills time := rfl
  have hfunding : funding.records.filter
      ((fun event : ExchangeEvent D => decide (event.occurredAt = time)) ∘ .funding) =
      fundingAt funding time := rfl
  rw [hfills, hfunding]
  have hfill : ∀ fill ∈ fillsAt fills time, fill.occurredAtMs = time := by
    intro fill hmem
    simpa [fillsAt] using (List.mem_filter.mp hmem).2
  have hrecord : ∀ record ∈ fundingAt funding time, record.occurredAtMs = time := by
    intro record hmem
    simpa [fundingAt] using (List.mem_filter.mp hmem).2
  have hfillSort : ((fillsAt fills time).insertionSort fun a b => a.tradeId ≤ b.tradeId).map
      ExchangeEvent.fill = ((fillsAt fills time).map .fill).insertionSort ExchangeEvent.keyLe := by
    apply List.map_insertionSort
    intro a ha b hb
    exact keyLe_fill_iff ((hfill a ha).trans (hfill b hb).symm)
  have hfundingSort :
      ((fundingAt funding time).insertionSort fun a b => a.eventHash ≤ b.eventHash).map
        ExchangeEvent.funding =
      ((fundingAt funding time).map .funding).insertionSort ExchangeEvent.keyLe := by
    apply List.map_insertionSort
    intro a ha b hb
    exact keyLe_funding_iff ((hrecord a ha).trans (hrecord b hb).symm)
  rw [hfillSort, hfundingSort]
  apply insertionSort_append
  intro a ha b hb
  obtain ⟨fill, hmem, rfl⟩ := List.mem_map.mp ha
  obtain ⟨record, hmem', rfl⟩ := List.mem_map.mp hb
  exact keyLe_fill_funding ((hfill fill hmem).trans (hrecord record hmem').symm)

theorem adjacent_kinds_iff {a b : ExchangeEvent D} :
    Adjacent (sortedEvents fills funding) a b ∧ a.occurredAt = time ∧ b.occurredAt = time ∧
        a.kind ≠ b.kind ↔
      ∃ fill record, lastFillAt fills time = some fill ∧
        firstFundingAt funding time = some record ∧ a = .fill fill ∧ b = .funding record := by
  have hsorted : (sortedEvents fills funding).Pairwise ExchangeEvent.keyLe :=
    List.pairwise_insertionSort _ _
  have htimes : (sortedEvents fills funding).Pairwise fun a b => a.occurredAt ≤ b.occurredAt :=
    hsorted.imp occurredAt_le_of_keyLe
  have hlevel := adjacent_filter_iff (a := a) (b := b) (t := time) htimes
  rw [sortedEvents_at] at hlevel
  have hends := adjacent_append_iff (q := fun event : ExchangeEvent D => event.kind = 0)
    (l := ((fillsAt fills time).insertionSort fun a b => a.tradeId ≤ b.tradeId).map .fill)
    (m := ((fundingAt funding time).insertionSort fun a b => a.eventHash ≤ b.eventHash).map
      .funding)
    (by simp [ExchangeEvent.kind]) (by simp [ExchangeEvent.kind]) (a := a) (b := b)
  rw [List.getLast?_map, List.head?_map, getLast?_insertionSort (fun _ _ => Iff.rfl),
    head?_insertionSort (fun _ _ => Iff.rfl),
    show (fillsAt fills time).reverse.argmax _ = lastFillAt fills time from rfl,
    show (fundingAt funding time).argmin _ = firstFundingAt funding time from rfl] at hends
  constructor
  · rintro ⟨hadjacent, ha, hb, hkinds⟩
    have hle : a.keyLe b := by
      obtain ⟨before, after, heq⟩ := hadjacent
      rw [heq] at hsorted
      simp only [List.pairwise_append, List.pairwise_cons] at hsorted
      exact hsorted.2.1.1 b (by simp)
    have hfirst : a.kind = 0 ∧ b.kind ≠ 0 := by
      have hrange : ∀ event : ExchangeEvent D, event.kind = 0 ∨ event.kind = 1 := by
        intro event
        cases event <;> simp [ExchangeEvent.kind]
      unfold ExchangeEvent.keyLe at hle
      have := hrange a
      have := hrange b
      omega
    obtain ⟨hlast, hhead⟩ := hends.mp ⟨hlevel.mp ⟨hadjacent, ha, hb⟩, hfirst⟩
    obtain ⟨fill, hfill, rfl⟩ := Option.map_eq_some_iff.mp hlast
    obtain ⟨record, hrecord, rfl⟩ := Option.map_eq_some_iff.mp hhead
    exact ⟨fill, record, hfill, hrecord, rfl, rfl⟩
  · rintro ⟨fill, record, hfill, hrecord, rfl, rfl⟩
    have hboth := hends.mpr ⟨by rw [hfill]; rfl, by rw [hrecord]; rfl⟩
    obtain ⟨hadjacent, ha, hb⟩ := hlevel.mpr hboth.1
    exact ⟨hadjacent, ha, hb, by simp [ExchangeEvent.kind]⟩

end

def Conflicting (fills : EventBatch (UserFill D)) (funding : EventBatch (FundingRecord D)) : Prop :=
  ∃ fill ∈ fills.records, ∃ record ∈ funding.records,
    fill.occurredAtMs = record.occurredAtMs ∧ fill.asset = record.asset

/-- At some instant the last fill and the first funding record have one asset. -/
def ConflictingNeighbours (fills : EventBatch (UserFill D))
    (funding : EventBatch (FundingRecord D)) : Prop :=
  ∃ time fill record, lastFillAt fills time = some fill ∧
    firstFundingAt funding time = some record ∧ fill.asset = record.asset

section

variable {fills : EventBatch (UserFill D)} {funding : EventBatch (FundingRecord D)}

theorem ConflictingNeighbours.conflicting (h : ConflictingNeighbours fills funding) :
    Conflicting fills funding := by
  obtain ⟨time, fill, record, hfill, hrecord, hasset⟩ := h
  have hfirst := List.mem_filter.mp (List.mem_reverse.mp (List.argmax_mem hfill))
  have hsecond := List.mem_filter.mp (List.argmin_mem hrecord)
  refine ⟨fill, hfirst.1, record, hsecond.1, ?_, hasset⟩
  have h1 : fill.occurredAtMs = time := by simpa using hfirst.2
  have h2 : record.occurredAtMs = time := by simpa using hsecond.2
  rw [h1, h2]

theorem any_ambiguous_iff :
    (((sortedEvents fills funding).zip (sortedEvents fills funding).tail).any
      fun pair => pair.1.ambiguous pair.2) = true ↔ ConflictingNeighbours fills funding := by
  simp only [List.any_eq_true, Prod.exists, mem_zip_tail_iff, ExchangeEvent.ambiguous,
    Bool.and_eq_true, beq_iff_eq, bne_iff_ne]
  constructor
  · rintro ⟨a, b, hadjacent, ⟨htime, hasset⟩, hkinds⟩
    obtain ⟨fill, record, hfill, hrecord, rfl, rfl⟩ :=
      (adjacent_kinds_iff fills funding a.occurredAt).mp ⟨hadjacent, rfl, htime.symm, hkinds⟩
    exact ⟨_, fill, record, hfill, hrecord, hasset⟩
  · rintro ⟨time, fill, record, hfill, hrecord, hasset⟩
    obtain ⟨hadjacent, ha, hb, hkinds⟩ := (adjacent_kinds_iff fills funding time).mpr
      ⟨fill, record, hfill, hrecord, rfl, rfl⟩
    exact ⟨_, _, hadjacent, ⟨ha.trans hb.symm, hasset⟩, hkinds⟩

variable [Decimal D] [Sha256] {registry : SubmissionRegistry D} {equity : D}
  {state : LiveTradingState D}

omit [Decimal D] [Sha256] in
theorem ledgerResult_ne_ambiguous {α : Type} (result : Except LedgerError α) :
    ledgerResult result ≠ .error .ambiguousExchangeEventOrdering := by
  cases result <;> simp [ledgerResult]

omit [Decimal D] [Sha256] in
theorem verifiedFill_ne_ambiguous (fill : UserFill D) (durable : ApprovedExecutionIntent D) :
    verifiedFill fill durable equity ≠ .error .ambiguousExchangeEventOrdering := by
  intro h
  unfold verifiedFill at h
  have horInvalid : ∀ {α : Type} (value : Option α),
      orInvalidIntent value ≠ .error .ambiguousExchangeEventOrdering := by
    intro α value
    cases value <;> simp [orInvalidIntent]
  by_cases hmismatch : (fill.asset != durable.asset ||
      fill.side != if durable.isBuy then "B" else "A") = true
  · rw [if_pos hmismatch] at h
    cases h
  rw [if_neg hmismatch] at h
  rcases bind_eq_error_iff.mp h with hfail | ⟨decision, -, hrest⟩
  · exact horInvalid _ hfail
  rcases bind_eq_error_iff.mp hrest with hfail | ⟨root, -, hrest'⟩
  · exact horInvalid _ hfail
  rcases bind_eq_error_iff.mp hrest' with hfail | ⟨parent, -, hlast⟩
  · cases hparent : durable.parentCloid with
    | none =>
      rw [hparent] at hfail
      cases hfail
    | some text =>
      rw [hparent] at hfail
      rcases bind_eq_error_iff.mp hfail with hdecode | ⟨cloid, -, hcloid⟩
      · exact horInvalid _ hdecode
      · cases hcloid
  · cases hlast

theorem applyExchangeEvent_ne_ambiguous (acc : LiveTradingState D × AppliedExchangeBatch D)
    (event : ExchangeEvent D) :
    applyExchangeEvent registry equity acc event ≠ .error .ambiguousExchangeEventOrdering := by
  intro h
  cases event with
  | fill fill =>
    unfold applyExchangeEvent at h
    dsimp only at h
    cases hintent : registry.intent (toHex fill.cloid) with
    | none =>
      rw [hintent] at h
      cases h
    | some durable =>
      rw [hintent] at h
      rcases bind_eq_error_iff.mp h with hfail | ⟨verified, -, hrest⟩
      · exact verifiedFill_ne_ambiguous _ _ hfail
      rcases bind_eq_error_iff.mp hrest with hfail | ⟨⟨result, next⟩, -, hlast⟩
      · exact ledgerResult_ne_ambiguous _ hfail
      · cases result <;> cases hlast
  | funding record =>
    unfold applyExchangeEvent at h
    rcases bind_eq_error_iff.mp h with hfail | ⟨⟨result, next⟩, -, hlast⟩
    · exact ledgerResult_ne_ambiguous _ hfail
    · cases result <;> cases hlast

theorem applyAuthenticatedBatches_ambiguous_iff :
    applyAuthenticatedBatches state registry fills funding equity =
        .error .ambiguousExchangeEventOrdering ↔ ConflictingNeighbours fills funding := by
  rw [← any_ambiguous_iff]
  unfold applyAuthenticatedBatches
  dsimp only
  split
  · rename_i hany
    exact iff_of_true rfl hany
  · rename_i hany
    refine iff_of_false ?_ hany
    intro h
    rcases bind_eq_error_iff.mp h with hfail | ⟨⟨applied, batch⟩, -, hrest⟩
    · have hnone : ∀ (events : List (ExchangeEvent D)) acc,
          events.foldlM (applyExchangeEvent registry equity) acc ≠
            .error .ambiguousExchangeEventOrdering := by
        intro events
        induction events with
        | nil => intro acc hnil; cases hnil
        | cons event events ih =>
          intro acc hcons
          rw [List.foldlM_cons] at hcons
          rcases bind_eq_error_iff.mp hcons with hfirst | ⟨next, -, hnext⟩
          · exact applyExchangeEvent_ne_ambiguous _ _ hfirst
          · exact ih next hnext
      exact hnone _ _ hfail
    rcases bind_eq_error_iff.mp hrest with hfail | ⟨filled, -, hrest'⟩
    · exact ledgerResult_ne_ambiguous _ hfail
    rcases bind_eq_error_iff.mp hrest' with hfail | ⟨funded, -, hlast⟩
    · exact ledgerResult_ne_ambiguous _ hfail
    rcases bind_eq_error_iff.mp hlast with hfail | ⟨reconciled, -, hpure⟩
    · exact ledgerResult_ne_ambiguous _ hfail
    · cases hpure

/-- Batches are refused as ambiguous exactly when a fill and a funding record conflict, if and only
if conflicting records come with an instant whose last fill and first funding record conflict. -/
theorem ambiguity_detected_iff (state : LiveTradingState D) (registry : SubmissionRegistry D)
    (fills : EventBatch (UserFill D)) (funding : EventBatch (FundingRecord D)) (equity : D) :
    (applyAuthenticatedBatches state registry fills funding equity =
        .error .ambiguousExchangeEventOrdering ↔ Conflicting fills funding) ↔
      (Conflicting fills funding → ConflictingNeighbours fills funding) := by
  rw [applyAuthenticatedBatches_ambiguous_iff]
  constructor
  · exact fun h => h.mpr
  · exact fun h => ⟨ConflictingNeighbours.conflicting, h⟩

end

def unitFill (cloid : UInt8) (trade asset side : String) (occurredAtMs : ℕ) : UserFill ℚ where
  cloid := Bytes.replicate 16 cloid
  exchangeOrderId := "7"
  tradeId := trade
  asset
  side
  price := 100
  quantity := 1
  closedPnl := 0
  fee := 0
  feeToken := "USDC"
  crossed := true
  occurredAtMs
  sourceHash := Bytes.replicate 32 0

def unitFunding (eventHash asset : String) (occurredAtMs : ℕ) : FundingRecord ℚ where
  eventHash
  asset
  signedUsdcDelta := -1
  occurredAtMs
  sourceHash := Bytes.replicate 32 0

def twoOrders : SubmissionRegistry ℚ :=
  ((SubmissionRegistry.empty 4).step (.register (sampleIntent (sampleCloid 1) "BTC" false))).step
    (.register (sampleIntent (sampleCloid 2) "ETH" false))

/-- A fill of BTC, one of ETH and funding for BTC at one instant: the fill of ETH stands between the
two that conflict, and the batches are applied. -/
theorem conflicting_records_applied :
    ¬ ∀ [Sha256] (state : LiveTradingState ℚ) (registry : SubmissionRegistry ℚ)
      (fills : EventBatch (UserFill ℚ)) (funding : EventBatch (FundingRecord ℚ)) (equity : ℚ),
      applyAuthenticatedBatches state registry fills funding equity =
        .error .ambiguousExchangeEventOrdering ↔ Conflicting fills funding := by
  intro h
  let sha : Sha256 := ⟨foldDigest⟩
  let fills : EventBatch (UserFill ℚ) :=
    ⟨[unitFill 1 "1" "BTC" "B" 5, unitFill 2 "2" "ETH" "B" 5], ⟨6, none⟩⟩
  let funding : EventBatch (FundingRecord ℚ) := ⟨[unitFunding "hourly" "BTC" 5], ⟨6, none⟩⟩
  have hconflict : Conflicting fills funding :=
    ⟨unitFill 1 "1" "BTC" "B" 5, by simp [fills], unitFunding "hourly" "BTC" 5, by simp [funding],
      rfl, rfl⟩
  have happlied : (applyAuthenticatedBatches (.starting 1000 0) twoOrders fills funding
      1000).toOption.isSome = true := by
    decide +kernel
  rw [(h (.starting 1000 0) twoOrders fills funding 1000).mpr hconflict] at happlied
  cases happlied

end CopyTrade.Analysis
