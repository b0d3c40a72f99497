import CopyTrade.Analysis.Ledger.PositionAgreement
import CopyTrade.Foundation.AverageCost
import CopyTrade.Foundation.MapTotals

/-!
# What a fill does to a book

In exact arithmetic a fill on a book whose positions agree with its open episodes opens an episode,
lets it grow, reduces it, closes it, or turns it over.  `FillEffect` lists these with the episodes
they leave.
-/

namespace CopyTrade.Analysis

open Foundation Model Model.ExactDecimal

def charged (episode : OpenEpisode ℚ) (execution : ShadowExecution ℚ) (fraction : ℚ) :
    OpenEpisode ℚ :=
  { episode with
    fees := episode.fees + execution.fees * fraction
    funding := episode.funding + execution.funding * fraction
    slippage := episode.slippage + execution.slippage * fraction }

def lotOf (episode : OpenEpisode ℚ) : Lot ℚ where
  quantity := episode.signedQuantity
  average := episode.averageEntryPrice
  realized := episode.realizedPnl

def withLot (episode : OpenEpisode ℚ) (lot : Lot ℚ) : OpenEpisode ℚ :=
  { episode with
    signedQuantity := lot.quantity
    averageEntryPrice := lot.average
    realizedPnl := lot.realized }

def freshEpisode [Sha256] (execution : ShadowExecution ℚ) (price quantity fraction : ℚ)
    (sequence : ℕ) : OpenEpisode ℚ :=
  charged {
    episodeId := EpisodeBook.deriveEpisodeId execution.asset execution.decisionId
      execution.plannedCloid sequence
    asset := execution.asset
    openedAt := execution.decisionTimestampMono
    openingDecisionId := execution.decisionId
    signedQuantity := quantity
    averageEntryPrice := price
    entryNotional := |quantity| * price
    exitNotional := 0
    realizedPnl := 0
    fees := 0
    funding := 0
    slippage := 0 } execution fraction

def grownEpisode (episode : OpenEpisode ℚ) (execution : ShadowExecution ℚ) (price delta : ℚ) :
    OpenEpisode ℚ :=
  charged { withLot episode ((lotOf episode).grow delta price) with
    entryNotional := episode.entryNotional + |delta| * price } execution 1

def reducedEpisode (episode : OpenEpisode ℚ) (execution : ShadowExecution ℚ)
    (price quantity fraction : ℚ) : OpenEpisode ℚ :=
  charged { withLot episode ((lotOf episode).reduce quantity price) with
    exitNotional := episode.exitNotional + price * quantity } execution fraction

def settledEpisode (episode : OpenEpisode ℚ) (closedAt : ℕ) : PortfolioEpisode ℚ where
  episodeId := episode.episodeId
  asset := episode.asset
  openedAt := episode.openedAt
  closedAt
  openingDecisionId := episode.openingDecisionId
  entryNotional := episode.entryNotional
  exitNotional := episode.exitNotional
  realizedPnl := episode.realizedPnl
  fees := episode.fees
  funding := episode.funding
  slippage := episode.slippage
  attributionResidual := 0
  netPnl := episode.realizedPnl - episode.fees - episode.funding - episode.slippage

theorem addCosts_exact (episode : OpenEpisode ℚ) (execution : ShadowExecution ℚ) (fraction : ℚ) :
    EpisodeBook.addCosts episode execution fraction = .ok (charged episode execution fraction) :=
  rfl

variable {execution : ShadowExecution ℚ} {episode : OpenEpisode ℚ}

theorem openNew_exact [Sha256] {book next : EpisodeBook ℚ} {price quantity fraction : ℚ}
    (h : book.openNew execution price quantity fraction = .ok next) :
    next = { book with
      nextEpisodeSequence := book.nextEpisodeSequence + 1
      opened := book.opened.insert execution.asset
        (freshEpisode execution price quantity fraction book.nextEpisodeSequence) } := by
  unfold EpisodeBook.openNew at h
  obtain ⟨sequence, hsequence, h⟩ := of_bind h
  have hsequence := EpisodeBook.orOverflow_eq_ok_iff.mp hsequence
  obtain ⟨notional, hnotional, h⟩ := of_bind h
  have hnotional := EpisodeBook.orOverflow_eq_ok_iff.mp hnotional
  rw [checkedMul_eq, abs_eq, Option.some.injEq] at hnotional
  rw [addCosts_exact] at h
  obtain ⟨opened, hopened, h⟩ := of_bind h
  cases hopened
  rw [pure_eq_ok_iff] at h
  subst hnotional h
  unfold freshEpisode
  rw [zero_eq]
  have hnext : sequence = book.nextEpisodeSequence + 1 := by
    unfold checkedAddU64 at hsequence
    split at hsequence
    · exact (Option.some.inj hsequence).symm
    · cases hsequence
  rw [hnext]

theorem grow_exact {price delta : ℚ} (hdelta : delta ≠ 0) :
    EpisodeBook.grow episode execution price delta =
      .ok (grownEpisode episode execution price delta) := by
  have hpositive : |episode.signedQuantity| + |delta| ≠ 0 :=
    (add_pos_of_nonneg_of_pos (abs_nonneg _) (abs_pos.mpr hdelta)).ne'
  unfold EpisodeBook.grow
  simp only [abs_eq, checkedAdd_eq, checkedMul_eq, orOverflow, ok_bind, Option.bind_some,
    checkedDiv_eq hpositive, addCosts_exact, one_eq]
  rfl

theorem reduce_exact (episode : OpenEpisode ℚ) (execution : ShadowExecution ℚ)
    (price quantity fraction : ℚ) :
    EpisodeBook.reduce episode execution price quantity fraction =
      .ok (reducedEpisode episode execution price quantity fraction) := by
  unfold EpisodeBook.reduce reducedEpisode withLot lotOf Lot.reduce Lot.unitResult Lot.closing
  cases hsign : Decimal.isSignPositive episode.signedQuantity with
  | true =>
    have hnonneg := (isSignPositive_iff_nonneg _).mp hsign
    simp only [if_true, checkedAdd_eq, checkedSub_eq, checkedMul_eq, orOverflow, ok_bind,
      addCosts_exact, neg_eq, if_pos hnonneg]
    rfl
  | false =>
    have hneg : ¬ 0 ≤ episode.signedQuantity := by
      rw [← isSignPositive_iff_nonneg, hsign]
      exact Bool.false_ne_true
    simp only [Bool.false_eq_true, if_false, checkedAdd_eq, checkedSub_eq, checkedMul_eq,
      orOverflow, ok_bind, addCosts_exact, if_neg hneg]
    rfl

theorem closedEpisode_exact (episode : OpenEpisode ℚ) (closedAt : ℕ) :
    EpisodeBook.closedEpisode episode closedAt = .ok (settledEpisode episode closedAt) := by
  unfold EpisodeBook.closedEpisode EpisodeBook.netOf settledEpisode
  rw [zero_eq]
  rfl

/-- The effect of a fill on the open episode of its asset: the episode before, the one kept open,
the one closed and the next sequence number. -/
inductive FillEffect [Sha256] (execution : ShadowExecution ℚ) (price : ℚ)
    (closedAt sequence : ℕ) :
    Option (OpenEpisode ℚ) → Option (OpenEpisode ℚ) → Option (PortfolioEpisode ℚ) → ℕ → Prop
  | opens :
      FillEffect execution price closedAt sequence none
        (some (freshEpisode execution price (EpisodeBook.signedDelta execution) 1 sequence)) none
        (sequence + 1)
  | grows (episode : OpenEpisode ℚ)
      (hsame : 0 ≤ episode.signedQuantity ↔ 0 ≤ EpisodeBook.signedDelta execution) :
      FillEffect execution price closedAt sequence (some episode)
        (some (grownEpisode episode execution price (EpisodeBook.signedDelta execution))) none
        sequence
  | reduces (episode : OpenEpisode ℚ)
      (hopposite : ¬ (0 ≤ episode.signedQuantity ↔ 0 ≤ EpisodeBook.signedDelta execution))
      (hsmaller : |EpisodeBook.signedDelta execution| < |episode.signedQuantity|) :
      FillEffect execution price closedAt sequence (some episode)
        (some (reducedEpisode episode execution price |EpisodeBook.signedDelta execution| 1)) none
        sequence
  | closes (episode : OpenEpisode ℚ)
      (hopposite : ¬ (0 ≤ episode.signedQuantity ↔ 0 ≤ EpisodeBook.signedDelta execution))
      (hequal : |EpisodeBook.signedDelta execution| = |episode.signedQuantity|) :
      FillEffect execution price closedAt sequence (some episode) none
        (some (settledEpisode
          (reducedEpisode episode execution price |EpisodeBook.signedDelta execution| 1) closedAt))
        sequence
  | flips (episode : OpenEpisode ℚ)
      (hopposite : ¬ (0 ≤ episode.signedQuantity ↔ 0 ≤ EpisodeBook.signedDelta execution))
      (hlarger : |episode.signedQuantity| < |EpisodeBook.signedDelta execution|) :
      FillEffect execution price closedAt sequence (some episode)
        (some (freshEpisode execution price
          (episode.signedQuantity + EpisodeBook.signedDelta execution)
          (1 - |episode.signedQuantity| / |EpisodeBook.signedDelta execution|) sequence))
        (some (settledEpisode
          (reducedEpisode episode execution price |episode.signedQuantity|
            (|episode.signedQuantity| / |EpisodeBook.signedDelta execution|)) closedAt))
        (sequence + 1)

structure FillsTo [Sha256] (book : EpisodeBook ℚ) (execution : ShadowExecution ℚ)
    (closedAt : ℕ) (next : EpisodeBook ℚ) (price : ℚ) (kept : Option (OpenEpisode ℚ))
    (settled : Option (PortfolioEpisode ℚ)) : Prop where
  paid : execution.modeledAverageFillPrice = some price
  effect : FillEffect execution price closedAt book.nextEpisodeSequence
    book.opened[execution.asset]? kept settled next.nextEpisodeSequence
  opened : next.opened = put book.opened execution.asset kept
  closed : next.closed = book.closed ++ settled.toList

theorem opposite_signs {a b : ℚ} (hb : b ≠ 0) (h : ¬ (0 ≤ a ↔ 0 ≤ b)) :
    0 ≤ a ∧ b < 0 ∨ a < 0 ∧ 0 < b := by
  by_cases ha : 0 ≤ a
  · by_cases hpositive : 0 ≤ b
    · exact absurd (iff_of_true ha hpositive) h
    · exact .inl ⟨ha, not_le.mp hpositive⟩
  · by_cases hpositive : 0 ≤ b
    · exact .inr ⟨not_le.mp ha, lt_of_le_of_ne hpositive (Ne.symm hb)⟩
    · exact absurd (iff_of_false ha hpositive) h

theorem signed_residual {a b : ℚ} (hb : b ≠ 0) (h : ¬ (0 ≤ a ↔ 0 ≤ b)) :
    (if 0 ≤ b then |b| - |a| else -(|b| - |a|)) = a + b := by
  rcases opposite_signs hb h with ⟨ha, hneg⟩ | ⟨ha, hpos⟩
  · rw [if_neg (not_le.mpr hneg), abs_of_nonneg ha, abs_of_neg hneg]
    ring
  · rw [if_pos hpos.le, abs_of_neg ha, abs_of_pos hpos]
    ring

theorem reducedEpisode_quantity {price quantity fraction : ℚ} :
    (reducedEpisode episode execution price quantity fraction).signedQuantity =
      episode.signedQuantity + (lotOf episode).closing quantity := rfl

theorem closing_abs {delta : ℚ} (hdelta : delta ≠ 0)
    (hopposite : ¬ (0 ≤ episode.signedQuantity ↔ 0 ≤ delta)) :
    (lotOf episode).closing |delta| = delta := by
  unfold Lot.closing lotOf
  rcases opposite_signs hdelta hopposite with ⟨hquantity, hneg⟩ | ⟨hquantity, hpos⟩
  · rw [if_pos hquantity, abs_of_neg hneg, neg_neg]
  · rw [if_neg (not_le.mpr hquantity), abs_of_pos hpos]

theorem closing_abs_self (episode : OpenEpisode ℚ) :
    (lotOf episode).closing |episode.signedQuantity| = -episode.signedQuantity := by
  unfold Lot.closing lotOf
  by_cases hsign : 0 ≤ episode.signedQuantity
  · rw [if_pos hsign, abs_of_nonneg hsign]
  · rw [if_neg hsign, abs_of_neg (not_le.mp hsign)]

variable [Sha256] {book next traded : EpisodeBook ℚ} {execution : ShadowExecution ℚ}
  {price : ℚ} {closedAt : ℕ}

theorem opens_of_trade (hprice : execution.modeledAverageFillPrice = some price)
    (hnone : book.opened[execution.asset]? = none)
    (h : book.addSameDirection execution price (EpisodeBook.signedDelta execution) =
      .ok traded) :
    ∃ kept settled, FillsTo book execution closedAt traded price kept settled := by
  unfold EpisodeBook.addSameDirection at h
  simp only [hnone] at h
  have htraded := openNew_exact h
  subst htraded
  refine ⟨some (freshEpisode execution price (EpisodeBook.signedDelta execution) 1
    book.nextEpisodeSequence), none, hprice, ?_, ?_, (List.append_nil _).symm⟩
  · rw [hnone]
    exact FillEffect.opens
  · rw [one_eq]
    rfl

theorem grows_of_trade {episode : OpenEpisode ℚ}
    (hprice : execution.modeledAverageFillPrice = some price)
    (hget : book.opened[execution.asset]? = some episode)
    (hdelta : EpisodeBook.signedDelta execution ≠ 0)
    (hsame : 0 ≤ episode.signedQuantity ↔ 0 ≤ EpisodeBook.signedDelta execution)
    (h : book.addSameDirection execution price (EpisodeBook.signedDelta execution) =
      .ok traded) :
    ∃ kept settled, FillsTo book execution closedAt traded price kept settled := by
  unfold EpisodeBook.addSameDirection at h
  simp only [hget, grow_exact hdelta] at h
  cases h
  refine ⟨some (grownEpisode episode execution price (EpisodeBook.signedDelta execution)), none,
    hprice, ?_, rfl, (List.append_nil _).symm⟩
  rw [hget]
  exact FillEffect.grows episode hsame

theorem closes_of_trade {episode : OpenEpisode ℚ}
    (hprice : execution.modeledAverageFillPrice = some price)
    (hget : book.opened[execution.asset]? = some episode)
    (hdelta : EpisodeBook.signedDelta execution ≠ 0)
    (hopposite : ¬ (0 ≤ episode.signedQuantity ↔ 0 ≤ EpisodeBook.signedDelta execution))
    (h : book.closeOrFlip execution price (EpisodeBook.signedDelta execution) closedAt =
      .ok traded) :
    ∃ kept settled, FillsTo book execution closedAt traded price kept settled := by
  obtain ⟨closing, fraction, reduced, rest, residual, hclosing, hfraction, hreduced, hrest,
    hresidual, hend⟩ := (closeOrFlip_eq_ok_iff hget).mp h
  have hsize : |EpisodeBook.signedDelta execution| ≠ 0 := abs_ne_zero.mpr hdelta
  simp only [abs_eq, min_eq] at hclosing
  rw [abs_eq, checkedDiv_eq hsize, Option.some.injEq] at hfraction
  rw [abs_eq, checkedSub_eq, Option.some.injEq] at hresidual
  rw [reduce_exact] at hreduced
  cases hreduced
  subst hfraction hresidual
  rcases lt_trichotomy |EpisodeBook.signedDelta execution| |episode.signedQuantity| with
    hsmaller | hequal | hlarger
  · rw [min_eq_left hsmaller.le] at hclosing
    subst hclosing
    rw [div_self hsize] at hrest
    have hkept : (reducedEpisode episode execution price |EpisodeBook.signedDelta execution|
        1).signedQuantity ≠ 0 := by
      rw [reducedEpisode_quantity, closing_abs hdelta hopposite]
      intro hzero
      have hneg := eq_neg_of_add_eq_zero_right hzero
      rw [hneg, abs_neg] at hsmaller
      exact lt_irrefl _ hsmaller
    rw [if_neg (by rw [isZero_iff_eq_zero]; exact hkept)] at hrest
    cases hrest
    rcases hend with ⟨hzero, rfl⟩ | ⟨hleft, _⟩
    · refine ⟨some _, none, hprice, ?_, rfl, (List.append_nil _).symm⟩
      rw [hget]
      exact FillEffect.reduces episode hopposite hsmaller
    · rw [isZero_eq_false_iff_ne, sub_self] at hleft
      exact absurd rfl hleft
  · rw [min_eq_left hequal.le] at hclosing
    subst hclosing
    rw [div_self hsize] at hrest
    have hflat : (reducedEpisode episode execution price |EpisodeBook.signedDelta execution|
        1).signedQuantity = 0 := by
      rw [reducedEpisode_quantity, hequal, closing_abs_self, add_neg_cancel]
    rw [if_pos (by rw [isZero_iff_eq_zero]; exact hflat)] at hrest
    unfold EpisodeBook.finishEpisode at hrest
    simp only [getElem?_insert_eq, if_true, closedEpisode_exact, erase_insert_self] at hrest
    cases hrest
    rcases hend with ⟨hzero, rfl⟩ | ⟨hleft, _⟩
    · refine ⟨none, some _, hprice, ?_, rfl, rfl⟩
      rw [hget]
      exact FillEffect.closes episode hopposite hequal
    · rw [isZero_eq_false_iff_ne, sub_self] at hleft
      exact absurd rfl hleft
  · rw [min_eq_right hlarger.le] at hclosing
    subst hclosing
    have hflat : (reducedEpisode episode execution price |episode.signedQuantity|
        (|episode.signedQuantity| / |EpisodeBook.signedDelta execution|)).signedQuantity = 0 := by
      rw [reducedEpisode_quantity, closing_abs_self, add_neg_cancel]
    rw [if_pos (by rw [isZero_iff_eq_zero]; exact hflat)] at hrest
    unfold EpisodeBook.finishEpisode at hrest
    simp only [getElem?_insert_eq, if_true, closedEpisode_exact, erase_insert_self] at hrest
    cases hrest
    rcases hend with ⟨hzero, _⟩ | ⟨hleft, left, hleftover, hnext⟩
    · rw [isZero_iff_eq_zero, sub_eq_zero] at hzero
      exact absurd hzero hlarger.ne'
    · rw [checkedSub_eq, one_eq, Option.some.injEq] at hleftover
      subst hleftover
      have hsigned : (if Decimal.isSignPositive (EpisodeBook.signedDelta execution) = true then
          |EpisodeBook.signedDelta execution| - |episode.signedQuantity|
          else Decimal.neg (|EpisodeBook.signedDelta execution| - |episode.signedQuantity|)) =
            episode.signedQuantity + EpisodeBook.signedDelta execution := by
        rw [← signed_residual hdelta hopposite]
        simp only [isSignPositive_iff_nonneg, neg_eq]
      rw [hsigned] at hnext
      have htraded := openNew_exact hnext
      subst htraded
      refine ⟨some _, some _, hprice, ?_, insert_erase_self _ _ _, rfl⟩
      rw [hget]
      exact FillEffect.flips episode hopposite hlarger

/-- **A fill has one of the five effects.** -/
theorem apply_effect (hagrees : Agrees book)
    (hfills : execution.modeledFilledQuantity ≠ 0)
    (h : book.apply execution closedAt = .ok next) :
    ∃ price kept settled, FillsTo book execution closedAt next price kept settled := by
  have hfills' := (isZero_eq_false_iff_ne _).mpr hfills
  have hdelta := (isZero_eq_false_iff_ne _).mp (signedDelta_nonzero hfills')
  rw [EpisodeBook.apply_eq_ok_iff] at h
  obtain ⟨hbefore, ⟨hzero, _⟩ | ⟨_, price, after, traded, hprice, hafter, hmatches, htraded,
    rfl⟩⟩ := h
  · rw [hfills'] at hzero
    cases hzero
  obtain ⟨kept, settled, hto⟩ : ∃ kept settled,
      FillsTo book execution closedAt traded price kept settled := by
    unfold EpisodeBook.trade at htraded
    cases hget : book.opened[execution.asset]? with
    | none =>
      have hsame : EpisodeBook.sameDirection (book.position execution.asset)
          (EpisodeBook.signedDelta execution) = true := by
        rw [position_of_getElem?_eq_none hagrees hget]
        simp [EpisodeBook.sameDirection]
      rw [if_pos hsame] at htraded
      exact opens_of_trade hprice hget htraded
    | some episode =>
      obtain ⟨hposition, hnonzero⟩ := position_of_getElem? hagrees hget
      rw [isZero_eq_false_iff_ne] at hnonzero
      have hdirection : EpisodeBook.sameDirection episode.signedQuantity
          (EpisodeBook.signedDelta execution) = true ↔
            (0 ≤ episode.signedQuantity ↔ 0 ≤ EpisodeBook.signedDelta execution) := by
        unfold EpisodeBook.sameDirection
        rw [Bool.or_eq_true, isZero_iff_eq_zero, or_iff_right hnonzero, beq_iff_eq,
          Bool.eq_iff_iff, isSignPositive_iff_nonneg, isSignPositive_iff_nonneg]
      rw [hposition] at htraded
      by_cases hsame : 0 ≤ episode.signedQuantity ↔ 0 ≤ EpisodeBook.signedDelta execution
      · rw [if_pos (hdirection.mpr hsame)] at htraded
        exact grows_of_trade hprice hget hdelta hsame htraded
      · rw [if_neg (fun h => hsame (hdirection.mp h))] at htraded
        exact closes_of_trade hprice hget hdelta hsame htraded
  exact ⟨price, kept, settled, hto.paid, hto.effect, hto.opened, hto.closed⟩

end CopyTrade.Analysis
