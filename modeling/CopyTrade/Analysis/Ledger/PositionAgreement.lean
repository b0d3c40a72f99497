import CopyTrade.Model.Core.LedgerCalls

/-!
# Positions and open episodes

A book keeps an asset's position twice: in `positions` and as the quantity of its open episode.
The two are computed along different ways (a sum, and a sequence of averagings, closings and
flips), and no zero is kept in either.  `apply_agrees` shows that a fill keeps them equal,
rounding included: the sums they end in are the same sum.  Every
other call of a mutator changes the costs of an episode or a closed one only.
-/

namespace CopyTrade.Analysis

open Foundation Model
open Std (ExtTreeMap)

variable {D : Type} [Decimal D]

/-- The positions of a book are the quantities of its open episodes, and none is zero. -/
structure Agrees (book : EpisodeBook D) : Prop where
  quantity : ∀ asset : String,
    book.positions[asset]? = book.opened[asset]?.map OpenEpisode.signedQuantity
  nonzero : ∀ (asset : String) (quantity : D),
    book.positions[asset]? = some quantity → Decimal.isZero quantity = false

theorem agrees_empty : Agrees (EpisodeBook.empty : EpisodeBook D) where
  quantity asset := by
    rw [show (EpisodeBook.empty : EpisodeBook D).positions = ∅ from rfl,
      show (EpisodeBook.empty : EpisodeBook D).opened = ∅ from rfl, ExtTreeMap.getElem?_empty,
      ExtTreeMap.getElem?_empty]
    rfl
  nonzero asset quantity h := by
    rw [show (EpisodeBook.empty : EpisodeBook D).positions = ∅ from rfl,
      ExtTreeMap.getElem?_empty] at h
    cases h

variable {book : EpisodeBook D} {episode : OpenEpisode D}

theorem position_of_getElem? (hagrees : Agrees book) {asset : String}
    (h : book.opened[asset]? = some episode) :
    book.position asset = episode.signedQuantity ∧ Decimal.isZero episode.signedQuantity = false := by
  have hposition : book.positions[asset]? = some episode.signedQuantity := by
    rw [hagrees.quantity, h]
    rfl
  refine ⟨?_, hagrees.nonzero asset _ hposition⟩
  unfold EpisodeBook.position
  rw [hposition]
  rfl

theorem position_of_getElem?_eq_none (hagrees : Agrees book) {asset : String}
    (h : book.opened[asset]? = none) : book.position asset = Decimal.zero := by
  unfold EpisodeBook.position
  rw [hagrees.quantity, h]
  rfl

theorem validate_of_agrees (hagrees : Agrees book) : book.validate = .ok () := by
  refine bind_eq_ok_iff.mpr ⟨(), ?_, ?_⟩
  · rw [checkAll_eq_ok_iff]
    rintro ⟨asset, position⟩ hentry
    have hposition := ExtTreeMap.mem_toList_iff_getElem?_eq_some.mp hentry
    unfold EpisodeBook.positionMatches
    rw [← hagrees.quantity, hposition, Option.getD_some, if_pos (Decimal.eqv_refl _)]
  · rw [checkAll_eq_ok_iff]
    rintro ⟨asset, episode⟩ hentry
    have hepisode := ExtTreeMap.mem_toList_iff_getElem?_eq_some.mp hentry
    unfold EpisodeBook.episodeMatches
    rw [hagrees.quantity, hepisode, Option.map_some]
    exact if_pos (Decimal.eqv_refl _)

theorem validateIntegrity_of_agrees {ledger : DualLedger D} (hschema : ledger.schemaVersion = 2)
    (hagrees : ∀ name, Agrees (ledger.book name)) : ledger.validateIntegrity = .ok () := by
  unfold DualLedger.validateIntegrity
  rw [if_neg (by simp [hschema]), checkAll_eq_ok_iff]
  intro book hbook
  rcases List.mem_cons.mp hbook with rfl | hbook
  · exact validate_of_agrees (hagrees .portfolio)
  · obtain ⟨candidateId, hbook⟩ := mem_values_iff.mp hbook
    have hname : ledger.book (.source candidateId) = book := by
      unfold DualLedger.book
      dsimp only
      rw [hbook]
      rfl
    rw [← hname]
    exact validate_of_agrees (hagrees (.source candidateId))

def Holds (book : EpisodeBook D) (asset : String) (quantity : D) : Prop :=
  book.opened[asset]?.map OpenEpisode.signedQuantity =
    if Decimal.isZero quantity then none else some quantity

/-- A step of a trade leaves the positions and the episodes of other assets alone. -/
structure OnlyTrades (asset : String) (book next : EpisodeBook D) : Prop where
  positions : next.positions = book.positions
  others : ∀ other : String, asset ≠ other → next.opened[other]? = book.opened[other]?

section

variable [Sha256] {book next : EpisodeBook D} {execution : ShadowExecution D}

variable {episode : OpenEpisode D} {fraction : D}

omit [Sha256] in
theorem addCosts_signedQuantity {charged : OpenEpisode D}
    (h : EpisodeBook.addCosts episode execution fraction = .ok charged) :
    charged.signedQuantity = episode.signedQuantity := by
  unfold EpisodeBook.addCosts at h
  obtain ⟨fees, hfees, h⟩ := of_bind h
  obtain ⟨funding, hfunding, h⟩ := of_bind h
  obtain ⟨slippage, hslippage, h⟩ := of_bind h
  rw [pure_eq_ok_iff] at h
  rw [← h]

theorem openNew_spec {price quantity : D}
    (h : book.openNew execution price quantity fraction = .ok next) :
    OnlyTrades execution.asset book next ∧
      next.opened[execution.asset]?.map OpenEpisode.signedQuantity = some quantity := by
  unfold EpisodeBook.openNew at h
  obtain ⟨sequence, hsequence, h⟩ := of_bind h
  obtain ⟨notional, hnotional, h⟩ := of_bind h
  obtain ⟨opened, hopened, h⟩ := of_bind h
  rw [pure_eq_ok_iff] at h
  subst h
  refine ⟨⟨rfl, fun other hother => getElem?_insert_of_ne hother opened⟩, ?_⟩
  rw [getElem?_insert_eq, if_pos rfl, Option.map_some, addCosts_signedQuantity hopened]

omit [Sha256] in
theorem grow_signedQuantity {grown : OpenEpisode D} {price delta : D}
    (h : EpisodeBook.grow episode execution price delta = .ok grown) :
    Decimal.checkedAdd episode.signedQuantity delta = some grown.signedQuantity := by
  unfold EpisodeBook.grow at h
  obtain ⟨total, htotal, h⟩ := of_bind h
  obtain ⟨oldValue, holdValue, h⟩ := of_bind h
  obtain ⟨addedValue, haddedValue, h⟩ := of_bind h
  obtain ⟨average, haverage, h⟩ := of_bind h
  obtain ⟨quantity, hquantity, h⟩ := of_bind h
  obtain ⟨notional, hnotional, h⟩ := of_bind h
  rw [addCosts_signedQuantity h]
  exact EpisodeBook.orOverflow_eq_ok_iff.mp hquantity

omit [Sha256] in
theorem reduce_signedQuantity {next : OpenEpisode D} {price quantity : D}
    (h : EpisodeBook.reduce episode execution price quantity fraction = .ok next) :
    Decimal.checkedAdd episode.signedQuantity
        (if Decimal.isSignPositive episode.signedQuantity then Decimal.neg quantity
        else quantity) = some next.signedQuantity := by
  unfold EpisodeBook.reduce at h
  obtain ⟨unit, hunit, h⟩ := of_bind h
  obtain ⟨pnl, hpnl, h⟩ := of_bind h
  obtain ⟨realized, hrealized, h⟩ := of_bind h
  obtain ⟨exit, hexit, h⟩ := of_bind h
  obtain ⟨exitNotional, hexitNotional, h⟩ := of_bind h
  obtain ⟨charged, hcharged, h⟩ := of_bind h
  obtain ⟨signed, hsigned, h⟩ := of_bind h
  rw [pure_eq_ok_iff] at h
  subst h
  exact EpisodeBook.orOverflow_eq_ok_iff.mp hsigned

omit [Sha256] in
theorem finishEpisode_spec {asset : String} {closedAt : ℕ}
    (h : book.finishEpisode asset closedAt = .ok next) :
    OnlyTrades asset book next ∧ next.opened[asset]? = none := by
  unfold EpisodeBook.finishEpisode at h
  cases hget : book.opened[asset]? with
  | none =>
    rw [hget] at h
    cases h
  | some episode =>
    simp only [hget] at h
    obtain ⟨closed, hclosed, h⟩ := of_bind h
    rw [pure_eq_ok_iff] at h
    subst h
    refine ⟨⟨rfl, fun other hother => ?_⟩, ?_⟩
    · rw [getElem?_erase_eq, if_neg hother]
    · rw [getElem?_erase_eq, if_pos rfl]

end

section

variable {a delta quantity : D}

theorem isZero_iff : Decimal.isZero a = true ↔ Decimal.toRat a = 0 := by
  simp [Decimal.isZero]

theorem isZero_eq_false_iff : Decimal.isZero a = false ↔ Decimal.toRat a ≠ 0 := by
  simp [Decimal.isZero]

theorem isSignPositive_iff : Decimal.isSignPositive a = true ↔ 0 ≤ Decimal.toRat a := by
  simp [Decimal.isSignPositive]

theorem isSignPositive_eq_false_iff : Decimal.isSignPositive a = false ↔ Decimal.toRat a < 0 := by
  simp [Decimal.isSignPositive]

theorem opposite_of_sameDirection (hdelta : Decimal.isZero delta = false)
    (h : EpisodeBook.sameDirection quantity delta = false) :
    0 < Decimal.toRat quantity ∧ Decimal.toRat delta < 0 ∨
      Decimal.toRat quantity < 0 ∧ 0 < Decimal.toRat delta := by
  unfold EpisodeBook.sameDirection at h
  rw [Bool.or_eq_false_iff] at h
  obtain ⟨hnonzero, hsigns⟩ := h
  rw [isZero_eq_false_iff] at hdelta hnonzero
  cases hquantity : Decimal.isSignPositive quantity with
  | true =>
    cases hsign : Decimal.isSignPositive delta with
    | true =>
      rw [hquantity, hsign] at hsigns
      cases hsigns
    | false =>
      rw [isSignPositive_iff] at hquantity
      rw [isSignPositive_eq_false_iff] at hsign
      exact .inl ⟨lt_of_le_of_ne hquantity (Ne.symm hnonzero), hsign⟩
  | false =>
    cases hsign : Decimal.isSignPositive delta with
    | true =>
      rw [isSignPositive_eq_false_iff] at hquantity
      rw [isSignPositive_iff] at hsign
      exact .inr ⟨hquantity, lt_of_le_of_ne hsign (Ne.symm hdelta)⟩
    | false =>
      rw [hquantity, hsign] at hsigns
      cases hsigns

variable [DecimalSumLaws D]

theorem isZero_neg (a : D) : Decimal.isZero (Decimal.neg a) = Decimal.isZero a := by
  unfold Decimal.isZero
  rw [DecimalSumLaws.toRat_neg]
  simp

theorem isZero_zero : Decimal.isZero (Decimal.zero : D) = true :=
  isZero_iff.mpr DecimalSumLaws.toRat_zero

theorem sum_nonzero_of_sameDirection {sum : D} (hquantity : Decimal.isZero quantity = false)
    (hdelta : Decimal.isZero delta = false)
    (hsame : EpisodeBook.sameDirection quantity delta = true)
    (hsum : Decimal.checkedAdd quantity delta = some sum) : Decimal.isZero sum = false := by
  unfold EpisodeBook.sameDirection at hsame
  rw [hquantity, Bool.false_or, beq_iff_eq] at hsame
  rw [isZero_eq_false_iff] at hquantity hdelta ⊢
  cases hsign : Decimal.isSignPositive quantity with
  | true =>
    rw [hsign] at hsame
    have hq := lt_of_le_of_ne (isSignPositive_iff.mp hsign) (Ne.symm hquantity)
    have hd := lt_of_le_of_ne (isSignPositive_iff.mp hsame.symm) (Ne.symm hdelta)
    exact (DecimalSumLaws.add_pos quantity delta sum hq hd hsum).ne'
  | false =>
    rw [hsign] at hsame
    have hq := isSignPositive_eq_false_iff.mp hsign
    have hd := isSignPositive_eq_false_iff.mp hsame.symm
    have hneg : Decimal.checkedAdd (Decimal.neg quantity) (Decimal.neg delta) =
        some (Decimal.neg sum) := by
      rw [DecimalSumLaws.neg_add, hsum]
      rfl
    have hpositive := DecimalSumLaws.add_pos _ _ _
      (by rw [DecimalSumLaws.toRat_neg]; linarith) (by rw [DecimalSumLaws.toRat_neg]; linarith) hneg
    rw [DecimalSumLaws.toRat_neg] at hpositive
    exact (neg_pos.mp hpositive).ne

def signedClose (quantity closing : D) : D :=
  if Decimal.isSignPositive quantity then Decimal.neg closing else closing

theorem signedClose_abs_delta (h : 0 < Decimal.toRat quantity ∧ Decimal.toRat delta < 0 ∨
      Decimal.toRat quantity < 0 ∧ 0 < Decimal.toRat delta) :
    signedClose quantity (Decimal.abs delta) = delta := by
  unfold signedClose Decimal.abs
  rcases h with ⟨hquantity, hdelta⟩ | ⟨hquantity, hdelta⟩
  · rw [if_pos (isSignPositive_iff.mpr hquantity.le),
      if_neg (by rw [isSignPositive_iff]; exact not_le.mpr hdelta), DecimalSumLaws.neg_neg]
  · rw [if_neg (by rw [isSignPositive_iff]; exact not_le.mpr hquantity),
      if_pos (isSignPositive_iff.mpr hdelta.le)]

omit [DecimalSumLaws D] in
theorem signedClose_abs_self (quantity : D) :
    signedClose quantity (Decimal.abs quantity) = Decimal.neg quantity := by
  unfold signedClose Decimal.abs
  cases Decimal.isSignPositive quantity with
  | true => rfl
  | false => rfl

theorem sum_eq_residual {residual : D} (h : 0 < Decimal.toRat quantity ∧ Decimal.toRat delta < 0 ∨
      Decimal.toRat quantity < 0 ∧ 0 < Decimal.toRat delta)
    (hresidual : Decimal.checkedSub (Decimal.abs delta) (Decimal.abs quantity) = some residual) :
    Decimal.checkedAdd quantity delta =
      some (if Decimal.isSignPositive delta then residual else Decimal.neg residual) := by
  rw [DecimalSumLaws.sub_eq_add_neg] at hresidual
  unfold Decimal.abs at hresidual
  rcases h with ⟨hquantity, hdelta⟩ | ⟨hquantity, hdelta⟩
  · have hsign : ¬ Decimal.isSignPositive delta = true := by
      rw [isSignPositive_iff]
      exact not_le.mpr hdelta
    rw [if_neg hsign, if_pos (isSignPositive_iff.mpr hquantity.le), DecimalSumLaws.add_comm,
      DecimalSumLaws.neg_add] at hresidual
    obtain ⟨sum, hsum, hneg⟩ := Option.map_eq_some_iff.mp hresidual
    rw [if_neg hsign, hsum, ← hneg, DecimalSumLaws.neg_neg]
  · have hsign : ¬ Decimal.isSignPositive quantity = true := by
      rw [isSignPositive_iff]
      exact not_le.mpr hquantity
    have hpositive := isSignPositive_iff.mpr hdelta.le
    rw [if_neg hsign, if_pos hpositive, DecimalSumLaws.neg_neg] at hresidual
    rw [if_pos hpositive, DecimalSumLaws.add_comm, hresidual]

end

theorem closeOrFlip_eq_ok_iff [Sha256] {next : EpisodeBook D} {execution : ShadowExecution D}
    {price delta : D} {closedAt : ℕ} (hget : book.opened[execution.asset]? = some episode) :
    book.closeOrFlip execution price delta closedAt = .ok next ↔
      ∃ closing fraction reduced settled residual,
        Decimal.min (Decimal.abs delta) (Decimal.abs episode.signedQuantity) = closing ∧
        Decimal.checkedDiv closing (Decimal.abs delta) = some fraction ∧
        EpisodeBook.reduce episode execution price closing fraction = .ok reduced ∧
        (if Decimal.isZero reduced.signedQuantity then
            EpisodeBook.finishEpisode
              { book with opened := book.opened.insert execution.asset reduced } execution.asset
              closedAt
          else .ok { book with opened := book.opened.insert execution.asset reduced }) =
          .ok settled ∧
        Decimal.checkedSub (Decimal.abs delta) closing = some residual ∧
        (Decimal.isZero residual = true ∧ settled = next ∨
          Decimal.isZero residual = false ∧
            ∃ rest, Decimal.checkedSub Decimal.one fraction = some rest ∧
              settled.openNew execution price
                (if Decimal.isSignPositive delta then residual else Decimal.neg residual) rest =
                  .ok next) := by
  unfold EpisodeBook.closeOrFlip
  simp only [hget, bind_eq_ok_iff, EpisodeBook.orOverflow_eq_ok_iff]
  constructor
  · rintro ⟨fraction, hfraction, reduced, hreduced, settled, hsettled, residual, hresidual, h⟩
    refine ⟨_, fraction, reduced, settled, residual, rfl, hfraction, hreduced, hsettled,
      hresidual, ?_⟩
    split at h
    · rename_i hzero
      exact .inl ⟨hzero, pure_eq_ok_iff.mp h⟩
    · rename_i hnonzero
      obtain ⟨rest, hrest, h⟩ := of_bind h
      exact .inr ⟨by simpa using hnonzero, rest, EpisodeBook.orOverflow_eq_ok_iff.mp hrest, h⟩
  · rintro ⟨_, fraction, reduced, settled, residual, rfl, hfraction, hreduced, hsettled,
      hresidual, h⟩
    refine ⟨fraction, hfraction, reduced, hreduced, settled, hsettled, residual, hresidual, ?_⟩
    rcases h with ⟨hzero, rfl⟩ | ⟨hnonzero, rest, hrest, h⟩
    · rw [if_pos hzero, pure_eq_ok_iff]
    · rw [if_neg (by simp [hnonzero])]
      exact bind_eq_ok_iff.mpr ⟨rest, EpisodeBook.orOverflow_eq_ok_iff.mpr hrest, h⟩

section

variable [Sha256] [DecimalSumLaws D] {book next : EpisodeBook D} {execution : ShadowExecution D}
  {price delta after : D} {closedAt : ℕ}

omit [Decimal D] [Sha256] [DecimalSumLaws D] in
theorem onlyTrades_trans {asset : String} {first second third : EpisodeBook D}
    (h : OnlyTrades asset first second) (h' : OnlyTrades asset second third) :
    OnlyTrades asset first third :=
  ⟨h'.positions.trans h.positions, fun other hother =>
    (h'.others other hother).trans (h.others other hother)⟩

omit [Sha256] [DecimalSumLaws D] in
theorem settle_spec {settled : EpisodeBook D} {reduced : OpenEpisode D}
    (h : (if Decimal.isZero reduced.signedQuantity then
        EpisodeBook.finishEpisode
          { book with opened := book.opened.insert execution.asset reduced } execution.asset closedAt
      else .ok { book with opened := book.opened.insert execution.asset reduced }) =
        .ok settled) :
    OnlyTrades execution.asset book settled ∧
      Holds settled execution.asset reduced.signedQuantity := by
  unfold Holds
  split at h
  · rename_i hzero
    obtain ⟨honly, hnone⟩ := finishEpisode_spec h
    refine ⟨⟨honly.positions, fun other hother => ?_⟩, ?_⟩
    · rw [honly.others other hother]
      exact getElem?_insert_of_ne hother reduced
    · rw [hnone, if_pos hzero]
      rfl
  · rename_i hnonzero
    cases h
    refine ⟨⟨rfl, fun other hother => getElem?_insert_of_ne hother reduced⟩, ?_⟩
    rw [getElem?_insert_eq, if_pos rfl, if_neg hnonzero]
    rfl

theorem closeOrFlip_holds {episode : OpenEpisode D}
    (hget : book.opened[execution.asset]? = some episode)
    (hdelta : Decimal.isZero delta = false)
    (hdirection : EpisodeBook.sameDirection episode.signedQuantity delta = false)
    (hafter : Decimal.checkedAdd episode.signedQuantity delta = some after)
    (h : book.closeOrFlip execution price delta closedAt = .ok next) :
    OnlyTrades execution.asset book next ∧ Holds next execution.asset after := by
  have hopposite := opposite_of_sameDirection hdelta hdirection
  obtain ⟨closing, fraction, reduced, settled, residual, hclosing, hfraction, hreduced, hsettled,
    hresidual, hend⟩ := (closeOrFlip_eq_ok_iff hget).mp h
  obtain ⟨honly, hholds⟩ := settle_spec hsettled
  have hquantity : Decimal.checkedAdd episode.signedQuantity
      (signedClose episode.signedQuantity closing) = some reduced.signedQuantity :=
    reduce_signedQuantity hreduced
  unfold Decimal.min at hclosing
  cases hlarger : Decimal.lt (Decimal.abs episode.signedQuantity) (Decimal.abs delta) with
  | false =>
    -- The fill closes no more than the position, so nothing of it is left over.
    rw [hlarger, if_neg Bool.false_ne_true] at hclosing
    subst hclosing
    rw [signedClose_abs_delta hopposite, hafter] at hquantity
    rw [DecimalSumLaws.sub_eq_add_neg] at hresidual
    have hnothing := DecimalSumLaws.add_neg_self _ _ hresidual
    rcases hend with ⟨hzero, rfl⟩ | ⟨hnonzero, rest⟩
    · rw [Option.some.inj hquantity]
      exact ⟨honly, hholds⟩
    · rw [hnothing] at hnonzero
      cases hnonzero
  | true =>
    -- The fill closes the whole position; the rest of it is the new one.
    rw [hlarger, if_pos rfl] at hclosing
    subst hclosing
    rw [signedClose_abs_self] at hquantity
    have hflat : Holds settled execution.asset Decimal.zero := by
      unfold Holds at hholds ⊢
      rw [hholds, DecimalSumLaws.add_neg_self _ _ hquantity, isZero_zero]
      rfl
    rw [sum_eq_residual hopposite hresidual] at hafter
    have hafter := Option.some.inj hafter
    have hsize : Decimal.isZero after = Decimal.isZero residual := by
      rw [← hafter]
      split
      · rfl
      · exact isZero_neg residual
    rcases hend with ⟨hzero, rfl⟩ | ⟨hnonzero, rest, hrest, hnext⟩
    · refine ⟨honly, ?_⟩
      unfold Holds at hflat ⊢
      rw [hflat, isZero_zero, hsize, hzero]
      rfl
    · obtain ⟨honly', hopened⟩ := openNew_spec hnext
      refine ⟨onlyTrades_trans honly honly', ?_⟩
      unfold Holds
      rw [hopened, hsize, hnonzero, hafter]
      rfl

theorem trade_holds (hagrees : Agrees book) (hdelta : Decimal.isZero delta = false)
    (hafter : Decimal.checkedAdd (book.position execution.asset) delta = some after)
    (h : book.trade execution price delta closedAt = .ok next) :
    OnlyTrades execution.asset book next ∧ Holds next execution.asset after := by
  unfold EpisodeBook.trade at h
  cases hget : book.opened[execution.asset]? with
  | none =>
    rw [position_of_getElem?_eq_none hagrees hget] at h hafter
    have hsame : EpisodeBook.sameDirection (Decimal.zero : D) delta = true := by
      unfold EpisodeBook.sameDirection
      rw [isZero_zero, Bool.true_or]
    rw [hsame, if_pos rfl] at h
    unfold EpisodeBook.addSameDirection at h
    simp only [hget] at h
    obtain ⟨honly, hopened⟩ := openNew_spec h
    rw [DecimalSumLaws.add_comm, DecimalZeroLaws.add_zero _ _ isZero_zero] at hafter
    refine ⟨honly, ?_⟩
    unfold Holds
    rw [hopened, ← Option.some.inj hafter, hdelta]
    rfl
  | some episode =>
    obtain ⟨hposition, hnonzero⟩ := position_of_getElem? hagrees hget
    rw [hposition] at h hafter
    cases hsame : EpisodeBook.sameDirection episode.signedQuantity delta with
    | false =>
      rw [hsame, if_neg Bool.false_ne_true] at h
      exact closeOrFlip_holds hget hdelta hsame hafter h
    | true =>
      rw [hsame, if_pos rfl] at h
      unfold EpisodeBook.addSameDirection at h
      simp only [hget] at h
      obtain ⟨grown, hgrown, h⟩ := of_bind h
      rw [pure_eq_ok_iff] at h
      subst h
      refine ⟨⟨rfl, fun other hother => getElem?_insert_of_ne hother grown⟩, ?_⟩
      rw [grow_signedQuantity hgrown] at hafter
      have hafter := Option.some.inj hafter
      have hkept := sum_nonzero_of_sameDirection hnonzero hdelta hsame (grow_signedQuantity hgrown)
      unfold Holds
      rw [getElem?_insert_eq, if_pos rfl, ← hafter, hkept]
      rfl

omit [Sha256] in
theorem signedDelta_nonzero {execution : ShadowExecution D}
    (h : Decimal.isZero execution.modeledFilledQuantity = false) :
    Decimal.isZero (EpisodeBook.signedDelta execution) = false := by
  unfold EpisodeBook.signedDelta
  cases execution.side with
  | buy => exact h
  | sell => rw [isZero_neg, h]

/-- **Positions and open episodes agree after every fill.** -/
theorem apply_agrees (hagrees : Agrees book) (h : book.apply execution closedAt = .ok next) :
    Agrees next := by
  rw [EpisodeBook.apply_eq_ok_iff] at h
  obtain ⟨hbefore, ⟨hzero, hsame, rfl⟩ | ⟨hfills, price, after, traded, hprice, hafter, hmatches,
    htraded, rfl⟩⟩ := h
  · exact hagrees
  obtain ⟨honly, hholds⟩ := trade_holds hagrees (signedDelta_nonzero hfills) hafter htraded
  have hpositions : ∀ asset : String,
      (traded.setPosition execution.asset after).positions[asset]? =
        if execution.asset = asset then (if Decimal.isZero after then none else some after)
        else book.positions[asset]? := by
    intro asset
    unfold EpisodeBook.setPosition
    rw [honly.positions]
    cases Decimal.isZero after with
    | true => exact getElem?_erase_eq _ _ _
    | false => exact getElem?_insert_eq _ _ _ _
  refine ⟨fun asset => ?_, fun asset quantity hquantity => ?_⟩
  · rw [hpositions]
    by_cases hasset : execution.asset = asset
    · subst hasset
      rw [if_pos rfl]
      exact hholds.symm
    · rw [if_neg hasset, hagrees.quantity]
      exact congrArg (Option.map OpenEpisode.signedQuantity) (honly.others asset hasset).symm
  · rw [hpositions] at hquantity
    by_cases hasset : execution.asset = asset
    · rw [if_pos hasset] at hquantity
      cases hzero : Decimal.isZero after with
      | true =>
        rw [hzero, if_pos rfl] at hquantity
        cases hquantity
      | false =>
        rw [hzero, if_neg Bool.false_ne_true] at hquantity
        rw [← Option.some.inj hquantity, hzero]
    · rw [if_neg hasset] at hquantity
      exact hagrees.nonzero asset quantity hquantity

end

/-- The ledger has the current schema and books whose positions and open episodes agree. -/
structure LedgerAgrees (ledger : DualLedger D) : Prop where
  schema : ledger.schemaVersion = 2
  books : ∀ name, Agrees (ledger.book name)

theorem ledgerAgrees_empty : LedgerAgrees (DualLedger.empty : DualLedger D) where
  schema := rfl
  books name := by
    cases name with
    | portfolio => exact agrees_empty
    | source candidateId =>
      have hempty : (DualLedger.empty : DualLedger D).book (.source candidateId) =
          EpisodeBook.empty := by
        unfold DualLedger.book DualLedger.empty
        dsimp only
        rw [ExtTreeMap.getElem?_empty]
        rfl
      rw [hempty]
      exact agrees_empty

theorem validateIntegrity_of_ledgerAgrees {ledger : DualLedger D} (h : LedgerAgrees ledger) :
    ledger.validateIntegrity = .ok () :=
  validateIntegrity_of_agrees h.schema h.books

omit [Decimal D] in
theorem book_insert_source {ledger : DualLedger D} (candidateId : String) (book : EpisodeBook D)
    (name : BookName) :
    ({ ledger with sources := ledger.sources.insert candidateId book } : DualLedger D).book name =
      if name = .source candidateId then book else ledger.book name := by
  cases name with
  | portfolio => rw [if_neg (by simp)]; rfl
  | source other =>
    unfold DualLedger.book
    dsimp only
    rw [getElem?_insert_eq]
    by_cases hother : candidateId = other
    · rw [if_pos hother, if_pos (by rw [hother])]
      rfl
    · rw [if_neg hother, if_neg (by simpa using Ne.symm hother)]

theorem agrees_of_same {book next : EpisodeBook D} (h : Agrees book)
    (hpositions : next.positions = book.positions)
    (hopened : ∀ asset : String, next.opened[asset]?.map OpenEpisode.signedQuantity =
      book.opened[asset]?.map OpenEpisode.signedQuantity) : Agrees next where
  quantity asset := by rw [hpositions, hopened, h.quantity]
  nonzero asset quantity hquantity := h.nonzero asset quantity (by rw [← hpositions, hquantity])

variable {ledger next : DualLedger D}

theorem ledgerAgrees_portfolio {book : EpisodeBook D} (h : LedgerAgrees ledger)
    (hbook : Agrees book) : LedgerAgrees { ledger with portfolio := book } where
  schema := h.schema
  books name := by
    cases name with
    | portfolio => exact hbook
    | source candidateId => exact h.books (.source candidateId)

theorem ledgerAgrees_source {candidateId : String} {book : EpisodeBook D} (h : LedgerAgrees ledger)
    (hbook : Agrees book) :
    LedgerAgrees { ledger with sources := ledger.sources.insert candidateId book } where
  schema := h.schema
  books name := by
    rw [book_insert_source]
    split
    · exact hbook
    · exact h.books name

theorem ledgerAgrees_edit {candidateId : String} {episodeId : EpisodeId}
    {edit : PortfolioEpisode D → Except LedgerError (PortfolioEpisode D)} (h : LedgerAgrees ledger)
    (hedit : ledger.editLastSourceEpisode candidateId episodeId edit = .ok next) :
    LedgerAgrees next := by
  unfold DualLedger.editLastSourceEpisode at hedit
  cases hbook : ledger.sources[candidateId]? with
  | none =>
    rw [hbook] at hedit
    cases hedit
  | some book =>
    have hname : ledger.book (.source candidateId) = book := by
      unfold DualLedger.book
      dsimp only
      rw [hbook]
      rfl
    have hagrees : Agrees book := hname ▸ h.books (.source candidateId)
    simp only [hbook] at hedit
    split at hedit
    · cases hedit
    · split at hedit
      · cases hedit
      · obtain ⟨edited, -, hedit⟩ := of_bind hedit
        rw [pure_eq_ok_iff] at hedit
        subst hedit
        exact ledgerAgrees_source h (agrees_of_same hagrees rfl (fun _ => rfl))

theorem ledgerAgrees_funding {asset : String} {fundingCost : D} (h : LedgerAgrees ledger)
    (hfunding : ledger.applyPortfolioFunding asset fundingCost = .ok next) : LedgerAgrees next := by
  unfold DualLedger.applyPortfolioFunding at hfunding
  cases hepisode : ledger.portfolio.opened[asset]? with
  | none =>
    rw [hepisode] at hfunding
    cases hfunding
  | some episode =>
    rw [hepisode] at hfunding
    obtain ⟨funding, -, hfunding⟩ := of_bind hfunding
    rw [pure_eq_ok_iff] at hfunding
    subst hfunding
    refine ledgerAgrees_portfolio h (agrees_of_same (h.books .portfolio) rfl fun other => ?_)
    rw [getElem?_insert_eq]
    split
    · rename_i hother
      subst hother
      exact (congrArg (Option.map OpenEpisode.signedQuantity) hepisode).symm
    · rfl

theorem ledgerAgrees_reconcile {asset : String} {exchangeRealizedPnl : D} (h : LedgerAgrees ledger)
    (hreconcile : ledger.reconcileLastPortfolioGrossPnl asset exchangeRealizedPnl = .ok next) :
    LedgerAgrees next := by
  unfold DualLedger.reconcileLastPortfolioGrossPnl at hreconcile
  split at hreconcile
  · cases hreconcile
  · split at hreconcile
    · cases hreconcile
    · obtain ⟨netPnl, -, hreconcile⟩ := of_bind hreconcile
      rw [pure_eq_ok_iff] at hreconcile
      subst hreconcile
      exact ledgerAgrees_portfolio h (agrees_of_same (h.books .portfolio) rfl (fun _ => rfl))

/-- **Every call of a mutator leaves the books in agreement.** -/
theorem ledgerAgrees_call [Sha256] [DecimalSumLaws D] {call : LedgerCall D}
    (h : LedgerAgrees ledger) (hcall : ledger.call call = .ok next) : LedgerAgrees next := by
  cases call with
  | portfolioExecution execution closedAt =>
    obtain ⟨book, hbook, hcall⟩ := of_bind hcall
    rw [pure_eq_ok_iff] at hcall
    subst hcall
    exact ledgerAgrees_portfolio h (apply_agrees (h.books .portfolio) hbook)
  | sourceExecution candidateId execution closedAt =>
    obtain ⟨book, hbook, hcall⟩ := of_bind hcall
    rw [pure_eq_ok_iff] at hcall
    subst hcall
    exact ledgerAgrees_source h (apply_agrees (h.books (.source candidateId)) hbook)
  | portfolioFunding asset fundingCost => exact ledgerAgrees_funding h hcall
  | sourceAttributionResidual candidateId episodeId residual => exact ledgerAgrees_edit h hcall
  | sourceEconomicResiduals candidateId episodeId residuals => exact ledgerAgrees_edit h hcall
  | reconcilePortfolioGross asset exchangeRealizedPnl => exact ledgerAgrees_reconcile h hcall

end CopyTrade.Analysis
