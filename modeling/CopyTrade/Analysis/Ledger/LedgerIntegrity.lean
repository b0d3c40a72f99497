import CopyTrade.Analysis.Ledger.FillEffect
import CopyTrade.Analysis.Ledger.PositionAgreement

/-!
# The integrity of the dual ledger

A total over a book adds a figure of the open episodes and one of the closed ones.  `SoundBook` says
what holds of a book that was charged with given costs: its positions agree with its open episodes,
every closed episode nets its result against its costs, the sequence numbers are distinct, and its
costs are the ones it was charged with.  Each of the six mutators keeps it.
-/

namespace CopyTrade.Analysis

open Foundation Model Model.ExactDecimal
open Std (ExtTreeMap)

section

/-- The sum of `f` over the open and of `g` over the closed episodes. -/
def bookTotal {M : Type} [AddCommMonoid M] (f : OpenEpisode ℚ → M) (g : PortfolioEpisode ℚ → M)
    (book : EpisodeBook ℚ) : M :=
  total (fun _ episode => f episode) book.opened + (book.closed.map g).sum

/-- The three kinds of costs an episode is charged with. -/
inductive CostKind
  | fees
  | funding
  | slippage
deriving DecidableEq

namespace CostKind

def ofOpen : CostKind → OpenEpisode ℚ → ℚ
  | fees => OpenEpisode.fees
  | funding => OpenEpisode.funding
  | slippage => OpenEpisode.slippage

def ofClosed : CostKind → PortfolioEpisode ℚ → ℚ
  | fees => PortfolioEpisode.fees
  | funding => PortfolioEpisode.funding
  | slippage => PortfolioEpisode.slippage

def ofExecution : CostKind → ShadowExecution ℚ → ℚ
  | fees => ShadowExecution.fees
  | funding => ShadowExecution.funding
  | slippage => ShadowExecution.slippage

theorem ofOpen_charged (kind : CostKind) (episode : OpenEpisode ℚ)
    (execution : ShadowExecution ℚ) (fraction : ℚ) :
    kind.ofOpen (charged episode execution fraction) =
      kind.ofOpen episode + kind.ofExecution execution * fraction := by
  cases kind <;> rfl

theorem ofClosed_settledEpisode (kind : CostKind) (episode : OpenEpisode ℚ) (closedAt : ℕ) :
    kind.ofClosed (settledEpisode episode closedAt) = kind.ofOpen episode := by
  cases kind <;> rfl

theorem ofOpen_freshEpisode [Sha256] (kind : CostKind) (execution : ShadowExecution ℚ)
    (price quantity fraction : ℚ) (sequence : ℕ) :
    kind.ofOpen (freshEpisode execution price quantity fraction sequence) =
      kind.ofExecution execution * fraction := by
  unfold freshEpisode
  rw [ofOpen_charged]
  cases kind <;> exact zero_add _

theorem ofOpen_grownEpisode (kind : CostKind) (episode : OpenEpisode ℚ)
    (execution : ShadowExecution ℚ) (price delta : ℚ) :
    kind.ofOpen (grownEpisode episode execution price delta) =
      kind.ofOpen episode + kind.ofExecution execution := by
  unfold grownEpisode
  rw [ofOpen_charged, mul_one]
  cases kind <;> rfl

theorem ofOpen_reducedEpisode (kind : CostKind) (episode : OpenEpisode ℚ)
    (execution : ShadowExecution ℚ) (price quantity fraction : ℚ) :
    kind.ofOpen (reducedEpisode episode execution price quantity fraction) =
      kind.ofOpen episode + kind.ofExecution execution * fraction := by
  unfold reducedEpisode
  rw [ofOpen_charged]
  cases kind <;> rfl

end CostKind

def bookCosts (kind : CostKind) (book : EpisodeBook ℚ) : ℚ :=
  bookTotal kind.ofOpen kind.ofClosed book

def bookCash (book : EpisodeBook ℚ) : ℚ :=
  bookTotal (fun episode => (lotOf episode).cash) PortfolioEpisode.realizedPnl book

variable [Sha256] {book next : EpisodeBook ℚ} {execution : ShadowExecution ℚ} {closedAt : ℕ}
  {price : ℚ} {kept : Option (OpenEpisode ℚ)} {settled : Option (PortfolioEpisode ℚ)}

theorem bookTotal_replace {M : Type} [AddCommMonoid M]
    (h : FillsTo book execution closedAt next price kept settled)
    (f : OpenEpisode ℚ → M) (g : PortfolioEpisode ℚ → M) :
    bookTotal f g next + share (fun _ => f) execution.asset book.opened[execution.asset]? =
      bookTotal f g book +
        (share (fun _ => f) execution.asset kept + (settled.toList.map g).sum) := by
  unfold bookTotal
  rw [h.opened, h.closed, total_put, total_eq_share_add _ book.opened execution.asset,
    List.map_append, List.sum_append]
  abel

theorem bookTotal_fillsTo (h : FillsTo book execution closedAt next price kept settled)
    {f : OpenEpisode ℚ → ℚ} {g : PortfolioEpisode ℚ → ℚ} {change : ℚ}
    (hchange : share (fun _ => f) execution.asset kept + (settled.toList.map g).sum =
      share (fun _ => f) execution.asset book.opened[execution.asset]? + change) :
    bookTotal f g next = bookTotal f g book + change := by
  have hreplace := bookTotal_replace h f g
  rw [hchange] at hreplace
  linarith

theorem bookCosts_fillsTo (kind : CostKind)
    (h : FillsTo book execution closedAt next price kept settled) :
    bookCosts kind next = bookCosts kind book + kind.ofExecution execution := by
  refine bookTotal_fillsTo h ?_
  have heffect := h.effect
  revert heffect
  generalize book.opened[execution.asset]? = before
  generalize next.nextEpisodeSequence = sequence
  intro heffect
  cases heffect with
  | opens =>
    simp only [share_some, share_none, CostKind.ofOpen_freshEpisode, mul_one,
      Option.toList_none, List.map_nil, List.sum_nil, add_zero, zero_add]
  | grows episode hsame =>
    simp only [share_some, CostKind.ofOpen_grownEpisode, Option.toList_none, List.map_nil,
      List.sum_nil, add_zero]
  | reduces episode hopposite hsmaller =>
    simp only [share_some, CostKind.ofOpen_reducedEpisode, mul_one, Option.toList_none,
      List.map_nil, List.sum_nil, add_zero]
  | closes episode hopposite hequal =>
    simp only [share_some, share_none, CostKind.ofClosed_settledEpisode,
      CostKind.ofOpen_reducedEpisode, mul_one, Option.toList_some, List.map_cons, List.map_nil,
      List.sum_cons, List.sum_nil, add_zero, zero_add]
  | flips episode hopposite hlarger =>
    simp only [share_some, CostKind.ofOpen_freshEpisode, CostKind.ofClosed_settledEpisode,
      CostKind.ofOpen_reducedEpisode, Option.toList_some, List.map_cons, List.map_nil,
      List.sum_cons, List.sum_nil, add_zero]
    ring

omit [Sha256] in
theorem realizedPnl_of_closed (execution : ShadowExecution ℚ) (price : ℚ)
    (episode : OpenEpisode ℚ) (quantity fraction : ℚ)
    (hflat : episode.signedQuantity + (lotOf episode).closing quantity = 0) :
    (reducedEpisode episode execution price quantity fraction).realizedPnl =
      (lotOf episode).cash - (lotOf episode).closing quantity * price := by
  rw [← Lot.cash_reduce]
  have hquantity : ((lotOf episode).reduce quantity price).quantity = 0 := hflat
  unfold Lot.cash
  rw [hquantity, zero_mul, sub_zero]
  rfl

theorem bookCash_fillsTo (hdelta : EpisodeBook.signedDelta execution ≠ 0)
    (h : FillsTo book execution closedAt next price kept settled) :
    bookCash next = bookCash book + -(EpisodeBook.signedDelta execution * price) := by
  refine bookTotal_fillsTo h ?_
  have heffect := h.effect
  revert heffect
  generalize book.opened[execution.asset]? = before
  generalize next.nextEpisodeSequence = sequence
  intro heffect
  cases heffect with
  | opens =>
    have hcash : (lotOf (freshEpisode execution price (EpisodeBook.signedDelta execution) 1
        book.nextEpisodeSequence)).cash = -(EpisodeBook.signedDelta execution * price) :=
      Lot.cash_start _ _
    simp only [share_some, share_none, Option.toList_none, List.map_nil, List.sum_nil, add_zero,
      zero_add, hcash]
  | grows episode hsame =>
    have hcash : (lotOf (grownEpisode episode execution price
        (EpisodeBook.signedDelta execution))).cash =
          (lotOf episode).cash - EpisodeBook.signedDelta execution * price :=
      Lot.cash_grow (lotOf episode) price hsame hdelta
    simp only [share_some, Option.toList_none, List.map_nil, List.sum_nil, add_zero, hcash]
    ring
  | reduces episode hopposite hsmaller =>
    have hcash : (lotOf (reducedEpisode episode execution price
        |EpisodeBook.signedDelta execution| 1)).cash =
          (lotOf episode).cash - EpisodeBook.signedDelta execution * price := by
      refine (Lot.cash_reduce (lotOf episode) _ price).trans ?_
      rw [closing_abs hdelta hopposite]
    simp only [share_some, Option.toList_none, List.map_nil, List.sum_nil, add_zero, hcash]
    ring
  | closes episode hopposite hequal =>
    have hrealized := realizedPnl_of_closed execution price episode
      |EpisodeBook.signedDelta execution| 1 (by rw [hequal, closing_abs_self, add_neg_cancel])
    rw [closing_abs hdelta hopposite] at hrealized
    simp only [share_some, share_none, settledEpisode, Option.toList_some, List.map_cons,
      List.map_nil, List.sum_cons, List.sum_nil, add_zero, zero_add, hrealized]
    ring
  | flips episode hopposite hlarger =>
    have hrealized := realizedPnl_of_closed execution price episode |episode.signedQuantity|
      (|episode.signedQuantity| / |EpisodeBook.signedDelta execution|) (by rw [closing_abs_self, add_neg_cancel])
    rw [closing_abs_self] at hrealized
    have hcash : (lotOf (freshEpisode execution price
        (episode.signedQuantity + EpisodeBook.signedDelta execution)
        (1 - |episode.signedQuantity| / |EpisodeBook.signedDelta execution|)
        book.nextEpisodeSequence)).cash =
          -((episode.signedQuantity + EpisodeBook.signedDelta execution) * price) :=
      Lot.cash_start _ _
    simp only [share_some, settledEpisode, Option.toList_some, List.map_cons, List.map_nil,
      List.sum_cons, List.sum_nil, add_zero, hrealized, hcash]
    ring

end

/-- What identifies an episode, open or closed. -/
structure Stamp where
  episodeId : EpisodeId
  asset : String
  openingDecisionId : Hash

/-- An episode with the order and the sequence number its id was derived from. -/
structure Issue where
  stamp : Stamp
  cloid : PlannedCloid
  number : ℕ

/-- The id of an episode is derived from the sequence number. -/
def Issue.derives [Sha256] (issue : Issue) : Prop :=
  issue.stamp.episodeId = EpisodeBook.deriveEpisodeId issue.stamp.asset
    issue.stamp.openingDecisionId issue.cloid issue.number

def stampOfOpen (episode : OpenEpisode ℚ) : Stamp :=
  ⟨episode.episodeId, episode.asset, episode.openingDecisionId⟩

def stampOfClosed (episode : PortfolioEpisode ℚ) : Stamp :=
  ⟨episode.episodeId, episode.asset, episode.openingDecisionId⟩

def bookStamps (book : EpisodeBook ℚ) : Multiset Stamp :=
  bookTotal (fun episode => {stampOfOpen episode}) (fun episode => {stampOfClosed episode}) book

/-- The episodes of a book have used the sequence numbers before the next one, each of them
once. -/
def Numbered [Sha256] (book : EpisodeBook ℚ) : Prop :=
  ∃ issued : Multiset Issue, issued.map Issue.stamp = bookStamps book ∧
    (∀ issue ∈ issued, issue.derives) ∧
    issued.map Issue.number = Multiset.range book.nextEpisodeSequence

section

variable [Sha256] {book next : EpisodeBook ℚ} {execution : ShadowExecution ℚ} {closedAt : ℕ}
  {price : ℚ} {kept : Option (OpenEpisode ℚ)} {settled : Option (PortfolioEpisode ℚ)}

def freshIssue (execution : ShadowExecution ℚ) (number : ℕ) : Issue where
  stamp := ⟨EpisodeBook.deriveEpisodeId execution.asset execution.decisionId
    execution.plannedCloid number, execution.asset, execution.decisionId⟩
  cloid := execution.plannedCloid
  number := number

theorem bookStamps_fillsTo (h : FillsTo book execution closedAt next price kept settled) :
    bookStamps next = bookStamps book ∧ next.nextEpisodeSequence = book.nextEpisodeSequence ∨
      bookStamps next =
          bookStamps book + {(freshIssue execution book.nextEpisodeSequence).stamp} ∧
        next.nextEpisodeSequence = book.nextEpisodeSequence + 1 := by
  have hreplace := bookTotal_replace h (fun episode => ({stampOfOpen episode} : Multiset Stamp))
    (fun episode => {stampOfClosed episode})
  have hstamps : ∀ new : Multiset Stamp,
      share (fun _ episode => ({stampOfOpen episode} : Multiset Stamp)) execution.asset kept +
          (settled.toList.map fun episode => ({stampOfClosed episode} : Multiset Stamp)).sum =
        share (fun _ episode => ({stampOfOpen episode} : Multiset Stamp)) execution.asset
          book.opened[execution.asset]? + new →
      bookStamps next = bookStamps book + new := by
    intro new hnew
    rw [hnew] at hreplace
    unfold bookStamps
    refine add_right_cancel (hreplace.trans ?_)
    abel
  have heffect := h.effect
  revert heffect hstamps
  generalize book.opened[execution.asset]? = before
  generalize next.nextEpisodeSequence = sequence
  intro hstamps heffect
  cases heffect with
  | opens => exact .inr ⟨hstamps _ (by abel), rfl⟩
  | grows episode hsame =>
    refine .inl ⟨?_, rfl⟩
    rw [hstamps 0 rfl, add_zero]
  | reduces episode hopposite hsmaller =>
    refine .inl ⟨?_, rfl⟩
    rw [hstamps 0 rfl, add_zero]
  | closes episode hopposite hequal =>
    refine .inl ⟨?_, rfl⟩
    rw [hstamps 0 rfl, add_zero]
  | flips episode hopposite hlarger =>
    refine .inr ⟨hstamps _ ?_, rfl⟩
    exact add_comm _ _

theorem numbered_fillsTo (hnumbered : Numbered book)
    (h : FillsTo book execution closedAt next price kept settled) : Numbered next := by
  obtain ⟨issued, hstamps, hderives, hnumbers⟩ := hnumbered
  rcases bookStamps_fillsTo h with ⟨hsame, hsequence⟩ | ⟨hmore, hsequence⟩
  · exact ⟨issued, hstamps.trans hsame.symm, hderives, by rw [hsequence, hnumbers]⟩
  · refine ⟨freshIssue execution book.nextEpisodeSequence ::ₘ issued, ?_, ?_, ?_⟩
    · rw [Multiset.map_cons, hstamps, hmore, add_comm, Multiset.singleton_add]
    · intro issue hissue
      rcases Multiset.mem_cons.mp hissue with rfl | hissue
      · rfl
      · exact hderives issue hissue
    · rw [Multiset.map_cons, hnumbers, hsequence, Multiset.range_succ]
      rfl

/-- The net result of a closed episode is its result less its costs, with the residual
attributed to it. -/
def NetsOut (episode : PortfolioEpisode ℚ) : Prop :=
  episode.netPnl = episode.realizedPnl - episode.fees - episode.funding - episode.slippage +
    episode.attributionResidual

theorem settled_fillsTo (h : FillsTo book execution closedAt next price kept settled) :
    ∀ episode ∈ settled, NetsOut episode ∧ episode.attributionResidual = 0 := by
  have hsettled : ∀ (opened : OpenEpisode ℚ),
      NetsOut (settledEpisode opened closedAt) ∧
        (settledEpisode opened closedAt).attributionResidual = 0 :=
    fun opened => ⟨(add_zero _).symm, rfl⟩
  intro episode hepisode
  have heffect := h.effect
  revert heffect
  generalize book.opened[execution.asset]? = before
  generalize next.nextEpisodeSequence = sequence
  intro heffect
  cases heffect with
  | opens => cases hepisode
  | grows => cases hepisode
  | reduces => cases hepisode
  | closes opened =>
    cases hepisode
    exact hsettled _
  | flips opened =>
    cases hepisode
    exact hsettled _

end

/-- What holds of a book that was charged with the given costs. -/
structure SoundBook [Sha256] (charges : CostKind → ℚ) (book : EpisodeBook ℚ) : Prop where
  agrees : Agrees book
  nets : ∀ episode ∈ book.closed, NetsOut episode
  numbered : Numbered book
  costs : ∀ kind, bookCosts kind book = charges kind

/-- The costs an execution charges its book with: those of an execution that fills nothing are
not booked. -/
def bookedCosts (kind : CostKind) (execution : ShadowExecution ℚ) : ℚ :=
  if execution.modeledFilledQuantity = 0 then 0 else kind.ofExecution execution

section

variable [Sha256] {book next : EpisodeBook ℚ} {charges : CostKind → ℚ}

theorem soundBook_empty : SoundBook (fun _ => 0) EpisodeBook.empty where
  agrees := agrees_empty
  nets := by
    intro episode hepisode
    cases hepisode
  numbered := ⟨0, rfl, by simp, rfl⟩
  costs kind := by
    unfold bookCosts bookTotal EpisodeBook.empty
    rw [total_empty, List.map_nil, List.sum_nil, add_zero]

variable {execution : ShadowExecution ℚ} {last : PortfolioEpisode ℚ} {episode : OpenEpisode ℚ}

theorem apply_of_nothing_filled {closedAt : ℕ} (hnothing : execution.modeledFilledQuantity = 0)
    (h : book.apply execution closedAt = .ok next) : next = book := by
  rw [EpisodeBook.apply_eq_ok_iff] at h
  obtain ⟨hbefore, ⟨hzero, hafter, rfl⟩ | ⟨hfills, _⟩⟩ := h
  · rfl
  · rw [isZero_eq_false_iff_ne] at hfills
    exact absurd hnothing hfills

theorem apply_sound {closedAt : ℕ} (hsound : SoundBook charges book)
    (h : book.apply execution closedAt = .ok next) :
    SoundBook (fun kind => charges kind + bookedCosts kind execution) next ∧
      ((∀ episode ∈ book.closed, episode.attributionResidual = 0) →
        ∀ episode ∈ next.closed, episode.attributionResidual = 0) := by
  unfold bookedCosts
  by_cases hfills : execution.modeledFilledQuantity = 0
  · have hsame := apply_of_nothing_filled hfills h
    subst hsame
    simp only [if_pos hfills, add_zero]
    exact ⟨hsound, id⟩
  · obtain ⟨price, kept, settled, hto⟩ := apply_effect hsound.agrees hfills h
    have hsettled := settled_fillsTo hto
    refine ⟨⟨apply_agrees hsound.agrees h, ?_, numbered_fillsTo hsound.numbered hto, ?_⟩, ?_⟩
    · intro episode hepisode
      rw [hto.closed, List.mem_append, Option.mem_toList] at hepisode
      rcases hepisode with hepisode | hepisode
      · exact hsound.nets episode hepisode
      · exact (hsettled episode hepisode).1
    · intro kind
      rw [bookCosts_fillsTo kind hto, hsound.costs, if_neg hfills]
    · intro hresidual episode hepisode
      rw [hto.closed, List.mem_append, Option.mem_toList] at hepisode
      rcases hepisode with hepisode | hepisode
      · exact hresidual episode hepisode
      · exact (hsettled episode hepisode).2

def editLast (book : EpisodeBook ℚ) (edited : PortfolioEpisode ℚ) : EpisodeBook ℚ :=
  { book with closed := book.closed.dropLast ++ [edited] }

omit [Sha256] in
theorem closed_eq_of_getLast? (h : book.closed.getLast? = some last) :
    book.closed = book.closed.dropLast ++ [last] :=
  (List.dropLast_append_getLast? last h).symm

omit [Sha256] in
theorem bookTotal_editLast {M : Type} [AddCommMonoid M] (h : book.closed.getLast? = some last)
    (edited : PortfolioEpisode ℚ) (f : OpenEpisode ℚ → M) (g : PortfolioEpisode ℚ → M) :
    bookTotal f g (editLast book edited) + g last = bookTotal f g book + g edited := by
  unfold bookTotal editLast
  rw [List.map_append, List.sum_append]
  conv_rhs => rw [closed_eq_of_getLast? h, List.map_append, List.sum_append]
  simp only [List.map_cons, List.map_nil, List.sum_cons, List.sum_nil, add_zero]
  abel

theorem editLast_sound (edited : PortfolioEpisode ℚ) (more : CostKind → ℚ)
    (hsound : SoundBook charges book) (hlast : book.closed.getLast? = some last)
    (hstamp : stampOfClosed edited = stampOfClosed last) (hnets : NetsOut edited)
    (hcosts : ∀ kind : CostKind, kind.ofClosed edited = kind.ofClosed last + more kind) :
    SoundBook (fun kind => charges kind + more kind) (editLast book edited) where
  agrees := ⟨hsound.agrees.quantity, hsound.agrees.nonzero⟩
  nets := by
    intro episode hepisode
    rcases List.mem_append.mp hepisode with hepisode | hepisode
    · exact hsound.nets episode (List.dropLast_subset _ hepisode)
    · rw [List.mem_singleton] at hepisode
      rw [hepisode]
      exact hnets
  numbered := by
    obtain ⟨issued, hstamps, hderives, hnumbers⟩ := hsound.numbered
    refine ⟨issued, hstamps.trans ?_, hderives, hnumbers⟩
    have htotal := bookTotal_editLast hlast edited
      (fun episode => ({stampOfOpen episode} : Multiset Stamp))
      (fun episode => {stampOfClosed episode})
    rw [hstamp] at htotal
    exact (add_right_cancel htotal).symm
  costs kind := by
    have htotal := bookTotal_editLast hlast edited kind.ofOpen kind.ofClosed
    have hbefore := hsound.costs kind
    unfold bookCosts at hbefore ⊢
    rw [hcosts, hbefore] at htotal
    linarith

def funded (episode : OpenEpisode ℚ) (cost : ℚ) : OpenEpisode ℚ :=
  { episode with funding := episode.funding + cost }

def fundBook (book : EpisodeBook ℚ) (asset : String) (episode : OpenEpisode ℚ) (cost : ℚ) :
    EpisodeBook ℚ :=
  { book with opened := book.opened.insert asset (funded episode cost) }

omit [Sha256] in
theorem bookTotal_fundBook {M : Type} [AddCommMonoid M] {asset : String}
    (hget : book.opened[asset]? = some episode) (cost : ℚ) (f : OpenEpisode ℚ → M)
    (g : PortfolioEpisode ℚ → M) :
    bookTotal f g (fundBook book asset episode cost) + f episode =
      bookTotal f g book + f (funded episode cost) := by
  unfold bookTotal fundBook
  rw [show book.opened.insert asset (funded episode cost) =
      put book.opened asset (some (funded episode cost)) from rfl,
    total_put, total_eq_share_add _ book.opened asset, hget, share_some, share_some]
  abel

theorem fundBook_sound {asset : String} (cost : ℚ) (hsound : SoundBook charges book)
    (hget : book.opened[asset]? = some episode) :
    SoundBook (fun kind => charges kind + if kind = .funding then cost else 0)
      (fundBook book asset episode cost) where
  agrees := by
    refine ⟨fun other => ?_, hsound.agrees.nonzero⟩
    unfold fundBook
    rw [hsound.agrees.quantity, getElem?_insert_eq]
    by_cases hother : asset = other
    · rw [if_pos hother, ← hother, hget]
      rfl
    · rw [if_neg hother]
  nets := hsound.nets
  numbered := by
    obtain ⟨issued, hstamps, hderives, hnumbers⟩ := hsound.numbered
    refine ⟨issued, hstamps.trans ?_, hderives, hnumbers⟩
    exact (add_right_cancel (bookTotal_fundBook hget cost
      (fun episode => ({stampOfOpen episode} : Multiset Stamp))
      (fun episode => {stampOfClosed episode}))).symm
  costs kind := by
    have hmoved := bookTotal_fundBook hget cost kind.ofOpen kind.ofClosed
    have hbefore := hsound.costs kind
    have hcarries : kind.ofOpen (funded episode cost) =
        kind.ofOpen episode + if kind = .funding then cost else 0 := by
      cases kind with
      | fees => exact (add_zero _).symm
      | funding => rfl
      | slippage => exact (add_zero _).symm
    unfold bookCosts at hbefore ⊢
    rw [hcarries, hbefore] at hmoved
    linarith

end

def CostKind.ofResiduals : CostKind → DualLedger.EconomicResiduals ℚ → ℚ
  | fees => DualLedger.EconomicResiduals.fees
  | funding => DualLedger.EconomicResiduals.funding
  | slippage => DualLedger.EconomicResiduals.slippage

/-- What a call charges a book with, when an execution charges `ofExecution`. -/
def callCharges (ofExecution : CostKind → ShadowExecution ℚ → ℚ) (kind : CostKind)
    (name : BookName) : LedgerCall ℚ → ℚ
  | .portfolioExecution execution _ =>
    if name = .portfolio then ofExecution kind execution else 0
  | .sourceExecution candidateId execution _ =>
    if name = .source candidateId then ofExecution kind execution else 0
  | .portfolioFunding _ fundingCost =>
    if name = .portfolio then (if kind = .funding then fundingCost else 0) else 0
  | .sourceEconomicResiduals candidateId _ residuals =>
    if name = .source candidateId then kind.ofResiduals residuals else 0
  | .sourceAttributionResidual _ _ _ => 0
  | .reconcilePortfolioGross _ _ => 0

/-- Every book of the ledger is sound, and the portfolio has no attribution residuals. -/
structure SoundLedger [Sha256] (charges : CostKind → BookName → ℚ) (ledger : DualLedger ℚ) :
    Prop where
  schema : ledger.schemaVersion = 2
  unattributed : ∀ episode ∈ ledger.portfolio.closed, episode.attributionResidual = 0
  books : ∀ name, SoundBook (fun kind => charges kind name) (ledger.book name)

section

variable [Sha256] {ledger next : DualLedger ℚ} {charges : CostKind → BookName → ℚ}

theorem soundLedger_empty : SoundLedger (fun _ _ => 0) DualLedger.empty where
  schema := rfl
  unattributed := by
    intro episode hepisode
    cases hepisode
  books name := by
    cases name with
    | portfolio => exact soundBook_empty
    | source candidateId =>
      have hempty : (DualLedger.empty : DualLedger ℚ).book (.source candidateId) =
          EpisodeBook.empty := by
        unfold DualLedger.book DualLedger.empty
        dsimp only
        rw [ExtTreeMap.getElem?_empty]
        rfl
      rw [hempty]
      exact soundBook_empty

variable {book : EpisodeBook ℚ} {more : CostKind → ℚ} {candidateId : String}
  {edit : PortfolioEpisode ℚ → Except LedgerError (PortfolioEpisode ℚ)} {episodeId : EpisodeId}

theorem soundLedger_portfolio (hsound : SoundLedger charges ledger)
    (hbook : SoundBook (fun kind => charges kind .portfolio + more kind) book)
    (hresidual : ∀ episode ∈ book.closed, episode.attributionResidual = 0) :
    SoundLedger (fun kind name => charges kind name + if name = .portfolio then more kind else 0)
      { ledger with portfolio := book } where
  schema := hsound.schema
  unattributed := hresidual
  books name := by
    cases name with
    | portfolio => exact hbook
    | source candidateId =>
      have hother : ¬ BookName.source candidateId = .portfolio := by simp
      simp only [if_neg hother, add_zero]
      exact hsound.books (.source candidateId)

theorem soundLedger_source (hsound : SoundLedger charges ledger)
    (hbook : SoundBook (fun kind => charges kind (.source candidateId) + more kind) book) :
    SoundLedger
      (fun kind name => charges kind name + if name = .source candidateId then more kind else 0)
      { ledger with sources := ledger.sources.insert candidateId book } where
  schema := hsound.schema
  unattributed := hsound.unattributed
  books name := by
    rw [book_insert_source]
    by_cases hname : name = .source candidateId
    · subst hname
      simpa only [if_true] using hbook
    · simp only [if_neg hname, add_zero]
      exact hsound.books name

omit [Sha256] in
theorem editLastSourceEpisode_eq_ok
    (h : ledger.editLastSourceEpisode candidateId episodeId edit = .ok next) :
    ∃ last edited, (ledger.book (.source candidateId)).closed.getLast? = some last ∧
      edit last = .ok edited ∧
      next = { ledger with
        sources := ledger.sources.insert candidateId
          (editLast (ledger.book (.source candidateId)) edited) } := by
  unfold DualLedger.editLastSourceEpisode at h
  cases hbook : ledger.sources[candidateId]? with
  | none =>
    rw [hbook] at h
    cases h
  | some book =>
    have hname : ledger.book (.source candidateId) = book := by
      unfold DualLedger.book
      dsimp only
      rw [hbook]
      rfl
    simp only [hbook] at h
    rw [hname]
    cases hlast : book.closed.getLast? with
    | none =>
      rw [hlast] at h
      cases h
    | some last =>
      simp only [hlast] at h
      split at h
      · cases h
      obtain ⟨edited, hedited, h⟩ := of_bind h
      rw [pure_eq_ok_iff] at h
      exact ⟨last, edited, rfl, hedited, h.symm⟩

theorem edit_sound (more : CostKind → ℚ) (hsound : SoundLedger charges ledger)
    (hedit : ∀ last edited, NetsOut last → edit last = .ok edited →
      stampOfClosed edited = stampOfClosed last ∧ NetsOut edited ∧
        ∀ kind : CostKind, kind.ofClosed edited = kind.ofClosed last + more kind)
    (h : ledger.editLastSourceEpisode candidateId episodeId edit = .ok next) :
    SoundLedger
      (fun kind name => charges kind name + if name = .source candidateId then more kind else 0)
      next := by
  obtain ⟨last, edited, hlast, hedited, rfl⟩ := editLastSourceEpisode_eq_ok h
  have hbook := hsound.books (.source candidateId)
  have hnets := hbook.nets last (List.mem_of_getLast? hlast)
  obtain ⟨hstamp, hnets', hcosts⟩ := hedit last edited hnets hedited
  exact soundLedger_source hsound (editLast_sound edited more hbook hlast hstamp hnets' hcosts)

theorem call_sound {call : LedgerCall ℚ} (hsound : SoundLedger charges ledger)
    (h : ledger.call call = .ok next) :
    SoundLedger (fun kind name => charges kind name + callCharges bookedCosts kind name call)
      next := by
  cases call with
  | portfolioExecution execution closedAt =>
    obtain ⟨book, hbook, h⟩ := of_bind h
    rw [pure_eq_ok_iff] at h
    subst h
    obtain ⟨happlied, hresidual⟩ := apply_sound (hsound.books .portfolio) hbook
    exact soundLedger_portfolio hsound happlied (hresidual hsound.unattributed)
  | sourceExecution candidateId execution closedAt =>
    obtain ⟨book, hbook, h⟩ := of_bind h
    rw [pure_eq_ok_iff] at h
    subst h
    exact soundLedger_source hsound (apply_sound (hsound.books (.source candidateId)) hbook).1
  | portfolioFunding asset fundingCost =>
    unfold DualLedger.call DualLedger.applyPortfolioFunding at h
    dsimp only at h
    cases hget : ledger.portfolio.opened[asset]? with
    | none =>
      rw [hget] at h
      cases h
    | some episode =>
      simp only [hget, checkedAdd_eq, orOverflow, ok_bind] at h
      cases h
      exact soundLedger_portfolio hsound (fundBook_sound fundingCost (hsound.books .portfolio) hget)
        hsound.unattributed
  | sourceAttributionResidual candidateId episodeId residual =>
    have hedited := edit_sound (fun _ => 0) hsound (fun last edited hnets hedit => by
      have hresult : edited = { last with
          attributionResidual := last.attributionResidual + residual
          netPnl := last.netPnl + residual } := (Except.ok.inj hedit).symm
      subst hresult
      refine ⟨rfl, ?_, fun kind => ?_⟩
      · unfold NetsOut at hnets ⊢
        rw [hnets]
        ring
      · cases kind <;> exact (add_zero _).symm) h
    simpa only [ite_self, callCharges] using hedited
  | sourceEconomicResiduals candidateId episodeId residuals =>
    refine edit_sound (fun kind => kind.ofResiduals residuals) hsound
      (fun last edited _ hedit => ?_) h
    have hresult := (Except.ok.inj hedit).symm
    subst hresult
    refine ⟨rfl, rfl, fun kind => ?_⟩
    cases kind <;> rfl
  | reconcilePortfolioGross asset exchangeRealizedPnl =>
    unfold DualLedger.call DualLedger.reconcileLastPortfolioGrossPnl at h
    dsimp only at h
    cases hlast : ledger.portfolio.closed.getLast? with
    | none =>
      rw [hlast] at h
      cases h
    | some last =>
      simp only [hlast] at h
      split at h
      · cases h
      have hresidual := hsound.unattributed last (List.mem_of_getLast? hlast)
      have hbook := editLast_sound { last with
          realizedPnl := exchangeRealizedPnl
          netPnl := exchangeRealizedPnl - last.fees - last.funding - last.slippage }
        (fun _ => 0) (hsound.books .portfolio) hlast rfl
        (by unfold NetsOut; dsimp only; rw [hresidual, add_zero])
        (fun kind => by cases kind <;> exact (add_zero _).symm)
      have hedited := soundLedger_portfolio hsound hbook (fun episode hepisode => by
        rcases List.mem_append.mp hepisode with hepisode | hepisode
        · exact hsound.unattributed episode (List.dropLast_subset _ hepisode)
        · rw [List.mem_singleton] at hepisode
          rw [hepisode]
          exact hresidual)
      cases h
      simp only [ite_self] at hedited
      exact hedited

theorem run_sound {calls : List (LedgerCall ℚ)} (hsound : SoundLedger charges ledger)
    (h : calls.foldlM DualLedger.call ledger = .ok next) :
    SoundLedger
      (fun kind name => charges kind name + (calls.map (callCharges bookedCosts kind name)).sum)
      next := by
  induction calls generalizing ledger charges with
  | nil =>
    rw [List.foldlM_nil, pure_eq_ok_iff] at h
    subst h
    simpa only [List.map_nil, List.sum_nil, add_zero] using hsound
  | cons call calls ih =>
    obtain ⟨middle, hcall, h⟩ := foldlM_cons_eq_ok_iff.mp h
    have htail := ih (call_sound hsound hcall) h
    simpa only [List.map_cons, List.sum_cons, add_assoc] using htail

/-- **The ledger keeps its integrity.**  After any run of successful calls every book is sound
and charged with the costs of the executions that filled something, the residuals assigned to it
and the funding booked on it. -/
theorem ledger_integrity {calls : List (LedgerCall ℚ)}
    (h : calls.foldlM DualLedger.call DualLedger.empty = .ok ledger) :
    ledger.validateIntegrity = .ok () ∧
      ∀ name, SoundBook (fun kind => (calls.map (callCharges bookedCosts kind name)).sum)
        (ledger.book name) := by
  have hsound := run_sound soundLedger_empty h
  simp only [zero_add] at hsound
  exact ⟨validateIntegrity_of_agrees hsound.schema fun name => (hsound.books name).agrees,
    hsound.books⟩

end

def sampleExecution (side : Side) (quantity price before after fees : ℚ) :
    ShadowExecution ℚ where
  asset := "BTC"
  side := side
  decisionId := Bytes.replicate 32 0
  plannedCloid := Bytes.replicate 16 0
  decisionTimestampMono := 0
  modeledFilledQuantity := quantity
  modeledAverageFillPrice := some price
  fees := fees
  funding := 0
  slippage := 0
  positionBefore := before
  positionAfter := after

/-- Two units are bought, and three sold: the second execution flips the position. -/
def flippingCalls : List (LedgerCall ℚ) :=
  [.portfolioExecution (sampleExecution .buy 2 100 0 2 1) 0,
    .portfolioExecution (sampleExecution .sell 3 110 2 (-1) 3) 1]

theorem ledger_integrity_flippingCalls :
    ∃ (_ : Sha256) (ledger : DualLedger ℚ),
      flippingCalls.foldlM DualLedger.call DualLedger.empty = .ok ledger ∧
        ledger.validateIntegrity = .ok () ∧
        ∀ name, SoundBook
          (fun kind => (flippingCalls.map (callCharges bookedCosts kind name)).sum)
          (ledger.book name) := by
  let sha : Sha256 := ⟨prefixDigest⟩
  have hruns : (flippingCalls.foldlM DualLedger.call DualLedger.empty).isOk = true := by
    decide +kernel
  cases hrun : flippingCalls.foldlM DualLedger.call DualLedger.empty with
  | error e =>
    rw [hrun] at hruns
    cases hruns
  | ok ledger => exact ⟨sha, ledger, hrun, ledger_integrity hrun⟩

/-- An execution that fills nothing has its fee and its funding dropped. -/
theorem idle_fee_not_booked :
    ¬ ∀ [Sha256] (calls : List (LedgerCall ℚ)) (ledger : DualLedger ℚ),
      calls.foldlM DualLedger.call DualLedger.empty = .ok ledger →
        ∀ kind name, bookCosts kind (ledger.book name) =
          (calls.map (callCharges CostKind.ofExecution kind name)).sum := by
  intro h
  let sha : Sha256 := ⟨prefixDigest⟩
  have hrun : ([.portfolioExecution (sampleExecution .buy 0 100 0 0 1) 0] :
      List (LedgerCall ℚ)).foldlM DualLedger.call DualLedger.empty = .ok DualLedger.empty := by
    decide +kernel
  have hcosts := h _ _ hrun .fees .portfolio
  revert hcosts
  decide +kernel

end CopyTrade.Analysis
