import CopyTrade.Analysis.Ledger.EquityIdentity
import CopyTrade.Analysis.Ledger.LiveIntegrity
import CopyTrade.Analysis.Observer.ComponentSplit

/-!
# Component books along a run of shadow fills

In exact arithmetic the component positions add up to that of the portfolio after every fill, but
need not have its sign: the fill is sized at the price of the book it meets, its targets are taken
at the price of the decision.  `components_aligned_iff` says along which runs they stay aligned.
The booking of a fill moves the portfolio by the fill and every component by its share.
-/

namespace CopyTrade.Analysis

open Foundation Model Model.ExactDecimal
open Std (ExtTreeMap)

section

def BooksAgree (ledger : DualLedger ℚ) : Prop :=
  ∀ name, Agrees (ledger.book name)

theorem booksAgree_empty : BooksAgree DualLedger.empty := by
  intro name
  cases name with
  | portfolio => exact agrees_empty
  | source candidateId =>
    have hempty : (DualLedger.empty : DualLedger ℚ).book (.source candidateId) =
        EpisodeBook.empty := by
      unfold DualLedger.book DualLedger.empty
      dsimp only
      rw [ExtTreeMap.getElem?_empty]
      rfl
    rw [hempty]
    exact agrees_empty

def componentPosition (ledger : DualLedger ℚ) (asset component : String) : ℚ :=
  (ledger.book (.source component)).position asset

theorem position_empty (asset : String) :
    (EpisodeBook.empty : EpisodeBook ℚ).position asset = 0 := by
  unfold EpisodeBook.position EpisodeBook.empty
  rw [ExtTreeMap.getElem?_empty, Option.getD_none, zero_eq]

theorem componentPosition_eq (ledger : DualLedger ℚ) (asset component : String) :
    componentPosition ledger asset component =
      (ledger.sources[component]?.getD EpisodeBook.empty).position asset :=
  rfl

theorem getElem?_sourcePositions (ledger : DualLedger ℚ) (asset component : String) :
    (ledger.sourcePositionsForAsset asset)[component]? =
      if componentPosition ledger asset component = 0 then none
      else some (componentPosition ledger asset component) := by
  rw [componentPosition_eq]
  unfold DualLedger.sourcePositionsForAsset
  rw [ExtTreeMap.getElem?_filterMap']
  cases ledger.sources[component]? with
  | none => rw [Option.bind_none, Option.getD_none, if_pos (position_empty asset)]
  | some book =>
    rw [Option.bind_some, Option.getD_some]
    unfold EpisodeBook.position
    cases book.positions[asset]? with
    | none => rw [Option.getD_none, zero_eq, if_pos rfl]; rfl
    | some position =>
      rw [Option.getD_some]
      by_cases hzero : position = 0
      · rw [if_pos hzero]
        exact Option.filter_eq_none_iff.mpr (by
          rintro _ ⟨⟩
          simpa using hzero)
      · rw [if_neg hzero]
        exact Option.filter_eq_some_iff.mpr ⟨rfl, by simpa using hzero⟩

theorem amount_sourcePositions (ledger : DualLedger ℚ) (asset component : String) :
    amount (ledger.sourcePositionsForAsset asset) component =
      componentPosition ledger asset component := by
  unfold amount
  rw [getElem?_sourcePositions]
  split
  · rename_i hzero
    exact hzero.symm
  · rfl

theorem sourcePosition_exact (ledger : DualLedger ℚ) (component asset : String) :
    ledger.sourcePosition component asset = componentPosition ledger asset component := by
  rw [componentPosition_eq]
  unfold DualLedger.sourcePosition
  cases ledger.sources[component]? with
  | none => rw [Option.getD_none, position_empty, Option.bind_none, Option.getD_none, zero_eq]
  | some book => rfl

theorem signedDelta_exact (execution : ShadowExecution ℚ) :
    EpisodeBook.signedDelta execution =
      sideSign execution.side * execution.modeledFilledQuantity := by
  unfold EpisodeBook.signedDelta sideSign
  cases execution.side with
  | buy => exact (one_mul _).symm
  | sell => exact (neg_one_mul _).symm

section

variable [Sha256]

variable {closedAt : ℕ} {execution : IocExecution ℚ}

theorem position_of_apply {book after : EpisodeBook ℚ} {execution : ShadowExecution ℚ}
    (hagrees : Agrees book) (h : book.apply execution closedAt = .ok after) :
    after.position execution.asset = book.position execution.asset +
      sideSign execution.side * execution.modeledFilledQuantity := by
  rw [← signedDelta_exact]
  by_cases hfills : execution.modeledFilledQuantity = 0
  · rw [apply_of_nothing_filled hfills h, signedDelta_exact, hfills, mul_zero, add_zero]
  · obtain ⟨sum, hsum, hposition⟩ :=
      position_apply hagrees ((isZero_eq_false_iff_ne _).mpr hfills) h
    rw [checkedAdd_eq, Option.some.injEq] at hsum
    rw [hposition, if_pos rfl, hsum]
    split
    · rename_i hzero
      rw [zero_eq, (isZero_iff_eq_zero _).mp hzero]
    · rfl

omit [Sha256] in
theorem scaledSourceExecution_spec {source : IocExecution ℚ} {quantity before : ℚ}
    (h : scaledSourceExecution execution quantity before = .ok source) :
    execution.booked.modeledFilledQuantity ≠ 0 ∧
      source.booked = { execution.booked with
        modeledFilledQuantity := quantity
        fees := execution.booked.fees * (quantity / execution.booked.modeledFilledQuantity)
        funding := execution.booked.funding * (quantity / execution.booked.modeledFilledQuantity)
        slippage := execution.booked.slippage * (quantity / execution.booked.modeledFilledQuantity)
        positionBefore := before
        positionAfter := before + sideSign execution.booked.side * quantity } := by
  unfold scaledSourceExecution at h
  by_cases hfilled : execution.booked.modeledFilledQuantity = 0
  · have hnone : Decimal.checkedDiv quantity execution.booked.modeledFilledQuantity = none :=
      if_pos hfilled
    rw [hnone] at h
    cases h
  · refine ⟨hfilled, ?_⟩
    simp only [checkedDiv_eq hfilled, checkedMul_eq, checkedSub_eq, checkedAdd_eq, orArithmetic,
      ok_bind, signedFill_exact, pure_eq_ok_iff] at h
    rw [← h]

theorem bookShare_spec {booked next : DualLedger ℚ × List (SourceEpisode ℚ)} {share : String × ℚ}
    (h : bookShare execution closedAt booked share = .ok next) :
    ∃ source after, scaledSourceExecution execution share.2
        (componentPosition booked.1 execution.booked.asset share.1) = .ok source ∧
      (booked.1.book (.source share.1)).apply source.booked closedAt = .ok after ∧
      next.1 = { booked.1 with sources := booked.1.sources.insert share.1 after } ∧
      next.2 = booked.2 ++ ((newlyClosed after
        (booked.1.book (.source share.1)).closed.length).map
          (SourceEpisode.report share.1)).toList := by
  unfold bookShare at h
  obtain ⟨source, hsource, h⟩ := of_bind h
  obtain ⟨ledger, hledger, h⟩ := of_bind h
  rw [pure_eq_ok_iff] at h
  have hsource := mapError_eq_ok_iff.mp hsource
  rw [sourcePosition_exact] at hsource
  have hledger := mapError_eq_ok_iff.mp hledger
  unfold DualLedger.applySourceExecution at hledger
  obtain ⟨after, hafter, hledger⟩ := of_bind hledger
  rw [pure_eq_ok_iff] at hledger
  refine ⟨source, after, hsource, hafter, by rw [← h, ← hledger], ?_⟩
  have hbook : ledger.book (.source share.1) = after := by
    rw [← hledger, book_insert_source, if_pos rfl]
  rw [← h, hbook]

theorem bookShare_positions {booked next : DualLedger ℚ × List (SourceEpisode ℚ)}
    {share : String × ℚ} (hagree : BooksAgree booked.1)
    (h : bookShare execution closedAt booked share = .ok next) :
    BooksAgree next.1 ∧ next.1.portfolio = booked.1.portfolio ∧
      ∀ component, componentPosition next.1 execution.booked.asset component =
        componentPosition booked.1 execution.booked.asset component +
          sideSign execution.booked.side * if share.1 = component then share.2 else 0 := by
  obtain ⟨source, after, hsource, happly, hledger, -⟩ := bookShare_spec h
  obtain ⟨-, hscaled⟩ := scaledSourceExecution_spec hsource
  rw [hledger]
  refine ⟨fun name => ?_, rfl, fun component => ?_⟩
  · rw [book_insert_source]
    split
    · exact apply_agrees (hagree _) happly
    · exact hagree name
  · unfold componentPosition
    rw [book_insert_source]
    by_cases hsame : share.1 = component
    · subst hsame
      have hposition := position_of_apply (hagree _) happly
      rw [hscaled] at hposition
      rw [if_pos rfl, if_pos rfl]
      exact hposition
    · rw [if_neg (by simpa using Ne.symm hsame), if_neg hsame, mul_zero, add_zero]

theorem bookShares_positions {shares : List (String × ℚ)}
    {booked next : DualLedger ℚ × List (SourceEpisode ℚ)} (hagree : BooksAgree booked.1)
    (h : shares.foldlM (bookShare execution closedAt) booked = .ok next) :
    BooksAgree next.1 ∧ next.1.portfolio = booked.1.portfolio ∧
      ∀ component, componentPosition next.1 execution.booked.asset component =
        componentPosition booked.1 execution.booked.asset component +
          sideSign execution.booked.side *
            (shares.map fun share => if share.1 = component then share.2 else 0).sum := by
  induction shares generalizing booked with
  | nil =>
    rw [List.foldlM_nil, pure_eq_ok_iff] at h
    subst h
    exact ⟨hagree, rfl, fun component => by rw [List.map_nil, List.sum_nil, mul_zero, add_zero]⟩
  | cons share shares ih =>
    obtain ⟨middle, hshare, hrest⟩ := foldlM_cons_eq_ok_iff.mp h
    obtain ⟨hagreeMiddle, hportfolio, hpositions⟩ := bookShare_positions hagree hshare
    obtain ⟨hagreeNext, hportfolioNext, hpositionsNext⟩ := ih hagreeMiddle hrest
    refine ⟨hagreeNext, hportfolioNext.trans hportfolio, fun component => ?_⟩
    rw [hpositionsNext, hpositions, List.map_cons, List.sum_cons]
    ring

/-- **The positions after the booking of a fill.** -/
theorem bookExecution_positions {ledger booked : DualLedger ℚ} {shares : ExtTreeMap String ℚ}
    {closed : Option (PortfolioEpisode ℚ)} {episodes : List (SourceEpisode ℚ)}
    (hagree : BooksAgree ledger)
    (h : bookExecution ledger execution shares closedAt = .ok (booked, closed, episodes)) :
    BooksAgree booked ∧
      booked.portfolioPosition execution.booked.asset =
        ledger.portfolioPosition execution.booked.asset +
          sideSign execution.booked.side * execution.booked.modeledFilledQuantity ∧
      ∀ component, componentPosition booked execution.booked.asset component =
        componentPosition ledger execution.booked.asset component +
          sideSign execution.booked.side * amount shares component := by
  unfold bookExecution at h
  obtain ⟨portfolio, hportfolio, h⟩ := of_bind h
  obtain ⟨⟨last, lastEpisodes⟩, hshares, h⟩ := of_bind h
  rw [pure_eq_ok_iff, Prod.mk.injEq, Prod.mk.injEq] at h
  obtain ⟨rfl, -, -⟩ := h
  have hportfolio := mapError_eq_ok_iff.mp hportfolio
  unfold DualLedger.applyPortfolioExecution at hportfolio
  obtain ⟨after, hafter, hportfolio⟩ := of_bind hportfolio
  rw [pure_eq_ok_iff] at hportfolio
  subst hportfolio
  have hagreePortfolio : BooksAgree { ledger with portfolio := after } := by
    intro name
    cases name with
    | portfolio => exact apply_agrees (hagree .portfolio) hafter
    | source component => exact hagree (.source component)
  obtain ⟨hagreeLast, hsame, hpositions⟩ := bookShares_positions hagreePortfolio hshares
  refine ⟨hagreeLast, ?_, fun component => ?_⟩
  · unfold DualLedger.portfolioPosition
    rw [hsame]
    exact position_of_apply (hagree .portfolio) hafter
  · rw [hpositions, sum_toList_ite]
    rfl

end

/-- Two ledgers with the same positions and the same open episodes. -/
structure SameOpen (ledger next : DualLedger ℚ) : Prop where
  positions : ∀ name, (next.book name).positions = (ledger.book name).positions
  opened : ∀ name, (next.book name).opened = (ledger.book name).opened

theorem SameOpen.refl (ledger : DualLedger ℚ) : SameOpen ledger ledger :=
  ⟨fun _ => rfl, fun _ => rfl⟩

theorem SameOpen.trans {first second third : DualLedger ℚ} (h : SameOpen first second)
    (h' : SameOpen second third) : SameOpen first third :=
  ⟨fun name => (h'.positions name).trans (h.positions name),
    fun name => (h'.opened name).trans (h.opened name)⟩

variable {ledger next : DualLedger ℚ}

theorem SameOpen.agree (h : SameOpen ledger next) (hagree : BooksAgree ledger) :
    BooksAgree next := by
  intro name
  refine ⟨fun asset => ?_, fun asset quantity hget => ?_⟩
  · rw [h.positions, h.opened]
    exact (hagree name).quantity asset
  · rw [h.positions] at hget
    exact (hagree name).nonzero asset quantity hget

theorem SameOpen.componentPosition_eq (h : SameOpen ledger next) (asset component : String) :
    componentPosition next asset component = componentPosition ledger asset component := by
  unfold componentPosition EpisodeBook.position
  rw [h.positions]

theorem SameOpen.portfolioPosition_eq (h : SameOpen ledger next) (asset : String) :
    next.portfolioPosition asset = ledger.portfolioPosition asset := by
  have hpositions : next.portfolio.positions = ledger.portfolio.positions := h.positions .portfolio
  unfold DualLedger.portfolioPosition EpisodeBook.position
  rw [hpositions]

theorem sameOpen_of_edit {candidateId : String} {episodeId : EpisodeId}
    {edit : PortfolioEpisode ℚ → Except LedgerError (PortfolioEpisode ℚ)}
    (h : ledger.editLastSourceEpisode candidateId episodeId edit = .ok next) :
    SameOpen ledger next := by
  obtain ⟨last, edited, -, -, rfl⟩ := editLastSourceEpisode_eq_ok h
  refine ⟨fun name => ?_, fun name => ?_⟩
  all_goals
    rw [book_insert_source]
    split
    · rename_i hname
      rw [hname]
      rfl
    · rfl

theorem correctAnchor_fst (ledger : DualLedger ℚ) (episodes : List (SourceEpisode ℚ))
    (anchor : ℕ × SourceEpisode ℚ) : (correctAnchor ledger episodes anchor).1 = ledger := by
  unfold correctAnchor
  split <;> rfl

theorem sameOpen_of_reconcile {episode : PortfolioEpisode ℚ}
    {episodes reported : List (SourceEpisode ℚ)}
    (h : reconcileEpisode ledger episode episodes = .ok (next, reported)) :
    SameOpen ledger next := by
  unfold reconcileEpisode at h
  obtain ⟨attributed, -, h⟩ := of_bind h
  obtain ⟨residuals, -, h⟩ := of_bind h
  obtain ⟨-, -, h⟩ := of_bind h
  obtain ⟨⟨assigned, assignedEpisodes, assignedFigures⟩, hassigned, h⟩ := of_bind h
  obtain ⟨-, -, h⟩ := of_bind h
  have hfirst : SameOpen ledger assigned := by
    unfold assignEconomicResiduals at hassigned
    split at hassigned
    · cases hassigned
      exact SameOpen.refl ledger
    · split at hassigned
      · cases hassigned
      · obtain ⟨corrected, hcorrected, hassigned⟩ := of_bind hassigned
        rw [pure_eq_ok_iff, Prod.mk.injEq, correctAnchor_fst] at hassigned
        rw [← hassigned.1]
        exact sameOpen_of_edit (mapError_eq_ok_iff.mp hcorrected)
  refine hfirst.trans ?_
  unfold reconcileNet at h
  obtain ⟨net, -, h⟩ := of_bind h
  split at h
  · rw [pure_eq_ok_iff, Prod.mk.injEq] at h
    rw [← h.1]
    exact SameOpen.refl assigned
  obtain ⟨residual, -, h⟩ := of_bind h
  split at h
  · cases h
  split at h
  · cases h
  · obtain ⟨corrected, hcorrected, h⟩ := of_bind h
    obtain ⟨finalNet, -, h⟩ := of_bind h
    split at h
    · rw [pure_eq_ok_iff, Prod.mk.injEq] at h
      have hnext : (correctAnchor corrected assignedEpisodes _).1 = next := h.1
      rw [← hnext, correctAnchor_fst]
      exact sameOpen_of_edit (mapError_eq_ok_iff.mp hcorrected)
    · cases h

end

theorem fillLevels_le {side : Side} {limitPrice remaining filled fillValue : ℚ}
    {levels : List (DepthLevel ℚ)} {result : ℚ × ℚ × ℚ}
    (hlevels : ∀ level ∈ levels, 0 ≤ level.quantity) (hremaining : 0 ≤ remaining)
    (h : fillLevels side limitPrice remaining filled fillValue levels = .ok result) :
    filled ≤ result.1 := by
  induction levels generalizing remaining filled fillValue with
  | nil =>
    rw [fillLevels, Except.ok.injEq] at h
    rw [← h]
  | cons level levels ih =>
    rw [fillLevels] at h
    split at h
    · rw [Except.ok.injEq] at h
      rw [← h]
    · rw [List.forall_mem_cons] at hlevels
      simp only [checkedAdd_eq, checkedMul_eq, checkedSub_eq, orShadowOverflow, ok_bind, min_eq]
        at h
      have hquantity : 0 ≤ min remaining level.quantity := le_min hremaining hlevels.1
      have hrest := ih hlevels.2 (sub_nonneg.mpr (min_le_left remaining level.quantity)) h
      linarith

theorem quantity_pos_of_validateBook {snapshot : ShadowMarketSnapshot ℚ}
    (h : validateBook snapshot = .ok ()) {side : Side} {level : DepthLevel ℚ}
    (hlevel : level ∈ snapshot.executable side) : 0 < level.quantity := by
  unfold validateBook at h
  split at h
  · cases h
  · rename_i hdepth
    rw [Bool.not_eq_true, List.any_eq_false] at hdepth
    have hmem : level ∈ snapshot.bids ++ snapshot.asks := by
      rw [List.mem_append]
      cases side with
      | buy => exact .inr hlevel
      | sell => exact .inl hlevel
    have hpositive := hdepth level hmem
    simp only [Bool.or_eq_true, le_iff_le, zero_eq, not_or, not_le] at hpositive
    exact hpositive.2

structure Executed (ledger : DualLedger ℚ) (attempt : ShadowAttempt ℚ)
    (execution : IocExecution ℚ) : Prop where
  asset : execution.booked.asset = attempt.action.asset
  filled : 0 ≤ execution.booked.modeledFilledQuantity
  after : execution.booked.positionAfter = ledger.portfolioPosition attempt.action.asset +
    sideSign execution.booked.side * execution.booked.modeledFilledQuantity

variable {execution : IocExecution ℚ} {attempt : ShadowAttempt ℚ} {ledger : DualLedger ℚ}

theorem executed_of_shadowIoc {input : ShadowExecutionInput ℚ}
    (h : executeShadowIoc input = .ok execution) :
    execution.booked.asset = input.action.asset ∧ 0 ≤ execution.booked.modeledFilledQuantity ∧
      execution.booked.positionAfter = input.positionBefore +
        sideSign execution.booked.side * execution.booked.modeledFilledQuantity := by
  unfold executeShadowIoc at h
  obtain ⟨⟨⟩, hvalid, h⟩ := of_bind h
  obtain ⟨expected, -, h⟩ := of_bind h
  split at h
  · cases h
  dsimp only at h
  obtain ⟨⟨filled, fillValue, remaining⟩, hfill, h⟩ := of_bind h
  obtain ⟨average, -, h⟩ := of_bind h
  obtain ⟨fees, -, h⟩ := of_bind h
  obtain ⟨slippage, -, h⟩ := of_bind h
  rw [checkedAdd_eq, orShadowOverflow, ok_bind, pure_eq_ok_iff] at h
  unfold ShadowExecutionInput.validate at hvalid
  split at hvalid
  · cases hvalid
  rename_i hinputs
  obtain ⟨⟨⟩, -, hbook⟩ := of_bind hvalid
  simp only [Bool.or_eq_true, le_iff_le, zero_eq, not_or, not_le] at hinputs
  have hfilled := fillLevels_le
    (fun level hlevel => (quantity_pos_of_validateBook hbook hlevel).le) hinputs.1.1.1.le hfill
  rw [zero_eq] at hfilled
  rw [← h]
  refine ⟨rfl, hfilled, ?_⟩
  exact congrArg (input.positionBefore + ·) (signedFill_exact input.action.side filled)

theorem executed_of_attempt {settings : ShadowSettings ℚ} {closedAt : ℕ}
    (h : executeAttempt settings ledger attempt = .ok (some (execution, closedAt))) :
    Executed ledger attempt execution := by
  unfold executeAttempt at h
  split at h
  · cases h
  obtain ⟨order, -, h⟩ := of_bind h
  cases order with
  | none => cases h
  | some order =>
    obtain ⟨evaluation, order⟩ := order
    obtain ⟨executed, hexecuted, h⟩ := of_bind h
    rw [pure_eq_ok_iff, Option.some.injEq] at h
    subst h
    unfold executeOrder at hexecuted
    obtain ⟨shadow, hshadow, hexecuted⟩ := of_bind hexecuted
    obtain ⟨bookedAt, -, hexecuted⟩ := of_bind hexecuted
    rw [pure_eq_ok_iff, Prod.mk.injEq] at hexecuted
    obtain ⟨rfl, -⟩ := hexecuted
    obtain ⟨hasset, hfilled, hafter⟩ := executed_of_shadowIoc (mapError_eq_ok_iff.mp hshadow)
    exact ⟨hasset, hfilled, hafter⟩

theorem tryExecutePending_eq_ok [Sha256] {settings : ShadowSettings ℚ} {report : ShadowFillReport ℚ}
    (h : tryExecutePending settings ledger attempt = .ok (some report)) :
    ∃ targets execution closedAt partition, attempt.componentTargets = .ok targets ∧
      executeAttempt settings ledger attempt = .ok (some (execution, closedAt)) ∧
      splitExecution ledger attempt targets execution = .ok partition ∧
      settleExecution ledger attempt execution closedAt partition = .ok report := by
  unfold tryExecutePending at h
  obtain ⟨targets, htargets, h⟩ := of_bind h
  obtain ⟨executed, hexecuted, h⟩ := of_bind h
  cases executed with
  | none => cases h
  | some executed =>
    obtain ⟨execution, closedAt⟩ := executed
    obtain ⟨partition, hpartition, h⟩ := of_bind h
    obtain ⟨settled, hsettled, h⟩ := of_bind h
    rw [pure_eq_ok_iff, Option.some.injEq] at h
    subst h
    exact ⟨targets, execution, closedAt, partition, mapError_eq_ok_iff.mp htargets,
      mapError_eq_ok_iff.mp hexecuted, mapError_eq_ok_iff.mp hpartition, hsettled⟩

/-- The positions of the books before and after an execution with the given shares. -/
structure MovesPositions (ledger next : DualLedger ℚ) (execution : ShadowExecution ℚ)
    (shares : ExtTreeMap String ℚ) : Prop where
  agree : BooksAgree next
  portfolio : next.portfolioPosition execution.asset =
    ledger.portfolioPosition execution.asset +
      sideSign execution.side * execution.modeledFilledQuantity
  components : ∀ component, componentPosition next execution.asset component =
    componentPosition ledger execution.asset component +
      sideSign execution.side * amount shares component

theorem settleExecution_positions [Sha256] {closedAt : ℕ} {partition : ComponentFillPartition ℚ}
    {report : ShadowFillReport ℚ} (hagree : BooksAgree ledger)
    (h : settleExecution ledger attempt execution closedAt partition = .ok report) :
    MovesPositions ledger report.ledger execution.booked partition.totalQuantities := by
  unfold settleExecution at h
  obtain ⟨⟨booked, closed, episodes⟩, hbooked, h⟩ := of_bind h
  obtain ⟨⟨reconciled, reported⟩, hreconciled, h⟩ := of_bind h
  obtain ⟨-, -, h⟩ := of_bind h
  rw [pure_eq_ok_iff] at h
  obtain ⟨hagreeBooked, hportfolio, hcomponents⟩ := bookExecution_positions hagree hbooked
  have hsame : SameOpen booked reconciled := by
    cases closed with
    | none =>
      rw [pure_eq_ok_iff, Prod.mk.injEq] at hreconciled
      rw [← hreconciled.1]
      exact SameOpen.refl booked
    | some episode => exact sameOpen_of_reconcile hreconciled
  rw [← h]
  refine ⟨hsame.agree hagreeBooked, ?_, fun component => ?_⟩
  · rw [hsame.portfolioPosition_eq, hportfolio]
  · rw [hsame.componentPosition_eq, hcomponents]

theorem MovesPositions.sum {next : DualLedger ℚ} {execution : ShadowExecution ℚ}
    {shares : ExtTreeMap String ℚ} (hmoves : MovesPositions ledger next execution shares)
    (hshares : sumOf shares = execution.modeledFilledQuantity)
    (hsum : sumOf (ledger.sourcePositionsForAsset execution.asset) =
      ledger.portfolioPosition execution.asset) :
    sumOf (next.sourcePositionsForAsset execution.asset) =
      next.portfolioPosition execution.asset := by
  have hamounts : ∀ component,
      amount (next.sourcePositionsForAsset execution.asset) component =
        amount (ledger.sourcePositionsForAsset execution.asset) component +
          sideSign execution.side * amount shares component := by
    intro component
    rw [amount_sourcePositions, amount_sourcePositions, hmoves.components]
  rw [sumOf_of_amounts hamounts, hsum, hshares, hmoves.portfolio]

theorem sourcePositions_nonzero {asset component : String} {position : ℚ}
    (hget : (ledger.sourcePositionsForAsset asset)[component]? = some position) : position ≠ 0 := by
  rw [getElem?_sourcePositions] at hget
  split at hget
  · cases hget
  · rename_i hnonzero
    cases hget
    exact hnonzero

section

variable [Sha256] {settings : ShadowSettings ℚ}

def BooksAligned (asset : String) (run : ShadowRun ℚ) : Prop :=
  AlignedPositions (run.ledger.sourcePositionsForAsset asset) (run.ledger.portfolioPosition asset)

/-- What an attempt fills on a run that has not ended: the component targets of its decision and
the execution. -/
def Fills (settings : ShadowSettings ℚ) (run : ShadowRun ℚ) (attempt : ShadowAttempt ℚ)
    (targets : ExtTreeMap String ℚ) (execution : ShadowExecution ℚ) : Prop :=
  run.stopped = none ∧ attempt.componentTargets = .ok targets ∧
    (∃ ioc closedAt, executeAttempt settings run.ledger attempt = .ok (some (ioc, closedAt)) ∧
      ioc.booked = execution) ∧
    execution.modeledFilledQuantity ≠ 0

/-- The fill of an attempt is split, and the partition is sound. -/
def SplitsSoundly (settings : ShadowSettings ℚ) (run : ShadowRun ℚ)
    (attempt : ShadowAttempt ℚ) : Prop :=
  ∀ targets execution, Fills settings run attempt targets execution →
    ∃ partition, partitionComponentFill
        (run.ledger.sourcePositionsForAsset attempt.action.asset) execution.side
        execution.modeledFilledQuantity targets attempt.rules.markPrice execution.positionAfter
        attempt.rules.sizeStep = .ok partition ∧
      SoundPartition (run.ledger.sourcePositionsForAsset attempt.action.asset) execution.side
        execution.modeledFilledQuantity attempt.rules.sizeStep execution.positionAfter partition

/-- The fill of an attempt meets `SplitAligns`: a condition on the fill, the component targets,
the price of the decision and the positions before the fill. -/
def KeepsAligned (settings : ShadowSettings ℚ) (run : ShadowRun ℚ)
    (attempt : ShadowAttempt ℚ) : Prop :=
  ∀ targets execution, Fills settings run attempt targets execution →
    SplitAligns (run.ledger.sourcePositionsForAsset attempt.action.asset) execution.side
      execution.modeledFilledQuantity targets attempt.rules.markPrice
      (run.ledger.portfolioPosition attempt.action.asset)

variable {attempt : ShadowAttempt ℚ} {run : ShadowRun ℚ}

omit [Sha256] in
theorem Fills.executed {targets : ExtTreeMap String ℚ} {execution : ShadowExecution ℚ}
    (h : Fills settings run attempt targets execution) :
    execution.asset = attempt.action.asset ∧ 0 < execution.modeledFilledQuantity ∧
      execution.positionAfter = run.ledger.portfolioPosition attempt.action.asset +
        sideSign execution.side * execution.modeledFilledQuantity := by
  obtain ⟨-, -, ⟨ioc, closedAt, hexecuted, rfl⟩, hnonzero⟩ := h
  have hioc := executed_of_attempt hexecuted
  exact ⟨hioc.asset, lt_of_le_of_ne hioc.filled (Ne.symm hnonzero), hioc.after⟩

omit [Sha256] in
theorem splitsSoundly_iff (haligned : BooksAligned attempt.action.asset run) :
    SplitsSoundly settings run attempt ↔ KeepsAligned settings run attempt := by
  refine forall_congr' fun targets => forall_congr' fun execution => ?_
  refine forall_congr' fun hfills => ?_
  obtain ⟨-, hpositive, hafter⟩ := hfills.executed
  rw [hafter]
  exact partition_sound_iff haligned hpositive
    (by simpa using attempt.rules.markPrice_pos) (by simpa using attempt.rules.sizeStep_pos)

theorem step_cases (run : ShadowRun ℚ) (attempt : ShadowAttempt ℚ) :
    (ShadowRun.step settings run attempt).ledger = run.ledger ∨
      ∃ report, run.stopped = none ∧
        tryExecutePending settings run.ledger attempt = .ok (some report) ∧
        (ShadowRun.step settings run attempt).ledger = report.ledger := by
  unfold ShadowRun.step
  cases hstopped : run.stopped with
  | some error => exact .inl rfl
  | none =>
    cases hresult : tryExecutePending settings run.ledger attempt with
    | error error => exact .inl rfl
    | ok executed =>
      cases executed with
      | none => exact .inl rfl
      | some report => exact .inr ⟨report, rfl, rfl, rfl⟩

theorem booksAgree_step (attempt : ShadowAttempt ℚ) (hagree : BooksAgree run.ledger) :
    BooksAgree (ShadowRun.step settings run attempt).ledger := by
  obtain hsame | ⟨report, -, hreport, hledger⟩ := step_cases run attempt
  · rw [hsame]
    exact hagree
  · obtain ⟨targets, execution, closedAt, partition, -, -, -, hsettled⟩ :=
      tryExecutePending_eq_ok hreport
    rw [hledger]
    exact (settleExecution_positions hagree hsettled).agree

omit [Sha256] in
theorem splitExecution_eq (ledger : DualLedger ℚ) (targets : ExtTreeMap String ℚ)
    {execution : IocExecution ℚ} (hexecuted : Executed ledger attempt execution) :
    splitExecution ledger attempt targets execution =
      partitionComponentFill (ledger.sourcePositionsForAsset attempt.action.asset)
        execution.booked.side execution.booked.modeledFilledQuantity targets
        attempt.rules.markPrice (ledger.portfolioPosition attempt.action.asset +
          sideSign execution.booked.side * execution.booked.modeledFilledQuantity)
        attempt.rules.sizeStep := by
  unfold splitExecution
  rw [hexecuted.after]

omit [Sha256] in
theorem partition_of_nothing {positions targets : ExtTreeMap String ℚ} {side : Side}
    {price portfolioAfter sizeStep : ℚ} {partition : ComponentFillPartition ℚ}
    (h : partitionComponentFill positions side 0 targets price portfolioAfter sizeStep =
      .ok partition) : partition.totalQuantities = ∅ := by
  unfold partitionComponentFill at h
  rw [if_pos ((isZero_iff_eq_zero 0).mpr rfl), Except.ok.injEq] at h
  rw [← h]

theorem booksAligned_step (hagree : BooksAgree run.ledger)
    (haligned : BooksAligned attempt.action.asset run) (hsound : SplitsSoundly settings run attempt)
    :
    BooksAligned attempt.action.asset (ShadowRun.step settings run attempt) := by
  obtain hsame | ⟨report, hrunning, hreport, hledger⟩ := step_cases run attempt
  · unfold BooksAligned
    rw [hsame]
    exact haligned
  obtain ⟨targets, execution, closedAt, partition, htargets, hexecution, hpartition, hsettled⟩ :=
    tryExecutePending_eq_ok hreport
  have hexecuted := executed_of_attempt hexecution
  have hmoves := settleExecution_positions hagree hsettled
  rw [splitExecution_eq run.ledger targets hexecuted] at hpartition
  have hshares := partition_total haligned.sum
    (fun component position => sourcePositions_nonzero) hpartition
  have hasset := hexecuted.asset
  unfold BooksAligned
  rw [hledger, ← hasset]
  rw [← hasset] at hpartition
  unfold BooksAligned at haligned
  rw [← hasset] at haligned
  refine ⟨hmoves.sum hshares haligned.sum, fun component position hget => ?_⟩
  have hnonzero := sourcePositions_nonzero hget
  have hposition : position = componentPosition run.ledger execution.booked.asset component +
      sideSign execution.booked.side * amount partition.totalQuantities component := by
    rw [← hmoves.components, ← amount_sourcePositions, amount_of_getElem? hget]
  by_cases hfilled : execution.booked.modeledFilledQuantity = 0
  · -- Nothing is filled, and every position stays what it was.
    rw [hfilled] at hpartition
    rw [partition_of_nothing hpartition] at hposition
    have hkept : position = componentPosition run.ledger execution.booked.asset component := by
      rw [hposition, amount_of_getElem?_eq_none ExtTreeMap.getElem?_empty, mul_zero, add_zero]
    rw [hmoves.portfolio, hfilled, mul_zero, add_zero]
    refine haligned.sided component position ?_
    rw [getElem?_sourcePositions, ← hkept, if_neg hnonzero]
  · obtain ⟨split, hsplit, hpartitionSound⟩ := hsound targets execution.booked
      ⟨hrunning, htargets, ⟨execution, closedAt, hexecution, rfl⟩, hfilled⟩
    rw [hexecuted.after, ← hasset, hpartition, Except.ok.injEq] at hsplit
    rw [← hsplit, hexecuted.after, ← hasset] at hpartitionSound
    rw [hmoves.portfolio]
    obtain hzero | hsided := hpartitionSound.aligned component
    · unfold positionAfter at hzero
      rw [amount_sourcePositions, ← hposition] at hzero
      exact absurd hzero hnonzero
    · unfold positionAfter at hsided
      rw [amount_sourcePositions, ← hposition] at hsided
      exact hsided

omit [Sha256] in
theorem booksAligned_start (asset : String) : BooksAligned asset (ShadowRun.start : ShadowRun ℚ) := by
  have hempty : (DualLedger.empty : DualLedger ℚ).sourcePositionsForAsset asset = ∅ := by
    apply ExtTreeMap.ext_getElem?
    intro component
    unfold DualLedger.sourcePositionsForAsset DualLedger.empty
    rw [ExtTreeMap.getElem?_filterMap', ExtTreeMap.getElem?_empty, ExtTreeMap.getElem?_empty]
    rfl
  have hflat : (DualLedger.empty : DualLedger ℚ).portfolioPosition asset = 0 :=
    position_empty asset
  unfold BooksAligned ShadowRun.start
  rw [hempty, hflat]
  refine ⟨sumOf_empty, fun component position hget => ?_⟩
  rw [ExtTreeMap.getElem?_empty] at hget
  cases hget

/-- **Aligned component books.**  Along a run of attempts on one asset every fill is split
soundly and the components stay aligned exactly when every fill meets `SplitAligns`. -/
theorem components_aligned_iff {asset : String} {attempts : List (ShadowAttempt ℚ)}
    (hasset : ∀ attempt ∈ attempts, attempt.action.asset = asset) :
    (AllSteps (ShadowRun.step settings) (SplitsSoundly settings) ShadowRun.start attempts ∧
        ∀ run ∈ states (ShadowRun.step settings) ShadowRun.start attempts,
          AlignedPositions (run.ledger.sourcePositionsForAsset asset)
            (run.ledger.portfolioPosition asset)) ↔
      AllSteps (ShadowRun.step settings) (KeepsAligned settings) ShadowRun.start attempts := by
  refine allSteps_and_states_iff (I := fun run : ShadowRun ℚ => BooksAgree run.ledger)
    (P := BooksAligned asset) (L := fun attempt => attempt.action.asset = asset)
    ?_ ?_ ?_ booksAgree_empty (booksAligned_start asset) hasset
  · intro run attempt hagree _
    exact booksAgree_step attempt hagree
  · rintro run attempt - haligned rfl
    exact splitsSoundly_iff haligned
  · rintro run attempt hagree haligned rfl hsound
    exact booksAligned_step hagree haligned hsound

end

/-- The settings of an observer whose orders are worth ten at least. -/
def sampleShadowSettings : ShadowSettings ℚ where
  latencyTimeoutMs := 100
  slippageBuffer := 1 / 1000
  maximumSlippage := 1 / 100
  minOrderNotional := 10
  orderRoundingBuffer := 1 / 5
  closeabilityMargin := 1 / 2
  takerFeeRate := 45 / 100000
  ledgerTimeOffset := 0

def sampleBook (price : ℚ) : OrderBookResponse ℚ where
  asset := "BTC"
  bids := [⟨price - 1 / 10, 1000⟩]
  asks := [⟨price + 1 / 10, 1000⟩]

theorem hundred_positive : Decimal.lt Decimal.zero (100 : ℚ) = true := by decide +kernel

def sampleRules (price : ℚ) (hprice : Decimal.lt Decimal.zero price = true) :
    AcceptedRules ℚ where
  markPrice := price
  priceTick := 1 / 10
  sizeStep := 1 / 1000
  markPrice_pos := hprice
  priceTick_pos := by decide +kernel
  sizeStep_pos := by decide +kernel

def sampleAttempt (side : Side) (notional : ℚ) (reduceOnly : Bool)
    (contributions : List (String × ℚ)) (target : ℚ) (rules : AcceptedRules ℚ) (bookPrice : ℚ)
    (decidedAt : ℕ) : ShadowAttempt ℚ where
  action := ⟨Bytes.replicate 32 0, 0, "BTC", side, notional, reduceOnly, 0, 0,
    Bytes.replicate 16 0⟩
  decisionBook := ⟨decidedAt, rules.markPrice, (sampleBook rules.markPrice).bids,
    (sampleBook rules.markPrice).asks⟩
  contributions := some (ExtTreeMap.ofList contributions compare)
  constrainedTarget := target
  rules := rules
  book := sampleBook bookPrice
  receivedAt := decidedAt + 100
  admittedTarget := target
  accruedFunding := 0

/-- Two components are opened, one of them leaves while the price doubles, and the other one
leaves after it. -/
def doubledPrice : List (ShadowAttempt ℚ) :=
  let rules := sampleRules 100 hundred_positive
  [sampleAttempt .buy 1000 false [("A", 2 / 5), ("B", 3 / 5)] 1000 rules 100 0,
    sampleAttempt .sell 600 true [("A", 2 / 5)] 400 rules 200 1000,
    sampleAttempt .sell 600 true [] 0 rules 200 2000]

theorem components_aligned_iff_doubledPrice :
    ∃ (_ : Sha256),
      ((AllSteps (ShadowRun.step sampleShadowSettings) (SplitsSoundly sampleShadowSettings)
            ShadowRun.start doubledPrice ∧
          ∀ run ∈ states (ShadowRun.step sampleShadowSettings) ShadowRun.start doubledPrice,
            AlignedPositions (run.ledger.sourcePositionsForAsset "BTC")
              (run.ledger.portfolioPosition "BTC")) ↔
        AllSteps (ShadowRun.step sampleShadowSettings) (KeepsAligned sampleShadowSettings)
          ShadowRun.start doubledPrice) := by
  let sha : Sha256 := ⟨prefixDigest⟩
  exact ⟨sha, components_aligned_iff (by decide)⟩

/-- After the second fill one component is short in a long portfolio. -/
theorem components_not_aligned :
    ¬ ∀ [Sha256] (settings : ShadowSettings ℚ) (asset : String)
        (attempts : List (ShadowAttempt ℚ)),
      (∀ attempt ∈ attempts, attempt.action.asset = asset) →
      AllSteps (ShadowRun.step settings) (SplitsSoundly settings) ShadowRun.start attempts ∧
        ∀ run ∈ states (ShadowRun.step settings) ShadowRun.start attempts,
          AlignedPositions (run.ledger.sourcePositionsForAsset asset)
            (run.ledger.portfolioPosition asset) := by
  intro h
  let sha : Sha256 := ⟨prefixDigest⟩
  obtain ⟨-, haligned⟩ := h sampleShadowSettings "BTC" (doubledPrice.take 2) (by decide)
  have hlast := haligned _ (run_mem_states _ _)
  have hpositions : ((run (ShadowRun.step sampleShadowSettings) ShadowRun.start
        (doubledPrice.take 2)).ledger.sourcePositionsForAsset "BTC")["B"]? = some (-2) ∧
      (run (ShadowRun.step sampleShadowSettings) ShadowRun.start
        (doubledPrice.take 2)).ledger.portfolioPosition "BTC" = 2 := by
    decide +kernel
  have hsided := hlast.sided "B" (-2) hpositions.1
  rw [hpositions.2] at hsided
  norm_num at hsided

end CopyTrade.Analysis
