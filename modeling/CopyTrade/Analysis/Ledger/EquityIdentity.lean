import CopyTrade.Analysis.Ledger.LedgerIntegrity

/-!
# The equity a book reports

The equity of an account is its start and what it gained, less all costs.  A book leaves out of it
what partial closings have realized until the episode closes, and the costs of executions that
filled nothing; `equity_identity_iff` shows that it leaves out nothing else.
-/

namespace CopyTrade.Analysis

open Foundation Model Model.ExactDecimal
open Std (ExtTreeMap)

def onExecution (f : ShadowExecution ℚ → ℚ) (name : BookName) : LedgerCall ℚ → ℚ
  | .portfolioExecution execution _ => if name = .portfolio then f execution else 0
  | .sourceExecution candidateId execution _ =>
    if name = .source candidateId then f execution else 0
  | _ => 0

def bookedFunding (name : BookName) : LedgerCall ℚ → ℚ
  | .portfolioFunding _ fundingCost => if name = .portfolio then fundingCost else 0
  | _ => 0

def tradedValue (execution : ShadowExecution ℚ) : ℚ :=
  EpisodeBook.signedDelta execution * execution.modeledAverageFillPrice.getD 0

def executionCosts (execution : ShadowExecution ℚ) : ℚ :=
  execution.fees + execution.funding + execution.slippage

def idleCosts (execution : ShadowExecution ℚ) : ℚ :=
  if execution.modeledFilledQuantity = 0 then executionCosts execution else 0

def isBooking : LedgerCall ℚ → Bool
  | .portfolioExecution _ _ | .sourceExecution _ _ _ | .portfolioFunding _ _ => true
  | _ => false

def markedValue (positions marks : ExtTreeMap String ℚ) : ℚ :=
  total (fun asset position => position * marks[asset]?.getD 0) positions

def accountEquity (calls : List (LedgerCall ℚ)) (name : BookName) (startingEquity : ℚ)
    (positions marks : ExtTreeMap String ℚ) : ℚ :=
  startingEquity - (calls.map (onExecution tradedValue name)).sum + markedValue positions marks -
    (calls.map (onExecution executionCosts name)).sum - (calls.map (bookedFunding name)).sum

def MarksOpen (marks : ExtTreeMap String ℚ) (book : EpisodeBook ℚ) : Prop :=
  ∀ (asset : String) (episode : OpenEpisode ℚ),
    book.opened[asset]? = some episode → ∃ mark, marks[asset]? = some mark

instance (marks : ExtTreeMap String ℚ) (book : EpisodeBook ℚ) :
    Decidable (MarksOpen marks book) :=
  decidable_of_iff (∀ entry ∈ book.opened.toList, marks[entry.1]?.isSome = true) <| by
    simp only [Option.isSome_iff_exists, Prod.forall, ExtTreeMap.mem_toList_iff_getElem?_eq_some]
    rfl

/-- The result that closings have realized on episodes that are still open. -/
def openRealized (book : EpisodeBook ℚ) : ℚ :=
  total (fun _ episode => episode.realizedPnl) book.opened

def openContribution (marks : ExtTreeMap String ℚ) (asset : String) (episode : OpenEpisode ℚ) :
    ℚ :=
  episode.signedQuantity * (marks[asset]?.getD 0 - episode.averageEntryPrice) - episode.fees -
    episode.funding - episode.slippage

theorem unrealized_exact (operation : String) (episode : OpenEpisode ℚ) (mark : ℚ) :
    EpisodeBook.unrealized operation episode mark =
      .ok (episode.signedQuantity * (mark - episode.averageEntryPrice)) := by
  unfold EpisodeBook.unrealized
  by_cases hsign : 0 ≤ episode.signedQuantity
  · rw [if_pos ((isSignPositive_iff_nonneg _).mpr hsign), abs_eq, abs_of_nonneg hsign]
    simp only [checkedSub_eq, orOverflow, ok_bind, checkedMul_eq]
    rw [mul_comm]
  · rw [if_neg (mt (isSignPositive_iff_nonneg _).mp hsign), abs_eq,
      abs_of_neg (not_le.mp hsign)]
    simp only [checkedSub_eq, orOverflow, ok_bind, checkedMul_eq]
    congr 1
    ring

theorem addOpen_exact (unrealizedText openText : String) {marks : ExtTreeMap String ℚ}
    {asset : String} {mark : ℚ} (hmark : marks[asset]? = some mark) (equity : ℚ)
    (episode : OpenEpisode ℚ) :
    EpisodeBook.addOpen unrealizedText openText marks equity (asset, episode) =
      .ok (equity + openContribution marks asset episode) := by
  unfold EpisodeBook.addOpen openContribution
  simp only [hmark, unrealized_exact, ok_bind, Option.getD_some]
  simp only [checkedAdd_eq, checkedSub_eq, Option.bind_eq_bind, Option.bind_some, orOverflow]
  congr 1
  ring

/-- The reported equity: closed episodes count with their net result, open ones with the result
of what is still open. -/
theorem equityWith_exact (closedText unrealizedText openText : String) {book : EpisodeBook ℚ}
    {marks : ExtTreeMap String ℚ} (hmarks : MarksOpen marks book) (startingEquity : ℚ) :
    book.equityWith closedText unrealizedText openText startingEquity marks =
      .ok (startingEquity + (book.closed.map PortfolioEpisode.netPnl).sum +
        total (openContribution marks) book.opened) := by
  have hclosed : ∀ (episodes : List (PortfolioEpisode ℚ)) (equity : ℚ),
      episodes.foldlM (fun equity episode =>
        orOverflow closedText (Decimal.checkedAdd equity episode.netPnl)) equity =
        .ok (equity + (episodes.map PortfolioEpisode.netPnl).sum) := by
    intro episodes
    induction episodes with
    | nil =>
      intro equity
      simp [pure, Except.pure]
    | cons episode episodes ih =>
      intro equity
      rw [List.foldlM_cons, checkedAdd_eq, orOverflow, ok_bind, ih, List.map_cons, List.sum_cons,
        add_assoc]
  have hopened : ∀ (entries : List (String × OpenEpisode ℚ)) (equity : ℚ),
      (∀ entry ∈ entries, ∃ mark, marks[entry.1]? = some mark) →
      entries.foldlM (EpisodeBook.addOpen unrealizedText openText marks) equity =
        .ok (equity + (entries.map fun entry => openContribution marks entry.1 entry.2).sum) := by
    intro entries
    induction entries with
    | nil =>
      intro equity _
      simp [pure, Except.pure]
    | cons entry entries ih =>
      intro equity hentries
      obtain ⟨mark, hmark⟩ := hentries entry List.mem_cons_self
      rw [List.foldlM_cons, addOpen_exact unrealizedText openText hmark, ok_bind,
        ih _ (fun other hother => hentries other (List.mem_cons_of_mem _ hother)), List.map_cons,
        List.sum_cons, add_assoc]
  unfold EpisodeBook.equityWith
  rw [hclosed, ok_bind, hopened]
  · rfl
  · rintro ⟨asset, episode⟩ hentry
    exact hmarks asset episode (ExtTreeMap.mem_toList_iff_getElem?_eq_some.mp hentry)

/-- The reported equity is the cash, the marked position and the costs of the book, less the
result realized on open episodes. -/
theorem reported_equity {book : EpisodeBook ℚ} {marks : ExtTreeMap String ℚ}
    (hagrees : Agrees book) (hnets : ∀ episode ∈ book.closed, NetsOut episode)
    (hresidual : ∀ episode ∈ book.closed, episode.attributionResidual = 0) :
    (book.closed.map PortfolioEpisode.netPnl).sum + total (openContribution marks) book.opened =
      bookCash book + markedValue book.positions marks -
        (bookCosts .fees book + bookCosts .funding book + bookCosts .slippage book) -
        openRealized book := by
  have hclosed : (book.closed.map PortfolioEpisode.netPnl).sum +
      ((book.closed.map PortfolioEpisode.fees).sum + (book.closed.map PortfolioEpisode.funding).sum +
        (book.closed.map PortfolioEpisode.slippage).sum) =
      (book.closed.map PortfolioEpisode.realizedPnl).sum := by
    rw [← List.sum_map_add, ← List.sum_map_add, ← List.sum_map_add]
    refine congrArg List.sum (List.map_congr_left fun episode hepisode => ?_)
    have hnet := hnets episode hepisode
    unfold NetsOut at hnet
    rw [hnet, hresidual episode hepisode]
    ring
  have hopened : total (openContribution marks) book.opened +
      (total (fun _ episode => episode.fees) book.opened +
        total (fun _ episode => episode.funding) book.opened +
        total (fun _ episode => episode.slippage) book.opened) + openRealized book =
      total (fun _ episode => (lotOf episode).cash) book.opened +
        markedValue book.positions marks := by
    have hmarked : markedValue book.positions marks =
        total (fun asset episode => OpenEpisode.signedQuantity episode * marks[asset]?.getD 0)
          book.opened :=
      (total_eq_total_of_getElem? _ OpenEpisode.signedQuantity _ hagrees.quantity
        (fun _ _ _ => rfl)).symm
    unfold openRealized
    rw [hmarked, ← total_add, ← total_add, ← total_add, ← total_add, ← total_add]
    refine total_congr fun asset episode _ => ?_
    unfold openContribution lotOf Lot.cash
    ring
  unfold bookCash bookCosts bookTotal CostKind.ofOpen CostKind.ofClosed
  linarith

/-- What holds of the books after a run of calls that booked the given trades. -/
structure BookedLedger [Sha256] (charges : CostKind → BookName → ℚ) (traded : BookName → ℚ)
    (ledger : DualLedger ℚ) : Prop where
  sound : SoundLedger charges ledger
  cash : ∀ name, bookCash (ledger.book name) = -traded name
  unattributed : ∀ name, ∀ episode ∈ (ledger.book name).closed, episode.attributionResidual = 0

section

variable [Sha256] {ledger next : DualLedger ℚ} {charges : CostKind → BookName → ℚ}
  {traded : BookName → ℚ}

theorem bookCash_apply {book after : EpisodeBook ℚ} {execution : ShadowExecution ℚ}
    {closedAt : ℕ} (hagrees : Agrees book) (h : book.apply execution closedAt = .ok after) :
    bookCash after = bookCash book - tradedValue execution := by
  unfold tradedValue
  by_cases hfills : execution.modeledFilledQuantity = 0
  · have hdelta : EpisodeBook.signedDelta execution = 0 := by
      unfold EpisodeBook.signedDelta
      rw [hfills]
      cases execution.side <;> rfl
    rw [apply_of_nothing_filled hfills h, hdelta, zero_mul, sub_zero]
  · obtain ⟨price, kept, settled, hto⟩ := apply_effect hagrees hfills h
    have hdelta := (isZero_eq_false_iff_ne _).mp
      (signedDelta_nonzero ((isZero_eq_false_iff_ne _).mpr hfills))
    rw [bookCash_fillsTo hdelta hto, hto.paid, Option.getD_some]
    ring

theorem call_on_book {call : LedgerCall ℚ} (hcall : isBooking call = true)
    (h : ledger.call call = .ok next) (name : BookName) :
    (next.book name = ledger.book name ∧ ∀ f, onExecution f name call = 0) ∨
      (∃ execution closedAt, (ledger.book name).apply execution closedAt = .ok (next.book name) ∧
        ∀ f, onExecution f name call = f execution) ∨
      ∃ (asset : String) (episode : OpenEpisode ℚ) (cost : ℚ),
        (ledger.book name).opened[asset]? = some episode ∧
          next.book name = fundBook (ledger.book name) asset episode cost ∧
          ∀ f, onExecution f name call = 0 := by
  have hportfolio : ∀ book : EpisodeBook ℚ, name ≠ .portfolio →
      ({ ledger with portfolio := book } : DualLedger ℚ).book name = ledger.book name := by
    intro book hname
    cases name with
    | portfolio => exact absurd rfl hname
    | source candidateId => rfl
  cases call with
  | sourceAttributionResidual => cases hcall
  | sourceEconomicResiduals => cases hcall
  | reconcilePortfolioGross => cases hcall
  | portfolioExecution execution closedAt =>
    obtain ⟨book, hbook, h⟩ := of_bind h
    rw [pure_eq_ok_iff] at h
    subst h
    by_cases hname : name = .portfolio
    · subst hname
      exact .inr (.inl ⟨execution, closedAt, hbook, fun f => rfl⟩)
    · exact .inl ⟨hportfolio book hname, fun f => if_neg hname⟩
  | sourceExecution candidateId execution closedAt =>
    obtain ⟨book, hbook, h⟩ := of_bind h
    rw [pure_eq_ok_iff] at h
    subst h
    by_cases hname : name = .source candidateId
    · subst hname
      refine .inr (.inl ⟨execution, closedAt, ?_, fun f => if_pos rfl⟩)
      rw [book_insert_source, if_pos rfl]
      exact hbook
    · refine .inl ⟨?_, fun f => if_neg hname⟩
      rw [book_insert_source, if_neg hname]
  | portfolioFunding asset fundingCost =>
    unfold DualLedger.call DualLedger.applyPortfolioFunding at h
    dsimp only at h
    cases hget : ledger.portfolio.opened[asset]? with
    | none =>
      rw [hget] at h
      cases h
    | some episode =>
      simp only [hget, checkedAdd_eq, orOverflow, ok_bind] at h
      cases h
      by_cases hname : name = .portfolio
      · subst hname
        exact .inr (.inr ⟨asset, episode, fundingCost, hget, rfl, fun f => rfl⟩)
      · exact .inl ⟨hportfolio _ hname, fun f => rfl⟩

omit [Sha256] in
theorem bookCash_fundBook {book : EpisodeBook ℚ} {asset : String} {episode : OpenEpisode ℚ}
    (hget : book.opened[asset]? = some episode) (cost : ℚ) :
    bookCash (fundBook book asset episode cost) = bookCash book :=
  add_right_cancel (bookTotal_fundBook hget cost (fun episode => (lotOf episode).cash)
    PortfolioEpisode.realizedPnl)

theorem call_booked {call : LedgerCall ℚ} (hbooked : BookedLedger charges traded ledger)
    (hcall : isBooking call = true) (h : ledger.call call = .ok next) :
    BookedLedger (fun kind name => charges kind name + callCharges bookedCosts kind name call)
      (fun name => traded name + onExecution tradedValue name call) next where
  sound := call_sound hbooked.sound h
  cash name := by
    rcases call_on_book hcall h name with ⟨hsame, hnone⟩ | ⟨execution, closedAt, happly, hone⟩ |
      ⟨asset, episode, cost, hget, hfunded, hnone⟩
    · rw [hsame, hnone, hbooked.cash, add_zero]
    · rw [bookCash_apply (hbooked.sound.books name).agrees happly, hone, hbooked.cash]
      ring
    · rw [hfunded, bookCash_fundBook hget, hnone, hbooked.cash, add_zero]
  unattributed name := by
    rcases call_on_book hcall h name with ⟨hsame, _⟩ | ⟨execution, closedAt, happly, _⟩ |
      ⟨asset, episode, cost, _, hfunded, _⟩
    · rw [hsame]
      exact hbooked.unattributed name
    · exact (apply_sound (hbooked.sound.books name) happly).2 (hbooked.unattributed name)
    · rw [hfunded]
      exact hbooked.unattributed name

theorem run_booked {calls : List (LedgerCall ℚ)} (hbooked : BookedLedger charges traded ledger)
    (hcalls : ∀ call ∈ calls, isBooking call = true)
    (h : calls.foldlM DualLedger.call ledger = .ok next) :
    BookedLedger
      (fun kind name => charges kind name + (calls.map (callCharges bookedCosts kind name)).sum)
      (fun name => traded name + (calls.map (onExecution tradedValue name)).sum) next := by
  induction calls generalizing ledger charges traded with
  | nil =>
    rw [List.foldlM_nil, pure_eq_ok_iff] at h
    subst h
    simpa only [List.map_nil, List.sum_nil, add_zero] using hbooked
  | cons call calls ih =>
    obtain ⟨middle, hcall, h⟩ := foldlM_cons_eq_ok_iff.mp h
    obtain ⟨hfirst, hrest⟩ := List.forall_mem_cons.mp hcalls
    have htail := ih (call_booked hbooked hfirst hcall) hrest h
    simpa only [List.map_cons, List.sum_cons, add_assoc] using htail

omit [Sha256] in
/-- The charges of a run are its executions' costs and its funding, less the costs of the
executions that fill nothing. -/
theorem sum_charges {calls : List (LedgerCall ℚ)} (hcalls : ∀ call ∈ calls, isBooking call = true)
    (name : BookName) :
    (calls.map (callCharges bookedCosts .fees name)).sum +
          (calls.map (callCharges bookedCosts .funding name)).sum +
        (calls.map (callCharges bookedCosts .slippage name)).sum +
      (calls.map (onExecution idleCosts name)).sum =
        (calls.map (onExecution executionCosts name)).sum + (calls.map (bookedFunding name)).sum := by
  have hexecution : ∀ execution : ShadowExecution ℚ,
      bookedCosts .fees execution + bookedCosts .funding execution +
          bookedCosts .slippage execution + idleCosts execution = executionCosts execution := by
    intro execution
    unfold bookedCosts idleCosts executionCosts
    split
    · ring
    · exact add_zero _
  simp only [← List.sum_map_add]
  refine congrArg List.sum (List.map_congr_left fun call hcall => ?_)
  have hbooking := hcalls call hcall
  cases call with
  | sourceAttributionResidual => cases hbooking
  | sourceEconomicResiduals => cases hbooking
  | reconcilePortfolioGross => cases hbooking
  | portfolioExecution execution closedAt =>
    simp only [callCharges, onExecution, bookedFunding, add_zero]
    split
    · exact hexecution execution
    · norm_num
  | sourceExecution candidateId execution closedAt =>
    simp only [callCharges, onExecution, bookedFunding, add_zero]
    split
    · exact hexecution execution
    · norm_num
  | portfolioFunding asset fundingCost =>
    simp only [callCharges, onExecution, bookedFunding, add_zero, zero_add]
    split
    · simp
    · simp

theorem equityWith_after_run {calls : List (LedgerCall ℚ)}
    (hcalls : ∀ call ∈ calls, isBooking call = true)
    (h : calls.foldlM DualLedger.call DualLedger.empty = .ok ledger)
    (closedText unrealizedText openText : String) (name : BookName) {marks : ExtTreeMap String ℚ}
    (hmarks : MarksOpen marks (ledger.book name)) (startingEquity : ℚ) :
    (ledger.book name).equityWith closedText unrealizedText openText startingEquity marks =
      .ok (accountEquity calls name startingEquity (ledger.book name).positions marks -
        openRealized (ledger.book name) + (calls.map (onExecution idleCosts name)).sum) := by
  have hstart : BookedLedger (fun _ _ => 0) (fun _ => 0) (DualLedger.empty : DualLedger ℚ) := by
    refine ⟨soundLedger_empty, fun name => ?_, fun name => ?_⟩
    all_goals
      have hempty : (DualLedger.empty : DualLedger ℚ).book name = EpisodeBook.empty := by
        cases name with
        | portfolio => rfl
        | source candidateId =>
          unfold DualLedger.book DualLedger.empty
          dsimp only
          rw [ExtTreeMap.getElem?_empty]
          rfl
      rw [hempty]
    · unfold bookCash bookTotal EpisodeBook.empty
      rw [total_empty, List.map_nil, List.sum_nil, add_zero, neg_zero]
    · intro episode hepisode
      cases hepisode
  have hbooked := run_booked hstart hcalls h
  have hbook := hbooked.sound.books name
  have hcash := hbooked.cash name
  have hfees := hbook.costs .fees
  have hfunding := hbook.costs .funding
  have hslippage := hbook.costs .slippage
  have hreported := @reported_equity _ marks hbook.agrees hbook.nets
    (hbooked.unattributed name)
  have hsum := sum_charges hcalls name
  simp only [zero_add] at hcash hfees hfunding hslippage
  rw [equityWith_exact closedText unrealizedText openText hmarks, add_assoc, hreported, hcash,
    hfees, hfunding, hslippage]
  unfold accountEquity
  congr 1
  linarith

/-- **When reported equity is the account's.**  After a run of executions and funding every book
reports the equity of its account exactly when the result realized on open episodes equals the costs
of the executions that filled nothing. -/
theorem equity_identity_iff {calls : List (LedgerCall ℚ)}
    (hcalls : ∀ call ∈ calls, isBooking call = true)
    (h : calls.foldlM DualLedger.call DualLedger.empty = .ok ledger) (startingEquity : ℚ)
    (marks : ExtTreeMap String ℚ) :
    (MarksOpen marks ledger.portfolio →
      (ledger.portfolioEquity startingEquity marks 0 =
          .ok (accountEquity calls .portfolio startingEquity ledger.portfolio.positions marks) ↔
        openRealized ledger.portfolio = (calls.map (onExecution idleCosts .portfolio)).sum)) ∧
    ∀ (candidateId : String) (book : EpisodeBook ℚ), ledger.sources[candidateId]? = some book →
      MarksOpen marks book →
        (book.equity startingEquity marks =
            .ok (accountEquity calls (.source candidateId) startingEquity book.positions marks) ↔
          openRealized book = (calls.map (onExecution idleCosts (.source candidateId))).sum) := by
  refine ⟨fun hmarks => ?_, fun candidateId book hbook hmarks => ?_⟩
  · have hreported : ledger.portfolio.equityWith "closed equity" "unrealized pnl" "open equity"
        startingEquity marks =
          .ok (accountEquity calls .portfolio startingEquity ledger.portfolio.positions marks -
            openRealized ledger.portfolio +
              (calls.map (onExecution idleCosts .portfolio)).sum) :=
      equityWith_after_run hcalls h _ _ _ .portfolio hmarks startingEquity
    unfold DualLedger.portfolioEquity
    rw [hreported, ok_bind, checkedSub_eq, sub_zero, orOverflow, Except.ok.injEq]
    constructor
    · intro hequal
      linarith
    · intro hopen
      rw [hopen, sub_add_cancel]
  · have hname : ledger.book (.source candidateId) = book := by
      unfold DualLedger.book
      dsimp only
      rw [hbook]
      rfl
    rw [← hname] at hmarks ⊢
    unfold EpisodeBook.equity
    rw [equityWith_after_run hcalls h _ _ _ (.source candidateId) hmarks, Except.ok.injEq]
    constructor
    · intro hequal
      linarith
    · intro hopen
      rw [hopen, sub_add_cancel]

end

def partialClose : List (LedgerCall ℚ) :=
  [.portfolioExecution (sampleExecution .buy 2 100 0 2 0) 0,
    .portfolioExecution (sampleExecution .sell 1 110 2 1 0) 1]

def sampleMarks : ExtTreeMap String ℚ :=
  (∅ : ExtTreeMap String ℚ).insert "BTC" 110

def fullClose : List (LedgerCall ℚ) :=
  partialClose ++ [.portfolioExecution (sampleExecution .sell 1 120 1 0 1) 2]

theorem equity_identity_iff_fullClose :
    ∃ (_ : Sha256) (ledger : DualLedger ℚ),
      fullClose.foldlM DualLedger.call DualLedger.empty = .ok ledger ∧
      ((MarksOpen sampleMarks ledger.portfolio →
        (ledger.portfolioEquity 1000 sampleMarks 0 =
            .ok (accountEquity fullClose .portfolio 1000 ledger.portfolio.positions sampleMarks) ↔
          openRealized ledger.portfolio =
            (fullClose.map (onExecution idleCosts .portfolio)).sum)) ∧
      ∀ (candidateId : String) (book : EpisodeBook ℚ), ledger.sources[candidateId]? = some book →
        MarksOpen sampleMarks book →
          (book.equity 1000 sampleMarks =
              .ok (accountEquity fullClose (.source candidateId) 1000 book.positions
                sampleMarks) ↔
            openRealized book =
              (fullClose.map (onExecution idleCosts (.source candidateId))).sum)) := by
  let sha : Sha256 := ⟨prefixDigest⟩
  have hruns : (fullClose.foldlM DualLedger.call DualLedger.empty).isOk = true := by
    decide +kernel
  cases hrun : fullClose.foldlM DualLedger.call DualLedger.empty with
  | error e =>
    rw [hrun] at hruns
    cases hruns
  | ok ledger => exact ⟨sha, ledger, hrun, equity_identity_iff (by decide) hrun 1000 sampleMarks⟩

/-- The partial closing gains ten, and the reported equity does not show them. -/
theorem partial_close_not_reported :
    ¬ ∀ [Sha256] (calls : List (LedgerCall ℚ)) (ledger : DualLedger ℚ),
      (∀ call ∈ calls, isBooking call = true) →
      calls.foldlM DualLedger.call DualLedger.empty = .ok ledger →
      ∀ (startingEquity : ℚ) (marks : ExtTreeMap String ℚ), MarksOpen marks ledger.portfolio →
        ledger.portfolioEquity startingEquity marks 0 =
          .ok (accountEquity calls .portfolio startingEquity ledger.portfolio.positions marks) := by
  intro h
  let sha : Sha256 := ⟨prefixDigest⟩
  have hruns : (partialClose.foldlM DualLedger.call DualLedger.empty).toOption.any (fun ledger =>
      decide (MarksOpen sampleMarks ledger.portfolio) &&
        (ledger.portfolioEquity 1000 sampleMarks 0).toOption == some 1010 &&
        accountEquity partialClose .portfolio 1000 ledger.portfolio.positions sampleMarks ==
          1020) = true := by
    decide +kernel
  cases hrun : partialClose.foldlM DualLedger.call DualLedger.empty with
  | error e =>
    rw [hrun] at hruns
    cases hruns
  | ok ledger =>
    rw [hrun] at hruns
    simp only [Except.toOption, Option.any_some, Bool.and_eq_true, decide_eq_true_eq,
      beq_iff_eq] at hruns
    obtain ⟨⟨hmarks, hreported⟩, haccount⟩ := hruns
    have hclaim := h partialClose ledger (by decide) hrun 1000 sampleMarks hmarks
    rw [haccount] at hclaim
    rw [hclaim] at hreported
    revert hreported
    decide +kernel

end CopyTrade.Analysis
