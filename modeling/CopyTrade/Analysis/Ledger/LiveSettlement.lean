import CopyTrade.Analysis.Ledger.LedgerIntegrity
import CopyTrade.Analysis.Ledger.LiveIntegrity

/-!
# Settled equity and the exchange

The settled equity moves only when an episode closes, by the gross result reported for it since the
last closing less the costs charged to it.  Once no episode is open it is the start with all
reported results, fees and funding, and with the slippage the state computes itself.
-/

namespace CopyTrade.Analysis

open Foundation Model Model.ExactDecimal
open Std (ExtTreeMap)

/-- The slippage a fill is booked with: its distance from the reference price of the decision. -/
def fillSlippage (fill : VerifiedExchangeFill ℚ) : ℚ :=
  |fill.averageFillPrice - fill.decisionReferencePrice| * fill.filledQuantity

def liveCharges (fills : List (VerifiedExchangeFill ℚ)) (funding : List (VerifiedFundingEvent ℚ)) :
    CostKind → ℚ
  | .fees => (fills.map VerifiedExchangeFill.feeAmount).sum
  | .funding => -(funding.map VerifiedFundingEvent.amount).sum
  | .slippage => (fills.map fillSlippage).sum

def pendingGross (state : LiveTradingState ℚ) : ℚ :=
  total (fun _ gross => gross) state.exchangeGrossPnlByOpenEpisode

/-- What holds between the settled equity, the closed episodes and the events on record. -/
structure Settlement [Sha256] (startingEquity : ℚ) (state : LiveTradingState ℚ) : Prop where
  book : SoundBook (liveCharges state.verifiedFills state.verifiedFunding) state.ledger.portfolio
  unattributed : ∀ episode ∈ state.ledger.portfolio.closed, episode.attributionResidual = 0
  settled : state.settledEquity =
    startingEquity + (state.ledger.portfolio.closed.map PortfolioEpisode.netPnl).sum
  gross : (state.ledger.portfolio.closed.map PortfolioEpisode.realizedPnl).sum +
    pendingGross state = (state.verifiedFills.map VerifiedExchangeFill.exchangeClosedPnl).sum
  pending : ∀ asset : String, state.ledger.portfolio.opened[asset]? = none →
    state.exchangeGrossPnlByOpenEpisode[asset]? = none

section

variable [Sha256] {startingEquity : ℚ} {state next : LiveTradingState ℚ}

theorem settlement_new {cursor : ℕ}
    (h : LiveTradingState.new startingEquity cursor = .ok state) :
    Settlement startingEquity state := by
  unfold LiveTradingState.new at h
  split at h
  · cases h
  cases h
  refine ⟨?_, ?_, ?_, add_zero (0 : ℚ), fun asset _ => ?_⟩
  · have hcharges : liveCharges (LiveTradingState.starting startingEquity cursor).verifiedFills
        (LiveTradingState.starting startingEquity cursor).verifiedFunding = fun _ => 0 := by
      funext kind
      cases kind <;> rfl
    rw [hcharges]
    exact soundBook_empty
  · intro episode hepisode
    cases hepisode
  · exact (add_zero _).symm
  · unfold LiveTradingState.starting
    exact ExtTreeMap.getElem?_empty

variable {figures : FillFigures ℚ} {fill : VerifiedExchangeFill ℚ}

omit [Sha256] in
theorem fillFigures_exact {ledger : DualLedger ℚ} (h : fillFigures ledger fill = .ok figures) :
    figures.slippage = fillSlippage fill := by
  unfold fillFigures at h
  simp only [checkedAdd_eq, checkedMul_eq, checkedSub_eq, abs_eq, Option.bind_some, orOverflow,
    ok_bind, pure_eq_ok_iff] at h
  rw [← h]
  rfl

omit [Sha256] in
theorem bookedCosts_fill (hvalid : validateFill fill = .ok ())
    (hslippage : figures.slippage = fillSlippage fill) (fills : List (VerifiedExchangeFill ℚ))
    (funding : List (VerifiedFundingEvent ℚ)) (kind : CostKind) :
    liveCharges fills funding kind + bookedCosts kind (fillExecution fill figures) =
      liveCharges (fills ++ [fill]) funding kind := by
  have hfills : (fillExecution fill figures).modeledFilledQuantity ≠ 0 :=
    (isZero_eq_false_iff_ne _).mp (filledQuantity_nonzero hvalid)
  unfold bookedCosts
  rw [if_neg hfills]
  cases kind with
  | fees =>
    unfold liveCharges
    rw [List.map_append, List.sum_append, List.map_singleton, List.sum_singleton]
    rfl
  | funding =>
    have hnone : CostKind.funding.ofExecution (fillExecution fill figures) = 0 := zero_eq
    rw [hnone, add_zero]
    rfl
  | slippage =>
    unfold liveCharges
    dsimp only
    rw [List.map_append, List.sum_append, List.map_singleton, List.sum_singleton, ← hslippage]
    rfl

theorem kept_of_nothing_settled {execution : ShadowExecution ℚ} {price : ℚ}
    {closedAt sequence sequence' : ℕ} {before kept : Option (OpenEpisode ℚ)}
    (h : FillEffect execution price closedAt sequence before kept none sequence') :
    kept ≠ none := by
  cases h <;> simp

omit [Sha256] in
theorem total_reported (pending : ExtTreeMap String ℚ) (asset : String) (closedPnl : ℚ) :
    (pending[asset]?.getD 0 + closedPnl) + total (fun _ gross => gross) (pending.erase asset) =
      total (fun _ gross => gross) pending + closedPnl := by
  rw [total_eq_share_add (fun _ gross => gross) pending asset]
  cases pending[asset]? with
  | none =>
    rw [share_none, Option.getD_none]
    ring
  | some gross =>
    rw [share_some, Option.getD_some]
    ring

theorem settlement_fill {books : FillBooks ℚ} {closed : Option (PortfolioEpisode ℚ)}
    {accounting : LiveFillAccounting ℚ} (hsettles : Settlement startingEquity state)
    (h : AppliesFill state fill figures books closed accounting next) :
    Settlement startingEquity next := by
  have hslippage := fillFigures_exact h.figured
  obtain ⟨portfolio, gross, hportfolio, hgross, hbooks⟩ := bookFill_eq_ok h.booked
  have hportfolio : state.ledger.portfolio.apply (fillExecution fill figures) fill.occurredAt =
      .ok portfolio := hportfolio
  rw [zero_eq, checkedAdd_eq, Option.some.injEq] at hgross
  obtain ⟨hbook, hresidual⟩ := apply_sound hsettles.book hportfolio
  have hresidual := hresidual hsettles.unattributed
  have hcharges : (fun kind => liveCharges state.verifiedFills state.verifiedFunding kind +
      bookedCosts kind (fillExecution fill figures)) =
        liveCharges (state.verifiedFills ++ [fill]) state.verifiedFunding :=
    funext fun kind => bookedCosts_fill h.valid hslippage _ _ kind
  rw [hcharges] at hbook
  have hfills : (fillExecution fill figures).modeledFilledQuantity ≠ 0 :=
    (isZero_eq_false_iff_ne _).mp (filledQuantity_nonzero h.valid)
  obtain ⟨price, kept, settled, hto⟩ := apply_effect hsettles.book.agrees hfills hportfolio
  have hgrossSum := hsettles.gross
  have hreported := total_reported state.exchangeGrossPnlByOpenEpisode fill.asset
    fill.exchangeClosedPnl
  have hgross : state.exchangeGrossPnlByOpenEpisode[fill.asset]?.getD 0 +
    fill.exchangeClosedPnl = gross := hgross
  have hnext := h.next
  subst hnext
  rcases hbooks with ⟨hlength, rfl⟩ |
    ⟨hlength, last, net, settledEquity, hlast, hnet, hequity, hledger, hpending, hsettled⟩
  · -- No episode is closed: the reported result waits for the closing.
    have hnone : settled = none := by
      have hlength : portfolio.closed.length ≤ state.ledger.portfolio.closed.length := hlength
      rw [hto.closed, List.length_append] at hlength
      cases settled with
      | none => rfl
      | some episode => simp at hlength
    subst hnone
    have hclosed : portfolio.closed = state.ledger.portfolio.closed :=
      hto.closed.trans (List.append_nil _)
    refine ⟨hbook, hresidual, ?_, ?_, fun asset hasset => ?_⟩
    · show state.settledEquity = startingEquity + (portfolio.closed.map _).sum
      rw [hclosed]
      exact hsettles.settled
    · show (portfolio.closed.map _).sum +
        total (fun _ gross => gross) (put state.exchangeGrossPnlByOpenEpisode fill.asset
          (some gross)) = ((state.verifiedFills ++ [fill]).map _).sum
      rw [hclosed, total_put, share_some, List.map_append, List.sum_append, ← hgrossSum,
        List.map_singleton, List.sum_singleton, ← hgross, hreported]
      unfold pendingGross
      ring
    · have hasset : portfolio.opened[asset]? = none := hasset
      show (state.exchangeGrossPnlByOpenEpisode.insert fill.asset gross)[asset]? = none
      rw [hto.opened, getElem?_put] at hasset
      rw [getElem?_insert_eq]
      by_cases hfilled : fill.asset = asset
      · rw [if_pos (show (fillExecution fill figures).asset = asset from hfilled)] at hasset
        exact absurd hasset (kept_of_nothing_settled hto.effect)
      · rw [if_neg (show ¬ (fillExecution fill figures).asset = asset from hfilled)] at hasset
        rw [if_neg hfilled]
        exact hsettles.pending asset hasset
  · -- The episode is closed: the reported result replaces the computed one.
    obtain ⟨episode, hepisode⟩ : ∃ episode, settled = some episode := by
      have hlength : state.ledger.portfolio.closed.length < portfolio.closed.length := hlength
      cases settled with
      | none =>
        rw [hto.closed] at hlength
        simp at hlength
      | some episode => exact ⟨episode, rfl⟩
    subst hepisode
    have hclosed : portfolio.closed = state.ledger.portfolio.closed ++ [episode] := hto.closed
    rw [hclosed, List.getLast?_concat, Option.some.injEq] at hlast
    subst hlast
    have hlast : portfolio.closed.getLast? = some episode := by
      rw [hclosed, List.getLast?_concat]
    have hnet : gross - episode.fees - episode.funding - episode.slippage = net :=
      Option.some.inj hnet
    have hequity : state.settledEquity + net = settledEquity := Option.some.inj hequity
    have hunattributed := hresidual episode (List.mem_of_getLast? hlast)
    have hbook' := editLast_sound { episode with realizedPnl := gross, netPnl := net }
      (fun _ => 0) hbook hlast rfl
      (by unfold NetsOut; dsimp only; rw [← hnet, hunattributed, add_zero])
      (fun kind => by cases kind <;> exact (add_zero _).symm)
    simp only [add_zero] at hbook'
    have hreplaced : (withReportedGross portfolio episode gross net).closed =
        state.ledger.portfolio.closed ++
          [{ episode with realizedPnl := gross, netPnl := net }] := by
      unfold withReportedGross
      rw [hclosed, List.dropLast_concat]
    refine ⟨?_, ?_, ?_, ?_, fun asset hasset => ?_⟩
    · show SoundBook (liveCharges (state.verifiedFills ++ [fill]) state.verifiedFunding)
        books.ledger.portfolio
      rw [hledger]
      exact hbook'
    · show ∀ closed ∈ books.ledger.portfolio.closed, closed.attributionResidual = 0
      rw [hledger]
      rw [hreplaced]
      intro closed hmem
      rcases List.mem_append.mp hmem with hmem | hmem
      · exact hsettles.unattributed closed hmem
      · rw [List.mem_singleton] at hmem
        rw [hmem]
        exact hunattributed
    · show books.settledEquity = startingEquity + (books.ledger.portfolio.closed.map _).sum
      rw [hledger]
      rw [hreplaced, List.map_append, List.sum_append, List.map_singleton, List.sum_singleton,
        hsettled, ← hequity, hsettles.settled, add_assoc]
    · show (books.ledger.portfolio.closed.map _).sum +
        total (fun _ gross => gross) books.exchangeGross =
          ((state.verifiedFills ++ [fill]).map _).sum
      have hpending : books.exchangeGross =
          state.exchangeGrossPnlByOpenEpisode.erase fill.asset :=
        hpending.trans (erase_insert_self _ _ _)
      rw [hledger, hpending]
      dsimp only
      rw [hreplaced, List.map_append, List.sum_append, List.map_singleton, List.sum_singleton,
        List.map_append, List.sum_append, ← hgrossSum, List.map_singleton, List.sum_singleton]
      unfold pendingGross
      dsimp only
      rw [← hgross, add_assoc, hreported]
      ring
    · have hasset : books.ledger.portfolio.opened[asset]? = none := hasset
      rw [hledger] at hasset
      have hasset : portfolio.opened[asset]? = none := hasset
      show books.exchangeGross[asset]? = none
      rw [hpending, getElem?_erase_eq]
      by_cases hfilled : fill.asset = asset
      · rw [if_pos hfilled]
      · rw [hto.opened, getElem?_put,
          if_neg (show ¬ (fillExecution fill figures).asset = asset from hfilled)] at hasset
        rw [if_neg hfilled, getElem?_insert_eq, if_neg hfilled]
        exact hsettles.pending asset hasset

theorem settlement_funding {event : VerifiedFundingEvent ℚ} {episode : OpenEpisode ℚ}
    {funding equity : ℚ} (hsettles : Settlement startingEquity state)
    (h : AppliesFunding state event episode funding equity next) :
    Settlement startingEquity next := by
  have hcost := h.cost
  rw [neg_eq, checkedAdd_eq, Option.some.injEq] at hcost
  have hbook := fundBook_sound (-event.amount) hsettles.book h.opened
  have hcharges : (fun kind => liveCharges state.verifiedFills state.verifiedFunding kind +
      if kind = .funding then -event.amount else 0) =
        liveCharges state.verifiedFills (state.verifiedFunding ++ [event]) := by
    funext kind
    cases kind with
    | fees => exact add_zero _
    | funding =>
      unfold liveCharges
      rw [if_pos rfl, List.map_append, List.sum_append, List.map_singleton, List.sum_singleton]
      ring
    | slippage => exact add_zero _
  rw [hcharges] at hbook
  have hnext := h.next
  subst hnext hcost
  refine ⟨hbook, hsettles.unattributed, hsettles.settled, hsettles.gross, fun asset hasset => ?_⟩
  have hasset : (state.ledger.portfolio.opened.insert event.asset
      (withFunding episode (episode.funding + -event.amount)))[asset]? = none := hasset
  rw [getElem?_insert_eq] at hasset
  by_cases hfunded : event.asset = asset
  · rw [if_pos hfunded] at hasset
    cases hasset
  · rw [if_neg hfunded] at hasset
    exact hsettles.pending asset hasset

theorem settlement_run {calls : List (LiveCall ℚ)} (hsettles : Settlement startingEquity state)
    (h : calls.foldlM LiveTradingState.call state = .ok next) :
    Settlement startingEquity next := by
  induction calls generalizing state with
  | nil =>
    rw [List.foldlM_nil, pure_eq_ok_iff] at h
    exact h ▸ hsettles
  | cons call calls ih =>
    obtain ⟨middle, hcall, h⟩ := foldlM_cons_eq_ok_iff.mp h
    refine ih ?_ h
    rcases call_eq_ok hcall with ⟨rfl, -, -⟩ |
      ⟨fill, figures, books, closed, accounting, -, -, -, happlies⟩ |
      ⟨event, episode, funding, equity, -, -, -, happlies⟩
    · exact hsettles
    · exact settlement_fill hsettles happlies
    · exact settlement_funding hsettles happlies

/-- **Settled equity reconciles to the exchange.**  When no episode is open, the settled equity
is the start with the reported results less the fees, with the funding, less the slippage. -/
theorem settled_equity_reconciles {cursor : ℕ} {start : LiveTradingState ℚ}
    {calls : List (LiveCall ℚ)}
    (hnew : LiveTradingState.new startingEquity cursor = .ok start)
    (h : calls.foldlM LiveTradingState.call start = .ok state)
    (hflat : ∀ asset : String, state.ledger.portfolio.opened[asset]? = none) :
    state.settledEquity = startingEquity +
      (state.verifiedFills.map fun fill => fill.exchangeClosedPnl - fill.feeAmount).sum +
      (state.verifiedFunding.map VerifiedFundingEvent.amount).sum -
      (state.verifiedFills.map fillSlippage).sum := by
  have hsettles := settlement_run (settlement_new hnew) h
  have hpending : pendingGross state = 0 :=
    total_eq_zero_of_forall_getElem? fun asset => hsettles.pending asset (hflat asset)
  have hclosed : ∀ kind : CostKind,
      (state.ledger.portfolio.closed.map kind.ofClosed).sum =
        liveCharges state.verifiedFills state.verifiedFunding kind := by
    intro kind
    have hcosts := hsettles.book.costs kind
    unfold bookCosts bookTotal at hcosts
    rw [total_eq_zero_of_forall_getElem? hflat, zero_add] at hcosts
    exact hcosts
  have hnet : (state.ledger.portfolio.closed.map PortfolioEpisode.netPnl).sum +
      ((state.ledger.portfolio.closed.map CostKind.fees.ofClosed).sum +
        (state.ledger.portfolio.closed.map CostKind.funding.ofClosed).sum +
        (state.ledger.portfolio.closed.map CostKind.slippage.ofClosed).sum) =
      (state.ledger.portfolio.closed.map PortfolioEpisode.realizedPnl).sum := by
    rw [← List.sum_map_add, ← List.sum_map_add, ← List.sum_map_add]
    refine congrArg List.sum (List.map_congr_left fun episode hepisode => ?_)
    have hnets := hsettles.book.nets episode hepisode
    unfold NetsOut at hnets
    rw [hnets, hsettles.unattributed episode hepisode]
    unfold CostKind.ofClosed
    ring
  have hgross := hsettles.gross
  have hfills : (state.verifiedFills.map fun fill =>
      fill.exchangeClosedPnl - fill.feeAmount).sum +
        (state.verifiedFills.map VerifiedExchangeFill.feeAmount).sum =
      (state.verifiedFills.map VerifiedExchangeFill.exchangeClosedPnl).sum := by
    rw [← List.sum_map_add]
    refine congrArg List.sum (List.map_congr_left fun fill _ => ?_)
    ring
  rw [hclosed, hclosed, hclosed] at hnet
  unfold liveCharges at hnet
  rw [hpending, add_zero] at hgross
  rw [hsettles.settled]
  linarith

end

/-- A purchase at 100 against a reference price of 99, and the sale that closes it. -/
def slippedRoundTrip : List (LiveCall ℚ) :=
  [.fill { sampleVerifiedFill "1" .buy 100 0 1 with decisionReferencePrice := 99 },
    .fill (sampleVerifiedFill "2" .sell 110 10 2)]

def settledState [Sha256] : LiveTradingState ℚ :=
  run LiveTradingState.after (LiveTradingState.starting 1000 0) slippedRoundTrip

theorem slippedRoundTrip_settles :
    let sha : Sha256 := ⟨prefixDigest⟩
    LiveTradingState.new (1000 : ℚ) 0 = .ok (LiveTradingState.starting 1000 0) ∧
      slippedRoundTrip.foldlM LiveTradingState.call (LiveTradingState.starting 1000 0) =
        .ok settledState ∧
      ∀ asset : String, settledState.ledger.portfolio.opened[asset]? = none := by
  intro sha
  have hopened : settledState.ledger.portfolio.opened = ∅ := by
    decide +kernel
  refine ⟨by decide +kernel, by decide +kernel, ?_⟩
  intro asset
  rw [hopened, ExtTreeMap.getElem?_empty]

theorem settled_equity_reconciles_slippedRoundTrip :
    ∃ (_ : Sha256),
      settledState.settledEquity = 1000 +
        (settledState.verifiedFills.map fun fill => fill.exchangeClosedPnl - fill.feeAmount).sum +
        (settledState.verifiedFunding.map VerifiedFundingEvent.amount).sum -
        (settledState.verifiedFills.map fillSlippage).sum := by
  let sha : Sha256 := ⟨prefixDigest⟩
  obtain ⟨hnew, hrun, hopened⟩ := slippedRoundTrip_settles
  exact ⟨sha, settled_equity_reconciles hnew hrun hopened⟩

/-- The slippage of the purchase is settled on top of what the exchange reported. -/
theorem slippage_settled_too :
    ¬ ∀ [Sha256] (startingEquity : ℚ) (cursor : ℕ) (start state : LiveTradingState ℚ)
      (calls : List (LiveCall ℚ)), LiveTradingState.new startingEquity cursor = .ok start →
      calls.foldlM LiveTradingState.call start = .ok state →
      (∀ asset : String, state.ledger.portfolio.opened[asset]? = none) →
      state.settledEquity = startingEquity +
        (state.verifiedFills.map fun fill => fill.exchangeClosedPnl - fill.feeAmount).sum +
        (state.verifiedFunding.map VerifiedFundingEvent.amount).sum := by
  intro h
  let sha : Sha256 := ⟨prefixDigest⟩
  obtain ⟨hnew, hrun, hopened⟩ := slippedRoundTrip_settles
  have hclaim := h 1000 0 _ settledState slippedRoundTrip hnew hrun hopened
  revert hclaim
  decide +kernel

end CopyTrade.Analysis
