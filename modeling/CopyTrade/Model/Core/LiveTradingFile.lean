import CopyTrade.Foundation.Derive
import CopyTrade.Model.Core.Derived

/-!
# The file of the live trading state

A state is kept as its JSON text (`JsonText`, the work of a dependency), and every operation on the
file system is taken to succeed.  `set_strategy_attribution` is the one method that changes the live
trading state besides the events.  The map of the closed attributions has episode ids for keys,
which are byte arrays.
-/

namespace CopyTrade.Model

open Foundation

section

/-- `serde_json`: the text of a content, and reading it. -/
class JsonText where
  toVec : Content → String
  fromSlice : String → Except String Content

/-- The text of a JSON content is read as the content, also with a line break after it. -/
class LawfulJsonText [JsonText] : Prop where
  fromSlice_toVec : ∀ {value content}, json value = .ok content →
    JsonText.fromSlice (JsonText.toVec content) = .ok content
  fromSlice_newline : ∀ {value content}, json value = .ok content →
    JsonText.fromSlice (JsonText.toVec content ++ "\n") = .ok content

variable {T : Type} [JsonText]

/-- `serde_json::to_vec`. -/
def writeJson (c : PartialSerde T) (state : T) : Except String String := do
  let content ← json (c.serialize state)
  pure (JsonText.toVec content)

/-- `serde_json::from_slice`. -/
def readJson (c : PartialSerde T) (text : String) : Except String T := do
  let content ← JsonText.fromSlice text
  c.deserialize content

/-- What is written is read back, with or without a line break after it. -/
theorem readJson_writeJson [LawfulJsonText] {c : PartialSerde T} {state : T}
    (h : c.Writable state) :
    ∃ text, writeJson c state = .ok text ∧ readJson c text = .ok state ∧
      readJson c (text ++ "\n") = .ok state := by
  obtain ⟨content, hcontent, hread⟩ := c.json_ok state h
  refine ⟨JsonText.toVec content, ?_, ?_, ?_⟩
  · unfold writeJson
    rw [hcontent]
    rfl
  · unfold readJson
    rw [LawfulJsonText.fromSlice_toVec hcontent, ok_bind, hread]
  · unfold readJson
    rw [LawfulJsonText.fromSlice_newline hcontent, ok_bind, hread]

theorem writeJson_eq_error {c : PartialSerde T} {state : T} (h : ¬ c.Writable state) :
    ∃ message, writeJson c state = .error message := by
  obtain ⟨message, hmessage⟩ := c.json_error state h
  refine ⟨message, ?_⟩
  unfold writeJson
  rw [hmessage]
  rfl

end

namespace Derived

variable {D : Type} [Decimal D] [DecimalText D]

def portfolioEpisode : Serde (PortfolioEpisode D) :=
  StructSerde.start PortfolioEpisode.mk
    |>.field "episode_id" (·.episodeId) (byteId 32)
    |>.field "asset" (·.asset) .string
    |>.field "opened_at" (·.openedAt) .nat
    |>.field "closed_at" (·.closedAt) .nat
    |>.field "opening_decision_id" (·.openingDecisionId) (byteId 32)
    |>.field "entry_notional" (·.entryNotional) decimal
    |>.field "exit_notional" (·.exitNotional) decimal
    |>.field "realized_pnl" (·.realizedPnl) decimal
    |>.field "fees" (·.fees) decimal
    |>.field "funding" (·.funding) decimal
    |>.field "slippage" (·.slippage) decimal
    |>.fieldOr "attribution_residual" (·.attributionResidual) decimal (some Decimal.zero)
    |>.field "net_pnl" (·.netPnl) decimal
    |>.toSerde false (fun _ => rfl) fun _ => trivial

def openEpisode : Serde (OpenEpisode D) :=
  StructSerde.start OpenEpisode.mk
    |>.field "episode_id" (·.episodeId) (byteId 32)
    |>.field "asset" (·.asset) .string
    |>.field "opened_at" (·.openedAt) .nat
    |>.field "opening_decision_id" (·.openingDecisionId) (byteId 32)
    |>.field "signed_quantity" (·.signedQuantity) decimal
    |>.field "average_entry_price" (·.averageEntryPrice) decimal
    |>.field "entry_notional" (·.entryNotional) decimal
    |>.field "exit_notional" (·.exitNotional) decimal
    |>.field "realized_pnl" (·.realizedPnl) decimal
    |>.field "fees" (·.fees) decimal
    |>.field "funding" (·.funding) decimal
    |>.field "slippage" (·.slippage) decimal
    |>.toSerde false (fun _ => rfl) fun _ => trivial

def episodeBook : Serde (EpisodeBook D) :=
  StructSerde.start EpisodeBook.mk
    |>.field "positions" (·.positions) (byName decimal)
    |>.field "open" (·.opened) (byName openEpisode)
    |>.field "closed" (·.closed) (.list portfolioEpisode)
    |>.field "next_episode_sequence" (·.nextEpisodeSequence) .nat
    |>.toSerde false (fun _ => rfl) fun _ => trivial

def dualLedger : Serde (DualLedger D) :=
  StructSerde.start DualLedger.mk
    |>.field "schema_version" (·.schemaVersion) .nat
    |>.field "portfolio" (·.portfolio) episodeBook
    |>.field "sources" (·.sources) (byName episodeBook)
    |>.toSerde false (fun _ => rfl) fun _ => trivial

def strategyComponent : Serde StrategyComponent :=
  .unitEnum (fun
    | .sourceOnly => "source_only"
    | .technicalOnly => "technical_only"
    | .sourceTechnicalAgreement => "source_technical_agreement"
    | .sourceTechnicalDisagreement => "source_technical_disagreement")
    [.sourceOnly, .technicalOnly, .sourceTechnicalAgreement, .sourceTechnicalDisagreement]
    fun a => by cases a <;> rfl

def signalArchetype : Serde SignalArchetype :=
  .unitEnum (fun
    | .trendPullback => "trend_pullback"
    | .rangeMeanReversion => "range_mean_reversion"
    | .regimeBreakout => "regime_breakout")
    [.trendPullback, .rangeMeanReversion, .regimeBreakout] fun a => by cases a <;> rfl

def marketRegime : Serde MarketRegime :=
  .unitEnum (fun
    | .strongBull => "strong_bull"
    | .transitionUp => "transition_up"
    | .range => "range"
    | .transitionDown => "transition_down"
    | .strongBear => "strong_bear")
    [.strongBull, .transitionUp, .range, .transitionDown, .strongBear] fun a => by cases a <;> rfl

def strategyComponentAttribution : Serde (StrategyComponentAttribution D) :=
  StructSerde.start StrategyComponentAttribution.mk
    |>.field "component" (·.component) strategyComponent
    |>.field "source_fraction" (·.sourceFraction) decimal
    |>.field "technical_fraction" (·.technicalFraction) decimal
    |>.field "archetype" (·.archetype) (.option signalArchetype fun _ => rfl)
    |>.field "regime" (·.regime) (.option marketRegime fun _ => rfl)
    |>.field "side" (·.side) side
    |>.toSerde false (fun _ => rfl) fun _ => trivial

def liveFillAccounting : Serde (LiveFillAccounting D) :=
  StructSerde.start LiveFillAccounting.mk
    |>.field "identity" (·.identity) exchangeFillIdentity
    |>.field "decision_id" (·.decisionId) (byteId 32)
    |>.field "root_cloid" (·.rootCloid) (byteId 16)
    |>.field "parent_cloid" (·.parentCloid) (.option (byteId 16) cloid_present)
    |>.field "continuation_generation" (·.continuationGeneration) .nat
    |>.field "asset" (·.asset) .string
    |>.field "side" (·.side) side
    |>.field "filled_quantity" (·.filledQuantity) decimal
    |>.field "average_fill_price" (·.averageFillPrice) decimal
    |>.field "submitted_limit_price" (·.submittedLimitPrice) decimal
    |>.field "fee_amount" (·.feeAmount) decimal
    |>.field "exchange_closed_pnl" (·.exchangeClosedPnl) decimal
    |>.field "fee_asset" (·.feeAsset) .string
    |>.field "liquidity" (·.liquidity) liquidityClassification
    |>.field "decision_reference_price" (·.decisionReferencePrice) decimal
    |>.field "decision_to_fill_slippage" (·.decisionToFillSlippage) decimal
    |>.field "position_before" (·.positionBefore) decimal
    |>.field "position_after" (·.positionAfter) decimal
    |>.field "current_equity" (·.currentEquity) decimal
    |>.field "settled_equity" (·.settledEquity) decimal
    |>.field "deployment_equity" (·.deploymentEquity) decimal
    |>.field "occurred_at" (·.occurredAt) .nat
    |>.fieldOr "strategy_attribution" (·.strategyAttribution)
      (.option strategyComponentAttribution fun _ => rfl) (some none)
    |>.toSerde false (fun _ => rfl) fun _ => trivial

def fundingAccounting : Serde (FundingAccounting D) :=
  StructSerde.start FundingAccounting.mk
    |>.field "event" (·.event) verifiedFundingEvent
    |>.field "current_equity" (·.currentEquity) decimal
    |>.field "settled_equity" (·.settledEquity) decimal
    |>.field "deployment_equity" (·.deploymentEquity) decimal
    |>.toSerde false (fun _ => rfl) fun _ => trivial

theorem byteId_refused {n : ℕ} (id : Bytes n) :
    ∃ message, jsonKey ((byteId n).serialize id) = .error message := ⟨_, rfl⟩

/-- The state; a set is written as a sequence. -/
def liveTradingState : PartialSerde (LiveTradingState D) :=
  StructSerde.start LiveTradingState.mk
    |>.field "schema_version" (·.schemaVersion) .nat
    |>.field "starting_equity" (·.startingEquity) decimal
    |>.field "current_equity" (·.currentEquity) decimal
    |>.field "settled_equity" (·.settledEquity) decimal
    |>.field "deployment_equity" (·.deploymentEquity) decimal
    |>.field "ledger" (·.ledger) dualLedger
    |>.field "applied_fills" (·.appliedFills) (.list exchangeFillIdentity)
    |>.field "applied_funding" (·.appliedFunding) (.list (byteId 32))
    |>.field "fill_events" (·.fillEvents) (.list liveFillAccounting)
    |>.field "funding_events" (·.fundingEvents) (.list fundingAccounting)
    |>.fieldOr "verified_fills" (·.verifiedFills) (.list verifiedExchangeFill) (some [])
    |>.fieldOr "verified_funding" (·.verifiedFunding) (.list verifiedFundingEvent) (some [])
    |>.fieldOr "exchange_gross_pnl_by_open_episode" (·.exchangeGrossPnlByOpenEpisode)
      (byName decimal) (some ∅)
    |>.fieldOr "open_episode_attribution" (·.openEpisodeAttribution)
      (byName strategyComponentAttribution) (some ∅)
    |>.partialField "closed_episode_attribution" (·.closedEpisodeAttribution)
      (.map (byteId 32) byteId_refused strategyComponentAttribution) (some ∅)
    |>.field "fill_cursor_ms" (·.fillCursorMs) .nat
    |>.fieldOr "funding_cursor_ms" (·.fundingCursorMs) .nat (some 0)
    |>.toPartial false fun _ => rfl

/-- JSON writes the states without a closed attribution. -/
theorem liveTradingState_writable_iff (state : LiveTradingState D) :
    liveTradingState.Writable state ↔ state.closedEpisodeAttribution = ∅ :=
  ⟨fun h => h.2, fun h => ⟨trivial, h⟩⟩

end Derived

variable {D : Type} [Decimal D]

def StrategyComponentAttribution.validate (attribution : StrategyComponentAttribution D) :
    Except LedgerError Unit :=
  if Decimal.lt attribution.sourceFraction Decimal.zero
      || Decimal.lt attribution.technicalFraction Decimal.zero
      || Decimal.lt Decimal.one attribution.sourceFraction
      || Decimal.lt Decimal.one attribution.technicalFraction
      || (Decimal.checkedAdd attribution.sourceFraction attribution.technicalFraction).all
        fun total => !Decimal.eqv total Decimal.one then
    .error (.invalidLiveEvent "strategy attribution fractions must sum to one")
  else .ok ()

namespace LiveTradingState

def setStrategyAttribution (state : LiveTradingState D) (asset : String)
    (attribution : StrategyComponentAttribution D) : Except LedgerError (LiveTradingState D) := do
  attribution.validate
  pure { state with
    openEpisodeAttribution := state.openEpisodeAttribution.insert asset attribution }

variable [DecimalText D] [JsonText]

/-- `save_atomic`: the text of the file. -/
def saveAtomic (state : LiveTradingState D) : Except LedgerError String :=
  (writeJson Derived.liveTradingState state).mapError .persistence

def load (text : String) : Except LedgerError (LiveTradingState D) := do
  let state ← (readJson Derived.liveTradingState text).mapError LedgerError.persistence
  state.validateLoaded
  pure state

end LiveTradingState

end CopyTrade.Model
