import CopyTrade.Foundation.Derive
import CopyTrade.Model.Core.Ipc

/-!
# The serialized form of the core types

What the derived `Serialize` and `Deserialize` of the types that cross the wire do: one
definition a type, its fields in the order and under the names of the source.  A `Decimal` is
written as its text; the reader of that text is a dependency of the repository (`DecimalText`).

the `derive` attributes of crates/copytrade-core/src/{decision,portfolio_risk,
authorized_intent,live_trading,ipc}.rs
-/

namespace CopyTrade.Model

open Foundation
open Std (ExtTreeMap)

/-- `FromStr` of `rust_decimal::Decimal`, which reads a decimal back from its text. -/
class DecimalText (D : Type) [Decimal D] where
  parse : String → Option D
  parse_text : ∀ d : D, parse (Decimal.text d) = some d

namespace Derived

/-- `u8`. -/
def byte : Serde UInt8 where
  serialize b := .int b.toNat
  deserialize
    | .int n => if n < 256 then .ok (UInt8.ofNat n) else .error "invalid value"
    | _ => .error "invalid type: expected u8"
  compact_ok b := by
    show (if b.toNat < 256 then Except.ok (UInt8.ofNat b.toNat) else .error _) = .ok b
    rw [if_pos b.toNat_lt, UInt8.ofNat_toNat]
  json_ok b := by
    refine ⟨.int b.toNat, rfl, ?_⟩
    show (if b.toNat < 256 then Except.ok (UInt8.ofNat b.toNat) else .error _) = .ok b
    rw [if_pos b.toNat_lt, UInt8.ofNat_toNat]

/-- `[u8; n]`. -/
def bytes (n : ℕ) : Serde (Bytes n) :=
  Serde.tuple byte Subtype.val
    (fun items => if h : items.length = n then some ⟨items, h⟩ else none)
    fun b => dif_pos b.2

/-- A type of `byte_id!`. -/
def byteId (n : ℕ) : Serde (Bytes n) := .newtype (bytes n)

theorem cloid_present (cloid : PlannedCloid) :
    ((byteId 16).serialize cloid).isPresent = true := rfl

section

variable {D : Type} [Decimal D] [DecimalText D]

def decimal : Serde D := .ofText Decimal.text DecimalText.parse DecimalText.parse_text

/-- `BTreeMap<String, _>`. -/
def byName {α : Type} (c : Serde α) : Serde (ExtTreeMap String α) := .map .string c

def side : Serde Side :=
  .unitEnum (fun
    | .buy => "buy"
    | .sell => "sell") [.buy, .sell] fun a => by cases a <;> rfl

def orderSide : Serde OrderSide :=
  .unitEnum (fun
    | .buy => "Buy"
    | .sell => "Sell") [.buy, .sell] fun a => by cases a <;> rfl

def openOrderLifecycle : Serde OpenOrderLifecycle :=
  .unitEnum (fun
    | .acknowledged => "Acknowledged"
    | .cancelRequested => "CancelRequested"
    | .cancelConfirmed => "CancelConfirmed"
    | .submissionUnknown => "SubmissionUnknown"
    | .unknown => "Unknown")
    [.acknowledged, .cancelRequested, .cancelConfirmed, .submissionUnknown, .unknown]
    fun a => by cases a <;> rfl

def openOrderExposure : Serde (OpenOrderExposure D) :=
  StructSerde.start OpenOrderExposure.mk
    |>.field "asset" (·.asset) .string
    |>.field "side" (·.side) (.option orderSide fun _ => rfl)
    |>.field "notional" (·.notional) (.option decimal fun _ => rfl)
    |>.field "lifecycle" (·.lifecycle) openOrderLifecycle
    |>.toSerde false (fun _ => rfl) fun _ => trivial

def marketRules : Serde (MarketRules D) :=
  StructSerde.start MarketRules.mk
    |>.field "mark_price" (·.markPrice) decimal
    |>.field "price_tick" (·.priceTick) decimal
    |>.field "size_step" (·.sizeStep) decimal
    |>.toSerde false (fun _ => rfl) fun _ => trivial

def portfolioProjectionInput : Serde (PortfolioProjectionInput D) :=
  StructSerde.start PortfolioProjectionInput.mk
    |>.field "current_equity" (·.currentEquity) decimal
    |>.field "curve_leverage" (·.curveLeverage) decimal
    |>.field "global_risk_scale" (·.globalRiskScale) decimal
    |>.field "max_single_asset_equity_pct" (·.maxSingleAssetEquityPct) decimal
    |>.field "max_net_equity_pct" (·.maxNetEquityPct) decimal
    |>.field "filled_positions" (·.filledPositions) (byName decimal)
    |>.field "filled_position_state_complete" (·.filledPositionStateComplete) .bool
    |>.field "acknowledged_open_orders" (·.acknowledgedOpenOrders) (.list openOrderExposure)
    |>.field "open_order_state_complete" (·.openOrderStateComplete) .bool
    |>.field "unconstrained_targets" (·.unconstrainedTargets) (byName decimal)
    |>.field "market_rules" (·.marketRules) (byName marketRules)
    |>.toSerde false (fun _ => rfl) fun _ => trivial

def timeInForce : Serde TimeInForce := .unitEnum (fun | .ioc => "ioc") [.ioc] fun _ => rfl

def preSigningContext : Serde (PreSigningContext D) :=
  StructSerde.start PreSigningContext.mk
    |>.field "now_mono" (·.nowMono) .nat
    |>.field "deployed_risk_policy_hash" (·.deployedRiskPolicyHash) (byteId 32)
    |>.field "projection_input" (·.projectionInput) portfolioProjectionInput
    |>.field "exchange_minimum_notional" (·.exchangeMinimumNotional) decimal
    |>.toSerde true (fun _ => rfl) fun _ => trivial

def authorizedExecutionIntent : Serde (AuthorizedExecutionIntent D) :=
  StructSerde.start AuthorizedExecutionIntent.mk
    |>.field "schema_version" (·.schemaVersion) .nat
    |>.field "decision_id" (·.decisionId) (byteId 32)
    |>.field "target_version" (·.targetVersion) (.newtype .nat)
    |>.field "root_cloid" (·.rootCloid) (byteId 16)
    |>.field "planned_cloid" (·.plannedCloid) (byteId 16)
    |>.field "parent_cloid" (·.parentCloid) (.option (byteId 16) cloid_present)
    |>.field "continuation_generation" (·.continuationGeneration) .nat
    |>.field "asset" (·.asset) .string
    |>.field "asset_index" (·.assetIndex) .nat
    |>.field "side" (·.side) side
    |>.field "quantity" (·.quantity) decimal
    |>.field "limit_price" (·.limitPrice) decimal
    |>.field "reduce_only" (·.reduceOnly) .bool
    |>.field "time_in_force" (·.timeInForce) timeInForce
    |>.field "projected_portfolio_hash" (·.projectedPortfolioHash) (byteId 32)
    |>.field "risk_policy_hash" (·.riskPolicyHash) (byteId 32)
    |>.field "configuration_hash" (·.configurationHash) (byteId 32)
    |>.field "market_rules_hash" (·.marketRulesHash) (bytes 32)
    |>.field "dynamic_floor_policy_hash" (·.dynamicFloorPolicyHash) (bytes 32)
    |>.field "ioc_policy_hash" (·.iocPolicyHash) (bytes 32)
    |>.field "observer_release_hash" (·.observerReleaseHash) (bytes 32)
    |>.field "signer_release_hash" (·.signerReleaseHash) (bytes 32)
    |>.field "release_manifest_hash" (·.releaseManifestHash) (bytes 32)
    |>.field "decision_reference_price" (·.decisionReferencePrice) decimal
    |>.field "expected_committed_before" (·.expectedCommittedBefore) decimal
    |>.field "expected_committed_after" (·.expectedCommittedAfter) decimal
    |>.field "decision_timestamp_ms" (·.decisionTimestampMs) .nat
    |>.field "expires_at" (·.expiresAt) .nat
    |>.field "authorization" (·.authorization) preSigningContext
    |>.field "canonical_hash" (·.canonicalHash) (bytes 32)
    |>.toSerde true (fun _ => rfl) fun _ => trivial

def exchangeFillIdentity : Serde ExchangeFillIdentity :=
  StructSerde.start ExchangeFillIdentity.mk
    |>.field "exchange_order_id" (·.exchangeOrderId) (.newtype .string)
    |>.field "trade_id" (·.tradeId) (.newtype .string)
    |>.field "cloid" (·.cloid) (byteId 16)
    |>.toSerde false (fun _ => rfl) fun _ => trivial

def liquidityClassification : Serde LiquidityClassification :=
  .unitEnum (fun
    | .maker => "maker"
    | .taker => "taker"
    | .unknown => "unknown") [.maker, .taker, .unknown] fun a => by cases a <;> rfl

def verifiedExchangeFill : Serde (VerifiedExchangeFill D) :=
  StructSerde.start VerifiedExchangeFill.mk
    |>.field "identity" (·.identity) exchangeFillIdentity
    |>.field "decision_id" (·.decisionId) (byteId 32)
    |>.field "target_version" (·.targetVersion) (.newtype .nat)
    |>.field "root_cloid" (·.rootCloid) (byteId 16)
    |>.field "parent_cloid" (·.parentCloid) (.option (byteId 16) cloid_present)
    |>.field "continuation_generation" (·.continuationGeneration) .nat
    |>.field "asset" (·.asset) .string
    |>.field "side" (·.side) side
    |>.field "reduce_only" (·.reduceOnly) .bool
    |>.field "filled_quantity" (·.filledQuantity) decimal
    |>.field "average_fill_price" (·.averageFillPrice) decimal
    |>.field "submitted_limit_price" (·.submittedLimitPrice) decimal
    |>.field "fee_amount" (·.feeAmount) decimal
    |>.field "exchange_closed_pnl" (·.exchangeClosedPnl) decimal
    |>.field "fee_asset" (·.feeAsset) .string
    |>.field "liquidity" (·.liquidity) liquidityClassification
    |>.field "decision_reference_price" (·.decisionReferencePrice) decimal
    |>.field "occurred_at" (·.occurredAt) .nat
    |>.field "decision_timestamp" (·.decisionTimestamp) .nat
    |>.field "exchange_equity_after" (·.exchangeEquityAfter) decimal
    |>.field "source_hash" (·.sourceHash) (byteId 32)
    |>.toSerde false (fun _ => rfl) fun _ => trivial

def verifiedFundingEvent : Serde (VerifiedFundingEvent D) :=
  StructSerde.start VerifiedFundingEvent.mk
    |>.field "event_id" (·.eventId) (byteId 32)
    |>.field "asset" (·.asset) .string
    |>.field "amount" (·.amount) decimal
    |>.field "occurred_at" (·.occurredAt) .nat
    |>.field "source_hash" (·.sourceHash) (byteId 32)
    |>.toSerde false (fun _ => rfl) fun _ => trivial

end

end Derived

end CopyTrade.Model
