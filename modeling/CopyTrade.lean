import CopyTrade.Analysis.Decision.CohortCompaction
import CopyTrade.Analysis.Decision.CohortRefresh
import CopyTrade.Analysis.Decision.ConfidenceLadder
import CopyTrade.Analysis.Decision.IdentityPreimages
import CopyTrade.Analysis.Decision.OrderLifecycle
import CopyTrade.Analysis.Decision.PriceTicks
import CopyTrade.Analysis.Decision.RepeatedEvaluations
import CopyTrade.Analysis.Decision.SlotRotation
import CopyTrade.Analysis.Decision.StagedActions
import CopyTrade.Analysis.Ledger.AtomicCalls
import CopyTrade.Analysis.Ledger.LiveSettlement
import CopyTrade.Analysis.Observer.EvidenceChains
import CopyTrade.Analysis.Observer.ExitAttempts
import CopyTrade.Analysis.Observer.ExpectancyFold
import CopyTrade.Analysis.Observer.ExposureSync
import CopyTrade.Analysis.Observer.FetchedCandles
import CopyTrade.Analysis.Observer.FundingAccrual
import CopyTrade.Analysis.Observer.HandoffLanes
import CopyTrade.Analysis.Observer.IntentExpiry
import CopyTrade.Analysis.Observer.Replanning
import CopyTrade.Analysis.Observer.RootSummaries
import CopyTrade.Analysis.Observer.StateRoots
import CopyTrade.Analysis.Observer.WindowDrawdown
import CopyTrade.Analysis.Replay.DrainedSuccessors
import CopyTrade.Analysis.Replay.EventStream
import CopyTrade.Analysis.Replay.TerminalIntents
import CopyTrade.Analysis.Risk.Recovery
import CopyTrade.Analysis.Scheduling.BudgetLevels
import CopyTrade.Analysis.Scheduling.ClassIsolation
import CopyTrade.Analysis.Scheduling.RetryExecutions
import CopyTrade.Analysis.Scheduling.SourceTiers
import CopyTrade.Analysis.Scheduling.TierShares
import CopyTrade.Analysis.Signer.AssetBlocking
import CopyTrade.Analysis.Signer.CursorRuns
import CopyTrade.Analysis.Signer.ExchangeEvidence
import CopyTrade.Analysis.Signer.NonceOrder
import CopyTrade.Analysis.Signer.OutboxCapacity
import CopyTrade.Analysis.Signer.ProjectedOrders
import CopyTrade.Analysis.Signer.RegistryRestart
import CopyTrade.Analysis.Signer.RepeatedBatches
import CopyTrade.Analysis.Wire.DurableStates
import CopyTrade.Analysis.Wire.FrameExactness
