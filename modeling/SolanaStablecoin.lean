import SolanaStablecoin.Program.Raw
import SolanaStablecoin.Program.Credential
import SolanaStablecoin.Program.Keeper
import SolanaStablecoin.Program.Hook
import SolanaStablecoin.Program.Token2022
import SolanaStablecoin.Base.Conservation
import SolanaStablecoin.Base.Issuance
import SolanaStablecoin.Verify.Tokens
import SolanaStablecoin.Verify.Guards
import SolanaStablecoin.Verify.Effects
import SolanaStablecoin.Verify.Issue
import SolanaStablecoin.Verify.Redeem
import SolanaStablecoin.Verify.Admin
import SolanaStablecoin.Verify.Cdp
import SolanaStablecoin.Verify.Step
import SolanaStablecoin.Verify.Supply
import SolanaStablecoin.Verify.Custody
import SolanaStablecoin.Verify.Lock
import SolanaStablecoin.Verify.Halt
import SolanaStablecoin.Base.Ratio
import SolanaStablecoin.Verify.Health
import SolanaStablecoin.Verify.Fees
import SolanaStablecoin.Base.Tickets
import SolanaStablecoin.Program.Roles
import SolanaStablecoin.Verify.Roles
import SolanaStablecoin.Verify.Holdings
import SolanaStablecoin.Verify.Queue
import SolanaStablecoin.Verify.Payout
import SolanaStablecoin.Verify.Timelock
import SolanaStablecoin.Verify.Credential
import SolanaStablecoin.Verify.Layout
import SolanaStablecoin.Verify.Hook
import SolanaStablecoin.Verify.Interface
import SolanaStablecoin.Verify.Consensus
import SolanaStablecoin.Verify.Policy
import SolanaStablecoin.Program.Transfer
import SolanaStablecoin.Verify.Registration
import SolanaStablecoin.Verify.Revocation
import SolanaStablecoin.Verify.Blacklist
import SolanaStablecoin.Program.Compliance
import SolanaStablecoin.Program.Governance
import SolanaStablecoin.Program.Parameters
import SolanaStablecoin.Program.Consensus
import SolanaStablecoin.Program.Escrow
import SolanaStablecoin.Program.Insurance
import SolanaStablecoin.Base.Ensures
import SolanaStablecoin.Verify.Parameters
import SolanaStablecoin.Verify.Escrow
import SolanaStablecoin.Verify.Settings
import SolanaStablecoin.Verify.Administration
import SolanaStablecoin.Base.Payout
import SolanaStablecoin.Verify.Pbs
import SolanaStablecoin.Verify.Apc
import SolanaStablecoin.Verify.Bridge
import SolanaStablecoin.Base.Interest
import SolanaStablecoin.Verify.Accrual
import SolanaStablecoin.Verify.FeeRate
import SolanaStablecoin.Verify.CollateralTotals
import SolanaStablecoin.Verify.CollateralParameters
import SolanaStablecoin.Verify.OracleFeeds
import SolanaStablecoin.Verify.Standing
import SolanaStablecoin.Verify.Reserve
import SolanaStablecoin.Base.Ballot
import SolanaStablecoin.Verify.Guardians
import SolanaStablecoin.Verify.PauseBit
import SolanaStablecoin.Verify.Committee
import SolanaStablecoin.Verify.Flags
import SolanaStablecoin.Verify.Suspension
import SolanaStablecoin.Verify.Succession
import SolanaStablecoin.Verify.Rotation
import SolanaStablecoin.Verify.Breaker
import SolanaStablecoin.Verify.Epoch
import SolanaStablecoin.Verify.Backstop
import SolanaStablecoin.Verify.Funds
import SolanaStablecoin.Verify.Insurance
import SolanaStablecoin.Verify.InsuranceGate
import SolanaStablecoin.Verify.Guarantee
import SolanaStablecoin.Verify.QueueProgress
import SolanaStablecoin.Verify.Pool
import SolanaStablecoin.Verify.Monitors
import SolanaStablecoin.Verify.Unpause
import SolanaStablecoin.Base.Majority
import SolanaStablecoin.Verify.Rounds
import SolanaStablecoin.Verify.Sessions
import SolanaStablecoin.Verify.Freshness
import SolanaStablecoin.Verify.Scale
import SolanaStablecoin.Verify.Sanctions
import SolanaStablecoin.Verify.TravelRule
import SolanaStablecoin.Verify.RateLimit
import SolanaStablecoin.Verify.Meter
import SolanaStablecoin.Verify.TwoCopies
import SolanaStablecoin.Verify.SpendPolicy
import SolanaStablecoin.Verify.DynamicFee
import SolanaStablecoin.Verify.CustomFeed
import SolanaStablecoin.Verify.LiquidationBonus
import SolanaStablecoin.Verify.LifetimeCap
import SolanaStablecoin.Base.Slots
import SolanaStablecoin.Verify.KeeperList
import SolanaStablecoin.Program.Migration
import SolanaStablecoin.Verify.Migration
import SolanaStablecoin.Base.Feed
import SolanaStablecoin.Backend.Indexer
import SolanaStablecoin.Verify.Indexer
import SolanaStablecoin.Base.AntiJoin
import SolanaStablecoin.Backend.Liquidations
import SolanaStablecoin.Verify.Liquidations
import SolanaStablecoin.Base.Table
import SolanaStablecoin.Backend.Webhooks
import SolanaStablecoin.Verify.Deliveries
import SolanaStablecoin.Verify.DeliveryProtocol
import SolanaStablecoin.Verify.DeliveryProgress
import SolanaStablecoin.Base.Scaling
import SolanaStablecoin.Verify.Valuation
import SolanaStablecoin.Verify.Liquidation
import SolanaStablecoin.Verify.LiquidatorLimits
import SolanaStablecoin.Verify.PartialLiquidation
import SolanaStablecoin.Verify.LiquidationVersions
import SolanaStablecoin.Base.Pledge
import SolanaStablecoin.Verify.Repayment
import SolanaStablecoin.Base.Window
import SolanaStablecoin.Verify.LiquidationArithmetic
import SolanaStablecoin.Verify.SlotCap
import SolanaStablecoin.Verify.DailyLimit
import SolanaStablecoin.Backend.Supply
import SolanaStablecoin.Verify.RollingWindow
import SolanaStablecoin.Verify.SupplyLedger
import SolanaStablecoin.Verify.Median
import SolanaStablecoin.Verify.Outliers
import SolanaStablecoin.Verify.Sources
import SolanaStablecoin.Program.Views
import SolanaStablecoin.Verify.PsmCurve
import SolanaStablecoin.Verify.FeeController
import SolanaStablecoin.Verify.MarketMakers
import SolanaStablecoin.Verify.BackstopUnits
import SolanaStablecoin.Backend.CircuitBreaker
import SolanaStablecoin.Verify.Base64
import SolanaStablecoin.Base.Compact
import SolanaStablecoin.Verify.CircuitBreaker
import SolanaStablecoin.Base.Smoothing
import SolanaStablecoin.Verify.Twap
import SolanaStablecoin.Verify.Signers
import SolanaStablecoin.Verify.Isolation
import SolanaStablecoin.Verify.Charter
import SolanaStablecoin.Base.Temporal
import SolanaStablecoin.Spec.Sss
import SolanaStablecoin.Verify.Specification
import SolanaStablecoin.Verify.Solvency
import SolanaStablecoin.Verify.Exits
