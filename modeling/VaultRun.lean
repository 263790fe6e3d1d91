import VaultRun.Concurrency.Program
import VaultRun.Concurrency.Machine
import VaultRun.Concurrency.RelyGuarantee
import VaultRun.Data.Table
import VaultRun.Game.Rows
import VaultRun.Game.State
import VaultRun.Game.Statement
import VaultRun.Game.Wallet
import VaultRun.Game.Bets
import VaultRun.Game.Engine
import VaultRun.Game.System
import VaultRun.Game.Frame
import VaultRun.Game.Footprint
import VaultRun.Concurrency.History
import VaultRun.Game.Lifecycle
import VaultRun.Safety.CrashGate
import VaultRun.Safety.MoneyReturns
import VaultRun.Game.Claims
import VaultRun.Game.Payments
import VaultRun.Safety.ClaimedWins
import VaultRun.Safety.CancelledStakes
import VaultRun.Safety.OrphanDebits
import VaultRun.Safety.DecidedRounds
import VaultRun.Concurrency.Lease
import VaultRun.Game.Outbox
import VaultRun.Game.Reversals
import VaultRun.Safety.ConfirmedReversals
import VaultRun.Safety.OnceOnly
import VaultRun.Safety.VoidOrder
import VaultRun.Game.Routine
import VaultRun.Game.Course
import VaultRun.Safety.SeedReveal
import VaultRun.Fairness.SeedChain
import VaultRun.Fairness.Service
import VaultRun.Concurrency.Discipline
import VaultRun.Fairness.Frame
import VaultRun.Fairness.Memory
import VaultRun.Safety.ProvableRounds
import VaultRun.Safety.OneActiveEpoch
import VaultRun.Safety.BlockSalt
import VaultRun.Safety.EpochLifeCycle
import VaultRun.Concurrency.Alone
import VaultRun.Safety.StrictStall
import VaultRun.Ledger.Service
import VaultRun.Ledger.Stage
import VaultRun.Safety.LedgerIntegrity
import VaultRun.Game.WalletMoves
import VaultRun.Safety.CompensatedDebits
import VaultRun.Data.Sum
import VaultRun.Game.Reservations
import VaultRun.Safety.RoundExposure
import VaultRun.Game.InHand
import VaultRun.Fairness.Distribution
import VaultRun.Safety.ConstantReturn
import VaultRun.Data.Tally
import VaultRun.Fairness.EthBlock
import VaultRun.Data.Numeral
import VaultRun.Game.RiskService
import VaultRun.Data.Delimited
import VaultRun.Operators.Tag
import VaultRun.Safety.RiskCeilings
import VaultRun.Operators.Store
import VaultRun.Operators.Service
import VaultRun.Operators.Frame
import VaultRun.Safety.PlayMoney
import VaultRun.Election.Service
import VaultRun.Safety.Fencing
import VaultRun.Gateway.Service
import VaultRun.Safety.RealityCheck
import VaultRun.Public.Outputs
import VaultRun.Safety.SecretCrash
import VaultRun.Reporting.TransactionQuery
import VaultRun.Audit.Payload
import VaultRun.Data.Schema
import VaultRun.Operators.SessionLimits
import VaultRun.Operators.ApiKey
import VaultRun.Data.Grouping
import VaultRun.Reporting.Totals
import VaultRun.Safety.SessionClock
import VaultRun.Data.Keyset
import VaultRun.Reporting.Bets
import VaultRun.Safety.Deadman
import VaultRun.Game.Helm
import VaultRun.Safety.SingleRound
import VaultRun.Safety.RoundSteps
import VaultRun.Game.Settlement
import VaultRun.Safety.CrashedRounds
import VaultRun.Safety.MoneyBook
import VaultRun.Game.Unhindered
import VaultRun.Safety.Recovery
