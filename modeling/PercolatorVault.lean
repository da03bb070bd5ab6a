import PercolatorVault.CheckedArithmetic
import PercolatorVault.ProportionalShares
import PercolatorVault.ShareLedger
import PercolatorVault.FiniteTallies
import PercolatorVault.LittleEndian
import PercolatorVault.LpMath
import PercolatorVault.PoolState
import PercolatorVault.ReservedFields
import PercolatorVault.FallibleSteps
import PercolatorVault.StakeInstruction
import PercolatorVault.Bank
import PercolatorVault.Processor
import PercolatorVault.BankFrame
import PercolatorVault.ReferenceRuntime
import PercolatorVault.PoolView
import PercolatorVault.BankInvariant
import PercolatorVault.PoolMachine
import PercolatorVault.PoolUpdates
import PercolatorVault.Runs
import PercolatorVault.Transactions
import PercolatorVault.ReferenceMarket
import PercolatorVault.Simulation
import PercolatorVault.DepositSimulation
import PercolatorVault.WithdrawSimulation
import PercolatorVault.AdminSimulation
import PercolatorVault.InitSimulation
import PercolatorVault.RunInvariants
import PercolatorVault.LedgerRefinement
import PercolatorVault.Solvency
import PercolatorVault.DepositRecords
import PercolatorVault.PoolSegments
import PercolatorVault.SharePrice
import PercolatorVault.TradingPools
import PercolatorVault.LpConservation
import PercolatorVault.HighWaterMark
import PercolatorVault.FlushDilution
import PercolatorVault.PendingFees
import PercolatorVault.FirstDepositor
import PercolatorVault.SplitDeposits
import PercolatorVault.Availability
import PercolatorVault.ShareSequences
import PercolatorVault.CooldownSlot
import PercolatorVault.AdminEffects
import PercolatorVault.FrozenFields
import PercolatorVault.CrankSchedules
import PercolatorVault.PoolCreation
import PercolatorVault.HwmConfiguration
import PercolatorVault.VaultAuthority
import PercolatorVault.StandingGuards
import PercolatorVault.ExternalPrograms
import PercolatorVault.PdaCreation
import PercolatorVault.WithdrawAcceptance
import PercolatorVault.DepositAcceptance
import PercolatorVault.PoolLifetime
import PercolatorVault.PreSupplyDust
import PercolatorVault.InstructionLayout
import PercolatorVault.FlushCeiling
import PercolatorVault.ValueMirrors
import PercolatorVault.ParValue
import PercolatorVault.InsuranceCycles
import PercolatorVault.CoalitionProfit
import PercolatorVault.OverflowedPools
import PercolatorVault.EpochSequences
import PercolatorVault.DepositLocks
import PercolatorVault.PlainRecords
import PercolatorVault.AccountLayout
import PercolatorVault.AccountBytes
import PercolatorVault.ProofMirrors
import PercolatorVault.CallScope
import PercolatorVault.TokenTotals
import PercolatorVault.OrderlyExits
import PercolatorVault.PoolIsolation
import PercolatorVault.ShareRegister
import PercolatorVault.BookReplay
import PercolatorVault.Refusals
