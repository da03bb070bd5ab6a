import PercolatorVault.LedgerRefinement
import PercolatorVault.ReferenceMarket

/-!
# Solvency

What has left a pool never exceeds what came in, and the difference is in the
vault.  On a trading pool the offset of tokens that nobody owned when there
was no LP supply is in the vault as well.
-/

namespace PercolatorVault

open CheckedArithmetic

section Solvency

variable {Pubkey : Type}

/-- Tokens set aside for nobody. -/
def StakePool.unowned (pool : StakePool Pubkey) : ℕ :=
  if pool.poolMode = 1 then pool.preSupplyVaultOffset.toNat else 0

theorem PoolView.ledger_unowned (view : PoolView Pubkey) :
    (bif view.ledger.trading then view.ledger.offset else 0) =
      view.pool.unowned := by
  unfold StakePool.unowned PoolView.ledger
  by_cases hmode : view.pool.poolMode = 1 <;> simp [hmode]

variable [DecidableEq Pubkey] [Inhabited Pubkey] {rt : Runtime Pubkey}
  {bank : Bank Pubkey}

theorem Reachable.solvent (h : Reachable rt bank) {key : Pubkey}
    {pool : StakePool Pubkey} (hpool : rt.PoolAt bank key pool) :
    pool.outflow ≤ pool.inflow ∧
      ∃ balance, rt.TokenAt bank pool.vault balance ∧
        pool.inflow - pool.outflow + pool.unowned ≤
          balance.amount.toNat := by
  obtain ⟨view, rfl, hview⟩ := h.shows_pool hpool
  have hcoherent := h.coherent hview
  have hcovered := hcoherent.covered
  have hbacked := hcoherent.backed
  rw [view.ledger_inflow, view.ledger_outflow] at hcovered
  rw [view.ledger_value, view.ledger_unowned] at hbacked
  exact ⟨hcovered, _, hview.vault, hbacked⟩

end Solvency

namespace Reference

/-- A trading pool with booked fees, a donation nobody has booked yet and one
withdrawal behind it. -/
def busyMarket : List (Transaction Address) :=
  [initTradingPool 10, openLpAccount alice, openLpAccount bob, donate 7,
    accrueFees, deposit alice 1000, donate 50, accrueFees, deposit bob 300,
    waitUntil 1200 1, withdraw alice 400, donate 5]

theorem busyMarket_solvent :
    ∃ pool, deployment.PoolAt (bankAfter busyMarket) poolKey pool ∧
      (pool.inflow, pool.outflow, pool.unowned) = (1350, 420, 7) ∧
      pool.outflow ≤ pool.inflow ∧
      ∃ balance,
        deployment.TokenAt (bankAfter busyMarket) pool.vault balance ∧
        pool.inflow - pool.outflow + pool.unowned ≤
          balance.amount.toNat := by
  have hread : (poolIn (bankAfter busyMarket)).map
      (fun pool => (pool.inflow, pool.outflow, pool.unowned)) =
        some (1350, 420, 7) := by decide +kernel
  obtain ⟨pool, hpool, hnumbers⟩ := exists_poolAt hread
  exact ⟨pool, hpool, hnumbers,
    Reachable.solvent (bankAfter_reachable (by decide +kernel)) hpool⟩

end Reference

end PercolatorVault
