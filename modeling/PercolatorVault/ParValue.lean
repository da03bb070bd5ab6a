import PercolatorVault.SharePrice
import PercolatorVault.Solvency

/-!
# LP tokens at par

The first deposit buys one LP token per unit of collateral, and only a flush
lowers the price.  So as long as nothing was ever flushed from a pool, and
always on a trading pool, an LP token is worth at least one unit: a withdrawal
pays no less than the LP it burns and a deposit mints no more than it brings.
-/

namespace PercolatorVault

open CheckedArithmetic
open ProportionalShares
open ShareLedger

variable {Pubkey : Type}

/-! ## The two price functions at par -/

theorem StakePool.le_of_calcCollateralForWithdraw {pool : StakePool Pubkey}
    (hpar : pool.pot.AtPar) {lpAmount collateral : U64}
    (h : pool.calcCollateralForWithdraw lpAmount = some collateral) :
    lpAmount.toNat ≤ collateral.toNat := by
  obtain ⟨value, hvalue, hsupply, hcollateral⟩ :=
    StakePool.calcCollateralForWithdraw_eq_some.mp h
  have hredeem := hpar.le_redeem hsupply lpAmount.toNat
  unfold StakePool.pot at hredeem
  rw [(StakePool.bookValue_of_totalPoolValue hvalue).1] at hredeem
  rw [hcollateral]
  exact hredeem

theorem StakePool.calcLpForDeposit_le {pool : StakePool Pubkey}
    (hpar : pool.pot.AtPar) {amount lp : U64}
    (h : pool.calcLpForDeposit amount = some lp) :
    lp.toNat ≤ amount.toNat := by
  rcases StakePool.calcLpForDeposit_eq_some.mp h with
    ⟨-, -, rfl⟩ | ⟨value, hvalue, -, -, hlp⟩
  · exact le_rfl
  · have hmint := hpar.mint_le amount.toNat
    unfold StakePool.pot at hmint
    rw [(StakePool.bookValue_of_totalPoolValue hvalue).1] at hmint
    rw [hlp]
    exact hmint

/-! ## Reachable pools -/

section Reachable

variable [DecidableEq Pubkey] [Inhabited Pubkey] {rt : Runtime Pubkey}
  {bank : Bank Pubkey} {key : Pubkey}

omit [DecidableEq Pubkey] in
theorem PoolView.Fresh.parUnlessFlushed {view : PoolView Pubkey}
    (h : view.Fresh) : view.ledger.ParUnlessFlushed := by
  intro _
  obtain ⟨trading, vault, hledger⟩ := h.ledger_eq
  rw [hledger]
  exact Nat.zero_le _

theorem Reachable.parUnlessFlushed (h : Reachable rt bank)
    {view : PoolView Pubkey} (hview : Shows rt.toDeployment bank key view) :
    view.ledger.ParUnlessFlushed := by
  have hboth : view.ledger.Coherent ∧ view.ledger.ParUnlessFlushed := by
    refine h.invariant
      (fun view => view.ledger.Coherent ∧ view.ledger.ParUnlessFlushed)
      ?_ ?_ ?_ hview
    · intro view hfresh
      exact ⟨hfresh.coherent, hfresh.parUnlessFlushed⟩
    · rintro _ _ _ view view' hstep ⟨hcoherent, hpar⟩
      obtain ⟨operation, -, hallowed, hledger⟩ := hstep.ledger_apply
      rw [hledger]
      exact ⟨hcoherent.apply hallowed,
        hcoherent.parUnlessFlushed_apply hallowed hpar⟩
    · rintro _ view view' hdrift ⟨hcoherent, hpar⟩
      rw [hdrift.ledger_apply]
      exact ⟨hcoherent.apply trivial, hpar⟩
  exact hboth.2

theorem Reachable.pot_atPar (h : Reachable rt bank) {view : PoolView Pubkey}
    (hview : Shows rt.toDeployment bank key view)
    (hunflushed : view.pool.poolMode = 1 ∨ view.pool.totalFlushed = 0) :
    view.pool.pot.AtPar := by
  have hflushed : view.ledger.flushed = 0 := by
    rcases hunflushed with hmode | hzero
    · exact ((h.coherent hview).unflushed
        (PoolView.ledger_trading.mpr hmode)).1
    · exact toNat_eq_zero.mpr hzero
  have hpar := h.parUnlessFlushed hview hflushed
  rw [view.ledger_pot] at hpar
  exact hpar

/-- An LP token of a pool that never flushed is worth at least one unit. -/
theorem Reachable.atPar (h : Reachable rt bank) {pool : StakePool Pubkey}
    (hpool : rt.PoolAt bank key pool)
    (hunflushed : pool.poolMode = 1 ∨ pool.totalFlushed = 0) :
    pool.totalLpSupply.toNat ≤ pool.bookValue ∧
      (∀ lpAmount collateral,
        pool.calcCollateralForWithdraw lpAmount = some collateral →
          lpAmount.toNat ≤ collateral.toNat) ∧
      ∀ amount lp, pool.calcLpForDeposit amount = some lp →
        lp.toNat ≤ amount.toNat := by
  obtain ⟨view, rfl, hview⟩ := h.shows_pool hpool
  have hpar := h.pot_atPar hview hunflushed
  exact ⟨hpar, fun _ _ => StakePool.le_of_calcCollateralForWithdraw hpar,
    fun _ _ => StakePool.calcLpForDeposit_le hpar⟩

end Reachable

namespace Reference

/-- After fees, a second deposit and a withdrawal 885 LP are worth 930. -/
theorem busyMarket_atPar : ∃ pool,
    deployment.PoolAt (bankAfter busyMarket) poolKey pool ∧
      (pool.poolMode, pool.totalLpSupply, pool.bookValue) = (1, 885, 930) ∧
      pool.totalLpSupply.toNat ≤ pool.bookValue ∧
      (∀ lpAmount collateral,
        pool.calcCollateralForWithdraw lpAmount = some collateral →
          lpAmount.toNat ≤ collateral.toNat) ∧
      ∀ amount lp, pool.calcLpForDeposit amount = some lp →
        lp.toNat ≤ amount.toNat := by
  have hread : (poolIn (bankAfter busyMarket)).map (fun pool =>
      (pool.poolMode, pool.totalLpSupply, pool.bookValue)) =
        some (1, 885, 930) := by decide +kernel
  obtain ⟨pool, hpool, hnumbers⟩ := exists_poolAt hread
  exact ⟨pool, hpool, hnumbers,
    Reachable.atPar (bankAfter_reachable (by decide +kernel)) hpool
      (Or.inl (congrArg Prod.fst hnumbers))⟩

end Reference

end PercolatorVault
