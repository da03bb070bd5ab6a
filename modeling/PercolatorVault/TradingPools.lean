import PercolatorVault.PoolSegments

/-!
# Trading pools

A pool created by InitTradingPool never flushes and never takes insurance
back, so both readings of its value agree, and it has no LP supply exactly
when nothing is booked.  Neither case in which a deposit is refused because of
the price can then arise.
-/

namespace PercolatorVault

open CheckedArithmetic
open ShareLedger

variable {Pubkey : Type}

/-- What deposits into a pool rely on. -/
structure StakePool.Bootstrappable (pool : StakePool Pubkey) : Prop where
  mode : pool.poolMode = 1
  unflushed : pool.totalFlushed = 0
  unreturned : pool.totalReturned = 0
  baseline : pool.accrualBaseline = pool.totalPoolValue
  shared : pool.totalLpSupply = 0 ↔
    pool.totalDeposited.toNat + pool.totalFeesEarned.toNat =
      pool.totalWithdrawn.toNat

/-- Without flushes and returns the two values are computed from the same
numbers. -/
theorem StakePool.accrualBaseline_eq {pool : StakePool Pubkey}
    (hmode : pool.poolMode = 1) (hflushed : pool.totalFlushed.toNat = 0)
    (hreturned : pool.totalReturned.toNat = 0) :
    pool.accrualBaseline = pool.totalPoolValue := by
  apply Option.ext
  intro value
  rw [accrualBaseline_eq_some, totalPoolValue_eq_some]
  unfold inflow outflow
  rw [if_pos hmode, hflushed, hreturned]
  have hwithdrawn := pool.totalWithdrawn.isLt
  omega

theorem PoolView.bootstrappable {view : PoolView Pubkey}
    (h : view.ledger.Coherent) (hmode : view.pool.poolMode = 1) :
    view.pool.Bootstrappable := by
  have htrading := PoolView.ledger_trading.mpr hmode
  obtain ⟨hflushed, hreturned⟩ := h.unflushed htrading
  have hcovered := h.covered
  have hshared := h.shared htrading
  change view.pool.totalFlushed.toNat = 0 at hflushed
  change view.pool.totalReturned.toNat = 0 at hreturned
  refine ⟨hmode, toNat_eq_zero.mp hflushed, toNat_eq_zero.mp hreturned,
    StakePool.accrualBaseline_eq hmode hflushed hreturned, ?_⟩
  rw [view.ledger_inflow, view.ledger_outflow] at hcovered
  rw [view.ledger_supply, view.ledger_value] at hshared
  unfold StakePool.bookValue StakePool.inflow StakePool.outflow at *
  rw [if_pos hmode] at hcovered hshared
  rw [← toNat_eq_zero, hshared]
  omega

/-- The supply is zero exactly when the value is. -/
theorem StakePool.Bootstrappable.supply_eq_zero_iff {pool : StakePool Pubkey}
    (h : pool.Bootstrappable) {value : U64}
    (hvalue : pool.totalPoolValue = some value) :
    pool.totalLpSupply = 0 ↔ value = 0 := by
  rw [h.shared, ← toNat_eq_zero]
  rw [← h.baseline] at hvalue
  obtain ⟨-, hbaseline⟩ := StakePool.accrualBaseline_eq_some.mp hvalue
  omega

section Runs

variable [DecidableEq Pubkey] [Inhabited Pubkey] {rt : Runtime Pubkey}
  {start created bank : Bank Pubkey} {accounts : List (AccountInfo Pubkey)}
  {cooldownSlots depositCap : U64} {events : List (Event Pubkey)}

theorem tradingPool_bootstrappable (hstart : Reachable rt start)
    (hsigned : SignedByOthers rt.toDeployment accounts)
    (hinit : processInstruction rt accounts
      (.initTradingPool cooldownSlots depositCap) start = .ok created)
    (hrun : Run rt created events bank) :
    ∃ info pool, accounts[2]? = some info ∧ rt.PoolAt bank info.key pool ∧
      pool.Bootstrappable ∧
      ∀ value, pool.totalPoolValue = some value →
        ¬ (pool.totalLpSupply = 0 ∧ value ≠ 0) ∧
        ¬ (pool.totalLpSupply ≠ 0 ∧ value = 0) := by
  have hcreated : Reachable rt created :=
    hstart.step (.instruction hsigned hinit)
  obtain ⟨a, rest, view, haccounts, hmode, hpool⟩ :=
    processInitTradingPool_created hstart.sound hinit
  obtain ⟨view', hview', hmode'⟩ :=
    hrun.shows hcreated.sound hpool.shows_new
  rw [hmode] at hmode'
  have hboot := PoolView.bootstrappable
    ((hcreated.run hrun).coherent hview') hmode'
  refine ⟨a.poolPda, view'.pool, ?_, hview'.pool, hboot, ?_⟩
  · rw [haccounts]
    rfl
  · intro value hvalue
    have hiff := hboot.supply_eq_zero_iff hvalue
    exact ⟨fun h => h.2 (hiff.mp h.1), fun h => h.1 (hiff.mpr h.2)⟩

end Runs

namespace Reference

/-- Dust before the first deposit, fees, and a full exit. -/
theorem tradingPool_bootstrappable_afterExit : ∃ info pool,
    initAccounts[2]? = some info ∧
      deployment.PoolAt
        (Transaction.performAll runtime
          ((initTradingPool 10).perform runtime genesis)
          [openLpAccount alice, donate 7, accrueFees, deposit alice 1000,
            donate 50, accrueFees, waitUntil 1200 1, withdraw alice 1000])
        info.key pool ∧
      pool.Bootstrappable ∧
      ∀ value, pool.totalPoolValue = some value →
        ¬ (pool.totalLpSupply = 0 ∧ value ≠ 0) ∧
        ¬ (pool.totalLpSupply ≠ 0 ∧ value = 0) := by
  have hinit : accepts genesis (initTradingPool 10) = true := by
    decide +kernel
  have hstart : Reachable runtime genesis :=
    ⟨genesis, [], genesis_genesis, .start⟩
  cases step_of_accepts hinit with
  | instruction hsigned hrun =>
      exact tradingPool_bootstrappable hstart hsigned hrun
        (run_of_acceptsAll (by decide +kernel))

end Reference

end PercolatorVault
