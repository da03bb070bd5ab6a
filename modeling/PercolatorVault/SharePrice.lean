import PercolatorVault.PoolSegments

/-!
# The price of an LP token

No instruction other than a flush lowers the value behind one LP token, and
this composes along every run in which the pool is never emptied of LP.
-/

namespace PercolatorVault

open CheckedArithmetic
open ProportionalShares
open ShareLedger

section Price

variable {Pubkey : Type} [DecidableEq Pubkey] [Inhabited Pubkey]
  {rt : Runtime Pubkey} {start after : Bank Pubkey} {key : Pubkey}

theorem PoolStep.priceLe {d : Deployment Pubkey} {clock : Clock}
    {event : PoolEvent Pubkey} {view view' : PoolView Pubkey}
    (hstep : PoolStep d key clock event view view')
    (hcoherent : view.ledger.Coherent)
    (hflush : ∀ amount, event ≠ .flush amount)
    (hsupply : 0 < view.pool.totalLpSupply.toNat) :
    PriceLe view.pool.pot view'.pool.pot := by
  obtain ⟨operation, hperforms, hallowed, hledger⟩ := hstep.ledger_apply
  rw [← view.ledger_pot, ← view'.ledger_pot, hledger]
  exact hcoherent.priceLe_apply hallowed (hperforms.ne_flush hflush) hsupply

/-- A run without a flush of the pool in which some LP is outstanding after
every step. -/
inductive HoldingRun (rt : Runtime Pubkey) (key : Pubkey)
    (start : Bank Pubkey) : Bank Pubkey → Prop
  | start : HoldingRun rt key start start
  | step {before after : Bank Pubkey} {event : Event Pubkey}
      (hrun : HoldingRun rt key start before)
      (hstep : Step rt before event after)
      (hflush : ∀ amount, event.seenBy key ≠ .flush amount)
      (hheld : ∀ pool, rt.PoolAt after key pool →
        0 < pool.totalLpSupply.toNat) :
      HoldingRun rt key start after

/-- The price never falls along a holding run. -/
theorem HoldingRun.priceLe (hrun : HoldingRun rt key start after)
    (hstart : Reachable rt start) {view : PoolView Pubkey}
    (hview : Shows rt.toDeployment start key view)
    (hheld : 0 < view.pool.totalLpSupply.toNat) :
    Reachable rt after ∧ ∃ view', Shows rt.toDeployment after key view' ∧
      0 < view'.pool.totalLpSupply.toNat ∧
      PriceLe view.pool.pot view'.pool.pot := by
  induction hrun with
  | start => exact ⟨hstart, view, hview, hheld, PriceLe.refl _⟩
  | step _ hstep hflush hheld' ih =>
      obtain ⟨hreachable, earlier, hearlier, hpositive, hprice⟩ := ih
      obtain ⟨middle, view', hpool, hdrift, hshows, -⟩ :=
        hstep.poolStep hreachable.sound hearlier
      have hlast := hpool.priceLe (hreachable.coherent hearlier) hflush
        hpositive
      rw [← hdrift.pool] at hlast
      exact ⟨hreachable.step hstep, view', hshows,
        hheld' _ hshows.pool, hprice.trans hpositive hlast⟩

/-- Whoever deposits or withdraws whatever amounts, nobody's claim falls. -/
theorem HoldingRun.redeem_le (hrun : HoldingRun rt key start after)
    (hstart : Reachable rt start) {pool pool' : StakePool Pubkey}
    (hpool : rt.PoolAt start key pool) (hpool' : rt.PoolAt after key pool')
    (hheld : 0 < pool.totalLpSupply.toNat) {value value' : U64}
    (hvalue : pool.totalPoolValue = some value)
    (hvalue' : pool'.totalPoolValue = some value') :
    value.toNat * pool'.totalLpSupply.toNat ≤
        value'.toNat * pool.totalLpSupply.toNat ∧
      ∀ lp : ℕ,
        lp * value.toNat / pool.totalLpSupply.toNat ≤
          lp * value'.toNat / pool'.totalLpSupply.toNat := by
  obtain ⟨view, rfl, hview⟩ := hstart.shows_pool hpool
  obtain ⟨-, view', hview', hheld', hprice⟩ :=
    hrun.priceLe hstart hview hheld
  have hsame := hview'.pool.unique hpool'
  subst hsame
  have hbook := (StakePool.bookValue_of_totalPoolValue hvalue).1
  have hbook' := (StakePool.bookValue_of_totalPoolValue hvalue').1
  have hredeem := hprice.redeem_mono hheld hheld'
  simp only [PriceLe, StakePool.pot, Pot.redeem, hbook, hbook']
    at hprice hredeem
  exact ⟨hprice, hredeem⟩

end Price

namespace Reference

/-- The transactions succeed, none is a flush, and LP stays outstanding. -/
def keepsHolders (bank : Bank Address) : List (Transaction Address) → Bool
  | [] => true
  | transaction :: rest =>
      let next := transaction.perform runtime bank
      accepts bank transaction && !flushes transaction &&
        (poolIn next).all (fun pool => decide (0 < pool.totalLpSupply.toNat)) &&
        keepsHolders next rest

theorem holdingRun_of_keepsHolders {start bank : Bank Address}
    {transactions : List (Transaction Address)}
    (hrun : HoldingRun runtime poolKey start bank)
    (h : keepsHolders bank transactions = true) :
    HoldingRun runtime poolKey start
      (Transaction.performAll runtime bank transactions) := by
  induction transactions generalizing bank with
  | nil => exact hrun
  | cons transaction rest ih =>
      simp only [keepsHolders, Bool.and_eq_true] at h
      obtain ⟨⟨⟨haccepts, hflush⟩, hheld⟩, hrest⟩ := h
      refine ih (hrun.step (step_of_accepts haccepts)
        (ne_flush_of_not_flushes (by simpa using hflush)) ?_) hrest
      intro pool hpool
      rw [poolIn_eq_some.mpr hpool] at hheld
      simpa using hheld

def sharedMarket : List (Transaction Address) :=
  [initTradingPool 10, openLpAccount alice, openLpAccount bob,
    deposit alice 1000]

/-- Fees, a second deposit at a fractional price and a partial exit. -/
def sharedActivity : List (Transaction Address) :=
  [donate 50, accrueFees, deposit bob 300, waitUntil 1200 1,
    withdraw alice 400]

theorem sharedActivity_redeem_le : ∃ pool pool',
    (pool.totalPoolValue, pool.totalLpSupply) = (some 1000, 1000) ∧
      (pool'.totalPoolValue, pool'.totalLpSupply) = (some 930, 885) ∧
      deployment.PoolAt (bankAfter sharedMarket) poolKey pool ∧
      deployment.PoolAt
        (Transaction.performAll runtime (bankAfter sharedMarket)
          sharedActivity) poolKey pool' ∧
      ∀ lp : ℕ, lp * 1000 / pool.totalLpSupply.toNat ≤
        lp * 930 / pool'.totalLpSupply.toNat := by
  have hread : (poolIn (bankAfter sharedMarket)).map
      (fun pool => (pool.totalPoolValue, pool.totalLpSupply)) =
        some (some 1000, 1000) := by decide +kernel
  have hread' : (poolIn (Transaction.performAll runtime
      (bankAfter sharedMarket) sharedActivity)).map
        (fun pool => (pool.totalPoolValue, pool.totalLpSupply)) =
          some (some 930, 885) := by decide +kernel
  obtain ⟨pool, hpool, hnumbers⟩ := exists_poolAt hread
  obtain ⟨pool', hpool', hnumbers'⟩ := exists_poolAt hread'
  have hstart : Reachable runtime (bankAfter sharedMarket) :=
    bankAfter_reachable (by decide +kernel)
  have hkeeps : keepsHolders (bankAfter sharedMarket) sharedActivity = true :=
    by decide +kernel
  have hrun := holdingRun_of_keepsHolders .start hkeeps
  have hheld : 0 < pool.totalLpSupply.toNat := by
    have hsupply : pool.totalLpSupply = 1000 := congrArg Prod.snd hnumbers
    rw [hsupply]
    decide
  exact ⟨pool, pool', hnumbers, hnumbers', hpool, hpool',
    (HoldingRun.redeem_le hrun hstart hpool hpool' hheld
      (congrArg Prod.fst hnumbers) (congrArg Prod.fst hnumbers')).2⟩

end Reference

end PercolatorVault
