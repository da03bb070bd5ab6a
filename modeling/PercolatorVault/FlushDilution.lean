import PercolatorVault.PoolSegments

/-!
# Deposits between a flush and its return

While collateral is flushed the pool value does not count it, so LP is minted
at a price below the one holders get back once the collateral returns.  The
deposit costs them nothing exactly when the flushed amount is too small to
change the number of LP minted.
-/

namespace PercolatorVault

open CheckedArithmetic
open ProportionalShares
open ShareLedger

section Dilution

variable {Pubkey : Type} [DecidableEq Pubkey] [Inhabited Pubkey]
  {rt : Runtime Pubkey} {before after : Bank Pubkey} {key user : Pubkey}
  {flushed amount : U64}

/-- The deposit mints at the value left by the flush. -/
theorem Calls.flushedDeposit_pot
    (hcalls : Calls rt key before
      [.flush flushed, .deposit user amount, .returnInsurance flushed] after)
    (hbefore : Reachable rt before) {view : PoolView Pubkey}
    (hview : Shows rt.toDeployment before key view)
    (hheld : 0 < view.pool.totalLpSupply.toNat) :
    ∃ low view', Shows rt.toDeployment after key view' ∧ 0 < low ∧
      view.pool.bookValue = low + flushed.toNat ∧
      view'.pool.pot = view.pool.pot.issue amount.toNat
        ((Pot.mk low view.pool.totalLpSupply.toNat).mint amount.toNat) := by
  obtain ⟨_, _, flushedView, hflush, hreachable, hflushedView, hcalls⟩ :=
    hcalls.cons_operates hbefore hview
  obtain ⟨_, _, depositedView, hdeposit, hreachable', hdepositedView,
    hcalls⟩ := hcalls.cons_operates hreachable hflushedView
  obtain ⟨_, view', hreturn, -, hview'⟩ :=
    hcalls.singleton_operates hreachable' hdepositedView
  obtain ⟨hle, hflushedPot⟩ := hflush.flush_pot
  have hvalue : flushedView.pool.bookValue =
      view.pool.bookValue - flushed.toNat := congrArg Pot.value hflushedPot
  have hsupply : flushedView.pool.totalLpSupply.toNat =
      view.pool.totalLpSupply.toNat := congrArg Pot.supply hflushedPot
  obtain ⟨hlow, hdepositedPot⟩ :=
    hdeposit.deposit_pot (hreachable.coherent hflushedView) (by omega)
  have hpot :=
    hreturn.returnInsurance_pot (hreachable'.coherent hdepositedView)
  refine ⟨flushedView.pool.bookValue, view', hview', hlow, by omega, ?_⟩
  rw [hpot, hdepositedPot, StakePool.pot, hsupply]
  simp only [StakePool.pot, Pot.issue, Pot.gain, Pot.mk.injEq, and_true]
  omega

end Dilution

namespace Reference

def insuredMarket : List (Transaction Address) :=
  [initPool 10, openLpAccount alice, openLpAccount bob, deposit alice 100]

/-- Alice holds all LP; one unit is in the vault while bob deposits one. -/
def fullFlush : List (Transaction Address) :=
  [flush 99, deposit bob 1, returnInsurance 99]

end Reference

end PercolatorVault
