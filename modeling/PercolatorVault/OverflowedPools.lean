import PercolatorVault.Availability

/-!
# After the totals outgrew the word

Once everything that ever came into a pool no longer fits in 64 bits, the
value cannot be computed, and nothing makes the totals smaller again.  So the
pool never pays anything out any more: no withdrawal and no flush succeeds in
any continuation, and with LP outstanding no deposit and no crank either.
What is in the vault stays there.
-/

namespace PercolatorVault

open CheckedArithmetic
open ShareLedger

variable {Pubkey : Type}

/-- Events that take tokens out of the vault of a pool. -/
def PoolEvent.PaysOut : PoolEvent Pubkey → Prop
  | .withdraw _ _ => True
  | .flush _ => True
  | _ => False

/-- Events whose handler asks for the value of the pool or for what a crank
expects. -/
def PoolEvent.AsksValue : PoolEvent Pubkey → Prop
  | .deposit _ _ => True
  | .withdraw _ _ => True
  | .flush _ => True
  | .accrueFees => True
  | _ => False

/-- What can still happen to a pool: nothing leaves, and nothing else changes
while LP is outstanding. -/
structure PoolView.Stranded (view view' : PoolView Pubkey) : Prop where
  inflow : view.pool.inflow ≤ view'.pool.inflow
  withdrawn : view'.pool.totalWithdrawn = view.pool.totalWithdrawn
  flushed : view'.pool.totalFlushed = view.pool.totalFlushed
  vault : view.vaultAmount.toNat ≤ view'.vaultAmount.toNat
  held : 0 < view.pool.totalLpSupply.toNat →
    view'.pool.totalLpSupply = view.pool.totalLpSupply ∧
      view'.pool.totalDeposited = view.pool.totalDeposited ∧
      view'.pool.totalFeesEarned = view.pool.totalFeesEarned

namespace PoolView.Stranded

variable {view middle view' : PoolView Pubkey}

theorem refl (view : PoolView Pubkey) : Stranded view view :=
  ⟨le_rfl, rfl, rfl, le_rfl, fun _ => ⟨rfl, rfl, rfl⟩⟩

theorem trans (h : Stranded view middle) (h' : Stranded middle view') :
    Stranded view view' where
  inflow := h.inflow.trans h'.inflow
  withdrawn := h'.withdrawn.trans h.withdrawn
  flushed := h'.flushed.trans h.flushed
  vault := h.vault.trans h'.vault
  held hheld := by
    obtain ⟨hsupply, hdeposited, hfees⟩ := h.held hheld
    obtain ⟨hsupply', hdeposited', hfees'⟩ := h'.held (by rwa [hsupply])
    exact ⟨hsupply'.trans hsupply, hdeposited'.trans hdeposited,
      hfees'.trans hfees⟩

theorem drift {burned : ℕ} (h : Stranded view middle)
    (hdrift : Drift burned middle view') : Stranded view view' := by
  obtain ⟨hinflow, hwithdrawn, hflushed, hvault, hheld⟩ := h
  rw [← hdrift.pool] at hinflow hwithdrawn hflushed hheld
  exact ⟨hinflow, hwithdrawn, hflushed, hvault.trans hdrift.vault, hheld⟩

end PoolView.Stranded

section Overflowed

variable {pool : StakePool Pubkey}

theorem StakePool.totalPoolValue_eq_none (h : 2 ^ 64 ≤ pool.inflow) :
    pool.totalPoolValue = none := by
  cases hvalue : pool.totalPoolValue with
  | none => rfl
  | some value =>
      have hfits := (StakePool.totalPoolValue_eq_some.mp hvalue).1
      omega

/-- Only into a pool without LP can anything be deposited. -/
theorem StakePool.empty_of_calcLpForDeposit (h : 2 ^ 64 ≤ pool.inflow)
    {amount lp : U64} (hlp : pool.calcLpForDeposit amount = some lp) :
    pool.totalLpSupply.toNat = 0 := by
  rcases StakePool.calcLpForDeposit_eq_some.mp hlp with
    ⟨hempty, -, -⟩ | ⟨value, hvalue, -⟩
  · exact hempty
  · rw [StakePool.totalPoolValue_eq_none h] at hvalue
    cases hvalue

theorem StakePool.calcCollateralForWithdraw_eq_none
    (h : 2 ^ 64 ≤ pool.inflow) (lpAmount : U64) :
    pool.calcCollateralForWithdraw lpAmount = none := by
  unfold StakePool.calcCollateralForWithdraw
  rw [StakePool.totalPoolValue_eq_none h]
  rfl

variable [DecidableEq Pubkey] [Inhabited Pubkey] {d : Deployment Pubkey}
  {key : Pubkey} {clock : Clock} {event : PoolEvent Pubkey}
  {view view' : PoolView Pubkey}

theorem PoolStep.inflow_le (hstep : PoolStep d key clock event view view') :
    view.pool.inflow ≤ view'.pool.inflow := by
  obtain ⟨operation, hoperates, -⟩ := hstep.operates
  rw [hoperates.inflow_eq]
  exact Nat.le_add_right _ _

/-- A crank of a pool with LP does not find what it expects. -/
theorem PoolStep.empty_of_accrueFees
    (hstep : PoolStep d key clock .accrueFees view view')
    (hcoherent : view.ledger.Coherent) (h : 2 ^ 64 ≤ view.pool.inflow) :
    view.pool.totalLpSupply.toNat = 0 := by
  cases hstep with
  | accrueFees hmode hpool =>
      rcases StakePool.accrue_eq_ok hpool with
        ⟨hsupply, -⟩ | ⟨-, baseline, -, hbaseline, -⟩
      · exact hsupply
      · have hboot := PoolView.bootstrappable hcoherent hmode
        rw [hboot.baseline, StakePool.totalPoolValue_eq_none h] at hbaseline
        cases hbaseline

theorem PoolStep.stranded (hstep : PoolStep d key clock event view view')
    (hcoherent : view.ledger.Coherent) (h : 2 ^ 64 ≤ view.pool.inflow) :
    ¬ event.PaysOut ∧
      (0 < view.pool.totalLpSupply.toNat → ¬ event.AsksValue) ∧
      PoolView.Stranded view view' := by
  have hinflow := hstep.inflow_le
  cases event with
  | deposit user amount =>
      cases hstep with
      | deposit _ _ _ _ hlp _ hpool _ hvault _ =>
          have hempty := StakePool.empty_of_calcLpForDeposit h hlp
          obtain ⟨_, _, _, _, _, rfl, _⟩ := StakePool.recordDeposit_eq_ok hpool
          refine ⟨id, fun hheld => by omega, hinflow, rfl, rfl, ?_,
            fun hheld => by omega⟩
          dsimp only
          omega
  | withdraw user lpAmount =>
      cases hstep with
      | withdraw _ _ _ hcollateral =>
          rw [StakePool.calcCollateralForWithdraw_eq_none h] at hcollateral
          cases hcollateral
  | flush amount =>
      cases hstep with
      | flush _ hmode hceiling =>
          rw [StakePool.flushCeiling_eq hmode,
            StakePool.totalPoolValue_eq_none h] at hceiling
          cases hceiling
  | returnInsurance amount =>
      cases hstep with
      | returnInsurance hmode _ hvault =>
          refine ⟨id, fun _ => id, hinflow, rfl, rfl, ?_,
            fun _ => ⟨rfl, rfl, rfl⟩⟩
          dsimp only
          omega
  | accrueFees =>
      have hempty := hstep.empty_of_accrueFees hcoherent h
      cases hstep with
      | accrueFees hmode hpool =>
          refine ⟨id, fun hheld => by omega, hinflow, ?_, ?_, le_rfl,
            fun hheld => by omega⟩
          all_goals
            rcases StakePool.accrue_eq_ok hpool with
              ⟨-, _, rfl, -⟩ | ⟨-, _, _, -, -, -, rfl⟩ <;> rfl
  | administer =>
      cases hstep with
      | administer hpool =>
          obtain ⟨_, _, _, _, rfl, _⟩ := StakePool.administered_eq hpool
          exact ⟨id, fun _ => id, hinflow, rfl, rfl, le_rfl,
            fun _ => ⟨rfl, rfl, rfl⟩⟩
  | idle =>
      cases hstep
      exact ⟨id, fun _ => id, .refl view⟩

end Overflowed

section Runs

variable [DecidableEq Pubkey] [Inhabited Pubkey] {rt : Runtime Pubkey}
  {before after : Bank Pubkey} {events : List (Event Pubkey)} {key : Pubkey}

theorem Run.stranded (hrun : Run rt before events after)
    (hbefore : Reachable rt before) {view : PoolView Pubkey}
    (hview : Shows rt.toDeployment before key view)
    (h : 2 ^ 64 ≤ view.pool.inflow) :
    (∀ event ∈ events, ¬ (event.seenBy key).PaysOut ∧
      (0 < view.pool.totalLpSupply.toNat →
        ¬ (event.seenBy key).AsksValue)) ∧
      ∃ view', Shows rt.toDeployment after key view' ∧
        PoolView.Stranded view view' := by
  induction hrun with
  | start => exact ⟨by simp, view, hview, .refl view⟩
  | @step events event middle after hrun hstep ih =>
      obtain ⟨hevents, earlier, hearlier, hsofar⟩ := ih
      have hreachable := hbefore.run hrun
      obtain ⟨stepped, view', hpool, hdrift, hshows, -⟩ :=
        hstep.poolStep hreachable.sound hearlier
      obtain ⟨hpays, hasks, hlast⟩ := hpool.stranded
        (hreachable.coherent hearlier) (h.trans hsofar.inflow)
      refine ⟨?_, view', hshows, hsofar.trans (hlast.drift hdrift)⟩
      intro other hother
      rcases List.mem_append.mp hother with hold | hnew
      · exact hevents other hold
      · rw [List.mem_singleton] at hnew
        subst hnew
        exact ⟨hpays, fun hheld =>
          hasks (by rwa [(hsofar.held hheld).1])⟩

/-- A pool whose totals outgrew the word keeps its tokens for good. -/
theorem Run.strandedForGood (hrun : Run rt before events after)
    (hbefore : Reachable rt before) {pool : StakePool Pubkey}
    (hpool : rt.PoolAt before key pool) (h : 2 ^ 64 ≤ pool.inflow)
    {balance : TokenAccount Pubkey}
    (hbalance : rt.TokenAt before pool.vault balance) :
    (∀ event ∈ events, ¬ (event.seenBy key).PaysOut ∧
      (0 < pool.totalLpSupply.toNat → ¬ (event.seenBy key).AsksValue)) ∧
      ∃ pool' balance', rt.PoolAt after key pool' ∧
        rt.TokenAt after pool'.vault balance' ∧
        pool'.totalPoolValue = none ∧
        pool'.totalWithdrawn = pool.totalWithdrawn ∧
        pool'.totalFlushed = pool.totalFlushed ∧
        (0 < pool.totalLpSupply.toNat →
          pool'.totalLpSupply = pool.totalLpSupply) ∧
        balance.amount.toNat ≤ balance'.amount.toNat := by
  obtain ⟨view, rfl, hview⟩ := hbefore.shows_pool hpool
  cases hbalance.unique hview.vault
  obtain ⟨hevents, view', hview', hstranded⟩ := hrun.stranded hbefore hview h
  exact ⟨hevents, view'.pool, _, hview'.pool, hview'.vault,
    StakePool.totalPoolValue_eq_none (h.trans hstranded.inflow),
    hstranded.withdrawn, hstranded.flushed,
    fun hheld => (hstranded.held hheld).1, hstranded.vault⟩

end Runs

namespace Reference

/-- Everything is flushed but one unit, alice leaves with it, and the flushed
collateral comes back to a pool without LP.  Bob's deposit is still
accepted. -/
def trappedDeposit : List (Transaction Address) :=
  [initPool 10, openLpAccount alice, openLpAccount bob,
    deposit alice 0x8000000000000000, waitUntil 1200 1, withdraw alice 2,
    deposit alice 2, flush 0x7fffffffffffffff, waitUntil 1400 1,
    withdraw alice 0x8000000000000000, returnInsurance 0x7fffffffffffffff,
    deposit bob 100]

/-- He never gets it back, whether he waits or adds to the vault. -/
theorem trappedDeposit_strandedForGood : ∃ pool pool' balance',
    deployment.PoolAt (bankAfter trappedDeposit) poolKey pool ∧
      (pool.totalLpSupply, pool.vault) = (100, vault) ∧
      deployment.PoolAt
        (Transaction.performAll runtime (bankAfter trappedDeposit)
          [waitUntil 1600 1, donate 5]) poolKey pool' ∧
      deployment.TokenAt
        (Transaction.performAll runtime (bankAfter trappedDeposit)
          [waitUntil 1600 1, donate 5]) pool'.vault balance' ∧
      pool'.totalPoolValue = none ∧
      pool'.totalLpSupply = pool.totalLpSupply ∧
      0x8000000000000063 ≤ balance'.amount.toNat := by
  have hread : (poolIn (bankAfter trappedDeposit)).map (fun pool =>
      ((pool.totalLpSupply, pool.vault), decide (2 ^ 64 ≤ pool.inflow))) =
        some ((100, vault), true) := by decide +kernel
  have hread' : (vaultIn (bankAfter trappedDeposit)).map
      (fun balance => balance.amount.toNat) = some 0x8000000000000063 := by
    decide +kernel
  obtain ⟨pool, hpool, hnumbers⟩ := exists_poolAt hread
  obtain ⟨balance, hbalance, hamount⟩ := exists_vaultBalance hread'
  have hshown := congrArg Prod.fst hnumbers
  have hsupply : pool.totalLpSupply = 100 := congrArg Prod.fst hshown
  have hvault : pool.vault = vault := congrArg Prod.snd hshown
  have hoverflow := of_decide_eq_true (congrArg Prod.snd hnumbers)
  rw [← hvault] at hbalance
  have hrun := run_of_acceptsAll (show acceptsAll (bankAfter trappedDeposit)
    [waitUntil 1600 1, donate 5] = true by decide +kernel)
  obtain ⟨-, pool', balance', hpool', hbalance', hnone, -, -, hkept, hle⟩ :=
    Run.strandedForGood hrun (bankAfter_reachable (by decide +kernel)) hpool
      hoverflow hbalance
  refine ⟨pool, pool', balance', hpool, hshown, hpool', hbalance', hnone,
    hkept ?_, hamount.symm.trans_le hle⟩
  rw [hsupply]
  decide

end Reference

end PercolatorVault
