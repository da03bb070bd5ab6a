import PercolatorVault.LpConservation
import PercolatorVault.SharePrice

/-!
# Trading against the other holders

A coalition of users who deposit and withdraw as they like, among themselves
and while nobody else touches the pool, cannot take out more than they bring
in and the worth of the LP they started with.  In particular newcomers without
LP never make a profit, however they split and order their trades.
-/

namespace PercolatorVault

open CheckedArithmetic
open FallibleSteps
open FiniteTallies
open ProportionalShares
open ShareLedger

variable {Pubkey : Type}

/-- The event is a trade of a member, or leaves the totals alone. -/
def PoolEvent.TradedBy (members : Finset Pubkey) : PoolEvent Pubkey → Prop
  | .deposit user _ => user ∈ members
  | .withdraw user _ => user ∈ members
  | .administer => True
  | .idle => True
  | _ => False

instance [DecidableEq Pubkey] (members : Finset Pubkey) :
    (event : PoolEvent Pubkey) → Decidable (event.TradedBy members)
  | .deposit user _ => inferInstanceAs (Decidable (user ∈ members))
  | .withdraw user _ => inferInstanceAs (Decidable (user ∈ members))
  | .flush _ => inferInstanceAs (Decidable False)
  | .returnInsurance _ => inferInstanceAs (Decidable False)
  | .accrueFees => inferInstanceAs (Decidable False)
  | .administer => inferInstanceAs (Decidable True)
  | .idle => inferInstanceAs (Decidable True)

/-- The LP recorded for `members`. -/
def PoolView.lpOf (view : PoolView Pubkey) (members : Finset Pubkey) : ℕ :=
  ∑ user ∈ members, weigh StakeDeposit.weight (view.records user)

/-- What a trade of a member does not change: the LP of all the others, and
the totals that no trade reaches. -/
structure PoolView.Traded (members : Finset Pubkey)
    (view view' : PoolView Pubkey) : Prop where
  others : view'.lpOf members + view.pool.totalLpSupply.toNat =
    view.lpOf members + view'.pool.totalLpSupply.toNat
  mode : view'.pool.poolMode = view.pool.poolMode
  fees : view'.pool.totalFeesEarned = view.pool.totalFeesEarned
  flushed : view'.pool.totalFlushed = view.pool.totalFlushed
  returned : view'.pool.totalReturned = view.pool.totalReturned
  deposited : view.pool.totalDeposited.toNat ≤
    view'.pool.totalDeposited.toNat
  withdrawn : view.pool.totalWithdrawn.toNat ≤
    view'.pool.totalWithdrawn.toNat

namespace PoolView.Traded

variable {members : Finset Pubkey} {view middle view' : PoolView Pubkey}

theorem refl (members : Finset Pubkey) (view : PoolView Pubkey) :
    Traded members view view :=
  ⟨rfl, rfl, rfl, rfl, rfl, le_rfl, le_rfl⟩

theorem trans (h : Traded members view middle)
    (h' : Traded members middle view') : Traded members view view' where
  others := by
    have hfirst := h.others
    have hsecond := h'.others
    omega
  mode := h'.mode.trans h.mode
  fees := h'.fees.trans h.fees
  flushed := h'.flushed.trans h.flushed
  returned := h'.returned.trans h.returned
  deposited := h.deposited.trans h'.deposited
  withdrawn := h.withdrawn.trans h'.withdrawn

theorem drift {burned : ℕ} (h : Traded members view middle)
    (hdrift : Drift burned middle view') : Traded members view view' := by
  have hlp : view'.lpOf members = middle.lpOf members := by
    unfold PoolView.lpOf
    rw [hdrift.records]
  refine ⟨?_, ?_, ?_, ?_, ?_, ?_, ?_⟩
  · rw [hlp, hdrift.pool]
    exact h.others
  · rw [hdrift.pool]
    exact h.mode
  · rw [hdrift.pool]
    exact h.fees
  · rw [hdrift.pool]
    exact h.flushed
  · rw [hdrift.pool]
    exact h.returned
  · rw [hdrift.pool]
    exact h.deposited
  · rw [hdrift.pool]
    exact h.withdrawn

/-- Value is neither created nor destroyed by trading. -/
theorem value_conserved (h : Traded members view view')
    (hcoherent : view.ledger.Coherent) (hcoherent' : view'.ledger.Coherent) :
    view'.pool.bookValue +
        (view'.pool.totalWithdrawn.toNat - view.pool.totalWithdrawn.toNat) =
      view.pool.bookValue +
        (view'.pool.totalDeposited.toNat -
          view.pool.totalDeposited.toNat) := by
  have hcovered := hcoherent.covered
  have hcovered' := hcoherent'.covered
  have hdeposited := h.deposited
  have hwithdrawn := h.withdrawn
  rw [PoolView.ledger_inflow, PoolView.ledger_outflow] at hcovered hcovered'
  simp only [StakePool.bookValue, StakePool.inflow, StakePool.outflow,
    h.mode, h.fees, h.flushed, h.returned] at hcovered hcovered' ⊢
  omega

end PoolView.Traded

section Runs

variable [DecidableEq Pubkey] [Inhabited Pubkey]

theorem PoolStep.traded {d : Deployment Pubkey} {key : Pubkey}
    {clock : Clock} {event : PoolEvent Pubkey} {view view' : PoolView Pubkey}
    {members : Finset Pubkey}
    (hstep : PoolStep d key clock event view view')
    (htraded : event.TradedBy members) :
    PoolView.Traded members view view' := by
  cases hstep with
  | @deposit _ user amount lp pool record vaultAmount lpMintSupply _ _ _ _ _ _
      hpool hrecord _ _ =>
      obtain ⟨_, supply, _, htotal, hsupply, rfl, _⟩ :=
        StakePool.recordDeposit_eq_ok hpool
      have hcredit := (StakeDeposit.creditLp_eq_ok hrecord).1
      rw [(StakeDeposit.bind_fields _ _ _ _).1, ← StakeDeposit.weigh_getD]
        at hcredit
      have hsum := sum_weigh_update view.records StakeDeposit.weight htraded
        record
      refine ⟨?_, rfl, rfl, rfl, rfl, ?_, le_rfl⟩
      · unfold PoolView.lpOf
        unfold StakeDeposit.weight at *
        dsimp only
        omega
      · dsimp only
        omega
  | @withdraw _ user lpAmount collateral guarded pool record remaining
      vaultAmount lpMintSupply _ hrecord _ _ _ hfloor hpool hremaining _ _ =>
      obtain ⟨_, supply, _, htotal, hsupply, rfl, _⟩ :=
        StakePool.guardedWithdraw_eq_ok hfloor hpool
      have hdebit := StakeDeposit.debitLp_eq_ok hremaining
      have hsum := sum_weigh_update view.records StakeDeposit.weight htraded
        remaining
      rw [hrecord, weigh_some] at hsum
      refine ⟨?_, rfl, rfl, rfl, rfl, le_rfl, ?_⟩
      · unfold PoolView.lpOf
        unfold StakeDeposit.weight at *
        dsimp only
        omega
      · dsimp only
        omega
  | flush => exact htraded.elim
  | returnInsurance => exact htraded.elim
  | accrueFees => exact htraded.elim
  | administer hpool =>
      obtain ⟨_, _, _, _, rfl, _⟩ := StakePool.administered_eq hpool
      exact ⟨rfl, rfl, rfl, rfl, rfl, le_rfl, le_rfl⟩
  | idle => exact .refl members view

variable {rt : Runtime Pubkey} {start after : Bank Pubkey} {key : Pubkey}
  {members : Finset Pubkey}

/-- A run in which only members trade with the pool; nothing is flushed,
returned or booked. -/
inductive CoalitionRun (rt : Runtime Pubkey) (key : Pubkey)
    (members : Finset Pubkey) (start : Bank Pubkey) : Bank Pubkey → Prop
  | start : CoalitionRun rt key members start start
  | step {before after : Bank Pubkey} {event : Event Pubkey}
      (hrun : CoalitionRun rt key members start before)
      (hstep : Step rt before event after)
      (htraded : (event.seenBy key).TradedBy members) :
      CoalitionRun rt key members start after

/-- While others hold LP, the price does not fall. -/
theorem CoalitionRun.traded (hrun : CoalitionRun rt key members start after)
    (hstart : Reachable rt start) {view : PoolView Pubkey}
    (hview : Shows rt.toDeployment start key view) :
    Reachable rt after ∧ ∃ view', Shows rt.toDeployment after key view' ∧
      PoolView.Traded members view view' ∧
      (view.lpOf members < view.pool.totalLpSupply.toNat →
        PriceLe view.pool.pot view'.pool.pot) := by
  induction hrun with
  | start => exact ⟨hstart, view, hview, .refl _ _, fun _ => PriceLe.refl _⟩
  | @step _ _ event _ hstep htraded ih =>
      obtain ⟨hreachable, earlier, hearlier, hsofar, hprice⟩ := ih
      obtain ⟨middle, view', hpool, hdrift, hshows, -⟩ :=
        hstep.poolStep hreachable.sound hearlier
      refine ⟨hreachable.step hstep, view', hshows,
        hsofar.trans ((hpool.traded htraded).drift hdrift), ?_⟩
      intro hothers
      have hleft := hsofar.others
      have hflush : ∀ amount, event.seenBy key ≠ .flush amount := by
        intro amount heq
        rw [heq] at htraded
        exact htraded
      have hheld : 0 < earlier.pool.totalLpSupply.toNat := by omega
      have hlast := hpool.priceLe (hreachable.coherent hearlier) hflush hheld
      rw [← hdrift.pool] at hlast
      exact (hprice hothers).trans hheld hlast

/-- The members are paid at most what they bring and the worth of the LP they
had. -/
theorem CoalitionRun.profit_le
    (hrun : CoalitionRun rt key members start after)
    (hstart : Reachable rt start) {pool pool' : StakePool Pubkey}
    (hpool : rt.PoolAt start key pool) (hpool' : rt.PoolAt after key pool')
    (hheld : 0 < pool.totalLpSupply.toNat) :
    pool.totalDeposited.toNat ≤ pool'.totalDeposited.toNat ∧
      pool.totalWithdrawn.toNat ≤ pool'.totalWithdrawn.toNat ∧
      pool'.totalWithdrawn.toNat - pool.totalWithdrawn.toNat ≤
        pool'.totalDeposited.toNat - pool.totalDeposited.toNat +
          pool.pot.redeem (∑ user ∈ members,
            lpRecorded rt.toDeployment start
              (rt.deriveDepositPda key user).1) := by
  obtain ⟨view, rfl, hview⟩ := hstart.shows_pool hpool
  obtain ⟨hafter, view', hview', htraded, hprice⟩ :=
    hrun.traded hstart hview
  cases hview'.pool.unique hpool'
  have hlp : ∑ user ∈ members, lpRecorded rt.toDeployment start
      (rt.deriveDepositPda key user).1 = view.lpOf members := by
    unfold lpRecorded PoolView.lpOf
    exact Finset.sum_congr rfl fun user _ => by rw [hview.records]
  have hconserved := htraded.value_conserved (hstart.coherent hview)
    (hafter.coherent hview')
  have hothers := htraded.others
  rw [hlp]
  refine ⟨htraded.deposited, htraded.withdrawn,
    @Pot.paidOut_le _ view'.pool.pot _ _ _ hheld hconserved ?_⟩
  change view.pool.bookValue * (view.pool.totalLpSupply.toNat - _) ≤
    view'.pool.bookValue * view.pool.totalLpSupply.toNat
  rcases Nat.lt_or_ge (view.lpOf members) view.pool.totalLpSupply.toNat with
    hsome | hnone
  · refine le_trans (Nat.mul_le_mul_left _ ?_) (hprice hsome)
    change _ ≤ view'.pool.totalLpSupply.toNat
    omega
  · rw [Nat.sub_eq_zero_of_le hnone, Nat.mul_zero]
    exact Nat.zero_le _

end Runs

namespace Reference

theorem coalitionRun_of_trades {members : Finset Address}
    {start bank : Bank Address} {transactions : List (Transaction Address)}
    (hrun : CoalitionRun runtime poolKey members start bank)
    (haccepts : acceptsAll bank transactions = true)
    (htraded : ∀ transaction ∈ transactions,
      (transaction.event.seenBy poolKey).TradedBy members) :
    CoalitionRun runtime poolKey members start
      (Transaction.performAll runtime bank transactions) := by
  induction transactions generalizing bank with
  | nil => exact hrun
  | cons transaction rest ih =>
      obtain ⟨hfirst, hlater⟩ := acceptsAll_cons haccepts
      exact ih (hrun.step (step_of_accepts hfirst) (htraded _ (by simp)))
        hlater fun later hlater => htraded later (by simp [hlater])

/-- Alice holds 1000 LP worth 1050. -/
def appreciatedPool : List (Transaction Address) :=
  [initTradingPool 10, openLpAccount alice, openLpAccount bob,
    deposit alice 1000, donate 50, accrueFees]

/-- Bob trades back and forth. -/
def backAndForth : List (Transaction Address) :=
  [deposit bob 107, deposit bob 7, waitUntil 1200 1, withdraw bob 50,
    deposit bob 20, waitUntil 1400 1, withdraw bob 76]

/-- He brings 134 and leaves with 131. -/
theorem backAndForth_profit_le : ∃ pool pool',
    (pool.totalWithdrawn, pool.totalDeposited) = (0, 1000) ∧
      (pool'.totalWithdrawn, pool'.totalDeposited) = (131, 1134) ∧
      deployment.PoolAt (bankAfter appreciatedPool) poolKey pool ∧
      deployment.PoolAt
        (Transaction.performAll runtime (bankAfter appreciatedPool)
          backAndForth) poolKey pool' ∧
      pool'.totalWithdrawn.toNat - pool.totalWithdrawn.toNat ≤
        pool'.totalDeposited.toNat - pool.totalDeposited.toNat +
          pool.pot.redeem (∑ user ∈ {bob.key},
            lpRecorded deployment (bankAfter appreciatedPool)
              (deployment.deriveDepositPda poolKey user).1) := by
  have hread : (poolIn (bankAfter appreciatedPool)).map (fun pool =>
      (pool.totalLpSupply, pool.totalWithdrawn, pool.totalDeposited)) =
        some (1000, 0, 1000) := by decide +kernel
  have hread' : (poolIn (Transaction.performAll runtime
      (bankAfter appreciatedPool) backAndForth)).map (fun pool =>
        (pool.totalWithdrawn, pool.totalDeposited)) = some (131, 1134) := by
    decide +kernel
  obtain ⟨pool, hpool, hnumbers⟩ := exists_poolAt hread
  obtain ⟨pool', hpool', hnumbers'⟩ := exists_poolAt hread'
  have hheld : 0 < pool.totalLpSupply.toNat := by
    have hsupply : pool.totalLpSupply = 1000 := congrArg Prod.fst hnumbers
    rw [hsupply]
    decide
  have hrun : CoalitionRun runtime poolKey {bob.key}
      (bankAfter appreciatedPool)
      (Transaction.performAll runtime (bankAfter appreciatedPool)
        backAndForth) :=
    coalitionRun_of_trades .start (by decide +kernel) (by decide +kernel)
  exact ⟨pool, pool', congrArg Prod.snd hnumbers, hnumbers', hpool, hpool',
    (CoalitionRun.profit_le hrun (bankAfter_reachable (by decide +kernel))
      hpool hpool' hheld).2.2⟩

end Reference

end PercolatorVault
