import PercolatorVault.Solvency
import PercolatorVault.TradingPools

/-!
# When the value of a pool can be computed

The totals of a pool are lifetime totals, and the value is computed only while
everything that ever came in fits in 64 bits.  Each total is checked on its
own when it grows, so their sum may outgrow the word while the value is small.
A run that keeps the sum below the limit never loses the value.
-/

namespace PercolatorVault

open CheckedArithmetic
open ShareLedger

variable {Pubkey : Type}

/-- What a call adds to everything that ever came in. -/
def StakePool.gains (pool : StakePool Pubkey) (balance : ℕ) :
    PoolEvent Pubkey → ℕ
  | .deposit _ amount => amount.toNat
  | .returnInsurance amount => amount.toNat
  | .accrueFees =>
      if pool.totalLpSupply = 0 then 0
      else balance -
        (pool.totalDeposited.toNat + pool.totalFeesEarned.toNat -
          pool.totalWithdrawn.toNat + pool.preSupplyVaultOffset.toNat)
  | _ => 0

/-- The value can be computed, and so can what a crank expects. -/
structure StakePool.Available (pool : StakePool Pubkey) : Prop where
  value : pool.totalPoolValue.isSome
  expected : pool.poolMode = 1 → ∃ baseline,
    pool.accrualBaseline = some baseline ∧
      baseline.toNat + pool.preSupplyVaultOffset.toNat < 2 ^ 64

theorem PoolView.available_iff {view : PoolView Pubkey}
    (h : view.ledger.Coherent) :
    view.pool.Available ↔ view.pool.inflow < 2 ^ 64 := by
  have hcovered := h.covered
  rw [view.ledger_inflow, view.ledger_outflow] at hcovered
  constructor
  · intro havailable
    exact (StakePool.totalPoolValue_isSome_iff hcovered).mp havailable.value
  · intro hfits
    have hvalue := (StakePool.totalPoolValue_isSome_iff hcovered).mpr hfits
    refine ⟨hvalue, ?_⟩
    intro hmode
    obtain ⟨value, hvalue⟩ := Option.isSome_iff_exists.mp hvalue
    refine ⟨value, ?_, ?_⟩
    · rw [(PoolView.bootstrappable h hmode).baseline, hvalue]
    · have hbacked := h.backed
      rw [view.ledger_value,
        (StakePool.bookValue_of_totalPoolValue hvalue).1,
        PoolView.ledger_trading.mpr hmode, cond_true] at hbacked
      exact lt_of_le_of_lt hbacked view.vaultAmount.isLt

theorem Operates.inflow_eq {call : PoolEvent Pubkey} {operation : Operation}
    {view view' : PoolView Pubkey} (h : Operates call operation view view') :
    view'.pool.inflow =
      view.pool.inflow +
        view.pool.gains view.vaultAmount.toNat call := by
  obtain ⟨received, hledger⟩ := h.ledger
  have hinflow : view'.ledger.inflow =
      view.ledger.inflow + view.ledger.gained operation := by
    rw [hledger, ← view.ledger.inflow_apply h.allowed]
    rfl
  rw [view'.ledger_inflow, view.ledger_inflow] at hinflow
  rw [hinflow, Nat.add_left_cancel_iff]
  have hperforms := h.performs
  have hallowed := h.allowed
  cases call with
  | deposit user amount =>
      obtain ⟨shares, rfl⟩ := hperforms.of_deposit
      rfl
  | withdraw user lpAmount =>
      obtain ⟨payout, rfl⟩ := hperforms.of_withdraw
      rfl
  | flush amount =>
      cases hperforms.of_flush
      rfl
  | returnInsurance amount =>
      cases hperforms.of_returnInsurance
      rfl
  | accrueFees =>
      unfold StakePool.gains
      by_cases hsupply : view.pool.totalLpSupply = 0
      · rw [if_pos hsupply]
        cases operation with
        | settle => rfl
        | book =>
            exact absurd (toNat_eq_zero.mpr hsupply)
              (Nat.pos_iff_ne_zero.mp hallowed.2)
        | _ => exact hperforms.elim
      · cases hperforms.of_accrueFees hallowed (toNat_pos.mpr hsupply)
        rw [if_neg hsupply]
        rfl
  | administer =>
      cases operation with
      | receive amount => rfl
      | _ => exact hperforms.elim
  | idle =>
      cases operation with
      | receive amount => rfl
      | _ => exact hperforms.elim

section Runs

variable [DecidableEq Pubkey] [Inhabited Pubkey] {rt : Runtime Pubkey}
  {start bank : Bank Pubkey} {key : Pubkey}

/-- A run in which everything that ever came into the pool stays below the
limit. -/
inductive FittingRun (rt : Runtime Pubkey) (key : Pubkey)
    (start : Bank Pubkey) : Bank Pubkey → Prop
  | start : FittingRun rt key start start
  | step {before after : Bank Pubkey} {event : Event Pubkey}
      (hrun : FittingRun rt key start before)
      (hstep : Step rt before event after)
      (hfits : ∀ pool balance, rt.PoolAt before key pool →
        rt.TokenAt before pool.vault balance →
          pool.inflow +
            pool.gains balance.amount.toNat (event.seenBy key) < 2 ^ 64) :
      FittingRun rt key start after

/-- Step by step the value stays available. -/
theorem FittingRun.inflow_lt (hrun : FittingRun rt key start bank)
    (hgenesis : Genesis rt.toDeployment start) :
    Reachable rt bank ∧
      ∀ view, Shows rt.toDeployment bank key view →
        view.pool.inflow < 2 ^ 64 := by
  induction hrun with
  | start =>
      refine ⟨⟨start, [], hgenesis, .start⟩, ?_⟩
      intro view hview
      exact absurd hview.pool (hgenesis.no_pool key _)
  | @step before after event _ hstep hfits ih =>
      obtain ⟨hbefore, -⟩ := ih
      refine ⟨hbefore.step hstep, ?_⟩
      intro view hview
      rcases hstep.operates_or_fresh hbefore.sound hview with
        ⟨_, earlier, hearlier, hoperates⟩ | hfresh
      · rw [hoperates.inflow_eq]
        exact hfits _ _ hearlier.pool hearlier.vault
      · obtain ⟨trading, vault, hledger⟩ := hfresh.ledger_eq
        rw [← view.ledger_inflow, hledger]
        cases trading <;> simp [Ledger.inflow]

/-- In a run that keeps the sum of the inflows below the limit, the value of
the pool is available in every state. -/
theorem FittingRun.available (hrun : FittingRun rt key start bank)
    (hgenesis : Genesis rt.toDeployment start) {pool : StakePool Pubkey}
    (hpool : rt.PoolAt bank key pool) : pool.Available := by
  obtain ⟨hreachable, hfits⟩ := hrun.inflow_lt hgenesis
  obtain ⟨view, rfl, hview⟩ := hreachable.shows_pool hpool
  exact (PoolView.available_iff (hreachable.coherent hview)).mpr
    (hfits view hview)

end Runs

namespace Reference

/-- Half of the 64-bit range goes in, out to the insurance fund, and back. -/
def returnedMarket : List (Transaction Address) :=
  [initPool 10, openLpAccount alice, deposit alice 0x8000000000000000,
    flush 0x8000000000000000, returnInsurance 0x8000000000000000]

/-- All of the collateral is in the vault, and its value cannot be computed. -/
theorem returnedMarket_unavailable : ∃ pool,
    Reachable runtime (bankAfter returnedMarket) ∧
      deployment.PoolAt (bankAfter returnedMarket) poolKey pool ∧
      pool.bookValue = 2 ^ 63 ∧ pool.totalPoolValue = none ∧
      ¬ pool.Available := by
  have hread : (poolIn (bankAfter returnedMarket)).map
      (fun pool => (pool.bookValue, pool.totalPoolValue)) =
        some (2 ^ 63, none) := by decide +kernel
  obtain ⟨pool, hpool, hnumbers⟩ := exists_poolAt hread
  simp only [Prod.mk.injEq] at hnumbers
  obtain ⟨hvalue, hnone⟩ := hnumbers
  refine ⟨pool, bankAfter_reachable (by decide +kernel), hpool, hvalue, hnone,
    ?_⟩
  intro havailable
  have hsome := havailable.value
  rw [hnone] at hsome
  cases hsome

/-- The transactions succeed and keep the sum of the inflows below the
limit. -/
def keepsFitting (bank : Bank Address) : List (Transaction Address) → Bool
  | [] => true
  | transaction :: rest =>
      accepts bank transaction &&
        (poolIn bank).all (fun pool =>
          (tokenAccount bank pool.vault).toOption.all fun balance =>
            decide (pool.inflow + pool.gains balance.amount.toNat
              (transaction.event.seenBy poolKey) < 2 ^ 64)) &&
        keepsFitting (transaction.perform runtime bank) rest

theorem fittingRun_of_keepsFitting {start bank : Bank Address}
    {transactions : List (Transaction Address)}
    (hrun : FittingRun runtime poolKey start bank)
    (h : keepsFitting bank transactions = true) :
    FittingRun runtime poolKey start
      (Transaction.performAll runtime bank transactions) := by
  induction transactions generalizing bank with
  | nil => exact hrun
  | cons transaction rest ih =>
      simp only [keepsFitting, Bool.and_eq_true] at h
      obtain ⟨⟨haccepts, hfits⟩, hrest⟩ := h
      refine ih (hrun.step (step_of_accepts haccepts) ?_) hrest
      intro pool balance hpool hbalance
      rw [poolIn_eq_some.mpr hpool, Option.all_some,
        tokenAccount_eq_ok.mpr hbalance] at hfits
      simpa [Except.toOption] using hfits

theorem busyMarket_available : ∃ pool,
    deployment.PoolAt (bankAfter busyMarket) poolKey pool ∧
      pool.Available := by
  have hread : (poolIn (bankAfter busyMarket)).map (fun _ => ()) =
      some () := by decide +kernel
  obtain ⟨pool, hpool, -⟩ := exists_poolAt hread
  have hfits : keepsFitting genesis busyMarket = true := by decide +kernel
  have hrun := fittingRun_of_keepsFitting .start hfits
  exact ⟨pool, hpool, FittingRun.available hrun genesis_genesis hpool⟩

end Reference

end PercolatorVault
