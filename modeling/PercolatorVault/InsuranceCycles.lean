import PercolatorVault.SharePrice

/-!
# Flushed collateral that comes back

A flush lowers the price of an LP token and a return raises it again.  Counted
together with what the insurance fund still owes, the price never falls, as
long as nobody deposits while something is owed.  When everything has come
back, every holder has at least what the LP was worth before the flush.
-/

namespace PercolatorVault

open CheckedArithmetic
open ProportionalShares
open ShareLedger

variable {Pubkey : Type}

/-- What the insurance fund owes after an event.  A return of more than it
owes is a gift and not remembered. -/
def PoolEvent.owedAfter : PoolEvent Pubkey → ℕ → ℕ
  | .flush amount, owed => owed + amount.toNat
  | .returnInsurance amount, owed => owed - amount.toNat
  | _, owed => owed

theorem PoolEvent.Performs.owedAfter_eq {call : PoolEvent Pubkey}
    {operation : Operation} (h : call.Performs operation) (owed : ℕ) :
    Ledger.owedAfter operation owed = call.owedAfter owed := by
  cases call with
  | deposit user amount =>
      obtain ⟨shares, rfl⟩ := h.of_deposit
      rfl
  | withdraw user lpAmount =>
      obtain ⟨payout, rfl⟩ := h.of_withdraw
      rfl
  | flush amount =>
      cases h.of_flush
      rfl
  | returnInsurance amount =>
      cases h.of_returnInsurance
      rfl
  | accrueFees =>
      cases operation with
      | settle => rfl
      | book => rfl
      | _ => exact h.elim
  | administer =>
      cases operation with
      | receive amount => rfl
      | _ => exact h.elim
  | idle =>
      cases operation with
      | receive amount => rfl
      | _ => exact h.elim

section Runs

variable [DecidableEq Pubkey] [Inhabited Pubkey] {rt : Runtime Pubkey}
  {start after : Bank Pubkey} {key : Pubkey} {owed : ℕ}

/-- A run in which nobody deposits into the pool while the insurance fund owes
it something, and some LP is outstanding after every step.  The number is what
is owed. -/
inductive RestoringRun (rt : Runtime Pubkey) (key : Pubkey)
    (start : Bank Pubkey) : ℕ → Bank Pubkey → Prop
  | start : RestoringRun rt key start 0 start
  | step {owed : ℕ} {before after : Bank Pubkey} {event : Event Pubkey}
      (hrun : RestoringRun rt key start owed before)
      (hstep : Step rt before event after)
      (hdeposit : ∀ user amount,
        event.seenBy key = .deposit user amount → owed = 0)
      (hheld : ∀ pool, rt.PoolAt after key pool →
        0 < pool.totalLpSupply.toNat) :
      RestoringRun rt key start ((event.seenBy key).owedAfter owed) after

omit [DecidableEq Pubkey] [Inhabited Pubkey] in
/-- One call does not lower the price counted with what is owed. -/
theorem Operates.priceLe_gain {call : PoolEvent Pubkey}
    {operation : Operation} {view view' : PoolView Pubkey}
    (h : Operates call operation view view')
    (hcoherent : view.ledger.Coherent)
    (hheld : 0 < view.pool.totalLpSupply.toNat)
    (hdeposit : ∀ user amount, call = .deposit user amount → owed = 0) :
    PriceLe (view.pool.pot.gain owed)
      (view'.pool.pot.gain (call.owedAfter owed)) := by
  have hunowed : ∀ amount shares, operation = .deposit amount shares →
      owed = 0 := by
    rintro amount shares rfl
    have hperforms := h.performs
    cases call with
    | deposit user amount' => exact hdeposit user amount' rfl
    | _ => exact hperforms.elim
  have hprice := hcoherent.priceLe_gain_apply h.allowed hheld hunowed
  rw [view.ledger_pot, ← h.pot, h.performs.owedAfter_eq] at hprice
  exact hprice

theorem RestoringRun.priceLe (hrun : RestoringRun rt key start owed after)
    (hstart : Reachable rt start) {view : PoolView Pubkey}
    (hview : Shows rt.toDeployment start key view)
    (hheld : 0 < view.pool.totalLpSupply.toNat) :
    Reachable rt after ∧ ∃ view', Shows rt.toDeployment after key view' ∧
      0 < view'.pool.totalLpSupply.toNat ∧
      PriceLe view.pool.pot (view'.pool.pot.gain owed) := by
  induction hrun with
  | start => exact ⟨hstart, view, hview, hheld, PriceLe.refl _⟩
  | step _ hstep hdeposit hheld' ih =>
      obtain ⟨hreachable, earlier, hearlier, hpositive, hprice⟩ := ih
      obtain ⟨operation, view', hoperates, hshows, -⟩ :=
        hstep.operates rfl hreachable.sound hearlier
      have hlast := hoperates.priceLe_gain (hreachable.coherent hearlier)
        hpositive hdeposit
      exact ⟨hreachable.step hstep, view', hshows,
        hheld' _ hshows.pool, hprice.trans hpositive hlast⟩

/-- What a holder could redeem before, a holder can redeem of the value
together with what is owed. -/
theorem RestoringRun.claim_le (hrun : RestoringRun rt key start owed after)
    (hstart : Reachable rt start) {pool pool' : StakePool Pubkey}
    (hpool : rt.PoolAt start key pool) (hpool' : rt.PoolAt after key pool')
    (hheld : 0 < pool.totalLpSupply.toNat) {value value' : U64}
    (hvalue : pool.totalPoolValue = some value)
    (hvalue' : pool'.totalPoolValue = some value') :
    value.toNat * pool'.totalLpSupply.toNat ≤
        (value'.toNat + owed) * pool.totalLpSupply.toNat ∧
      ∀ lp : ℕ,
        lp * value.toNat / pool.totalLpSupply.toNat ≤
          lp * (value'.toNat + owed) / pool'.totalLpSupply.toNat := by
  obtain ⟨view, rfl, hview⟩ := hstart.shows_pool hpool
  obtain ⟨-, view', hview', hheld', hprice⟩ :=
    hrun.priceLe hstart hview hheld
  cases hview'.pool.unique hpool'
  have hbook := (StakePool.bookValue_of_totalPoolValue hvalue).1
  have hbook' := (StakePool.bookValue_of_totalPoolValue hvalue').1
  have hredeem := hprice.redeem_mono hheld hheld'
  simp only [PriceLe, StakePool.pot, Pot.gain, Pot.redeem, hbook, hbook']
    at hprice hredeem
  exact ⟨hprice, hredeem⟩

end Runs

namespace Reference

def deposits (transaction : Transaction Address) : Bool :=
  match transaction.event.seenBy poolKey with
  | .deposit _ _ => true
  | _ => false

/-- What the fund owes after the transactions, if they make up a restoring
run. -/
def owedAfterAll (owed : ℕ) (bank : Bank Address) :
    List (Transaction Address) → Option ℕ
  | [] => some owed
  | transaction :: rest =>
      let next := transaction.perform runtime bank
      if accepts bank transaction = true ∧
          (deposits transaction = true → owed = 0) ∧
          (poolIn next).all
            (fun pool => decide (0 < pool.totalLpSupply.toNat)) = true then
        owedAfterAll ((transaction.event.seenBy poolKey).owedAfter owed) next
          rest
      else none

theorem restoringRun_of_owedAfterAll {start bank : Bank Address}
    {transactions : List (Transaction Address)} {owed owed' : ℕ}
    (hrun : RestoringRun runtime poolKey start owed bank)
    (h : owedAfterAll owed bank transactions = some owed') :
    RestoringRun runtime poolKey start owed'
      (Transaction.performAll runtime bank transactions) := by
  induction transactions generalizing bank owed with
  | nil =>
      cases h
      exact hrun
  | cons transaction rest ih =>
      unfold owedAfterAll at h
      dsimp only at h
      split at h
      · next hstep =>
          obtain ⟨haccepts, hdeposit, hheld⟩ := hstep
          refine ih (hrun.step (step_of_accepts haccepts) ?_ ?_) h
          · intro user amount hcall
            apply hdeposit
            unfold deposits
            rw [hcall]
          · intro pool hpool
            rw [poolIn_eq_some.mpr hpool] at hheld
            simpa using hheld
      · cases h

/-- Two holders of an insurance pool. -/
def sharedInsurance : List (Transaction Address) :=
  [initPool 10, openLpAccount alice, openLpAccount bob, deposit alice 1000,
    deposit bob 300]

/-- A flush, an early exit at the lower price, the return, a new deposit. -/
def flushAndRestore : List (Transaction Address) :=
  [flush 700, waitUntil 1200 1, withdraw alice 400, returnInsurance 700,
    deposit bob 130]

theorem flushAndRestore_claim_le : ∃ pool pool',
    (pool.totalPoolValue, pool.totalLpSupply) = (some 1300, 1300) ∧
      (pool'.totalPoolValue, pool'.totalLpSupply) = (some 1246, 1004) ∧
      deployment.PoolAt (bankAfter sharedInsurance) poolKey pool ∧
      deployment.PoolAt
        (Transaction.performAll runtime (bankAfter sharedInsurance)
          flushAndRestore) poolKey pool' ∧
      ∀ lp : ℕ, lp * 1300 / pool.totalLpSupply.toNat ≤
        lp * (1246 + 0) / pool'.totalLpSupply.toNat := by
  have hread : (poolIn (bankAfter sharedInsurance)).map
      (fun pool => (pool.totalPoolValue, pool.totalLpSupply)) =
        some (some 1300, 1300) := by decide +kernel
  have hread' : (poolIn (Transaction.performAll runtime
      (bankAfter sharedInsurance) flushAndRestore)).map
        (fun pool => (pool.totalPoolValue, pool.totalLpSupply)) =
          some (some 1246, 1004) := by decide +kernel
  obtain ⟨pool, hpool, hnumbers⟩ := exists_poolAt hread
  obtain ⟨pool', hpool', hnumbers'⟩ := exists_poolAt hread'
  have howed : owedAfterAll 0 (bankAfter sharedInsurance) flushAndRestore =
      some 0 := by decide +kernel
  have hheld : 0 < pool.totalLpSupply.toNat := by
    have hsupply : pool.totalLpSupply = 1300 := congrArg Prod.snd hnumbers
    rw [hsupply]
    decide
  exact ⟨pool, pool', hnumbers, hnumbers', hpool, hpool',
    (RestoringRun.claim_le (restoringRun_of_owedAfterAll .start howed)
      (bankAfter_reachable (by decide +kernel)) hpool hpool' hheld
      (congrArg Prod.fst hnumbers) (congrArg Prod.fst hnumbers')).2⟩

end Reference

end PercolatorVault
