import PercolatorVault.PoolCreation
import PercolatorVault.PoolSegments

/-!
# Dust that arrives before there is LP

The offset of a trading pool is a snapshot: it holds the tokens that were in
the vault when somebody last cranked without LP supply.  Tokens that arrive
after that crank, or before any, are booked as fees once there is LP.  The
fees stay below the tokens that were sent to the vault while LP existed as
long as no first deposit finds such tokens.
-/

namespace PercolatorVault

open CheckedArithmetic
open FallibleSteps
open ShareLedger

variable {Pubkey : Type}

/-! ## Counting what is sent to the vault -/

/-- Between the two views `sent` tokens were transferred to the vault: what
its balance gained beyond the deposits and payouts of the pool.  A payout that
goes to the vault itself counts as sent to it. -/
def PoolView.Sent (before after : PoolView Pubkey) (sent : ℕ) : Prop :=
  after.vaultAmount.toNat + after.pool.totalWithdrawn.toNat +
      before.pool.totalDeposited.toNat =
    before.vaultAmount.toNat + before.pool.totalWithdrawn.toNat +
      after.pool.totalDeposited.toNat + sent

/-- A deposit into a pool without LP finds in the vault, beyond the offset of
the last crank, no more tokens than were sent there while LP existed and never
booked. -/
def PoolView.FindsNoDust (sent : ℕ) (view : PoolView Pubkey) :
    PoolEvent Pubkey → Prop
  | .deposit _ _ => view.pool.totalLpSupply = 0 →
      view.vaultAmount.toNat - view.pool.preSupplyVaultOffset.toNat ≤
        sent - view.pool.totalFeesEarned.toNat
  | _ => True

section Steps

variable {call : PoolEvent Pubkey} {operation : Operation}
  {view view' : PoolView Pubkey} {sent : ℕ}

/-- On a trading pool tokens only enter by deposits and transfers. -/
theorem Operates.exists_sent (h : Operates call operation view view')
    (hmode : view.pool.poolMode = 1) : ∃ sent, view.Sent view' sent := by
  obtain ⟨received, hledger⟩ := h.ledger
  have hvault := congrArg Ledger.vault hledger
  have hdeposited := congrArg Ledger.deposited hledger
  have hwithdrawn := congrArg Ledger.withdrawn hledger
  have hallowed := h.allowed
  have htrading := PoolView.ledger_trading.mpr hmode
  unfold PoolView.Sent
  cases operation with
  | withdraw shares payout =>
      obtain ⟨-, -, -, -, hpayout⟩ := hallowed
      refine ⟨received, ?_⟩
      simp only [Ledger.apply, PoolView.ledger]
        at hvault hdeposited hwithdrawn hpayout
      omega
  | flush amount =>
      exact absurd (htrading.symm.trans hallowed.1) (by decide)
  | reclaim amount =>
      exact absurd (htrading.symm.trans hallowed) (by decide)
  | receive amount =>
      refine ⟨amount + received, ?_⟩
      simp only [Ledger.apply, PoolView.ledger]
        at hvault hdeposited hwithdrawn
      omega
  | _ =>
      refine ⟨received, ?_⟩
      simp only [Ledger.apply, PoolView.ledger]
        at hvault hdeposited hwithdrawn
      omega

/-- One step of a trading pool keeps the fees below what was sent. -/
theorem Operates.feesFrom {amount : ℕ} (h : Operates call operation view view')
    (hexact : call.Exact → view'.ledger = view.ledger.apply operation)
    (hmode : view.pool.poolMode = 1) (hcoherent : view.ledger.Coherent)
    (hfees : view.ledger.FeesFrom sent) (hsent : view.Sent view' amount)
    (hdust : view.FindsNoDust sent call) :
    view'.ledger.FeesFrom
      (sent + if 0 < view.pool.totalLpSupply.toNat then amount else 0) := by
  have htrading := PoolView.ledger_trading.mpr hmode
  have hperforms := h.performs
  have hallowed := h.allowed
  unfold PoolView.Sent at hsent
  cases call with
  | deposit user deposited =>
      obtain ⟨shares, rfl⟩ := hperforms.of_deposit
      have hcovers : view.ledger.Covers sent := fun hzero =>
        hdust (toNat_eq_zero.mp hzero)
      rw [hexact trivial]
      exact (hfees.deposit hcoherent htrading hcovers).mono
        (Nat.le_add_right _ _)
  | withdraw user lpAmount =>
      obtain ⟨payout, rfl⟩ := hperforms.of_withdraw
      obtain ⟨received, hledger⟩ := h.ledger
      have hvault := congrArg Ledger.vault hledger
      have hdeposited := congrArg Ledger.deposited hledger
      have hwithdrawn := congrArg Ledger.withdrawn hledger
      have hafter := hfees.withdraw hcoherent htrading hallowed
      obtain ⟨hshares, hheld, -, -, hpayout⟩ := hallowed
      rw [hledger]
      refine (hafter.receive received).mono ?_
      -- There was LP when the payout was sent.
      rw [view.ledger_supply] at hheld
      rw [if_pos (show 0 < view.pool.totalLpSupply.toNat by omega)]
      simp only [Ledger.apply, PoolView.ledger]
        at hvault hdeposited hwithdrawn hpayout
      split
      · omega
      · omega
  | flush flushed =>
      cases hperforms.of_flush
      exact absurd (htrading.symm.trans hallowed.1) (by decide)
  | returnInsurance returned =>
      cases hperforms.of_returnInsurance
      exact absurd (htrading.symm.trans hallowed) (by decide)
  | accrueFees =>
      rw [hexact trivial]
      cases operation with
      | settle => exact (hfees.settle hallowed).mono (Nat.le_add_right _ _)
      | book =>
          exact (hfees.book hcoherent hallowed).mono (Nat.le_add_right _ _)
      | _ => exact hperforms.elim
  | administer =>
      cases operation with
      | receive received =>
          rw [hexact trivial, show received = 0 from hperforms,
            Ledger.apply_receive_zero]
          exact hfees.mono (Nat.le_add_right _ _)
      | _ => exact hperforms.elim
  | idle =>
      cases operation with
      | receive received =>
          obtain ⟨more, hledger⟩ := h.ledger
          rw [show received = 0 from hperforms, Ledger.apply_receive_zero]
            at hledger
          have hvault := congrArg Ledger.vault hledger
          have hdeposited := congrArg Ledger.deposited hledger
          have hwithdrawn := congrArg Ledger.withdrawn hledger
          simp only [Ledger.apply, PoolView.ledger]
            at hvault hdeposited hwithdrawn
          have hamount : amount = more := by omega
          rw [hledger, hamount]
          exact hfees.receive more
      | _ => exact hperforms.elim

end Steps

/-! ## Runs -/

section Runs

variable [DecidableEq Pubkey] [Inhabited Pubkey] {rt : Runtime Pubkey}
  {key : Pubkey} {condition : ℕ → PoolView Pubkey → PoolEvent Pubkey → Prop}
  {sent : ℕ} {bank : Bank Pubkey} {view : PoolView Pubkey}

/-- A run of a trading pool from its initialisation on, with the number of
tokens that were sent to its vault while it had LP.  Every step meets the
condition. -/
inductive TransferRun (rt : Runtime Pubkey) (key : Pubkey)
    (condition : ℕ → PoolView Pubkey → PoolEvent Pubkey → Prop) :
    ℕ → Bank Pubkey → Prop
  | created {before after : Bank Pubkey} {event : Event Pubkey}
      {view : PoolView Pubkey} (hreachable : Reachable rt before)
      (hstep : Step rt before event after) (hinit : event.Initializes key)
      (hview : Shows rt.toDeployment after key view)
      (hmode : view.pool.poolMode = 1) :
      TransferRun rt key condition 0 after
  | step {sent amount : ℕ} {before after : Bank Pubkey}
      {event : Event Pubkey} {view view' : PoolView Pubkey}
      (hrun : TransferRun rt key condition sent before)
      (hstep : Step rt before event after)
      (hview : Shows rt.toDeployment before key view)
      (hview' : Shows rt.toDeployment after key view')
      (hcondition : condition sent view (event.seenBy key))
      (hsent : view.Sent view' amount) :
      TransferRun rt key condition
        (sent + if 0 < view.pool.totalLpSupply.toNat then amount else 0) after

theorem TransferRun.reachable (h : TransferRun rt key condition sent bank) :
    Reachable rt bank := by
  induction h with
  | created hreachable hstep => exact hreachable.step hstep
  | step _ hstep _ _ _ _ ih => exact ih.step hstep

theorem TransferRun.trading (h : TransferRun rt key condition sent bank)
    (hview : Shows rt.toDeployment bank key view) :
    view.pool.poolMode = 1 := by
  induction h generalizing view with
  | created _ _ _ hshown hmode =>
      rw [hview.unique hshown]
      exact hmode
  | step hrun hstep hbefore _ _ _ ih =>
      obtain ⟨later, hlater, hmode⟩ :=
        (Run.start.step hstep).shows hrun.reachable.sound hbefore
      rw [hview.unique hlater, hmode]
      exact ih hbefore

theorem TransferRun.shows (h : TransferRun rt key condition sent bank) :
    ∃ view, Shows rt.toDeployment bank key view := by
  cases h with
  | created _ _ _ hview _ => exact ⟨_, hview⟩
  | step _ _ _ hview' _ _ => exact ⟨_, hview'⟩

/-- Every run of a trading pool is counted. -/
theorem Run.counted {created : Bank Pubkey} {events : List (Event Pubkey)}
    (hrun : Run rt created events bank)
    (h : TransferRun rt key (fun _ _ _ => True) sent created)
    (hview : Shows rt.toDeployment created key view) :
    ∃ more, TransferRun rt key (fun _ _ _ => True) more bank := by
  induction hrun with
  | start => exact ⟨sent, h⟩
  | step hrun hstep ih =>
      obtain ⟨more, hmore⟩ := ih
      have hsound := hmore.reachable.sound
      obtain ⟨middle, hmiddle, -⟩ := hrun.shows h.reachable.sound hview
      obtain ⟨_, view', hoperates, hview', -⟩ :=
        hstep.operates rfl hsound hmiddle
      obtain ⟨amount, hamount⟩ :=
        hoperates.exists_sent (hmore.trading hmiddle)
      exact ⟨_, hmore.step hstep hmiddle hview' trivial hamount⟩

/-- The invariant behind the bound. -/
theorem TransferRun.feesFrom
    (h : TransferRun rt key PoolView.FindsNoDust sent bank)
    (hview : Shows rt.toDeployment bank key view) :
    view.ledger.FeesFrom sent := by
  induction h generalizing view with
  | created hreachable hstep hinit hshown hmode =>
      rcases hstep.created hreachable.sound hview with
        ⟨old, hold⟩ | ⟨hfresh, -⟩
      · exact absurd hold.pool
          (hstep.absent_of_initializes hreachable.sound hinit _)
      · obtain ⟨trading, vault, hledger⟩ := hfresh.ledger_eq
        rw [hledger]
        exact ⟨le_rfl, fun hsupply => absurd hsupply (Nat.lt_irrefl 0)⟩
  | step hrun hstep hbefore hafter hdust hsent ih =>
      have hreachable := hrun.reachable
      obtain ⟨_, later, hoperates, hlater, hexact⟩ :=
        hstep.operates rfl hreachable.sound hbefore
      cases hlater.unique hview
      cases hafter.unique hview
      exact hoperates.feesFrom hexact (hrun.trading hbefore)
        (hreachable.coherent hbefore) (ih hbefore) hsent hdust

/-- The condition is exact: a crank right after a first deposit books all that
the deposit found beyond the offset. -/
theorem Step.fees_of_firstDeposit {before middle after : Bank Pubkey}
    {event event' : Event Pubkey} {user : Pubkey} {amount : U64}
    (hdeposit : Step rt before event middle)
    (hcrank : Step rt middle event' after)
    (hevent : event.seenBy key = .deposit user amount)
    (hevent' : event'.seenBy key = .accrueFees)
    (hreachable : Reachable rt before)
    (hview : Shows rt.toDeployment before key view)
    (hmode : view.pool.poolMode = 1) (hempty : view.pool.totalLpSupply = 0)
    {pool : StakePool Pubkey} (hpool : rt.PoolAt after key pool) :
    pool.totalFeesEarned.toNat =
      view.pool.totalFeesEarned.toNat +
        (view.vaultAmount.toNat -
          view.pool.preSupplyVaultOffset.toNat) := by
  have hcoherent := hreachable.coherent hview
  have htrading := PoolView.ledger_trading.mpr hmode
  have hzero : view.ledger.supply = 0 := toNat_eq_zero.mpr hempty
  obtain ⟨first, deposited, hfirst, hdeposited, hledger⟩ :=
    hdeposit.operates hevent hreachable.sound hview
  obtain ⟨shares, rfl⟩ := hfirst.performs.of_deposit
  obtain ⟨second, cranked, hsecond, hcranked, hledger'⟩ :=
    hcrank.operates hevent' (hreachable.step hdeposit).sound hdeposited
  have hshares := hfirst.allowed.2.1
  have hissued : 0 < deposited.ledger.supply := by
    rw [hledger trivial]
    simp only [Ledger.apply]
    omega
  cases hsecond.performs.of_accrueFees hsecond.allowed hissued
  cases hcranked.pool.unique hpool
  have hworthless := (hcoherent.shared htrading).mp hzero
  have hcovered := hcoherent.covered
  obtain ⟨hflushed, hreturned⟩ := hcoherent.unflushed htrading
  simp only [Ledger.inflow, Ledger.outflow, htrading, cond_true, hflushed,
    hreturned] at hcovered
  have hbooked := congrArg Ledger.fees (hledger' trivial)
  rw [hledger trivial] at hbooked
  change _ = view.ledger.fees + (_ - _) at hbooked
  rw [view.ledger.unbooked_deposit _ _ (by omega),
    hcoherent.expected_eq htrading, hworthless, Nat.zero_add] at hbooked
  exact hbooked

end Runs

namespace Reference

/-- Seven units are in the vault before alice makes the first deposit, and
nobody cranked in between. -/
def dustyMarket : List (Transaction Address) :=
  [openLpAccount alice, donate 7, deposit alice 100, accrueFees]

/-- The pool and the balance of its vault. -/
def readView (bank : Bank Address) : Option (StakePool Address × U64) :=
  (poolIn bank).bind fun pool =>
    (tokenAccount bank pool.vault).toOption.map fun balance =>
      (pool, balance.amount)

theorem readView_of_shows {bank : Bank Address} {view : PoolView Address}
    (h : Shows deployment bank poolKey view) :
    readView bank = some (view.pool, view.vaultAmount) := by
  unfold readView
  rw [poolIn_eq_some.mpr h.pool, Option.bind_some,
    tokenAccount_eq_ok.mpr h.vault]
  rfl

/-- What a transaction sent to the vault while there was LP. -/
def sentWhileLive (bank next : Bank Address) : ℕ :=
  match readView bank, readView next with
  | some (pool, balance), some (pool', balance') =>
      if 0 < pool.totalLpSupply.toNat then
        balance'.toNat + pool'.totalWithdrawn.toNat +
            pool.totalDeposited.toNat -
          (balance.toNat + pool.totalWithdrawn.toNat +
            pool'.totalDeposited.toNat)
      else 0
  | _, _ => 0

theorem sentWhileLive_eq {bank next : Bank Address}
    {view view' : PoolView Address} {amount : ℕ}
    (hview : Shows deployment bank poolKey view)
    (hview' : Shows deployment next poolKey view')
    (hsent : view.Sent view' amount) :
    sentWhileLive bank next =
      if 0 < view.pool.totalLpSupply.toNat then amount else 0 := by
  unfold PoolView.Sent at hsent
  unfold sentWhileLive
  rw [readView_of_shows hview, readView_of_shows hview']
  dsimp only
  split
  · omega
  · rfl

/-- The number of tokens sent while there was LP, if all transactions succeed
and pass the check. -/
def countSent (check : ℕ → Bank Address → PoolEvent Address → Bool)
    (sent : ℕ) (bank : Bank Address) :
    List (Transaction Address) → Option ℕ
  | [] => some sent
  | transaction :: rest =>
      let next := transaction.perform runtime bank
      if accepts bank transaction &&
          check sent bank (transaction.event.seenBy poolKey) then
        countSent check (sent + sentWhileLive bank next) next rest
      else none

theorem transferRun_of_countSent
    {condition : ℕ → PoolView Address → PoolEvent Address → Prop}
    {check : ℕ → Bank Address → PoolEvent Address → Bool}
    (hcheck : ∀ sent bank view event, Shows deployment bank poolKey view →
      check sent bank event = true → condition sent view event)
    {sent total : ℕ} {bank : Bank Address}
    {transactions : List (Transaction Address)}
    (hrun : TransferRun runtime poolKey condition sent bank)
    (h : countSent check sent bank transactions = some total) :
    TransferRun runtime poolKey condition total
      (Transaction.performAll runtime bank transactions) := by
  induction transactions generalizing sent bank with
  | nil =>
      cases h
      exact hrun
  | cons transaction rest ih =>
      simp only [countSent] at h
      split at h
      · next hpasses =>
          rw [Bool.and_eq_true] at hpasses
          obtain ⟨haccepts, hpasses⟩ := hpasses
          obtain ⟨view, hview⟩ := hrun.shows
          have hstep := step_of_accepts haccepts
          obtain ⟨_, view', hoperates, hview', -⟩ :=
            hstep.operates rfl hrun.reachable.sound hview
          obtain ⟨amount, hamount⟩ :=
            hoperates.exists_sent (hrun.trading hview)
          rw [sentWhileLive_eq hview hview' hamount] at h
          exact ih (hrun.step hstep hview hview'
            (hcheck _ _ _ _ hview hpasses) hamount) h
      · cases h

theorem initTradingPool_transferRun
    (condition : ℕ → PoolView Address → PoolEvent Address → Prop) :
    TransferRun runtime poolKey condition 0
      ((initTradingPool 10).perform runtime genesis) := by
  have hreachable : Reachable runtime genesis :=
    ⟨genesis, [], genesis_genesis, .start⟩
  have hstep := step_of_accepts
    (show accepts genesis (initTradingPool 10) = true by decide +kernel)
  have hread : (poolIn ((initTradingPool 10).perform runtime genesis)).map
      StakePool.poolMode = some 1 := by decide +kernel
  obtain ⟨pool, hpool, hmode⟩ := exists_poolAt hread
  obtain ⟨view, rfl, hview⟩ := (hreachable.step hstep).shows_pool hpool
  exact .created hreachable hstep rfl hview hmode

/-- The check of a first deposit. -/
def findsNoDust (sent : ℕ) (bank : Bank Address) :
    PoolEvent Address → Bool
  | .deposit _ _ => (readView bank).all fun (pool, balance) =>
      decide (pool.totalLpSupply = 0 →
        balance.toNat - pool.preSupplyVaultOffset.toNat ≤
          sent - pool.totalFeesEarned.toNat)
  | _ => true

theorem findsNoDust_sound (sent : ℕ) (bank : Bank Address)
    (view : PoolView Address) (event : PoolEvent Address)
    (hview : Shows deployment bank poolKey view)
    (h : findsNoDust sent bank event = true) :
    view.FindsNoDust sent event := by
  cases event with
  | deposit user amount =>
      simp only [findsNoDust, readView_of_shows hview, Option.all_some,
        decide_eq_true_eq] at h
      exact h
  | _ => trivial

/-- Dust that is cranked away, fees, a full exit, and dust that is cranked
away again. -/
def crankedMarket : List (Transaction Address) :=
  [openLpAccount alice, donate 7, accrueFees, deposit alice 100, donate 30,
    accrueFees, waitUntil 1200 1, withdraw alice 100, donate 5, accrueFees,
    deposit alice 50, donate 2, accrueFees]

end Reference

end PercolatorVault
