import PercolatorVault.AdminEffects
import PercolatorVault.Availability

/-!
# Schedules of cranks

A crank books everything in the vault beyond what it expects.  It then expects
what is there, a second one finds nothing new, and between two deposits or
withdrawals the fees booked by the last crank depend on the donations alone.
The new expectation can be computed only while everything that ever came in
fits in 64 bits.
-/

namespace PercolatorVault

open CheckedArithmetic
open FallibleSteps
open ShareLedger

variable {Pubkey : Type}

/-- The next crank expects exactly `amount` in the vault. -/
def StakePool.Expects (pool : StakePool Pubkey) (amount : U64) : Prop :=
  ∃ baseline, pool.accrualBaseline = some baseline ∧
    baseline.toNat + pool.preSupplyVaultOffset.toNat = amount.toNat

/-- When the ledger expects what is in the vault, the record shows it unless
the balance and everything ever withdrawn outgrow 64 bits. -/
theorem PoolView.expects_iff {view : PoolView Pubkey}
    (h : view.ledger.Coherent) (hmode : view.pool.poolMode = 1)
    (hexpected : view.ledger.expected = view.ledger.vault) :
    view.pool.Expects view.vaultAmount ↔
      view.ledger.vault + view.ledger.withdrawn <
        2 ^ 64 + view.ledger.offset := by
  have hinflow :=
    h.inflow_of_expected (PoolView.ledger_trading.mpr hmode) hexpected
  rw [view.ledger_inflow] at hinflow
  constructor
  · rintro ⟨baseline, hbaseline, -⟩
    rw [(PoolView.bootstrappable h hmode).baseline] at hbaseline
    have hfits := (StakePool.totalPoolValue_eq_some.mp hbaseline).1
    omega
  · intro hfits
    have havailable := (PoolView.available_iff h).mpr (by omega)
    obtain ⟨baseline, hbaseline, -⟩ := havailable.expected hmode
    refine ⟨baseline, hbaseline, ?_⟩
    rw [← PoolView.ledger_expected hbaseline, hexpected]
    rfl

/-- A crank that finds what it expects, at the balance of the last one, only
notes its slot. -/
theorem PoolView.accrue_expected {view : PoolView Pubkey} {slot : U64}
    {pool' : StakePool Pubkey}
    (haccrue : view.pool.accrue view.vaultAmount slot = .ok pool')
    (hheld : 0 < view.pool.totalLpSupply.toNat)
    (hexpected : view.ledger.expected = view.ledger.vault)
    (hsnapshot : view.pool.lastVaultSnapshot = view.vaultAmount) :
    pool' = { view.pool with lastFeeAccrualSlot := slot } := by
  rcases StakePool.accrue_eq_ok haccrue with
    ⟨hempty, -⟩ | ⟨-, baseline, fees, hbaseline, -, hfees, rfl⟩
  · omega
  · rw [PoolView.ledger_expected hbaseline] at hexpected
    change _ = view.vaultAmount.toNat at hexpected
    have hsame : fees = view.pool.totalFeesEarned := by
      apply BitVec.eq_of_toNat_eq
      omega
    rw [hsame, ← hsnapshot]

/-- The fees and the value are read off the ledger. -/
theorem PoolView.value_congr {view view' : PoolView Pubkey}
    (h : view.ledger = view'.ledger) :
    view.pool.totalFeesEarned = view'.pool.totalFeesEarned ∧
      view.pool.totalPoolValue = view'.pool.totalPoolValue := by
  have hinflow := congrArg Ledger.inflow h
  have houtflow := congrArg Ledger.outflow h
  rw [view.ledger_inflow, view'.ledger_inflow] at hinflow
  rw [view.ledger_outflow, view'.ledger_outflow] at houtflow
  constructor
  · exact BitVec.eq_of_toNat_eq (congrArg Ledger.fees h)
  · apply Option.ext
    intro value
    rw [StakePool.totalPoolValue_eq_some, StakePool.totalPoolValue_eq_some,
      hinflow, houtflow]

section Cranks

variable [DecidableEq Pubkey] [Inhabited Pubkey] {rt : Runtime Pubkey}
  {before after : Bank Pubkey} {key : Pubkey} {event : Event Pubkey}
  {view : PoolView Pubkey}

/-! ## One crank -/

/-- A crank writes the record of its pool and nothing else. -/
theorem Step.accrueFees_stored (hstep : Step rt before event after)
    (hevent : event.seenBy key = .accrueFees)
    (hview : Shows rt.toDeployment before key view) :
    view.pool.poolMode = 1 ∧ ∃ pool',
      view.pool.accrue view.vaultAmount before.clock.slot = .ok pool' ∧
        Stored rt.toDeployment before after key (.stakePool pool') := by
  obtain ⟨user, info, rest, call, rfl, rfl, hseen, hrun⟩ :=
    hstep.instruction_of_seenBy (hevent.trans_ne (by simp))
  rw [hevent] at hseen
  cases call with
  | accrueFees =>
      have hcrank : processAccrueFees rt (user :: info :: rest) before =
          .ok after := hrun
      obtain ⟨_, _, _, pool, pool', _, haccounts, hdata, hmode, hvault,
        haccrue, hstored⟩ := processAccrueFees_eq_ok hcrank
      cases haccounts
      cases hview.pool.2.symm.trans hdata
      cases hview.vault.2.symm.trans hvault
      exact ⟨hmode, pool', haccrue, hstored⟩
  | _ => cases hseen

/-- With LP outstanding it books. -/
theorem Step.accrueFees_book (hstep : Step rt before event after)
    (hevent : event.seenBy key = .accrueFees) (hbefore : Reachable rt before)
    (hview : Shows rt.toDeployment before key view)
    (hheld : 0 < view.pool.totalLpSupply.toNat) :
    view.ledger.Allowed .book ∧ ∃ view',
      Shows rt.toDeployment after key view' ∧
        view'.ledger = view.ledger.apply .book := by
  obtain ⟨operation, view', hoperates, hview', hledger⟩ :=
    hstep.operates hevent hbefore.sound hview
  cases hoperates.performs.of_accrueFees hoperates.allowed hheld
  exact ⟨hoperates.allowed, view', hview', hledger trivial⟩

/-- It books exactly what is there beyond its expectation, and remembers the
balance it saw. -/
theorem Step.accrueFees_booked (hstep : Step rt before event after)
    (hevent : event.seenBy key = .accrueFees) (hbefore : Reachable rt before)
    (hview : Shows rt.toDeployment before key view)
    (hheld : 0 < view.pool.totalLpSupply.toNat) :
    ∃ view' baseline, Shows rt.toDeployment after key view' ∧
      view'.vaultAmount = view.vaultAmount ∧
      view'.ledger = view.ledger.apply .book ∧
      view'.pool.vault = view.pool.vault ∧
      view'.pool.lastVaultSnapshot = view.vaultAmount ∧
      view.pool.accrualBaseline = some baseline ∧
      baseline.toNat + view.pool.preSupplyVaultOffset.toNat ≤
        view.vaultAmount.toNat ∧
      view'.pool.totalFeesEarned.toNat = view.pool.totalFeesEarned.toNat +
        (view.vaultAmount.toNat -
          (baseline.toNat + view.pool.preSupplyVaultOffset.toNat)) := by
  obtain ⟨hallowed, view', hview', hledger⟩ :=
    hstep.accrueFees_book hevent hbefore hview hheld
  obtain ⟨-, pool', haccrue, hstored⟩ :=
    hstep.accrueFees_stored hevent hview
  cases hview'.pool.unique (hstored.poolAt hview.pool)
  have hvault : view'.vaultAmount = view.vaultAmount :=
    BitVec.eq_of_toNat_eq (congrArg Ledger.vault hledger)
  rcases StakePool.accrue_eq_ok haccrue with
    ⟨hempty, -⟩ | ⟨-, baseline, fees, hbaseline, -, hfees, hpool⟩
  · omega
  · have hle := (hbefore.coherent hview).expected_le hallowed.1
    rw [PoolView.ledger_expected hbaseline] at hle
    refine ⟨view', baseline, hview', hvault, hledger, ?_, ?_, hbaseline, hle,
      ?_⟩
    · rw [hpool]
    · rw [hpool]
    · rw [hpool]
      exact hfees

/-- A step that does not name the pool may only add to its vault. -/
theorem Step.idle_receive (hstep : Step rt before event after)
    (hevent : event.seenBy key = .idle) (hbefore : Reachable rt before)
    (hview : Shows rt.toDeployment before key view) :
    ∃ view' amount, Shows rt.toDeployment after key view' ∧
      view'.pool = view.pool ∧
      view'.vaultAmount.toNat = view.vaultAmount.toNat + amount ∧
      view'.ledger = view.ledger.apply (.receive amount) := by
  obtain ⟨_, view', hstepped, hdrift, hview', -⟩ :=
    hstep.poolStep hbefore.sound hview
  rw [hevent] at hstepped
  cases hstepped
  exact ⟨view', _, hview', hdrift.pool,
    (Nat.add_sub_of_le hdrift.vault).symm, hdrift.ledger_apply⟩

/-- The admin instructions that move no tokens do not reach the ledger. -/
theorem Step.administer_ledger (hstep : Step rt before event after)
    (hevent : event.seenBy key = .administer) (hbefore : Reachable rt before)
    (hview : Shows rt.toDeployment before key view) :
    ∃ view', Shows rt.toDeployment after key view' ∧
      view'.ledger = view.ledger := by
  obtain ⟨operation, view', hoperates, hview', hledger⟩ :=
    hstep.operates hevent hbefore.sound hview
  refine ⟨view', hview', ?_⟩
  rw [hledger trivial]
  cases operation with
  | receive amount =>
      cases (show amount = 0 from hoperates.performs)
      exact view.ledger.apply_receive_zero
  | _ => exact hoperates.performs.elim

/-- Nothing is flushed from a trading pool, and nothing comes back. -/
theorem Step.ne_insurance (hstep : Step rt before event after)
    (hbefore : Reachable rt before)
    (hview : Shows rt.toDeployment before key view)
    (hmode : view.pool.poolMode = 1) (amount : U64) :
    event.seenBy key ≠ .flush amount ∧
      event.seenBy key ≠ .returnInsurance amount := by
  obtain ⟨_, _, hstepped, -⟩ := hstep.poolStep hbefore.sound hview
  constructor
  · intro hevent
    rw [hevent] at hstepped
    cases hstepped with
    | flush _ hinsurance =>
        rw [hmode] at hinsurance
        cases hinsurance
  · intro hevent
    rw [hevent] at hstepped
    cases hstepped with
    | returnInsurance hinsurance =>
        rw [hmode] at hinsurance
        cases hinsurance

/-! ## Schedules -/

/-- From `start` on, donations to the vault of the pool at `key` and cranks of
that pool in any order, with its admin and the transactions of others in
between.  The donations are listed as they came; what others do without adding
to the vault counts as a donation of nothing. -/
inductive CrankSchedule (rt : Runtime Pubkey) (key : Pubkey)
    (start : Bank Pubkey) : List ℕ → Bank Pubkey → Prop
  | start : CrankSchedule rt key start [] start
  | donate {donations : List ℕ} {before after : Bank Pubkey}
      {event : Event Pubkey} {pool : StakePool Pubkey}
      {balance balance' : TokenAccount Pubkey} {amount : ℕ}
      (hschedule : CrankSchedule rt key start donations before)
      (hstep : Step rt before event after)
      (hevent : event.seenBy key = .idle)
      (hpool : rt.PoolAt before key pool)
      (hbalance : rt.TokenAt before pool.vault balance)
      (hbalance' : rt.TokenAt after pool.vault balance')
      (hamount : balance'.amount.toNat = balance.amount.toNat + amount) :
      CrankSchedule rt key start (donations ++ [amount]) after
  | crank {donations : List ℕ} {before after : Bank Pubkey}
      {event : Event Pubkey}
      (hschedule : CrankSchedule rt key start donations before)
      (hstep : Step rt before event after)
      (hevent : event.seenBy key = .accrueFees) :
      CrankSchedule rt key start donations after
  | administer {donations : List ℕ} {before after : Bank Pubkey}
      {event : Event Pubkey}
      (hschedule : CrankSchedule rt key start donations before)
      (hstep : Step rt before event after)
      (hevent : event.seenBy key = .administer) :
      CrankSchedule rt key start donations after

/-- Every run of a trading pool without deposits and withdrawals is one. -/
theorem Run.crankSchedule {start bank : Bank Pubkey}
    {events : List (Event Pubkey)} (hrun : Run rt start events bank)
    (hstart : Reachable rt start)
    (hview : Shows rt.toDeployment start key view)
    (hmode : view.pool.poolMode = 1)
    (hkept : ∀ event ∈ events, ∀ user amount,
      event.seenBy key ≠ .deposit user amount ∧
        event.seenBy key ≠ .withdraw user amount) :
    ∃ donations, CrankSchedule rt key start donations bank := by
  induction hrun with
  | start => exact ⟨[], .start⟩
  | @step earlier event before after hrun hstep ih =>
      obtain ⟨donations, hschedule⟩ := ih fun event hmem =>
        hkept event (by simp [hmem])
      obtain ⟨middle, hmiddle, hmode'⟩ := hrun.shows hstart.sound hview
      rw [hmode] at hmode'
      have hbefore := hstart.run hrun
      have hkept := hkept event (by simp)
      cases hevent : event.seenBy key with
      | deposit user amount => exact absurd hevent (hkept user amount).1
      | withdraw user amount => exact absurd hevent (hkept user amount).2
      | flush amount =>
          exact absurd hevent
            (hstep.ne_insurance hbefore hmiddle hmode' amount).1
      | returnInsurance amount =>
          exact absurd hevent
            (hstep.ne_insurance hbefore hmiddle hmode' amount).2
      | accrueFees => exact ⟨donations, hschedule.crank hstep hevent⟩
      | administer => exact ⟨donations, hschedule.administer hstep hevent⟩
      | idle =>
          obtain ⟨view', amount, hview', hpool, hamount, -⟩ :=
            hstep.idle_receive hevent hbefore hmiddle
          have hvault := hview'.vault
          rw [hpool] at hvault
          exact ⟨_, hschedule.donate hstep hevent hmiddle.pool hmiddle.vault
            hvault hamount⟩

/-- Booked at the end, the pool of a schedule is what one crank after all the
donations would have made of it. -/
theorem CrankSchedule.booked {start bank : Bank Pubkey} {donations : List ℕ}
    (h : CrankSchedule rt key start donations bank)
    (hstart : Reachable rt start)
    (hview : Shows rt.toDeployment start key view)
    (hallowed : view.ledger.Allowed .book) :
    Reachable rt bank ∧ ∃ view', Shows rt.toDeployment bank key view' ∧
      view'.ledger.Allowed .book ∧
      view'.ledger.apply .book =
        (view.ledger.apply (.receive donations.sum)).apply .book := by
  induction h with
  | start => exact ⟨hstart, view, hview, hallowed, rfl⟩
  | @donate donations before after event pool balance balance' amount _
      hstep hevent hpool hbalance hbalance' hamount ih =>
      obtain ⟨hbefore, middle, hmiddle, hready, hsame⟩ := ih
      obtain ⟨view', received, hview', hsamePool, hreceived, hledger⟩ :=
        hstep.idle_receive hevent hbefore hmiddle
      have hdonated : received = amount := by
        cases hmiddle.pool.unique hpool
        have hvault' := hview'.vault
        rw [hsamePool] at hvault'
        rw [← hmiddle.vault.unique hbalance, ← hvault'.unique hbalance']
          at hamount
        dsimp only at hamount
        omega
      subst hdonated
      have hcoherent : (view.ledger.apply (.receive donations.sum)).Coherent :=
        (hstart.coherent hview).apply trivial
      refine ⟨hbefore.step hstep, view', hview', ?_, ?_⟩
      · rw [hledger]
        exact hready
      · rw [hledger, List.sum_append, List.sum_singleton,
          ← Ledger.apply_receive_receive]
        exact (hbefore.coherent hmiddle).apply_receive_congr hready hcoherent
          hallowed hsame received
  | @crank donations before after event _ hstep hevent ih =>
      obtain ⟨hbefore, middle, hmiddle, hready, hsame⟩ := ih
      obtain ⟨-, view', hview', hledger⟩ :=
        hstep.accrueFees_book hevent hbefore hmiddle hready.2
      have hcoherent := hbefore.coherent hmiddle
      refine ⟨hbefore.step hstep, view', hview', ?_, ?_⟩
      · rw [hledger]
        exact hready
      · rw [hledger, hcoherent.apply_book_book hready]
        exact hsame
  | @administer donations before after event _ hstep hevent ih =>
      obtain ⟨hbefore, middle, hmiddle, hready, hsame⟩ := ih
      obtain ⟨view', hview', hledger⟩ :=
        hstep.administer_ledger hevent hbefore hmiddle
      rw [← hledger] at hready hsame
      exact ⟨hbefore.step hstep, view', hview', hready, hsame⟩

/-- A schedule of donations that ends in a crank. -/
def CrankedAfter (rt : Runtime Pubkey) (key : Pubkey) (start : Bank Pubkey)
    (donations : List ℕ) (bank : Bank Pubkey) : Prop :=
  ∃ ready event, CrankSchedule rt key start donations ready ∧
    Step rt ready event bank ∧ event.seenBy key = .accrueFees

theorem CrankedAfter.ledger {start bank : Bank Pubkey} {donations : List ℕ}
    (h : CrankedAfter rt key start donations bank)
    (hstart : Reachable rt start)
    (hview : Shows rt.toDeployment start key view)
    (hallowed : view.ledger.Allowed .book) :
    ∃ view', Shows rt.toDeployment bank key view' ∧
      view'.ledger =
        (view.ledger.apply (.receive donations.sum)).apply .book := by
  obtain ⟨ready, event, hschedule, hstep, hevent⟩ := h
  obtain ⟨hready, middle, hmiddle, hbookable, hsame⟩ :=
    hschedule.booked hstart hview hallowed
  obtain ⟨-, view', hview', hledger⟩ :=
    hstep.accrueFees_book hevent hready hmiddle hbookable.2
  exact ⟨view', hview', hledger.trans hsame⟩

/-- Two schedules of the same donations end with the same fees and value. -/
theorem CrankedAfter.value_eq {start bank bank' : Bank Pubkey}
    {donations donations' : List ℕ}
    (h : CrankedAfter rt key start donations bank)
    (h' : CrankedAfter rt key start donations' bank')
    (hsum : donations.sum = donations'.sum) (hstart : Reachable rt start)
    (hview : Shows rt.toDeployment start key view)
    (hallowed : view.ledger.Allowed .book) {pool pool' : StakePool Pubkey}
    (hpool : rt.PoolAt bank key pool) (hpool' : rt.PoolAt bank' key pool') :
    pool.totalFeesEarned = pool'.totalFeesEarned ∧
      pool.totalPoolValue = pool'.totalPoolValue := by
  obtain ⟨last, hlast, hledger⟩ := h.ledger hstart hview hallowed
  obtain ⟨last', hlast', hledger'⟩ := h'.ledger hstart hview hallowed
  cases hlast.pool.unique hpool
  cases hlast'.pool.unique hpool'
  apply PoolView.value_congr
  rw [hledger, hledger', hsum]

/-! ## What a crank achieves -/

/-- A pool that was settled at a balance is still settled at that balance, so
a crank only notes its slot. -/
theorem Step.accrueFees_again (hstep : Step rt before event after)
    (hevent : event.seenBy key = .accrueFees) (hbefore : Reachable rt before)
    (hpool : rt.PoolAt before key view.pool) {balance : TokenAccount Pubkey}
    (hbalance : rt.TokenAt before view.pool.vault balance)
    (hamount : balance.amount = view.vaultAmount)
    (hheld : 0 < view.pool.totalLpSupply.toNat)
    (hexpected : view.ledger.expected = view.ledger.vault)
    (hsnapshot : view.pool.lastVaultSnapshot = view.vaultAmount) :
    Stored rt.toDeployment before after key
      (.stakePool { view.pool with
        lastFeeAccrualSlot := before.clock.slot }) := by
  obtain ⟨now, hsame, hnow⟩ := hbefore.shows_pool hpool
  rw [← hsame] at hbalance
  obtain ⟨-, pool', haccrue, hstored⟩ := hstep.accrueFees_stored hevent hnow
  have hvault : now.vaultAmount = view.vaultAmount := by
    rw [← hamount, ← hnow.vault.unique hbalance]
  rw [hsame, hvault] at haccrue
  rw [PoolView.accrue_expected haccrue hheld hexpected hsnapshot] at hstored
  exact hstored

/-- A crank made `pool'` of `pool` at this balance of the vault.  It booked
exactly what was there beyond the baseline and the offset, and never was there
less.  A later crank at the same balance only notes its slot.  Had there been
donations, any two schedules ending in a crank would have booked the same. -/
structure ExactCrank (rt : Runtime Pubkey) (key : Pubkey)
    (before after : Bank Pubkey) (pool pool' : StakePool Pubkey)
    (balance : TokenAccount Pubkey) : Prop where
  booked : ∃ baseline, pool.accrualBaseline = some baseline ∧
    baseline.toNat + pool.preSupplyVaultOffset.toNat ≤
      balance.amount.toNat ∧
    pool'.totalFeesEarned.toNat = pool.totalFeesEarned.toNat +
      (balance.amount.toNat -
        (baseline.toNat + pool.preSupplyVaultOffset.toNat))
  vault : rt.TokenAt after pool'.vault balance
  again : ∀ later balance' event' final, Reachable rt later →
    rt.PoolAt later key pool' → rt.TokenAt later pool'.vault balance' →
    balance'.amount = balance.amount → Step rt later event' final →
    event'.seenBy key = .accrueFees →
      Stored rt.toDeployment later final key
        (.stakePool { pool' with lastFeeAccrualSlot := later.clock.slot })
  scheduled : ∀ donations donations' last last' lastPool lastPool',
    CrankedAfter rt key before donations last →
    CrankedAfter rt key before donations' last' →
    donations.sum = donations'.sum →
    rt.PoolAt last key lastPool → rt.PoolAt last' key lastPool' →
      lastPool.totalFeesEarned = lastPool'.totalFeesEarned ∧
        lastPool.totalPoolValue = lastPool'.totalPoolValue

/-- With LP outstanding a crank is exact, and what the next one expects is then
the balance unless that and everything ever withdrawn outgrow 64 bits. -/
theorem accrueFees_exact_iff (hbefore : Reachable rt before)
    {pool pool' : StakePool Pubkey} (hpool : rt.PoolAt before key pool)
    (hheld : 0 < pool.totalLpSupply.toNat) {balance : TokenAccount Pubkey}
    (hbalance : rt.TokenAt before pool.vault balance)
    (hstep : Step rt before event after)
    (hevent : event.seenBy key = .accrueFees)
    (hpool' : rt.PoolAt after key pool') :
    ExactCrank rt key before after pool pool' balance ∧
      (pool'.Expects balance.amount ↔
        balance.amount.toNat + pool.totalWithdrawn.toNat <
          2 ^ 64 + pool.preSupplyVaultOffset.toNat) := by
  obtain ⟨view, rfl, hview⟩ := hbefore.shows_pool hpool
  have hcoherent := hbefore.coherent hview
  obtain ⟨hallowed, -⟩ := hstep.accrueFees_book hevent hbefore hview hheld
  obtain ⟨-, _, -, hstored⟩ := hstep.accrueFees_stored hevent hview
  obtain ⟨view', baseline, hview', hvault, hledger, haddress, hsnapshot,
    hbaseline, hle, hfees⟩ :=
      hstep.accrueFees_booked hevent hbefore hview hheld
  cases hview'.pool.unique hpool'
  have hexpected : view'.ledger.expected = view'.ledger.vault := by
    rw [hledger]
    exact hcoherent.expected_book hallowed
  have hsupply : view'.pool.totalLpSupply.toNat =
      view.pool.totalLpSupply.toNat := congrArg Ledger.supply hledger
  have hamount : view.vaultAmount = balance.amount := by
    rw [← hview.vault.unique hbalance]
  constructor
  · refine ⟨?_, ?_, ?_, ?_⟩
    · rw [hamount] at hle hfees
      exact ⟨baseline, hbaseline, hle, hfees⟩
    · rw [haddress]
      exact hstored.tokenAt_iff.mpr hbalance
    · intro later balance' event' final hlater hlaterPool hlaterBalance hsame
        hagain hagainEvent
      rw [← hamount, ← hvault] at hsame
      rw [← hvault] at hsnapshot
      exact hagain.accrueFees_again hagainEvent hlater hlaterPool
        hlaterBalance hsame (by omega) hexpected hsnapshot
    · intro donations donations' last last' lastPool lastPool' hlast hlast'
        hsum hlastPool hlastPool'
      exact hlast.value_eq hlast' hsum hbefore hview hallowed hlastPool
        hlastPool'
  · have hmode : view'.pool.poolMode = 1 := by
      rw [← PoolView.ledger_trading, hledger]
      exact hallowed.1
    have hiff := PoolView.expects_iff
      ((hbefore.step hstep).coherent hview') hmode hexpected
    rw [hvault, hledger, hamount] at hiff
    rw [hiff, ← hamount]
    rfl

end Cranks

namespace Reference

/-- Half of the 64-bit range goes in and out, and nearly as much comes in
again, with some fees. -/
def turnoverMarket : List (Transaction Address) :=
  [initTradingPool 10, openLpAccount alice, deposit alice 0x8000000000000000,
    waitUntil 1200 1, withdraw alice 0x8000000000000000,
    deposit alice 0x7FFFFFFFFFFFFFFF, donate 1000]

/-- The crank books the fees, and no crank after it can compute what to
expect. -/
theorem turnoverMarket_expects :
    let before := bankAfter turnoverMarket
    let after := accrueFees.perform runtime before
    ∃ pool pool' balance, Reachable runtime before ∧
      deployment.PoolAt before poolKey pool ∧ pool.poolMode = 1 ∧
      0 < pool.totalLpSupply.toNat ∧
      deployment.TokenAt before pool.vault balance ∧
      Step runtime before accrueFees.event after ∧
      deployment.PoolAt after poolKey pool' ∧
      pool'.totalFeesEarned = 1000 ∧ pool'.accrualBaseline = none ∧
      ¬ pool'.Expects balance.amount := by
  intro before after
  have hread : (poolIn before).map (fun pool => (pool.poolMode,
      pool.totalLpSupply.toNat, pool.vault)) =
        some (1, 2 ^ 63 - 1, vault) := by decide +kernel
  have hread' : (poolIn after).map (fun pool => (pool.totalFeesEarned,
      pool.accrualBaseline)) = some (1000, none) := by decide +kernel
  have hbalance : (vaultIn before).map (fun balance =>
      balance.amount.toNat) = some (2 ^ 63 + 999) := by decide +kernel
  obtain ⟨pool, hpool, hnumbers⟩ := exists_poolAt hread
  obtain ⟨pool', hpool', hnumbers'⟩ := exists_poolAt hread'
  obtain ⟨balance, hvault, -⟩ := exists_vaultBalance hbalance
  simp only [Prod.mk.injEq] at hnumbers hnumbers'
  obtain ⟨hmode, hsupply, haddress⟩ := hnumbers
  obtain ⟨hfees, hnone⟩ := hnumbers'
  rw [← haddress] at hvault
  refine ⟨pool, pool', balance, bankAfter_reachable (by decide +kernel), hpool,
    hmode, by omega, hvault, step_of_accepts (by decide +kernel), hpool',
    hfees, hnone, ?_⟩
  rintro ⟨baseline, hbaseline, -⟩
  rw [hnone] at hbaseline
  cases hbaseline

/-- The last five tokens of the market are booked. -/
theorem busyMarket_exactCrank :
    let before := bankAfter busyMarket
    let after := accrueFees.perform runtime before
    ∃ pool pool' balance,
      deployment.PoolAt before poolKey pool ∧
      deployment.PoolAt after poolKey pool' ∧
      deployment.TokenAt before pool.vault balance ∧
      (pool.totalFeesEarned, pool'.totalFeesEarned) = (50, 55) ∧
      ExactCrank runtime poolKey before after pool pool' balance ∧
      (pool'.Expects balance.amount ↔
        balance.amount.toNat + pool.totalWithdrawn.toNat <
          2 ^ 64 + pool.preSupplyVaultOffset.toNat) := by
  intro before after
  have hread : (poolIn before).map (fun pool => (pool.totalFeesEarned,
      decide (0 < pool.totalLpSupply.toNat), pool.vault)) =
        some (50, true, vault) := by decide +kernel
  have hread' : (poolIn after).map (fun pool => pool.totalFeesEarned) =
      some 55 := by decide +kernel
  have hbalance : (vaultIn before).map (fun balance =>
      balance.amount.toNat) = some 942 := by decide +kernel
  obtain ⟨pool, hpool, hnumbers⟩ := exists_poolAt hread
  obtain ⟨pool', hpool', hfees'⟩ := exists_poolAt hread'
  obtain ⟨balance, hvault, -⟩ := exists_vaultBalance hbalance
  simp only [Prod.mk.injEq, decide_eq_true_eq] at hnumbers
  obtain ⟨hfees, hheld, haddress⟩ := hnumbers
  rw [← haddress] at hvault
  refine ⟨pool, pool', balance, hpool, hpool', hvault, ?_,
    accrueFees_exact_iff (bankAfter_reachable (by decide +kernel)) hpool hheld
      hvault (step_of_accepts (by decide +kernel)) rfl hpool'⟩
  rw [hfees, hfees']

/-- Two schedules of the same donations. -/
example :
    (poolIn (bankAfter (busyMarket ++
        [donate 3, accrueFees, donate 4, accrueFees]))).map
      (fun pool => (pool.totalFeesEarned, pool.totalPoolValue)) =
    (poolIn (bankAfter (busyMarket ++ [donate 4, donate 3, accrueFees]))).map
      (fun pool => (pool.totalFeesEarned, pool.totalPoolValue)) := by
  decide +kernel

end Reference

end PercolatorVault
