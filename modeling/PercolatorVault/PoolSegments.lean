import PercolatorVault.DepositRecords
import PercolatorVault.LedgerRefinement
import PercolatorVault.ReferenceMarket

/-!
# Parts of a run seen from one pool

Steps and runs between two reachable banks, followed through the view of a
single pool: what one step does to it, that it never disappears, and that it
only drifts while nobody names it in an instruction.
-/

namespace PercolatorVault

open CheckedArithmetic
open FallibleSteps
open FiniteTallies
open ProportionalShares
open ShareLedger

variable {Pubkey : Type}

/-! ## The ledger along a step -/

theorem PoolEvent.Performs.ne_flush {event : PoolEvent Pubkey}
    {operation : Operation} (h : event.Performs operation)
    (hflush : ∀ amount, event ≠ .flush amount) (amount : ℕ) :
    operation ≠ .flush amount := by
  rintro rfl
  cases event with
  | flush amount' => exact hflush amount' rfl
  | _ => exact h

theorem PoolEvent.Performs.ne_withdraw {event : PoolEvent Pubkey}
    {operation : Operation} (h : event.Performs operation)
    (hwithdraw : ∀ user lpAmount, event ≠ .withdraw user lpAmount)
    (shares payout : ℕ) : operation ≠ .withdraw shares payout := by
  rintro rfl
  cases event with
  | withdraw user lpAmount => exact hwithdraw user lpAmount rfl
  | _ => exact h

theorem PoolEvent.Performs.of_deposit {user : Pubkey} {amount : U64}
    {operation : Operation}
    (h : (PoolEvent.deposit user amount).Performs operation) :
    ∃ shares, operation = .deposit amount.toNat shares := by
  cases operation with
  | deposit amount' shares => exact ⟨shares, by rw [show amount' = _ from h]⟩
  | _ => exact h.elim

theorem PoolEvent.Performs.of_withdraw {user : Pubkey} {lpAmount : U64}
    {operation : Operation}
    (h : (PoolEvent.withdraw user lpAmount).Performs operation) :
    ∃ payout, operation = .withdraw lpAmount.toNat payout := by
  cases operation with
  | withdraw shares payout => exact ⟨payout, by rw [show shares = _ from h]⟩
  | _ => exact h.elim

theorem PoolEvent.Performs.of_flush {amount : U64} {operation : Operation}
    (h : (PoolEvent.flush amount : PoolEvent Pubkey).Performs operation) :
    operation = .flush amount.toNat := by
  cases operation with
  | flush amount' => rw [show amount' = _ from h]
  | _ => exact h.elim

theorem PoolEvent.Performs.of_returnInsurance {amount : U64}
    {operation : Operation}
    (h : (PoolEvent.returnInsurance amount : PoolEvent Pubkey).Performs
      operation) : operation = .reclaim amount.toNat := by
  cases operation with
  | reclaim amount' => rw [show amount' = _ from h]
  | _ => exact h.elim

/-- With LP outstanding a crank books fees. -/
theorem PoolEvent.Performs.of_accrueFees {ledger : Ledger}
    {operation : Operation}
    (h : (PoolEvent.accrueFees : PoolEvent Pubkey).Performs operation)
    (hallowed : ledger.Allowed operation) (hsupply : 0 < ledger.supply) :
    operation = .book := by
  cases operation with
  | settle => exact absurd hallowed.2 (Nat.pos_iff_ne_zero.mp hsupply)
  | book => rfl
  | _ => exact h.elim

/-- The pot behind the shares of a pool. -/
def StakePool.pot (pool : StakePool Pubkey) : Pot :=
  ⟨pool.bookValue, pool.totalLpSupply.toNat⟩

theorem PoolView.ledger_pot (view : PoolView Pubkey) :
    view.ledger.pot = view.pool.pot := by
  unfold Ledger.pot StakePool.pot
  rw [view.ledger_value, view.ledger_supply]

/-! ## Operations -/

/-- The call performs the operation on the ledger, up to tokens sent to the
vault, and writes no record but the one of its user. -/
structure Operates (call : PoolEvent Pubkey) (operation : Operation)
    (view view' : PoolView Pubkey) : Prop where
  performs : call.Performs operation
  allowed : view.ledger.Allowed operation
  accounts : view.pool.SameAccounts view'.pool
  ledger : ∃ received,
    view'.ledger = (view.ledger.apply operation).apply (.receive received)
  records : ∀ user, call.user? ≠ some user →
    view'.records user = view.records user
  credited : ∀ user amount, call = .deposit user amount →
    weigh StakeDeposit.weight (view'.records user) +
        view.pool.totalLpSupply.toNat =
      weigh StakeDeposit.weight (view.records user) +
        view'.pool.totalLpSupply.toNat

theorem Operates.pot {call : PoolEvent Pubkey} {operation : Operation}
    {view view' : PoolView Pubkey} (h : Operates call operation view view') :
    view'.pool.pot = (view.ledger.apply operation).pot := by
  obtain ⟨received, hledger⟩ := h.ledger
  rw [← view'.ledger_pot, hledger]
  rfl

/-- The first deposit mints one LP per unit. -/
theorem Operates.firstDeposit_pot {user : Pubkey} {amount : U64}
    {operation : Operation} {view view' : PoolView Pubkey}
    (h : Operates (.deposit user amount) operation view view')
    (hcoherent : view.ledger.Coherent)
    (hempty : view.pool.totalLpSupply.toNat = 0) :
    view'.pool.pot = view.pool.pot.issue amount.toNat amount.toNat := by
  obtain ⟨shares, rfl⟩ := h.performs.of_deposit
  obtain ⟨-, -, hmint⟩ := h.allowed
  rw [view.ledger_supply, if_pos hempty] at hmint
  rw [h.pot, Ledger.pot_deposit _ _ _ hcoherent.covered, view.ledger_pot,
    hmint]

/-- A later deposit mints at the price of the pot. -/
theorem Operates.deposit_pot {user : Pubkey} {amount : U64}
    {operation : Operation} {view view' : PoolView Pubkey}
    (h : Operates (.deposit user amount) operation view view')
    (hcoherent : view.ledger.Coherent)
    (hheld : 0 < view.pool.totalLpSupply.toNat) :
    0 < view.pool.bookValue ∧
      view'.pool.pot = view.pool.pot.issue amount.toNat
        (view.pool.pot.mint amount.toNat) := by
  obtain ⟨shares, rfl⟩ := h.performs.of_deposit
  obtain ⟨-, -, hmint⟩ := h.allowed
  rw [view.ledger_supply, if_neg (Nat.pos_iff_ne_zero.mp hheld),
    view.ledger_value, view.ledger_pot] at hmint
  refine ⟨hmint.1, ?_⟩
  rw [h.pot, Ledger.pot_deposit _ _ _ hcoherent.covered, view.ledger_pot,
    hmint.2]

theorem Operates.flush_pot {amount : U64} {operation : Operation}
    {view view' : PoolView Pubkey}
    (h : Operates (.flush amount) operation view view') :
    amount.toNat ≤ view.pool.bookValue ∧
      view'.pool.pot = view.pool.pot.retire amount.toNat 0 := by
  cases h.performs.of_flush
  obtain ⟨-, hle, -⟩ := h.allowed
  rw [view.ledger_value] at hle
  refine ⟨hle, ?_⟩
  rw [h.pot, Ledger.pot_flush, view.ledger_pot]

theorem Operates.returnInsurance_pot {amount : U64} {operation : Operation}
    {view view' : PoolView Pubkey}
    (h : Operates (.returnInsurance amount) operation view view')
    (hcoherent : view.ledger.Coherent) :
    view'.pool.pot = view.pool.pot.gain amount.toNat := by
  cases h.performs.of_returnInsurance
  rw [h.pot, Ledger.pot_reclaim _ _ hcoherent.covered, view.ledger_pot]

/-- A crank books exactly what is in the vault beyond its expectation. -/
theorem Operates.accrueFees_pot {operation : Operation}
    {view view' : PoolView Pubkey}
    (h : Operates .accrueFees operation view view')
    (hcoherent : view.ledger.Coherent)
    (hheld : 0 < view.pool.totalLpSupply.toNat) :
    view'.pool.pot = view.pool.pot.gain
      (view.ledger.vault - view.ledger.expected) := by
  cases h.performs.of_accrueFees h.allowed hheld
  rw [h.pot, Ledger.pot_book _ h.allowed.1 hcoherent.covered,
    view.ledger_pot]

/-- A withdrawal pays the holder's share of the pot. -/
theorem Operates.withdraw_pays {user : Pubkey} {lpAmount : U64}
    {operation : Operation} {view view' : PoolView Pubkey}
    (h : Operates (.withdraw user lpAmount) operation view view') :
    view'.pool.totalWithdrawn.toNat =
      view.pool.totalWithdrawn.toNat +
        view.pool.pot.redeem lpAmount.toNat := by
  obtain ⟨payout, rfl⟩ := h.performs.of_withdraw
  obtain ⟨-, -, hpayout, -, -⟩ := h.allowed
  obtain ⟨received, hledger⟩ := h.ledger
  rw [view.ledger_pot] at hpayout
  rw [← hpayout]
  exact congrArg Ledger.withdrawn hledger

theorem Operates.drift {call : PoolEvent Pubkey} {operation : Operation}
    {burned : ℕ} {view middle view' : PoolView Pubkey}
    (h : Operates call operation view middle)
    (hdrift : Drift burned middle view') :
    Operates call operation view view' where
  performs := h.performs
  allowed := h.allowed
  accounts := by
    rw [hdrift.pool]
    exact h.accounts
  ledger := by
    obtain ⟨received, hledger⟩ := h.ledger
    refine ⟨received +
      (view'.vaultAmount.toNat - middle.vaultAmount.toNat), ?_⟩
    rw [hdrift.ledger_apply, hledger]
    simp only [Ledger.apply, Nat.add_assoc]
  records user huser := by
    rw [hdrift.records]
    exact h.records user huser
  credited user amount hcall := by
    rw [hdrift.records, hdrift.pool]
    exact h.credited user amount hcall

variable [DecidableEq Pubkey] [Inhabited Pubkey]

theorem PoolStep.operates {d : Deployment Pubkey} {key : Pubkey}
    {clock : Clock} {call : PoolEvent Pubkey} {view view' : PoolView Pubkey}
    (hstep : PoolStep d key clock call view view') :
    ∃ operation, Operates call operation view view' ∧
      view'.ledger = view.ledger.apply operation := by
  obtain ⟨operation, hperforms, hallowed, hledger⟩ := hstep.ledger_apply
  refine ⟨operation, ⟨hperforms, hallowed, hstep.sameIdentity.sameAccounts,
    ⟨0, hledger⟩, fun _ => hstep.records_eq, ?_⟩, hledger⟩
  rintro user amount rfl
  obtain ⟨lp, record, -, hrecord, hsupply, hlp, -⟩ := hstep.deposit_record
  rw [hrecord, weigh_some, StakeDeposit.weigh_getD]
  unfold StakeDeposit.weight
  omega

/-! ## Steps -/

variable {rt : Runtime Pubkey}
  {before after : Bank Pubkey} {key : Pubkey} {event : Event Pubkey}

/-- What a step does to a pool that exists. -/
theorem Step.poolStep (hstep : Step rt before event after)
    (hbefore : Sound rt.toDeployment before) {view : PoolView Pubkey}
    (hview : Shows rt.toDeployment before key view) :
    ∃ middle view',
      PoolStep rt.toDeployment key before.clock (event.seenBy key) view
        middle ∧
      Drift (event.lpBurned view.pool.lpMint) middle view' ∧
      Shows rt.toDeployment after key view' ∧
      ((event.seenBy key).Exact → view' = middle) :=
  (hstep.simulates hbefore).steps key view hview

/-- A step that names the pool is one operation on its ledger. -/
theorem Step.operates {call : PoolEvent Pubkey}
    (hstep : Step rt before event after) (hevent : event.seenBy key = call)
    (hbefore : Sound rt.toDeployment before) {view : PoolView Pubkey}
    (hview : Shows rt.toDeployment before key view) :
    ∃ operation view', Operates call operation view view' ∧
      Shows rt.toDeployment after key view' ∧
      (call.Exact → view'.ledger = view.ledger.apply operation) := by
  obtain ⟨middle, view', hpool, hdrift, hshows, hexact⟩ :=
    hstep.poolStep hbefore hview
  rw [hevent] at hpool hexact
  obtain ⟨operation, hoperates, hledger⟩ := hpool.operates
  refine ⟨operation, view', hoperates.drift hdrift, hshows, ?_⟩
  intro hcall
  rw [hexact hcall, hledger]

/-- A pool seen after a step was there before it, or the step created it. -/
theorem Step.operates_or_fresh (hstep : Step rt before event after)
    (hbefore : Sound rt.toDeployment before) {view' : PoolView Pubkey}
    (hview' : Shows rt.toDeployment after key view') :
    (∃ operation view, Shows rt.toDeployment before key view ∧
      Operates (event.seenBy key) operation view view') ∨ view'.Fresh := by
  rcases (hstep.simulates hbefore).created key view' hview' with
    ⟨view, hview⟩ | ⟨hfresh, -⟩
  · obtain ⟨operation, shown, hoperates, hshown, -⟩ :=
      hstep.operates rfl hbefore hview
    cases hshown.unique hview'
    exact Or.inl ⟨operation, view, hview, hoperates⟩
  · exact Or.inr hfresh

/-- Pools never disappear and never change their mode. -/
theorem Run.shows {events : List (Event Pubkey)}
    (hrun : Run rt before events after)
    (hbefore : Sound rt.toDeployment before) {view : PoolView Pubkey}
    (hview : Shows rt.toDeployment before key view) :
    ∃ view', Shows rt.toDeployment after key view' ∧
      view'.pool.poolMode = view.pool.poolMode := by
  induction hrun with
  | start => exact ⟨view, hview, rfl⟩
  | step hrun hstep ih =>
      obtain ⟨middle, hmiddle, hmode⟩ := ih
      obtain ⟨stepped, view', hpool, hdrift, hshows, -⟩ :=
        hstep.poolStep (hrun.sound hbefore) hmiddle
      refine ⟨view', hshows, ?_⟩
      rw [hdrift.pool, hpool.sameIdentity.poolMode, hmode]

/-! ## Quiet runs -/

/-- The run does not name the pool in a successful instruction. -/
def Quiet (rt : Runtime Pubkey) (key : Pubkey) (before after : Bank Pubkey) :
    Prop :=
  ∃ events, Run rt before events after ∧
    ∀ event ∈ events, event.seenBy key = .idle

theorem Quiet.refl (rt : Runtime Pubkey) (key : Pubkey) (bank : Bank Pubkey) :
    Quiet rt key bank bank :=
  ⟨[], .start, by simp⟩

theorem Quiet.single (hstep : Step rt before event after)
    (hidle : event.seenBy key = .idle) : Quiet rt key before after :=
  ⟨[event], Run.start.step hstep, by simpa using hidle⟩

theorem Quiet.sound (h : Quiet rt key before after)
    (hbefore : Sound rt.toDeployment before) :
    Sound rt.toDeployment after := by
  obtain ⟨events, hrun, -⟩ := h
  exact hrun.sound hbefore

theorem Quiet.reachable (h : Quiet rt key before after)
    (hbefore : Reachable rt before) : Reachable rt after := by
  obtain ⟨events, hrun, -⟩ := h
  exact hbefore.run hrun

/-- During a quiet run a pool only drifts. -/
theorem Quiet.drift (h : Quiet rt key before after)
    (hbefore : Sound rt.toDeployment before) {view : PoolView Pubkey}
    (hview : Shows rt.toDeployment before key view) :
    ∃ burned view', Drift burned view view' ∧
      Shows rt.toDeployment after key view' := by
  obtain ⟨events, hrun, hidle⟩ := h
  induction hrun with
  | start => exact ⟨0, view, Drift.refl view, hview⟩
  | @step events event middle after hrun hstep ih =>
      obtain ⟨burned, earlier, hdrift, hearlier⟩ :=
        ih fun event hmem => hidle event (by simp [hmem])
      obtain ⟨stepped, view', hpool, hlast, hshows, -⟩ :=
        hstep.poolStep (hrun.sound hbefore) hearlier
      rw [hidle event (by simp)] at hpool
      cases hpool
      exact ⟨_, view', hdrift.trans hlast, hshows⟩

/-! ## Sequences of calls -/

/-- The pool is named by exactly these instructions, in this order; anything
may happen to others in between. -/
inductive Calls (rt : Runtime Pubkey) (key : Pubkey) :
    Bank Pubkey → List (PoolEvent Pubkey) → Bank Pubkey → Prop
  | nil (bank : Bank Pubkey) : Calls rt key bank [] bank
  | cons {before middle next after : Bank Pubkey} {event : Event Pubkey}
      {call : PoolEvent Pubkey} {rest : List (PoolEvent Pubkey)}
      (hstep : Step rt before event middle)
      (hevent : event.seenBy key = call)
      (hquiet : Quiet rt key middle next)
      (hrest : Calls rt key next rest after) :
      Calls rt key before (call :: rest) after

theorem Calls.cons_operates {call : PoolEvent Pubkey}
    {rest : List (PoolEvent Pubkey)}
    (h : Calls rt key before (call :: rest) after)
    (hbefore : Reachable rt before) {view : PoolView Pubkey}
    (hview : Shows rt.toDeployment before key view) :
    ∃ operation next view', Operates call operation view view' ∧
      Reachable rt next ∧ Shows rt.toDeployment next key view' ∧
      Calls rt key next rest after := by
  cases h with
  | cons hstep hevent hquiet hrest =>
      obtain ⟨operation, middle, hoperates, hshows, -⟩ :=
        hstep.operates hevent hbefore.sound hview
      obtain ⟨_, view', hdrift, hshows'⟩ :=
        hquiet.drift (hbefore.step hstep).sound hshows
      exact ⟨operation, _, view', hoperates.drift hdrift,
        hquiet.reachable (hbefore.step hstep), hshows', hrest⟩

theorem Calls.singleton_operates {call : PoolEvent Pubkey}
    (h : Calls rt key before [call] after) (hbefore : Reachable rt before)
    {view : PoolView Pubkey}
    (hview : Shows rt.toDeployment before key view) :
    ∃ operation view', Operates call operation view view' ∧
      Reachable rt after ∧ Shows rt.toDeployment after key view' := by
  obtain ⟨operation, next, view', hoperates, hnext, hshows, hrest⟩ :=
    h.cons_operates hbefore hview
  cases hrest
  exact ⟨operation, view', hoperates, hnext, hshows⟩

namespace Reference

/-- Executing transactions makes the calls they are for the pool. -/
theorem calls_of_acceptsAll {bank : Bank Address}
    {transactions : List (Transaction Address)}
    (h : acceptsAll bank transactions = true) :
    Calls runtime poolKey bank
      (transactions.map fun transaction => transaction.event.seenBy poolKey)
      (Transaction.performAll runtime bank transactions) := by
  induction transactions generalizing bank with
  | nil => exact .nil bank
  | cons transaction rest ih =>
      obtain ⟨hfirst, hlater⟩ := acceptsAll_cons h
      exact .cons (step_of_accepts hfirst) rfl (.refl _ _ _) (ih hlater)

end Reference

end PercolatorVault
