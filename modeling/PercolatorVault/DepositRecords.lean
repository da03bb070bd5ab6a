import PercolatorVault.FiniteTallies
import PercolatorVault.PoolMachine
import PercolatorVault.PoolUpdates

/-!
# Deposit records

Only a user's own deposits and withdrawals reach the record of that user.  A
deposit adds the LP it mints and blends the slot; a withdrawal takes the LP it
burns and leaves the slot alone.
-/

namespace PercolatorVault

open CheckedArithmetic
open FallibleSteps
open FiniteTallies

variable {Pubkey : Type}

namespace StakeDeposit

def weight (deposit : StakeDeposit Pubkey) : ℕ :=
  deposit.lpAmount.toNat

theorem creditLp_eq_ok {deposit record : StakeDeposit Pubkey}
    {lp slot cooldownSlots : U64}
    (h : deposit.creditLp lp slot cooldownSlots = .ok record) :
    record.lpAmount.toNat = deposit.lpAmount.toNat + lp.toNat ∧
      record.lastDepositSlot =
        weightedDepositSlot deposit.lpAmount deposit.lastDepositSlot lp slot
          cooldownSlots := by
  simp only [creditLp, bind_eq_ok, okOr_eq_ok, checkedAdd_eq_some,
    Except.ok.injEq] at h
  obtain ⟨lpAmount, hlp, rfl⟩ := h
  exact ⟨hlp.symm, rfl⟩

theorem debitLp_eq_ok {deposit record : StakeDeposit Pubkey}
    {lpAmount : U64} (h : deposit.debitLp lpAmount = .ok record) :
    deposit.lpAmount.toNat = record.lpAmount.toNat + lpAmount.toNat := by
  simp only [debitLp, bind_eq_ok, okOr_eq_ok, checkedSub_eq_some,
    Except.ok.injEq] at h
  obtain ⟨remaining, hremaining, rfl⟩ := h
  exact hremaining

/-- A withdrawal keeps the slot the remaining LP counts from. -/
theorem debitLp_slot {deposit record : StakeDeposit Pubkey}
    {lpAmount : U64} (h : deposit.debitLp lpAmount = .ok record) :
    record.lastDepositSlot = deposit.lastDepositSlot := by
  simp only [debitLp, bind_eq_ok, Except.ok.injEq] at h
  obtain ⟨remaining, -, rfl⟩ := h
  rfl

theorem setDiscriminator_eq (deposit : StakeDeposit Pubkey) :
    ∃ reserved,
      deposit.setDiscriminator = { deposit with reserved := reserved } :=
  ⟨_, rfl⟩

/-- Binding a record changes neither its LP nor its slot. -/
theorem bind_fields (deposit : StakeDeposit Pubkey) (bump : U8)
    (pool user : Pubkey) :
    (deposit.bind bump pool user).lpAmount = deposit.lpAmount ∧
      (deposit.bind bump pool user).lastDepositSlot =
        deposit.lastDepositSlot := by
  obtain ⟨reserved, hset⟩ := deposit.setDiscriminator_eq
  unfold StakeDeposit.bind
  rw [hset]
  split <;> exact ⟨rfl, rfl⟩

theorem weigh_getD [Inhabited Pubkey]
    (record : Option (StakeDeposit Pubkey)) :
    weigh weight record = (record.getD zeroed).lpAmount.toNat := by
  cases record with
  | none => rfl
  | some deposit => rfl

end StakeDeposit

/-- Whose record an event is about. -/
def PoolEvent.user? : PoolEvent Pubkey → Option Pubkey
  | .deposit user _ => some user
  | .withdraw user _ => some user
  | _ => none

section Steps

variable [DecidableEq Pubkey] [Inhabited Pubkey] {d : Deployment Pubkey}
  {key user : Pubkey} {clock : Clock} {event : PoolEvent Pubkey}
  {view view' : PoolView Pubkey}

/-- The record `processDeposit` finds for a user: zero bytes when there is none
yet. -/
def storedRecord (d : Deployment Pubkey)
    (bank : Bank Pubkey) (key user : Pubkey) : StakeDeposit Pubkey :=
  (recordIn d (bank.accounts (d.deriveDepositPda key user).1)).getD
    StakeDeposit.zeroed

theorem Shows.storedRecord_eq {bank : Bank Pubkey} (h : Shows d bank key view)
    (user : Pubkey) :
    storedRecord d bank key user =
      (view.records user).getD StakeDeposit.zeroed := by
  unfold storedRecord
  rw [h.records]

theorem PoolStep.records_eq (hstep : PoolStep d key clock event view view')
    (huser : event.user? ≠ some user) :
    view'.records user = view.records user := by
  cases hstep with
  | deposit =>
      apply Function.update_of_ne
      rintro rfl
      exact huser rfl
  | withdraw =>
      apply Function.update_of_ne
      rintro rfl
      exact huser rfl
  | _ => rfl

/-- What a deposit writes into the record of its user. -/
theorem PoolStep.deposit_record {amount : U64}
    (hstep : PoolStep d key clock (.deposit user amount) view view') :
    ∃ (lp : U64) (record : StakeDeposit Pubkey),
      0 < lp.toNat ∧ view'.records user = some record ∧
      view'.pool.totalLpSupply.toNat =
        view.pool.totalLpSupply.toNat + lp.toNat ∧
      record.lpAmount.toNat =
        ((view.records user).getD StakeDeposit.zeroed).lpAmount.toNat +
          lp.toNat ∧
      record.lastDepositSlot =
        weightedDepositSlot
          ((view.records user).getD StakeDeposit.zeroed).lpAmount
          ((view.records user).getD StakeDeposit.zeroed).lastDepositSlot
          lp clock.slot view.pool.cooldownSlots := by
  cases hstep with
  | @deposit _ _ _ lp pool record _ _ _ _ _ _ _ hminted hpool hrecord _ _ =>
      obtain ⟨_, supply, _, _, hsupply, rfl, _⟩ :=
        StakePool.recordDeposit_eq_ok hpool
      obtain ⟨hlp, hslot⟩ := StakeDeposit.creditLp_eq_ok hrecord
      obtain ⟨hbound, hboundSlot⟩ := StakeDeposit.bind_fields
        ((view.records user).getD StakeDeposit.zeroed)
        (d.deriveDepositPda key user).2 key user
      rw [hbound] at hlp hslot
      rw [hboundSlot] at hslot
      exact ⟨lp, record, toNat_pos.mpr hminted, Function.update_self _ _ _,
        hsupply, hlp, hslot⟩

end Steps

end PercolatorVault
