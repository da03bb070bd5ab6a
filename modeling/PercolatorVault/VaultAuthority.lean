import PercolatorVault.AdminEffects
import PercolatorVault.FrozenFields
import PercolatorVault.PoolCreation
import PercolatorVault.PoolSegments

/-!
# Who may change what

The handlers take their accounts from the caller.  Whatever is passed to
them, tokens leave a vault only with a holder who withdraws their own share or
with a flush of the admin, a deposit record is written only by its owner, and
what belongs to the admin is written only by the admin.
-/

namespace PercolatorVault

open CheckedArithmetic
open FallibleSteps
open ProportionalShares

variable {Pubkey : Type}

/-- What only the admin of a pool may write. -/
structure StakePool.AdminFields where
  cooldownSlots : U64
  depositCap : U64
  hwmEnabled : Bool
  hwmFloorBps : U16
  isResolved : Bool
  totalFlushed : U64
  totalReturned : U64

def StakePool.adminFields (pool : StakePool Pubkey) :
    StakePool.AdminFields where
  cooldownSlots := pool.cooldownSlots
  depositCap := pool.depositCap
  hwmEnabled := pool.hwmEnabled
  hwmFloorBps := pool.hwmFloorBps
  isResolved := pool.isResolved
  totalFlushed := pool.totalFlushed
  totalReturned := pool.totalReturned

/-- The two ways in which the vault of the pool at `key` loses `lost`
tokens. -/
inductive VaultOutflow (d : Deployment Pubkey) (before after : Bank Pubkey)
    (key : Pubkey) (pool : StakePool Pubkey) (lost : ℕ) :
    List (AccountInfo Pubkey) → StakeInstruction Pubkey → Prop
  | withdraw {user info : AccountInfo Pubkey}
      {rest : List (AccountInfo Pubkey)} {lpAmount value remaining : U64}
      {record : StakeDeposit Pubkey}
      (hkey : info.key = key)
      (hsigner : user.isSigner = true)
      (hrecord : d.DepositAt before (d.deriveDepositPda key user.key).1 record)
      (hcredited : record.pool = key ∧ record.user = user.key)
      (hdebit :
        remaining.toNat + lpAmount.toNat = record.lpAmount.toNat)
      (hremaining : d.DepositAt after (d.deriveDepositPda key user.key).1
        { record with lpAmount := remaining })
      (hvalue : pool.totalPoolValue = some value)
      (hpaid :
        lost = lpAmount.toNat * value.toNat / pool.totalLpSupply.toNat) :
      VaultOutflow d before after key pool lost (user :: info :: rest)
        (.withdraw lpAmount)
  | flush {admin info : AccountInfo Pubkey}
      {rest : List (AccountInfo Pubkey)} {amount value : U64}
      (hkey : info.key = key)
      (hsigner : admin.isSigner = true)
      (hadmin : admin.key = pool.admin)
      (hmode : pool.poolMode = 0)
      (hvalue : pool.totalPoolValue = some value)
      (hceiling : amount.toNat ≤ value.toNat)
      (hlost : lost = amount.toNat) :
      VaultOutflow d before after key pool lost (admin :: info :: rest)
        (.flushToInsurance amount)

/-- The accounts start with a signer whose record of the pool named next is
at `address`, and the call is a deposit or a withdrawal. -/
inductive OwnRecord (d : Deployment Pubkey) (address : Pubkey) :
    List (AccountInfo Pubkey) → StakeInstruction Pubkey → Prop
  | deposit {user info : AccountInfo Pubkey}
      {rest : List (AccountInfo Pubkey)} (amount : U64)
      (hsigner : user.isSigner = true)
      (haddress : address = (d.deriveDepositPda info.key user.key).1) :
      OwnRecord d address (user :: info :: rest) (.deposit amount)
  | withdraw {user info : AccountInfo Pubkey}
      {rest : List (AccountInfo Pubkey)} (lpAmount : U64)
      (hsigner : user.isSigner = true)
      (haddress : address = (d.deriveDepositPda info.key user.key).1) :
      OwnRecord d address (user :: info :: rest) (.withdraw lpAmount)

/-! ## Steps of the pool machine -/

section Steps

variable [DecidableEq Pubkey] [Inhabited Pubkey] {d : Deployment Pubkey}
  {key : Pubkey} {clock : Clock} {event : PoolEvent Pubkey}
  {view view' : PoolView Pubkey}

/-- Without the admin a step of the pool machine keeps the admin's fields. -/
theorem PoolStep.adminFields (hstep : PoolStep d key clock event view view')
    (hevent : ¬ event.NeedsAdmin) :
    view'.pool.adminFields = view.pool.adminFields := by
  have hsettings := hstep.sameSettings (by
    rintro rfl
    exact hevent trivial)
  have htotals : view'.pool.totalFlushed = view.pool.totalFlushed ∧
      view'.pool.totalReturned = view.pool.totalReturned := by
    cases hstep with
    | deposit _ _ _ _ _ _ hpool _ _ _ =>
        obtain ⟨_, _, _, _, _, rfl, _⟩ := StakePool.recordDeposit_eq_ok hpool
        exact ⟨rfl, rfl⟩
    | withdraw _ _ _ _ _ hfloor hpool _ _ _ =>
        obtain ⟨_, _, _, _, _, rfl, _⟩ :=
          StakePool.guardedWithdraw_eq_ok hfloor hpool
        exact ⟨rfl, rfl⟩
    | flush => exact absurd trivial hevent
    | returnInsurance => exact absurd trivial hevent
    | accrueFees _ hpool =>
        rcases StakePool.accrue_eq_ok hpool with
          ⟨-, _, rfl, -⟩ | ⟨-, _, _, -, -, -, rfl⟩
        · exact ⟨rfl, rfl⟩
        · exact ⟨rfl, rfl⟩
    | administer => exact absurd trivial hevent
    | idle => exact ⟨rfl, rfl⟩
  unfold StakePool.adminFields
  rw [hsettings.cooldownSlots, hsettings.depositCap, hsettings.hwmEnabled,
    hsettings.hwmFloorBps, hsettings.isResolved, htotals.1, htotals.2]

/-- Only withdrawals and flushes take tokens out of the vault. -/
theorem PoolStep.vault_le (hstep : PoolStep d key clock event view view')
    (hwithdraw : ∀ user lpAmount, event ≠ .withdraw user lpAmount)
    (hflush : ∀ amount, event ≠ .flush amount) :
    view.vaultAmount.toNat ≤ view'.vaultAmount.toNat := by
  cases hstep with
  | deposit _ _ _ _ _ _ _ _ hvault _ =>
      dsimp only
      omega
  | withdraw => exact absurd rfl (hwithdraw _ _)
  | flush => exact absurd rfl (hflush _)
  | returnInsurance _ _ hvault =>
      dsimp only
      omega
  | accrueFees => exact le_rfl
  | administer => exact le_rfl
  | idle => exact le_rfl

end Steps

/-! ## Calls -/

section Calls

variable [DecidableEq Pubkey] [Inhabited Pubkey] {rt : Runtime Pubkey}
  {before after : Bank Pubkey} {accounts : List (AccountInfo Pubkey)}
  {call : StakeInstruction Pubkey} {key : Pubkey}
  {view view' : PoolView Pubkey}

omit [Inhabited Pubkey] in
/-- A withdrawal that takes tokens out of a vault pays the share of the record
it debits. -/
theorem WithdrawTrace.outflow {lpAmount : U64}
    (t : WithdrawTrace rt accounts lpAmount before after)
    (hsigned : SignedByOthers rt.toDeployment accounts)
    (hbefore : Sound rt.toDeployment before)
    (hview : Shows rt.toDeployment before key view)
    (hview' : Shows rt.toDeployment after key view')
    (hlost : view'.vaultAmount.toNat < view.vaultAmount.toNat) :
    VaultOutflow rt.toDeployment before after key view.pool
      (view.vaultAmount.toNat - view'.vaultAmount.toNat) accounts
      (.withdraw lpAmount) := by
  by_cases hkey : key = t.a.poolPda.key
  · subst hkey
    obtain ⟨rest, haccounts⟩ := t.haccounts
    obtain ⟨-, -, w, supply, hw, -, hshows⟩ := t.shows hsigned hview
    cases hshows.unique hview'
    have hcollateral := t.hcollateral
    rw [← hview.pool.unique t.poolAt] at hcollateral
    obtain ⟨value, hvalue, -, hpaid⟩ :=
      StakePool.calcCollateralForWithdraw_eq_some.mp hcollateral
    have hdebit := t.hremaining
    simp only [StakeDeposit.debitLp, bind_eq_ok, okOr_eq_ok,
      checkedSub_eq_some, Except.ok.injEq] at hdebit
    obtain ⟨remaining, hremaining, hrecord⟩ := hdebit
    have hafter := t.hafter
    have hrecordBefore := t.hrecord
    have howned := t.hafter.owner.trans t.record_owned
    rw [t.hpda] at hafter hrecordBefore howned
    have houtflow : VaultOutflow rt.toDeployment before after
        t.a.poolPda.key view.pool (view.vaultAmount.toNat - w.toNat)
        (t.a.user :: t.a.poolPda :: rest) (.withdraw lpAmount) := by
      refine .withdraw rfl t.hsigner hrecordBefore
        ⟨t.hrecordPool, t.huser⟩ hremaining.symm ⟨howned, ?_⟩ hvalue ?_
      · rw [hafter.data, ← hrecord]
      · unfold Pot.redeem at hpaid
        rw [← hpaid]
        dsimp only at hlost
        split at hw <;> omega
    rw [← haccounts] at houtflow
    exact houtflow
  · obtain ⟨other, hdrift, hshows⟩ :=
      t.drift hsigned hbefore hview hkey
    cases hshows.unique hview'
    have hvault := hdrift.vault
    omega

/-- Nothing but a withdrawal or a flush takes tokens out of a vault. -/
theorem processInstruction_outflow
    (hbefore : Sound rt.toDeployment before)
    (hsigned : SignedByOthers rt.toDeployment accounts)
    (h : processInstruction rt accounts call before = .ok after)
    (hview : Shows rt.toDeployment before key view)
    (hview' : Shows rt.toDeployment after key view')
    (hlost : view'.vaultAmount.toNat < view.vaultAmount.toNat) :
    VaultOutflow rt.toDeployment before after key view.pool
      (view.vaultAmount.toNat - view'.vaultAmount.toNat) accounts call := by
  have hstep : Step rt before (.instruction accounts call) after :=
    .instruction hsigned h
  obtain ⟨middle, later, hpool, hdrift, hlater, hexact⟩ :=
    hstep.poolStep hbefore hview
  cases hlater.unique hview'
  have hvault := hdrift.vault
  by_cases hwithdraw : ∃ user lpAmount,
      (Event.instruction accounts call).seenBy key = .withdraw user lpAmount
  · obtain ⟨user, lpAmount, hevent⟩ := hwithdraw
    obtain ⟨caller, info, rest, called, -, heq, hseen, -⟩ :=
      hstep.instruction_of_seenBy (hevent.trans_ne (by simp))
    cases heq
    rw [hevent] at hseen
    cases call with
    | withdraw lpAmount' =>
        obtain ⟨t⟩ := processWithdraw_trace h
        exact t.outflow hsigned hbefore hview hview' hlost
    | _ => cases hseen
  by_cases hflush : ∃ amount,
      (Event.instruction accounts call).seenBy key = .flush amount
  · obtain ⟨amount, hevent⟩ := hflush
    rw [hevent] at hpool hexact
    cases hexact trivial
    obtain ⟨admin, info, rest, called, heq, hkey, hsigner, hadmin⟩ :=
      hstep.signed_by_admin (hevent ▸ trivial) hview.pool
    cases heq
    rw [← hkey, seenBy_same rfl] at hevent
    cases call with
    | flushToInsurance amount' =>
        cases hevent
        cases hpool with
        | flush hamount hmode hceiling havailable htotal hpaid =>
            rw [StakePool.flushCeiling_eq hmode] at hceiling
            refine .flush hkey hsigner hadmin hmode hceiling havailable ?_
            dsimp only
            omega
    | _ => cases hevent
  · have hle := hpool.vault_le
      (fun user lpAmount heq => hwithdraw ⟨user, lpAmount, heq⟩)
      (fun amount heq => hflush ⟨amount, heq⟩)
    omega

/-- Deposits and withdrawals are signed by their user. -/
theorem processInstruction_ownRecord {user info : AccountInfo Pubkey}
    {rest : List (AccountInfo Pubkey)}
    (h : processInstruction rt (user :: info :: rest) call before =
      .ok after) {owner : Pubkey}
    (howner : (call.poolEvent user.key).user? = some owner) :
    OwnRecord rt.toDeployment (rt.deriveDepositPda info.key owner).1
      (user :: info :: rest) call := by
  cases call with
  | deposit amount =>
      cases howner
      obtain ⟨t⟩ := processDeposit_trace h
      obtain ⟨tail, haccounts⟩ := t.haccounts
      rw [List.cons.injEq] at haccounts
      refine .deposit amount ?_ rfl
      rw [haccounts.1]
      exact t.hsigner
  | withdraw lpAmount =>
      cases howner
      obtain ⟨t⟩ := processWithdraw_trace h
      obtain ⟨tail, haccounts⟩ := t.haccounts
      rw [List.cons.injEq] at haccounts
      refine .withdraw lpAmount ?_ rfl
      rw [haccounts.1]
      exact t.hsigner
  | _ => cases howner

/-- A deposit record is written only by its owner. -/
theorem Step.ownRecord
    (hstep : Step rt before (.instruction accounts call) after)
    (hbefore : Sound rt.toDeployment before) {address : Pubkey}
    (hchanged : recordIn rt.toDeployment (after.accounts address) ≠
      recordIn rt.toDeployment (before.accounts address)) :
    OwnRecord rt.toDeployment address accounts call := by
  -- The record belongs to a pool that existed before.
  obtain ⟨key, user, view, haddress, hview⟩ : ∃ key user view,
      address = (rt.deriveDepositPda key user).1 ∧
        Shows rt.toDeployment before key view := by
    cases hrecord : recordIn rt.toDeployment (before.accounts address) with
    | some record =>
        obtain ⟨haddress, pool, hpool⟩ :=
          hbefore.records _ _ (recordIn_eq_some.mp hrecord)
        obtain ⟨view, -, hview⟩ := hbefore.pools _ _ hpool
        exact ⟨record.pool, record.user, view, haddress, hview⟩
    | none =>
        rw [hrecord] at hchanged
        obtain ⟨record, hcreated⟩ := Option.ne_none_iff_exists'.mp hchanged
        have hafter := (hstep.simulates hbefore).sound
        obtain ⟨haddress, pool, hpool⟩ :=
          hafter.records _ _ (recordIn_eq_some.mp hcreated)
        obtain ⟨view', -, hview'⟩ := hafter.pools _ _ hpool
        rcases hstep.created hbefore hview' with ⟨view, hview⟩ | ⟨hfresh, -⟩
        · exact ⟨record.pool, record.user, view, haddress, hview⟩
        · have hnone := hfresh.records record.user
          rw [hview'.records, ← haddress, hcreated] at hnone
          cases hnone
  subst haddress
  obtain ⟨middle, view', hpool, hdrift, hview', -⟩ :=
    hstep.poolStep hbefore hview
  have howner : ((Event.instruction accounts call).seenBy key).user? =
      some user := by
    by_contra hother
    apply hchanged
    rw [← hview'.records, ← hview.records, hdrift.records]
    exact hpool.records_eq hother
  obtain ⟨caller, info, rest, called, rfl, heq, hseen, hrun⟩ :=
    hstep.instruction_of_seenBy (by
      intro hidle
      rw [hidle] at howner
      cases howner)
  cases heq
  rw [hseen] at howner
  exact processInstruction_ownRecord hrun howner

/-- Whatever a successful transaction passes to the program: tokens leave the
vault of a pool only with a holder's own share or a flush of the admin,
deposit records are written only by their owners, and the admin's fields only
under the admin's signature. -/
theorem process_authority {data : List U8} (hreachable : Reachable rt before)
    (hsigned : SignedByOthers rt.toDeployment accounts)
    (h : process rt accounts data before = .ok after) :
    ∃ call, StakeInstruction.unpack rt.pubkeyFromBytes data = .ok call ∧
      (∀ key pool, rt.PoolAt before key pool →
        (∃ balance balance', rt.TokenAt before pool.vault balance ∧
          rt.TokenAt after pool.vault balance' ∧
          (balance'.amount.toNat < balance.amount.toNat →
            VaultOutflow rt.toDeployment before after key pool
              (balance.amount.toNat - balance'.amount.toNat) accounts
              call)) ∧
        ∃ pool', rt.PoolAt after key pool' ∧
          (pool'.adminFields ≠ pool.adminFields →
            ∃ admin info rest, accounts = admin :: info :: rest ∧
              info.key = key ∧ admin.isSigner = true ∧
              admin.key = pool.admin)) ∧
      ∀ address, recordIn rt.toDeployment (after.accounts address) ≠
          recordIn rt.toDeployment (before.accounts address) →
        OwnRecord rt.toDeployment address accounts call := by
  obtain ⟨call, hunpack, hrun, hstep⟩ := step_of_process hsigned h
  have hbefore := hreachable.sound
  refine ⟨call, hunpack, ?_, fun address => hstep.ownRecord hbefore⟩
  intro key pool hpool
  obtain ⟨view, rfl, hview⟩ := hbefore.pools key pool hpool
  obtain ⟨middle, view', hmachine, hdrift, hview', -⟩ :=
    hstep.poolStep hbefore hview
  have hvault := hview'.vault
  have hsame : view'.pool.vault = view.pool.vault := by
    rw [hdrift.pool]
    exact hmachine.sameIdentity.vault
  rw [hsame] at hvault
  constructor
  · exact ⟨_, _, hview.vault, hvault,
      processInstruction_outflow hbefore hsigned hrun hview hview'⟩
  · refine ⟨view'.pool, hview'.pool, ?_⟩
    intro hfields
    have hadmin :
        ((Event.instruction accounts call).seenBy key).NeedsAdmin := by
      by_contra hnone
      apply hfields
      rw [hdrift.pool]
      exact hmachine.adminFields hnone
    obtain ⟨admin, info, rest, called, heq, hkey, hsigner, hkeys⟩ :=
      hstep.signed_by_admin hadmin hview.pool
    cases heq
    exact ⟨admin, info, rest, rfl, hkey, hsigner, hkeys⟩

end Calls

namespace Reference

/-- A pool that is ready for deposits. -/
def openedMarket : List (Transaction Address) :=
  [initPool 10, openLpAccount alice]

/-- The data of a deposit of 500. -/
def depositData : List U8 := [1, 0xf4, 0x01, 0, 0, 0, 0, 0, 0]

theorem openedMarket_deposit_authority : ∃ after call,
    process runtime (depositAccounts alice) depositData
        (bankAfter openedMarket) = .ok after ∧
      StakeInstruction.unpack runtime.pubkeyFromBytes depositData =
        .ok call ∧
      ∀ address, recordIn deployment (after.accounts address) ≠
          recordIn deployment ((bankAfter openedMarket).accounts address) →
        OwnRecord deployment address (depositAccounts alice) call := by
  have haccepts : accepts (bankAfter openedMarket) (deposit alice 500) =
      true := by decide +kernel
  have hunpack : StakeInstruction.unpack runtime.pubkeyFromBytes
      depositData = .ok (.deposit 500) := rfl
  obtain ⟨hsigned, after, h⟩ := process_of_accepts hunpack haccepts
  obtain ⟨call, hcall, -, hrecords⟩ := process_authority
    (bankAfter_reachable (by decide +kernel)) hsigned h
  exact ⟨after, call, h, hcall, hrecords⟩

end Reference

end PercolatorVault
