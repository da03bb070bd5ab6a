import PercolatorVault.RunInvariants

/-!
# What the admin of a pool can change

Six instructions need the signature of the admin stored in the pool they name.
Four of them move no tokens; for these this file has the exact record they
leave behind.
-/

namespace PercolatorVault

open CheckedArithmetic
open FallibleSteps

variable {Pubkey : Type}

/-- The record a token-free admin instruction writes. -/
def StakeInstruction.Administers :
    StakeInstruction Pubkey → StakePool Pubkey → StakePool Pubkey → Prop
  | .updateConfig newCooldownSlots newDepositCap, pool, pool' =>
      pool' =
        { pool with
          cooldownSlots := newCooldownSlots.getD pool.cooldownSlots
          depositCap := newDepositCap.getD pool.depositCap }
  | .transferAdmin, pool, pool' =>
      pool.adminTransferred ≠ 1 ∧ pool' = { pool with adminTransferred := 1 }
  | .adminResolveMarket, pool, pool' => pool' = pool.setResolved
  | .adminSetHwmConfig enabled hwmFloorBps, pool, pool' =>
      pool.configureHwm enabled hwmFloorBps = .ok pool'
  | _, _, _ => False

/-- The first account signed and is the admin of the pool named second. -/
def SignedByAdmin (bank : Bank Pubkey) (accounts : List (AccountInfo Pubkey)) :
    Prop :=
  ∃ admin info rest pool, accounts = admin :: info :: rest ∧
    admin.isSigner = true ∧
    (bank.accounts info.key).data = .stakePool pool ∧ pool.admin = admin.key

/-- The events only the admin of a pool can cause. -/
def PoolEvent.NeedsAdmin : PoolEvent Pubkey → Prop
  | .flush _ => True
  | .returnInsurance _ => True
  | .administer => True
  | _ => False

/-! ## Pool records through writes and calls -/

section Records

variable {d : Deployment Pubkey} {before after : Bank Pubkey} {key : Pubkey}
  {pool pool' : StakePool Pubkey}

theorem Stored.poolAt (h : Stored d before after key (.stakePool pool'))
    (hpool : d.PoolAt before key pool) : d.PoolAt after key pool' :=
  ⟨h.owner.trans hpool.1, h.data⟩

theorem OnlyForeignChanged.poolAt (h : OnlyForeignChanged d before after)
    (hpool : d.PoolAt before key pool) : d.PoolAt after key pool := by
  unfold Deployment.PoolAt
  rw [h.frame key (.inl hpool.1)]
  exact hpool

end Records

section Handlers

variable [DecidableEq Pubkey] [Inhabited Pubkey] {rt : Runtime Pubkey}
  {before after : Bank Pubkey} {accounts : List (AccountInfo Pubkey)}

/-! ## The signature -/

theorem validateAdminCpi_admin
    {poolPda admin slab percolatorProgram : AccountInfo Pubkey} {bump : U8}
    (h : validateAdminCpi rt before poolPda admin slab percolatorProgram =
      .ok bump) :
    admin.isSigner = true ∧ ∃ pool : StakePool Pubkey,
      (before.accounts poolPda.key).data = .stakePool pool ∧
        pool.admin = admin.key := by
  simp only [validateAdminCpi, bind_eq_ok, require_eq_ok, exists_const] at h
  obtain ⟨hsigner, pool, hload, hinit, hadmin, -⟩ := h
  exact ⟨hsigner, pool, data_of_loadPool hload hinit, hadmin⟩

theorem processFlushToInsurance_signed {amount : U64}
    (h : processFlushToInsurance rt accounts amount before = .ok after) :
    SignedByAdmin before accounts := by
  simp only [processFlushToInsurance, bind_eq_ok, require_eq_ok,
    exists_const] at h
  obtain ⟨-, a, ha, hsigner, pool, hload, hinit, _, -, hadmin, -⟩ := h
  obtain ⟨rest, haccounts⟩ := FlushAccounts.next_eq_ok ha
  exact ⟨a.caller, a.poolPda, rest, pool, haccounts, hsigner,
    data_of_loadPool hload hinit, hadmin⟩

theorem processAdminWithdrawInsurance_signed {amount : U64}
    (h : processAdminWithdrawInsurance rt accounts amount before =
      .ok after) :
    SignedByAdmin before accounts := by
  simp only [processAdminWithdrawInsurance, bind_eq_ok] at h
  obtain ⟨a, ha, bump, hvalid, -⟩ := h
  obtain ⟨rest, haccounts⟩ := WithdrawInsuranceAccounts.next_eq_ok ha
  obtain ⟨hsigner, pool, hdata, hadmin⟩ := validateAdminCpi_admin hvalid
  exact ⟨a.admin, a.poolPda, rest, pool, haccounts, hsigner, hdata, hadmin⟩

theorem processUpdateConfig_signed
    {newCooldownSlots newDepositCap : Option U64}
    (h : processUpdateConfig rt accounts newCooldownSlots newDepositCap
      before = .ok after) :
    SignedByAdmin before accounts := by
  simp only [processUpdateConfig, bind_eq_ok, require_eq_ok,
    exists_const] at h
  obtain ⟨a, ha, hsigner, pool, hload, hinit, hadmin, -⟩ := h
  obtain ⟨rest, haccounts⟩ := AdminPoolAccounts.next_eq_ok ha
  exact ⟨a.admin, a.poolPda, rest, pool, haccounts, hsigner,
    data_of_loadPool hload hinit, hadmin⟩

theorem processTransferAdmin_signed
    (h : processTransferAdmin rt accounts before = .ok after) :
    SignedByAdmin before accounts := by
  simp only [processTransferAdmin, bind_eq_ok, require_eq_ok,
    exists_const] at h
  obtain ⟨a, ha, hsigner, -, pool, hload, hinit, hadmin, -⟩ := h
  obtain ⟨rest, haccounts⟩ := WrapperAdminAccounts.next_eq_ok ha
  exact ⟨a.admin, a.poolPda, rest, pool, haccounts, hsigner,
    data_of_loadPool hload hinit, hadmin⟩

theorem processAdminResolveMarket_signed
    (h : processAdminResolveMarket rt accounts before = .ok after) :
    SignedByAdmin before accounts := by
  simp only [processAdminResolveMarket, bind_eq_ok] at h
  obtain ⟨a, ha, bump, hvalid, -⟩ := h
  obtain ⟨rest, haccounts⟩ := WrapperAdminAccounts.next_eq_ok ha
  obtain ⟨hsigner, pool, hdata, hadmin⟩ := validateAdminCpi_admin hvalid
  exact ⟨a.admin, a.poolPda, rest, pool, haccounts, hsigner, hdata, hadmin⟩

theorem processAdminSetHwmConfig_signed {enabled : Bool} {hwmFloorBps : U16}
    (h : processAdminSetHwmConfig rt accounts enabled hwmFloorBps before =
      .ok after) :
    SignedByAdmin before accounts := by
  simp only [processAdminSetHwmConfig, bind_eq_ok, require_eq_ok,
    exists_const] at h
  obtain ⟨a, ha, hsigner, pool, hload, hinit, -, hadmin, -⟩ := h
  obtain ⟨rest, haccounts⟩ := AdminPoolAccounts.next_eq_ok ha
  exact ⟨a.admin, a.poolPda, rest, pool, haccounts, hsigner,
    data_of_loadPool hload hinit, hadmin⟩

/-- An instruction that is an admin event for some pool is signed by the
admin of the pool it names. -/
theorem processInstruction_signed {call : StakeInstruction Pubkey}
    {user : Pubkey}
    (h : processInstruction rt accounts call before = .ok after)
    (hadmin : (call.poolEvent user).NeedsAdmin) :
    SignedByAdmin before accounts := by
  cases call with
  | flushToInsurance amount => exact processFlushToInsurance_signed h
  | adminWithdrawInsurance amount =>
      exact processAdminWithdrawInsurance_signed h
  | updateConfig newCooldownSlots newDepositCap =>
      exact processUpdateConfig_signed h
  | transferAdmin => exact processTransferAdmin_signed h
  | adminResolveMarket => exact processAdminResolveMarket_signed h
  | adminSetHwmConfig enabled hwmFloorBps =>
      exact processAdminSetHwmConfig_signed h
  | _ => exact hadmin.elim

/-! ## The record -/

theorem processUpdateConfig_administers
    {newCooldownSlots newDepositCap : Option U64}
    {user info : AccountInfo Pubkey} {rest : List (AccountInfo Pubkey)}
    {pool : StakePool Pubkey}
    (h : processUpdateConfig rt (user :: info :: rest) newCooldownSlots
      newDepositCap before = .ok after)
    (hpool : rt.PoolAt before info.key pool) :
    ∃ pool', rt.PoolAt after info.key pool' ∧
      (StakeInstruction.updateConfig newCooldownSlots
        newDepositCap).Administers pool pool' := by
  simp only [processUpdateConfig, AdminPoolAccounts.next, bind_eq_ok,
    require_eq_ok, exists_const, Except.ok.injEq] at h
  obtain ⟨a, rfl, -, loaded, hload, -, -, hstore⟩ := h
  cases (loadPool_of_poolAt hpool).symm.trans hload
  exact ⟨_, (storeData_stored hstore).poolAt hpool, rfl⟩

theorem processTransferAdmin_administers {user info : AccountInfo Pubkey}
    {rest : List (AccountInfo Pubkey)} {pool : StakePool Pubkey}
    (h : processTransferAdmin rt (user :: info :: rest) before = .ok after)
    (hpool : rt.PoolAt before info.key pool) :
    ∃ pool', rt.PoolAt after info.key pool' ∧
      StakeInstruction.transferAdmin.Administers pool pool' := by
  simp only [processTransferAdmin, cpiUpdateAuthority, bind_eq_ok,
    require_eq_ok, exists_const] at h
  obtain ⟨a, ha, -, -, loaded, hload, -, -, htransferred, -, -, middle, hcall,
    reread, hreread, hstore⟩ := h
  obtain ⟨_, haccounts⟩ := WrapperAdminAccounts.next_eq_ok ha
  cases haccounts
  cases (loadPool_of_poolAt hpool).symm.trans hload
  have hmiddle := (onlyForeignChanged_of_wrapper (by decide) (by decide)
    hcall).poolAt hpool
  cases (loadPool_of_poolAt hmiddle).symm.trans hreread
  exact ⟨_, (storeData_stored hstore).poolAt hmiddle, htransferred, rfl⟩

theorem processAdminResolveMarket_administers
    {user info : AccountInfo Pubkey} {rest : List (AccountInfo Pubkey)}
    {pool : StakePool Pubkey}
    (h : processAdminResolveMarket rt (user :: info :: rest) before =
      .ok after)
    (hpool : rt.PoolAt before info.key pool) :
    ∃ pool', rt.PoolAt after info.key pool' ∧
      StakeInstruction.adminResolveMarket.Administers pool pool' := by
  simp only [processAdminResolveMarket, cpiResolveMarket, bind_eq_ok] at h
  obtain ⟨a, ha, bump, -, middle, hcall, reread, hreread, hstore⟩ := h
  obtain ⟨_, haccounts⟩ := WrapperAdminAccounts.next_eq_ok ha
  cases haccounts
  have hmiddle := (onlyForeignChanged_of_wrapper (by decide) (by decide)
    hcall).poolAt hpool
  cases (loadPool_of_poolAt hmiddle).symm.trans hreread
  exact ⟨_, (storeData_stored hstore).poolAt hmiddle, rfl⟩

theorem processAdminSetHwmConfig_administers {enabled : Bool}
    {hwmFloorBps : U16} {user info : AccountInfo Pubkey}
    {rest : List (AccountInfo Pubkey)} {pool : StakePool Pubkey}
    (h : processAdminSetHwmConfig rt (user :: info :: rest) enabled
      hwmFloorBps before = .ok after)
    (hpool : rt.PoolAt before info.key pool) :
    ∃ pool', rt.PoolAt after info.key pool' ∧
      (StakeInstruction.adminSetHwmConfig enabled hwmFloorBps).Administers
        pool pool' := by
  simp only [processAdminSetHwmConfig, bind_eq_ok, require_eq_ok,
    exists_const] at h
  obtain ⟨a, ha, -, loaded, hload, -, -, -, configured, hconfig, hstore⟩ := h
  obtain ⟨_, haccounts⟩ := AdminPoolAccounts.next_eq_ok ha
  cases haccounts
  cases (loadPool_of_poolAt hpool).symm.trans hload
  exact ⟨_, (storeData_stored hstore).poolAt hpool, hconfig⟩

theorem processInstruction_administers {call : StakeInstruction Pubkey}
    {user info : AccountInfo Pubkey} {rest : List (AccountInfo Pubkey)}
    {pool : StakePool Pubkey}
    (h : processInstruction rt (user :: info :: rest) call before = .ok after)
    (hadmin : call.poolEvent user.key = .administer)
    (hpool : rt.PoolAt before info.key pool) :
    ∃ pool', rt.PoolAt after info.key pool' ∧
      call.Administers pool pool' := by
  cases call with
  | updateConfig newCooldownSlots newDepositCap =>
      exact processUpdateConfig_administers h hpool
  | transferAdmin => exact processTransferAdmin_administers h hpool
  | adminResolveMarket => exact processAdminResolveMarket_administers h hpool
  | adminSetHwmConfig enabled hwmFloorBps =>
      exact processAdminSetHwmConfig_administers h hpool
  | _ => cases hadmin

/-! ## Steps -/

variable {key : Pubkey} {event : Event Pubkey}

/-- An event that is no idling for the pool at `key` is a successful
instruction naming it. -/
theorem Step.instruction_of_seenBy (hstep : Step rt before event after)
    (hevent : event.seenBy key ≠ .idle) :
    ∃ user info rest call, info.key = key ∧
      event = .instruction (user :: info :: rest) call ∧
      event.seenBy key = call.poolEvent user.key ∧
      processInstruction rt (user :: info :: rest) call before = .ok after := by
  cases hstep with
  | @instruction _ accounts call hsigned hrun =>
      unfold Event.seenBy at hevent ⊢
      split at hevent
      · next user info rest call' heq =>
          cases heq
          split at hevent
          · next hkey =>
              refine ⟨user, info, rest, call, hkey, rfl, ?_, hrun⟩
              simp [hkey]
          · exact absurd rfl hevent
      · exact absurd rfl hevent
  | rejected => exact absurd rfl hevent
  | outside => exact absurd rfl hevent

/-- An admin event of a pool carries the signature of its admin. -/
theorem Step.signed_by_admin (hstep : Step rt before event after)
    (hevent : (event.seenBy key).NeedsAdmin) {pool : StakePool Pubkey}
    (hpool : rt.PoolAt before key pool) :
    ∃ admin info rest call,
      event = .instruction (admin :: info :: rest) call ∧ info.key = key ∧
      admin.isSigner = true ∧ admin.key = pool.admin := by
  obtain ⟨user, info, rest, call, rfl, rfl, hseen, hrun⟩ :=
    hstep.instruction_of_seenBy (by
      intro hidle
      rw [hidle] at hevent
      exact hevent)
  rw [hseen] at hevent
  obtain ⟨admin, _, _, signed, haccounts, hsigner, hdata, hadmin⟩ :=
    processInstruction_signed hrun hevent
  cases haccounts
  cases hpool.2.symm.trans hdata
  exact ⟨user, info, rest, call, rfl, rfl, hsigner, hadmin.symm⟩

/-- The exact record after a token-free admin event. -/
theorem Step.administers (hstep : Step rt before event after)
    (hevent : event.seenBy key = .administer) {pool : StakePool Pubkey}
    (hpool : rt.PoolAt before key pool) :
    ∃ user info rest call pool',
      event = .instruction (user :: info :: rest) call ∧ info.key = key ∧
      rt.PoolAt after key pool' ∧ call.Administers pool pool' := by
  obtain ⟨user, info, rest, call, rfl, rfl, hseen, hrun⟩ :=
    hstep.instruction_of_seenBy (hevent.trans_ne (by simp))
  rw [hevent] at hseen
  obtain ⟨pool', hpool', hadmin⟩ :=
    processInstruction_administers hrun hseen.symm hpool
  exact ⟨user, info, rest, call, pool', rfl, rfl, hpool', hadmin⟩

end Handlers

end PercolatorVault
