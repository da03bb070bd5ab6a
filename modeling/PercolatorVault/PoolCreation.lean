import PercolatorVault.RunInvariants

/-!
# Where pools come from

Only InitPool and InitTradingPool create a pool.  Every other instruction
keeps the set of pools, so each pool of a run has a moment at which it was
initialised.
-/

namespace PercolatorVault

open CheckedArithmetic
open FallibleSteps

variable {Pubkey : Type}

/-- The event initialises the pool at `key`. -/
def Event.Initializes (key : Pubkey) : Event Pubkey → Prop
  | .instruction (_ :: _ :: pool :: _) (.initPool _ _) => pool.key = key
  | .instruction (_ :: _ :: pool :: _) (.initTradingPool _ _) => pool.key = key
  | _ => False

instance Event.decidableInitializes [DecidableEq Pubkey] (key : Pubkey)
    (event : Event Pubkey) : Decidable (event.Initializes key) := by
  unfold Event.Initializes
  split <;> infer_instance

/-- A call that keeps the pools, followed by the rewriting of a pool record. -/
theorem Stored.keeps_of_call {d : Deployment Pubkey}
    {before middle after : Bank Pubkey} {target : Pubkey}
    {pool pool' : StakePool Pubkey}
    (h : Stored d middle after target (.stakePool pool'))
    (hkeeps : Keeps d before middle)
    (hdata : (before.accounts target).data = .stakePool pool)
    (hback : (middle.accounts target).owner = d.programId →
      middle.accounts target = before.accounts target) :
    Keeps d before after := by
  rcases h.poolAt_or_eq hdata hback with ⟨-, hmiddle⟩ | rfl
  · exact hkeeps.trans (h.keeps_of_pool hmiddle.2)
  · exact hkeeps

section Handlers

variable [DecidableEq Pubkey] [Inhabited Pubkey] {rt : Runtime Pubkey}
  {before after : Bank Pubkey} {accounts : List (AccountInfo Pubkey)}

omit [DecidableEq Pubkey] [Inhabited Pubkey] in
theorem OnlyForeignChanged.keeps {d : Deployment Pubkey}
    (h : OnlyForeignChanged d before after) : Keeps d before after :=
  h.bankFrame.keeps h.clock

theorem processUpdateConfig_keeps
    {newCooldownSlots newDepositCap : Option U64}
    (h : processUpdateConfig rt accounts newCooldownSlots newDepositCap
      before = .ok after) : Keeps rt.toDeployment before after := by
  simp only [processUpdateConfig, bind_eq_ok, require_eq_ok,
    exists_const] at h
  obtain ⟨a, -, -, pool, hload, hinit, -, hstore⟩ := h
  exact (storeData_stored hstore).keeps_of_pool (data_of_loadPool hload hinit)

theorem processAdminSetHwmConfig_keeps {enabled : Bool} {hwmFloorBps : U16}
    (h : processAdminSetHwmConfig rt accounts enabled hwmFloorBps before =
      .ok after) : Keeps rt.toDeployment before after := by
  simp only [processAdminSetHwmConfig, bind_eq_ok, require_eq_ok,
    exists_const] at h
  obtain ⟨a, -, -, pool, hload, hinit, -, -, configured, -, hstore⟩ := h
  exact (storeData_stored hstore).keeps_of_pool (data_of_loadPool hload hinit)

theorem processAccrueFees_keeps
    (h : processAccrueFees rt accounts before = .ok after) :
    Keeps rt.toDeployment before after := by
  obtain ⟨_, _, _, _, _, _, -, hdata, -, -, -, hstored⟩ :=
    processAccrueFees_eq_ok h
  exact hstored.keeps_of_pool hdata

theorem processTransferAdmin_keeps
    (h : processTransferAdmin rt accounts before = .ok after) :
    Keeps rt.toDeployment before after := by
  simp only [processTransferAdmin, cpiUpdateAuthority, bind_eq_ok,
    require_eq_ok, exists_const] at h
  obtain ⟨a, -, -, -, pool, hload, hinit, -, -, -, -, middle, hcall, _, -,
    hstore⟩ := h
  have hforeign : OnlyForeignChanged rt.toDeployment before middle :=
    onlyForeignChanged_of_wrapper (by decide) (by decide) hcall
  exact (storeData_stored hstore).keeps_of_call hforeign.keeps
    (data_of_loadPool hload hinit)
    fun howned => hforeign.frame _ (.inr (.inr (.inl howned)))

theorem processAdminResolveMarket_keeps
    (h : processAdminResolveMarket rt accounts before = .ok after) :
    Keeps rt.toDeployment before after := by
  simp only [processAdminResolveMarket, cpiResolveMarket, bind_eq_ok] at h
  obtain ⟨a, -, bump, hvalid, middle, hcall, _, -, hstore⟩ := h
  obtain ⟨pool, hdata, -⟩ := validateAdminCpi_eq_ok hvalid
  have hforeign : OnlyForeignChanged rt.toDeployment before middle :=
    onlyForeignChanged_of_wrapper (by decide) (by decide) hcall
  exact (storeData_stored hstore).keeps_of_call hforeign.keeps hdata
    fun howned => hforeign.frame _ (.inr (.inr (.inl howned)))

omit [Inhabited Pubkey] in
/-- A call that moves tokens keeps the pools and returns every account of the
program as it was. -/
theorem TokensMoved.keeps_then {d : Deployment Pubkey}
    {moved middle : Bank Pubkey} {source destination authority : Pubkey}
    {amount : ℕ}
    (hmoved : TokensMoved d before moved source destination authority amount)
    (hforeign : OnlyForeignChanged d moved middle) :
    Keeps d before middle ∧ ∀ key,
      (middle.accounts key).owner = d.programId →
        middle.accounts key = before.accounts key := by
  refine ⟨(hmoved.bankFrame.keeps hmoved.clock).trans hforeign.keeps, ?_⟩
  intro key howned
  have hsame := hforeign.frame key (.inr (.inr (.inl howned)))
  rw [hsame] at howned ⊢
  apply hmoved.accounts_eq
  intro t ht
  exact d.splTokenId_ne_programId (ht.1.symm.trans howned)

theorem processFlushToInsurance_keeps {amount : U64}
    (h : processFlushToInsurance rt accounts amount before = .ok after) :
    Keeps rt.toDeployment before after := by
  simp only [processFlushToInsurance, bind_eq_ok, require_eq_ok,
    exists_const] at h
  obtain ⟨-, a, -, -, pool, hload, hinit, _, -, -, -, -, -, _, -, _, -, -, -,
    middle, hcall, _, -, hstore⟩ := h
  obtain ⟨-, moved, hmoved, hforeign⟩ := cpiTopUpInsurance_effect hcall
  obtain ⟨hkeeps, hback⟩ := hmoved.keeps_then hforeign
  exact (storeData_stored hstore).keeps_of_call hkeeps
    (data_of_loadPool hload hinit) (hback _)

theorem processAdminWithdrawInsurance_keeps {amount : U64}
    (h : processAdminWithdrawInsurance rt accounts amount before =
      .ok after) : Keeps rt.toDeployment before after := by
  simp only [processAdminWithdrawInsurance, bind_eq_ok, require_eq_ok,
    exists_const] at h
  obtain ⟨a, -, bump, hvalid, _, -, _, -, _, -, _, -, -, middle, hcall, _, -,
    _, -, hstore⟩ := h
  obtain ⟨pool, hdata, -⟩ := validateAdminCpi_eq_ok hvalid
  obtain ⟨-, -, moved, hmoved, hforeign⟩ := cpiWithdrawInsurance_effect hcall
  obtain ⟨hkeeps, hback⟩ := hmoved.keeps_then hforeign
  exact (storeData_stored hstore).keeps_of_call hkeeps hdata (hback _)

theorem processAdminSetOracleAuthority_keeps {newAuthority : Pubkey}
    (h : processAdminSetOracleAuthority rt accounts newAuthority before =
      .ok after) : Keeps rt.toDeployment before after := by
  simp only [processAdminSetOracleAuthority, cpiUpdateAssetAuthority,
    bind_eq_ok, require_eq_ok, exists_const] at h
  obtain ⟨a, -, -, -, bump, -, hcall⟩ := h
  exact (onlyForeignChanged_of_wrapper (by decide) (by decide) hcall).keeps

theorem processAdminSetInsurancePolicy_keeps {authority : Pubkey}
    {minWithdrawBase : U64} {maxWithdrawBps : U16} {cooldownSlots : U64}
    (h : processAdminSetInsurancePolicy rt accounts authority minWithdrawBase
      maxWithdrawBps cooldownSlots before = .ok after) :
    Keeps rt.toDeployment before after := by
  simp only [processAdminSetInsurancePolicy, cpiUpdateAssetAuthority,
    bind_eq_ok, require_eq_ok, exists_const] at h
  obtain ⟨a, -, _, -, -, bump, -, hcall⟩ := h
  exact (onlyForeignChanged_of_wrapper (by decide) (by decide) hcall).keeps

/-- A pool that exists after an instruction existed before, or the instruction
initialised it. -/
theorem processInstruction_pool {call : StakeInstruction Pubkey}
    {key : Pubkey} {pool : StakePool Pubkey}
    (hbefore : Sound rt.toDeployment before)
    (h : processInstruction rt accounts call before = .ok after)
    (hpool : rt.PoolAt after key pool) :
    (∃ pool', rt.PoolAt before key pool') ∨
      (Event.instruction accounts call).Initializes key := by
  cases call with
  | initPool cooldownSlots depositCap =>
      obtain ⟨a, rest, view, rfl, -, hcreated⟩ :=
        processInitPool_created hbefore h
      by_cases heq : key = a.poolPda.key
      · exact Or.inr heq.symm
      · exact Or.inl (hcreated.pools key pool heq hpool)
  | initTradingPool cooldownSlots depositCap =>
      obtain ⟨a, rest, view, rfl, -, hcreated⟩ :=
        processInitTradingPool_created hbefore h
      by_cases heq : key = a.poolPda.key
      · exact Or.inr heq.symm
      · exact Or.inl (hcreated.pools key pool heq hpool)
  | deposit amount =>
      obtain ⟨t⟩ := processDeposit_trace h
      exact Or.inl (t.keeps.pools key pool hpool)
  | withdraw lpAmount =>
      obtain ⟨t⟩ := processWithdraw_trace h
      exact Or.inl (t.keeps.pools key pool hpool)
  | flushToInsurance amount =>
      exact Or.inl ((processFlushToInsurance_keeps h).pools key pool hpool)
  | updateConfig newCooldownSlots newDepositCap =>
      exact Or.inl ((processUpdateConfig_keeps h).pools key pool hpool)
  | transferAdmin =>
      exact Or.inl ((processTransferAdmin_keeps h).pools key pool hpool)
  | adminSetOracleAuthority newAuthority =>
      exact Or.inl
        ((processAdminSetOracleAuthority_keeps h).pools key pool hpool)
  | adminSetRiskThreshold newThreshold =>
      exact absurd h processAdminSetRiskThreshold_ne_ok
  | adminSetMaintenanceFee newFee =>
      exact absurd h processAdminSetMaintenanceFee_ne_ok
  | adminResolveMarket =>
      exact Or.inl ((processAdminResolveMarket_keeps h).pools key pool hpool)
  | adminWithdrawInsurance amount =>
      exact Or.inl
        ((processAdminWithdrawInsurance_keeps h).pools key pool hpool)
  | adminSetInsurancePolicy authority minWithdrawBase maxWithdrawBps
      cooldownSlots =>
      exact Or.inl
        ((processAdminSetInsurancePolicy_keeps h).pools key pool hpool)
  | accrueFees =>
      exact Or.inl ((processAccrueFees_keeps h).pools key pool hpool)
  | adminSetHwmConfig enabled hwmFloorBps =>
      exact Or.inl ((processAdminSetHwmConfig_keeps h).pools key pool hpool)

/-- A pool seen after a step was there before, or the step initialised it and
it is fresh. -/
theorem Step.created {event : Event Pubkey}
    (hstep : Step rt before event after)
    (hbefore : Sound rt.toDeployment before) {key : Pubkey}
    {view : PoolView Pubkey} (hview : Shows rt.toDeployment after key view) :
    (∃ view', Shows rt.toDeployment before key view') ∨
      view.Fresh ∧ event.Initializes key := by
  rcases (hstep.simulates hbefore).created key view hview with
    hold | ⟨hfresh, -⟩
  · exact Or.inl hold
  · have hpools : (∃ pool', rt.PoolAt before key pool') ∨
        event.Initializes key := by
      cases hstep with
      | instruction _ hrun =>
          exact processInstruction_pool hbefore hrun hview.pool
      | rejected => exact Or.inl ⟨_, hview.pool⟩
      | outside houtside =>
          exact Or.inl ⟨_, hview.pool.back houtside.frame⟩
    rcases hpools with ⟨pool', hpool'⟩ | hinit
    · obtain ⟨view', -, hview'⟩ := hbefore.pools key pool' hpool'
      exact Or.inl ⟨view', hview'⟩
    · exact Or.inr ⟨hfresh, hinit⟩

/-- An initialisation finds no pool at its address. -/
theorem Step.absent_of_initializes {event : Event Pubkey}
    (hstep : Step rt before event after)
    (hbefore : Sound rt.toDeployment before) {key : Pubkey}
    (hinit : event.Initializes key) (pool : StakePool Pubkey) :
    ¬ rt.PoolAt before key pool := by
  cases hstep with
  | @instruction _ accounts call hsigned hrun =>
      unfold Event.Initializes at hinit
      split at hinit
      · next heq =>
          cases heq
          obtain ⟨a, rest, view, haccounts, -, hcreated⟩ :=
            processInitPool_created hbefore hrun
          cases haccounts
          exact hinit ▸ hcreated.absent pool
      · next heq =>
          cases heq
          obtain ⟨a, rest, view, haccounts, -, hcreated⟩ :=
            processInitTradingPool_created hbefore hrun
          cases haccounts
          exact hinit ▸ hcreated.absent pool
      · exact hinit.elim
  | rejected => exact hinit.elim
  | outside => exact hinit.elim

end Handlers

end PercolatorVault
