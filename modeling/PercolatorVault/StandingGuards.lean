import PercolatorVault.DepositRecords
import PercolatorVault.FrozenFields
import PercolatorVault.RunInvariants

/-!
# Guards that always pass

The handlers check the discriminator of a pool, that its wrapper admin was
transferred, and that a deposit record was initialised.  On a pool of a run
these checks never fail.
-/

namespace PercolatorVault

open CheckedArithmetic
open FallibleSteps

variable {Pubkey : Type}

/-- What initialisation establishes once and for all. -/
structure PoolView.Standing (view : PoolView Pubkey) : Prop where
  discriminator :
    view.pool.reservedFields.discriminator = stakePoolDiscriminator
  transferred : view.pool.adminTransferred = 1
  initialized : ∀ user record, view.records user = some record →
    record.isInitialized = 1

theorem StakePool.validateDiscriminator_of_eq {pool : StakePool Pubkey}
    (h : pool.reservedFields.discriminator = stakePoolDiscriminator) :
    pool.validateDiscriminator = true := by
  unfold validateDiscriminator
  exact decide_eq_true (Or.inr h)

theorem StakeDeposit.bind_isInitialized (deposit : StakeDeposit Pubkey)
    (bump : U8) (pool user : Pubkey) :
    (deposit.bind bump pool user).isInitialized = 1 := rfl

theorem StakeDeposit.creditLp_isInitialized
    {deposit record : StakeDeposit Pubkey} {lp slot cooldownSlots : U64}
    (h : deposit.creditLp lp slot cooldownSlots = .ok record) :
    record.isInitialized = deposit.isInitialized := by
  simp only [creditLp, bind_eq_ok, Except.ok.injEq] at h
  obtain ⟨lpAmount, -, rfl⟩ := h
  rfl

theorem StakeDeposit.debitLp_isInitialized
    {deposit record : StakeDeposit Pubkey} {lpAmount : U64}
    (h : deposit.debitLp lpAmount = .ok record) :
    record.isInitialized = deposit.isInitialized := by
  simp only [debitLp, bind_eq_ok, Except.ok.injEq] at h
  obtain ⟨remaining, -, rfl⟩ := h
  rfl

variable [DecidableEq Pubkey] [Inhabited Pubkey] {rt : Runtime Pubkey}
  {bank : Bank Pubkey} {d : Deployment Pubkey} {key : Pubkey} {clock : Clock}
  {event : PoolEvent Pubkey} {view view' : PoolView Pubkey}

omit [DecidableEq Pubkey] in
theorem PoolView.Fresh.standing (h : view.Fresh) : view.Standing := by
  obtain ⟨a, poolBump, vaultAuthBump, cooldown, cap, mode, -, hpool⟩ := h.pool
  refine ⟨?_, h.settings.1, ?_⟩
  · have hfields : view.pool.reservedFields =
        { StakePool.reservedFields (StakePool.zeroed : StakePool Pubkey) with
          discriminator := stakePoolDiscriminator
          version := StakePool.currentVersion } := by
      rw [hpool]
      exact StakePool.reservedFields_setDiscriminator _
    exact congrArg ReservedFields.discriminator hfields
  · intro user record hrecord
    rw [h.records user] at hrecord
    cases hrecord

omit [DecidableEq Pubkey] [Inhabited Pubkey] in
theorem StakePool.administered_transferred {pool pool' : StakePool Pubkey}
    (h : Administered pool pool') (htransferred : pool.adminTransferred = 1) :
    pool'.adminTransferred = 1 := by
  cases h with
  | updateConfig => exact htransferred
  | transferAdmin => rfl
  | resolveMarket =>
      obtain ⟨reserved, hset⟩ := pool.setResolved_eq
      rw [hset]
      exact htransferred
  | setHwmConfig hconfig =>
      obtain ⟨-, ⟨reserved, rfl⟩, -⟩ :=
        StakePool.configureHwm_eq_ok hconfig
      exact htransferred

/-- The admin of the wrapper is never transferred back. -/
theorem PoolStep.transferred (hstep : PoolStep d key clock event view view')
    (h : view.pool.adminTransferred = 1) :
    view'.pool.adminTransferred = 1 := by
  by_cases hevent : event = .administer
  · subst hevent
    cases hstep with
    | administer hpool =>
        exact StakePool.administered_transferred hpool h
  · rw [(hstep.sameSettings hevent).adminTransferred, h]

/-- A step only writes initialised records. -/
theorem PoolStep.initialized (hstep : PoolStep d key clock event view view')
    (h : ∀ user record, view.records user = some record →
      record.isInitialized = 1) (user : Pubkey)
    (record : StakeDeposit Pubkey)
    (hrecord : view'.records user = some record) :
    record.isInitialized = 1 := by
  by_cases huser : event.user? = some user
  · cases hstep with
    | deposit _ _ _ _ _ _ _ hcredit _ _ =>
        cases huser
        simp only [Function.update_self, Option.some.injEq] at hrecord
        subst hrecord
        rw [StakeDeposit.creditLp_isInitialized hcredit,
          StakeDeposit.bind_isInitialized]
    | withdraw _ hold _ _ _ _ _ hremaining _ _ =>
        cases huser
        simp only [Function.update_self, Option.some.injEq] at hrecord
        subst hrecord
        rw [StakeDeposit.debitLp_isInitialized hremaining]
        exact h _ _ hold
    | _ => cases huser
  · rw [hstep.records_eq huser] at hrecord
    exact h user record hrecord

theorem PoolStep.standing (hstep : PoolStep d key clock event view view')
    (h : view.Standing) : view'.Standing where
  discriminator := hstep.sameIdentity.discriminator.trans h.discriminator
  transferred := hstep.transferred h.transferred
  initialized := hstep.initialized h.initialized

omit [DecidableEq Pubkey] [Inhabited Pubkey] in
theorem Drift.standing {burned : ℕ} (hdrift : Drift burned view view')
    (h : view.Standing) : view'.Standing := by
  obtain ⟨hdiscriminator, htransferred, hinitialized⟩ := h
  rw [← hdrift.pool] at hdiscriminator htransferred
  rw [← hdrift.records] at hinitialized
  exact ⟨hdiscriminator, htransferred, hinitialized⟩

theorem Reachable.standing (h : Reachable rt bank)
    (hview : Shows rt.toDeployment bank key view) : view.Standing :=
  h.invariant PoolView.Standing (fun _ hfresh => hfresh.standing)
    (fun hstep hstanding => hstep.standing hstanding)
    (fun hdrift hstanding => hdrift.standing hstanding) hview

end PercolatorVault
