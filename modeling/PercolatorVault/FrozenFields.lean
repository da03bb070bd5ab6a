import PercolatorVault.PoolUpdates

/-!
# What no step changes

The identity of a pool, its counters and the settings of its admin, followed
through every step of the pool machine.  The identity stays, the counters only
grow, and the settings stay unless the admin acts.
-/

namespace PercolatorVault

open CheckedArithmetic
open FallibleSteps
open LittleEndian

variable {Pubkey : Type}

/-- Who the pool is: set by initialisation and never again. -/
structure StakePool.SameIdentity (before after : StakePool Pubkey) :
    Prop where
  slab : after.slab = before.slab
  admin : after.admin = before.admin
  collateralMint : after.collateralMint = before.collateralMint
  lpMint : after.lpMint = before.lpMint
  vault : after.vault = before.vault
  percolatorProgram : after.percolatorProgram = before.percolatorProgram
  bump : after.bump = before.bump
  vaultAuthorityBump : after.vaultAuthorityBump = before.vaultAuthorityBump
  poolMode : after.poolMode = before.poolMode
  isInitialized : after.isInitialized = before.isInitialized
  discriminator :
    after.reservedFields.discriminator = before.reservedFields.discriminator
  version : after.version = before.version

/-- The counters that only grow. -/
structure StakePool.CountersLe (before after : StakePool Pubkey) : Prop where
  deposited : before.totalDeposited.toNat ≤ after.totalDeposited.toNat
  withdrawn : before.totalWithdrawn.toNat ≤ after.totalWithdrawn.toNat
  flushed : before.totalFlushed.toNat ≤ after.totalFlushed.toNat
  returned : before.totalReturned.toNat ≤ after.totalReturned.toNat
  fees : before.totalFeesEarned.toNat ≤ after.totalFeesEarned.toNat

/-- What only the admin sets. -/
structure StakePool.SameSettings (before after : StakePool Pubkey) :
    Prop where
  cooldownSlots : after.cooldownSlots = before.cooldownSlots
  depositCap : after.depositCap = before.depositCap
  adminTransferred : after.adminTransferred = before.adminTransferred
  isResolved : after.isResolved = before.isResolved
  hwmEnabled : after.hwmEnabled = before.hwmEnabled
  hwmFloorBps : after.hwmFloorBps = before.hwmFloorBps

namespace StakePool

variable {pool pool' pool'' : StakePool Pubkey}

theorem SameIdentity.refl (pool : StakePool Pubkey) :
    pool.SameIdentity pool :=
  ⟨rfl, rfl, rfl, rfl, rfl, rfl, rfl, rfl, rfl, rfl, rfl, rfl⟩

theorem SameIdentity.trans (hleft : pool.SameIdentity pool')
    (hright : pool'.SameIdentity pool'') : pool.SameIdentity pool'' where
  slab := hright.slab.trans hleft.slab
  admin := hright.admin.trans hleft.admin
  collateralMint := hright.collateralMint.trans hleft.collateralMint
  lpMint := hright.lpMint.trans hleft.lpMint
  vault := hright.vault.trans hleft.vault
  percolatorProgram :=
    hright.percolatorProgram.trans hleft.percolatorProgram
  bump := hright.bump.trans hleft.bump
  vaultAuthorityBump :=
    hright.vaultAuthorityBump.trans hleft.vaultAuthorityBump
  poolMode := hright.poolMode.trans hleft.poolMode
  isInitialized := hright.isInitialized.trans hleft.isInitialized
  discriminator := hright.discriminator.trans hleft.discriminator
  version := hright.version.trans hleft.version

theorem CountersLe.refl (pool : StakePool Pubkey) : pool.CountersLe pool :=
  ⟨le_rfl, le_rfl, le_rfl, le_rfl, le_rfl⟩

theorem CountersLe.trans (hleft : pool.CountersLe pool')
    (hright : pool'.CountersLe pool'') : pool.CountersLe pool'' where
  deposited := hleft.deposited.trans hright.deposited
  withdrawn := hleft.withdrawn.trans hright.withdrawn
  flushed := hleft.flushed.trans hright.flushed
  returned := hleft.returned.trans hright.returned
  fees := hleft.fees.trans hright.fees

/-- The reserved bytes changed at most in the mark and the offset. -/
structure SameFlags (before after : StakePool Pubkey) : Prop where
  discriminator :
    after.reservedFields.discriminator = before.reservedFields.discriminator
  version : after.version = before.version
  isResolved : after.isResolved = before.isResolved
  hwmEnabled : after.hwmEnabled = before.hwmEnabled
  hwmFloorBps : after.hwmFloorBps = before.hwmFloorBps

theorem SameFlags.of_reservedFields {mark epoch offset : U64}
    (h : pool'.reservedFields =
      { pool.reservedFields with
        epochHighWaterTvl := mark
        hwmLastEpoch := epoch
        preSupplyVaultOffset := offset }) : pool.SameFlags pool' where
  discriminator := (congrArg ReservedFields.discriminator h).trans rfl
  version := congrArg ReservedFields.version h
  isResolved := congrArg ReservedFields.resolved h
  hwmEnabled := congrArg ReservedFields.hwmEnabled h
  hwmFloorBps := congrArg ReservedFields.hwmFloorBps h

theorem SameFlags.of_same
    (h : pool'.reservedFields = pool.reservedFields) :
    pool.SameFlags pool' :=
  @of_reservedFields _ _ _ pool.epochHighWaterTvl pool.hwmLastEpoch
    pool.preSupplyVaultOffset h

theorem SameFlags.of_refreshed {epoch value : U64}
    (h : pool'.reservedFields =
      pool.reservedFields.refreshHwm epoch value) : pool.SameFlags pool' :=
  of_reservedFields h

theorem recordDeposit_sameFlags {amount lp : U64} {clock : Clock}
    (h : pool.recordDeposit amount lp clock = .ok pool') :
    pool.SameFlags pool' := by
  obtain ⟨_, _, _, _, _, -, hfields⟩ := recordDeposit_eq_ok h
  split at hfields
  · exact .of_refreshed hfields
  · exact .of_same hfields

theorem guardedWithdraw_sameFlags {guarded : StakePool Pubkey}
    {epoch collateral lpAmount : U64}
    (hfloor : enforceHwmFloor pool epoch collateral = .ok guarded)
    (h : guarded.recordWithdraw collateral lpAmount = .ok pool') :
    pool.SameFlags pool' := by
  obtain ⟨_, _, _, _, _, -, hfields⟩ := guardedWithdraw_eq_ok hfloor h
  split at hfields
  · exact .of_refreshed hfields
  · exact .of_same hfields

theorem accrue_sameFlags {balance slot : U64}
    (h : pool.accrue balance slot = .ok pool') : pool.SameFlags pool' := by
  rcases accrue_eq_ok h with ⟨-, _, -, hfields⟩ | ⟨-, _, _, -, -, -, rfl⟩
  · exact .of_reservedFields hfields
  · exact .of_same (reservedFields_congr rfl)

/-- What the token-free admin instructions leave of the reserved bytes. -/
theorem administered_reservedFields (h : Administered pool pool') :
    ∃ (resolved enabled : Bool) (bps : U16),
      (pool.isResolved = true → resolved = true) ∧
      pool'.reservedFields =
        { pool.reservedFields with
          resolved := resolved
          hwmEnabled := enabled
          hwmFloorBps := bps } := by
  cases h with
  | updateConfig =>
      exact ⟨pool.isResolved, pool.hwmEnabled, pool.hwmFloorBps, id,
        reservedFields_congr rfl⟩
  | transferAdmin =>
      exact ⟨pool.isResolved, pool.hwmEnabled, pool.hwmFloorBps, id,
        reservedFields_congr rfl⟩
  | resolveMarket =>
      exact ⟨true, pool.hwmEnabled, pool.hwmFloorBps, fun _ => rfl,
        pool.reservedFields_setResolved⟩
  | setHwmConfig hconfig =>
      exact ⟨pool.isResolved, _, _, id, (configureHwm_eq_ok hconfig).2.2⟩

end StakePool

/-! ## Steps -/

section Steps

variable [DecidableEq Pubkey] [Inhabited Pubkey] {d : Deployment Pubkey}
  {key : Pubkey} {clock : Clock} {event : PoolEvent Pubkey}
  {view view' : PoolView Pubkey}

theorem PoolStep.sameIdentity
    (hstep : PoolStep d key clock event view view') :
    view.pool.SameIdentity view'.pool := by
  cases hstep with
  | deposit _ _ _ _ _ _ hpool _ _ _ =>
      have hflags := StakePool.recordDeposit_sameFlags hpool
      obtain ⟨_, _, _, _, _, rfl, _⟩ := StakePool.recordDeposit_eq_ok hpool
      exact ⟨rfl, rfl, rfl, rfl, rfl, rfl, rfl, rfl, rfl, rfl,
        hflags.discriminator, hflags.version⟩
  | withdraw _ _ _ _ _ hfloor hpool _ _ _ =>
      have hflags := StakePool.guardedWithdraw_sameFlags hfloor hpool
      obtain ⟨_, _, _, _, _, rfl, _⟩ :=
        StakePool.guardedWithdraw_eq_ok hfloor hpool
      exact ⟨rfl, rfl, rfl, rfl, rfl, rfl, rfl, rfl, rfl, rfl,
        hflags.discriminator, hflags.version⟩
  | flush =>
      exact ⟨rfl, rfl, rfl, rfl, rfl, rfl, rfl, rfl, rfl, rfl, rfl, rfl⟩
  | returnInsurance =>
      exact ⟨rfl, rfl, rfl, rfl, rfl, rfl, rfl, rfl, rfl, rfl, rfl, rfl⟩
  | accrueFees _ hpool =>
      have hflags := StakePool.accrue_sameFlags hpool
      rcases StakePool.accrue_eq_ok hpool with
        ⟨-, _, rfl, -⟩ | ⟨-, _, _, -, -, -, rfl⟩
      · exact ⟨rfl, rfl, rfl, rfl, rfl, rfl, rfl, rfl, rfl, rfl,
          hflags.discriminator, hflags.version⟩
      · exact ⟨rfl, rfl, rfl, rfl, rfl, rfl, rfl, rfl, rfl, rfl,
          hflags.discriminator, hflags.version⟩
  | administer hpool =>
      obtain ⟨_, _, _, -, hfields⟩ :=
        StakePool.administered_reservedFields hpool
      have hdisc := congrArg ReservedFields.discriminator hfields
      have hversion := congrArg ReservedFields.version hfields
      obtain ⟨_, _, _, _, rfl, _⟩ := StakePool.administered_eq hpool
      exact ⟨rfl, rfl, rfl, rfl, rfl, rfl, rfl, rfl, rfl, rfl, hdisc,
        hversion⟩
  | idle => exact StakePool.SameIdentity.refl _

theorem PoolStep.countersLe
    (hstep : PoolStep d key clock event view view') :
    view.pool.CountersLe view'.pool := by
  cases hstep with
  | deposit _ _ _ _ _ _ hpool _ _ _ =>
      obtain ⟨_, _, _, htotal, _, rfl, _⟩ :=
        StakePool.recordDeposit_eq_ok hpool
      exact ⟨by simp [htotal], le_rfl, le_rfl, le_rfl, le_rfl⟩
  | withdraw _ _ _ _ _ hfloor hpool _ _ _ =>
      obtain ⟨_, _, _, htotal, _, rfl, _⟩ :=
        StakePool.guardedWithdraw_eq_ok hfloor hpool
      exact ⟨le_rfl, by simp [htotal], le_rfl, le_rfl, le_rfl⟩
  | flush _ _ _ _ htotal _ =>
      rw [checkedAdd_eq_some] at htotal
      exact ⟨le_rfl, le_rfl, by simp [← htotal], le_rfl, le_rfl⟩
  | returnInsurance _ htotal _ =>
      rw [checkedAdd_eq_some] at htotal
      exact ⟨le_rfl, le_rfl, le_rfl, by simp [← htotal], le_rfl⟩
  | accrueFees _ hpool =>
      rcases StakePool.accrue_eq_ok hpool with
        ⟨-, _, rfl, -⟩ | ⟨-, _, _, -, -, hfees, rfl⟩
      · exact ⟨le_rfl, le_rfl, le_rfl, le_rfl, le_rfl⟩
      · exact ⟨le_rfl, le_rfl, le_rfl, le_rfl, by simp [hfees]⟩
  | administer hpool =>
      obtain ⟨_, _, _, _, rfl, _⟩ := StakePool.administered_eq hpool
      exact ⟨le_rfl, le_rfl, le_rfl, le_rfl, le_rfl⟩
  | idle => exact StakePool.CountersLe.refl _

theorem PoolStep.sameSettings
    (hstep : PoolStep d key clock event view view')
    (hevent : event ≠ .administer) : view.pool.SameSettings view'.pool := by
  cases hstep with
  | deposit _ _ _ _ _ _ hpool _ _ _ =>
      have hflags := StakePool.recordDeposit_sameFlags hpool
      obtain ⟨_, _, _, _, _, rfl, _⟩ := StakePool.recordDeposit_eq_ok hpool
      exact ⟨rfl, rfl, rfl, hflags.isResolved, hflags.hwmEnabled,
        hflags.hwmFloorBps⟩
  | withdraw _ _ _ _ _ hfloor hpool _ _ _ =>
      have hflags := StakePool.guardedWithdraw_sameFlags hfloor hpool
      obtain ⟨_, _, _, _, _, rfl, _⟩ :=
        StakePool.guardedWithdraw_eq_ok hfloor hpool
      exact ⟨rfl, rfl, rfl, hflags.isResolved, hflags.hwmEnabled,
        hflags.hwmFloorBps⟩
  | flush => exact ⟨rfl, rfl, rfl, rfl, rfl, rfl⟩
  | returnInsurance => exact ⟨rfl, rfl, rfl, rfl, rfl, rfl⟩
  | accrueFees _ hpool =>
      have hflags := StakePool.accrue_sameFlags hpool
      rcases StakePool.accrue_eq_ok hpool with
        ⟨-, _, rfl, -⟩ | ⟨-, _, _, -, -, -, rfl⟩
      · exact ⟨rfl, rfl, rfl, hflags.isResolved, hflags.hwmEnabled,
          hflags.hwmFloorBps⟩
      · exact ⟨rfl, rfl, rfl, hflags.isResolved, hflags.hwmEnabled,
          hflags.hwmFloorBps⟩
  | administer => exact absurd rfl hevent
  | idle => exact ⟨rfl, rfl, rfl, rfl, rfl, rfl⟩

theorem zeroBytes_flags :
    decide ((zeroBytes 64).get 9 &&& 0x01 ≠ 0) = false ∧
      decide ((zeroBytes 64).get 9 &&& 0x02 ≠ 0) = false ∧
      BitVec.ofNat 16
        (leValue [(zeroBytes 64).get 10, (zeroBytes 64).get 11]) = 0 := by
  decide +kernel

omit [DecidableEq Pubkey] in
theorem StakePool.zeroed_flags :
    (StakePool.zeroed : StakePool Pubkey).isResolved = false ∧
      (StakePool.zeroed : StakePool Pubkey).hwmEnabled = false ∧
      (StakePool.zeroed : StakePool Pubkey).hwmFloorBps = 0 := by
  have hreserved : (StakePool.zeroed : StakePool Pubkey).reserved =
      zeroBytes 64 := rfl
  simp only [isResolved, hwmEnabled, hwmFloorBps, hreserved]
  exact zeroBytes_flags

omit [DecidableEq Pubkey] in
/-- A pool starts with the settings of its initialisation. -/
theorem PoolView.Fresh.settings (h : view.Fresh) :
    view.pool.adminTransferred = 1 ∧ view.pool.isResolved = false ∧
      view.pool.hwmEnabled = false ∧ view.pool.hwmFloorBps = 0 := by
  obtain ⟨a, poolBump, vaultAuthBump, cooldown, cap, mode, -, hpool⟩ := h.pool
  have hfields : view.pool.reservedFields =
      { StakePool.reservedFields (StakePool.zeroed : StakePool Pubkey) with
        discriminator := stakePoolDiscriminator
        version := StakePool.currentVersion } := by
    rw [hpool]
    exact StakePool.reservedFields_setDiscriminator _
  obtain ⟨hresolved, henabled, hbps⟩ := @StakePool.zeroed_flags Pubkey _
  exact ⟨by rw [hpool]; rfl,
    (congrArg ReservedFields.resolved hfields).trans hresolved,
    (congrArg ReservedFields.hwmEnabled hfields).trans henabled,
    (congrArg ReservedFields.hwmFloorBps hfields).trans hbps⟩

end Steps

end PercolatorVault
