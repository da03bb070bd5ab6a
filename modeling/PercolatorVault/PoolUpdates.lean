import PercolatorVault.PoolMachine
import PercolatorVault.ReservedFields

/-!
# What a handler writes into a pool record

One lemma for each function that changes a pool record: which named fields it
sets, and what becomes of the fields packed into the reserved bytes.
Everything not mentioned is left alone.
-/

namespace PercolatorVault

open CheckedArithmetic
open FallibleSteps
open LittleEndian
open ProportionalShares

variable {Pubkey : Type} {pool pool' : StakePool Pubkey}

namespace StakePool

theorem setEpochHighWaterTvl_eq (pool : StakePool Pubkey) (tvl : U64) :
    ∃ reserved,
      pool.setEpochHighWaterTvl tvl = { pool with reserved := reserved } :=
  ⟨_, rfl⟩

theorem setHwmFloorBps_eq (pool : StakePool Pubkey) (bps : U16) :
    ∃ reserved,
      pool.setHwmFloorBps bps = { pool with reserved := reserved } :=
  ⟨_, rfl⟩

theorem setPreSupplyVaultOffset_eq (pool : StakePool Pubkey)
    (offset : U64) :
    ∃ reserved,
      pool.setPreSupplyVaultOffset offset =
        { pool with reserved := reserved } :=
  ⟨_, rfl⟩

theorem setResolved_eq (pool : StakePool Pubkey) :
    ∃ reserved, pool.setResolved = { pool with reserved := reserved } :=
  ⟨_, rfl⟩

theorem refreshHwm_eq (pool : StakePool Pubkey) (epoch tvl : U64) :
    ∃ reserved,
      pool.refreshHwm epoch tvl = { pool with reserved := reserved } := by
  obtain ⟨marked, hmark⟩ := pool.setEpochHighWaterTvl_eq tvl
  unfold refreshHwm
  rw [hmark]
  split
  · exact ⟨_, rfl⟩
  · split
    · exact ⟨marked, rfl⟩
    · exact ⟨pool.reserved, rfl⟩

theorem setHwmEnabled_eq (pool : StakePool Pubkey) (enabled : Bool) :
    ∃ reserved,
      pool.setHwmEnabled enabled = { pool with reserved := reserved } := by
  unfold setHwmEnabled
  split <;> exact ⟨_, rfl⟩

/-- The reserved fields depend on the reserved bytes only. -/
theorem reservedFields_congr
    (h : pool'.reserved = pool.reserved) :
    pool'.reservedFields = pool.reservedFields := by
  simp only [reservedFields, version, isResolved, hwmEnabled, hwmFloorBps,
    epochHighWaterTvl, hwmLastEpoch, preSupplyVaultOffset, h]

theorem preSupplyVaultOffset_congr
    (h : pool'.reservedFields = pool.reservedFields) :
    pool'.preSupplyVaultOffset = pool.preSupplyVaultOffset :=
  congrArg ReservedFields.preSupplyVaultOffset h

theorem preSupplyVaultOffset_of_refreshed {epoch tvl : U64}
    (h : pool'.reservedFields = pool.reservedFields.refreshHwm epoch tvl) :
    pool'.preSupplyVaultOffset = pool.preSupplyVaultOffset :=
  congrArg ReservedFields.preSupplyVaultOffset h

/-! ## Deposit -/

theorem recordDeposit_eq_ok {amount lp : U64} {clock : Clock}
    (h : pool.recordDeposit amount lp clock = .ok pool') :
    ∃ (totalDeposited totalLpSupply : U64) (reserved : Vector U8 64),
      totalDeposited.toNat = pool.totalDeposited.toNat + amount.toNat ∧
      totalLpSupply.toNat = pool.totalLpSupply.toNat + lp.toNat ∧
      pool' =
        { pool with
          totalDeposited := totalDeposited
          totalLpSupply := totalLpSupply
          reserved := reserved } ∧
      pool'.reservedFields =
        if pool.hwmEnabled then
          pool.reservedFields.refreshHwm clock.epoch
            (pool'.totalPoolValue.getD 0)
        else pool.reservedFields := by
  simp only [recordDeposit, bind_eq_ok, okOr_eq_ok, checkedAdd_eq_some,
    Except.ok.injEq] at h
  obtain ⟨totalDeposited, hdeposited, totalLpSupply, hsupply, hpool⟩ := h
  have hflag :
      ({ pool with
        totalDeposited := totalDeposited
        totalLpSupply := totalLpSupply } : StakePool Pubkey).hwmEnabled =
      pool.hwmEnabled := rfl
  rw [hflag] at hpool
  by_cases henabled : pool.hwmEnabled = true
  · rw [if_pos henabled] at hpool
    rw [if_pos henabled]
    subst hpool
    obtain ⟨reserved, hrefreshed⟩ :=
      refreshHwm_eq
        { pool with
          totalDeposited := totalDeposited
          totalLpSupply := totalLpSupply } clock.epoch
        (StakePool.totalPoolValue
          { pool with
            totalDeposited := totalDeposited
            totalLpSupply := totalLpSupply } |>.getD 0)
    refine ⟨totalDeposited, totalLpSupply, reserved, hdeposited.symm,
      hsupply.symm, hrefreshed, ?_⟩
    rw [reservedFields_refreshHwm, hrefreshed]
    rfl
  · rw [if_neg henabled] at hpool
    rw [if_neg henabled]
    subst hpool
    exact ⟨totalDeposited, totalLpSupply, pool.reserved, hdeposited.symm,
      hsupply.symm, rfl, rfl⟩

/-! ## Withdraw -/

theorem enforceHwmFloor_eq_ok {guarded : StakePool Pubkey}
    {epoch collateral : U64}
    (h : enforceHwmFloor pool epoch collateral = .ok guarded) :
    ∃ reserved : Vector U8 64,
      guarded = { pool with reserved := reserved } ∧
      if pool.hwmEnabled then
        guarded.reservedFields =
          pool.reservedFields.refreshHwm epoch (pool.totalPoolValue.getD 0) ∧
        collateral.toNat ≤ (pool.totalPoolValue.getD 0).toNat ∧
        guarded.epochHighWaterTvl.toNat * pool.hwmFloorBps.toNat / 10000 ≤
          (pool.totalPoolValue.getD 0).toNat - collateral.toNat
      else guarded.reservedFields = pool.reservedFields := by
  unfold enforceHwmFloor at h
  by_cases henabled : pool.hwmEnabled = true
  · rw [if_pos henabled] at h
    rw [if_pos henabled]
    simp only [bind_eq_ok, okOr_eq_ok, checkedSub_eq_some, require_eq_ok,
      Except.ok.injEq, exists_const] at h
    obtain ⟨postTvl, hpost, hallowed, rfl⟩ := h
    rw [hwmWithdrawalAllowed_iff] at hallowed
    have hfields := pool.reservedFields_refreshHwm epoch
      (pool.totalPoolValue.getD 0)
    have hbps :
        (pool.refreshHwm epoch (pool.totalPoolValue.getD 0)).hwmFloorBps =
          pool.hwmFloorBps := congrArg ReservedFields.hwmFloorBps hfields
    rw [hbps] at hallowed
    obtain ⟨reserved, hrefreshed⟩ :=
      pool.refreshHwm_eq epoch (pool.totalPoolValue.getD 0)
    refine ⟨reserved, hrefreshed, hfields, by omega, ?_⟩
    omega
  · rw [if_neg henabled] at h
    rw [if_neg henabled]
    cases h
    exact ⟨pool.reserved, rfl, rfl⟩

theorem recordWithdraw_eq_ok {collateral lpAmount : U64}
    (h : pool.recordWithdraw collateral lpAmount = .ok pool') :
    ∃ totalWithdrawn totalLpSupply : U64,
      totalWithdrawn.toNat = pool.totalWithdrawn.toNat + collateral.toNat ∧
      pool.totalLpSupply.toNat = totalLpSupply.toNat + lpAmount.toNat ∧
      pool' =
        { pool with
          totalWithdrawn := totalWithdrawn
          totalLpSupply := totalLpSupply } := by
  simp only [recordWithdraw, bind_eq_ok, okOr_eq_ok, checkedAdd_eq_some,
    checkedSub_eq_some, Except.ok.injEq] at h
  obtain ⟨totalWithdrawn, hwithdrawn, totalLpSupply, hsupply, rfl⟩ := h
  exact ⟨totalWithdrawn, totalLpSupply, hwithdrawn.symm, hsupply, rfl⟩

/-- The check of the floor and the update that follows it, as one update. -/
theorem guardedWithdraw_eq_ok {guarded : StakePool Pubkey}
    {epoch collateral lpAmount : U64}
    (hfloor : enforceHwmFloor pool epoch collateral = .ok guarded)
    (h : guarded.recordWithdraw collateral lpAmount = .ok pool') :
    ∃ (totalWithdrawn totalLpSupply : U64) (reserved : Vector U8 64),
      totalWithdrawn.toNat = pool.totalWithdrawn.toNat + collateral.toNat ∧
      pool.totalLpSupply.toNat = totalLpSupply.toNat + lpAmount.toNat ∧
      pool' =
        { pool with
          totalWithdrawn := totalWithdrawn
          totalLpSupply := totalLpSupply
          reserved := reserved } ∧
      pool'.reservedFields =
        if pool.hwmEnabled then
          pool.reservedFields.refreshHwm epoch (pool.totalPoolValue.getD 0)
        else pool.reservedFields := by
  obtain ⟨reserved, rfl, hguard⟩ := enforceHwmFloor_eq_ok hfloor
  obtain ⟨totalWithdrawn, totalLpSupply, hwithdrawn, hsupply, rfl⟩ :=
    recordWithdraw_eq_ok h
  refine ⟨totalWithdrawn, totalLpSupply, reserved, hwithdrawn, hsupply, rfl,
    (reservedFields_congr rfl).trans
      (b := reservedFields { pool with reserved := reserved }) ?_⟩
  by_cases henabled : pool.hwmEnabled = true
  · rw [if_pos henabled] at hguard ⊢
    exact hguard.1
  · rw [if_neg henabled] at hguard ⊢
    exact hguard

/-- A payout changes the pool record. -/
theorem ne_of_guardedWithdraw {guarded : StakePool Pubkey}
    {epoch collateral lpAmount : U64}
    (hfloor : enforceHwmFloor pool epoch collateral = .ok guarded)
    (h : guarded.recordWithdraw collateral lpAmount = .ok pool')
    (hpaid : collateral ≠ 0) : pool ≠ pool' := by
  intro heq
  obtain ⟨_, _, _, htotal, -, rfl, -⟩ := guardedWithdraw_eq_ok hfloor h
  have hunchanged := congrArg (BitVec.toNat ∘ totalWithdrawn) heq
  have hpositive := toNat_pos.mpr hpaid
  dsimp only [Function.comp] at hunchanged
  omega

/-- What a withdrawal pays is the holder's share of the pool value. -/
theorem calcCollateralForWithdraw_eq_some {lpAmount collateral : U64} :
    pool.calcCollateralForWithdraw lpAmount = some collateral ↔
      ∃ value, pool.totalPoolValue = some value ∧
        0 < pool.totalLpSupply.toNat ∧
        collateral.toNat =
          (Pot.mk value.toNat pool.totalLpSupply.toNat).redeem
            lpAmount.toNat := by
  simp only [calcCollateralForWithdraw, Option.bind_eq_bind,
    Option.bind_eq_some_iff, PercolatorVault.calcCollateralForWithdraw_eq_some]

/-- What a deposit mints: one LP per unit into a pool without LP, and the
proportional share otherwise. -/
theorem calcLpForDeposit_eq_some {amount lp : U64} :
    pool.calcLpForDeposit amount = some lp ↔
      (pool.totalLpSupply.toNat = 0 ∧
        (pool.totalPoolValue.getD 0).toNat = 0 ∧ lp = amount) ∨
      ∃ value, pool.totalPoolValue = some value ∧ 0 < value.toNat ∧
        0 < pool.totalLpSupply.toNat ∧
        lp.toNat =
          (Pot.mk value.toNat pool.totalLpSupply.toNat).mint
            amount.toNat := by
  unfold calcLpForDeposit
  rw [PercolatorVault.calcLpForDeposit_eq_some]
  cases hvalue : pool.totalPoolValue with
  | none => simp
  | some value => simp [and_left_comm]

/-! ## The fee crank -/

theorem accrue_eq_ok {balance slot : U64}
    (h : pool.accrue balance slot = .ok pool') :
    (pool.totalLpSupply.toNat = 0 ∧
      ∃ reserved : Vector U8 64,
        pool' =
          { pool with
            reserved := reserved
            lastFeeAccrualSlot := slot
            lastVaultSnapshot := balance } ∧
        pool'.reservedFields =
          { pool.reservedFields with preSupplyVaultOffset := balance }) ∨
    (0 < pool.totalLpSupply.toNat ∧
      ∃ baseline totalFeesEarned : U64,
        pool.accrualBaseline = some baseline ∧
        baseline.toNat + pool.preSupplyVaultOffset.toNat < 2 ^ 64 ∧
        totalFeesEarned.toNat =
          pool.totalFeesEarned.toNat +
            (balance.toNat -
              (baseline.toNat + pool.preSupplyVaultOffset.toNat)) ∧
        pool' =
          { pool with
            totalFeesEarned := totalFeesEarned
            lastFeeAccrualSlot := slot
            lastVaultSnapshot := balance }) := by
  unfold accrue at h
  by_cases hzero : pool.totalLpSupply = 0
  · rw [if_pos hzero] at h
    have hfields := pool.reservedFields_setPreSupplyVaultOffset balance
    obtain ⟨reserved, hset⟩ := pool.setPreSupplyVaultOffset_eq balance
    rw [hset] at h hfields
    cases h
    exact Or.inl ⟨toNat_eq_zero.mpr hzero, reserved, rfl, hfields⟩
  · rw [if_neg hzero] at h
    simp only [bind_eq_ok, okOr_eq_ok, checkedAdd_eq_some,
      Except.ok.injEq] at h
    obtain ⟨baseline, hbaseline, expected, hexpected, fees, hfees, rfl⟩ := h
    refine Or.inr ⟨toNat_pos.mpr hzero, baseline, fees, hbaseline, ?_, ?_,
      rfl⟩
    · have := expected.isLt
      omega
    · split at hfees
      · next hlt =>
          rw [okOr_eq_ok, checkedAdd_eq_some,
            toNat_sub_of_le (Nat.le_of_lt hlt)] at hfees
          omega
      · next hge =>
          cases hfees
          omega

/-! ## Admin instructions -/

/-- A configuration writes the flag, and the floor as well if it enables. -/
theorem configureHwm_eq_ok {enabled : Bool} {bps : U16}
    (h : pool.configureHwm enabled bps = .ok pool') :
    (enabled = true → 1 ≤ bps.toNat ∧ bps.toNat ≤ 10000) ∧
      (∃ reserved, pool' = { pool with reserved := reserved }) ∧
      pool'.reservedFields =
        { pool.reservedFields with
          hwmEnabled := enabled
          hwmFloorBps := if enabled then bps else pool.hwmFloorBps } := by
  have hflag := pool.reservedFields_setHwmEnabled enabled
  obtain ⟨flagged, hset⟩ := pool.setHwmEnabled_eq enabled
  unfold configureHwm at h
  dsimp only at h
  rw [hset] at h hflag
  cases enabled with
  | true =>
      simp only [if_true, bind_eq_ok, require_eq_ok, Except.ok.injEq,
        exists_const] at h
      obtain ⟨⟨hpositive, hle⟩, hconfigured⟩ := h
      have hfields := reservedFields_setHwmFloorBps
        { pool with reserved := flagged } bps
      rw [hflag, hconfigured] at hfields
      obtain ⟨written, hwrite⟩ :=
        setHwmFloorBps_eq { pool with reserved := flagged } bps
      exact ⟨fun _ => ⟨toNat_pos.mpr hpositive, hle⟩,
        ⟨written, hconfigured.symm.trans hwrite⟩, hfields⟩
  | false =>
      rw [if_neg (by decide), Except.ok.injEq] at h
      subst h
      exact ⟨fun henabled => absurd henabled (by decide), ⟨flagged, rfl⟩,
        hflag⟩

/-- The admin instructions reach neither the totals nor the mark nor the
offset. -/
theorem administered_eq (h : Administered pool pool') :
    ∃ (cooldownSlots depositCap : U64) (adminTransferred : U8)
      (reserved : Vector U8 64),
      pool' =
        { pool with
          cooldownSlots := cooldownSlots
          depositCap := depositCap
          adminTransferred := adminTransferred
          reserved := reserved } ∧
      pool'.preSupplyVaultOffset = pool.preSupplyVaultOffset ∧
      pool'.epochHighWaterTvl = pool.epochHighWaterTvl ∧
      pool'.hwmLastEpoch = pool.hwmLastEpoch := by
  cases h with
  | updateConfig cooldownSlots depositCap =>
      exact ⟨cooldownSlots, depositCap, pool.adminTransferred, pool.reserved,
        rfl, rfl, rfl, rfl⟩
  | transferAdmin =>
      exact ⟨pool.cooldownSlots, pool.depositCap, 1, pool.reserved,
        rfl, rfl, rfl, rfl⟩
  | resolveMarket =>
      have hfields := pool.reservedFields_setResolved
      obtain ⟨reserved, hset⟩ := pool.setResolved_eq
      rw [hset] at hfields ⊢
      exact ⟨pool.cooldownSlots, pool.depositCap, pool.adminTransferred,
        reserved, rfl, congrArg ReservedFields.preSupplyVaultOffset hfields,
        congrArg ReservedFields.epochHighWaterTvl hfields,
        congrArg ReservedFields.hwmLastEpoch hfields⟩
  | setHwmConfig hconfig =>
      obtain ⟨-, ⟨reserved, hreserved⟩, hfields⟩ := configureHwm_eq_ok hconfig
      exact ⟨pool.cooldownSlots, pool.depositCap, pool.adminTransferred,
        reserved, hreserved,
        congrArg ReservedFields.preSupplyVaultOffset hfields,
        congrArg ReservedFields.epochHighWaterTvl hfields,
        congrArg ReservedFields.hwmLastEpoch hfields⟩

/-! ## Initialisation -/

/-- Fresh reserved bytes read as zero wherever a word is kept. -/
theorem zeroBytes_offset :
    BitVec.ofNat 64 (leValue (readSlice (zeroBytes 64) 32 8)) = 0 := by
  decide +kernel

theorem initPool_offset [Inhabited Pubkey] (a : InitPoolAccounts Pubkey)
    (poolBump vaultAuthBump : U8) (cooldownSlots depositCap : U64) :
    ((StakePool.zeroed : StakePool Pubkey).initPool a poolBump vaultAuthBump
      cooldownSlots depositCap).preSupplyVaultOffset = 0 := by
  unfold initPool
  change (reservedFields (setDiscriminator _)).preSupplyVaultOffset = 0
  rw [reservedFields_setDiscriminator]
  exact zeroBytes_offset

end StakePool

end PercolatorVault
