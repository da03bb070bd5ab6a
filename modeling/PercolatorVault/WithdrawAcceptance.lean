import PercolatorVault.ExternalPrograms
import PercolatorVault.LpConservation
import PercolatorVault.ShareSequences
import PercolatorVault.Solvency
import PercolatorVault.StandingGuards

/-!
# When a withdrawal succeeds

A holder who passes the right accounts is served exactly when the lock of the
record is over, the record has the LP, the share is worth at least one unit
and the floor is kept.  Nothing that happens after these checks can fail, and
nothing but the accounts of the withdrawal changes.
-/

namespace PercolatorVault

open CheckedArithmetic
open FallibleSteps
open FiniteTallies
open ProportionalShares

variable {Pubkey : Type}

/-! ## The condition -/

/-- The mark a withdrawal is measured against, after the refresh. -/
def StakePool.refreshedMark (pool : StakePool Pubkey) (epoch : U64)
    (value : ℕ) : ℕ :=
  if epoch ≠ pool.hwmLastEpoch then value
  else max pool.epochHighWaterTvl.toNat value

/-- What `lpAmount` LP of a pool worth `value` are redeemed for. -/
def StakePool.payout (pool : StakePool Pubkey) (value lpAmount : ℕ) : ℕ :=
  lpAmount * value / pool.totalLpSupply.toNat

/-- The conditions of a withdrawal from a pool worth `value`. -/
structure StakePool.AllowsWithdraw (pool : StakePool Pubkey)
    (record : StakeDeposit Pubkey) (clock : Clock) (value lpAmount : ℕ) :
    Prop where
  positive : 0 < lpAmount
  unlocked :
    min (record.lastDepositSlot.toNat + pool.cooldownSlots.toNat)
      (2 ^ 64 - 1) ≤ clock.slot.toNat
  held : lpAmount ≤ record.lpAmount.toNat
  pays : 1 ≤ pool.payout value lpAmount
  floor : pool.hwmEnabled = true →
    pool.refreshedMark clock.epoch value * pool.hwmFloorBps.toNat / 10000 ≤
      value - pool.payout value lpAmount

/-- The accounts of a user who holds `held` and withdraws from the pool to a
collateral account other than the vault. -/
structure WithdrawAccounts.Valid (d : Deployment Pubkey) (bank : Bank Pubkey)
    (a : WithdrawAccounts Pubkey) (pool : StakePool Pubkey)
    (held : TokenAccount Pubkey) : Prop where
  poolAt : d.PoolAt bank a.poolPda.key pool
  signer : a.user.isSigner = true
  lpMint : pool.lpMint = a.lpMint.key
  vault : pool.vault = a.vault.key
  vaultAuth : a.vaultAuth.key = (d.deriveVaultAuthority a.poolPda.key).1
  depositPda :
    a.depositPda.key = (d.deriveDepositPda a.poolPda.key a.user.key).1
  tokenProgram : a.tokenProgram.key = d.splTokenId
  clockSysvar : a.clockSysvar.key = d.clockId
  writable : ∀ info ∈ [a.poolPda, a.userLpAta, a.lpMint, a.vault, a.userAta,
    a.depositPda], info.isWritable = true
  lpTokens : d.TokenAt bank a.userLpAta.key held
  lpTokens_mint : held.mint = pool.lpMint
  lpTokens_owner : held.owner = a.user.key
  payee : ∃ t, d.TokenAt bank a.userAta.key t ∧ t.mint = pool.collateralMint
  payee_ne : a.userAta.key ≠ a.vault.key

theorem WithdrawAccounts.next_mem {accounts : List (AccountInfo Pubkey)}
    {a : WithdrawAccounts Pubkey}
    (h : WithdrawAccounts.next accounts = .ok a) :
    ∀ info ∈ [a.user, a.poolPda, a.userLpAta, a.lpMint, a.vault, a.userAta,
      a.depositPda], info ∈ accounts := by
  unfold WithdrawAccounts.next at h
  split at h
  · cases h
    simp
  · cases h

/-- A write to a writable account of the program is accepted. -/
theorem exists_storeData [DecidableEq Pubkey] {d : Deployment Pubkey}
    {bank : Bank Pubkey} {info : AccountInfo Pubkey}
    (howned : (bank.accounts info.key).owner = d.programId)
    (hwritable : info.isWritable = true) (data : AccountData Pubkey) :
    ∃ after, storeData d bank info data = .ok after := by
  by_cases hsame : (bank.accounts info.key).data = data
  · exact ⟨bank, if_pos hsame⟩
  · refine ⟨bank.setData info.key data, ?_⟩
    simp [storeData, hsame, howned, hwritable]

/-- Two writes in a row, the first of them to the pool. -/
theorem exists_storeData_twice [DecidableEq Pubkey] {d : Deployment Pubkey}
    {bank : Bank Pubkey} {pool deposit : AccountInfo Pubkey}
    (hpool : (bank.accounts pool.key).owner = d.programId)
    (hdeposit : (bank.accounts deposit.key).owner = d.programId)
    (hpoolWritable : pool.isWritable = true)
    (hdepositWritable : deposit.isWritable = true)
    (poolData depositData : AccountData Pubkey) :
    ∃ recorded after, storeData d bank pool poolData = .ok recorded ∧
      storeData d recorded deposit depositData = .ok after := by
  obtain ⟨recorded, hrecorded⟩ :=
    exists_storeData hpool hpoolWritable poolData
  have howned := ((storeData_stored hrecorded).owner_eq _).trans hdeposit
  obtain ⟨after, hafter⟩ :=
    exists_storeData howned hdepositWritable depositData
  exact ⟨recorded, after, hrecorded, hafter⟩

theorem loadDeposit_of_depositAt [Inhabited Pubkey] {d : Deployment Pubkey}
    {bank : Bank Pubkey} {info : AccountInfo Pubkey}
    {record : StakeDeposit Pubkey} (h : d.DepositAt bank info.key record) :
    loadDeposit bank info = .ok record := by
  simp only [loadDeposit, h.2]

theorem ReservedFields.toNat_mark_refreshHwm (fields : ReservedFields)
    (epoch value : U64) :
    (fields.refreshHwm epoch value).epochHighWaterTvl.toNat =
      if epoch ≠ fields.hwmLastEpoch then value.toNat
      else max fields.epochHighWaterTvl.toNat value.toNat := by
  unfold refreshHwm
  dsimp only
  split
  · rfl
  · exact toNat_wordMax _ _

namespace StakePool

variable {pool : StakePool Pubkey} {value : U64}

theorem toNat_epochHighWaterTvl_refreshHwm (pool : StakePool Pubkey)
    (epoch value : U64) :
    (pool.refreshHwm epoch value).epochHighWaterTvl.toNat =
      pool.refreshedMark epoch value.toNat := by
  have hmark := congrArg ReservedFields.epochHighWaterTvl
    (pool.reservedFields_refreshHwm epoch value)
  change (pool.refreshHwm epoch value).epochHighWaterTvl = _ at hmark
  rw [hmark]
  exact pool.reservedFields.toNat_mark_refreshHwm epoch value

/-- The floor lets a covered payout pass exactly when what is left is not
below it. -/
theorem exists_enforceHwmFloor {epoch collateral : U64}
    (hvalue : pool.totalPoolValue = some value)
    (hcovered : collateral.toNat ≤ value.toNat) :
    (∃ guarded, enforceHwmFloor pool epoch collateral = .ok guarded) ↔
      (pool.hwmEnabled = true →
        pool.refreshedMark epoch value.toNat * pool.hwmFloorBps.toNat /
            10000 ≤ value.toNat - collateral.toNat) := by
  have hbps : (pool.refreshHwm epoch value).hwmFloorBps =
      pool.hwmFloorBps :=
    congrArg ReservedFields.hwmFloorBps
      (pool.reservedFields_refreshHwm epoch value)
  unfold enforceHwmFloor
  rw [hvalue, Option.getD_some]
  by_cases henabled : pool.hwmEnabled = true
  · rw [if_pos henabled]
    simp only [bind_eq_ok, okOr_eq_ok, checkedSub_eq_some, require_eq_ok,
      hwmWithdrawalAllowed_iff, hbps, toNat_epochHighWaterTvl_refreshHwm,
      exists_const]
    constructor
    · rintro ⟨guarded, left, hleft, hfloor, -⟩ -
      omega
    · intro hfloor
      refine ⟨_, value - collateral, ?_, ?_, rfl⟩
      · rw [toNat_sub_of_le hcovered]
        omega
      · rw [toNat_sub_of_le hcovered]
        exact hfloor henabled
  · rw [if_neg henabled]
    constructor
    · intro _ h
      exact absurd h henabled
    · intro _
      exact ⟨pool, rfl⟩

/-- The totals can be rewritten once the payout is part of the value, with or
without a refreshed mark. -/
theorem exists_recordWithdraw_of_guarded {collateral lpAmount : U64}
    (hvalue : pool.totalPoolValue = some value)
    (hcovered : collateral.toNat ≤ value.toNat)
    (hsupply : lpAmount.toNat ≤ pool.totalLpSupply.toNat) {epoch : U64}
    {guarded : StakePool Pubkey}
    (hguarded : enforceHwmFloor pool epoch collateral = .ok guarded) :
    ∃ pool', guarded.recordWithdraw collateral lpAmount = .ok pool' := by
  obtain ⟨reserved, rfl, -⟩ := enforceHwmFloor_eq_ok hguarded
  exact exists_recordWithdraw hvalue hcovered hsupply

end StakePool

/-! ## The calls -/

section Calls

variable [DecidableEq Pubkey] {rt : Runtime Pubkey}
  {before burned : Bank Pubkey} {accounts : List (AccountInfo Pubkey)}
  {a : WithdrawAccounts Pubkey} {view : PoolView Pubkey}
  {held : TokenAccount Pubkey} {lpAmount collateral : U64}

theorem WithdrawAccounts.Valid.writable_of_next
    (hvalid : a.Valid rt.toDeployment before view.pool held)
    (hnext : WithdrawAccounts.next accounts = .ok a) :
    ∀ info ∈ [a.poolPda, a.userLpAta, a.lpMint, a.vault, a.userAta,
      a.depositPda], Writable accounts info.key := by
  intro info hinfo
  refine .of_mem (WithdrawAccounts.next_mem hnext info ?_)
    (hvalid.writable info hinfo)
  exact List.mem_cons_of_mem _ hinfo

theorem WithdrawAccounts.Valid.exists_burned
    (hvalid : a.Valid rt.toDeployment before view.pool held)
    (hnext : WithdrawAccounts.next accounts = .ok a)
    (hlive : TokenProgramLive rt accounts)
    (hbooks : TokenBooks rt.toDeployment before
      [a.userLpAta.key, a.vault.key, a.userAta.key])
    (hview : Shows rt.toDeployment before a.poolPda.key view)
    (hheld : lpAmount.toNat ≤ held.amount.toNat) :
    ∃ burned, rt.invokeSigned
      (.burn a.tokenProgram.key a.userLpAta.key a.lpMint.key a.user.key
        lpAmount) [] before = .ok burned := by
  have hwritable := hvalid.writable_of_next hnext
  obtain ⟨freeze, hmint⟩ := hview.lpMint
  have hsupplied := hbooks.supplied _ (by simp) held _ hvalid.lpTokens
    (by rw [hvalid.lpTokens_mint]; exact hmint) (by simp)
  rw [hvalid.tokenProgram]
  apply hlive.burn (hwritable _ (by simp)) (hwritable _ (by simp))
    (.of_user (WithdrawAccounts.next_mem hnext _ (by simp)) hvalid.signer)
    hvalid.lpTokens (by rw [← hvalid.lpMint]; exact hmint)
    (by rw [hvalid.lpTokens_mint, hvalid.lpMint]) hvalid.lpTokens_owner hheld
  exact hheld.trans hsupplied

/-- Collateral and LP are different tokens as soon as somebody holds LP. -/
theorem WithdrawAccounts.Valid.payee_ne_lpTokens
    (hvalid : a.Valid rt.toDeployment before view.pool held)
    (hview : Shows rt.toDeployment before a.poolPda.key view)
    (hheld : 0 < held.amount.toNat) : a.userAta.key ≠ a.userLpAta.key := by
  intro heq
  obtain ⟨t, ht, htmint⟩ := hvalid.payee
  rw [heq] at ht
  have hsame := ht.unique hvalid.lpTokens
  rw [hsame, hvalid.lpTokens_mint] at htmint
  have hzero := hview.unheld htmint.symm _ held hvalid.lpTokens
    hvalid.lpTokens_mint
  omega

theorem WithdrawAccounts.Valid.exists_paid
    (hvalid : a.Valid rt.toDeployment before view.pool held)
    (hnext : WithdrawAccounts.next accounts = .ok a)
    (hsigned : SignedByOthers rt.toDeployment accounts)
    (hlive : TokenProgramLive rt accounts)
    (hbooks : TokenBooks rt.toDeployment before
      [a.userLpAta.key, a.vault.key, a.userAta.key])
    (hview : Shows rt.toDeployment before a.poolPda.key view)
    (hheld : 0 < held.amount.toNat)
    (hcovered : collateral.toNat ≤ view.vaultAmount.toNat)
    (hburned : TokensBurned rt.toDeployment before burned a.userLpAta.key
      a.lpMint.key a.user.key lpAmount.toNat) :
    ∃ paid, rt.invokeSigned
      (.transferTokens a.tokenProgram.key a.vault.key a.userAta.key
        a.vaultAuth.key collateral)
      [vaultAuthSeeds a.poolPda.key
        (rt.deriveVaultAuthority a.poolPda.key).2] burned = .ok paid := by
  have hwritable := hvalid.writable_of_next hnext
  obtain ⟨hauthority, w, supply, hw, -, hshows⟩ :=
    hview.tokensBurned hburned
  have hapart : a.userLpAta.key ≠ view.pool.vault := fun heq =>
    hsigned.ne_vaultAuthority
      (WithdrawAccounts.next_mem hnext a.user (by simp)) hvalid.signer _
      (hauthority heq)
  rw [if_neg hapart] at hw
  obtain ⟨t, ht, htmint⟩ := hvalid.payee
  obtain ⟨freeze, hmint⟩ := hview.lpMint
  have hkept := hburned.frame a.userAta.key
    (by rw [← hvalid.lpMint]; exact ht.ne_of_mintAt hmint)
    (hvalid.payee_ne_lpTokens hview hheld)
  have hvault := hshows.vault
  rw [show view.pool.vault = a.vault.key from hvalid.vault] at hvault
  have hroom := hbooks.fits a.userAta.key (by simp) a.vault.key (by simp)
    hvalid.payee_ne t _ ht (by rw [← hvalid.vault]; exact hview.vault) htmint
  dsimp only at hroom
  rw [hvalid.tokenProgram, hvalid.vaultAuth]
  apply hlive.transferTokens (hwritable a.vault (by simp))
    (hwritable a.userAta (by simp)) (.of_vaultAuth _ _ _) hvault
    (ht.of_sameContents (.of_eq hkept)) hvalid.payee_ne.symm htmint.symm rfl
  · dsimp only
    omega
  · omega

end Calls

/-! ## The effect -/

/-- What a withdrawal of `lpAmount` LP that pays `collateral` changes, and
that it changes nothing else. -/
structure WithdrawEffect (d : Deployment Pubkey) (before after : Bank Pubkey)
    (a : WithdrawAccounts Pubkey) (pool : StakePool Pubkey)
    (record : StakeDeposit Pubkey) (lpAmount collateral : ℕ) : Prop where
  clock : after.clock = before.clock
  pool : ∃ pool' : StakePool Pubkey, d.PoolAt after a.poolPda.key pool' ∧
    pool' =
      { pool with
        totalWithdrawn := pool'.totalWithdrawn
        totalLpSupply := pool'.totalLpSupply
        reserved := pool'.reserved } ∧
    pool'.totalWithdrawn.toNat = pool.totalWithdrawn.toNat + collateral ∧
    pool'.totalLpSupply.toNat + lpAmount = pool.totalLpSupply.toNat ∧
    pool'.reservedFields =
      if pool.hwmEnabled then
        pool.reservedFields.refreshHwm before.clock.epoch
          (pool.totalPoolValue.getD 0)
      else pool.reservedFields
  record : ∃ remaining : U64,
    remaining.toNat + lpAmount = record.lpAmount.toNat ∧
      d.DepositAt after a.depositPda.key
        { record with lpAmount := remaining }
  vault : TokensChanged d before after a.vault.key collateral 0
  payee : TokensChanged d before after a.userAta.key 0 collateral
  lpTokens : TokensChanged d before after a.userLpAta.key lpAmount 0
  lpMint : SupplyChanged d before after a.lpMint.key lpAmount 0
  others : ∀ key, (∀ info ∈ [a.poolPda, a.userLpAta, a.lpMint, a.vault,
    a.userAta, a.depositPda], key ≠ info.key) →
      after.accounts key = before.accounts key

namespace WithdrawTrace

variable [DecidableEq Pubkey] {rt : Runtime Pubkey}
  {before after : Bank Pubkey} {accounts : List (AccountInfo Pubkey)}
  {lpAmount : U64} {view : PoolView Pubkey}

/-- The LP account of a withdrawal is neither the vault nor the payee. -/
theorem lpTokens_apart (t : WithdrawTrace rt accounts lpAmount before after)
    (hsigned : SignedByOthers rt.toDeployment accounts)
    (hview : Shows rt.toDeployment before t.a.poolPda.key view) :
    t.a.userLpAta.key ≠ t.a.vault.key ∧
      t.a.userLpAta.key ≠ t.a.userAta.key := by
  have hpool := hview.pool.unique t.poolAt
  obtain ⟨m, -, s, s', hm, -, hs, hs', hsame, hmint, -, -, -, -, hamount⟩ :=
    t.hburned.burned
  have hpositive := toNat_pos.mpr t.hamount
  have hvault : t.a.userLpAta.key ≠ t.a.vault.key := by
    intro heq
    apply t.user_ne hsigned t.a.poolPda.key
    apply (hview.tokensBurned t.hburned).1
    rw [heq, hpool, t.hvault]
  refine ⟨hvault, ?_⟩
  intro heq
  -- Otherwise the LP token is the collateral, and nobody holds any.
  obtain ⟨r, -, q, -, hr, -, hq, -, -, -, hrq, -⟩ := t.hpaid.moved
  have hburnedVault := hview.vault
  rw [hpool, t.hvault] at hburnedVault
  have hkept :=
    t.hburned.frame _ (hburnedVault.ne_of_mintAt hm) hvault.symm
  have hrmint := congrArg TokenAccount.mint
    ((hr.back (.of_eq hkept)).unique hburnedVault)
  rw [← heq] at hq
  have hqmint := congrArg TokenAccount.mint (hq.unique hs')
  have hdegenerate : view.pool.collateralMint = view.pool.lpMint := by
    rw [hpool, t.hlpMint, ← hmint, ← hsame.mint, ← hqmint, ← hrq, hrmint]
  have hzero := hview.unheld hdegenerate _ s hs (by
    rw [hmint, ← t.hlpMint, hpool])
  omega

theorem effect (t : WithdrawTrace rt accounts lpAmount before after)
    (hsigned : SignedByOthers rt.toDeployment accounts)
    (hview : Shows rt.toDeployment before t.a.poolPda.key view)
    (hpayee : t.a.userAta.key ≠ t.a.vault.key) :
    WithdrawEffect rt.toDeployment before after t.a t.pool t.record
      lpAmount.toNat t.collateral.toNat := by
  obtain ⟨hlpVault, hlpPayee⟩ := t.lpTokens_apart hsigned hview
  obtain ⟨hlpTokens, hlpMint⟩ := t.hburned.changed
  obtain ⟨hvault, hpayeePaid⟩ := t.hpaid.changed hpayee.symm
  obtain ⟨m, m', hm, hm', -⟩ := hlpMint
  obtain ⟨r, r', hr, hr', -⟩ := hvault
  obtain ⟨q, q', hq, hq', -⟩ := hpayeePaid
  have hstored : ∀ {key s}, rt.TokenAt t.paid key s → rt.TokenAt after key s :=
    fun hs => t.hafter.tokenAt_iff.mpr (t.hrecorded.tokenAt_iff.mpr hs)
  have hburnedFrame : ∀ {key s}, rt.TokenAt t.burned key s →
      key ≠ t.a.userLpAta.key →
        t.burned.accounts key = before.accounts key :=
    fun hs hne => t.hburned.frame _ (hs.ne_of_mintAt hm') hne
  refine ⟨?_, ?_, ?_, ?_, ?_, ?_, ?_, ?_⟩
  · rw [t.hafter.clock, t.hrecorded.clock, t.hpaid.clock, t.hburned.clock]
  · obtain ⟨withdrawn, supply, reserved, -, hsupply, hpool', hfields⟩ :=
      StakePool.guardedWithdraw_eq_ok t.hfloor t.hpool
    refine ⟨t.pool', ?_, ?_, t.pool'_eq.2, ?_, hfields⟩
    · have hne : t.a.poolPda.key ≠ t.a.depositPda.key :=
        t.hpda ▸ hview.ne_deriveDepositPda _ _
      exact (t.hafter.poolAt_iff hne).mpr
        ⟨t.hrecorded.owner.trans t.poolAt_paid.1, t.hrecorded.data⟩
    · rw [hpool']
    · rw [hpool']
      exact hsupply.symm
  · have hdebit := t.hremaining
    simp only [StakeDeposit.debitLp, bind_eq_ok, okOr_eq_ok,
      checkedSub_eq_some, Except.ok.injEq] at hdebit
    obtain ⟨remaining, hremaining, hrecord⟩ := hdebit
    refine ⟨remaining, hremaining.symm,
      t.hafter.owner.trans t.record_owned, ?_⟩
    rw [t.hafter.data, ← hrecord]
  · exact ((t.hpaid.changed hpayee.symm).1.then_same
      fun _ hs => hstored hs).same_then (hburnedFrame hr hlpVault.symm)
  · exact ((t.hpaid.changed hpayee.symm).2.then_same
      fun _ hs => hstored hs).same_then (hburnedFrame hq hlpPayee.symm)
  · apply hlpTokens.then_same
    intro s hs
    apply hstored
    exact hs.of_sameContents
      (.of_eq (t.hpaid.frame _ hlpVault hlpPayee))
  · apply t.hburned.changed.2.then_same
    intro n hn
    have hframe := t.hpaid.frame _ (hr.ne_of_mintAt hn).symm
      (hq.ne_of_mintAt hn).symm
    exact t.hafter.mintAt (t.hrecorded.mintAt
      (hn.of_sameContents (.of_eq hframe)))
  · intro key hkey
    simp only [List.forall_mem_cons] at hkey
    obtain ⟨hpoolKey, hlpKey, hmintKey, hvaultKey, hpayeeKey, hrecordKey,
      -⟩ := hkey
    rw [t.hafter.others _ hrecordKey, t.hrecorded.others _ hpoolKey,
      t.hpaid.frame _ hvaultKey hpayeeKey, t.hburned.frame _ hmintKey hlpKey]

end WithdrawTrace

/-! ## Success -/

section Handler

variable [DecidableEq Pubkey] [Inhabited Pubkey] {rt : Runtime Pubkey}
  {before after : Bank Pubkey} {accounts : List (AccountInfo Pubkey)}
  {a : WithdrawAccounts Pubkey} {pool : StakePool Pubkey}
  {held : TokenAccount Pubkey} {record : StakeDeposit Pubkey}
  {value lpAmount : U64}

/-- A record of a reachable pool is initialised, names its pool and user, and
holds no more than the LP of the pool. -/
theorem Reachable.record_of_user (h : Reachable rt before)
    {view : PoolView Pubkey} {key user : Pubkey}
    (hview : Shows rt.toDeployment before key view)
    (hrecord :
      rt.DepositAt before (rt.deriveDepositPda key user).1 record) :
    (record.isInitialized = 1 ∧ record.user = user ∧ record.pool = key) ∧
      record.lpAmount.toNat ≤ view.pool.totalLpSupply.toNat := by
  have hshown : view.records user = some record := by
    rw [hview.records]
    exact recordIn_eq_some.mpr hrecord
  have hle := h.weigh_le hview user
  rw [hshown, weigh_some] at hle
  have haddress := (h.sound.records _ _ hrecord).1
  obtain ⟨hpool, huser⟩ := rt.deriveDepositPda_injective haddress
  exact ⟨⟨(h.standing hview).initialized _ _ hshown, huser.symm, hpool.symm⟩,
    hle⟩

/-- What LP of the pool is redeemed for is part of the value, and the value is
in the vault. -/
theorem Reachable.exists_payout (h : Reachable rt before)
    {view : PoolView Pubkey} {key : Pubkey}
    (hview : Shows rt.toDeployment before key view)
    (hvalue : view.pool.totalPoolValue = some value)
    (hpositive : 0 < lpAmount.toNat)
    (hsupply : lpAmount.toNat ≤ view.pool.totalLpSupply.toNat) :
    ∃ collateral : U64,
      collateral.toNat = view.pool.payout value.toNat lpAmount.toNat ∧
      view.pool.calcCollateralForWithdraw lpAmount = some collateral ∧
      collateral.toNat ≤ value.toNat ∧
      collateral.toNat ≤ view.vaultAmount.toNat := by
  have hpayout : view.pool.payout value.toNat lpAmount.toNat ≤ value.toNat :=
    Nat.div_le_of_le_mul (Nat.mul_le_mul_right _ hsupply)
  obtain ⟨collateral, hcollateral⟩ :=
    exists_toNat_eq (lt_of_le_of_lt hpayout value.isLt)
  refine ⟨collateral, hcollateral,
    StakePool.calcCollateralForWithdraw_eq_some.mpr
      ⟨value, hvalue, by omega, hcollateral⟩, by omega, ?_⟩
  have hbook := (StakePool.bookValue_of_totalPoolValue hvalue).1
  have hbacked : view.ledger.value ≤ view.vaultAmount.toNat :=
    (Nat.le_add_right _ _).trans (h.coherent hview).backed
  rw [view.ledger_value] at hbacked
  omega

/-- An allowed withdrawal succeeds: all that follows the checks goes
through. -/
theorem processWithdraw_succeeds (hreachable : Reachable rt before)
    (hsigned : SignedByOthers rt.toDeployment accounts)
    (hlive : TokenProgramLive rt accounts)
    (hbooks : TokenBooks rt.toDeployment before
      [a.userLpAta.key, a.vault.key, a.userAta.key])
    (hnext : WithdrawAccounts.next accounts = .ok a)
    (hvalid : a.Valid rt.toDeployment before pool held)
    (hvalue : pool.totalPoolValue = some value)
    (hheld : lpAmount.toNat ≤ held.amount.toNat)
    (hrecord : rt.DepositAt before a.depositPda.key record)
    (hallows : pool.AllowsWithdraw record before.clock value.toNat
      lpAmount.toNat) :
    ∃ after, processWithdraw rt accounts lpAmount before = .ok after := by
  obtain ⟨view, rfl, hview⟩ := hreachable.shows_pool hvalid.poolAt
  have hstanding := hreachable.standing hview
  have hpda := hrecord
  rw [hvalid.depositPda] at hpda
  obtain ⟨hnames, hrecordLe⟩ := hreachable.record_of_user hview hpda
  have hsupply : lpAmount.toNat ≤ view.pool.totalLpSupply.toNat :=
    hallows.held.trans hrecordLe
  have hpositive := hallows.positive
  have hpaid := hallows.pays
  obtain ⟨collateral, hcollateral, hcalc, hcovered, hvault⟩ :=
    hreachable.exists_payout hview hvalue hpositive hsupply
  obtain ⟨guarded, hguarded⟩ :=
    (StakePool.exists_enforceHwmFloor hvalue hcovered).mpr (by
      rw [hcollateral]
      exact hallows.floor)
  -- The calls.
  obtain ⟨burned, hburn⟩ :=
    hvalid.exists_burned hnext hlive hbooks hview hheld
  have hburned := rt.invokeSigned_effect hburn
  obtain ⟨paid, hpay⟩ := hvalid.exists_paid hnext hsigned hlive hbooks hview
    (by omega) hvault hburned
  have hmoved := rt.invokeSigned_effect hpay
  have hframe := hburned.bankFrame.trans hmoved.bankFrame
  -- The records.
  obtain ⟨pool', hpool'⟩ :=
    StakePool.exists_recordWithdraw_of_guarded hvalue hcovered hsupply hguarded
  obtain ⟨remaining, hremaining⟩ :
      ∃ remaining, record.debitLp lpAmount = .ok remaining := by
    simp only [StakeDeposit.debitLp, checkedSub, if_pos hallows.held, okOr,
      ok_bind]
    exact ⟨_, rfl⟩
  have hrecordPaid := hrecord.of_frame hframe
  obtain ⟨recorded, after, hrecorded, hafter⟩ :=
    exists_storeData_twice (hview.pool.of_frame hframe).1 hrecordPaid.1
      (hvalid.writable a.poolPda (by simp))
      (hvalid.writable a.depositPda (by simp)) (.stakePool pool')
      (.stakeDeposit remaining)
  refine ⟨after, ?_⟩
  simp only [processWithdraw, verifyTokenProgram, Clock.fromAccountInfo,
    bind_eq_ok, require_eq_ok, okOr_eq_ok, exists_const, Except.ok.injEq]
  refine ⟨toNat_pos.mp hpositive, a, hnext, hvalid.signer, view.pool,
    loadPool_of_poolAt hview.pool, hview.initialized,
    StakePool.validateDiscriminator_of_eq hstanding.discriminator,
    hvalid.lpMint, hvalid.vault, hvalid.tokenProgram, hvalid.vaultAuth,
    hvalid.depositPda, hrecord.1, before.clock, ⟨hvalid.clockSysvar, rfl⟩,
    record, loadDeposit_of_depositAt hrecord, hnames, ?_, hallows.held,
    collateral, hcalc, toNat_pos.mp (by omega), guarded, hguarded, burned,
    hburn, paid, hpay, pool', hpool', record,
    loadDeposit_of_depositAt hrecordPaid, remaining, hremaining, recorded,
    hrecorded, hafter⟩
  rw [toNat_saturatingAdd]
  exact hallows.unlocked

omit [Inhabited Pubkey] in
/-- A successful withdrawal was allowed and paid the share of its record. -/
theorem WithdrawTrace.allows
    (t : WithdrawTrace rt accounts lpAmount before after)
    (hvalue : t.pool.totalPoolValue = some value) :
    t.pool.AllowsWithdraw t.record before.clock value.toNat
        lpAmount.toNat ∧
      t.collateral.toNat = t.pool.payout value.toNat lpAmount.toNat := by
  obtain ⟨value', hvalue', -, hcollateral⟩ :=
    StakePool.calcCollateralForWithdraw_eq_some.mp t.hcollateral
  cases hvalue.symm.trans hvalue'
  have hpaid : t.collateral.toNat =
      t.pool.payout value.toNat lpAmount.toNat := hcollateral
  have hsupply : lpAmount.toNat ≤ t.pool.totalLpSupply.toNat := by
    obtain ⟨_, supply, _, -, hsupply, -⟩ :=
      StakePool.guardedWithdraw_eq_ok t.hfloor t.hpool
    omega
  have hcovered : t.collateral.toNat ≤ value.toNat := by
    rw [hpaid]
    exact Nat.div_le_of_le_mul (Nat.mul_le_mul_right _ hsupply)
  have hpositive := toNat_pos.mpr t.hpositive
  have hfloor := (StakePool.exists_enforceHwmFloor hvalue hcovered).mp
    ⟨t.guarded, t.hfloor⟩
  have hremaining := StakeDeposit.debitLp_eq_ok t.hremaining
  have hunlocked := t.hcooldown
  rw [toNat_saturatingAdd] at hunlocked
  rw [hpaid] at hfloor
  exact ⟨⟨toNat_pos.mpr t.hamount, hunlocked, by omega, by omega, hfloor⟩,
    hpaid⟩

/-- Exactly the allowed withdrawals succeed. -/
theorem processWithdraw_succeeds_iff (hreachable : Reachable rt before)
    (hsigned : SignedByOthers rt.toDeployment accounts)
    (hlive : TokenProgramLive rt accounts)
    (hbooks : TokenBooks rt.toDeployment before
      [a.userLpAta.key, a.vault.key, a.userAta.key])
    (hnext : WithdrawAccounts.next accounts = .ok a)
    (hvalid : a.Valid rt.toDeployment before pool held)
    (hvalue : pool.totalPoolValue = some value)
    (hheld : lpAmount.toNat ≤ held.amount.toNat) :
    (∃ after, processWithdraw rt accounts lpAmount before = .ok after) ↔
      ∃ record, rt.DepositAt before a.depositPda.key record ∧
        pool.AllowsWithdraw record before.clock value.toNat
          lpAmount.toNat := by
  constructor
  · rintro ⟨after, h⟩
    obtain ⟨t⟩ := processWithdraw_trace h
    cases hnext.symm.trans t.hnext
    cases hvalid.poolAt.unique t.poolAt
    exact ⟨t.record, t.hrecord, (t.allows hvalue).1⟩
  · rintro ⟨record, hrecord, hallows⟩
    exact processWithdraw_succeeds hreachable hsigned hlive hbooks hnext
      hvalid hvalue hheld hrecord hallows

/-- A holder with valid accounts withdraws successfully exactly when the
withdrawal is allowed, and then it changes what a withdrawal changes and
nothing else. -/
theorem processWithdraw_exact (hreachable : Reachable rt before)
    (hsigned : SignedByOthers rt.toDeployment accounts)
    (hlive : TokenProgramLive rt accounts)
    (hbooks : TokenBooks rt.toDeployment before
      [a.userLpAta.key, a.vault.key, a.userAta.key])
    (hnext : WithdrawAccounts.next accounts = .ok a)
    (hvalid : a.Valid rt.toDeployment before pool held)
    (hvalue : pool.totalPoolValue = some value)
    (hheld : lpAmount.toNat ≤ held.amount.toNat) :
    ((∃ after, processWithdraw rt accounts lpAmount before = .ok after) ↔
      ∃ record, rt.DepositAt before a.depositPda.key record ∧
        pool.AllowsWithdraw record before.clock value.toNat
          lpAmount.toNat) ∧
      ∀ after, processWithdraw rt accounts lpAmount before = .ok after →
        ∃ record, rt.DepositAt before a.depositPda.key record ∧
          WithdrawEffect rt.toDeployment before after a pool record
            lpAmount.toNat (pool.payout value.toNat lpAmount.toNat) := by
  refine ⟨processWithdraw_succeeds_iff hreachable hsigned hlive hbooks hnext
    hvalid hvalue hheld, ?_⟩
  intro after h
  obtain ⟨t⟩ := processWithdraw_trace h
  cases hnext.symm.trans t.hnext
  cases hvalid.poolAt.unique t.poolAt
  obtain ⟨view, -, hview⟩ := hreachable.shows_pool t.poolAt
  rw [← (t.allows hvalue).2]
  exact ⟨t.record, t.hrecord, t.effect hsigned hview hvalid.payee_ne⟩

end Handler

namespace Reference

/-- A deposit of 1000 whose lock is over. -/
def unlockedMarket : List (Transaction Address) :=
  [initPool 10, openLpAccount alice, deposit alice 1000, waitUntil 1200 1]

def withdrawInfos (party : Party) : WithdrawAccounts Address where
  user := signer party.key
  poolPda := writable poolKey
  userLpAta := writable party.lpTokens
  lpMint := writable lpMint
  vault := writable vault
  userAta := writable party.tokens
  vaultAuth := readonly vaultAuthority
  depositPda := writable (.stakeDeposit poolKey party.key)
  tokenProgram := readonly .splToken
  clockSysvar := readonly .clockSysvar

def withdrawAccounts (party : Party) : List (AccountInfo Address) :=
  [signer party.key, writable poolKey, writable party.lpTokens,
    writable lpMint, writable vault, writable party.tokens,
    readonly vaultAuthority, writable (.stakeDeposit poolKey party.key),
    readonly .splToken, readonly .clockSysvar]

/-- What alice holds before her withdrawal. -/
def aliceLpTokens : TokenAccount Address := ⟨lpMint, alice.key, 1000, none⟩

theorem unlockedMarket_withdraw_valid :
    ∃ pool, deployment.PoolAt (bankAfter unlockedMarket) poolKey pool ∧
      pool.totalPoolValue = some 1000 ∧
      (withdrawInfos alice).Valid deployment (bankAfter unlockedMarket) pool
        aliceLpTokens := by
  have hread : (poolIn (bankAfter unlockedMarket)).map (fun pool =>
      (pool.totalPoolValue, pool.lpMint, pool.vault, pool.collateralMint)) =
        some (some 1000, lpMint, vault, collateralMint) := by decide +kernel
  obtain ⟨pool, hpool, hread⟩ := exists_poolAt hread
  simp only [Prod.mk.injEq] at hread
  obtain ⟨hvalue, hmint, hvault, hcollateral⟩ := hread
  refine ⟨pool, hpool, hvalue, hpool, rfl, hmint, hvault, rfl, rfl, rfl, rfl,
    by decide, ⟨by decide +kernel, by decide +kernel⟩, hmint.symm, rfl,
    ⟨⟨collateralMint, alice.key, 0x7ffffffffffffc18, none⟩,
      ⟨by decide +kernel, by decide +kernel⟩, hcollateral.symm⟩, by decide⟩

theorem unlockedMarket_withdraw_exact : ∃ pool,
    deployment.PoolAt (bankAfter unlockedMarket) poolKey pool ∧
      ((∃ after, processWithdraw runtime (withdrawAccounts alice) 400
          (bankAfter unlockedMarket) = .ok after) ↔
        ∃ record, deployment.DepositAt (bankAfter unlockedMarket)
            (.stakeDeposit poolKey alice.key) record ∧
          pool.AllowsWithdraw record ⟨1200, 1⟩ 1000 400) ∧
      ∀ after, processWithdraw runtime (withdrawAccounts alice) 400
          (bankAfter unlockedMarket) = .ok after →
        ∃ record, deployment.DepositAt (bankAfter unlockedMarket)
            (.stakeDeposit poolKey alice.key) record ∧
          WithdrawEffect deployment (bankAfter unlockedMarket) after
            (withdrawInfos alice) pool record 400
            (pool.payout 1000 400) := by
  obtain ⟨pool, hpool, hvalue, hvalid⟩ := unlockedMarket_withdraw_valid
  have hsigned : SignedByOthers deployment (withdrawAccounts alice) :=
    @authentic_sound (withdraw alice 400) (by decide)
  have hclock : (bankAfter unlockedMarket).clock = ⟨1200, 1⟩ := by
    decide +kernel
  have hexact := @processWithdraw_exact _ _ _ runtime _ _ _ _ _ 1000 400
    (bankAfter_reachable (by decide +kernel)) hsigned
    (runtime_tokenProgramLive _)
    (tokenBooks_of_keepsBooks (by decide +kernel)) rfl hvalid hvalue
    (by decide)
  rw [hclock] at hexact
  exact ⟨pool, hpool, hexact⟩

end Reference

end PercolatorVault
