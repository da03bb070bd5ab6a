import PercolatorVault.VaultAuthority

/-!
# Flushing up to the pool value

The ceiling of a flush, the pool value and the saturating helper are three
formulas for one number.  A flush by the admin passes its checks exactly up to
that number, lowers it by the flushed amount, and the return of the same
amount restores it.
-/

namespace PercolatorVault

open CheckedArithmetic
open FallibleSteps

variable {Pubkey : Type}

/-! ## One number -/

/-- Where the ceiling is defined, no step of the saturating formula
saturates. -/
theorem StakePool.flushCeiling_flushAvailable {pool : StakePool Pubkey}
    {available : U64} (h : pool.flushCeiling = some available) :
    available = flushAvailable pool.totalDeposited pool.totalReturned
      pool.totalWithdrawn pool.totalFlushed := by
  obtain ⟨hfits, heq⟩ := flushCeiling_eq_some.mp h
  unfold outflow at heq
  apply BitVec.eq_of_toNat_eq
  simp only [flushAvailable, toNat_saturatingSub, toNat_saturatingAdd]
  omega

/-- Moving an amount out lowers the value by it. -/
theorem StakePool.totalPoolValue_of_outflow {pool pool' : StakePool Pubkey}
    {value : U64} {amount : ℕ} (hvalue : pool.totalPoolValue = some value)
    (hamount : amount ≤ value.toNat) (hinflow : pool'.inflow = pool.inflow)
    (houtflow : pool'.outflow = pool.outflow + amount) :
    ∃ value', pool'.totalPoolValue = some value' ∧
      value'.toNat + amount = value.toNat := by
  obtain ⟨hfits, hout, heq⟩ := totalPoolValue_eq_some.mp hvalue
  have hvalue := value.isLt
  obtain ⟨value', hvalue'⟩ :
      ∃ value' : U64, value'.toNat = value.toNat - amount :=
    exists_toNat_eq (by omega)
  refine ⟨value', ?_, by omega⟩
  rw [totalPoolValue_eq_some, hinflow, houtflow]
  omega

/-- Equal amounts in and out leave the value alone while the sum fits. -/
theorem StakePool.totalPoolValue_of_roundTrip {pool pool' : StakePool Pubkey}
    {value : U64} {amount : ℕ} (hvalue : pool.totalPoolValue = some value)
    (hinflow : pool'.inflow = pool.inflow + amount)
    (houtflow : pool'.outflow = pool.outflow + amount)
    (hfits : pool.inflow + amount < 2 ^ 64) :
    pool'.totalPoolValue = pool.totalPoolValue := by
  obtain ⟨-, hout, heq⟩ := totalPoolValue_eq_some.mp hvalue
  rw [hvalue, totalPoolValue_eq_some, hinflow, houtflow]
  omega

/-! ## The checks of a flush -/

/-- The caller is the admin of an insurance pool and passes its accounts. -/
structure FlushAccounts.Valid (d : Deployment Pubkey) (bank : Bank Pubkey)
    (a : FlushAccounts Pubkey) (pool : StakePool Pubkey) : Prop where
  poolAt : d.PoolAt bank a.poolPda.key pool
  initialized : pool.isInitialized = 1
  mode : pool.poolMode = 0
  signer : a.caller.isSigner = true
  admin : pool.admin = a.caller.key
  slab : pool.slab = a.slab.key
  vault : pool.vault = a.vault.key
  percolatorProgram : pool.percolatorProgram = a.percolatorProgram.key
  tokenProgram : a.tokenProgram.key = d.splTokenId
  vaultAuth : a.vaultAuth.key = (d.deriveVaultAuthority a.poolPda.key).1

section Handlers

variable [DecidableEq Pubkey] [Inhabited Pubkey] (rt : Runtime Pubkey)

/-- Everything a flush checks before it calls the wrapper. -/
def flushChecks (accounts : List (AccountInfo Pubkey)) (amount : U64)
    (bank : Bank Pubkey) :
    Except ProgramError (FlushAccounts Pubkey × StakePool Pubkey) := do
  require (amount ≠ 0) StakeError.zeroAmount
  let a ← FlushAccounts.next accounts
  require (a.caller.isSigner = true) .missingRequiredSignature
  let pool ← loadPool bank a.poolPda
  require (pool.isInitialized = 1) StakeError.notInitialized
  validateFlushPoolMode pool
  require (pool.admin = a.caller.key) StakeError.unauthorized
  require (pool.slab = a.slab.key) StakeError.invalidPda
  require (pool.vault = a.vault.key) StakeError.invalidPda
  require (pool.percolatorProgram = a.percolatorProgram.key)
    StakeError.invalidPercolatorProgram
  verifyTokenProgram rt.toDeployment a.tokenProgram
  let available ← okOr pool.flushCeiling StakeError.overflow
  require (amount.toNat ≤ available.toNat) .insufficientFunds
  require (a.vaultAuth.key = (rt.deriveVaultAuthority a.poolPda.key).1)
    StakeError.invalidPda
  .ok (a, pool)

/-- What a flush does once its checks have passed. -/
def flushTransfer (a : FlushAccounts Pubkey) (pool : StakePool Pubkey)
    (amount : U64) (bank : Bank Pubkey) :
    Except ProgramError (Bank Pubkey) := do
  let bank ← cpiTopUpInsurance rt a.percolatorProgram a.vaultAuth a.slab
    a.vault a.wrapperVault a.tokenProgram amount
    (vaultAuthSeeds a.poolPda.key (rt.deriveVaultAuthority a.poolPda.key).2)
    bank
  let totalFlushed ← okOr (checkedAdd pool.totalFlushed amount)
    StakeError.overflow
  storePool rt.toDeployment bank a.poolPda
    { pool with totalFlushed := totalFlushed }

variable {rt} {accounts : List (AccountInfo Pubkey)} {amount : U64}
  {bank : Bank Pubkey} {a : FlushAccounts Pubkey} {pool : StakePool Pubkey}

theorem processFlushToInsurance_eq :
    processFlushToInsurance rt accounts amount bank = (do
      let (a, pool) ← flushChecks rt accounts amount bank
      flushTransfer rt a pool amount bank) := by
  simp only [processFlushToInsurance, flushChecks, flushTransfer, bind_assoc,
    ok_bind]

/-- With valid accounts only the amount decides. -/
theorem flushChecks_eq_ok_iff (hnext : FlushAccounts.next accounts = .ok a)
    (hvalid : a.Valid rt.toDeployment bank pool)
    {passed : FlushAccounts Pubkey × StakePool Pubkey} :
    flushChecks rt accounts amount bank = .ok passed ↔
      0 < amount.toNat ∧ ∃ value, pool.totalPoolValue = some value ∧
        amount.toNat ≤ value.toNat ∧ (a, pool) = passed := by
  have hload := loadPool_of_poolAt hvalid.poolAt
  simp only [flushChecks, validateFlushPoolMode, verifyTokenProgram,
    bind_eq_ok, require_eq_ok, okOr_eq_ok, exists_const, hnext,
    Except.ok.injEq, exists_eq_left', hload, hvalid.signer,
    hvalid.initialized, hvalid.mode, ← hvalid.admin, ← hvalid.slab,
    ← hvalid.vault, ← hvalid.percolatorProgram, hvalid.tokenProgram,
    hvalid.vaultAuth, StakePool.flushCeiling_eq hvalid.mode, true_and,
    toNat_pos, ne_eq]

/-! ## The pool record afterwards -/

theorem processFlushToInsurance_pool {after : Bank Pubkey}
    (hnext : FlushAccounts.next accounts = .ok a)
    (hvalid : a.Valid rt.toDeployment bank pool)
    (h : processFlushToInsurance rt accounts amount bank = .ok after) :
    flushChecks rt accounts amount bank = .ok (a, pool) ∧
      ∃ totalFlushed, checkedAdd pool.totalFlushed amount = some totalFlushed ∧
        rt.PoolAt after a.poolPda.key
          { pool with totalFlushed := totalFlushed } := by
  rw [processFlushToInsurance_eq, bind_eq_ok] at h
  obtain ⟨passed, hchecks, htransfer⟩ := h
  obtain ⟨-, -, -, -, rfl⟩ := (flushChecks_eq_ok_iff hnext hvalid).mp hchecks
  refine ⟨hchecks, ?_⟩
  simp only [flushTransfer, bind_eq_ok, okOr_eq_ok] at htransfer
  obtain ⟨middle, hcall, totalFlushed, htotal, hstore⟩ := htransfer
  obtain ⟨-, moved, hmoved, hforeign⟩ := cpiTopUpInsurance_effect hcall
  have hmiddle := hforeign.poolAt (hvalid.poolAt.of_frame hmoved.bankFrame)
  exact ⟨totalFlushed, htotal, (storeData_stored hstore).poolAt hmiddle⟩

theorem processAdminWithdrawInsurance_pool {restored : Bank Pubkey}
    {r : WithdrawInsuranceAccounts Pubkey}
    (hnext : WithdrawInsuranceAccounts.next accounts = .ok r)
    (hpool : rt.PoolAt bank r.poolPda.key pool)
    (h : processAdminWithdrawInsurance rt accounts amount bank =
      .ok restored) :
    pool.poolMode = 0 ∧
      ∃ totalReturned,
        checkedAdd pool.totalReturned amount = some totalReturned ∧
        rt.PoolAt restored r.poolPda.key
          { pool with totalReturned := totalReturned } := by
  simp only [processAdminWithdrawInsurance, validateWithdrawInsurancePoolMode,
    validateReturnVault, verifyTokenProgram, bind_eq_ok, require_eq_ok,
    okOr_eq_ok, exists_const, hnext, Except.ok.injEq, exists_eq_left',
    loadPool_of_poolAt hpool] at h
  obtain ⟨bump, -, hmode, -, -, -, middle, hcall, reread, hreread,
    totalReturned, htotal, hstore⟩ := h
  obtain ⟨-, -, moved, hmoved, hforeign⟩ := cpiWithdrawInsurance_effect hcall
  have hmiddle := hforeign.poolAt (hpool.of_frame hmoved.bankFrame)
  cases (loadPool_of_poolAt hmiddle).symm.trans hreread
  exact ⟨hmode, totalReturned, htotal, (storeData_stored hstore).poolAt hmiddle⟩

/-! ## Flush and return -/

/-- The record a flush leaves is worth the flushed amount less. -/
theorem processFlushToInsurance_value {after : Bank Pubkey}
    (hnext : FlushAccounts.next accounts = .ok a)
    (hvalid : a.Valid rt.toDeployment bank pool)
    (h : processFlushToInsurance rt accounts amount bank = .ok after) :
    ∃ flushed value value', rt.PoolAt after a.poolPda.key flushed ∧
      flushed.inflow = pool.inflow ∧
      flushed.outflow = pool.outflow + amount.toNat ∧
      pool.totalPoolValue = some value ∧
      flushed.totalPoolValue = some value' ∧
      value'.toNat + amount.toNat = value.toNat := by
  obtain ⟨hchecks, totalFlushed, htotal, hpool⟩ :=
    processFlushToInsurance_pool hnext hvalid h
  obtain ⟨-, value, hvalue, hle, -⟩ :=
    (flushChecks_eq_ok_iff hnext hvalid).mp hchecks
  have htotal := checkedAdd_eq_some.mp htotal
  let flushed := { pool with totalFlushed := totalFlushed }
  have hinflow : flushed.inflow = pool.inflow := rfl
  have houtflow : flushed.outflow = pool.outflow + amount.toNat := by
    simp only [StakePool.outflow, flushed]
    omega
  obtain ⟨value', hvalue', hsum⟩ :=
    StakePool.totalPoolValue_of_outflow hvalue hle hinflow houtflow
  exact ⟨flushed, value, value', hpool, hinflow, houtflow, hvalue, hvalue',
    hsum⟩

variable (rt) in
/-- After `flushed` was left by a flush from `pool`, the return of `amount`
restores the value, whatever else happened that kept the totals. -/
def ReturnRestores (key : Pubkey) (amount : U64)
    (pool flushed : StakePool Pubkey) : Prop :=
  ∀ accounts r bank returning restored,
    WithdrawInsuranceAccounts.next accounts = .ok r →
    r.poolPda.key = key → rt.PoolAt bank key returning →
    returning.inflow = flushed.inflow → returning.outflow = flushed.outflow →
    processAdminWithdrawInsurance rt accounts amount bank = .ok restored →
    pool.totalDeposited.toNat + pool.totalReturned.toNat + amount.toNat <
      2 ^ 64 →
    ∃ pool', rt.PoolAt restored key pool' ∧
      pool'.totalPoolValue = pool.totalPoolValue

theorem returnRestores {key : Pubkey} {pool flushed : StakePool Pubkey}
    {value : U64} (hmode : pool.poolMode = 0)
    (hvalue : pool.totalPoolValue = some value)
    (hinflow : flushed.inflow = pool.inflow)
    (houtflow : flushed.outflow = pool.outflow + amount.toNat) :
    ReturnRestores rt key amount pool flushed := by
  intro accounts r bank returning restored hnext hkey hpool hsame hleft
    hrestore hfits
  subst hkey
  obtain ⟨hmode', totalReturned, htotal, hrestored⟩ :=
    processAdminWithdrawInsurance_pool hnext hpool hrestore
  refine ⟨_, hrestored, ?_⟩
  have htotal := checkedAdd_eq_some.mp htotal
  rw [hinflow] at hsame
  rw [houtflow] at hleft
  refine StakePool.totalPoolValue_of_roundTrip hvalue ?_ hleft ?_
  · rw [← hsame]
    simp only [StakePool.inflow]
    omega
  · simpa [StakePool.inflow, hmode] using hfits

/-- A flush passes its checks exactly up to the pool value, lowers the value
by its amount, and the return of that amount restores it. -/
theorem flush_upToPoolValue :
    (∀ pool : StakePool Pubkey, pool.poolMode = 0 →
      pool.flushCeiling = pool.totalPoolValue ∧
      ∀ available, pool.flushCeiling = some available →
        available = flushAvailable pool.totalDeposited pool.totalReturned
          pool.totalWithdrawn pool.totalFlushed) ∧
    ∀ accounts a bank pool, ∀ amount : U64,
      FlushAccounts.next accounts = .ok a →
      a.Valid rt.toDeployment bank pool →
      (processFlushToInsurance rt accounts amount bank = do
        let (a, pool) ← flushChecks rt accounts amount bank
        flushTransfer rt a pool amount bank) ∧
      ((∃ passed, flushChecks rt accounts amount bank = .ok passed) ↔
        0 < amount.toNat ∧ ∃ value, pool.totalPoolValue = some value ∧
          amount.toNat ≤ value.toNat) ∧
      (∀ passed, flushChecks rt accounts amount bank = .ok passed →
        passed = (a, pool) ∧ ∃ totalFlushed,
          checkedAdd pool.totalFlushed amount = some totalFlushed) ∧
      ∀ after, processFlushToInsurance rt accounts amount bank = .ok after →
        ∃ flushed value value', rt.PoolAt after a.poolPda.key flushed ∧
          pool.totalPoolValue = some value ∧
          flushed.totalPoolValue = some value' ∧
          value'.toNat + amount.toNat = value.toNat ∧
          ReturnRestores rt a.poolPda.key amount pool flushed := by
  refine ⟨fun pool hmode => ⟨StakePool.flushCeiling_eq hmode,
    fun _ => StakePool.flushCeiling_flushAvailable⟩, ?_⟩
  intro accounts a bank pool amount hnext hvalid
  refine ⟨processFlushToInsurance_eq, ?_, ?_, ?_⟩
  · simp only [flushChecks_eq_ok_iff hnext hvalid]
    constructor
    · rintro ⟨-, hpositive, value, hvalue, hle, -⟩
      exact ⟨hpositive, value, hvalue, hle⟩
    · rintro ⟨hpositive, value, hvalue, hle⟩
      exact ⟨(a, pool), hpositive, value, hvalue, hle, rfl⟩
  · intro passed hchecks
    obtain ⟨-, value, hvalue, hle, hpassed⟩ :=
      (flushChecks_eq_ok_iff hnext hvalid).mp hchecks
    obtain ⟨hin, -, heq⟩ := StakePool.totalPoolValue_eq_some.mp hvalue
    obtain ⟨totalFlushed, htotal⟩ : ∃ total : U64,
        total.toNat = pool.totalFlushed.toNat + amount.toNat := by
      apply exists_toNat_eq
      unfold StakePool.outflow at heq
      omega
    exact ⟨hpassed.symm, totalFlushed, checkedAdd_eq_some.mpr htotal.symm⟩
  · intro after h
    obtain ⟨flushed, value, value', hpool, hinflow, houtflow, hvalue,
      hvalue', hsum⟩ := processFlushToInsurance_value hnext hvalid h
    exact ⟨flushed, value, value', hpool, hvalue, hvalue', hsum,
      returnRestores hvalid.mode hvalue hinflow houtflow⟩

end Handlers

namespace Reference

def flushableMarket : List (Transaction Address) :=
  [initPool 10, openLpAccount alice, deposit alice 1000]

def flushInfos : FlushAccounts Address where
  caller := signer admin
  poolPda := writable poolKey
  vault := writable vault
  vaultAuth := readonly vaultAuthority
  slab := writable slab
  wrapperVault := writable wrapperVault
  percolatorProgram := readonly percolator
  tokenProgram := readonly .splToken

def flushAccounts : List (AccountInfo Address) :=
  [signer admin, writable poolKey, writable vault, readonly vaultAuthority,
    writable slab, writable wrapperVault, readonly percolator,
    readonly .splToken]

theorem flushableMarket_flush_valid :
    ∃ pool, deployment.PoolAt (bankAfter flushableMarket) poolKey pool ∧
      pool.totalPoolValue = some 1000 ∧
      flushInfos.Valid deployment (bankAfter flushableMarket) pool := by
  have hread : (poolIn (bankAfter flushableMarket)).map (fun pool =>
      (pool.totalPoolValue, [pool.isInitialized, pool.poolMode],
        [pool.admin, pool.slab, pool.vault, pool.percolatorProgram])) =
      some (some 1000, [1, 0], [admin, slab, vault, percolator]) := by
    decide +kernel
  obtain ⟨pool, hpool, hread⟩ := exists_poolAt hread
  simp only [Prod.mk.injEq, List.cons.injEq, and_true] at hread
  obtain ⟨hvalue, ⟨hinit, hmode⟩, hadmin, hslab, hvault, hprogram⟩ := hread
  exact ⟨pool, hpool, hvalue, hpool, hinit, hmode, rfl, hadmin, hslab, hvault,
    hprogram, rfl, rfl⟩

/-- The whole value passes the checks, one unit more does not, and a flush of
400 leaves 600. -/
theorem flushableMarket_flush_upToPoolValue : ∃ pool,
    deployment.PoolAt (bankAfter flushableMarket) poolKey pool ∧
      (∃ passed, flushChecks runtime flushAccounts 1000
        (bankAfter flushableMarket) = .ok passed) ∧
      (¬ ∃ passed, flushChecks runtime flushAccounts 1001
        (bankAfter flushableMarket) = .ok passed) ∧
      ∀ after, processFlushToInsurance runtime flushAccounts 400
          (bankAfter flushableMarket) = .ok after →
        ∃ flushed, deployment.PoolAt after poolKey flushed ∧
          flushed.totalPoolValue = some 600 ∧
          ReturnRestores runtime poolKey 400 pool flushed := by
  obtain ⟨pool, hpool, hvalue, hvalid⟩ := flushableMarket_flush_valid
  have hexact := (@flush_upToPoolValue _ _ _ runtime).2 flushAccounts
    flushInfos (bankAfter flushableMarket) pool
  have hwhole := (hexact 1000 rfl hvalid).2.1
  have hmore := (hexact 1001 rfl hvalid).2.1
  refine ⟨pool, hpool, hwhole.mpr ⟨by decide, 1000, hvalue, le_refl _⟩, ?_, ?_⟩
  · intro hpassed
    obtain ⟨-, value, hvalue', hle⟩ := hmore.mp hpassed
    cases hvalue.symm.trans hvalue'
    exact absurd hle (by decide)
  · intro after h
    obtain ⟨flushed, value, value', hflushed, hbefore, hafter, hsum,
      hrestores⟩ := (hexact 400 rfl hvalid).2.2.2 after h
    cases hvalue.symm.trans hbefore
    have hleft : value' = 600 := by
      apply BitVec.eq_of_toNat_eq
      change value'.toNat + 400 = 1000 at hsum
      change value'.toNat = 600
      omega
    subst hleft
    exact ⟨flushed, hflushed, hafter, hrestores⟩

end Reference

end PercolatorVault
