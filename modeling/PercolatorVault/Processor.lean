import PercolatorVault.Bank

/-!
# The instruction handlers

Every handler takes the account list and the bank, performs its checks in the
order of the source and returns the bank it leaves behind.  A failing handler
returns only its error: the runtime rolls the bank back.  Pool and deposit
records are written back once, when the handler is done with them; a write is
accepted by the runtime only for a writable account of the program.
-/

namespace PercolatorVault

open CheckedArithmetic
open FallibleSteps
open LittleEndian

variable {Pubkey : Type} [DecidableEq Pubkey]

/-! ## Reading and writing accounts -/

def verifyTokenProgram (d : Deployment Pubkey)
    (tokenProgram : AccountInfo Pubkey) : Except ProgramError Unit :=
  require (tokenProgram.key = d.splTokenId) .incorrectProgramId

def Clock.fromAccountInfo (d : Deployment Pubkey) (bank : Bank Pubkey)
    (info : AccountInfo Pubkey) : Except ProgramError Clock := do
  require (info.key = d.clockId) .invalidArgument
  .ok bank.clock

/-- Cast the first bytes of an account to a pool; a shorter account panics. -/
def loadPool [Inhabited Pubkey] (bank : Bank Pubkey)
    (info : AccountInfo Pubkey) : Except ProgramError (StakePool Pubkey) :=
  match (bank.accounts info.key).data with
  | .stakePool pool => .ok pool
  | .zeroed length =>
      if stakePoolSize ≤ length then .ok StakePool.zeroed
      else .error .programFailedToComplete
  | _ => .error .programFailedToComplete

def loadDeposit [Inhabited Pubkey] (bank : Bank Pubkey)
    (info : AccountInfo Pubkey) : Except ProgramError (StakeDeposit Pubkey) :=
  match (bank.accounts info.key).data with
  | .stakeDeposit deposit => .ok deposit
  | .zeroed length =>
      if stakeDepositSize ≤ length then .ok StakeDeposit.zeroed
      else .error .programFailedToComplete
  | _ => .error .programFailedToComplete

/-- The runtime accepts a changed account only if the program owns it and the
instruction marked it writable. -/
def storeData (d : Deployment Pubkey) (bank : Bank Pubkey)
    (info : AccountInfo Pubkey) (data : AccountData Pubkey) :
    Except ProgramError (Bank Pubkey) :=
  if (bank.accounts info.key).data = data then
    .ok bank
  else do
    require ((bank.accounts info.key).owner = d.programId)
      .externalAccountDataModified
    require (info.isWritable = true) .readonlyDataModified
    .ok (bank.setData info.key data)

def storePool (d : Deployment Pubkey) (bank : Bank Pubkey)
    (info : AccountInfo Pubkey) (pool : StakePool Pubkey) :
    Except ProgramError (Bank Pubkey) :=
  storeData d bank info (.stakePool pool)

def storeDeposit (d : Deployment Pubkey) (bank : Bank Pubkey)
    (info : AccountInfo Pubkey) (deposit : StakeDeposit Pubkey) :
    Except ProgramError (Bank Pubkey) :=
  storeData d bank info (.stakeDeposit deposit)

/-- `spl_token::state::Account::unpack`. -/
def unpackTokenAccount (bank : Bank Pubkey) (info : AccountInfo Pubkey) :
    Except ProgramError (TokenAccount Pubkey) :=
  match (bank.accounts info.key).data with
  | .tokenAccount account => .ok account
  | _ => .error .invalidAccountData

/-! ## Signer seeds -/

def poolSeeds (slab : Pubkey) (bump : U8) : List (Seed Pubkey) :=
  [.literal "stake_pool", .key slab, .bump bump]

def vaultAuthSeeds (pool : Pubkey) (bump : U8) : List (Seed Pubkey) :=
  [.literal "vault_auth", .key pool, .bump bump]

def depositSeeds (pool user : Pubkey) (bump : U8) : List (Seed Pubkey) :=
  [.literal "stake_deposit", .key pool, .key user, .bump bump]

/-! ## Wrapper calls -/

section WrapperCalls

variable (rt : Runtime Pubkey)

def readonlySigner (key : Pubkey) : AccountMeta Pubkey := ⟨key, true, false⟩
def readonlyAccount (key : Pubkey) : AccountMeta Pubkey := ⟨key, false, false⟩
def writableAccount (key : Pubkey) : AccountMeta Pubkey := ⟨key, false, true⟩

def pushU128FromU64 (amount : U64) : List U8 :=
  leBytes 16 (asU128 amount).toNat

def cpiTopUpInsurance
    (percolatorProgram signer slab signerAta wrapperVault tokenProgram :
      AccountInfo Pubkey) (amount : U64) (signerSeeds : List (Seed Pubkey))
    (bank : Bank Pubkey) : Except ProgramError (Bank Pubkey) :=
  rt.invokeSigned
    (.wrapper percolatorProgram.key
      [readonlySigner signer.key, writableAccount slab.key,
        writableAccount signerAta.key, writableAccount wrapperVault.key,
        readonlyAccount tokenProgram.key]
      (tagTopUpInsurance :: pushU128FromU64 amount))
    [signerSeeds] bank

def cpiUpdateAuthority
    (percolatorProgram currentAdmin newAuthority slab : AccountInfo Pubkey)
    (newAuthoritySeeds : List (Seed Pubkey)) (bank : Bank Pubkey) :
    Except ProgramError (Bank Pubkey) :=
  rt.invokeSigned
    (.wrapper percolatorProgram.key
      [readonlySigner currentAdmin.key, readonlySigner newAuthority.key,
        writableAccount slab.key]
      (tagUpdateAuthority :: rt.pubkeyToBytes newAuthority.key))
    [newAuthoritySeeds] bank

def cpiUpdateAssetAuthority
    (percolatorProgram currentAuthority newAuthority slab :
      AccountInfo Pubkey) (assetIndex : U16) (kind : U8)
    (signerSeeds : List (List (Seed Pubkey))) (bank : Bank Pubkey) :
    Except ProgramError (Bank Pubkey) :=
  rt.invokeSigned
    (.wrapper percolatorProgram.key
      [readonlySigner currentAuthority.key, readonlySigner newAuthority.key,
        writableAccount slab.key]
      (tagUpdateAssetAuthority ::
        (leBytes 2 assetIndex.toNat ++
          kind :: rt.pubkeyToBytes newAuthority.key)))
    signerSeeds bank

/-- Retired wrapper path: always rejected. -/
def cpiSetRiskThreshold (_percolatorProgram _adminPda _slab :
    AccountInfo Pubkey) (_newThreshold : U128)
    (_adminSeeds : List (Seed Pubkey)) (_bank : Bank Pubkey) :
    Except ProgramError (Bank Pubkey) :=
  .error .invalidInstructionData

/-- Retired wrapper path: always rejected. -/
def cpiSetMaintenanceFee (_percolatorProgram _adminPda _slab :
    AccountInfo Pubkey) (_newFee : U128)
    (_adminSeeds : List (Seed Pubkey)) (_bank : Bank Pubkey) :
    Except ProgramError (Bank Pubkey) :=
  .error .invalidInstructionData

def cpiResolveMarket
    (percolatorProgram adminPda slab : AccountInfo Pubkey)
    (adminSeeds : List (Seed Pubkey)) (bank : Bank Pubkey) :
    Except ProgramError (Bank Pubkey) :=
  rt.invokeSigned
    (.wrapper percolatorProgram.key
      [readonlySigner adminPda.key, writableAccount slab.key]
      [tagResolveMarket])
    [adminSeeds] bank

def cpiWithdrawInsurance
    (percolatorProgram authority slab destToken wrapperVault
      wrapperVaultAuthority tokenProgram : AccountInfo Pubkey)
    (amount : U64) (authoritySeeds : List (Seed Pubkey))
    (bank : Bank Pubkey) : Except ProgramError (Bank Pubkey) :=
  rt.invokeSigned
    (.wrapper percolatorProgram.key
      [readonlySigner authority.key, writableAccount slab.key,
        writableAccount destToken.key, writableAccount wrapperVault.key,
        readonlyAccount wrapperVaultAuthority.key,
        readonlyAccount tokenProgram.key]
      (tagWithdrawInsurance :: pushU128FromU64 amount))
    [authoritySeeds] bank

end WrapperCalls

/-! ## Shared helpers -/

/-- Create a program-owned account, or finish the creation of one that was
funded beforehand. -/
def createOrAdoptPda (rt : Runtime Pubkey) (target payer : AccountInfo Pubkey)
    (owner : Pubkey) (space : ℕ) (signerSeeds : List (Seed Pubkey))
    (bank : Bank Pubkey) : Except ProgramError (Bank Pubkey) :=
  let need := rt.minimumBalance space
  if (bank.accounts target.key).lamports = 0 then
    rt.invokeSigned
      (.createAccount payer.key target.key need (BitVec.ofNat 64 space) owner)
      [signerSeeds] bank
  else do
    let have_ := (bank.accounts target.key).lamports
    let bank ←
      (if have_.toNat < need.toNat then
        rt.invokeSigned
          (.transferLamports payer.key target.key (need - have_)) [] bank
      else .ok bank)
    let bank ← rt.invokeSigned
      (.allocate target.key (BitVec.ofNat 64 space)) [signerSeeds] bank
    rt.invokeSigned (.assign target.key owner) [signerSeeds] bank

section Handlers

variable [Inhabited Pubkey] (rt : Runtime Pubkey)

/-- The guard of the admin handlers that call the wrapper; returns the pool
bump. -/
def validateAdminCpi (bank : Bank Pubkey)
    (poolPda admin slab percolatorProgram : AccountInfo Pubkey) :
    Except ProgramError U8 := do
  require (admin.isSigner = true) .missingRequiredSignature
  let pool ← loadPool bank poolPda
  require (pool.isInitialized = 1) StakeError.notInitialized
  require (pool.admin = admin.key) StakeError.unauthorized
  require (pool.adminTransferred = 1) StakeError.adminNotTransferred
  require (pool.slab = slab.key) StakeError.invalidPda
  require (pool.percolatorProgram = percolatorProgram.key)
    StakeError.invalidPercolatorProgram
  require (poolPda.key = (rt.derivePoolPda slab.key).1) StakeError.invalidPda
  .ok (rt.derivePoolPda slab.key).2

def validateFlushPoolMode (pool : StakePool Pubkey) :
    Except ProgramError Unit :=
  require (pool.poolMode = 0) StakeError.invalidPoolMode

def validateWithdrawInsurancePoolMode (pool : StakePool Pubkey) :
    Except ProgramError Unit :=
  require (pool.poolMode = 0) StakeError.invalidPoolMode

def validateReturnVault (pool : StakePool Pubkey) (stakeVaultKey : Pubkey) :
    Except ProgramError Unit :=
  require (pool.vault = stakeVaultKey) StakeError.invalidPda

def validateVaultInsuranceAuthority
    (poolKey authorityKey requestedAuthority : Pubkey) :
    Except ProgramError U8 := do
  require (authorityKey = requestedAuthority) StakeError.invalidAccount
  require (authorityKey = (rt.deriveVaultAuthority poolKey).1)
    .missingRequiredSignature
  .ok (rt.deriveVaultAuthority poolKey).2

/-! ## 0: InitPool -/

structure InitPoolAccounts (Pubkey : Type) where
  admin : AccountInfo Pubkey
  slab : AccountInfo Pubkey
  poolPda : AccountInfo Pubkey
  lpMint : AccountInfo Pubkey
  vault : AccountInfo Pubkey
  vaultAuth : AccountInfo Pubkey
  collateralMint : AccountInfo Pubkey
  percolatorProgram : AccountInfo Pubkey
  tokenProgram : AccountInfo Pubkey
  systemProgram : AccountInfo Pubkey
  rentSysvar : AccountInfo Pubkey

def InitPoolAccounts.next :
    List (AccountInfo Pubkey) → Except ProgramError (InitPoolAccounts Pubkey)
  | admin :: slab :: poolPda :: lpMint :: vault :: vaultAuth ::
      collateralMint :: percolatorProgram :: tokenProgram :: systemProgram ::
      rentSysvar :: _ =>
      .ok ⟨admin, slab, poolPda, lpMint, vault, vaultAuth, collateralMint,
        percolatorProgram, tokenProgram, systemProgram, rentSysvar⟩
  | _ => .error .notEnoughAccountKeys

/-- The state written by initialisation over the record found in the
account. -/
def StakePool.initPool (pool : StakePool Pubkey)
    (a : InitPoolAccounts Pubkey) (poolBump vaultAuthBump : U8)
    (cooldownSlots depositCap : U64) : StakePool Pubkey :=
  StakePool.setDiscriminator
    { pool with
      isInitialized := 1
      bump := poolBump
      vaultAuthorityBump := vaultAuthBump
      adminTransferred := 1
      slab := a.slab.key
      admin := a.admin.key
      collateralMint := a.collateralMint.key
      lpMint := a.lpMint.key
      vault := a.vault.key
      totalDeposited := 0
      totalLpSupply := 0
      cooldownSlots := cooldownSlots
      depositCap := depositCap
      totalFlushed := 0
      totalReturned := 0
      totalWithdrawn := 0
      percolatorProgram := a.percolatorProgram.key }

def processInitPool (accounts : List (AccountInfo Pubkey))
    (cooldownSlots depositCap : U64) (bank : Bank Pubkey) :
    Except ProgramError (Bank Pubkey) := do
  let a ← InitPoolAccounts.next accounts
  require (a.admin.isSigner = true) .missingRequiredSignature
  let poolBump := (rt.derivePoolPda a.slab.key).2
  require (a.poolPda.key = (rt.derivePoolPda a.slab.key).1)
    StakeError.invalidPda
  require ((bank.accounts a.poolPda.key).data.isEmpty = true)
    StakeError.alreadyInitialized
  let vaultAuthBump := (rt.deriveVaultAuthority a.poolPda.key).2
  require (a.vaultAuth.key = (rt.deriveVaultAuthority a.poolPda.key).1)
    StakeError.invalidPda
  verifyTokenProgram rt.toDeployment a.tokenProgram
  require ((bank.accounts a.slab.key).owner = a.percolatorProgram.key)
    StakeError.invalidPercolatorProgram
  require (a.slab.isWritable = true) .invalidArgument
  let bank ← createOrAdoptPda rt a.poolPda a.admin rt.programId stakePoolSize
    (poolSeeds a.slab.key poolBump) bank
  let bank ← cpiUpdateAuthority rt a.percolatorProgram a.admin a.poolPda
    a.slab (poolSeeds a.slab.key poolBump) bank
  let bank ← rt.invokeSigned
    (.initializeMint a.tokenProgram.key a.lpMint.key a.vaultAuth.key none 6)
    [vaultAuthSeeds a.poolPda.key vaultAuthBump] bank
  let bank ← rt.invokeSigned
    (.initializeAccount a.tokenProgram.key a.vault.key a.collateralMint.key
      a.vaultAuth.key)
    [vaultAuthSeeds a.poolPda.key vaultAuthBump] bank
  let pool ← loadPool bank a.poolPda
  storePool rt.toDeployment bank a.poolPda
    (pool.initPool a poolBump vaultAuthBump cooldownSlots depositCap)

/-! ## 1: Deposit -/

structure DepositAccounts (Pubkey : Type) where
  user : AccountInfo Pubkey
  poolPda : AccountInfo Pubkey
  userAta : AccountInfo Pubkey
  vault : AccountInfo Pubkey
  lpMint : AccountInfo Pubkey
  userLpAta : AccountInfo Pubkey
  vaultAuth : AccountInfo Pubkey
  depositPda : AccountInfo Pubkey
  tokenProgram : AccountInfo Pubkey
  clockSysvar : AccountInfo Pubkey
  systemProgram : AccountInfo Pubkey

def DepositAccounts.next :
    List (AccountInfo Pubkey) → Except ProgramError (DepositAccounts Pubkey)
  | user :: poolPda :: userAta :: vault :: lpMint :: userLpAta ::
      vaultAuth :: depositPda :: tokenProgram :: clockSysvar ::
      systemProgram :: _ =>
      .ok ⟨user, poolPda, userAta, vault, lpMint, userLpAta, vaultAuth,
        depositPda, tokenProgram, clockSysvar, systemProgram⟩
  | _ => .error .notEnoughAccountKeys

/-- The cap bounds the current value after the deposit; zero means none. -/
def checkDepositCap (pool : StakePool Pubkey) (amount : U64) :
    Except ProgramError Unit :=
  if 0 < pool.depositCap.toNat then do
    let newValue ← okOr (checkedAdd (pool.totalPoolValue.getD 0) amount)
      StakeError.overflow
    require (newValue.toNat ≤ pool.depositCap.toNat)
      StakeError.depositCapExceeded
  else .ok ()

/-- The totals after a deposit, and the high-water mark refreshed if it is
enabled. -/
def StakePool.recordDeposit (pool : StakePool Pubkey)
    (amount lpToMint : U64) (clock : Clock) :
    Except ProgramError (StakePool Pubkey) := do
  let totalDeposited ← okOr (checkedAdd pool.totalDeposited amount)
    StakeError.overflow
  let totalLpSupply ← okOr (checkedAdd pool.totalLpSupply lpToMint)
    StakeError.overflow
  let pool :=
    { pool with
      totalDeposited := totalDeposited
      totalLpSupply := totalLpSupply }
  .ok (if pool.hwmEnabled then
      pool.refreshHwm clock.epoch (pool.totalPoolValue.getD 0)
    else pool)

/-- Create the depositor's record on first use. -/
def ensureDepositRecord (a : DepositAccounts Pubkey) (bank : Bank Pubkey) :
    Except ProgramError (Bank Pubkey) := do
  require (a.depositPda.key =
      (rt.deriveDepositPda a.poolPda.key a.user.key).1) StakeError.invalidPda
  require ((bank.accounts a.depositPda.key).data.isEmpty = true ∨
    (bank.accounts a.depositPda.key).owner = rt.programId)
    StakeError.invalidAccount
  if (bank.accounts a.depositPda.key).data.isEmpty then
    createOrAdoptPda rt a.depositPda a.user rt.programId stakeDepositSize
      (depositSeeds a.poolPda.key a.user.key
        (rt.deriveDepositPda a.poolPda.key a.user.key).2) bank
  else .ok bank

/-- Bind the record to its pool and user. -/
def StakeDeposit.bind (deposit : StakeDeposit Pubkey) (bump : U8)
    (pool user : Pubkey) : StakeDeposit Pubkey :=
  let deposit :=
    if deposit.isInitialized ≠ 1 then deposit.setDiscriminator else deposit
  { deposit with
    isInitialized := 1
    bump := bump
    pool := pool
    user := user }

/-- Credit freshly minted LP to the record and blend its slot. -/
def StakeDeposit.creditLp (deposit : StakeDeposit Pubkey)
    (lpToMint currentSlot cooldownSlots : U64) :
    Except ProgramError (StakeDeposit Pubkey) := do
  let lpAmount ← okOr (checkedAdd deposit.lpAmount lpToMint)
    StakeError.overflow
  .ok { deposit with
    lastDepositSlot :=
      weightedDepositSlot deposit.lpAmount deposit.lastDepositSlot lpToMint
        currentSlot cooldownSlots
    lpAmount := lpAmount }

def processDeposit (accounts : List (AccountInfo Pubkey)) (amount : U64)
    (bank : Bank Pubkey) : Except ProgramError (Bank Pubkey) := do
  require (amount ≠ 0) StakeError.zeroAmount
  let a ← DepositAccounts.next accounts
  require (a.user.isSigner = true) .missingRequiredSignature
  let pool ← loadPool bank a.poolPda
  require (pool.isInitialized = 1) StakeError.notInitialized
  require (pool.validateDiscriminator = true) StakeError.invalidAccount
  require (pool.lpMint = a.lpMint.key) StakeError.invalidMint
  require (pool.vault = a.vault.key) StakeError.invalidPda
  require (pool.adminTransferred = 1) StakeError.adminNotTransferred
  require (pool.isResolved = false) StakeError.marketResolved
  require (a.vaultAuth.key = (rt.deriveVaultAuthority a.poolPda.key).1)
    StakeError.invalidAccount
  checkDepositCap pool amount
  verifyTokenProgram rt.toDeployment a.tokenProgram
  let lpToMint ← okOr (pool.calcLpForDeposit amount) StakeError.overflow
  require (lpToMint ≠ 0) StakeError.zeroAmount
  let bank ← rt.invokeSigned
    (.transferTokens a.tokenProgram.key a.userAta.key a.vault.key a.user.key
      amount)
    [] bank
  let bank ← rt.invokeSigned
    (.mintTo a.tokenProgram.key a.lpMint.key a.userLpAta.key a.vaultAuth.key
      lpToMint)
    [vaultAuthSeeds a.poolPda.key (rt.deriveVaultAuthority a.poolPda.key).2]
    bank
  let clock ← Clock.fromAccountInfo rt.toDeployment bank a.clockSysvar
  let pool ← pool.recordDeposit amount lpToMint clock
  let bank ← ensureDepositRecord rt a bank
  let deposit ← loadDeposit bank a.depositPda
  let deposit ←
    (deposit.bind (rt.deriveDepositPda a.poolPda.key a.user.key).2
      a.poolPda.key a.user.key).creditLp lpToMint clock.slot
        pool.cooldownSlots
  let bank ← storePool rt.toDeployment bank a.poolPda pool
  storeDeposit rt.toDeployment bank a.depositPda deposit

/-! ## 2: Withdraw -/

structure WithdrawAccounts (Pubkey : Type) where
  user : AccountInfo Pubkey
  poolPda : AccountInfo Pubkey
  userLpAta : AccountInfo Pubkey
  lpMint : AccountInfo Pubkey
  vault : AccountInfo Pubkey
  userAta : AccountInfo Pubkey
  vaultAuth : AccountInfo Pubkey
  depositPda : AccountInfo Pubkey
  tokenProgram : AccountInfo Pubkey
  clockSysvar : AccountInfo Pubkey

def WithdrawAccounts.next :
    List (AccountInfo Pubkey) → Except ProgramError (WithdrawAccounts Pubkey)
  | user :: poolPda :: userLpAta :: lpMint :: vault :: userAta ::
      vaultAuth :: depositPda :: tokenProgram :: clockSysvar :: _ =>
      .ok ⟨user, poolPda, userLpAta, lpMint, vault, userAta, vaultAuth,
        depositPda, tokenProgram, clockSysvar⟩
  | _ => .error .notEnoughAccountKeys

/-- Refresh the mark and reject a payout that would leave less than the
floor; without protection the pool is returned as it is. -/
def enforceHwmFloor (pool : StakePool Pubkey) (epoch collateral : U64) :
    Except ProgramError (StakePool Pubkey) :=
  if pool.hwmEnabled then do
    let currentTvl := pool.totalPoolValue.getD 0
    let refreshed := pool.refreshHwm epoch currentTvl
    let postTvl ← okOr (checkedSub currentTvl collateral) StakeError.overflow
    require
      (hwmWithdrawalAllowed postTvl refreshed.epochHighWaterTvl
        refreshed.hwmFloorBps = true)
      StakeError.withdrawalBelowHwmFloor
    .ok refreshed
  else .ok pool

def StakePool.recordWithdraw (pool : StakePool Pubkey)
    (collateral lpAmount : U64) : Except ProgramError (StakePool Pubkey) := do
  let totalWithdrawn ← okOr (checkedAdd pool.totalWithdrawn collateral)
    StakeError.overflow
  let totalLpSupply ← okOr (checkedSub pool.totalLpSupply lpAmount)
    StakeError.overflow
  .ok { pool with
    totalWithdrawn := totalWithdrawn
    totalLpSupply := totalLpSupply }

def StakeDeposit.debitLp (deposit : StakeDeposit Pubkey) (lpAmount : U64) :
    Except ProgramError (StakeDeposit Pubkey) := do
  let remaining ← okOr (checkedSub deposit.lpAmount lpAmount)
    StakeError.insufficientLpTokens
  .ok { deposit with lpAmount := remaining }

def processWithdraw (accounts : List (AccountInfo Pubkey)) (lpAmount : U64)
    (bank : Bank Pubkey) : Except ProgramError (Bank Pubkey) := do
  require (lpAmount ≠ 0) StakeError.zeroAmount
  let a ← WithdrawAccounts.next accounts
  require (a.user.isSigner = true) .missingRequiredSignature
  let pool ← loadPool bank a.poolPda
  require (pool.isInitialized = 1) StakeError.notInitialized
  require (pool.validateDiscriminator = true) StakeError.invalidAccount
  require (pool.lpMint = a.lpMint.key) StakeError.invalidMint
  require (pool.vault = a.vault.key) StakeError.invalidPda
  verifyTokenProgram rt.toDeployment a.tokenProgram
  require (a.vaultAuth.key = (rt.deriveVaultAuthority a.poolPda.key).1)
    StakeError.invalidAccount
  require (a.depositPda.key =
      (rt.deriveDepositPda a.poolPda.key a.user.key).1) StakeError.invalidPda
  require ((bank.accounts a.depositPda.key).owner = rt.programId)
    StakeError.invalidAccount
  let clock ← Clock.fromAccountInfo rt.toDeployment bank a.clockSysvar
  let deposit ← loadDeposit bank a.depositPda
  require (deposit.isInitialized = 1 ∧ deposit.user = a.user.key ∧
      deposit.pool = a.poolPda.key) StakeError.unauthorized
  require
    ((saturatingAdd deposit.lastDepositSlot pool.cooldownSlots).toNat ≤
      clock.slot.toNat)
    StakeError.cooldownNotElapsed
  require (lpAmount.toNat ≤ deposit.lpAmount.toNat)
    StakeError.insufficientLpTokens
  let collateral ← okOr (pool.calcCollateralForWithdraw lpAmount)
    StakeError.overflow
  require (collateral ≠ 0) StakeError.zeroAmount
  let pool ← enforceHwmFloor pool clock.epoch collateral
  let bank ← rt.invokeSigned
    (.burn a.tokenProgram.key a.userLpAta.key a.lpMint.key a.user.key
      lpAmount)
    [] bank
  let bank ← rt.invokeSigned
    (.transferTokens a.tokenProgram.key a.vault.key a.userAta.key
      a.vaultAuth.key collateral)
    [vaultAuthSeeds a.poolPda.key (rt.deriveVaultAuthority a.poolPda.key).2]
    bank
  let pool ← pool.recordWithdraw collateral lpAmount
  let deposit ← loadDeposit bank a.depositPda
  let deposit ← deposit.debitLp lpAmount
  let bank ← storePool rt.toDeployment bank a.poolPda pool
  storeDeposit rt.toDeployment bank a.depositPda deposit

/-! ## 3: FlushToInsurance -/

structure FlushAccounts (Pubkey : Type) where
  caller : AccountInfo Pubkey
  poolPda : AccountInfo Pubkey
  vault : AccountInfo Pubkey
  vaultAuth : AccountInfo Pubkey
  slab : AccountInfo Pubkey
  wrapperVault : AccountInfo Pubkey
  percolatorProgram : AccountInfo Pubkey
  tokenProgram : AccountInfo Pubkey

def FlushAccounts.next :
    List (AccountInfo Pubkey) → Except ProgramError (FlushAccounts Pubkey)
  | caller :: poolPda :: vault :: vaultAuth :: slab :: wrapperVault ::
      percolatorProgram :: tokenProgram :: _ =>
      .ok ⟨caller, poolPda, vault, vaultAuth, slab, wrapperVault,
        percolatorProgram, tokenProgram⟩
  | _ => .error .notEnoughAccountKeys

/-- The flush ceiling, subtracting one total after the other. -/
def StakePool.flushCeiling (pool : StakePool Pubkey) : Option U64 := do
  let inflows ← checkedAdd pool.totalDeposited pool.totalReturned
  let held ← checkedSub inflows pool.totalWithdrawn
  checkedSub held pool.totalFlushed

def processFlushToInsurance (accounts : List (AccountInfo Pubkey))
    (amount : U64) (bank : Bank Pubkey) :
    Except ProgramError (Bank Pubkey) := do
  require (amount ≠ 0) StakeError.zeroAmount
  let a ← FlushAccounts.next accounts
  require (a.caller.isSigner = true) .missingRequiredSignature
  let pool ← loadPool bank a.poolPda
  require (pool.isInitialized = 1) StakeError.notInitialized
  validateFlushPoolMode pool
  require (pool.admin = a.caller.key) StakeError.unauthorized
  require (pool.slab = a.slab.key) StakeError.invalidPda
  require (pool.vault = a.vault.key) StakeError.invalidPda
  require (pool.percolatorProgram = a.percolatorProgram.key)
    StakeError.invalidPercolatorProgram
  verifyTokenProgram rt.toDeployment a.tokenProgram
  let available ← okOr pool.flushCeiling StakeError.overflow
  require (amount.toNat ≤ available.toNat) .insufficientFunds
  require (a.vaultAuth.key = (rt.deriveVaultAuthority a.poolPda.key).1)
    StakeError.invalidPda
  let bank ← cpiTopUpInsurance rt a.percolatorProgram a.vaultAuth a.slab
    a.vault a.wrapperVault a.tokenProgram amount
    (vaultAuthSeeds a.poolPda.key (rt.deriveVaultAuthority a.poolPda.key).2)
    bank
  let totalFlushed ← okOr (checkedAdd pool.totalFlushed amount)
    StakeError.overflow
  storePool rt.toDeployment bank a.poolPda
    { pool with totalFlushed := totalFlushed }

/-! ## 4: UpdateConfig -/

structure AdminPoolAccounts (Pubkey : Type) where
  admin : AccountInfo Pubkey
  poolPda : AccountInfo Pubkey

def AdminPoolAccounts.next :
    List (AccountInfo Pubkey) → Except ProgramError (AdminPoolAccounts Pubkey)
  | admin :: poolPda :: _ => .ok ⟨admin, poolPda⟩
  | _ => .error .notEnoughAccountKeys

def processUpdateConfig (accounts : List (AccountInfo Pubkey))
    (newCooldownSlots newDepositCap : Option U64) (bank : Bank Pubkey) :
    Except ProgramError (Bank Pubkey) := do
  let a ← AdminPoolAccounts.next accounts
  require (a.admin.isSigner = true) .missingRequiredSignature
  let pool ← loadPool bank a.poolPda
  require (pool.isInitialized = 1) StakeError.notInitialized
  require (pool.admin = a.admin.key) StakeError.unauthorized
  storePool rt.toDeployment bank a.poolPda
    { pool with
      cooldownSlots := newCooldownSlots.getD pool.cooldownSlots
      depositCap := newDepositCap.getD pool.depositCap }

/-! ## 5: TransferAdmin -/

structure WrapperAdminAccounts (Pubkey : Type) where
  admin : AccountInfo Pubkey
  poolPda : AccountInfo Pubkey
  slab : AccountInfo Pubkey
  percolatorProgram : AccountInfo Pubkey

def WrapperAdminAccounts.next :
    List (AccountInfo Pubkey) →
      Except ProgramError (WrapperAdminAccounts Pubkey)
  | admin :: poolPda :: slab :: percolatorProgram :: _ =>
      .ok ⟨admin, poolPda, slab, percolatorProgram⟩
  | _ => .error .notEnoughAccountKeys

def processTransferAdmin (accounts : List (AccountInfo Pubkey))
    (bank : Bank Pubkey) : Except ProgramError (Bank Pubkey) := do
  let a ← WrapperAdminAccounts.next accounts
  require (a.admin.isSigner = true) .missingRequiredSignature
  require (a.poolPda.key = (rt.derivePoolPda a.slab.key).1)
    StakeError.invalidPda
  let pool ← loadPool bank a.poolPda
  require (pool.isInitialized = 1) StakeError.notInitialized
  require (pool.admin = a.admin.key) StakeError.unauthorized
  require (pool.adminTransferred ≠ 1) StakeError.adminAlreadyTransferred
  require (pool.slab = a.slab.key) StakeError.invalidPda
  require (pool.percolatorProgram = a.percolatorProgram.key)
    StakeError.invalidPercolatorProgram
  let bank ← cpiUpdateAuthority rt a.percolatorProgram a.admin a.poolPda
    a.slab (poolSeeds a.slab.key (rt.derivePoolPda a.slab.key).2) bank
  let pool ← loadPool bank a.poolPda
  storePool rt.toDeployment bank a.poolPda
    { pool with adminTransferred := 1 }

/-! ## 6 to 9: forwarded admin instructions -/

structure NewAuthorityAccounts (Pubkey : Type) where
  admin : AccountInfo Pubkey
  poolPda : AccountInfo Pubkey
  slab : AccountInfo Pubkey
  percolatorProgram : AccountInfo Pubkey
  newAuthority : AccountInfo Pubkey

def NewAuthorityAccounts.next :
    List (AccountInfo Pubkey) →
      Except ProgramError (NewAuthorityAccounts Pubkey)
  | admin :: poolPda :: slab :: percolatorProgram :: newAuthority :: _ =>
      .ok ⟨admin, poolPda, slab, percolatorProgram, newAuthority⟩
  | _ => .error .notEnoughAccountKeys

def processAdminSetOracleAuthority (accounts : List (AccountInfo Pubkey))
    (newAuthority : Pubkey) (bank : Bank Pubkey) :
    Except ProgramError (Bank Pubkey) := do
  let a ← NewAuthorityAccounts.next accounts
  require (a.newAuthority.key = newAuthority) StakeError.invalidAccount
  require (a.newAuthority.isSigner = true) .missingRequiredSignature
  let bump ← validateAdminCpi rt bank a.poolPda a.admin a.slab
    a.percolatorProgram
  cpiUpdateAssetAuthority rt a.percolatorProgram a.poolPda a.newAuthority
    a.slab 0 assetAuthOracle [poolSeeds a.slab.key bump] bank

def processAdminSetRiskThreshold (accounts : List (AccountInfo Pubkey))
    (newThreshold : U128) (bank : Bank Pubkey) :
    Except ProgramError (Bank Pubkey) := do
  let a ← WrapperAdminAccounts.next accounts
  let bump ← validateAdminCpi rt bank a.poolPda a.admin a.slab
    a.percolatorProgram
  cpiSetRiskThreshold a.percolatorProgram a.poolPda a.slab newThreshold
    (poolSeeds a.slab.key bump) bank

def processAdminSetMaintenanceFee (accounts : List (AccountInfo Pubkey))
    (newFee : U128) (bank : Bank Pubkey) :
    Except ProgramError (Bank Pubkey) := do
  let a ← WrapperAdminAccounts.next accounts
  let bump ← validateAdminCpi rt bank a.poolPda a.admin a.slab
    a.percolatorProgram
  cpiSetMaintenanceFee a.percolatorProgram a.poolPda a.slab newFee
    (poolSeeds a.slab.key bump) bank

def processAdminResolveMarket (accounts : List (AccountInfo Pubkey))
    (bank : Bank Pubkey) : Except ProgramError (Bank Pubkey) := do
  let a ← WrapperAdminAccounts.next accounts
  let bump ← validateAdminCpi rt bank a.poolPda a.admin a.slab
    a.percolatorProgram
  let bank ← cpiResolveMarket rt a.percolatorProgram a.poolPda a.slab
    (poolSeeds a.slab.key bump) bank
  let pool ← loadPool bank a.poolPda
  storePool rt.toDeployment bank a.poolPda pool.setResolved

/-! ## 10: AdminWithdrawInsurance -/

structure WithdrawInsuranceAccounts (Pubkey : Type) where
  admin : AccountInfo Pubkey
  poolPda : AccountInfo Pubkey
  slab : AccountInfo Pubkey
  vaultAuth : AccountInfo Pubkey
  stakeVault : AccountInfo Pubkey
  wrapperVault : AccountInfo Pubkey
  wrapperVaultPda : AccountInfo Pubkey
  percolatorProgram : AccountInfo Pubkey
  tokenProgram : AccountInfo Pubkey
  clock : AccountInfo Pubkey

def WithdrawInsuranceAccounts.next :
    List (AccountInfo Pubkey) →
      Except ProgramError (WithdrawInsuranceAccounts Pubkey)
  | admin :: poolPda :: slab :: vaultAuth :: stakeVault :: wrapperVault ::
      wrapperVaultPda :: percolatorProgram :: tokenProgram :: clock :: _ =>
      .ok ⟨admin, poolPda, slab, vaultAuth, stakeVault, wrapperVault,
        wrapperVaultPda, percolatorProgram, tokenProgram, clock⟩
  | _ => .error .notEnoughAccountKeys

def processAdminWithdrawInsurance (accounts : List (AccountInfo Pubkey))
    (amount : U64) (bank : Bank Pubkey) :
    Except ProgramError (Bank Pubkey) := do
  let a ← WithdrawInsuranceAccounts.next accounts
  let _poolBump ← validateAdminCpi rt bank a.poolPda a.admin a.slab
    a.percolatorProgram
  let pool ← loadPool bank a.poolPda
  validateWithdrawInsurancePoolMode pool
  validateReturnVault pool a.stakeVault.key
  verifyTokenProgram rt.toDeployment a.tokenProgram
  require (a.vaultAuth.key = (rt.deriveVaultAuthority a.poolPda.key).1)
    .invalidArgument
  let bank ← cpiWithdrawInsurance rt a.percolatorProgram a.vaultAuth a.slab
    a.stakeVault a.wrapperVault a.wrapperVaultPda a.tokenProgram amount
    (vaultAuthSeeds a.poolPda.key (rt.deriveVaultAuthority a.poolPda.key).2)
    bank
  let pool ← loadPool bank a.poolPda
  let totalReturned ← okOr (checkedAdd pool.totalReturned amount)
    StakeError.overflow
  storePool rt.toDeployment bank a.poolPda
    { pool with totalReturned := totalReturned }

/-! ## 11: AdminSetInsurancePolicy -/

def processAdminSetInsurancePolicy (accounts : List (AccountInfo Pubkey))
    (authority : Pubkey) (minWithdrawBase : U64) (maxWithdrawBps : U16)
    (cooldownSlots : U64) (bank : Bank Pubkey) :
    Except ProgramError (Bank Pubkey) := do
  let a ← NewAuthorityAccounts.next accounts
  let vaultAuthBump ← validateVaultInsuranceAuthority rt a.poolPda.key
    a.newAuthority.key authority
  require
    (minWithdrawBase = 0 ∧ maxWithdrawBps = 0 ∧ cooldownSlots = 0)
    .invalidInstructionData
  let bump ← validateAdminCpi rt bank a.poolPda a.admin a.slab
    a.percolatorProgram
  cpiUpdateAssetAuthority rt a.percolatorProgram a.poolPda a.newAuthority
    a.slab 0 assetAuthInsurance
    [poolSeeds a.slab.key bump, vaultAuthSeeds a.poolPda.key vaultAuthBump]
    bank

/-! ## 12: AccrueFees -/

structure AccrueAccounts (Pubkey : Type) where
  pool : AccountInfo Pubkey
  vault : AccountInfo Pubkey
  clock : AccountInfo Pubkey

def AccrueAccounts.next :
    List (AccountInfo Pubkey) → Except ProgramError (AccrueAccounts Pubkey)
  | pool :: vault :: clock :: _ => .ok ⟨pool, vault, clock⟩
  | _ => .error .notEnoughAccountKeys

/-- The state after a crank that saw `currentBalance` in the vault.  With no
LP supply the balance is remembered as an offset; otherwise everything above
the baseline and the offset is booked as fees. -/
def StakePool.accrue (pool : StakePool Pubkey) (currentBalance slot : U64) :
    Except ProgramError (StakePool Pubkey) :=
  if pool.totalLpSupply = 0 then
    .ok { pool.setPreSupplyVaultOffset currentBalance with
      lastFeeAccrualSlot := slot
      lastVaultSnapshot := currentBalance }
  else do
    let baseline ← okOr pool.accrualBaseline StakeError.overflow
    let expected ← okOr (checkedAdd baseline pool.preSupplyVaultOffset)
      StakeError.overflow
    let totalFeesEarned ←
      (if expected.toNat < currentBalance.toNat then
        okOr (checkedAdd pool.totalFeesEarned (currentBalance - expected))
          (StakeError.overflow : ProgramError)
      else .ok pool.totalFeesEarned)
    .ok { pool with
      totalFeesEarned := totalFeesEarned
      lastFeeAccrualSlot := slot
      lastVaultSnapshot := currentBalance }

def processAccrueFees (accounts : List (AccountInfo Pubkey))
    (bank : Bank Pubkey) : Except ProgramError (Bank Pubkey) :=
  match accounts with
  | [] => .error .notEnoughAccountKeys
  | caller :: rest => do
      require (caller.isSigner = true) .missingRequiredSignature
      let a ← AccrueAccounts.next rest
      let pool ← loadPool bank a.pool
      require (pool.isInitialized = 1) .uninitializedAccount
      require (pool.poolMode = 1) StakeError.invalidPoolMode
      let vaultState ← unpackTokenAccount bank a.vault
      require (a.vault.key = pool.vault) .invalidAccountData
      let clock ← Clock.fromAccountInfo rt.toDeployment bank a.clock
      let pool ← pool.accrue vaultState.amount clock.slot
      storePool rt.toDeployment bank a.pool pool

/-! ## 13: InitTradingPool -/

def processInitTradingPool (accounts : List (AccountInfo Pubkey))
    (cooldownSlots depositCap : U64) (bank : Bank Pubkey) :
    Except ProgramError (Bank Pubkey) := do
  let bank ← processInitPool rt accounts cooldownSlots depositCap bank
  let poolAi ← okOr accounts[2]? ProgramError.programFailedToComplete
  let pool ← loadPool bank poolAi
  storePool rt.toDeployment bank poolAi { pool with poolMode := 1 }

/-! ## 14: AdminSetHwmConfig -/

/-- The flag is written before the floor is validated; the floor is written
only when enabling. -/
def StakePool.configureHwm (pool : StakePool Pubkey) (enabled : Bool)
    (hwmFloorBps : U16) : Except ProgramError (StakePool Pubkey) :=
  let pool := pool.setHwmEnabled enabled
  if enabled then do
    require (hwmFloorBps ≠ 0 ∧ hwmFloorBps.toNat ≤ 10000)
      .invalidInstructionData
    .ok (pool.setHwmFloorBps hwmFloorBps)
  else .ok pool

def processAdminSetHwmConfig (accounts : List (AccountInfo Pubkey))
    (enabled : Bool) (hwmFloorBps : U16) (bank : Bank Pubkey) :
    Except ProgramError (Bank Pubkey) := do
  let a ← AdminPoolAccounts.next accounts
  require (a.admin.isSigner = true) .missingRequiredSignature
  let pool ← loadPool bank a.poolPda
  require (pool.isInitialized = 1) StakeError.notInitialized
  require (pool.validateDiscriminator = true) StakeError.invalidAccount
  require (pool.admin = a.admin.key) StakeError.unauthorized
  let pool ← pool.configureHwm enabled hwmFloorBps
  storePool rt.toDeployment bank a.poolPda pool

/-! ## Dispatch -/

def processInstruction (accounts : List (AccountInfo Pubkey))
    (instruction : StakeInstruction Pubkey) (bank : Bank Pubkey) :
    Except ProgramError (Bank Pubkey) :=
  match instruction with
  | .initPool cooldownSlots depositCap =>
      processInitPool rt accounts cooldownSlots depositCap bank
  | .deposit amount => processDeposit rt accounts amount bank
  | .withdraw lpAmount => processWithdraw rt accounts lpAmount bank
  | .flushToInsurance amount =>
      processFlushToInsurance rt accounts amount bank
  | .updateConfig newCooldownSlots newDepositCap =>
      processUpdateConfig rt accounts newCooldownSlots newDepositCap bank
  | .transferAdmin => processTransferAdmin rt accounts bank
  | .adminSetOracleAuthority newAuthority =>
      processAdminSetOracleAuthority rt accounts newAuthority bank
  | .adminSetRiskThreshold newThreshold =>
      processAdminSetRiskThreshold rt accounts newThreshold bank
  | .adminSetMaintenanceFee newFee =>
      processAdminSetMaintenanceFee rt accounts newFee bank
  | .adminResolveMarket => processAdminResolveMarket rt accounts bank
  | .adminWithdrawInsurance amount =>
      processAdminWithdrawInsurance rt accounts amount bank
  | .adminSetInsurancePolicy authority minWithdrawBase maxWithdrawBps
      cooldownSlots =>
      processAdminSetInsurancePolicy rt accounts authority minWithdrawBase
        maxWithdrawBps cooldownSlots bank
  | .accrueFees => processAccrueFees rt accounts bank
  | .initTradingPool cooldownSlots depositCap =>
      processInitTradingPool rt accounts cooldownSlots depositCap bank
  | .adminSetHwmConfig enabled hwmFloorBps =>
      processAdminSetHwmConfig rt accounts enabled hwmFloorBps bank

/-- The entry point: decode the data, then run the handler. -/
def process (accounts : List (AccountInfo Pubkey)) (data : List U8)
    (bank : Bank Pubkey) : Except ProgramError (Bank Pubkey) := do
  let instruction ← StakeInstruction.unpack rt.pubkeyFromBytes data
  processInstruction rt accounts instruction bank

end Handlers

end PercolatorVault
