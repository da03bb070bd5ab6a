import PercolatorVault.VaultAuthority

/-!
# The calls the program makes

For each instruction, every call it can send to another program, with the
addresses it signs for.  A transaction does not depend on what the other
programs do with any other call: serving them differently changes neither its
outcome nor the error it fails with.
-/

namespace PercolatorVault

open CheckedArithmetic
open FallibleSteps
open LittleEndian

variable {Pubkey : Type} [DecidableEq Pubkey]

/-! ## The permitted calls -/

section Permissions

variable (rt : Runtime Pubkey)

/-- Seeds under which the program signs as a pool, as a vault authority, and
as a deposit record. -/
def Runtime.signsPool (slab : Pubkey) : List (Seed Pubkey) :=
  poolSeeds slab (rt.derivePoolPda slab).2

def Runtime.signsVault (pool : Pubkey) : List (Seed Pubkey) :=
  vaultAuthSeeds pool (rt.deriveVaultAuthority pool).2

def Runtime.signsDeposit (pool user : Pubkey) : List (Seed Pubkey) :=
  depositSeeds pool user (rt.deriveDepositPda pool user).2

/-- Calls to the system program that make `target` an account of this
program. -/
inductive CreationCall (payer target : Pubkey) (space : ℕ)
    (seeds : List (Seed Pubkey)) :
    CpiInstruction Pubkey → List (List (Seed Pubkey)) → Prop
  | create (lamports : U64) :
      CreationCall payer target space seeds
        (.createAccount payer target lamports (BitVec.ofNat 64 space)
          rt.programId) [seeds]
  | fund (lamports : U64) :
      CreationCall payer target space seeds
        (.transferLamports payer target lamports) []
  | allocate :
      CreationCall payer target space seeds
        (.allocate target (BitVec.ofNat 64 space)) [seeds]
  | assign :
      CreationCall payer target space seeds
        (.assign target rt.programId) [seeds]

/-- The pool takes over the slab of the program `wrapper`, and its vault
authority gets an LP mint and a vault. -/
inductive InitCall (wrapper admin slab lpMint vault collateralMint : Pubkey) :
    CpiInstruction Pubkey → List (List (Seed Pubkey)) → Prop
  | creation {call : CpiInstruction Pubkey}
      {signers : List (List (Seed Pubkey))}
      (h : CreationCall rt admin (rt.derivePoolPda slab).1 stakePoolSize
        (rt.signsPool slab) call signers) :
      InitCall wrapper admin slab lpMint vault collateralMint call signers
  | claim :
      InitCall wrapper admin slab lpMint vault collateralMint
        (.wrapper wrapper
          [readonlySigner admin, readonlySigner (rt.derivePoolPda slab).1,
            writableAccount slab]
          (tagUpdateAuthority ::
            rt.pubkeyToBytes (rt.derivePoolPda slab).1))
        [rt.signsPool slab]
  | mint :
      InitCall wrapper admin slab lpMint vault collateralMint
        (.initializeMint rt.splTokenId lpMint
          (rt.deriveVaultAuthority (rt.derivePoolPda slab).1).1 none 6)
        [rt.signsVault (rt.derivePoolPda slab).1]
  | vault :
      InitCall wrapper admin slab lpMint vault collateralMint
        (.initializeAccount rt.splTokenId vault collateralMint
          (rt.deriveVaultAuthority (rt.derivePoolPda slab).1).1)
        [rt.signsVault (rt.derivePoolPda slab).1]

/-- The user pays into the vault of the pool and gets LP for exactly that, and
a record if there was none. -/
inductive DepositCall (key user : Pubkey) (pool : StakePool Pubkey)
    (amount : U64) :
    CpiInstruction Pubkey → List (List (Seed Pubkey)) → Prop
  | payIn (source : Pubkey) :
      DepositCall key user pool amount
        (.transferTokens rt.splTokenId source pool.vault user amount) []
  | mint {lp : U64} (hlp : pool.calcLpForDeposit amount = some lp)
      (account : Pubkey) :
      DepositCall key user pool amount
        (.mintTo rt.splTokenId pool.lpMint account
          (rt.deriveVaultAuthority key).1 lp)
        [rt.signsVault key]
  | creation {call : CpiInstruction Pubkey}
      {signers : List (List (Seed Pubkey))}
      (h : CreationCall rt user (rt.deriveDepositPda key user).1
        stakeDepositSize (rt.signsDeposit key user) call signers) :
      DepositCall key user pool amount call signers

/-- LP of the user is burned and the vault of the pool pays its worth. -/
inductive WithdrawCall (key user : Pubkey) (pool : StakePool Pubkey)
    (lpAmount : U64) :
    CpiInstruction Pubkey → List (List (Seed Pubkey)) → Prop
  | burn (account : Pubkey) :
      WithdrawCall key user pool lpAmount
        (.burn rt.splTokenId account pool.lpMint user lpAmount) []
  | payOut {collateral : U64}
      (hcollateral : pool.calcCollateralForWithdraw lpAmount =
        some collateral)
      (destination : Pubkey) :
      WithdrawCall key user pool lpAmount
        (.transferTokens rt.splTokenId pool.vault destination
          (rt.deriveVaultAuthority key).1 collateral)
        [rt.signsVault key]

/-- What the admin of a pool can make it send to its own wrapper. -/
inductive AdminCall (key : Pubkey) (pool : StakePool Pubkey) :
    StakeInstruction Pubkey → CpiInstruction Pubkey →
      List (List (Seed Pubkey)) → Prop
  | flush {amount available : U64} (hmode : pool.poolMode = 0)
      (hceiling : pool.flushCeiling = some available)
      (hamount : amount.toNat ≤ available.toNat) (wrapperVault : Pubkey) :
      AdminCall key pool (.flushToInsurance amount)
        (.wrapper pool.percolatorProgram
          [readonlySigner (rt.deriveVaultAuthority key).1,
            writableAccount pool.slab, writableAccount pool.vault,
            writableAccount wrapperVault, readonlyAccount rt.splTokenId]
          (tagTopUpInsurance :: pushU128FromU64 amount))
        [rt.signsVault key]
  | transferAdmin (hkey : key = (rt.derivePoolPda pool.slab).1)
      (htransferred : pool.adminTransferred ≠ 1) :
      AdminCall key pool .transferAdmin
        (.wrapper pool.percolatorProgram
          [readonlySigner pool.admin, readonlySigner key,
            writableAccount pool.slab]
          (tagUpdateAuthority :: rt.pubkeyToBytes key))
        [rt.signsPool pool.slab]
  | oracleAuthority (hkey : key = (rt.derivePoolPda pool.slab).1)
      (newAuthority : Pubkey) :
      AdminCall key pool (.adminSetOracleAuthority newAuthority)
        (.wrapper pool.percolatorProgram
          [readonlySigner key, readonlySigner newAuthority,
            writableAccount pool.slab]
          (tagUpdateAssetAuthority :: (leBytes 2 0 ++
            assetAuthOracle :: rt.pubkeyToBytes newAuthority)))
        [rt.signsPool pool.slab]
  | resolve (hkey : key = (rt.derivePoolPda pool.slab).1) :
      AdminCall key pool .adminResolveMarket
        (.wrapper pool.percolatorProgram
          [readonlySigner key, writableAccount pool.slab]
          [tagResolveMarket])
        [rt.signsPool pool.slab]
  | returnInsurance (hmode : pool.poolMode = 0)
      (amount : U64) (wrapperVault wrapperVaultAuthority : Pubkey) :
      AdminCall key pool (.adminWithdrawInsurance amount)
        (.wrapper pool.percolatorProgram
          [readonlySigner (rt.deriveVaultAuthority key).1,
            writableAccount pool.slab, writableAccount pool.vault,
            writableAccount wrapperVault,
            readonlyAccount wrapperVaultAuthority,
            readonlyAccount rt.splTokenId]
          (tagWithdrawInsurance :: pushU128FromU64 amount))
        [rt.signsVault key]
  | insuranceAuthority (hkey : key = (rt.derivePoolPda pool.slab).1) :
      AdminCall key pool
        (.adminSetInsurancePolicy (rt.deriveVaultAuthority key).1 0 0 0)
        (.wrapper pool.percolatorProgram
          [readonlySigner key,
            readonlySigner (rt.deriveVaultAuthority key).1,
            writableAccount pool.slab]
          (tagUpdateAssetAuthority :: (leBytes 2 0 ++ assetAuthInsurance ::
            rt.pubkeyToBytes (rt.deriveVaultAuthority key).1)))
        [rt.signsPool pool.slab, rt.signsVault key]

/-- The calls an instruction can make with these accounts: the first is the
user or admin and signs, the pool is the second, or the third where it is
created. -/
inductive PermittedCall [Inhabited Pubkey] (bank : Bank Pubkey) :
    List (AccountInfo Pubkey) → StakeInstruction Pubkey →
      CpiInstruction Pubkey → List (List (Seed Pubkey)) → Prop
  | initPool {accounts : List (AccountInfo Pubkey)}
      {a : InitPoolAccounts Pubkey} {cooldownSlots depositCap : U64}
      {call : CpiInstruction Pubkey} {signers : List (List (Seed Pubkey))}
      (ha : InitPoolAccounts.next accounts = .ok a)
      (hsigner : a.admin.isSigner = true)
      (h : InitCall rt (bank.accounts a.slab.key).owner a.admin.key
        a.slab.key a.lpMint.key a.vault.key a.collateralMint.key call
        signers) :
      PermittedCall bank accounts (.initPool cooldownSlots depositCap) call
        signers
  | initTradingPool {accounts : List (AccountInfo Pubkey)}
      {cooldownSlots depositCap : U64} {call : CpiInstruction Pubkey}
      {signers : List (List (Seed Pubkey))}
      (h : PermittedCall bank accounts (.initPool cooldownSlots depositCap)
        call signers) :
      PermittedCall bank accounts
        (.initTradingPool cooldownSlots depositCap) call signers
  | deposit {user info : AccountInfo Pubkey}
      {rest : List (AccountInfo Pubkey)} {pool : StakePool Pubkey}
      {amount : U64} {call : CpiInstruction Pubkey}
      {signers : List (List (Seed Pubkey))}
      (hsigner : user.isSigner = true)
      (hpool : loadPool bank info = .ok pool)
      (h : DepositCall rt info.key user.key pool amount call signers) :
      PermittedCall bank (user :: info :: rest) (.deposit amount) call
        signers
  | withdraw {user info : AccountInfo Pubkey}
      {rest : List (AccountInfo Pubkey)} {pool : StakePool Pubkey}
      {lpAmount : U64} {call : CpiInstruction Pubkey}
      {signers : List (List (Seed Pubkey))}
      (hsigner : user.isSigner = true)
      (hpool : loadPool bank info = .ok pool)
      (h : WithdrawCall rt info.key user.key pool lpAmount call signers) :
      PermittedCall bank (user :: info :: rest) (.withdraw lpAmount) call
        signers
  | admin {admin info : AccountInfo Pubkey}
      {rest : List (AccountInfo Pubkey)} {pool : StakePool Pubkey}
      {instruction : StakeInstruction Pubkey} {call : CpiInstruction Pubkey}
      {signers : List (List (Seed Pubkey))}
      (hsigner : admin.isSigner = true)
      (hpool : loadPool bank info = .ok pool)
      (hadmin : pool.admin = admin.key)
      (h : AdminCall rt info.key pool instruction call signers) :
      PermittedCall bank (admin :: info :: rest) instruction call signers

end Permissions

/-! ## Other programs behind the same addresses -/

section Serving

variable {rt : Runtime Pubkey}
  {invoke : CpiInstruction Pubkey → List (List (Seed Pubkey)) →
    Bank Pubkey → Except ProgramError (Bank Pubkey)}
  {heffect : ∀ {call signers before after},
    invoke call signers before = .ok after →
      CpiInstruction.Effect rt.toDeployment before after call}
  {bank : Bank Pubkey} {accounts : List (AccountInfo Pubkey)}

/-- The runtime in which the other programs are `invoke`. -/
def Runtime.serving (rt : Runtime Pubkey)
    (invoke : CpiInstruction Pubkey → List (List (Seed Pubkey)) →
      Bank Pubkey → Except ProgramError (Bank Pubkey))
    (heffect : ∀ {call signers before after},
      invoke call signers before = .ok after →
        CpiInstruction.Effect rt.toDeployment before after call) :
    Runtime Pubkey :=
  { rt with invokeSigned := invoke, invokeSigned_effect := heffect }

/-- `invoke` serves the permitted calls as the runtime does. -/
def ServesAlike (rt : Runtime Pubkey)
    (invoke : CpiInstruction Pubkey → List (List (Seed Pubkey)) →
      Bank Pubkey → Except ProgramError (Bank Pubkey))
    (permitted : CpiInstruction Pubkey → List (List (Seed Pubkey)) → Prop) :
    Prop :=
  ∀ call signers, permitted call signers → ∀ bank,
    invoke call signers bank = rt.invokeSigned call signers bank

theorem ServesAlike.mono
    {permitted wider : CpiInstruction Pubkey →
      List (List (Seed Pubkey)) → Prop}
    (h : ServesAlike rt invoke wider)
    (hle : ∀ call signers, permitted call signers → wider call signers) :
    ServesAlike rt invoke permitted :=
  fun call signers hpermitted => h call signers (hle call signers hpermitted)

theorem createOrAdoptPda_serving {target payer : AccountInfo Pubkey}
    {space : ℕ} {seeds : List (Seed Pubkey)}
    (h : ServesAlike rt invoke
      (CreationCall rt payer.key target.key space seeds)) :
    createOrAdoptPda (rt.serving invoke heffect) target payer rt.programId
        space seeds bank =
      createOrAdoptPda rt target payer rt.programId space seeds bank := by
  unfold createOrAdoptPda
  dsimp only [Runtime.serving]
  split
  · exact h _ _ (.create _) _
  · refine bind_congr_of_eq ?_ fun funded _ => ?_
    · split
      · exact h _ _ (.fund _) _
      · rfl
    · refine bind_congr_of_eq (h _ _ .allocate _) fun allocated _ => ?_
      exact h _ _ .assign _

theorem verifyTokenProgram_eq_ok {d : Deployment Pubkey}
    {tokenProgram : AccountInfo Pubkey} {u : Unit} :
    verifyTokenProgram d tokenProgram = .ok u ↔
      tokenProgram.key = d.splTokenId := by
  unfold verifyTokenProgram
  exact require_eq_ok

variable [Inhabited Pubkey]

theorem processInitPool_serving {cooldownSlots depositCap : U64}
    (h : ServesAlike rt invoke (PermittedCall rt bank accounts
      (.initPool cooldownSlots depositCap))) :
    processInitPool (rt.serving invoke heffect) accounts cooldownSlots
        depositCap bank =
      processInitPool rt accounts cooldownSlots depositCap bank := by
  unfold processInitPool
  refine bind_congr_of_ok fun a ha => ?_
  refine bind_congr_of_ok fun _ hsigner => ?_
  refine bind_congr_of_ok fun _ hpool => ?_
  refine bind_congr_of_ok fun _ _ => ?_
  refine bind_congr_of_ok fun _ hvault => ?_
  refine bind_congr_of_ok fun _ htoken => ?_
  refine bind_congr_of_ok fun _ hslab => ?_
  refine bind_congr_of_ok fun _ _ => ?_
  simp only [require_eq_ok, verifyTokenProgram_eq_ok]
    at hsigner hpool hvault htoken hslab
  have hinit : ServesAlike rt invoke
      (InitCall rt a.percolatorProgram.key a.admin.key a.slab.key
        a.lpMint.key a.vault.key a.collateralMint.key) := by
    rw [← hslab]
    exact h.mono fun _ _ => .initPool ha hsigner
  refine bind_congr_of_eq ?_ fun created _ => ?_
  · refine createOrAdoptPda_serving (hinit.mono fun call signers hcall => ?_)
    rw [hpool] at hcall
    exact .creation hcall
  refine bind_congr_of_eq ?_ fun claimed _ => ?_
  · refine hinit _ _ ?_ _
    rw [hpool]
    exact .claim
  refine bind_congr_of_eq ?_ fun minted _ => ?_
  · refine hinit _ _ ?_ _
    rw [htoken, hvault, hpool]
    exact .mint
  refine bind_congr_of_eq ?_ fun vaulted _ => rfl
  refine hinit _ _ ?_ _
  rw [htoken, hvault, hpool]
  exact .vault

theorem processDeposit_serving {amount : U64}
    (h : ServesAlike rt invoke
      (PermittedCall rt bank accounts (.deposit amount))) :
    processDeposit (rt.serving invoke heffect) accounts amount bank =
      processDeposit rt accounts amount bank := by
  unfold processDeposit
  refine bind_congr_of_ok fun _ _ => ?_
  refine bind_congr_of_ok fun a ha => ?_
  refine bind_congr_of_ok fun _ hsigner => ?_
  refine bind_congr_of_ok fun pool hpool => ?_
  refine bind_congr_of_ok fun _ _ => ?_
  refine bind_congr_of_ok fun _ _ => ?_
  refine bind_congr_of_ok fun _ hmint => ?_
  refine bind_congr_of_ok fun _ hvault => ?_
  refine bind_congr_of_ok fun _ _ => ?_
  refine bind_congr_of_ok fun _ _ => ?_
  refine bind_congr_of_ok fun _ hauthority => ?_
  refine bind_congr_of_ok fun _ _ => ?_
  refine bind_congr_of_ok fun _ htoken => ?_
  refine bind_congr_of_ok fun lp hlp => ?_
  refine bind_congr_of_ok fun _ _ => ?_
  simp only [require_eq_ok, verifyTokenProgram_eq_ok, okOr_eq_ok]
    at hsigner hmint hvault hauthority htoken hlp
  have hcalls : ServesAlike rt invoke
      (DepositCall rt a.poolPda.key a.user.key pool amount) := by
    obtain ⟨rest, rfl⟩ := DepositAccounts.next_eq_ok ha
    exact h.mono fun _ _ => .deposit hsigner hpool
  refine bind_congr_of_eq ?_ fun paid _ => ?_
  · refine hcalls _ _ ?_ _
    rw [htoken, ← hvault]
    exact .payIn _
  refine bind_congr_of_eq ?_ fun minted _ => ?_
  · refine hcalls _ _ ?_ _
    rw [htoken, ← hmint, hauthority]
    exact .mint hlp _
  refine bind_congr_of_ok fun clock _ => ?_
  refine bind_congr_of_ok fun recorded _ => ?_
  refine bind_congr_of_eq ?_ fun ensured _ => rfl
  unfold ensureDepositRecord
  refine bind_congr_of_ok fun _ hrecord => ?_
  refine bind_congr_of_ok fun _ _ => ?_
  simp only [require_eq_ok] at hrecord
  split
  · refine createOrAdoptPda_serving (hcalls.mono fun call signers hcall => ?_)
    rw [hrecord] at hcall
    exact .creation hcall
  · rfl

theorem processWithdraw_serving {lpAmount : U64}
    (h : ServesAlike rt invoke
      (PermittedCall rt bank accounts (.withdraw lpAmount))) :
    processWithdraw (rt.serving invoke heffect) accounts lpAmount bank =
      processWithdraw rt accounts lpAmount bank := by
  unfold processWithdraw
  refine bind_congr_of_ok fun _ _ => ?_
  refine bind_congr_of_ok fun a ha => ?_
  refine bind_congr_of_ok fun _ hsigner => ?_
  refine bind_congr_of_ok fun pool hpool => ?_
  refine bind_congr_of_ok fun _ _ => ?_
  refine bind_congr_of_ok fun _ _ => ?_
  refine bind_congr_of_ok fun _ hmint => ?_
  refine bind_congr_of_ok fun _ hvault => ?_
  refine bind_congr_of_ok fun _ htoken => ?_
  refine bind_congr_of_ok fun _ hauthority => ?_
  refine bind_congr_of_ok fun _ _ => ?_
  refine bind_congr_of_ok fun _ _ => ?_
  refine bind_congr_of_ok fun clock _ => ?_
  refine bind_congr_of_ok fun record _ => ?_
  refine bind_congr_of_ok fun _ _ => ?_
  refine bind_congr_of_ok fun _ _ => ?_
  refine bind_congr_of_ok fun _ _ => ?_
  refine bind_congr_of_ok fun collateral hcollateral => ?_
  refine bind_congr_of_ok fun _ _ => ?_
  refine bind_congr_of_ok fun guarded _ => ?_
  simp only [require_eq_ok, verifyTokenProgram_eq_ok, okOr_eq_ok]
    at hsigner hmint hvault hauthority htoken hcollateral
  have hcalls : ServesAlike rt invoke
      (WithdrawCall rt a.poolPda.key a.user.key pool lpAmount) := by
    obtain ⟨rest, rfl⟩ := WithdrawAccounts.next_eq_ok ha
    exact h.mono fun _ _ => .withdraw hsigner hpool
  refine bind_congr_of_eq ?_ fun burned _ => ?_
  · refine hcalls _ _ ?_ _
    rw [htoken, ← hmint]
    exact .burn _
  refine bind_congr_of_eq ?_ fun paid _ => rfl
  refine hcalls _ _ ?_ _
  rw [htoken, ← hvault, hauthority]
  exact .payOut hcollateral _

theorem processFlushToInsurance_serving {amount : U64}
    (h : ServesAlike rt invoke
      (PermittedCall rt bank accounts (.flushToInsurance amount))) :
    processFlushToInsurance (rt.serving invoke heffect) accounts amount
        bank =
      processFlushToInsurance rt accounts amount bank := by
  unfold processFlushToInsurance
  refine bind_congr_of_ok fun _ _ => ?_
  refine bind_congr_of_ok fun a ha => ?_
  refine bind_congr_of_ok fun _ hsigner => ?_
  refine bind_congr_of_ok fun pool hpool => ?_
  refine bind_congr_of_ok fun _ _ => ?_
  refine bind_congr_of_ok fun _ hmode => ?_
  refine bind_congr_of_ok fun _ hadmin => ?_
  refine bind_congr_of_ok fun _ hslab => ?_
  refine bind_congr_of_ok fun _ hvault => ?_
  refine bind_congr_of_ok fun _ hprogram => ?_
  refine bind_congr_of_ok fun _ htoken => ?_
  refine bind_congr_of_ok fun available hceiling => ?_
  refine bind_congr_of_ok fun _ hamount => ?_
  refine bind_congr_of_ok fun _ hauthority => ?_
  unfold validateFlushPoolMode at hmode
  simp only [require_eq_ok, verifyTokenProgram_eq_ok, okOr_eq_ok]
    at hsigner hmode hadmin hslab hvault hprogram htoken hceiling hamount
      hauthority
  refine bind_congr_of_eq ?_ fun flushed _ => rfl
  obtain ⟨rest, rfl⟩ := FlushAccounts.next_eq_ok ha
  refine h _ _ ?_ _
  rw [htoken, ← hvault, ← hslab, ← hprogram, hauthority]
  exact .admin hsigner hpool hadmin (.flush hmode hceiling hamount _)

theorem processTransferAdmin_serving
    (h : ServesAlike rt invoke
      (PermittedCall rt bank accounts .transferAdmin)) :
    processTransferAdmin (rt.serving invoke heffect) accounts bank =
      processTransferAdmin rt accounts bank := by
  unfold processTransferAdmin
  refine bind_congr_of_ok fun a ha => ?_
  refine bind_congr_of_ok fun _ hsigner => ?_
  refine bind_congr_of_ok fun _ hkey => ?_
  refine bind_congr_of_ok fun pool hpool => ?_
  refine bind_congr_of_ok fun _ _ => ?_
  refine bind_congr_of_ok fun _ hadmin => ?_
  refine bind_congr_of_ok fun _ htransferred => ?_
  refine bind_congr_of_ok fun _ hslab => ?_
  refine bind_congr_of_ok fun _ hprogram => ?_
  simp only [require_eq_ok]
    at hsigner hkey hadmin htransferred hslab hprogram
  refine bind_congr_of_eq ?_ fun claimed _ => rfl
  obtain ⟨rest, rfl⟩ := WrapperAdminAccounts.next_eq_ok ha
  refine h _ _ ?_ _
  rw [← hslab] at hkey
  rw [← hadmin, ← hslab, ← hprogram]
  exact .admin hsigner hpool hadmin (.transferAdmin hkey htransferred)

/-- What the guard of the forwarding handlers establishes for their calls. -/
theorem validateAdminCpi_permits (rt : Runtime Pubkey)
    {poolPda admin slab percolatorProgram : AccountInfo Pubkey} {bump : U8}
    (h : validateAdminCpi rt bank poolPda admin slab percolatorProgram =
      .ok bump) :
    ∃ pool, loadPool bank poolPda = .ok pool ∧ admin.isSigner = true ∧
      pool.admin = admin.key ∧ slab.key = pool.slab ∧
      percolatorProgram.key = pool.percolatorProgram ∧
      poolPda.key = (rt.derivePoolPda pool.slab).1 ∧
      bump = (rt.derivePoolPda pool.slab).2 := by
  unfold validateAdminCpi at h
  simp only [bind_eq_ok, require_eq_ok] at h
  obtain ⟨_, hsigner, pool, hpool, _, _, _, hadmin, _, _, _, hslab, _,
    hprogram, _, hkey, hbump⟩ := h
  cases hbump
  rw [← hslab] at hkey ⊢
  exact ⟨pool, hpool, hsigner, hadmin, rfl, hprogram.symm, hkey, rfl⟩

omit [DecidableEq Pubkey] [Inhabited Pubkey] in
theorem NewAuthorityAccounts.next_eq_ok {a : NewAuthorityAccounts Pubkey}
    (h : NewAuthorityAccounts.next accounts = .ok a) :
    ∃ rest, accounts = a.admin :: a.poolPda :: rest := by
  unfold NewAuthorityAccounts.next at h
  split at h
  · cases h
    exact ⟨_, rfl⟩
  · cases h

theorem processAdminSetOracleAuthority_serving {newAuthority : Pubkey}
    (h : ServesAlike rt invoke (PermittedCall rt bank accounts
      (.adminSetOracleAuthority newAuthority))) :
    processAdminSetOracleAuthority (rt.serving invoke heffect) accounts
        newAuthority bank =
      processAdminSetOracleAuthority rt accounts newAuthority bank := by
  unfold processAdminSetOracleAuthority
  refine bind_congr_of_ok fun a ha => ?_
  refine bind_congr_of_ok fun _ hauthority => ?_
  refine bind_congr_of_ok fun _ _ => ?_
  refine bind_congr_of_ok fun bump hbump => ?_
  obtain ⟨pool, hpool, hsigner, hadmin, hslab, hprogram, hkey, rfl⟩ :=
    validateAdminCpi_permits rt hbump
  simp only [require_eq_ok] at hauthority
  obtain ⟨rest, rfl⟩ := NewAuthorityAccounts.next_eq_ok ha
  refine h _ _ ?_ _
  rw [hslab, hprogram, hauthority]
  exact .admin hsigner hpool hadmin (.oracleAuthority hkey _)

theorem processAdminResolveMarket_serving
    (h : ServesAlike rt invoke
      (PermittedCall rt bank accounts .adminResolveMarket)) :
    processAdminResolveMarket (rt.serving invoke heffect) accounts bank =
      processAdminResolveMarket rt accounts bank := by
  unfold processAdminResolveMarket
  refine bind_congr_of_ok fun a ha => ?_
  refine bind_congr_of_ok fun bump hbump => ?_
  obtain ⟨pool, hpool, hsigner, hadmin, hslab, hprogram, hkey, rfl⟩ :=
    validateAdminCpi_permits rt hbump
  refine bind_congr_of_eq ?_ fun resolved _ => rfl
  obtain ⟨rest, rfl⟩ := WrapperAdminAccounts.next_eq_ok ha
  refine h _ _ ?_ _
  rw [hslab, hprogram]
  exact .admin hsigner hpool hadmin (.resolve hkey)

theorem processAdminWithdrawInsurance_serving {amount : U64}
    (h : ServesAlike rt invoke
      (PermittedCall rt bank accounts (.adminWithdrawInsurance amount))) :
    processAdminWithdrawInsurance (rt.serving invoke heffect) accounts
        amount bank =
      processAdminWithdrawInsurance rt accounts amount bank := by
  unfold processAdminWithdrawInsurance
  refine bind_congr_of_ok fun a ha => ?_
  refine bind_congr_of_ok fun bump hbump => ?_
  refine bind_congr_of_ok fun pool hpool => ?_
  refine bind_congr_of_ok fun _ hmode => ?_
  refine bind_congr_of_ok fun _ hvault => ?_
  refine bind_congr_of_ok fun _ htoken => ?_
  refine bind_congr_of_ok fun _ hauthority => ?_
  obtain ⟨read, hread, hsigner, hadmin, hslab, hprogram, hkey, rfl⟩ :=
    validateAdminCpi_permits rt hbump
  cases hpool.symm.trans hread
  unfold validateWithdrawInsurancePoolMode at hmode
  unfold validateReturnVault at hvault
  simp only [require_eq_ok, verifyTokenProgram_eq_ok]
    at hmode hvault htoken hauthority
  refine bind_congr_of_eq ?_ fun returned _ => rfl
  obtain ⟨rest, rfl⟩ := WithdrawInsuranceAccounts.next_eq_ok ha
  refine h _ _ ?_ _
  rw [htoken, ← hvault, hslab, hprogram, hauthority]
  exact .admin hsigner hpool hadmin (.returnInsurance hmode _ _ _)

theorem processAdminSetInsurancePolicy_serving {authority : Pubkey}
    {minWithdrawBase cooldownSlots : U64} {maxWithdrawBps : U16}
    (h : ServesAlike rt invoke (PermittedCall rt bank accounts
      (.adminSetInsurancePolicy authority minWithdrawBase maxWithdrawBps
        cooldownSlots))) :
    processAdminSetInsurancePolicy (rt.serving invoke heffect) accounts
        authority minWithdrawBase maxWithdrawBps cooldownSlots bank =
      processAdminSetInsurancePolicy rt accounts authority minWithdrawBase
        maxWithdrawBps cooldownSlots bank := by
  unfold processAdminSetInsurancePolicy
  refine bind_congr_of_ok fun a ha => ?_
  refine bind_congr_of_ok fun vaultBump hvaultBump => ?_
  refine bind_congr_of_ok fun _ hzero => ?_
  refine bind_congr_of_ok fun bump hbump => ?_
  obtain ⟨pool, hpool, hsigner, hadmin, hslab, hprogram, hkey, rfl⟩ :=
    validateAdminCpi_permits rt hbump
  unfold validateVaultInsuranceAuthority at hvaultBump
  simp only [bind_eq_ok, require_eq_ok] at hvaultBump hzero
  obtain ⟨_, hrequested, _, hauthority, hvaultBump⟩ := hvaultBump
  obtain ⟨rfl, rfl, rfl⟩ := hzero
  cases hvaultBump
  obtain ⟨rest, rfl⟩ := NewAuthorityAccounts.next_eq_ok ha
  refine h _ _ ?_ _
  rw [hslab, hprogram, ← hrequested, hauthority]
  exact .admin hsigner hpool hadmin (.insuranceAuthority hkey)

/-! ## Transactions -/

theorem processInstruction_serving {instruction : StakeInstruction Pubkey}
    (h : ServesAlike rt invoke
      (PermittedCall rt bank accounts instruction)) :
    processInstruction (rt.serving invoke heffect) accounts instruction
        bank =
      processInstruction rt accounts instruction bank := by
  cases instruction with
  | initPool cooldownSlots depositCap => exact processInitPool_serving h
  | deposit amount => exact processDeposit_serving h
  | withdraw lpAmount => exact processWithdraw_serving h
  | flushToInsurance amount => exact processFlushToInsurance_serving h
  | transferAdmin => exact processTransferAdmin_serving h
  | adminSetOracleAuthority newAuthority =>
      exact processAdminSetOracleAuthority_serving h
  | adminResolveMarket => exact processAdminResolveMarket_serving h
  | adminWithdrawInsurance amount =>
      exact processAdminWithdrawInsurance_serving h
  | adminSetInsurancePolicy authority minWithdrawBase maxWithdrawBps
      cooldownSlots =>
      exact processAdminSetInsurancePolicy_serving h
  | initTradingPool cooldownSlots depositCap =>
      refine bind_congr_of_eq ?_ fun created _ => rfl
      exact processInitPool_serving (h.mono fun _ _ => .initTradingPool)
  -- The others make no call.
  | updateConfig newCooldownSlots newDepositCap => rfl
  | adminSetRiskThreshold newThreshold => rfl
  | adminSetMaintenanceFee newFee => rfl
  | accrueFees => rfl
  | adminSetHwmConfig enabled hwmFloorBps => rfl

/-- The outcome of a transaction, success or error, depends on the other
programs only through the calls permitted to the decoded instruction. -/
theorem process_serving {data : List U8}
    (h : ∀ instruction,
      StakeInstruction.unpack rt.pubkeyFromBytes data = .ok instruction →
        ServesAlike rt invoke
          (PermittedCall rt bank accounts instruction)) :
    process (rt.serving invoke heffect) accounts data bank =
      process rt accounts data bank :=
  bind_congr_of_ok fun instruction hunpack =>
    processInstruction_serving (h instruction hunpack)

end Serving

namespace Reference

/-- Programs that serve only what a deposit sends them. -/
def depositPrograms (call : CpiInstruction Address)
    (signers : List (List (Seed Address))) (bank : Bank Address) :
    Except ProgramError (Bank Address) :=
  match call with
  | .burn _ _ _ _ _ => .error .invalidInstructionData
  | .wrapper _ _ _ => .error .invalidInstructionData
  | .initializeMint _ _ _ _ _ => .error .invalidInstructionData
  | .initializeAccount _ _ _ _ => .error .invalidInstructionData
  | _ => runtime.invokeSigned call signers bank

theorem depositPrograms_effect {call : CpiInstruction Address}
    {signers : List (List (Seed Address))} {before after : Bank Address}
    (h : depositPrograms call signers before = .ok after) :
    CpiInstruction.Effect runtime.toDeployment before after call := by
  unfold depositPrograms at h
  split at h
  · cases h
  · cases h
  · cases h
  · cases h
  · exact runtime.invokeSigned_effect h

/-- A deposit goes through with them as it does with all programs. -/
theorem openedMarket_deposit_serving : ∃ after,
    process (runtime.serving depositPrograms depositPrograms_effect)
        (depositAccounts alice) depositData (bankAfter openedMarket) =
      .ok after := by
  have haccepts : accepts (bankAfter openedMarket) (deposit alice 500) =
      true := by decide +kernel
  have hunpack : StakeInstruction.unpack runtime.pubkeyFromBytes
      depositData = .ok (.deposit 500) := rfl
  obtain ⟨-, after, h⟩ := process_of_accepts hunpack haccepts
  refine ⟨after, ?_⟩
  rw [process_serving, h]
  intro instruction hinstruction
  cases hunpack.symm.trans hinstruction
  intro call signers hpermitted bank
  cases hpermitted with
  | deposit _ _ hcall =>
      cases hcall with
      | creation hcreation => cases hcreation <;> rfl
      | _ => rfl
  | admin _ _ _ hcall => cases hcall

end Reference

end PercolatorVault
