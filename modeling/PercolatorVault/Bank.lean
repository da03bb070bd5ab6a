import PercolatorVault.PoolState
import PercolatorVault.StakeInstruction

/-!
# Accounts and the programs around the vault

A `Bank` is the state the program runs in: an account at every address and the
clock.  Account data is kept in the form in which the program casts or unpacks
it.  The system program, SPL Token and the percolator wrapper are not part of
the repository; what the program relies on is stated as the effect of each
instruction it can send them, and a `Runtime` is any implementation whose
successful calls have these effects.
-/

namespace PercolatorVault

open CheckedArithmetic
open LittleEndian

variable {Pubkey : Type}

/-! ## Accounts -/

structure AccountInfo (Pubkey : Type) where
  key : Pubkey
  isSigner : Bool
  isWritable : Bool
deriving DecidableEq

/-- The part of an SPL token account that decides who moves how much. -/
structure TokenAccount (Pubkey : Type) where
  mint : Pubkey
  owner : Pubkey
  amount : U64
  delegate : Option Pubkey
deriving DecidableEq

structure Mint (Pubkey : Type) where
  mintAuthority : Option Pubkey
  supply : U64
  freezeAuthority : Option Pubkey
deriving DecidableEq

/-- Data of an account.  `zeroed` is freshly allocated space, and a plain
wallet has none of it; an account of another program whose bytes can be cast
to a record of this one is represented by that record; `foreign` is data this
program never casts. -/
inductive AccountData (Pubkey : Type) where
  | zeroed (length : ℕ)
  | stakePool (pool : StakePool Pubkey)
  | stakeDeposit (deposit : StakeDeposit Pubkey)
  | tokenAccount (account : TokenAccount Pubkey)
  | mint (mint : Mint Pubkey)
  | foreign (bytes : List U8)
deriving DecidableEq

structure Account (Pubkey : Type) where
  lamports : U64
  owner : Pubkey
  data : AccountData Pubkey
deriving DecidableEq

structure Clock where
  slot : U64
  epoch : U64
deriving DecidableEq

structure Bank (Pubkey : Type) where
  accounts : Pubkey → Account Pubkey
  clock : Clock

def AccountData.isEmpty : AccountData Pubkey → Bool
  | .zeroed length => length == 0
  | .foreign bytes => bytes.isEmpty
  | _ => false

section Updates

variable [DecidableEq Pubkey]

def Bank.setAccount (bank : Bank Pubkey) (key : Pubkey)
    (account : Account Pubkey) : Bank Pubkey :=
  { bank with accounts := Function.update bank.accounts key account }

def Bank.setData (bank : Bank Pubkey) (key : Pubkey)
    (data : AccountData Pubkey) : Bank Pubkey :=
  bank.setAccount key { bank.accounts key with data := data }

def Bank.setOwner (bank : Bank Pubkey) (key owner : Pubkey) : Bank Pubkey :=
  bank.setAccount key { bank.accounts key with owner := owner }

def Bank.setLamports (bank : Bank Pubkey) (key : Pubkey) (lamports : U64) :
    Bank Pubkey :=
  bank.setAccount key { bank.accounts key with lamports := lamports }

@[simp] theorem Bank.setAccount_clock (bank : Bank Pubkey) (key : Pubkey)
    (account : Account Pubkey) :
    (bank.setAccount key account).clock = bank.clock := rfl

@[simp] theorem Bank.setAccount_same (bank : Bank Pubkey) (key : Pubkey)
    (account : Account Pubkey) :
    (bank.setAccount key account).accounts key = account := by
  simp [Bank.setAccount]

theorem Bank.setAccount_other (bank : Bank Pubkey) {key other : Pubkey}
    (account : Account Pubkey) (h : other ≠ key) :
    (bank.setAccount key account).accounts other = bank.accounts other := by
  simp [Bank.setAccount, h]

@[simp] theorem Bank.setData_clock (bank : Bank Pubkey) (key : Pubkey)
    (data : AccountData Pubkey) :
    (bank.setData key data).clock = bank.clock := rfl

@[simp] theorem Bank.setData_data (bank : Bank Pubkey) (key : Pubkey)
    (data : AccountData Pubkey) :
    ((bank.setData key data).accounts key).data = data := by
  simp [Bank.setData]

@[simp] theorem Bank.setData_owner (bank : Bank Pubkey)
    (key other : Pubkey) (data : AccountData Pubkey) :
    ((bank.setData key data).accounts other).owner =
      (bank.accounts other).owner := by
  by_cases h : other = key
  · subst other
    simp [Bank.setData]
  · simp [Bank.setData, Bank.setAccount_other _ _ h]

theorem Bank.setData_other (bank : Bank Pubkey) {key other : Pubkey}
    (data : AccountData Pubkey) (h : other ≠ key) :
    (bank.setData key data).accounts other = bank.accounts other :=
  bank.setAccount_other _ h

@[simp] theorem Bank.setLamports_data (bank : Bank Pubkey)
    (key other : Pubkey) (lamports : U64) :
    ((bank.setLamports key lamports).accounts other).data =
      (bank.accounts other).data := by
  by_cases h : other = key
  · subst other
    simp [Bank.setLamports]
  · simp [Bank.setLamports, Bank.setAccount_other _ _ h]

@[simp] theorem Bank.setLamports_owner (bank : Bank Pubkey)
    (key other : Pubkey) (lamports : U64) :
    ((bank.setLamports key lamports).accounts other).owner =
      (bank.accounts other).owner := by
  by_cases h : other = key
  · subst other
    simp [Bank.setLamports]
  · simp [Bank.setLamports, Bank.setAccount_other _ _ h]

end Updates

/-! ## Addresses -/

inductive Seed (Pubkey : Type) where
  | literal (text : String)
  | key (address : Pubkey)
  | bump (value : U8)
deriving DecidableEq

/-- The three kinds of address the program derives. -/
inductive PdaKind (Pubkey : Type) where
  | stakePool (slab : Pubkey)
  | vaultAuth (pool : Pubkey)
  | stakeDeposit (pool user : Pubkey)
deriving DecidableEq

def PdaKind.seeds : PdaKind Pubkey → List (Seed Pubkey)
  | .stakePool slab => [.literal "stake_pool", .key slab]
  | .vaultAuth pool => [.literal "vault_auth", .key pool]
  | .stakeDeposit pool user => [.literal "stake_deposit", .key pool, .key user]

/-- The addresses of the programs and the derivation of program addresses,
which is collision free on the seeds this program uses. -/
structure Deployment (Pubkey : Type) where
  programId : Pubkey
  splTokenId : Pubkey
  systemProgramId : Pubkey
  clockId : Pubkey
  findProgramAddress : List (Seed Pubkey) → Pubkey → Pubkey × U8
  splTokenId_ne_programId : splTokenId ≠ programId
  systemProgramId_ne_programId : systemProgramId ≠ programId
  systemProgramId_ne_splTokenId : systemProgramId ≠ splTokenId
  findProgramAddress_injective : ∀ (left right : PdaKind Pubkey),
    (findProgramAddress left.seeds programId).1 =
      (findProgramAddress right.seeds programId).1 → left = right

namespace Deployment

variable (d : Deployment Pubkey)

def derivePoolPda (slab : Pubkey) : Pubkey × U8 :=
  d.findProgramAddress (PdaKind.stakePool slab).seeds d.programId

def deriveVaultAuthority (pool : Pubkey) : Pubkey × U8 :=
  d.findProgramAddress (PdaKind.vaultAuth pool).seeds d.programId

def deriveDepositPda (pool user : Pubkey) : Pubkey × U8 :=
  d.findProgramAddress (PdaKind.stakeDeposit pool user).seeds d.programId

/-- Addresses only this program can sign for. -/
def IsProgramAddress (key : Pubkey) : Prop :=
  ∃ seeds, key = (d.findProgramAddress seeds d.programId).1

theorem deriveVaultAuthority_isProgramAddress (pool : Pubkey) :
    d.IsProgramAddress (d.deriveVaultAuthority pool).1 :=
  ⟨_, rfl⟩

theorem deriveVaultAuthority_injective {left right : Pubkey}
    (h : (d.deriveVaultAuthority left).1 = (d.deriveVaultAuthority right).1) :
    left = right := by
  have hkind := d.findProgramAddress_injective
    (.vaultAuth left) (.vaultAuth right) h
  simpa using hkind

theorem deriveDepositPda_injective {pool pool' user user' : Pubkey}
    (h : (d.deriveDepositPda pool user).1 =
      (d.deriveDepositPda pool' user').1) :
    pool = pool' ∧ user = user' := by
  have hkind := d.findProgramAddress_injective
    (.stakeDeposit pool user) (.stakeDeposit pool' user') h
  simpa using hkind

theorem derivePoolPda_ne_deriveDepositPda (slab pool user : Pubkey) :
    (d.derivePoolPda slab).1 ≠ (d.deriveDepositPda pool user).1 := by
  intro h
  have hkind := d.findProgramAddress_injective
    (.stakePool slab) (.stakeDeposit pool user) h
  cases hkind

/-- `account` is the SPL token account at `key`. -/
def TokenAt (bank : Bank Pubkey) (key : Pubkey)
    (account : TokenAccount Pubkey) : Prop :=
  (bank.accounts key).owner = d.splTokenId ∧
    (bank.accounts key).data = .tokenAccount account

/-- `mint` is the SPL mint at `key`. -/
def MintAt (bank : Bank Pubkey) (key : Pubkey) (mint : Mint Pubkey) : Prop :=
  (bank.accounts key).owner = d.splTokenId ∧
    (bank.accounts key).data = .mint mint

end Deployment

/-! ## Calls to other programs -/

structure AccountMeta (Pubkey : Type) where
  key : Pubkey
  isSigner : Bool
  isWritable : Bool
deriving DecidableEq

inductive CpiInstruction (Pubkey : Type) where
  | createAccount (payer target : Pubkey) (lamports space : U64)
      (owner : Pubkey)
  | transferLamports (payer target : Pubkey) (lamports : U64)
  | allocate (target : Pubkey) (space : U64)
  | assign (target owner : Pubkey)
  | initializeMint (tokenProgram mint mintAuthority : Pubkey)
      (freezeAuthority : Option Pubkey) (decimals : U8)
  | initializeAccount (tokenProgram account mint owner : Pubkey)
  | transferTokens (tokenProgram source destination authority : Pubkey)
      (amount : U64)
  | mintTo (tokenProgram mint account authority : Pubkey) (amount : U64)
  | burn (tokenProgram account mint authority : Pubkey) (amount : U64)
  | wrapper (percolatorProgram : Pubkey) (accounts : List (AccountMeta Pubkey))
      (data : List U8)

def tagTopUpInsurance : U8 := 9
def tagResolveMarket : U8 := 19
def tagUpdateAuthority : U8 := 32
def tagUpdateAssetAuthority : U8 := 65
def tagWithdrawInsurance : U8 := 41

def assetAuthInsurance : U8 := 1
def assetAuthOracle : U8 := 4

def TokenAccount.Authorizes (account : TokenAccount Pubkey)
    (authority : Pubkey) : Prop :=
  account.owner = authority ∨ account.delegate = some authority

/-- Same mint and holder; an approval may have been used up. -/
structure TokenAccount.SameHolder (before after : TokenAccount Pubkey) :
    Prop where
  mint : after.mint = before.mint
  owner : after.owner = before.owner
  delegate : after.delegate = before.delegate ∨ after.delegate = none

section Effects

variable [DecidableEq Pubkey] (d : Deployment Pubkey)

/-- `amount` tokens moved from `source` to `destination`, and nothing else. -/
structure TokensMoved (before after : Bank Pubkey)
    (source destination authority : Pubkey) (amount : ℕ) : Prop where
  clock : after.clock = before.clock
  frame : ∀ key, key ≠ source → key ≠ destination →
    after.accounts key = before.accounts key
  moved : ∃ s s' t t',
    d.TokenAt before source s ∧ d.TokenAt after source s' ∧
    d.TokenAt before destination t ∧ d.TokenAt after destination t' ∧
    s.SameHolder s' ∧ t.SameHolder t' ∧ s.mint = t.mint ∧
    s.Authorizes authority ∧ amount ≤ s.amount.toNat ∧
    s'.amount.toNat + amount =
      s.amount.toNat + (if destination = source then amount else 0) ∧
    t'.amount.toNat + (if source = destination then amount else 0) =
      t.amount.toNat + amount

structure TokensMinted (before after : Bank Pubkey)
    (mint account authority : Pubkey) (amount : ℕ) : Prop where
  clock : after.clock = before.clock
  frame : ∀ key, key ≠ mint → key ≠ account →
    after.accounts key = before.accounts key
  minted : ∃ m m' t t',
    d.MintAt before mint m ∧ d.MintAt after mint m' ∧
    d.TokenAt before account t ∧ d.TokenAt after account t' ∧
    t.SameHolder t' ∧ t.mint = mint ∧
    m.mintAuthority = some authority ∧
    m'.mintAuthority = m.mintAuthority ∧
    m'.freezeAuthority = m.freezeAuthority ∧
    m'.supply.toNat = m.supply.toNat + amount ∧
    t'.amount.toNat = t.amount.toNat + amount

structure TokensBurned (before after : Bank Pubkey)
    (account mint authority : Pubkey) (amount : ℕ) : Prop where
  clock : after.clock = before.clock
  frame : ∀ key, key ≠ mint → key ≠ account →
    after.accounts key = before.accounts key
  burned : ∃ m m' t t',
    d.MintAt before mint m ∧ d.MintAt after mint m' ∧
    d.TokenAt before account t ∧ d.TokenAt after account t' ∧
    t.SameHolder t' ∧ t.mint = mint ∧ t.Authorizes authority ∧
    m'.mintAuthority = m.mintAuthority ∧
    m'.freezeAuthority = m.freezeAuthority ∧
    m.supply.toNat = m'.supply.toNat + amount ∧
    t.amount.toNat = t'.amount.toNat + amount

/-- The mint at `mint` was uninitialised and is now empty. -/
structure MintInitialized (before after : Bank Pubkey)
    (mint mintAuthority : Pubkey) (freezeAuthority : Option Pubkey) :
    Prop where
  clock : after.clock = before.clock
  frame : ∀ key, key ≠ mint → after.accounts key = before.accounts key
  fresh : ∃ length, (before.accounts mint).data = .zeroed length
  tokenOwned : (before.accounts mint).owner = d.splTokenId
  initialized : d.MintAt after mint ⟨some mintAuthority, 0, freezeAuthority⟩

/-- The token account was uninitialised.  It starts empty, except for an
account of the native mint, which nobody may mint. -/
structure TokenAccountInitialized (before after : Bank Pubkey)
    (account mint owner : Pubkey) : Prop where
  clock : after.clock = before.clock
  frame : ∀ key, key ≠ account → after.accounts key = before.accounts key
  fresh : ∃ length, (before.accounts account).data = .zeroed length
  tokenOwned : (before.accounts account).owner = d.splTokenId
  initialized : ∃ m amount,
    d.MintAt before mint m ∧
    d.TokenAt after account ⟨mint, owner, amount, none⟩ ∧
    (m.mintAuthority ≠ none → amount = 0)

/-- Only accounts of programs other than the vault and SPL Token changed. -/
structure OnlyForeignChanged (before after : Bank Pubkey) : Prop where
  clock : after.clock = before.clock
  frame : ∀ key,
    ((before.accounts key).owner = d.programId ∨
      (before.accounts key).owner = d.splTokenId ∨
      (after.accounts key).owner = d.programId ∨
      (after.accounts key).owner = d.splTokenId) →
    after.accounts key = before.accounts key

/-- What a successful wrapper call did, read off its tag.  TopUpInsurance
moves exactly the amount out of the signer's token account into the wrapper's
vault, WithdrawInsurance moves exactly the amount the other way under the
wrapper's own authority, and no other call moves tokens. -/
def WrapperEffect (before after : Bank Pubkey)
    (accounts : List (AccountMeta Pubkey)) (data : List U8) : Prop :=
  if data.head? = some tagTopUpInsurance then
    ∃ signer market source vault rest middle,
      accounts.map AccountMeta.key =
        signer :: market :: source :: vault :: rest ∧
      source ≠ vault ∧
      TokensMoved d before middle source vault signer
        (leValue data.tail) ∧
      OnlyForeignChanged d middle after
  else if data.head? = some tagWithdrawInsurance then
    ∃ authority market destination vault vaultAuthority rest middle,
      accounts.map AccountMeta.key =
        authority :: market :: destination :: vault :: vaultAuthority :: rest ∧
      destination ≠ vault ∧
      ¬ d.IsProgramAddress vaultAuthority ∧
      TokensMoved d before middle vault destination vaultAuthority
        (leValue data.tail) ∧
      OnlyForeignChanged d middle after
  else OnlyForeignChanged d before after

/-- What is known of the bank after a successful call. -/
def CpiInstruction.Effect (before after : Bank Pubkey) :
    CpiInstruction Pubkey → Prop
  | .createAccount payer target lamports space owner =>
      payer ≠ target ∧
      (before.accounts payer).owner = d.systemProgramId ∧
      lamports.toNat ≤ (before.accounts payer).lamports.toNat ∧
      before.accounts target = ⟨0, d.systemProgramId, .zeroed 0⟩ ∧
      after =
        (before.setLamports payer
          ((before.accounts payer).lamports - lamports)).setAccount target
          ⟨lamports, owner, .zeroed space.toNat⟩
  | .transferLamports payer target lamports =>
      (before.accounts payer).owner = d.systemProgramId ∧
      lamports.toNat ≤ (before.accounts payer).lamports.toNat ∧
      ∃ middle,
        middle = before.setLamports payer
          ((before.accounts payer).lamports - lamports) ∧
        after = middle.setLamports target
          ((middle.accounts target).lamports + lamports)
  | .allocate target space =>
      (before.accounts target).owner = d.systemProgramId ∧
      (before.accounts target).data = .zeroed 0 ∧
      after = before.setData target (.zeroed space.toNat)
  | .assign target owner =>
      (before.accounts target).owner = d.systemProgramId ∧
      after = before.setOwner target owner
  | .initializeMint _ mint mintAuthority freezeAuthority _ =>
      MintInitialized d before after mint mintAuthority freezeAuthority
  | .initializeAccount _ account mint owner =>
      TokenAccountInitialized d before after account mint owner
  | .transferTokens _ source destination authority amount =>
      TokensMoved d before after source destination authority amount.toNat
  | .mintTo _ mint account authority amount =>
      TokensMinted d before after mint account authority amount.toNat
  | .burn _ account mint authority amount =>
      TokensBurned d before after account mint authority amount.toNat
  | .wrapper _ accounts data => WrapperEffect d before after accounts data

end Effects

/-- A deployment together with the rent rule, the encoding of addresses and
the other programs; the latter are only known through the effects of their
successful calls. -/
structure Runtime (Pubkey : Type) [DecidableEq Pubkey] extends
    Deployment Pubkey where
  minimumBalance : ℕ → U64
  pubkeyFromBytes : List U8 → Pubkey
  pubkeyToBytes : Pubkey → List U8
  invokeSigned : CpiInstruction Pubkey → List (List (Seed Pubkey)) →
    Bank Pubkey → Except ProgramError (Bank Pubkey)
  invokeSigned_effect : ∀ {instruction signers before after},
    invokeSigned instruction signers before = .ok after →
    instruction.Effect toDeployment before after

end PercolatorVault
