import PercolatorVault.ReferenceRuntime
import PercolatorVault.Transactions

/-!
# A market on the reference runtime

One market with its admin, two depositors and a donor, before the vault
program has done anything.  Lists of transactions are executed on it to
exhibit concrete runs.
-/

namespace PercolatorVault

open CheckedArithmetic
open FallibleSteps

namespace Reference

/-! ## Parties and accounts -/

structure Party where
  key : Address
  tokens : Address
  lpTokens : Address

def admin : Address := .wallet 1
def alice : Party := ⟨.wallet 2, .wallet 20, .wallet 21⟩
def bob : Party := ⟨.wallet 3, .wallet 30, .wallet 31⟩
def donor : Party := ⟨.wallet 4, .wallet 40, .wallet 41⟩

def slab : Address := .wallet 10
def percolator : Address := .wallet 11
def lpMint : Address := .wallet 12
def vault : Address := .wallet 13
def collateralMint : Address := .wallet 14
def wrapperVault : Address := .wallet 15
def wrapperAuthority : Address := .wallet 16
def rentSysvar : Address := .wallet 17
def poolKey : Address := .stakePool slab
def vaultAuthority : Address := .vaultAuth poolKey

def emptyWallet : Account Address := ⟨0, .systemProgram, .zeroed 0⟩

def fundedWallet : Account Address := ⟨1000000000000, .systemProgram, .zeroed 0⟩

/-- Space an SPL mint or token account is going to use. -/
def tokenSpace (size : ℕ) : Account Address :=
  ⟨1461600, .splToken, .zeroed size⟩

def collateralOf (owner : Address) (amount : U64) : Account Address :=
  ⟨2039280, .splToken, .tokenAccount ⟨collateralMint, owner, amount, none⟩⟩

def collateralSupply : Mint Address := ⟨some admin, 0xE000000000000000, none⟩

def genesisAccounts : Address → Account Address
  | .wallet 1 => fundedWallet
  | .wallet 2 => fundedWallet
  | .wallet 3 => fundedWallet
  | .wallet 10 => ⟨1, percolator, .foreign [1]⟩
  | .wallet 12 => tokenSpace 82
  | .wallet 13 => tokenSpace 165
  | .wallet 14 => ⟨1461600, .splToken, .mint collateralSupply⟩
  | .wallet 15 => collateralOf wrapperAuthority 0
  | .wallet 20 => collateralOf alice.key 0x8000000000000000
  | .wallet 21 => tokenSpace 165
  | .wallet 30 => collateralOf bob.key 0x4000000000000000
  | .wallet 31 => tokenSpace 165
  | .wallet 40 => collateralOf donor.key 0x2000000000000000
  | _ => emptyWallet

def genesis : Bank Address := ⟨genesisAccounts, ⟨1000, 1⟩⟩

theorem genesis_genesis : Genesis deployment genesis where
  unused key howned := by
    change (genesisAccounts key).owner = .vaultProgram at howned
    unfold genesisAccounts at howned
    split at howned <;> cases howned
  mintsExist key t ht := by
    have hdata : (genesisAccounts key).data = .tokenAccount t := ht.2
    have hmint : t.mint = collateralMint := by
      unfold genesisAccounts at hdata
      split at hdata <;> cases hdata <;> rfl
    exact ⟨collateralSupply, by rw [hmint]; exact ⟨rfl, rfl⟩⟩

/-! ## Transactions of the parties -/

def signer (key : Address) : AccountInfo Address := ⟨key, true, true⟩
def writable (key : Address) : AccountInfo Address := ⟨key, false, true⟩
def readonly (key : Address) : AccountInfo Address := ⟨key, false, false⟩

def initAccounts : List (AccountInfo Address) :=
  [signer admin, writable slab, writable poolKey, writable lpMint,
    writable vault, readonly vaultAuthority, readonly collateralMint,
    readonly percolator, readonly .splToken, readonly .systemProgram,
    readonly rentSysvar]

def initPool (cooldownSlots : U64) : Transaction Address :=
  .call initAccounts (.initPool cooldownSlots 0)

def initTradingPool (cooldownSlots : U64) : Transaction Address :=
  .call initAccounts (.initTradingPool cooldownSlots 0)

def openLpAccount (party : Party) : Transaction Address :=
  .openAccount party.lpTokens lpMint party.key

def depositAccounts (party : Party) : List (AccountInfo Address) :=
  [signer party.key, writable poolKey, writable party.tokens, writable vault,
    writable lpMint, writable party.lpTokens, readonly vaultAuthority,
    writable (.stakeDeposit poolKey party.key), readonly .splToken,
    readonly .clockSysvar, readonly .systemProgram]

def deposit (party : Party) (amount : U64) : Transaction Address :=
  .call (depositAccounts party) (.deposit amount)

def withdraw (party : Party) (lpAmount : U64) : Transaction Address :=
  .call
    [signer party.key, writable poolKey, writable party.lpTokens,
      writable lpMint, writable vault, writable party.tokens,
      readonly vaultAuthority, writable (.stakeDeposit poolKey party.key),
      readonly .splToken, readonly .clockSysvar]
    (.withdraw lpAmount)

def flush (amount : U64) : Transaction Address :=
  .call
    [signer admin, writable poolKey, writable vault, readonly vaultAuthority,
      writable slab, writable wrapperVault, readonly percolator,
      readonly .splToken]
    (.flushToInsurance amount)

def returnInsurance (amount : U64) : Transaction Address :=
  .call
    [signer admin, writable poolKey, writable slab, readonly vaultAuthority,
      writable vault, writable wrapperVault, readonly wrapperAuthority,
      readonly percolator, readonly .splToken, readonly .clockSysvar]
    (.adminWithdrawInsurance amount)

def accrueFees : Transaction Address :=
  .call
    [signer donor.key, writable poolKey, readonly vault,
      readonly .clockSysvar]
    .accrueFees

def setHwmConfig (enabled : Bool) (floorBps : U16) : Transaction Address :=
  .call [signer admin, writable poolKey] (.adminSetHwmConfig enabled floorBps)

def donate (amount : U64) : Transaction Address :=
  .transfer donor.tokens vault donor.key amount

def burnLp (party : Party) (amount : U64) : Transaction Address :=
  .burn party.lpTokens lpMint party.key amount

def waitUntil (slot epoch : U64) : Transaction Address := .wait ⟨slot, epoch⟩

/-! ## Executing them -/

def authentic : Transaction Address → Bool
  | .call accounts _ =>
      accounts.all fun info => !info.isSigner || !isDerived info.key
  | .transfer _ _ authority _ => !isDerived authority
  | .burn _ _ authority _ => !isDerived authority
  | _ => true

theorem authentic_sound {transaction : Transaction Address}
    (h : authentic transaction = true) :
    transaction.Authentic deployment := by
  cases transaction with
  | call accounts instruction =>
      intro info hmem hsigner
      simp only [authentic, List.all_eq_true] at h
      have hinfo := h info hmem
      rw [hsigner] at hinfo
      exact not_isProgramAddress (by simpa using hinfo)
  | transfer source destination authority amount =>
      exact not_isProgramAddress (by simpa [authentic] using h)
  | burn account mint authority amount =>
      exact not_isProgramAddress (by simpa [authentic] using h)
  | openAccount account mint owner => trivial
  | wait clock => trivial

/-- The bank after the transactions, starting with an unused program. -/
def bankAfter (transactions : List (Transaction Address)) : Bank Address :=
  Transaction.performAll runtime genesis transactions

/-- The next transaction is signed by those who can and succeeds. -/
def accepts (bank : Bank Address) (transaction : Transaction Address) : Bool :=
  authentic transaction && transaction.succeeds runtime bank

def acceptsAll (bank : Bank Address)
    (transactions : List (Transaction Address)) : Bool :=
  transactions.all authentic &&
    Transaction.allSucceed runtime bank transactions

theorem acceptsAll_cons {bank : Bank Address}
    {transaction : Transaction Address}
    {rest : List (Transaction Address)}
    (h : acceptsAll bank (transaction :: rest) = true) :
    accepts bank transaction = true ∧
      acceptsAll (transaction.perform runtime bank) rest = true := by
  simp only [acceptsAll, List.all_cons, Transaction.allSucceed,
    Bool.and_eq_true] at h
  obtain ⟨⟨hauthentic, hrest⟩, hsucceeds, hsucceed⟩ := h
  constructor
  · rw [accepts, hauthentic, hsucceeds]
    rfl
  · rw [acceptsAll, hrest, hsucceed]
    rfl

theorem step_of_accepts {bank : Bank Address}
    {transaction : Transaction Address}
    (h : accepts bank transaction = true) :
    Step runtime bank transaction.event
      (transaction.perform runtime bank) := by
  simp only [accepts, Bool.and_eq_true] at h
  exact Transaction.perform_step (authentic_sound h.1) h.2

/-- An accepted call, sent as data to the entry point. -/
theorem process_of_accepts {bank : Bank Address}
    {accounts : List (AccountInfo Address)}
    {instruction : StakeInstruction Address} {data : List U8}
    (hunpack : StakeInstruction.unpack runtime.pubkeyFromBytes data =
      .ok instruction)
    (h : accepts bank (.call accounts instruction) = true) :
    SignedByOthers deployment accounts ∧
      ∃ after, process runtime accounts data bank = .ok after := by
  rw [accepts, Bool.and_eq_true] at h
  obtain ⟨hauthentic, hsucceeds⟩ := h
  refine ⟨authentic_sound hauthentic, ?_⟩
  simp only [process, bind_eq_ok]
  simp only [Transaction.succeeds, Transaction.execute] at hsucceeds
  cases hrun : processInstruction runtime accounts instruction bank with
  | error error =>
      rw [hrun] at hsucceeds
      cases hsucceeds
  | ok after => exact ⟨after, instruction, hunpack, hrun⟩

theorem run_of_acceptsAll {bank : Bank Address}
    {transactions : List (Transaction Address)}
    (h : acceptsAll bank transactions = true) :
    Run runtime bank (transactions.map Transaction.event)
      (Transaction.performAll runtime bank transactions) := by
  simp only [acceptsAll, Bool.and_eq_true, List.all_eq_true] at h
  exact Transaction.performAll_run
    (fun t ht => authentic_sound (h.1 t ht)) h.2

theorem bankAfter_run {transactions : List (Transaction Address)}
    (h : acceptsAll genesis transactions = true) :
    Run runtime genesis (transactions.map Transaction.event)
      (bankAfter transactions) :=
  run_of_acceptsAll h

theorem bankAfter_reachable {transactions : List (Transaction Address)}
    (h : acceptsAll genesis transactions = true) :
    Reachable runtime (bankAfter transactions) :=
  ⟨genesis, _, genesis_genesis, bankAfter_run h⟩

def flushes (transaction : Transaction Address) : Bool :=
  match transaction.event.seenBy poolKey with
  | .flush _ => true
  | _ => false

theorem ne_flush_of_not_flushes {transaction : Transaction Address}
    (h : flushes transaction = false) (amount : U64) :
    transaction.event.seenBy poolKey ≠ .flush amount := by
  intro heq
  unfold flushes at h
  rw [heq] at h
  cases h

/-! ## Reading the market's accounts -/

def poolIn (bank : Bank Address) : Option (StakePool Address) :=
  if (bank.accounts poolKey).owner = .vaultProgram then
    match (bank.accounts poolKey).data with
    | .stakePool pool => some pool
    | _ => none
  else none

theorem poolIn_eq_some {bank : Bank Address} {pool : StakePool Address} :
    poolIn bank = some pool ↔ deployment.PoolAt bank poolKey pool := by
  unfold poolIn Deployment.PoolAt
  change _ ↔ (bank.accounts poolKey).owner = .vaultProgram ∧ _
  by_cases howned : (bank.accounts poolKey).owner = .vaultProgram
  · rw [if_pos howned]
    cases hdata : (bank.accounts poolKey).data <;> simp [howned]
  · simp [howned]

/-- The pool with the numbers a computation of the bank shows. -/
theorem exists_poolAt {α : Type} {bank : Bank Address}
    {read : StakePool Address → α} {value : α}
    (h : (poolIn bank).map read = some value) :
    ∃ pool, deployment.PoolAt bank poolKey pool ∧ read pool = value := by
  rw [Option.map_eq_some_iff] at h
  obtain ⟨pool, hpool, hread⟩ := h
  exact ⟨pool, poolIn_eq_some.mp hpool, hread⟩

/-- The balance of the market's vault. -/
def vaultIn (bank : Bank Address) : Option (TokenAccount Address) :=
  (tokenAccount bank vault).toOption

theorem exists_vaultBalance {bank : Bank Address} {amount : ℕ}
    (h : (vaultIn bank).map (fun balance => balance.amount.toNat) =
      some amount) :
    ∃ balance, deployment.TokenAt bank vault balance ∧
      balance.amount.toNat = amount := by
  rw [Option.map_eq_some_iff] at h
  obtain ⟨balance, hbalance, hamount⟩ := h
  refine ⟨balance, ?_, hamount⟩
  unfold vaultIn at hbalance
  cases hload : tokenAccount bank vault with
  | error error =>
      rw [hload] at hbalance
      cases hbalance
  | ok account =>
      rw [hload] at hbalance
      cases hbalance
      exact tokenAccount_eq_ok.mp hload

end Reference

end PercolatorVault
