import PercolatorVault.BankFrame

/-!
# A reference runtime

A runtime that can be evaluated: addresses are names and derivations, the
system program and SPL Token are the functions below, and the wrapper moves
insurance tokens and does nothing else.  Each function is followed by the
effect it has, so the results about an arbitrary runtime apply to it.
-/

namespace PercolatorVault

open CheckedArithmetic
open FallibleSteps
open LittleEndian

inductive Address where
  | vaultProgram
  | splToken
  | systemProgram
  | clockSysvar
  | wallet (name : ℕ)
  | stakePool (slab : Address)
  | vaultAuth (pool : Address)
  | stakeDeposit (pool user : Address)
  | otherDerived
deriving DecidableEq

/-- The all-zero address is the system program. -/
instance : Inhabited Address := ⟨.systemProgram⟩

namespace Reference

/-! ## Addresses -/

def findProgramAddress (seeds : List (Seed Address)) (_programId : Address) :
    Address × U8 :=
  match seeds with
  | [.literal text, .key address] =>
      if text = "stake_pool" then (.stakePool address, 255)
      else if text = "vault_auth" then (.vaultAuth address, 254)
      else (.otherDerived, 0)
  | [.literal text, .key pool, .key user] =>
      if text = "stake_deposit" then (.stakeDeposit pool user, 253)
      else (.otherDerived, 0)
  | _ => (.otherDerived, 0)

def isDerived : Address → Bool
  | .stakePool _ => true
  | .vaultAuth _ => true
  | .stakeDeposit _ _ => true
  | .otherDerived => true
  | _ => false

def deployment : Deployment Address where
  programId := .vaultProgram
  splTokenId := .splToken
  systemProgramId := .systemProgram
  clockId := .clockSysvar
  findProgramAddress := findProgramAddress
  splTokenId_ne_programId := by decide
  systemProgramId_ne_programId := by decide
  systemProgramId_ne_splTokenId := by decide
  findProgramAddress_injective := by
    intro left right h
    cases left <;> cases right <;>
      simp_all [PdaKind.seeds, findProgramAddress]

@[simp] theorem deployment_splTokenId :
    deployment.splTokenId = .splToken := rfl

theorem isDerived_of_isProgramAddress {key : Address}
    (h : deployment.IsProgramAddress key) : isDerived key = true := by
  obtain ⟨seeds, rfl⟩ := h
  change isDerived (findProgramAddress seeds .vaultProgram).1 = true
  unfold findProgramAddress
  split
  · split
    · rfl
    · split <;> rfl
  · split <;> rfl
  · rfl

theorem not_isProgramAddress {key : Address} (h : isDerived key = false) :
    ¬ deployment.IsProgramAddress key := by
  intro hprogram
  rw [isDerived_of_isProgramAddress hprogram] at h
  cases h

/-! ## SPL Token -/

def tokenAccount (bank : Bank Address) (key : Address) :
    Except ProgramError (TokenAccount Address) :=
  if (bank.accounts key).owner = .splToken then
    match (bank.accounts key).data with
    | .tokenAccount account => .ok account
    | _ => .error .invalidAccountData
  else .error .incorrectProgramId

def mintAccount (bank : Bank Address) (key : Address) :
    Except ProgramError (Mint Address) :=
  if (bank.accounts key).owner = .splToken then
    match (bank.accounts key).data with
    | .mint mint => .ok mint
    | _ => .error .invalidAccountData
  else .error .incorrectProgramId

/-- Space handed to SPL Token that holds nothing yet. -/
def requireUninitialized (bank : Bank Address) (key : Address) :
    Except ProgramError Unit := do
  require ((bank.accounts key).owner = .splToken) .incorrectProgramId
  match (bank.accounts key).data with
  | .zeroed _ => .ok ()
  | _ => .error (.custom 6)

theorem tokenAccount_eq_ok {bank : Bank Address} {key : Address}
    {account : TokenAccount Address} :
    tokenAccount bank key = .ok account ↔
      deployment.TokenAt bank key account := by
  unfold tokenAccount Deployment.TokenAt
  change _ ↔ (bank.accounts key).owner = .splToken ∧ _
  by_cases howned : (bank.accounts key).owner = .splToken
  · rw [if_pos howned]
    cases hdata : (bank.accounts key).data <;> simp [howned]
  · simp [howned]

theorem mintAccount_eq_ok {bank : Bank Address} {key : Address}
    {mint : Mint Address} :
    mintAccount bank key = .ok mint ↔ deployment.MintAt bank key mint := by
  unfold mintAccount Deployment.MintAt
  change _ ↔ (bank.accounts key).owner = .splToken ∧ _
  by_cases howned : (bank.accounts key).owner = .splToken
  · rw [if_pos howned]
    cases hdata : (bank.accounts key).data <;> simp [howned]
  · simp [howned]

theorem requireUninitialized_eq_ok {bank : Bank Address} {key : Address}
    {u : Unit} (h : requireUninitialized bank key = .ok u) :
    (bank.accounts key).owner = .splToken ∧
      ∃ length, (bank.accounts key).data = .zeroed length := by
  simp only [requireUninitialized, bind_eq_ok, require_eq_ok] at h
  obtain ⟨-, howned, hdata⟩ := h
  refine ⟨howned, ?_⟩
  split at hdata
  · next length hzero => exact ⟨length, hzero⟩
  · cases hdata

def transferTokens (source destination authority : Address) (amount : U64)
    (bank : Bank Address) : Except ProgramError (Bank Address) := do
  let s ← tokenAccount bank source
  let t ← tokenAccount bank destination
  require (amount.toNat ≤ s.amount.toNat) (.custom 1)
  require (s.mint = t.mint) (.custom 3)
  require (s.owner = authority) (.custom 4)
  if source = destination then .ok bank
  else do
    let received ← okOr (checkedAdd t.amount amount)
      (.custom 14 : ProgramError)
    .ok ((bank.setData source
        (.tokenAccount { s with amount := s.amount - amount })).setData
      destination (.tokenAccount { t with amount := received }))

def mintTo (mint account authority : Address) (amount : U64)
    (bank : Bank Address) : Except ProgramError (Bank Address) := do
  let m ← mintAccount bank mint
  let t ← tokenAccount bank account
  require (t.mint = mint) (.custom 3)
  require (m.mintAuthority = some authority) (.custom 4)
  let supply ← okOr (checkedAdd m.supply amount) (.custom 14 : ProgramError)
  let held ← okOr (checkedAdd t.amount amount) (.custom 14 : ProgramError)
  .ok ((bank.setData mint (.mint { m with supply := supply })).setData
    account (.tokenAccount { t with amount := held }))

def burn (account mint authority : Address) (amount : U64)
    (bank : Bank Address) : Except ProgramError (Bank Address) := do
  let t ← tokenAccount bank account
  let m ← mintAccount bank mint
  require (t.mint = mint) (.custom 3)
  require (t.owner = authority) (.custom 4)
  let held ← okOr (checkedSub t.amount amount) (.custom 1 : ProgramError)
  let supply ← okOr (checkedSub m.supply amount) (.custom 14 : ProgramError)
  .ok ((bank.setData mint (.mint { m with supply := supply })).setData
    account (.tokenAccount { t with amount := held }))

def initializeMint (mint authority : Address)
    (freezeAuthority : Option Address) (bank : Bank Address) :
    Except ProgramError (Bank Address) := do
  requireUninitialized bank mint
  .ok (bank.setData mint (.mint ⟨some authority, 0, freezeAuthority⟩))

def initializeAccount (account mint owner : Address) (bank : Bank Address) :
    Except ProgramError (Bank Address) := do
  requireUninitialized bank account
  let _mint ← mintAccount bank mint
  .ok (bank.setData account (.tokenAccount ⟨mint, owner, 0, none⟩))

section TokenEffects

variable {before after : Bank Address}

theorem tokenAt_setData {bank : Bank Address} {key : Address}
    {account : TokenAccount Address}
    (howned : (bank.accounts key).owner = .splToken) :
    deployment.TokenAt (bank.setData key (.tokenAccount account)) key
      account :=
  ⟨by simpa using howned, by simp⟩

theorem mintAt_setData {bank : Bank Address} {key : Address}
    {mint : Mint Address}
    (howned : (bank.accounts key).owner = .splToken) :
    deployment.MintAt (bank.setData key (.mint mint)) key mint :=
  ⟨by simpa using howned, by simp⟩

theorem sameContents_setData {bank : Bank Address} {key other : Address}
    (data : AccountData Address) (h : other ≠ key) :
    (bank.accounts other).SameContents
      ((bank.setData key data).accounts other) :=
  .of_eq (bank.setData_other data h)

theorem setData_setData_frame {bank : Bank Address} {first second : Address}
    (data data' : AccountData Address) (key : Address) (hfirst : key ≠ first)
    (hsecond : key ≠ second) :
    (((bank.setData first data).setData second data').accounts key) =
      bank.accounts key := by
  rw [Bank.setData_other _ _ hsecond, Bank.setData_other _ _ hfirst]

theorem transferTokens_effect {source destination authority : Address}
    {amount : U64}
    (h : transferTokens source destination authority amount before =
      .ok after) :
    TokensMoved deployment before after source destination authority
      amount.toNat := by
  simp only [transferTokens, bind_eq_ok, tokenAccount_eq_ok, require_eq_ok] at h
  obtain ⟨s, hs, t, ht, -, hamount, -, hmint, -, howner, h⟩ := h
  split at h
  · next hself =>
      subst hself
      cases h
      have hst := hs.unique ht
      subst hst
      refine ⟨rfl, fun _ _ _ => rfl, s, s, s, s, hs, hs, hs, hs, ?_, ?_, rfl,
        .inl howner, hamount, by simp, by simp⟩
      all_goals exact ⟨rfl, rfl, .inl rfl⟩
  · next hne =>
      simp only [bind_eq_ok, okOr_eq_ok, Except.ok.injEq,
        checkedAdd_eq_some] at h
      obtain ⟨received, hreceived, rfl⟩ := h
      have hsent : (s.amount - amount).toNat =
          s.amount.toNat - amount.toNat := toNat_sub_of_le hamount
      refine ⟨rfl, setData_setData_frame _ _, s,
        { s with amount := s.amount - amount }, t,
        { t with amount := received }, hs, ?_, ht, ?_, ⟨rfl, rfl, .inl rfl⟩,
        ⟨rfl, rfl, .inl rfl⟩, hmint, .inl howner, hamount, ?_, ?_⟩
      · exact (tokenAt_setData hs.1).of_sameContents
          (sameContents_setData _ hne)
      · exact tokenAt_setData (by simpa using ht.1)
      · rw [if_neg (Ne.symm hne)]
        dsimp only
        omega
      · rw [if_neg hne]
        dsimp only
        omega

theorem mintTo_effect {mint account authority : Address} {amount : U64}
    (h : mintTo mint account authority amount before = .ok after) :
    TokensMinted deployment before after mint account authority
      amount.toNat := by
  simp only [mintTo, bind_eq_ok, tokenAccount_eq_ok, mintAccount_eq_ok,
    require_eq_ok, okOr_eq_ok, checkedAdd_eq_some, Except.ok.injEq] at h
  obtain ⟨m, hm, t, ht, -, hmint, -, hauthority, supply, hsupply, held, hheld,
    rfl⟩ := h
  have hne := (ht.ne_of_mintAt hm).symm
  refine ⟨rfl, setData_setData_frame _ _, m, { m with supply := supply }, t,
    { t with amount := held }, hm, ?_, ht, ?_, ⟨rfl, rfl, .inl rfl⟩, hmint,
    hauthority, rfl, rfl, hsupply.symm, hheld.symm⟩
  · exact (mintAt_setData hm.1).of_sameContents (sameContents_setData _ hne)
  · exact tokenAt_setData (by simpa using ht.1)

theorem burn_effect {account mint authority : Address} {amount : U64}
    (h : burn account mint authority amount before = .ok after) :
    TokensBurned deployment before after account mint authority
      amount.toNat := by
  simp only [burn, bind_eq_ok, tokenAccount_eq_ok, mintAccount_eq_ok,
    require_eq_ok, okOr_eq_ok, checkedSub_eq_some, Except.ok.injEq] at h
  obtain ⟨t, ht, m, hm, -, hmint, -, howner, held, hheld, supply, hsupply,
    rfl⟩ := h
  have hne := (ht.ne_of_mintAt hm).symm
  refine ⟨rfl, setData_setData_frame _ _, m, { m with supply := supply }, t,
    { t with amount := held }, hm, ?_, ht, ?_, ⟨rfl, rfl, .inl rfl⟩, hmint,
    .inl howner, rfl, rfl, hsupply, hheld⟩
  · exact (mintAt_setData hm.1).of_sameContents (sameContents_setData _ hne)
  · exact tokenAt_setData (by simpa using ht.1)

theorem initializeMint_effect {mint authority : Address}
    {freezeAuthority : Option Address}
    (h : initializeMint mint authority freezeAuthority before = .ok after) :
    MintInitialized deployment before after mint authority
      freezeAuthority := by
  simp only [initializeMint, bind_eq_ok, Except.ok.injEq] at h
  obtain ⟨_, hfresh, rfl⟩ := h
  obtain ⟨howned, hzeroed⟩ := requireUninitialized_eq_ok hfresh
  exact ⟨rfl, fun _ hkey => before.setData_other _ hkey, hzeroed, howned,
    mintAt_setData howned⟩

theorem initializeAccount_effect {account mint owner : Address}
    (h : initializeAccount account mint owner before = .ok after) :
    TokenAccountInitialized deployment before after account mint owner := by
  simp only [initializeAccount, bind_eq_ok, mintAccount_eq_ok,
    Except.ok.injEq] at h
  obtain ⟨_, hfresh, m, hm, rfl⟩ := h
  obtain ⟨howned, hzeroed⟩ := requireUninitialized_eq_ok hfresh
  exact ⟨rfl, fun _ hkey => before.setData_other _ hkey, hzeroed, howned,
    m, 0, hm, tokenAt_setData howned, fun _ => rfl⟩

end TokenEffects

/-! ## The wrapper -/

/-- The amount after the tag of an insurance call. -/
def insuranceAmount (data : List U8) : Except ProgramError U64 := do
  require (leValue data.tail < 2 ^ 64) .invalidInstructionData
  .ok (BitVec.ofNat 64 (leValue data.tail))

def wrapper (accounts : List (AccountMeta Address)) (data : List U8)
    (bank : Bank Address) : Except ProgramError (Bank Address) :=
  if data.head? = some tagTopUpInsurance then
    match accounts.map AccountMeta.key with
    | signer :: _ :: source :: vault :: _ => do
        let amount ← insuranceAmount data
        require (source ≠ vault) .invalidArgument
        transferTokens source vault signer amount bank
    | _ => .error .notEnoughAccountKeys
  else if data.head? = some tagWithdrawInsurance then
    match accounts.map AccountMeta.key with
    | _ :: _ :: destination :: vault :: vaultAuthority :: _ => do
        let amount ← insuranceAmount data
        require (destination ≠ vault) .invalidArgument
        require (isDerived vaultAuthority = false) .invalidArgument
        transferTokens vault destination vaultAuthority amount bank
    | _ => .error .notEnoughAccountKeys
  else .ok bank

theorem insuranceAmount_eq_ok {data : List U8} {amount : U64}
    (h : insuranceAmount data = .ok amount) :
    amount.toNat = leValue data.tail := by
  simp only [insuranceAmount, bind_eq_ok, require_eq_ok, Except.ok.injEq] at h
  obtain ⟨-, hlt, rfl⟩ := h
  rw [BitVec.toNat_ofNat, Nat.mod_eq_of_lt hlt]

theorem onlyForeignChanged_refl (bank : Bank Address) :
    OnlyForeignChanged deployment bank bank :=
  ⟨rfl, fun _ _ => rfl⟩

theorem wrapper_effect {accounts : List (AccountMeta Address)}
    {data : List U8} {before after : Bank Address}
    (h : wrapper accounts data before = .ok after) :
    WrapperEffect deployment before after accounts data := by
  unfold wrapper at h
  unfold WrapperEffect
  split at h
  · next htag =>
      rw [if_pos htag]
      split at h
      · next signer market source vault rest hkeys =>
          simp only [bind_eq_ok, require_eq_ok] at h
          obtain ⟨amount, hamount, -, hne, hmoved⟩ := h
          rw [← insuranceAmount_eq_ok hamount]
          exact ⟨signer, market, source, vault, rest, after, hkeys, hne,
            transferTokens_effect hmoved, onlyForeignChanged_refl after⟩
      · cases h
  · next htag =>
      rw [if_neg htag]
      split at h
      · next hwithdraw =>
          rw [if_pos hwithdraw]
          split at h
          · next authority market destination vault vaultAuthority rest hkeys =>
              simp only [bind_eq_ok, require_eq_ok] at h
              obtain ⟨amount, hamount, -, hne, -, hderived, hmoved⟩ := h
              rw [← insuranceAmount_eq_ok hamount]
              exact ⟨authority, market, destination, vault, vaultAuthority,
                rest, after, hkeys, hne, not_isProgramAddress hderived,
                transferTokens_effect hmoved, onlyForeignChanged_refl after⟩
          · cases h
      · next hother =>
          rw [if_neg hother]
          cases h
          exact onlyForeignChanged_refl before

/-! ## The system program -/

def createAccount (payer target : Address) (lamports space : U64)
    (owner : Address) (bank : Bank Address) :
    Except ProgramError (Bank Address) := do
  require (payer ≠ target) .invalidArgument
  require ((bank.accounts payer).owner = .systemProgram) .invalidArgument
  require (lamports.toNat ≤ (bank.accounts payer).lamports.toNat) (.custom 1)
  require (bank.accounts target = ⟨0, .systemProgram, .zeroed 0⟩) (.custom 0)
  .ok ((bank.setLamports payer
    ((bank.accounts payer).lamports - lamports)).setAccount target
      ⟨lamports, owner, .zeroed space.toNat⟩)

def transferLamports (payer target : Address) (lamports : U64)
    (bank : Bank Address) : Except ProgramError (Bank Address) := do
  require ((bank.accounts payer).owner = .systemProgram) .invalidArgument
  require (lamports.toNat ≤ (bank.accounts payer).lamports.toNat) (.custom 1)
  let middle := bank.setLamports payer
    ((bank.accounts payer).lamports - lamports)
  .ok (middle.setLamports target
    ((middle.accounts target).lamports + lamports))

def allocate (target : Address) (space : U64) (bank : Bank Address) :
    Except ProgramError (Bank Address) := do
  require ((bank.accounts target).owner = .systemProgram) .invalidArgument
  require ((bank.accounts target).data = .zeroed 0) (.custom 0)
  .ok (bank.setData target (.zeroed space.toNat))

def assign (target owner : Address) (bank : Bank Address) :
    Except ProgramError (Bank Address) := do
  require ((bank.accounts target).owner = .systemProgram) .invalidArgument
  .ok (bank.setOwner target owner)

/-! ## The runtime -/

def invokeSigned (instruction : CpiInstruction Address)
    (_signers : List (List (Seed Address))) (bank : Bank Address) :
    Except ProgramError (Bank Address) :=
  match instruction with
  | .createAccount payer target lamports space owner =>
      createAccount payer target lamports space owner bank
  | .transferLamports payer target lamports =>
      transferLamports payer target lamports bank
  | .allocate target space => allocate target space bank
  | .assign target owner => assign target owner bank
  | .initializeMint _ mint authority freezeAuthority _ =>
      initializeMint mint authority freezeAuthority bank
  | .initializeAccount _ account mint owner =>
      initializeAccount account mint owner bank
  | .transferTokens _ source destination authority amount =>
      transferTokens source destination authority amount bank
  | .mintTo _ mint account authority amount =>
      mintTo mint account authority amount bank
  | .burn _ account mint authority amount =>
      burn account mint authority amount bank
  | .wrapper _ accounts data => wrapper accounts data bank

theorem invokeSigned_effect {instruction : CpiInstruction Address}
    {signers : List (List (Seed Address))} {before after : Bank Address}
    (h : invokeSigned instruction signers before = .ok after) :
    instruction.Effect deployment before after := by
  cases instruction with
  | createAccount payer target lamports space owner =>
      simp only [invokeSigned, createAccount, bind_eq_ok, require_eq_ok,
        Except.ok.injEq] at h
      obtain ⟨-, hne, -, howner, -, hfunds, -, htarget, rfl⟩ := h
      exact ⟨hne, howner, hfunds, htarget, rfl⟩
  | transferLamports payer target lamports =>
      simp only [invokeSigned, transferLamports, bind_eq_ok, require_eq_ok,
        Except.ok.injEq] at h
      obtain ⟨-, howner, -, hfunds, rfl⟩ := h
      exact ⟨howner, hfunds, _, rfl, rfl⟩
  | allocate target space =>
      simp only [invokeSigned, allocate, bind_eq_ok, require_eq_ok,
        Except.ok.injEq] at h
      obtain ⟨-, howner, -, hempty, rfl⟩ := h
      exact ⟨howner, hempty, rfl⟩
  | assign target owner =>
      simp only [invokeSigned, assign, bind_eq_ok, require_eq_ok,
        Except.ok.injEq] at h
      obtain ⟨-, howner, rfl⟩ := h
      exact ⟨howner, rfl⟩
  | initializeMint tokenProgram mint authority freezeAuthority decimals =>
      exact initializeMint_effect h
  | initializeAccount tokenProgram account mint owner =>
      exact initializeAccount_effect h
  | transferTokens tokenProgram source destination authority amount =>
      exact transferTokens_effect h
  | mintTo tokenProgram mint account authority amount => exact mintTo_effect h
  | burn tokenProgram account mint authority amount => exact burn_effect h
  | wrapper percolatorProgram accounts data => exact wrapper_effect h

def pubkeyToBytes : Address → List U8
  | .wallet name => leBytes 32 name
  | _ => leBytes 32 0

def runtime : Runtime Address where
  toDeployment := deployment
  minimumBalance size := BitVec.ofNat 64 ((128 + size) * 6960)
  pubkeyFromBytes bytes := .wallet (leValue bytes)
  pubkeyToBytes := pubkeyToBytes
  invokeSigned := invokeSigned
  invokeSigned_effect := invokeSigned_effect

end Reference

end PercolatorVault
