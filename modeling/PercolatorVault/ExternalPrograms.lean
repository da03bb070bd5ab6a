import PercolatorVault.ReferenceMarket

/-!
# What the other programs accept

A `Runtime` says what a successful call did.  To show that a handler succeeds
it must also be known when the calls it makes do.  The structures below state
the conditions under which SPL Token and the system program carry out an
instruction, for a transaction with the given account list.
-/

namespace PercolatorVault

open CheckedArithmetic
open FallibleSteps

section Conditions

variable {Pubkey : Type}

/-- `authority` signed the transaction, or the program signs for it with the
seeds of the call. -/
def Signs (d : Deployment Pubkey) (accounts : List (AccountInfo Pubkey))
    (signers : List (List (Seed Pubkey))) (authority : Pubkey) : Prop :=
  (∃ info ∈ accounts, info.key = authority ∧ info.isSigner = true) ∨
    ∃ seeds bump, seeds ++ [.bump bump] ∈ signers ∧
      d.findProgramAddress seeds d.programId = (authority, bump)

def Writable (accounts : List (AccountInfo Pubkey)) (key : Pubkey) : Prop :=
  ∃ info ∈ accounts, info.key = key ∧ info.isWritable = true

theorem Signs.of_user {d : Deployment Pubkey}
    {accounts : List (AccountInfo Pubkey)}
    {signers : List (List (Seed Pubkey))} {info : AccountInfo Pubkey}
    (hmem : info ∈ accounts) (hsigner : info.isSigner = true) :
    Signs d accounts signers info.key :=
  Or.inl ⟨info, hmem, rfl, hsigner⟩

theorem Writable.of_mem {accounts : List (AccountInfo Pubkey)}
    {info : AccountInfo Pubkey} (hmem : info ∈ accounts)
    (hwritable : info.isWritable = true) : Writable accounts info.key :=
  ⟨info, hmem, rfl, hwritable⟩

/-- The program signs for the vault authority of a pool. -/
theorem Signs.of_vaultAuth (d : Deployment Pubkey)
    (accounts : List (AccountInfo Pubkey)) (pool : Pubkey) :
    Signs d accounts
      [vaultAuthSeeds pool (d.deriveVaultAuthority pool).2]
      (d.deriveVaultAuthority pool).1 :=
  Or.inr ⟨[.literal "vault_auth", .key pool], (d.deriveVaultAuthority pool).2,
    List.mem_singleton_self _, rfl⟩

/-- The program signs for the deposit record of a user. -/
theorem Signs.of_deposit (d : Deployment Pubkey)
    (accounts : List (AccountInfo Pubkey)) (pool user : Pubkey) :
    Signs d accounts
      [depositSeeds pool user (d.deriveDepositPda pool user).2]
      (d.deriveDepositPda pool user).1 :=
  Or.inr ⟨[.literal "stake_deposit", .key pool, .key user],
    (d.deriveDepositPda pool user).2, List.mem_singleton_self _, rfl⟩

variable [DecidableEq Pubkey] (rt : Runtime Pubkey)
  (accounts : List (AccountInfo Pubkey))

/-- SPL Token carries out what the owner of the tokens or the mint authority
signed, if balances and supply allow it.  No account is frozen. -/
structure TokenProgramLive : Prop where
  transferTokens : ∀ {signers bank source destination authority amount s t},
    Writable accounts source → Writable accounts destination →
    Signs rt.toDeployment accounts signers authority →
    rt.TokenAt bank source s → rt.TokenAt bank destination t →
    source ≠ destination → s.mint = t.mint → s.owner = authority →
    amount.toNat ≤ s.amount.toNat →
    t.amount.toNat + amount.toNat < 2 ^ 64 →
      ∃ after, rt.invokeSigned
        (.transferTokens rt.splTokenId source destination authority amount)
        signers bank = .ok after
  mintTo : ∀ {signers bank mint account authority amount m t},
    Writable accounts mint → Writable accounts account →
    Signs rt.toDeployment accounts signers authority →
    rt.MintAt bank mint m → rt.TokenAt bank account t → t.mint = mint →
    m.mintAuthority = some authority →
    m.supply.toNat + amount.toNat < 2 ^ 64 →
    t.amount.toNat + amount.toNat < 2 ^ 64 →
      ∃ after, rt.invokeSigned
        (.mintTo rt.splTokenId mint account authority amount)
        signers bank = .ok after
  burn : ∀ {signers bank account mint authority amount m t},
    Writable accounts account → Writable accounts mint →
    Signs rt.toDeployment accounts signers authority →
    rt.TokenAt bank account t → rt.MintAt bank mint m → t.mint = mint →
    t.owner = authority → amount.toNat ≤ t.amount.toNat →
    amount.toNat ≤ m.supply.toNat →
      ∃ after, rt.invokeSigned
        (.burn rt.splTokenId account mint authority amount)
        signers bank = .ok after

/-- The system program creates and funds accounts for a payer who can afford
it, and hands over an account that signs for itself. -/
structure SystemProgramLive : Prop where
  createAccount : ∀ {signers bank payer target lamports space owner},
    Writable accounts payer → Writable accounts target →
    Signs rt.toDeployment accounts signers payer →
    Signs rt.toDeployment accounts signers target → payer ≠ target →
    (bank.accounts payer).owner = rt.systemProgramId →
    (bank.accounts payer).data = .zeroed 0 →
    lamports.toNat ≤ (bank.accounts payer).lamports.toNat →
    bank.accounts target = ⟨0, rt.systemProgramId, .zeroed 0⟩ →
    space.toNat ≤ 10 * 2 ^ 20 →
      ∃ after, rt.invokeSigned
        (.createAccount payer target lamports space owner) signers bank =
          .ok after
  transferLamports : ∀ {signers bank payer target lamports},
    Writable accounts payer → Writable accounts target →
    Signs rt.toDeployment accounts signers payer → payer ≠ target →
    (bank.accounts payer).owner = rt.systemProgramId →
    (bank.accounts payer).data = .zeroed 0 →
    lamports.toNat ≤ (bank.accounts payer).lamports.toNat →
    (bank.accounts target).lamports.toNat + lamports.toNat < 2 ^ 64 →
      ∃ after, rt.invokeSigned (.transferLamports payer target lamports)
        signers bank = .ok after
  allocate : ∀ {signers bank target space},
    Writable accounts target →
    Signs rt.toDeployment accounts signers target →
    (bank.accounts target).owner = rt.systemProgramId →
    (bank.accounts target).data = .zeroed 0 →
    space.toNat ≤ 10 * 2 ^ 20 →
      ∃ after, rt.invokeSigned (.allocate target space) signers bank =
        .ok after
  assign : ∀ {signers bank target owner},
    Writable accounts target →
    Signs rt.toDeployment accounts signers target →
    (bank.accounts target).owner = rt.systemProgramId →
      ∃ after, rt.invokeSigned (.assign target owner) signers bank =
        .ok after

variable (d : Deployment Pubkey) (bank : Bank Pubkey)

/-- The books of SPL Token: an account holds no more than the supply of its
mint, and what two accounts of one mint hold fits in 64 bits.  The supply of
the native mint, which has no mint authority, is not kept. -/
structure TokenBooks (keys : List Pubkey) : Prop where
  supplied : ∀ key ∈ keys, ∀ t m, d.TokenAt bank key t →
    d.MintAt bank t.mint m → m.mintAuthority ≠ none →
      t.amount.toNat ≤ m.supply.toNat
  fits : ∀ key ∈ keys, ∀ key' ∈ keys, key ≠ key' → ∀ t t',
    d.TokenAt bank key t → d.TokenAt bank key' t' → t.mint = t'.mint →
      t.amount.toNat + t'.amount.toNat < 2 ^ 64

end Conditions

/-! ## What a call changed -/

section Changes

variable {Pubkey : Type} {d : Deployment Pubkey}
  {before middle after : Bank Pubkey} {key : Pubkey}
  {sent received burned minted : ℕ}

/-- The token account at `key` sent and received this much. -/
def TokensChanged (d : Deployment Pubkey) (before after : Bank Pubkey)
    (key : Pubkey) (sent received : ℕ) : Prop :=
  ∃ t t', d.TokenAt before key t ∧ d.TokenAt after key t' ∧
    t.SameHolder t' ∧ t'.amount.toNat + sent = t.amount.toNat + received

/-- So much of the mint at `key` was burned and minted. -/
def SupplyChanged (d : Deployment Pubkey) (before after : Bank Pubkey)
    (key : Pubkey) (burned minted : ℕ) : Prop :=
  ∃ m m', d.MintAt before key m ∧ d.MintAt after key m' ∧
    m'.mintAuthority = m.mintAuthority ∧
    m'.freezeAuthority = m.freezeAuthority ∧
    m'.supply.toNat + burned = m.supply.toNat + minted

theorem TokensChanged.then_same
    (h : TokensChanged d before middle key sent received)
    (hsame : ∀ t, d.TokenAt middle key t → d.TokenAt after key t) :
    TokensChanged d before after key sent received := by
  obtain ⟨t, t', ht, ht', hholder, hamount⟩ := h
  exact ⟨t, t', ht, hsame t' ht', hholder, hamount⟩

theorem TokensChanged.same_then
    (hsame : middle.accounts key = before.accounts key)
    (h : TokensChanged d middle after key sent received) :
    TokensChanged d before after key sent received := by
  obtain ⟨t, t', ht, ht', hholder, hamount⟩ := h
  exact ⟨t, t', ht.back (.of_eq hsame), ht', hholder, hamount⟩

theorem SupplyChanged.then_same
    (h : SupplyChanged d before middle key burned minted)
    (hsame : ∀ m, d.MintAt middle key m → d.MintAt after key m) :
    SupplyChanged d before after key burned minted := by
  obtain ⟨m, m', hm, hm', hauthority, hfreeze, hsupply⟩ := h
  exact ⟨m, m', hm, hsame m' hm', hauthority, hfreeze, hsupply⟩

theorem SupplyChanged.same_then
    (hsame : middle.accounts key = before.accounts key)
    (h : SupplyChanged d middle after key burned minted) :
    SupplyChanged d before after key burned minted := by
  obtain ⟨m, m', hm, hm', hauthority, hfreeze, hsupply⟩ := h
  exact ⟨m, m', hm.of_sameContents (.of_eq hsame.symm), hm', hauthority,
    hfreeze, hsupply⟩

theorem TokensMoved.changed [DecidableEq Pubkey]
    {source destination authority : Pubkey} {amount : ℕ}
    (h : TokensMoved d before after source destination authority amount)
    (hne : source ≠ destination) :
    TokensChanged d before after source amount 0 ∧
      TokensChanged d before after destination 0 amount := by
  obtain ⟨s, s', t, t', hs, hs', ht, ht', hsame, htsame, -, -, -, hsent,
    hreceived⟩ := h.moved
  rw [if_neg hne.symm] at hsent
  rw [if_neg hne] at hreceived
  exact ⟨⟨s, s', hs, hs', hsame, hsent⟩, ⟨t, t', ht, ht', htsame, hreceived⟩⟩

theorem TokensBurned.changed {account mint authority : Pubkey} {amount : ℕ}
    (h : TokensBurned d before after account mint authority amount) :
    TokensChanged d before after account amount 0 ∧
      SupplyChanged d before after mint amount 0 := by
  obtain ⟨m, m', t, t', hm, hm', ht, ht', hsame, -, -, hauthority, hfreeze,
    hsupply, hamount⟩ := h.burned
  exact ⟨⟨t, t', ht, ht', hsame, by omega⟩,
    ⟨m, m', hm, hm', hauthority, hfreeze, by omega⟩⟩

theorem TokensMinted.changed {mint account authority : Pubkey} {amount : ℕ}
    (h : TokensMinted d before after mint account authority amount) :
    TokensChanged d before after account 0 amount ∧
      SupplyChanged d before after mint 0 amount := by
  obtain ⟨m, m', t, t', hm, hm', ht, ht', hsame, -, -, hauthority, hfreeze,
    hsupply, hamount⟩ := h.minted
  exact ⟨⟨t, t', ht, ht', hsame, by omega⟩,
    ⟨m, m', hm, hm', hauthority, hfreeze, by omega⟩⟩

end Changes

/-! ## The reference runtime -/

namespace Reference

theorem runtime_tokenProgramLive (accounts : List (AccountInfo Address)) :
    TokenProgramLive runtime accounts where
  transferTokens {_ bank source destination authority amount s t} _ _ _ hs ht
      hne hmint howner hamount hroom := by
    change ∃ after,
      transferTokens source destination authority amount bank = .ok after
    have hreceived : checkedAdd t.amount amount = some (t.amount + amount) :=
      if_pos hroom
    simp only [transferTokens, tokenAccount_eq_ok.mpr hs,
      tokenAccount_eq_ok.mpr ht, require, if_pos hamount, if_pos hmint,
      if_pos howner, if_neg hne, hreceived, okOr, ok_bind]
    exact ⟨_, rfl⟩
  mintTo {_ bank mint account authority amount m t} _ _ _ hm ht hmint
      hauthority hsupply hroom := by
    change ∃ after, mintTo mint account authority amount bank = .ok after
    have hminted : checkedAdd m.supply amount = some (m.supply + amount) :=
      if_pos hsupply
    have hreceived : checkedAdd t.amount amount = some (t.amount + amount) :=
      if_pos hroom
    simp only [mintTo, mintAccount_eq_ok.mpr hm, tokenAccount_eq_ok.mpr ht,
      require, if_pos hmint, if_pos hauthority, hminted, hreceived, okOr,
      ok_bind]
    exact ⟨_, rfl⟩
  burn {_ bank account mint authority amount m t} _ _ _ ht hm hmint howner
      hheld hsupply := by
    change ∃ after, burn account mint authority amount bank = .ok after
    have hleft : checkedSub t.amount amount = some (t.amount - amount) :=
      if_pos hheld
    have hburned : checkedSub m.supply amount = some (m.supply - amount) :=
      if_pos hsupply
    simp only [burn, mintAccount_eq_ok.mpr hm, tokenAccount_eq_ok.mpr ht,
      require, if_pos hmint, if_pos howner, hleft, hburned, okOr, ok_bind]
    exact ⟨_, rfl⟩

theorem runtime_systemProgramLive (accounts : List (AccountInfo Address)) :
    SystemProgramLive runtime accounts where
  createAccount {_ bank payer target lamports space owner} _ _ _ _ hne howner
      _ hfunds htarget _ := by
    change ∃ after,
      createAccount payer target lamports space owner bank = .ok after
    change (bank.accounts payer).owner = .systemProgram at howner
    change bank.accounts target = ⟨0, .systemProgram, .zeroed 0⟩ at htarget
    simp only [createAccount, require, if_pos hne, if_pos howner,
      if_pos hfunds, if_pos htarget, ok_bind]
    exact ⟨_, rfl⟩
  transferLamports {_ bank payer target lamports} _ _ _ _ howner _ hfunds
      _ := by
    change ∃ after, transferLamports payer target lamports bank = .ok after
    change (bank.accounts payer).owner = .systemProgram at howner
    simp only [transferLamports, require, if_pos howner, if_pos hfunds,
      ok_bind]
    exact ⟨_, rfl⟩
  allocate {_ bank target space} _ _ howner hempty _ := by
    change ∃ after, allocate target space bank = .ok after
    change (bank.accounts target).owner = .systemProgram at howner
    simp only [allocate, require, if_pos howner, if_pos hempty, ok_bind]
    exact ⟨_, rfl⟩
  assign {_ bank target owner} _ _ howner := by
    change ∃ after, assign target owner bank = .ok after
    change (bank.accounts target).owner = .systemProgram at howner
    simp only [assign, require, if_pos howner, ok_bind]
    exact ⟨_, rfl⟩

/-- The balance at `key` is covered by the supply of its mint. -/
def supplies (bank : Bank Address) (key : Address) : Bool :=
  (tokenAccount bank key).toOption.all fun t =>
    (mintAccount bank t.mint).toOption.all fun m =>
      decide (m.mintAuthority = none ∨ t.amount.toNat ≤ m.supply.toNat)

/-- The balances at two addresses fit in 64 bits together. -/
def fitTogether (bank : Bank Address) (key key' : Address) : Bool :=
  (tokenAccount bank key).toOption.all fun t =>
    (tokenAccount bank key').toOption.all fun t' =>
      decide (key = key' ∨ t.mint ≠ t'.mint ∨
        t.amount.toNat + t'.amount.toNat < 2 ^ 64)

def keepsBooks (bank : Bank Address) (keys : List Address) : Bool :=
  keys.all fun key => supplies bank key && keys.all (fitTogether bank key)

theorem tokenBooks_of_keepsBooks {bank : Bank Address} {keys : List Address}
    (h : keepsBooks bank keys = true) :
    TokenBooks deployment bank keys := by
  simp only [keepsBooks, List.all_eq_true, Bool.and_eq_true] at h
  constructor
  · intro key hkey t m ht hm hauthority
    have hsupplies := (h key hkey).1
    unfold supplies at hsupplies
    rw [tokenAccount_eq_ok.mpr ht] at hsupplies
    simp only [Except.toOption, Option.all_some, mintAccount_eq_ok.mpr hm,
      decide_eq_true_eq] at hsupplies
    exact hsupplies.resolve_left hauthority
  · intro key hkey key' hkey' hne t t' ht ht' hmint
    have hfit := (h key hkey).2 key' hkey'
    unfold fitTogether at hfit
    rw [tokenAccount_eq_ok.mpr ht, tokenAccount_eq_ok.mpr ht'] at hfit
    simp only [Except.toOption, Option.all_some, decide_eq_true_eq] at hfit
    exact (hfit.resolve_left hne).resolve_left (fun h => h hmint)

end Reference

end PercolatorVault
