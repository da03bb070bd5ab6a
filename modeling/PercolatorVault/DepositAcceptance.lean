import PercolatorVault.PdaCreation
import PercolatorVault.WithdrawAcceptance

/-!
# When a deposit succeeds

A user who passes the right accounts and has the collateral is served exactly
when the cap is kept, the deposit is worth at least one LP, and the new totals
fit in 64 bits.  The record of the user is created on the way if there is none;
its LP cannot overflow because the pool counts it as well.
-/

namespace PercolatorVault

open CheckedArithmetic
open FallibleSteps
open FiniteTallies
open ProportionalShares

variable {Pubkey : Type}

/-! ## The condition -/

/-- The conditions of a deposit of `amount` into a pool worth `value`, which
mints `lp`. -/
structure StakePool.AllowsDeposit (pool : StakePool Pubkey)
    (value amount lp : ℕ) : Prop where
  positive : 0 < amount
  capped : pool.depositCap.toNat = 0 ∨
    value + amount ≤ pool.depositCap.toNat
  share : (pool.totalLpSupply.toNat = 0 ∧ value = 0 ∧ lp = amount) ∨
    (0 < pool.totalLpSupply.toNat ∧ 0 < value ∧
      lp = amount * pool.totalLpSupply.toNat / value)
  mints : 1 ≤ lp
  lp_lt : lp < 2 ^ 64
  deposited_lt : pool.totalDeposited.toNat + amount < 2 ^ 64
  supply_lt : pool.totalLpSupply.toNat + lp < 2 ^ 64

section Accounts

variable [DecidableEq Pubkey]

/-- `payer` is a wallet that can bring the unused address `target` up to the
rent of `space` bytes. -/
structure Creatable (rt : Runtime Pubkey) (bank : Bank Pubkey)
    (payer target : Pubkey) (space : ℕ) : Prop where
  payer_owner : (bank.accounts payer).owner = rt.systemProgramId
  payer_data : (bank.accounts payer).data = .zeroed 0
  target_owner : (bank.accounts target).owner = rt.systemProgramId
  target_data : (bank.accounts target).data = .zeroed 0
  funds : (rt.minimumBalance space).toNat ≤
    (bank.accounts target).lamports.toNat +
      (bank.accounts payer).lamports.toNat

/-- The accounts of a user who has `paid` and deposits into the pool. -/
structure DepositAccounts.Valid (rt : Runtime Pubkey) (bank : Bank Pubkey)
    (a : DepositAccounts Pubkey) (pool : StakePool Pubkey)
    (paid : TokenAccount Pubkey) : Prop where
  poolAt : rt.PoolAt bank a.poolPda.key pool
  signer : a.user.isSigner = true
  lpMint : pool.lpMint = a.lpMint.key
  vault : pool.vault = a.vault.key
  vaultAuth : a.vaultAuth.key = (rt.deriveVaultAuthority a.poolPda.key).1
  depositPda :
    a.depositPda.key = (rt.deriveDepositPda a.poolPda.key a.user.key).1
  tokenProgram : a.tokenProgram.key = rt.splTokenId
  clockSysvar : a.clockSysvar.key = rt.clockId
  writable : ∀ info ∈ [a.poolPda, a.userAta, a.vault, a.lpMint, a.userLpAta,
    a.depositPda], info.isWritable = true
  collateral : rt.TokenAt bank a.userAta.key paid
  collateral_mint : paid.mint = pool.collateralMint
  collateral_owner : paid.owner = a.user.key
  lpTokens : ∃ t, rt.TokenAt bank a.userLpAta.key t ∧ t.mint = pool.lpMint
  record : (∃ record, rt.DepositAt bank a.depositPda.key record) ∨
    a.user.isWritable = true ∧
      Creatable rt bank a.user.key a.depositPda.key stakeDepositSize

end Accounts

theorem DepositAccounts.next_mem {accounts : List (AccountInfo Pubkey)}
    {a : DepositAccounts Pubkey}
    (h : DepositAccounts.next accounts = .ok a) :
    ∀ info ∈ [a.user, a.poolPda, a.userAta, a.vault, a.lpMint, a.userLpAta,
      a.depositPda], info ∈ accounts := by
  unfold DepositAccounts.next at h
  split at h
  · cases h
    simp
  · cases h

/-! ## The pool and the record -/

namespace StakePool

variable {pool : StakePool Pubkey} {value amount lp : U64}

theorem checkDepositCap_eq_ok (hvalue : pool.totalPoolValue = some value) :
    checkDepositCap pool amount = .ok () ↔
      pool.depositCap.toNat = 0 ∨
        value.toNat + amount.toNat ≤ pool.depositCap.toNat := by
  have hcapLt := pool.depositCap.isLt
  unfold checkDepositCap
  rw [hvalue, Option.getD_some]
  by_cases hcap : 0 < pool.depositCap.toNat
  · rw [if_pos hcap]
    simp only [bind_eq_ok, okOr_eq_ok, checkedAdd_eq_some, require_eq_ok]
    constructor
    · rintro ⟨newValue, hnew, hle⟩
      omega
    · intro hle
      obtain ⟨newValue, hnew⟩ :=
        @exists_toNat_eq 64 (value.toNat + amount.toNat) (by omega)
      exact ⟨newValue, hnew.symm, by omega⟩
  · rw [if_neg hcap]
    simp only [true_iff]
    omega

theorem exists_recordDeposit {clock : Clock}
    (hdeposited : pool.totalDeposited.toNat + amount.toNat < 2 ^ 64)
    (hsupply : pool.totalLpSupply.toNat + lp.toNat < 2 ^ 64) :
    ∃ pool', pool.recordDeposit amount lp clock = .ok pool' := by
  simp only [recordDeposit, checkedAdd, if_pos hdeposited, if_pos hsupply,
    okOr, ok_bind]
  exact ⟨_, rfl⟩

end StakePool

theorem StakeDeposit.exists_creditLp {deposit : StakeDeposit Pubkey}
    {lp slot cooldownSlots : U64}
    (hfits : deposit.lpAmount.toNat + lp.toNat < 2 ^ 64) :
    ∃ record, deposit.creditLp lp slot cooldownSlots = .ok record := by
  simp only [creditLp, checkedAdd, if_pos hfits, okOr, ok_bind]
  exact ⟨_, rfl⟩

/-! ## Creating the record -/

section Creation

variable [DecidableEq Pubkey] {rt : Runtime Pubkey} {bank : Bank Pubkey}
  {accounts : List (AccountInfo Pubkey)}

theorem Creatable.adoptable {target payer : Pubkey} {space : ℕ}
    (h : Creatable rt bank payer target space) :
    Adoptable rt bank payer target space where
  target_owner := h.target_owner
  target_data := h.target_data
  funds := by
    have hfunds := h.funds
    omega
  wallet _ := ⟨h.payer_owner, h.payer_data⟩

/-- An unused address can be taken over, whether or not somebody sent lamports
to it before. -/
theorem exists_createOrAdoptPda {target payer : AccountInfo Pubkey}
    {owner : Pubkey} {space : ℕ} {signerSeeds : List (Seed Pubkey)}
    (hlive : SystemProgramLive rt accounts)
    (hspace : space ≤ 10 * 2 ^ 20)
    (hpayer : Writable accounts payer.key)
    (htarget : Writable accounts target.key)
    (hpayerSigns : ∀ signers,
      Signs rt.toDeployment accounts signers payer.key)
    (htargetSigns : Signs rt.toDeployment accounts [signerSeeds] target.key)
    (hne : payer.key ≠ target.key)
    (h : Creatable rt bank payer.key target.key space) :
    ∃ after, createOrAdoptPda rt target payer owner space signerSeeds bank =
      .ok after := by
  obtain ⟨after, hafter, -⟩ := @Adoptable.exists_adopted _ _ _ _ _ _ target
    payer owner signerSeeds h.adoptable (by omega) (hlive.serves hspace)
    hpayer htarget hpayerSigns htargetSigns hne
  exact ⟨after, hafter⟩

end Creation

section Ensuring

variable [DecidableEq Pubkey] [Inhabited Pubkey] {rt : Runtime Pubkey}
  {bank : Bank Pubkey} {accounts : List (AccountInfo Pubkey)}
  {a : DepositAccounts Pubkey}

/-- The record of the user is there after the check, as it was stored or
empty. -/
theorem exists_ensureDepositRecord (hlive : SystemProgramLive rt accounts)
    (hsigned : SignedByOthers rt.toDeployment accounts)
    (huser : a.user ∈ accounts) (hsigner : a.user.isSigner = true)
    (htarget : Writable accounts a.depositPda.key)
    (hpda :
      a.depositPda.key = (rt.deriveDepositPda a.poolPda.key a.user.key).1)
    (hrecord : (∃ record, rt.DepositAt bank a.depositPda.key record) ∨
      a.user.isWritable = true ∧
        Creatable rt bank a.user.key a.depositPda.key stakeDepositSize) :
    ∃ ensured, ensureDepositRecord rt a bank = .ok ensured ∧
      loadDeposit ensured a.depositPda =
        .ok (storedRecord rt.toDeployment bank a.poolPda.key a.user.key) := by
  unfold storedRecord
  rw [← hpda]
  rcases hrecord with ⟨record, hrecord⟩ | ⟨hwritable, hcreatable⟩
  · have hfull :
        (bank.accounts a.depositPda.key).data.isEmpty = false := by
      rw [hrecord.2]
      rfl
    refine ⟨bank, ?_, ?_⟩
    · simp [ensureDepositRecord, hpda.symm, hfull, hrecord.1, require,
        ok_bind]
    · rw [recordIn_eq_some.mpr hrecord]
      exact loadDeposit_of_depositAt hrecord
  · have hempty : (bank.accounts a.depositPda.key).data.isEmpty = true := by
      rw [hcreatable.target_data]
      rfl
    have hne : a.user.key ≠ a.depositPda.key := by
      intro heq
      apply hsigned a.user huser hsigner
      rw [heq, hpda]
      exact ⟨_, rfl⟩
    have hsigns := Signs.of_deposit rt.toDeployment accounts a.poolPda.key
      a.user.key
    rw [← hpda] at hsigns
    obtain ⟨ensured, hensured⟩ := @exists_createOrAdoptPda _ _ _ _ _
      a.depositPda a.user rt.programId _ _ hlive (by decide)
      (.of_mem huser hwritable) htarget (fun _ => .of_user huser hsigner)
      hsigns hne hcreatable
    refine ⟨ensured, ?_, ?_⟩
    · simp only [ensureDepositRecord, bind_eq_ok, require_eq_ok,
        exists_const]
      refine ⟨hpda, Or.inl hempty, ?_⟩
      rw [if_pos hempty]
      exact hensured
    · have hnone : recordIn rt.toDeployment
          (bank.accounts a.depositPda.key) = none := by
        unfold recordIn
        rw [if_neg (hcreatable.target_owner ▸
          rt.systemProgramId_ne_programId)]
      have hzeroed :=
        (createOrAdoptPda_allocated (by decide) hensured).zeroed
      rw [hnone]
      simp [loadDeposit, hzeroed]

end Ensuring

/-! ## The effect -/

/-- What a deposit of `amount` that mints `lp` changes, and that it changes
nothing else but lamports. -/
structure DepositEffect [DecidableEq Pubkey] [Inhabited Pubkey]
    (d : Deployment Pubkey) (before after : Bank Pubkey)
    (a : DepositAccounts Pubkey) (pool : StakePool Pubkey)
    (amount : ℕ) (lp : U64) : Prop where
  clock : after.clock = before.clock
  record : ∃ record : StakeDeposit Pubkey,
    d.DepositAt after a.depositPda.key record ∧
    record =
      { (storedRecord d before a.poolPda.key a.user.key).bind
          (d.deriveDepositPda a.poolPda.key a.user.key).2 a.poolPda.key
          a.user.key with
        lpAmount := record.lpAmount
        lastDepositSlot := record.lastDepositSlot } ∧
    record.lpAmount.toNat =
      (storedRecord d before a.poolPda.key a.user.key).lpAmount.toNat +
        lp.toNat ∧
    record.lastDepositSlot =
      weightedDepositSlot
        (storedRecord d before a.poolPda.key a.user.key).lpAmount
        (storedRecord d before a.poolPda.key a.user.key).lastDepositSlot
        lp before.clock.slot pool.cooldownSlots
  pool : ∃ pool' : StakePool Pubkey, d.PoolAt after a.poolPda.key pool' ∧
    pool' =
      { pool with
        totalDeposited := pool'.totalDeposited
        totalLpSupply := pool'.totalLpSupply
        reserved := pool'.reserved } ∧
    pool'.totalDeposited.toNat = pool.totalDeposited.toNat + amount ∧
    pool'.totalLpSupply.toNat = pool.totalLpSupply.toNat + lp.toNat ∧
    pool'.reservedFields =
      if pool.hwmEnabled then
        pool.reservedFields.refreshHwm before.clock.epoch
          (pool'.totalPoolValue.getD 0)
      else pool.reservedFields
  vault : TokensChanged d before after a.vault.key 0 amount
  payer : TokensChanged d before after a.userAta.key amount 0
  lpTokens : TokensChanged d before after a.userLpAta.key 0 lp.toNat
  lpMint : SupplyChanged d before after a.lpMint.key 0 lp.toNat
  otherRecords : ∀ key, key ≠ a.depositPda.key → ∀ record,
    d.DepositAt after key record ↔ d.DepositAt before key record
  others : ∀ key, (∀ info ∈ [a.poolPda, a.userAta, a.vault, a.lpMint,
    a.userLpAta, a.depositPda], key ≠ info.key) →
      (before.accounts key).SameContents (after.accounts key)

namespace DepositTrace

variable [DecidableEq Pubkey] [Inhabited Pubkey] {rt : Runtime Pubkey}
  {before after : Bank Pubkey} {accounts : List (AccountInfo Pubkey)}
  {amount : U64} {view : PoolView Pubkey}

theorem ensured_sameContents
    (t : DepositTrace rt accounts amount before after) {key : Pubkey}
    (hkey : key ≠ t.a.depositPda.key) :
    (t.minted.accounts key).SameContents (t.ensured.accounts key) := by
  rcases t.hensured with heq | halloc
  · exact .of_eq (by rw [heq])
  · exact halloc.others key hkey

/-- Creating the record touches no account of SPL Token. -/
theorem ensured_of_tokenOwned
    (t : DepositTrace rt accounts amount before after) {key : Pubkey}
    (howned : (t.minted.accounts key).owner = rt.splTokenId) :
    (t.minted.accounts key).SameContents (t.ensured.accounts key) := by
  rcases t.hensured with heq | halloc
  · exact .of_eq (by rw [heq])
  · apply halloc.others
    rintro rfl
    exact rt.systemProgramId_ne_splTokenId (halloc.system.symm.trans howned)

theorem tokenAt_after (t : DepositTrace rt accounts amount before after)
    {key : Pubkey} {s : TokenAccount Pubkey} (hs : rt.TokenAt t.minted key s) :
    rt.TokenAt after key s :=
  t.hafter.tokenAt_iff.mpr (t.hrecorded.tokenAt_iff.mpr
    (hs.of_sameContents (t.ensured_of_tokenOwned hs.1)))

theorem mintAt_after (t : DepositTrace rt accounts amount before after)
    {key : Pubkey} {m : Mint Pubkey} (hm : rt.MintAt t.minted key m) :
    rt.MintAt after key m :=
  t.hafter.mintAt (t.hrecorded.mintAt
    (hm.of_sameContents (t.ensured_of_tokenOwned hm.1)))

/-- The record that is credited is the stored one, or an empty one. -/
theorem record_eq (t : DepositTrace rt accounts amount before after) :
    t.record = storedRecord rt.toDeployment before t.a.poolPda.key
      t.a.user.key := by
  unfold storedRecord
  rw [loadDeposit_eq t.howned t.hload, t.ensured_frame.recordIn_eq, t.hpda]

theorem userAta_ne_vault
    (t : DepositTrace rt accounts amount before after)
    (hsigned : SignedByOthers rt.toDeployment accounts)
    (hview : Shows rt.toDeployment before t.a.poolPda.key view) :
    t.a.userAta.key ≠ t.a.vault.key := by
  intro heq
  apply t.user_ne hsigned t.a.poolPda.key
  apply (hview.tokensMoved t.hpaid).1
  rw [heq, hview.pool.unique t.poolAt, t.hvault]

/-- LP and collateral are different tokens, so the LP account is neither the
vault nor the payer. -/
theorem lpTokens_apart (t : DepositTrace rt accounts amount before after)
    (hview : Shows rt.toDeployment before t.a.poolPda.key view) :
    t.a.userLpAta.key ≠ t.a.vault.key ∧
      t.a.userLpAta.key ≠ t.a.userAta.key := by
  have hlive := t.live hview
  have hpool := hview.pool.unique t.poolAt
  obtain ⟨s, s', r, r', -, hs', hr, hr', hssame, hrsame, hmints, -⟩ :=
    t.hpaid.moved
  obtain ⟨m, -, q, -, -, -, hq, -, -, hqmint, -⟩ := t.hmint.minted
  have hvault := hview.vault
  rw [hpool, t.hvault] at hvault
  have hcollateral : r.mint = view.pool.collateralMint := by
    rw [hpool]
    exact congrArg TokenAccount.mint (hr.unique hvault)
  have hlp : q.mint = view.pool.lpMint := by
    rw [hpool, t.hlpMint, hqmint]
  constructor
  · intro heq
    rw [heq] at hq
    apply hlive
    rw [← hlp, hq.unique hr', hrsame.mint, hcollateral]
  · intro heq
    rw [heq] at hq
    apply hlive
    rw [← hlp, hq.unique hs', hssame.mint, hmints, hcollateral]

theorem effect (t : DepositTrace rt accounts amount before after)
    (hsigned : SignedByOthers rt.toDeployment accounts)
    (hview : Shows rt.toDeployment before t.a.poolPda.key view) :
    DepositEffect rt.toDeployment before after t.a t.pool amount.toNat
      t.lp := by
  have hpay := t.userAta_ne_vault hsigned hview
  obtain ⟨hlpVault, hlpPayer⟩ := t.lpTokens_apart hview
  have hpoolPda : t.a.poolPda.key ≠ t.a.depositPda.key :=
    t.hpda ▸ hview.ne_deriveDepositPda _ _
  obtain ⟨hpayer, hvault⟩ := t.hpaid.changed hpay
  obtain ⟨hlpTokens, hlpMint⟩ := t.hmint.changed
  obtain ⟨-, s', -, hs', -⟩ := t.hpaid.changed hpay |>.1
  obtain ⟨-, r', -, hr', -⟩ := t.hpaid.changed hpay |>.2
  obtain ⟨m, -, hm, -⟩ := t.hmint.changed.2
  have hmintedFrame : ∀ {key s}, rt.TokenAt t.paid key s →
      key ≠ t.a.userLpAta.key → rt.TokenAt after key s := by
    intro key s hs hne
    have hkept := t.hmint.frame key (hs.ne_of_mintAt hm) hne
    exact t.tokenAt_after (hs.of_sameContents (.of_eq hkept))
  refine ⟨?_, ?_, ?_, ?_, ?_, ?_, ?_, ?_, ?_⟩
  · rw [t.hafter.clock, t.hrecorded.clock, t.ensured_clock]
  · have hcredit := t.hcredit
    rw [t.record_eq] at hcredit
    obtain ⟨hlp, hslot⟩ := StakeDeposit.creditLp_eq_ok hcredit
    obtain ⟨hboundLp, hboundSlot⟩ := StakeDeposit.bind_fields
      (storedRecord rt.toDeployment before t.a.poolPda.key t.a.user.key)
      (rt.deriveDepositPda t.a.poolPda.key t.a.user.key).2 t.a.poolPda.key
      t.a.user.key
    rw [hboundLp] at hlp hslot
    rw [hboundSlot] at hslot
    simp only [StakeDeposit.creditLp, bind_eq_ok, Except.ok.injEq] at hcredit
    obtain ⟨_, -, hrecord⟩ := hcredit
    refine ⟨t.record', ⟨?_, t.hafter.data⟩, ?_, hlp, hslot⟩
    · rw [t.hafter.owner, t.hrecorded.owner_eq]
      exact t.howned
    · rw [← hrecord]
  · obtain ⟨total, supply, reserved, htotal, hsupply, hpool', hfields⟩ :=
      StakePool.recordDeposit_eq_ok t.hpool
    refine ⟨t.pool', ?_, ?_, ?_, ?_, hfields⟩
    · exact (t.hafter.poolAt_iff hpoolPda).mpr
        ⟨t.hrecorded.owner.trans t.poolAt_ensured.1, t.hrecorded.data⟩
    · rw [hpool']
    · rw [hpool']
      exact htotal
    · rw [hpool']
      exact hsupply
  · exact hvault.then_same fun _ hs => hmintedFrame hs hlpVault.symm
  · exact hpayer.then_same fun _ hs => hmintedFrame hs hlpPayer.symm
  · exact (hlpTokens.then_same fun _ hs => t.tokenAt_after hs).same_then
      (t.hpaid.frame _ hlpPayer hlpVault)
  · exact (hlpMint.then_same fun _ hn => t.mintAt_after hn).same_then
      (t.hpaid.frame _ (hs'.ne_of_mintAt hm).symm (hr'.ne_of_mintAt hm).symm)
  · intro key hkey record
    rw [← recordIn_eq_some, ← recordIn_eq_some, t.hafter.others _ hkey,
      ← t.ensured_frame.recordIn_eq key]
    by_cases heq : key = t.a.poolPda.key
    · have hpoolEnsured := t.poolAt_ensured
      subst heq
      simp [recordIn, t.hrecorded.data, hpoolEnsured.2]
    · rw [t.hrecorded.others _ heq]
  · intro key hkey
    simp only [List.forall_mem_cons] at hkey
    obtain ⟨hpoolKey, hpayerKey, hvaultKey, hmintKey, hlpKey, hrecordKey,
      -⟩ := hkey
    rw [t.hafter.others _ hrecordKey, t.hrecorded.others _ hpoolKey]
    have hkept := t.ensured_sameContents hrecordKey
    rw [t.hmint.frame _ hmintKey hlpKey,
      t.hpaid.frame _ hpayerKey hvaultKey] at hkept
    exact hkept

end DepositTrace

/-! ## The calls -/

section Calls

variable [DecidableEq Pubkey] {rt : Runtime Pubkey}
  {before paid : Bank Pubkey} {accounts : List (AccountInfo Pubkey)}
  {a : DepositAccounts Pubkey} {view : PoolView Pubkey}
  {tokens : TokenAccount Pubkey} {amount lp : U64}

theorem DepositAccounts.Valid.writable_of_next
    (hvalid : a.Valid rt before view.pool tokens)
    (hnext : DepositAccounts.next accounts = .ok a) :
    ∀ info ∈ [a.poolPda, a.userAta, a.vault, a.lpMint, a.userLpAta,
      a.depositPda], Writable accounts info.key := by
  intro info hinfo
  refine .of_mem (DepositAccounts.next_mem hnext info ?_)
    (hvalid.writable info hinfo)
  exact List.mem_cons_of_mem _ hinfo

/-- The payer is not the vault, which belongs to an address of the program. -/
theorem DepositAccounts.Valid.payer_ne_vault
    (hvalid : a.Valid rt before view.pool tokens)
    (hnext : DepositAccounts.next accounts = .ok a)
    (hsigned : SignedByOthers rt.toDeployment accounts)
    (hview : Shows rt.toDeployment before a.poolPda.key view) :
    a.userAta.key ≠ a.vault.key := by
  intro heq
  have hvault := hview.vault
  rw [show view.pool.vault = a.vault.key from hvalid.vault, ← heq] at hvault
  apply hsigned.ne_vaultAuthority
    (DepositAccounts.next_mem hnext a.user (by simp)) hvalid.signer
    a.poolPda.key
  rw [← hvalid.collateral_owner, hvalid.collateral.unique hvault]

/-- Collateral and LP are different tokens if the user has any. -/
theorem DepositAccounts.Valid.live
    (hvalid : a.Valid rt before view.pool tokens)
    (hview : Shows rt.toDeployment before a.poolPda.key view)
    (htokens : 0 < tokens.amount.toNat) :
    view.pool.collateralMint ≠ view.pool.lpMint := by
  intro hdegenerate
  have hzero := hview.unheld hdegenerate _ tokens hvalid.collateral
    (hvalid.collateral_mint.trans hdegenerate)
  omega

theorem DepositAccounts.Valid.exists_paid
    (hvalid : a.Valid rt before view.pool tokens)
    (hnext : DepositAccounts.next accounts = .ok a)
    (hsigned : SignedByOthers rt.toDeployment accounts)
    (hlive : TokenProgramLive rt accounts)
    (hbooks : TokenBooks rt.toDeployment before
      [a.userAta.key, a.vault.key, a.userLpAta.key])
    (hview : Shows rt.toDeployment before a.poolPda.key view)
    (hfunds : amount.toNat ≤ tokens.amount.toNat) :
    ∃ paid, rt.invokeSigned
      (.transferTokens a.tokenProgram.key a.userAta.key a.vault.key
        a.user.key amount) [] before = .ok paid := by
  have hwritable := hvalid.writable_of_next hnext
  have hne := hvalid.payer_ne_vault hnext hsigned hview
  have hvault := hview.vault
  rw [show view.pool.vault = a.vault.key from hvalid.vault] at hvault
  have hroom := hbooks.fits a.userAta.key (by simp) a.vault.key (by simp)
    hne tokens _ hvalid.collateral hvault hvalid.collateral_mint
  rw [hvalid.tokenProgram]
  apply hlive.transferTokens (hwritable a.userAta (by simp))
    (hwritable a.vault (by simp))
    (.of_user (DepositAccounts.next_mem hnext _ (by simp)) hvalid.signer)
    hvalid.collateral hvault hne hvalid.collateral_mint
    hvalid.collateral_owner hfunds
  omega

theorem DepositAccounts.Valid.exists_minted
    (hvalid : a.Valid rt before view.pool tokens)
    (hnext : DepositAccounts.next accounts = .ok a)
    (hlive : TokenProgramLive rt accounts)
    (hbooks : TokenBooks rt.toDeployment before
      [a.userAta.key, a.vault.key, a.userLpAta.key])
    (hview : Shows rt.toDeployment before a.poolPda.key view)
    (htokens : 0 < tokens.amount.toNat)
    (hroom : view.lpMintSupply.toNat + lp.toNat < 2 ^ 64)
    (hpaid : TokensMoved rt.toDeployment before paid a.userAta.key
      a.vault.key a.user.key amount.toNat) :
    ∃ minted, rt.invokeSigned
      (.mintTo a.tokenProgram.key a.lpMint.key a.userLpAta.key
        a.vaultAuth.key lp)
      [vaultAuthSeeds a.poolPda.key
        (rt.deriveVaultAuthority a.poolPda.key).2] paid = .ok minted := by
  have hwritable := hvalid.writable_of_next hnext
  have happart := hvalid.live hview htokens
  obtain ⟨freeze, hmint⟩ := hview.lpMint
  obtain ⟨t, ht, htmint⟩ := hvalid.lpTokens
  have hvault := hview.vault
  have hsupplied := hbooks.supplied a.userLpAta.key (by simp) t _ ht
    (by rw [htmint]; exact hmint) (by simp)
  -- The transfer touches neither the mint nor the LP account.
  have hlpPayer : a.userLpAta.key ≠ a.userAta.key := by
    intro heq
    rw [heq] at ht
    apply happart
    rw [← htmint, ht.unique hvalid.collateral, hvalid.collateral_mint]
  have hlpVault : a.userLpAta.key ≠ a.vault.key := by
    intro heq
    rw [heq, ← hvalid.vault] at ht
    apply happart
    rw [← htmint, ht.unique hvault]
  have htPaid := ht.of_sameContents
    (.of_eq (hpaid.frame _ hlpPayer hlpVault))
  have hmintPaid := hmint.of_sameContents (.of_eq (hpaid.frame _
    (hvalid.collateral.ne_of_mintAt hmint).symm
    (by rw [← hvalid.vault]; exact (hvault.ne_of_mintAt hmint).symm)))
  rw [hvalid.tokenProgram, hvalid.vaultAuth, ← hvalid.lpMint]
  apply hlive.mintTo
    (by rw [hvalid.lpMint]; exact hwritable a.lpMint (by simp))
    (hwritable a.userLpAta (by simp)) (.of_vaultAuth _ _ _) hmintPaid htPaid
    htmint rfl hroom
  dsimp only at hsupplied
  omega

/-- A wallet and an unused address are not touched by the token calls. -/
theorem Creatable.of_tokenCalls {minted : Bank Pubkey}
    {payer target source destination user mint account authority : Pubkey}
    {space moved created : ℕ} (h : Creatable rt before payer target space)
    (hpaid : TokensMoved rt.toDeployment before paid source destination user
      moved)
    (hminted : TokensMinted rt.toDeployment paid minted mint account authority
      created) :
    Creatable rt minted payer target space := by
  have hsame : ∀ key, (before.accounts key).owner = rt.systemProgramId →
      minted.accounts key = before.accounts key := by
    intro key howner
    have hforeign : (before.accounts key).owner ≠ rt.splTokenId :=
      howner ▸ rt.systemProgramId_ne_splTokenId
    obtain ⟨s, -, r, -, hs, -, hr, -⟩ := hpaid.moved
    have hpaidKey := hpaid.frame key
      (fun heq => hforeign (heq ▸ hs.1)) (fun heq => hforeign (heq ▸ hr.1))
    rw [← hpaidKey] at hforeign
    obtain ⟨m, -, q, -, hm, -, hq, -⟩ := hminted.minted
    rw [hminted.frame key (fun heq => hforeign (heq ▸ hm.1))
      (fun heq => hforeign (heq ▸ hq.1)), hpaidKey]
  obtain ⟨hpayerOwner, hpayerData, htargetOwner, htargetData, hfunds⟩ := h
  have hpayer := hsame payer hpayerOwner
  have htarget := hsame target htargetOwner
  rw [← hpayer] at hpayerOwner hpayerData hfunds
  rw [← htarget] at htargetOwner htargetData hfunds
  exact ⟨hpayerOwner, hpayerData, htargetOwner, htargetData, hfunds⟩

end Calls

/-! ## Success -/

section Handler

variable [DecidableEq Pubkey] [Inhabited Pubkey] {rt : Runtime Pubkey}
  {before after : Bank Pubkey} {accounts : List (AccountInfo Pubkey)}
  {a : DepositAccounts Pubkey} {pool : StakePool Pubkey}
  {tokens : TokenAccount Pubkey} {value amount lp : U64}

/-- The mint of a reachable pool never has more LP than the pool counts. -/
theorem Reachable.lpMintSupply_le (h : Reachable rt before)
    {view : PoolView Pubkey} {key : Pubkey}
    (hview : Shows rt.toDeployment before key view) :
    view.lpMintSupply.toNat ≤ view.pool.totalLpSupply.toNat := by
  obtain ⟨start, events, hgenesis, hrun⟩ := h
  obtain ⟨-, hminted⟩ :=
    hrun.invariant (conserves_invariant rt.toDeployment) hgenesis hview
  omega

/-- The record of a user never holds more LP than the pool counts. -/
theorem Reachable.storedRecord_le (h : Reachable rt before)
    {view : PoolView Pubkey} {key : Pubkey}
    (hview : Shows rt.toDeployment before key view) (user : Pubkey) :
    (storedRecord rt.toDeployment before key user).lpAmount.toNat ≤
      view.pool.totalLpSupply.toNat := by
  rw [hview.storedRecord_eq, ← StakeDeposit.weigh_getD]
  exact h.weigh_le hview user

omit [DecidableEq Pubkey] [Inhabited Pubkey] in
theorem StakePool.AllowsDeposit.calcLpForDeposit
    (h : pool.AllowsDeposit value.toNat amount.toNat lp.toNat)
    (hvalue : pool.totalPoolValue = some value) :
    pool.calcLpForDeposit amount = some lp := by
  rw [StakePool.calcLpForDeposit_eq_some, hvalue]
  rcases h.share with ⟨hempty, hworthless, hlp⟩ | ⟨hsupply, hworth, hlp⟩
  · exact Or.inl ⟨hempty, hworthless, BitVec.eq_of_toNat_eq hlp⟩
  · exact Or.inr ⟨value, rfl, hworth, hsupply, hlp⟩

/-- An allowed deposit succeeds: all that follows the checks goes through. -/
theorem processDeposit_succeeds (hreachable : Reachable rt before)
    (hsigned : SignedByOthers rt.toDeployment accounts)
    (hlive : TokenProgramLive rt accounts)
    (hsystem : SystemProgramLive rt accounts)
    (hbooks : TokenBooks rt.toDeployment before
      [a.userAta.key, a.vault.key, a.userLpAta.key])
    (hnext : DepositAccounts.next accounts = .ok a)
    (hvalid : a.Valid rt before pool tokens)
    (hopen : pool.isResolved = false)
    (hvalue : pool.totalPoolValue = some value)
    (hfunds : amount.toNat ≤ tokens.amount.toNat)
    (hallows : pool.AllowsDeposit value.toNat amount.toNat lp.toNat) :
    ∃ after, processDeposit rt accounts amount before = .ok after := by
  obtain ⟨view, rfl, hview⟩ := hreachable.shows_pool hvalid.poolAt
  have hstanding := hreachable.standing hview
  have hpositive := hallows.positive
  have hmints := hallows.mints
  have hmember := DepositAccounts.next_mem hnext
  -- The calls.
  obtain ⟨paid, hpay⟩ := hvalid.exists_paid hnext hsigned hlive hbooks hview
    hfunds
  have hmoved := rt.invokeSigned_effect hpay
  have hsupplyLe := hreachable.lpMintSupply_le hview
  obtain ⟨minted, hmint⟩ := @DepositAccounts.Valid.exists_minted _ _ _ _ _ _
    _ _ _ amount lp hvalid hnext hlive hbooks hview (by omega)
    (by have := hallows.supply_lt; omega) hmoved
  have hmintTo := rt.invokeSigned_effect hmint
  have hframe := hmoved.bankFrame.trans hmintTo.bankFrame
  -- The record.
  have hrecord : (∃ record, rt.DepositAt minted a.depositPda.key record) ∨
      a.user.isWritable = true ∧
        Creatable rt minted a.user.key a.depositPda.key stakeDepositSize := by
    refine hvalid.record.imp ?_ (And.imp_right fun hcreatable =>
      hcreatable.of_tokenCalls hmoved hmintTo)
    rintro ⟨record, hrecord⟩
    exact ⟨record, hrecord.of_frame hframe⟩
  obtain ⟨ensured, hensure, hload⟩ := exists_ensureDepositRecord hsystem
    hsigned (hmember a.user (by simp)) hvalid.signer
    (hvalid.writable_of_next hnext a.depositPda (by simp)) hvalid.depositPda
    hrecord
  obtain ⟨-, howned, hensured⟩ := ensureDepositRecord_eq_ok hensure
  have hstored : storedRecord rt.toDeployment minted a.poolPda.key
      a.user.key =
        storedRecord rt.toDeployment before a.poolPda.key a.user.key := by
    unfold storedRecord
    rw [hframe.recordIn_eq]
  rw [hstored] at hload
  obtain ⟨pool', hpool'⟩ := @StakePool.exists_recordDeposit _ view.pool amount
    lp before.clock hallows.deposited_lt hallows.supply_lt
  -- The pool counts the LP of the record, so the sum fits as well.
  have hrecordLe := hreachable.storedRecord_le hview a.user.key
  obtain ⟨record', hcredit⟩ := @StakeDeposit.exists_creditLp _
    ((storedRecord rt.toDeployment before a.poolPda.key a.user.key).bind
      (rt.deriveDepositPda a.poolPda.key a.user.key).2 a.poolPda.key
      a.user.key) lp before.clock.slot pool'.cooldownSlots (by
    rw [(StakeDeposit.bind_fields _ _ _ _).1]
    have := hallows.supply_lt
    omega)
  -- The writes.
  have hpoolMinted := hview.pool.of_frame hframe
  have hpoolEnsured : rt.PoolAt ensured a.poolPda.key view.pool := by
    rcases hensured with heq | halloc
    · rw [heq]
      exact hpoolMinted
    · exact hpoolMinted.of_frame halloc.bankFrame
  obtain ⟨recorded, after, hrecorded, hafter⟩ :=
    exists_storeData_twice hpoolEnsured.1 howned
      (hvalid.writable a.poolPda (by simp))
      (hvalid.writable a.depositPda (by simp)) (.stakePool pool')
      (.stakeDeposit record')
  have hclock : minted.clock = before.clock :=
    hmintTo.clock.trans hmoved.clock
  refine ⟨after, ?_⟩
  simp only [processDeposit, verifyTokenProgram, Clock.fromAccountInfo,
    bind_eq_ok, require_eq_ok, okOr_eq_ok, exists_const, Except.ok.injEq]
  refine ⟨toNat_pos.mp hpositive, a, hnext, hvalid.signer, view.pool,
    loadPool_of_poolAt hview.pool, hview.initialized,
    StakePool.validateDiscriminator_of_eq hstanding.discriminator,
    hvalid.lpMint, hvalid.vault, hstanding.transferred, hopen,
    hvalid.vaultAuth, (),
    (StakePool.checkDepositCap_eq_ok hvalue).mpr hallows.capped,
    hvalid.tokenProgram, lp, hallows.calcLpForDeposit hvalue,
    toNat_pos.mp (by omega), paid, hpay, minted, hmint, before.clock,
    ⟨hvalid.clockSysvar, hclock⟩, pool', hpool', ensured, hensure, _, hload,
    record', hcredit, recorded, hrecorded, hafter⟩

/-- A successful deposit was allowed. -/
theorem DepositTrace.allows
    (t : DepositTrace rt accounts amount before after)
    (hvalue : t.pool.totalPoolValue = some value) :
    t.pool.AllowsDeposit value.toNat amount.toNat t.lp.toNat := by
  obtain ⟨total, supply, -, htotal, hsupply, -⟩ :=
    StakePool.recordDeposit_eq_ok t.hpool
  have htotalLt := total.isLt
  have hsupplyLt := supply.isLt
  have hlp := StakePool.calcLpForDeposit_eq_some.mp t.hlp
  rw [hvalue, Option.getD_some] at hlp
  refine ⟨toNat_pos.mpr t.hamount,
    (StakePool.checkDepositCap_eq_ok hvalue).mp t.hcap, ?_,
    toNat_pos.mpr t.hminted, t.lp.isLt, by omega, by omega⟩
  rcases hlp with ⟨hempty, hworthless, hlp⟩ | ⟨_, hsome, hworth, hsup, hlp⟩
  · exact Or.inl ⟨hempty, hworthless, congrArg BitVec.toNat hlp⟩
  · cases hsome
    exact Or.inr ⟨hsup, hworth, hlp⟩

/-- A user with valid accounts deposits successfully exactly when the deposit
is allowed, and then it changes what a deposit changes and nothing else. -/
theorem processDeposit_exact (hreachable : Reachable rt before)
    (hsigned : SignedByOthers rt.toDeployment accounts)
    (hlive : TokenProgramLive rt accounts)
    (hsystem : SystemProgramLive rt accounts)
    (hbooks : TokenBooks rt.toDeployment before
      [a.userAta.key, a.vault.key, a.userLpAta.key])
    (hnext : DepositAccounts.next accounts = .ok a)
    (hvalid : a.Valid rt before pool tokens)
    (hopen : pool.isResolved = false)
    (hvalue : pool.totalPoolValue = some value)
    (hfunds : amount.toNat ≤ tokens.amount.toNat) :
    ((∃ after, processDeposit rt accounts amount before = .ok after) ↔
      ∃ lp : ℕ, pool.AllowsDeposit value.toNat amount.toNat lp) ∧
      ∀ after, processDeposit rt accounts amount before = .ok after →
        ∃ lp : U64,
          pool.AllowsDeposit value.toNat amount.toNat lp.toNat ∧
          DepositEffect rt.toDeployment before after a pool amount.toNat
            lp := by
  have heffect : ∀ after,
      processDeposit rt accounts amount before = .ok after →
        ∃ lp : U64,
          pool.AllowsDeposit value.toNat amount.toNat lp.toNat ∧
          DepositEffect rt.toDeployment before after a pool amount.toNat
            lp := by
    intro after h
    obtain ⟨t⟩ := processDeposit_trace h
    cases hnext.symm.trans t.hnext
    cases hvalid.poolAt.unique t.poolAt
    obtain ⟨view, -, hview⟩ := hreachable.shows_pool t.poolAt
    exact ⟨t.lp, t.allows hvalue, t.effect hsigned hview⟩
  refine ⟨⟨?_, ?_⟩, heffect⟩
  · rintro ⟨after, h⟩
    obtain ⟨lp, hallows, -⟩ := heffect after h
    exact ⟨_, hallows⟩
  · rintro ⟨lp, hallows⟩
    obtain ⟨word, rfl⟩ := exists_toNat_eq hallows.lp_lt
    exact processDeposit_succeeds hreachable hsigned hlive hsystem hbooks
      hnext hvalid hopen hvalue hfunds hallows

end Handler

namespace Reference

/-- Alice holds all LP, and bob has no record yet. -/
def joinableMarket : List (Transaction Address) :=
  [initPool 10, openLpAccount alice, openLpAccount bob, deposit alice 1000]

def depositInfos (party : Party) : DepositAccounts Address where
  user := signer party.key
  poolPda := writable poolKey
  userAta := writable party.tokens
  vault := writable vault
  lpMint := writable lpMint
  userLpAta := writable party.lpTokens
  vaultAuth := readonly vaultAuthority
  depositPda := writable (.stakeDeposit poolKey party.key)
  tokenProgram := readonly .splToken
  clockSysvar := readonly .clockSysvar
  systemProgram := readonly .systemProgram

/-- What bob holds before his deposit. -/
def bobTokens : TokenAccount Address :=
  ⟨collateralMint, bob.key, 0x4000000000000000, none⟩

theorem joinableMarket_deposit_valid :
    ∃ pool, deployment.PoolAt (bankAfter joinableMarket) poolKey pool ∧
      pool.totalPoolValue = some 1000 ∧ pool.isResolved = false ∧
      (depositInfos bob).Valid runtime (bankAfter joinableMarket) pool
        bobTokens := by
  have hread : (poolIn (bankAfter joinableMarket)).map (fun pool =>
      (pool.totalPoolValue, pool.isResolved, pool.lpMint, pool.vault,
        pool.collateralMint)) =
        some (some 1000, false, lpMint, vault, collateralMint) := by
    decide +kernel
  obtain ⟨pool, hpool, hread⟩ := exists_poolAt hread
  simp only [Prod.mk.injEq] at hread
  obtain ⟨hvalue, hopen, hmint, hvault, hcollateral⟩ := hread
  refine ⟨pool, hpool, hvalue, hopen, ?_⟩
  refine ⟨hpool, rfl, hmint, hvault, rfl, rfl, rfl, rfl, by decide,
    ⟨by decide +kernel, by decide +kernel⟩, hcollateral.symm, rfl,
    ⟨⟨lpMint, bob.key, 0, none⟩, ⟨by decide +kernel, by decide +kernel⟩,
      hmint.symm⟩, Or.inr ⟨rfl, ?_⟩⟩
  exact ⟨by decide +kernel, by decide +kernel, by decide +kernel,
    by decide +kernel, by decide +kernel⟩

theorem joinableMarket_deposit_exact : ∃ pool,
    deployment.PoolAt (bankAfter joinableMarket) poolKey pool ∧
      ((∃ after, processDeposit runtime (depositAccounts bob) 300
          (bankAfter joinableMarket) = .ok after) ↔
        ∃ lp : ℕ, pool.AllowsDeposit 1000 300 lp) ∧
      ∀ after, processDeposit runtime (depositAccounts bob) 300
          (bankAfter joinableMarket) = .ok after →
        ∃ lp : U64, pool.AllowsDeposit 1000 300 lp.toNat ∧
          DepositEffect deployment (bankAfter joinableMarket) after
            (depositInfos bob) pool 300 lp := by
  obtain ⟨pool, hpool, hvalue, hopen, hvalid⟩ := joinableMarket_deposit_valid
  have hsigned : SignedByOthers deployment (depositAccounts bob) :=
    @authentic_sound (deposit bob 300) (by decide)
  exact ⟨pool, hpool, @processDeposit_exact _ _ _ runtime _ _ _ _ _ 1000 300
    (bankAfter_reachable (by decide +kernel)) hsigned
    (runtime_tokenProgramLive _) (runtime_systemProgramLive _)
    (tokenBooks_of_keepsBooks (by decide +kernel)) rfl hvalid hopen hvalue
    (by decide)⟩

end Reference

end PercolatorVault
