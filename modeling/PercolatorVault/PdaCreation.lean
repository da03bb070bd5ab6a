import PercolatorVault.ExternalPrograms

/-!
# Creating an account at a funded address

Anybody can send lamports to a program address before the program uses it.
Whatever the balance is, the account is created with the same owner and the
same zero bytes, and the payer is charged exactly what is missing for the
rent.
-/

namespace PercolatorVault

open CheckedArithmetic
open FallibleSteps

variable {Pubkey : Type}

/-! ## The accounts before and after -/

section Accounts

variable [DecidableEq Pubkey]

/-- `target` is unused up to lamports that were sent to it.  If anything has to
be paid for, `payer` is a wallet that can pay what is missing. -/
structure Adoptable (rt : Runtime Pubkey) (bank : Bank Pubkey)
    (payer target : Pubkey) (space : ℕ) : Prop where
  target_owner : (bank.accounts target).owner = rt.systemProgramId
  target_data : (bank.accounts target).data = .zeroed 0
  funds : (rt.minimumBalance space).toNat -
      (bank.accounts target).lamports.toNat ≤
    (bank.accounts payer).lamports.toNat
  wallet : (bank.accounts target).lamports = 0 ∨
      (bank.accounts target).lamports.toNat <
        (rt.minimumBalance space).toNat →
    (bank.accounts payer).owner = rt.systemProgramId ∧
      (bank.accounts payer).data = .zeroed 0

/-- The account at `target` has `space` zero bytes and at least `need`
lamports, of which `payer` paid those that were missing; nothing else
changed. -/
structure Adopted (before after : Bank Pubkey) (payer target owner : Pubkey)
    (space : ℕ) (need : U64) : Prop where
  clock : after.clock = before.clock
  created : after.accounts target =
    ⟨wordMax (before.accounts target).lamports need, owner, .zeroed space⟩
  charged : after.accounts payer =
    { before.accounts payer with
      lamports := (before.accounts payer).lamports -
        saturatingSub need (before.accounts target).lamports }
  others : ∀ key, key ≠ payer → key ≠ target →
    after.accounts key = before.accounts key

variable {before middle after : Bank Pubkey} {payer target owner : Pubkey}
  {space : ℕ} {need : U64}

/-- Replacing the account at the target keeps what was paid. -/
theorem Adopted.setAccount {newOwner : Pubkey} {newSpace : ℕ}
    (h : Adopted before middle payer target owner space need)
    (hne : payer ≠ target)
    (hafter : after = middle.setAccount target
      ⟨(middle.accounts target).lamports, newOwner, .zeroed newSpace⟩) :
    Adopted before after payer target newOwner newSpace need := by
  subst hafter
  refine ⟨h.clock, ?_, ?_, ?_⟩
  · rw [Bank.setAccount_same, h.created]
  · rw [Bank.setAccount_other _ _ hne, h.charged]
  · intro key hpayer htarget
    rw [Bank.setAccount_other _ _ htarget, h.others key hpayer htarget]

end Accounts

/-! ## The calls -/

section Calls

variable [DecidableEq Pubkey]

/-- The system program carries out the instructions that make an account of
`space` bytes, on accounts of its own. -/
structure SystemProgramServes (rt : Runtime Pubkey)
    (accounts : List (AccountInfo Pubkey)) (space : ℕ) : Prop where
  createAccount : ∀ {signers bank payer target lamports owner},
    Writable accounts payer → Writable accounts target →
    Signs rt.toDeployment accounts signers payer →
    Signs rt.toDeployment accounts signers target → payer ≠ target →
    (bank.accounts payer).owner = rt.systemProgramId →
    (bank.accounts payer).data = .zeroed 0 →
    lamports.toNat ≤ (bank.accounts payer).lamports.toNat →
    bank.accounts target = ⟨0, rt.systemProgramId, .zeroed 0⟩ →
      ∃ after, rt.invokeSigned
        (.createAccount payer target lamports (BitVec.ofNat 64 space) owner)
        signers bank = .ok after
  transferLamports : ∀ {signers bank payer target lamports},
    Writable accounts payer → Writable accounts target →
    Signs rt.toDeployment accounts signers payer → payer ≠ target →
    (bank.accounts payer).owner = rt.systemProgramId →
    (bank.accounts payer).data = .zeroed 0 →
    lamports.toNat ≤ (bank.accounts payer).lamports.toNat →
    (bank.accounts target).lamports.toNat + lamports.toNat < 2 ^ 64 →
      ∃ after, rt.invokeSigned (.transferLamports payer target lamports)
        signers bank = .ok after
  allocate : ∀ {signers bank target},
    Writable accounts target →
    Signs rt.toDeployment accounts signers target →
    (bank.accounts target).owner = rt.systemProgramId →
    (bank.accounts target).data = .zeroed 0 →
      ∃ after, rt.invokeSigned (.allocate target (BitVec.ofNat 64 space))
        signers bank = .ok after
  assign : ∀ {signers bank target owner},
    Writable accounts target →
    Signs rt.toDeployment accounts signers target →
    (bank.accounts target).owner = rt.systemProgramId →
      ∃ after, rt.invokeSigned (.assign target owner) signers bank =
        .ok after

variable {rt : Runtime Pubkey} {bank : Bank Pubkey}
  {accounts : List (AccountInfo Pubkey)} {space : ℕ}

theorem SystemProgramLive.serves (h : SystemProgramLive rt accounts)
    (hspace : space ≤ 10 * 2 ^ 20) :
    SystemProgramServes rt accounts space := by
  have hwidth : (BitVec.ofNat 64 space).toNat ≤ 10 * 2 ^ 20 := by
    rw [BitVec.toNat_ofNat, Nat.mod_eq_of_lt (by omega)]
    exact hspace
  constructor
  · intro _ _ _ _ _ _ hpayer htarget hpays hsigns hne howner hdata hfunds
      hunused
    exact h.createAccount hpayer htarget hpays hsigns hne howner hdata hfunds
      hunused hwidth
  · exact h.transferLamports
  · intro _ _ _ htarget hsigns howner hdata
    exact h.allocate htarget hsigns howner hdata hwidth
  · exact h.assign

/-- The target holds the rent once the payer has added what is missing. -/
theorem Adoptable.exists_funded {payer target : Pubkey}
    (h : Adoptable rt bank payer target space)
    (hserves : SystemProgramServes rt accounts space)
    (hpayer : Writable accounts payer) (htarget : Writable accounts target)
    (hpays : Signs rt.toDeployment accounts [] payer)
    (hne : payer ≠ target) :
    ∃ funded,
      (if (bank.accounts target).lamports.toNat <
          (rt.minimumBalance space).toNat then
        rt.invokeSigned
          (.transferLamports payer target
            (rt.minimumBalance space - (bank.accounts target).lamports)) []
          bank
      else .ok bank) = .ok funded ∧
      Adopted bank funded payer target rt.systemProgramId 0
        (rt.minimumBalance space) := by
  have hfunds := h.funds
  have haccount : bank.accounts target =
      ⟨(bank.accounts target).lamports, rt.systemProgramId, .zeroed 0⟩ := by
    rw [← h.target_owner, ← h.target_data]
  split
  · next hshort =>
      obtain ⟨howner, hdata⟩ := h.wallet (Or.inr hshort)
      have hmissing := toNat_sub_of_le hshort.le
      have hlt := (rt.minimumBalance space).isLt
      obtain ⟨funded, hfunded⟩ : ∃ funded, rt.invokeSigned
          (.transferLamports payer target
            (rt.minimumBalance space - (bank.accounts target).lamports)) []
          bank = .ok funded := by
        apply hserves.transferLamports hpayer htarget hpays hne howner hdata
        · rw [hmissing]
          exact hfunds
        · rw [hmissing]
          omega
      refine ⟨funded, hfunded, ?_⟩
      obtain ⟨-, -, middle, rfl, rfl⟩ := rt.invokeSigned_effect hfunded
      have hsum : (bank.accounts target).lamports +
          (rt.minimumBalance space - (bank.accounts target).lamports) =
            wordMax (bank.accounts target).lamports
              (rt.minimumBalance space) := by
        rw [wordMax, if_pos hshort.le, BitVec.add_comm, BitVec.sub_add_cancel]
      have hcharge : saturatingSub (rt.minimumBalance space)
          (bank.accounts target).lamports =
            rt.minimumBalance space - (bank.accounts target).lamports :=
        if_pos hshort.le
      refine ⟨rfl, ?_, ?_, ?_⟩
      · rw [Bank.setLamports, Bank.setAccount_same, Bank.setLamports,
          Bank.setAccount_other _ _ hne.symm, hsum, haccount]
      · rw [Bank.setLamports, Bank.setAccount_other _ _ hne, Bank.setLamports,
          Bank.setAccount_same, hcharge]
      · intro key hkeyPayer hkeyTarget
        rw [Bank.setLamports, Bank.setAccount_other _ _ hkeyTarget,
          Bank.setLamports, Bank.setAccount_other _ _ hkeyPayer]
  · next henough =>
      have hmax : wordMax (bank.accounts target).lamports
          (rt.minimumBalance space) = (bank.accounts target).lamports := by
        apply BitVec.eq_of_toNat_eq
        rw [toNat_wordMax]
        omega
      have hcharge : saturatingSub (rt.minimumBalance space)
          (bank.accounts target).lamports = 0 := by
        rw [← toNat_eq_zero, toNat_saturatingSub]
        omega
      refine ⟨bank, rfl, rfl, ?_, ?_, fun _ _ _ => rfl⟩
      · rw [hmax]
        exact haccount
      · rw [hcharge]
        simp

/-- An unused address becomes an account of `owner` with `space` zero bytes,
whatever was sent to it before. -/
theorem Adoptable.exists_adopted {target payer : AccountInfo Pubkey}
    {owner : Pubkey} {signerSeeds : List (Seed Pubkey)}
    (h : Adoptable rt bank payer.key target.key space)
    (hspace : space < 2 ^ 64)
    (hserves : SystemProgramServes rt accounts space)
    (hpayer : Writable accounts payer.key)
    (htarget : Writable accounts target.key)
    (hpays : ∀ signers, Signs rt.toDeployment accounts signers payer.key)
    (hsigns : Signs rt.toDeployment accounts [signerSeeds] target.key)
    (hne : payer.key ≠ target.key) :
    ∃ after, createOrAdoptPda rt target payer owner space signerSeeds bank =
        .ok after ∧
      Adopted bank after payer.key target.key owner space
        (rt.minimumBalance space) := by
  have hwidth : (BitVec.ofNat 64 space).toNat = space := by
    rw [BitVec.toNat_ofNat, Nat.mod_eq_of_lt hspace]
  unfold createOrAdoptPda
  dsimp only
  by_cases hunfunded : (bank.accounts target.key).lamports = 0
  · rw [if_pos hunfunded]
    obtain ⟨howner, hdata⟩ := h.wallet (Or.inl hunfunded)
    have hfunds := h.funds
    have haccount : bank.accounts target.key =
        ⟨0, rt.systemProgramId, .zeroed 0⟩ := by
      rw [← hunfunded, ← h.target_owner, ← h.target_data]
    obtain ⟨after, hafter⟩ := @SystemProgramServes.createAccount _ _ _ _ _
      hserves [signerSeeds] bank payer.key target.key (rt.minimumBalance space)
      owner hpayer htarget (hpays _) hsigns hne howner hdata
      (by simpa [hunfunded] using hfunds) haccount
    refine ⟨after, hafter, ?_⟩
    obtain ⟨-, -, -, -, rfl⟩ := rt.invokeSigned_effect hafter
    refine ⟨rfl, ?_, ?_, ?_⟩
    · rw [Bank.setAccount_same, hwidth, hunfunded, wordMax,
        if_pos (by simp)]
    · rw [Bank.setAccount_other _ _ hne, Bank.setLamports,
        Bank.setAccount_same, hunfunded, saturatingSub, if_pos (by simp),
        BitVec.ofNat_eq_ofNat, BitVec.sub_zero]
    · intro key hkeyPayer hkeyTarget
      rw [Bank.setAccount_other _ _ hkeyTarget, Bank.setLamports,
        Bank.setAccount_other _ _ hkeyPayer]
  · rw [if_neg hunfunded]
    obtain ⟨funded, hfunded, hadopted⟩ :=
      h.exists_funded hserves hpayer htarget (hpays []) hne
    have howner := congrArg Account.owner hadopted.created
    have hdata := congrArg Account.data hadopted.created
    obtain ⟨allocated, hallocated⟩ := @SystemProgramServes.allocate _ _ _ _ _
      hserves [signerSeeds] funded target.key htarget hsigns howner hdata
    obtain ⟨-, -, hallocate⟩ := rt.invokeSigned_effect hallocated
    have hspaced : Adopted bank allocated payer.key target.key
        rt.systemProgramId space (rt.minimumBalance space) := by
      apply hadopted.setAccount hne
      rw [hallocate, hwidth, Bank.setData, hadopted.created]
    obtain ⟨after, hafter⟩ := @SystemProgramServes.assign _ _ _ _ _
      hserves [signerSeeds] allocated target.key owner htarget hsigns
      (congrArg Account.owner hspaced.created)
    obtain ⟨-, hassign⟩ := rt.invokeSigned_effect hafter
    refine ⟨after, ?_, ?_⟩
    · simp only [bind_eq_ok]
      exact ⟨funded, hfunded, allocated, hallocated, hafter⟩
    · apply hspaced.setAccount hne
      rw [hassign, Bank.setOwner, hspaced.created]

/-- The account created at a program address is the same, up to surplus
lamports, as if nobody had sent anything to the address before. -/
theorem createOrAdoptPda_adopts {target payer : AccountInfo Pubkey}
    {owner : Pubkey} {seeds : List (Seed Pubkey)} {bump : U8}
    (hspace : space < 2 ^ 64)
    (hserves : SystemProgramServes rt accounts space)
    (hsigned : SignedByOthers rt.toDeployment accounts)
    (hpayer : payer ∈ accounts) (hpayerSigns : payer.isSigner = true)
    (hpayerWritable : payer.isWritable = true)
    (htarget : target ∈ accounts) (htargetWritable : target.isWritable = true)
    (hpda : rt.findProgramAddress seeds rt.programId = (target.key, bump))
    (h : Adoptable rt bank payer.key target.key space) :
    (∃ after, createOrAdoptPda rt target payer owner space
        (seeds ++ [.bump bump]) bank = .ok after ∧
      Adopted bank after payer.key target.key owner space
        (rt.minimumBalance space)) ∧
    ∀ after fresh, createOrAdoptPda rt target payer owner space
        (seeds ++ [.bump bump]) bank = .ok after →
      createOrAdoptPda rt target payer owner space (seeds ++ [.bump bump])
        (bank.setLamports target.key 0) = .ok fresh →
      after.accounts target.key =
        { fresh.accounts target.key with
          lamports := wordMax (bank.accounts target.key).lamports
            (fresh.accounts target.key).lamports } := by
  have hne : payer.key ≠ target.key := by
    intro heq
    exact hsigned payer hpayer hpayerSigns ⟨seeds, by rw [hpda, heq]⟩
  have hsigns : Signs rt.toDeployment accounts [seeds ++ [.bump bump]]
      target.key :=
    Or.inr ⟨seeds, bump, List.mem_singleton_self _, hpda⟩
  obtain ⟨after, hafter, hadopted⟩ := @Adoptable.exists_adopted _ _ _ _ _ _
    target payer owner _ h hspace hserves
    (.of_mem hpayer hpayerWritable) (.of_mem htarget htargetWritable)
    (fun _ => .of_user hpayer hpayerSigns) hsigns hne
  refine ⟨⟨after, hafter, hadopted⟩, ?_⟩
  intro after' fresh hafter' hfresh
  cases hafter.symm.trans hafter'
  have hcreated : fresh.accounts target.key =
      ⟨rt.minimumBalance space, owner, .zeroed space⟩ := by
    have hunfunded :
        ((bank.setLamports target.key 0).accounts target.key).lamports =
          0 := by
      rw [Bank.setLamports, Bank.setAccount_same]
    unfold createOrAdoptPda at hfresh
    dsimp only at hfresh
    rw [if_pos hunfunded] at hfresh
    obtain ⟨-, -, -, -, rfl⟩ := rt.invokeSigned_effect hfresh
    rw [Bank.setAccount_same, BitVec.toNat_ofNat, Nat.mod_eq_of_lt hspace]
  rw [hadopted.created, hcreated]

end Calls

namespace Reference

def aliceRecord : Address := .stakeDeposit poolKey alice.key

/-- Somebody sent one lamport to the address of alice's record. -/
def squattedGenesis : Bank Address := genesis.setLamports aliceRecord 1

/-- Alice pays all of the rent but the lamport that is already there. -/
theorem squattedGenesis_adopts : ∃ after,
    createOrAdoptPda runtime (writable aliceRecord) (signer alice.key)
        .vaultProgram stakeDepositSize
        ([.literal "stake_deposit", .key poolKey, .key alice.key] ++
          [.bump 253]) squattedGenesis = .ok after ∧
      after.accounts aliceRecord = ⟨1948800, .vaultProgram, .zeroed 152⟩ ∧
      (after.accounts alice.key).lamports = 1000000000000 - 1948799 := by
  have hadopts := @createOrAdoptPda_adopts _ _ runtime squattedGenesis
    [signer alice.key, writable aliceRecord] stakeDepositSize
    (writable aliceRecord) (signer alice.key) .vaultProgram
    [.literal "stake_deposit", .key poolKey, .key alice.key] 253 (by decide)
    ((runtime_systemProgramLive _).serves (by decide))
    (by
      intro info hmem hsigner
      apply not_isProgramAddress
      rcases List.mem_cons.mp hmem with rfl | hmem
      · rfl
      · rw [List.mem_singleton.mp hmem] at hsigner
        cases hsigner)
    (by simp) rfl rfl (by simp) rfl rfl
    ⟨rfl, rfl, by decide +kernel, fun _ => ⟨rfl, rfl⟩⟩
  obtain ⟨⟨after, hafter, hadopted⟩, -⟩ := hadopts
  exact ⟨after, hafter, hadopted.created,
    congrArg Account.lamports hadopted.charged⟩

end Reference

end PercolatorVault
