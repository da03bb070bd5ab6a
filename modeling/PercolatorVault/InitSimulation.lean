import PercolatorVault.Simulation

/-!
# Creation of a pool

InitPool and InitTradingPool are the only instructions after which a pool
exists that did not exist before.  The new pool is `Fresh`: all its totals are
zero, no LP has been minted, and no deposit record names it.
-/

namespace PercolatorVault

open CheckedArithmetic
open FallibleSteps

variable {Pubkey : Type}

theorem InitPoolAccounts.next_eq_ok {a : InitPoolAccounts Pubkey}
    {accounts : List (AccountInfo Pubkey)}
    (h : InitPoolAccounts.next accounts = .ok a) :
    ∃ rest, accounts = a.admin :: a.slab :: a.poolPda :: rest := by
  unfold InitPoolAccounts.next at h
  split at h
  · cases h
    exact ⟨_, rfl⟩
  · cases h

theorem StakePool.eq_setPoolMode {pool : StakePool Pubkey} {poolMode : U8}
    (h : pool.poolMode = poolMode) :
    pool = { pool with poolMode := poolMode } := by
  subst h
  rfl

variable [DecidableEq Pubkey] {d : Deployment Pubkey} {rt : Runtime Pubkey}
  {before middle after : Bank Pubkey} {accounts : List (AccountInfo Pubkey)}

/-- Everything a successful initialisation did before the pool record was
written. -/
structure InitTrace (rt : Runtime Pubkey) (before after : Bank Pubkey)
    (a : InitPoolAccounts Pubkey) (pool : StakePool Pubkey) where
  created : Bank Pubkey
  authorized : Bank Pubkey
  minted : Bank Pubkey
  vaulted : Bank Pubkey
  hpda : a.poolPda.key = (rt.derivePoolPda a.slab.key).1
  hvaultAuth : a.vaultAuth.key = (rt.deriveVaultAuthority a.poolPda.key).1
  hcreated : Allocated rt.toDeployment before created a.poolPda.key
    rt.programId stakePoolSize
  hauthorized : OnlyForeignChanged rt.toDeployment created authorized
  hminted : MintInitialized rt.toDeployment authorized minted a.lpMint.key
    a.vaultAuth.key none
  hvaulted : TokenAccountInitialized rt.toDeployment minted vaulted
    a.vault.key a.collateralMint.key a.vaultAuth.key
  hafter : Stored rt.toDeployment vaulted after a.poolPda.key
    (.stakePool pool)

namespace InitTrace

variable {a : InitPoolAccounts Pubkey} {pool : StakePool Pubkey}

/-- The calls before the write, as one frame. -/
theorem bankFrame (t : InitTrace rt before after a pool) :
    Frame rt.toDeployment before t.vaulted :=
  ((t.hcreated.bankFrame.trans t.hauthorized.bankFrame).trans
    t.hminted.bankFrame).trans t.hvaulted.bankFrame

theorem vaulted_pool (t : InitTrace rt before after a pool) :
    (t.vaulted.accounts a.poolPda.key).owner = rt.programId ∧
      (t.vaulted.accounts a.poolPda.key).data = .zeroed stakePoolSize := by
  have hkept := ((t.hauthorized.bankFrame.trans t.hminted.bankFrame).trans
    t.hvaulted.bankFrame).kept _ t.hcreated.owned
  exact ⟨hkept.1.trans t.hcreated.owned, hkept.2.trans t.hcreated.zeroed⟩

theorem absent (t : InitTrace rt before after a pool)
    (other : StakePool Pubkey) : ¬ rt.PoolAt before a.poolPda.key other := by
  intro h
  have hdata := h.2.symm.trans t.hcreated.empty
  cases hdata

theorem others (t : InitTrace rt before after a pool) {key : Pubkey}
    {view : PoolView Pubkey} (h : Shows rt.toDeployment before key view) :
    Shows rt.toDeployment after key view := by
  have hne : key ≠ a.poolPda.key := by
    rintro rfl
    exact t.absent _ h.pool
  have hvaulted := ((h.allocated t.hcreated).onlyForeignChanged
    t.hauthorized).mintInitialized t.hminted |>.2.tokenAccountInitialized
      t.hvaulted |>.2
  apply hvaulted.storedOtherPool t.hafter hne
  simp [recordIn, t.vaulted_pool.2]

theorem authorized_sound (t : InitTrace rt before after a pool)
    (hbefore : Sound rt.toDeployment before) :
    Sound rt.toDeployment t.authorized :=
  (hbefore.allocated t.hcreated).onlyForeignChanged t.hauthorized

theorem vaulted_sound (t : InitTrace rt before after a pool)
    (hbefore : Sound rt.toDeployment before) :
    Sound rt.toDeployment t.vaulted := by
  have hminted : Sound rt.toDeployment t.minted :=
    (t.authorized_sound hbefore).of_frame t.hminted.bankFrame
      fun key view hview => ⟨view, rfl, (hview.mintInitialized t.hminted).2⟩
  exact hminted.of_frame t.hvaulted.bankFrame
    fun key view hview =>
      ⟨view, rfl, (hview.tokenAccountInitialized t.hvaulted).2⟩

/-- The LP mint did not exist before. -/
theorem newMint (t : InitTrace rt before after a pool) (m : Mint Pubkey) :
    ¬ rt.MintAt before a.lpMint.key m := by
  intro hm
  obtain ⟨m', hm'⟩ := (t.hcreated.bankFrame.trans
    t.hauthorized.bankFrame).mints _ m hm
  obtain ⟨length, hzero⟩ := t.hminted.fresh
  have hdata := hm'.2.symm.trans hzero
  cases hdata

/-- Nobody holds tokens of the new LP mint, not even a vault that was opened
for it. -/
theorem noHolders (t : InitTrace rt before after a pool)
    (hbefore : Sound rt.toDeployment before) :
    NoHolders rt.toDeployment t.vaulted a.lpMint.key := by
  obtain ⟨m, amount, hm, hvault, hempty⟩ := t.hvaulted.initialized
  obtain ⟨length, hzero⟩ := t.hminted.fresh
  intro key s hs hsmint
  by_cases heq : key = a.vault.key
  · subst heq
    have hsame := hs.unique hvault
    subst hsame
    dsimp only at hsmint
    rw [hsmint] at hm
    have hmint := hm.unique t.hminted.initialized
    subst hmint
    simpa using congrArg BitVec.toNat (hempty (by simp))
  · have hminted := hs.back (.of_eq (t.hvaulted.frame key heq))
    have hne := hminted.ne_of_mintAt t.hminted.initialized
    have hauthorized := hminted.back (.of_eq (t.hminted.frame key hne))
    obtain ⟨m', hm'⟩ :=
      (t.authorized_sound hbefore).mintsExist key s hauthorized
    rw [hsmint] at hm'
    have hdata := hm'.2.symm.trans hzero
    cases hdata

end InitTrace

variable [Inhabited Pubkey]

/-- The pool of `view` was created at `key`; every other pool is as before. -/
structure PoolCreated (d : Deployment Pubkey) (before after : Bank Pubkey)
    (key : Pubkey) (view : PoolView Pubkey) : Prop where
  sound : Sound d after
  mints : ∀ mint m, d.MintAt before mint m → ∃ m', d.MintAt after mint m'
  absent : ∀ pool, ¬ d.PoolAt before key pool
  pools : ∀ other pool, other ≠ key → d.PoolAt after other pool →
    ∃ pool', d.PoolAt before other pool'
  others : ∀ other v, Shows d before other v → Shows d after other v
  shows_new : Shows d after key view
  fresh : view.Fresh
  newMint : ∀ m, ¬ d.MintAt before view.pool.lpMint m

theorem PoolCreated.simulates {key : Pubkey} {view : PoolView Pubkey}
    {call : StakeInstruction Pubkey} (h : PoolCreated d before after key view)
    (hbefore : Sound d before)
    (hidle : ∀ user : Pubkey, call.poolEvent user = .idle) :
    Simulates d before (.instruction accounts call) after where
  sound := h.sound
  mints := h.mints
  steps other v hv := by
    have hevent : (Event.instruction accounts call).seenBy other = .idle := by
      unfold Event.seenBy
      split
      · next heq =>
          cases heq
          split
          · exact hidle _
          · rfl
      · rfl
    rw [hevent]
    exact ⟨v, v, .idle v, Drift.refl v, h.others other v hv, False.elim⟩
  created other v hv := by
    by_cases heq : other = key
    · subst heq
      rw [hv.unique h.shows_new]
      exact Or.inr ⟨h.fresh, h.newMint⟩
    · obtain ⟨pool, hpool⟩ := h.pools other _ heq hv.pool
      obtain ⟨v', -, hshows⟩ := hbefore.pools other pool hpool
      exact Or.inl ⟨v', hshows⟩
  burnedMint _ h := absurd rfl h

theorem InitTrace.poolCreated {a : InitPoolAccounts Pubkey}
    {pool : StakePool Pubkey} (t : InitTrace rt before after a pool)
    (hbefore : Sound rt.toDeployment before)
    (hlpMint : pool.lpMint = a.lpMint.key)
    (hvaultKey : pool.vault = a.vault.key)
    (hcollateral : pool.collateralMint = a.collateralMint.key)
    (hinit : pool.isInitialized = 1)
    (hpool : ∃ (poolBump vaultAuthBump : U8) (cooldownSlots depositCap : U64),
      pool = StakePool.zeroed.initPool a poolBump vaultAuthBump cooldownSlots
        depositCap) :
    ∃ view, view.pool = pool ∧
      PoolCreated rt.toDeployment before after a.poolPda.key view := by
  obtain ⟨m, amount, hm, hvault, -⟩ := t.hvaulted.initialized
  obtain ⟨length, hvaultFresh⟩ := t.hvaulted.fresh
  have hmintKept : rt.MintAt t.vaulted a.lpMint.key
      ⟨some a.vaultAuth.key, 0, none⟩ := by
    have hne : a.lpMint.key ≠ a.vault.key := by
      intro heq
      have hdata := t.hminted.initialized.2
      rw [heq, hvaultFresh] at hdata
      cases hdata
    exact t.hminted.initialized.of_sameContents
      (.of_eq (t.hvaulted.frame _ hne))
  have hnoRecord : ∀ user, recordIn rt.toDeployment
      (after.accounts (rt.deriveDepositPda a.poolPda.key user).1) = none := by
    intro user
    have hne : (rt.deriveDepositPda a.poolPda.key user).1 ≠
        a.poolPda.key := by
      rw [t.hpda]
      exact (rt.derivePoolPda_ne_deriveDepositPda _ _ _).symm
    rw [t.hafter.others _ hne, t.bankFrame.recordIn_eq]
    exact hbefore.recordIn_of_no_pool t.absent user
  have hshows : Shows rt.toDeployment after a.poolPda.key
      ⟨pool, amount, 0, fun _ => none⟩ := by
    refine ⟨⟨t.hafter.owner.trans t.vaulted_pool.1, t.hafter.data⟩,
      ⟨a.slab.key, t.hpda⟩, hinit, ?_, ?_, fun user => (hnoRecord user).symm,
      ?_⟩
    · dsimp only
      rw [hvaultKey, hcollateral, ← t.hvaultAuth]
      exact t.hafter.tokenAt_iff.mpr hvault
    · dsimp only
      rw [hlpMint, ← t.hvaultAuth]
      exact ⟨none, t.hafter.mintAt hmintKept⟩
    · intro _
      dsimp only
      rw [hlpMint]
      exact t.hafter.noHolders (t.noHolders hbefore)
  have hnotRecord : recordIn rt.toDeployment
      (t.vaulted.accounts a.poolPda.key) = none := by
    simp [recordIn, t.vaulted_pool.2]
  refine ⟨_, rfl, (t.vaulted_sound hbefore).storedPool t.hafter hnotRecord
    ⟨_, rfl, hshows⟩, ?_, t.absent, ?_, fun _ _ => t.others, hshows, ?_, ?_⟩
  · intro mint m hm
    obtain ⟨m', hm'⟩ := t.bankFrame.mints mint m hm
    exact ⟨m', t.hafter.mintAt hm'⟩
  · intro other pool' hne hpool'
    have hclock : t.vaulted.clock = before.clock := by
      rw [t.hvaulted.clock, t.hminted.clock, t.hauthorized.clock,
        t.hcreated.clock]
    exact (t.bankFrame.keeps hclock).pools other pool'
      ((t.hafter.poolAt_iff hne).mp hpool')
  · obtain ⟨poolBump, vaultAuthBump, cooldownSlots, depositCap, rfl⟩ := hpool
    exact ⟨⟨a, poolBump, vaultAuthBump, cooldownSlots, depositCap, 0,
      Or.inl rfl, StakePool.eq_setPoolMode rfl⟩, rfl, fun _ => rfl⟩
  · dsimp only
    rw [hlpMint]
    exact t.newMint

theorem processInitPool_created {cooldownSlots depositCap : U64}
    (hbefore : Sound rt.toDeployment before)
    (h : processInitPool rt accounts cooldownSlots depositCap before =
      .ok after) :
    ∃ (a : InitPoolAccounts Pubkey) (rest : List (AccountInfo Pubkey))
      (view : PoolView Pubkey),
      accounts = a.admin :: a.slab :: a.poolPda :: rest ∧
      view.pool.poolMode = 0 ∧
      PoolCreated rt.toDeployment before after a.poolPda.key view := by
  simp only [processInitPool, cpiUpdateAuthority, verifyTokenProgram,
    bind_eq_ok, require_eq_ok, exists_const] at h
  obtain ⟨a, ha, -, hpda, -, hvaultAuth, -, -, -, created, hcreate,
    authorized, hauthorize, minted, hmint, vaulted, hvault, pool, hload,
    hstore⟩ := h
  obtain ⟨rest, haccounts⟩ := InitPoolAccounts.next_eq_ok ha
  have hstored := storeData_stored hstore
  let t : InitTrace rt before after a _ :=
    { created, authorized, minted, vaulted, hpda, hvaultAuth
      hcreated := createOrAdoptPda_allocated (by decide) hcreate
      hauthorized :=
        onlyForeignChanged_of_wrapper (by decide) (by decide) hauthorize
      hminted := rt.invokeSigned_effect hmint
      hvaulted := rt.invokeSigned_effect hvault
      hafter := hstored }
  have hzeroed : pool = StakePool.zeroed := by
    have hdata := t.vaulted_pool.2
    simp only [loadPool, show (vaulted.accounts a.poolPda.key).data = _
      from hdata, le_refl, if_true, Except.ok.injEq] at hload
    exact hload.symm
  subst hzeroed
  obtain ⟨view, hview, hcreated⟩ := t.poolCreated hbefore rfl rfl rfl rfl
    ⟨_, _, _, _, rfl⟩
  refine ⟨a, rest, view, haccounts, ?_, hcreated⟩
  rw [hview]
  rfl

theorem processInitTradingPool_created {cooldownSlots depositCap : U64}
    (hbefore : Sound rt.toDeployment before)
    (h : processInitTradingPool rt accounts cooldownSlots depositCap before =
      .ok after) :
    ∃ (a : InitPoolAccounts Pubkey) (rest : List (AccountInfo Pubkey))
      (view : PoolView Pubkey),
      accounts = a.admin :: a.slab :: a.poolPda :: rest ∧
      view.pool.poolMode = 1 ∧
      PoolCreated rt.toDeployment before after a.poolPda.key view := by
  simp only [processInitTradingPool, bind_eq_ok, okOr_eq_ok] at h
  obtain ⟨middle, hinit, info, hinfo, pool, hload, hstore⟩ := h
  obtain ⟨a, rest, view, haccounts, -, hcreated⟩ :=
    processInitPool_created hbefore hinit
  have hinfo' : info = a.poolPda := by
    rw [haccounts] at hinfo
    simpa using hinfo.symm
  subst hinfo'
  have hpool : pool = view.pool := by
    have hsame := (loadPool_of_poolAt hcreated.shows_new.pool).symm.trans hload
    cases hsame
    rfl
  subst hpool
  have hstored := storeData_stored hstore
  have hdata := hcreated.shows_new.pool.2
  have hsame : view.pool.SameAccounts { view.pool with poolMode := 1 } :=
    ⟨rfl, rfl, rfl, rfl⟩
  refine ⟨a, rest, { view with pool := { view.pool with poolMode := 1 } },
    haccounts, rfl, hcreated.sound.updatedPool hdata hstored hsame, ?_,
    hcreated.absent, ?_, ?_, hcreated.shows_new.storedPool hstored hsame, ?_,
    hcreated.newMint⟩
  · intro mint m hm
    obtain ⟨m', hm'⟩ := hcreated.mints mint m hm
    exact ⟨m', hstored.mintAt hm'⟩
  · intro other pool' hne hpool'
    obtain ⟨pool'', hpool''⟩ :=
      (hstored.keeps_of_pool hdata).pools other pool' hpool'
    exact hcreated.pools other pool'' hne hpool''
  · intro other v hv
    have hne : other ≠ a.poolPda.key := by
      rintro rfl
      exact hcreated.absent _ hv.pool
    exact (hcreated.others other v hv).updatedOtherPool hdata hstored hne
  · obtain ⟨⟨b, poolBump, vaultAuthBump, cooldown, cap, mode, -, hpool⟩,
      hsupply, hrecords⟩ := hcreated.fresh
    refine ⟨⟨b, poolBump, vaultAuthBump, cooldown, cap, 1, Or.inr rfl, ?_⟩,
      hsupply, hrecords⟩
    dsimp only
    rw [hpool]

theorem processInitPool_simulates {cooldownSlots depositCap : U64}
    (hbefore : Sound rt.toDeployment before)
    (h : processInitPool rt accounts cooldownSlots depositCap before =
      .ok after) :
    Simulates rt.toDeployment before
      (.instruction accounts (.initPool cooldownSlots depositCap)) after := by
  obtain ⟨a, _, view, -, -, hcreated⟩ := processInitPool_created hbefore h
  exact hcreated.simulates hbefore fun _ => rfl

theorem processInitTradingPool_simulates {cooldownSlots depositCap : U64}
    (hbefore : Sound rt.toDeployment before)
    (h : processInitTradingPool rt accounts cooldownSlots depositCap before =
      .ok after) :
    Simulates rt.toDeployment before
      (.instruction accounts (.initTradingPool cooldownSlots depositCap))
        after := by
  obtain ⟨a, _, view, -, -, hcreated⟩ :=
    processInitTradingPool_created hbefore h
  exact hcreated.simulates hbefore fun _ => rfl

end PercolatorVault
