import PercolatorVault.PoolView

/-!
# The invariant of a bank

In a `Sound` bank every pool record is backed by its vault and its LP mint,
every deposit record sits at the address derived from the pool and user it
names, and token accounts belong to initialised mints.  The invariant and the
view of every pool are followed through the writes of pool and deposit
records.
-/

namespace PercolatorVault

open CheckedArithmetic
open FallibleSteps

variable {Pubkey : Type} {d : Deployment Pubkey} {before after : Bank Pubkey}
  {key target : Pubkey}

/-! ## Writing a record -/

/-- The data of one account was overwritten.  If that changed anything, the
account belongs to the program. -/
structure Stored (d : Deployment Pubkey) (before after : Bank Pubkey)
    (target : Pubkey) (data : AccountData Pubkey) : Prop where
  clock : after.clock = before.clock
  owner : (after.accounts target).owner = (before.accounts target).owner
  data : (after.accounts target).data = data
  others : ∀ key, key ≠ target → after.accounts key = before.accounts key
  owned : after = before ∨ (before.accounts target).owner = d.programId

theorem storeData_stored [DecidableEq Pubkey] {info : AccountInfo Pubkey}
    {data : AccountData Pubkey}
    (h : storeData d before info data = .ok after) :
    Stored d before after info.key data := by
  unfold storeData at h
  split at h
  · next hsame =>
      cases h
      exact ⟨rfl, rfl, hsame, fun _ _ => rfl, Or.inl rfl⟩
  · simp only [bind_eq_ok, require_eq_ok, Except.ok.injEq] at h
    obtain ⟨-, howned, -, -, rfl⟩ := h
    exact ⟨rfl, by simp, by simp, fun other hne => before.setData_other _ hne,
      Or.inr howned⟩

namespace Stored

variable {data : AccountData Pubkey}

theorem accounts_eq_of_foreign (h : Stored d before after target data)
    (hforeign : (before.accounts key).owner ≠ d.programId) :
    after.accounts key = before.accounts key := by
  rcases h.owned with rfl | howned
  · rfl
  · apply h.others
    rintro rfl
    exact hforeign howned

theorem owner_eq (h : Stored d before after target data) (key : Pubkey) :
    (after.accounts key).owner = (before.accounts key).owner := by
  by_cases heq : key = target
  · rw [heq]
    exact h.owner
  · rw [h.others key heq]

theorem tokenAt_iff (h : Stored d before after target data)
    {t : TokenAccount Pubkey} :
    d.TokenAt after key t ↔ d.TokenAt before key t := by
  have hforeign : (before.accounts key).owner = d.splTokenId →
      after.accounts key = before.accounts key := fun howner =>
    h.accounts_eq_of_foreign (howner ▸ d.splTokenId_ne_programId)
  constructor
  · intro ht
    have heq := hforeign ((h.owner_eq key).symm.trans ht.1)
    exact ht.back (.of_eq heq)
  · intro ht
    exact ht.of_sameContents (.of_eq (hforeign ht.1))

theorem mintAt (h : Stored d before after target data) {m : Mint Pubkey}
    (hm : d.MintAt before key m) : d.MintAt after key m := by
  have heq : after.accounts key = before.accounts key :=
    h.accounts_eq_of_foreign (hm.1 ▸ d.splTokenId_ne_programId)
  exact hm.of_sameContents (.of_eq heq)

theorem mintsExist (h : Stored d before after target data)
    (hbefore : MintsExist d before) : MintsExist d after := by
  intro key t ht
  obtain ⟨m, hm⟩ := hbefore key t (h.tokenAt_iff.mp ht)
  exact ⟨m, h.mintAt hm⟩

theorem noHolders (h : Stored d before after target data) {mint : Pubkey}
    (hbefore : NoHolders d before mint) : NoHolders d after mint :=
  fun key t ht htmint => hbefore key t (h.tokenAt_iff.mp ht) htmint

/-- A write elsewhere neither adds nor changes a pool or a record. -/
theorem poolAt_iff (h : Stored d before after target data)
    (hne : key ≠ target) {pool : StakePool Pubkey} :
    d.PoolAt after key pool ↔ d.PoolAt before key pool := by
  unfold Deployment.PoolAt
  rw [h.others key hne]

theorem depositAt_iff (h : Stored d before after target data)
    (hne : key ≠ target) {deposit : StakeDeposit Pubkey} :
    d.DepositAt after key deposit ↔ d.DepositAt before key deposit := by
  unfold Deployment.DepositAt
  rw [h.others key hne]

/-- A pool is not where a record was written. -/
theorem ne_of_poolAt {deposit : StakeDeposit Pubkey}
    (h : Stored d before after target (.stakeDeposit deposit))
    {pool : StakePool Pubkey} (hpool : d.PoolAt after key pool) :
    key ≠ target := by
  rintro rfl
  have hdata := h.data.symm.trans hpool.2
  cases hdata

end Stored

/-- What a pool record says about where its tokens are. -/
structure StakePool.SameAccounts (before after : StakePool Pubkey) :
    Prop where
  isInitialized : after.isInitialized = before.isInitialized
  collateralMint : after.collateralMint = before.collateralMint
  lpMint : after.lpMint = before.lpMint
  vault : after.vault = before.vault

/-! ## Soundness -/

variable [DecidableEq Pubkey] {view : PoolView Pubkey}

structure Sound (d : Deployment Pubkey) (bank : Bank Pubkey) : Prop where
  pools : ∀ key pool, d.PoolAt bank key pool →
    ∃ view, view.pool = pool ∧ Shows d bank key view
  records : ∀ key deposit, d.DepositAt bank key deposit →
    key = (d.deriveDepositPda deposit.pool deposit.user).1 ∧
      ∃ pool, d.PoolAt bank deposit.pool pool
  mintsExist : MintsExist d bank

/-- A frame that keeps the view of every pool keeps the bank sound. -/
theorem Sound.of_frame (h : Sound d before) (hframe : Frame d before after)
    (hshows : ∀ key view, Shows d before key view →
      ∃ view', view'.pool = view.pool ∧ Shows d after key view') :
    Sound d after where
  pools key pool hpool := by
    obtain ⟨view, rfl, hview⟩ := h.pools key pool (hpool.back hframe)
    exact hshows key view hview
  records key deposit hdeposit := by
    obtain ⟨hkey, pool, hpool⟩ :=
      h.records key deposit (hdeposit.back hframe)
    exact ⟨hkey, pool, hpool.of_frame hframe⟩
  mintsExist := hframe.mintsExist h.mintsExist

/-- No record of a pool exists before the pool does. -/
theorem Sound.recordIn_of_no_pool (h : Sound d before)
    (hnone : ∀ pool, ¬ d.PoolAt before key pool) (user : Pubkey) :
    recordIn d (before.accounts (d.deriveDepositPda key user).1) = none := by
  cases hrecord :
      recordIn d (before.accounts (d.deriveDepositPda key user).1) with
  | none => rfl
  | some deposit =>
      obtain ⟨hkey, pool, hpool⟩ :=
        h.records _ deposit (recordIn_eq_some.mp hrecord)
      have hsame := (d.deriveDepositPda_injective hkey).1
      rw [← hsame] at hpool
      exact absurd hpool (hnone pool)

/-! ## Views after a write -/

/-- A write that is neither to the pool nor to a deposit record of it. -/
theorem Shows.storedElsewhere {data : AccountData Pubkey}
    (h : Shows d before key view) (hstored : Stored d before after target data)
    (hne : key ≠ target)
    (hrecords : ∀ user,
      recordIn d (after.accounts (d.deriveDepositPda key user).1) =
        recordIn d (before.accounts (d.deriveDepositPda key user).1)) :
    Shows d after key view where
  pool := (hstored.poolAt_iff hne).mpr h.pool
  address := h.address
  initialized := h.initialized
  vault := hstored.tokenAt_iff.mpr h.vault
  lpMint := by
    obtain ⟨freeze, hlp⟩ := h.lpMint
    exact ⟨freeze, hstored.mintAt hlp⟩
  records user := (h.records user).trans (hrecords user).symm
  unheld hdegenerate := hstored.noHolders (h.unheld hdegenerate)

/-- The pool's own record was rewritten. -/
theorem Shows.storedPool {pool : StakePool Pubkey}
    (h : Shows d before key view)
    (hstored : Stored d before after key (.stakePool pool))
    (hsame : view.pool.SameAccounts pool) :
    Shows d after key { view with pool := pool } where
  pool := ⟨hstored.owner.trans h.pool.1, hstored.data⟩
  address := h.address
  initialized := hsame.isInitialized.trans h.initialized
  vault := by
    dsimp only
    rw [hsame.vault, hsame.collateralMint]
    exact hstored.tokenAt_iff.mpr h.vault
  lpMint := by
    obtain ⟨freeze, hlp⟩ := h.lpMint
    dsimp only
    rw [hsame.lpMint]
    exact ⟨freeze, hstored.mintAt hlp⟩
  records user := by
    rw [hstored.others _ (h.ne_deriveDepositPda key user).symm]
    exact h.records user
  unheld hdegenerate := by
    dsimp only at hdegenerate ⊢
    rw [hsame.lpMint]
    apply hstored.noHolders
    apply h.unheld
    rw [← hsame.collateralMint, ← hsame.lpMint]
    exact hdegenerate

/-- The record of another pool was written. -/
theorem Shows.storedOtherPool {pool : StakePool Pubkey}
    (h : Shows d before key view)
    (hstored : Stored d before after target (.stakePool pool))
    (hne : key ≠ target)
    (hbefore : recordIn d (before.accounts target) = none) :
    Shows d after key view := by
  apply h.storedElsewhere hstored hne
  intro user
  by_cases heq : (d.deriveDepositPda key user).1 = target
  · rw [heq, hbefore]
    simp [recordIn, hstored.data]
  · rw [hstored.others _ heq]

/-- A deposit record of this pool was written. -/
theorem Shows.storedDeposit {user : Pubkey} {deposit : StakeDeposit Pubkey}
    (h : Shows d before key view)
    (hstored : Stored d before after (d.deriveDepositPda key user).1
      (.stakeDeposit deposit))
    (howned : (before.accounts (d.deriveDepositPda key user).1).owner =
      d.programId) :
    Shows d after key
      { view with
        records := Function.update view.records user (some deposit) } := by
  have hne := h.ne_deriveDepositPda key user
  refine ⟨(hstored.poolAt_iff hne).mpr h.pool, h.address, h.initialized,
    hstored.tokenAt_iff.mpr h.vault, ?_, ?_,
    fun hdegenerate => hstored.noHolders (h.unheld hdegenerate)⟩
  · obtain ⟨freeze, hlp⟩ := h.lpMint
    exact ⟨freeze, hstored.mintAt hlp⟩
  · intro other
    dsimp only
    by_cases heq : other = user
    · subst heq
      rw [Function.update_self]
      exact (recordIn_eq_some.mpr
        ⟨hstored.owner.trans howned, hstored.data⟩).symm
    · have hpda : (d.deriveDepositPda key other).1 ≠
          (d.deriveDepositPda key user).1 := fun hsame =>
        heq (d.deriveDepositPda_injective hsame).2
      rw [Function.update_of_ne heq, hstored.others _ hpda]
      exact h.records other

/-- A deposit record of another pool was written. -/
theorem Shows.storedOtherDeposit {pool user : Pubkey}
    {deposit : StakeDeposit Pubkey} (h : Shows d before key view)
    (hstored : Stored d before after (d.deriveDepositPda pool user).1
      (.stakeDeposit deposit))
    (hne : key ≠ pool) : Shows d after key view := by
  apply h.storedElsewhere hstored (h.ne_deriveDepositPda pool user)
  · intro other
    have hpda : (d.deriveDepositPda key other).1 ≠
        (d.deriveDepositPda pool user).1 := fun hsame =>
      hne (d.deriveDepositPda_injective hsame).1
    rw [hstored.others _ hpda]

/-! ## Soundness after a write -/

theorem Sound.storedPool {pool : StakePool Pubkey} (h : Sound d before)
    (hstored : Stored d before after target (.stakePool pool))
    (hbefore : recordIn d (before.accounts target) = none)
    (hshows : ∃ view, view.pool = pool ∧ Shows d after target view) :
    Sound d after where
  pools key other hother := by
    by_cases heq : key = target
    · subst heq
      obtain ⟨view, rfl, hview⟩ := hshows
      exact ⟨view, hview.pool.unique hother, hview⟩
    · obtain ⟨view, hpool, hview⟩ :=
        h.pools key other ((hstored.poolAt_iff heq).mp hother)
      exact ⟨view, hpool, hview.storedOtherPool hstored heq hbefore⟩
  records key deposit hdeposit := by
    have hne : key ≠ target := by
      rintro rfl
      have hdata := hstored.data.symm.trans hdeposit.2
      cases hdata
    obtain ⟨hkey, other, hother⟩ :=
      h.records key deposit ((hstored.depositAt_iff hne).mp hdeposit)
    refine ⟨hkey, ?_⟩
    by_cases heq : deposit.pool = target
    · obtain ⟨view, rfl, hview⟩ := hshows
      rw [heq]
      exact ⟨_, hview.pool⟩
    · exact ⟨other, (hstored.poolAt_iff heq).mpr hother⟩
  mintsExist := hstored.mintsExist h.mintsExist

theorem Sound.storedDeposit {deposit : StakeDeposit Pubkey}
    (h : Sound d before)
    (hstored : Stored d before after
      (d.deriveDepositPda deposit.pool deposit.user).1
      (.stakeDeposit deposit))
    (howned : (before.accounts
      (d.deriveDepositPda deposit.pool deposit.user).1).owner = d.programId)
    (hpool : ∃ pool, d.PoolAt before deposit.pool pool) :
    Sound d after := by
  have hpoolKept : ∀ key pool, d.PoolAt before key pool →
      d.PoolAt after key pool := by
    intro key pool hpool
    obtain ⟨view, rfl, hview⟩ := h.pools key pool hpool
    by_cases heq : key = deposit.pool
    · subst heq
      exact (hview.storedDeposit hstored howned).pool
    · exact (hview.storedOtherDeposit hstored heq).pool
  refine ⟨?_, ?_, hstored.mintsExist h.mintsExist⟩
  · intro key pool hafter
    have hne := hstored.ne_of_poolAt hafter
    obtain ⟨view, rfl, hview⟩ :=
      h.pools key pool ((hstored.poolAt_iff hne).mp hafter)
    by_cases heq : key = deposit.pool
    · subst heq
      exact ⟨{ view with
          records :=
            Function.update view.records deposit.user (some deposit) },
        rfl, hview.storedDeposit hstored howned⟩
    · exact ⟨view, rfl, hview.storedOtherDeposit hstored heq⟩
  · intro key other hother
    by_cases heq :
        key = (d.deriveDepositPda deposit.pool deposit.user).1
    · subst heq
      have hdata := hstored.data.symm.trans hother.2
      injection hdata with hsame
      subst hsame
      obtain ⟨pool, hpool⟩ := hpool
      exact ⟨rfl, pool, hpoolKept _ _ hpool⟩
    · obtain ⟨hkey, pool, hpool⟩ :=
        h.records key other ((hstored.depositAt_iff heq).mp hother)
      exact ⟨hkey, pool, hpoolKept _ _ hpool⟩

end PercolatorVault
