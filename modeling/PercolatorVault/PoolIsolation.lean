import PercolatorVault.TokenTotals
import PercolatorVault.VaultAuthority

/-!
# Pools side by side

Two pools never share a vault, an LP mint or a deposit record.  Together the
pools of one collateral hold no more value than is in their vaults, hence no
more than there is of the collateral, and a transaction writes to one of them
at most.
-/

namespace PercolatorVault

open CheckedArithmetic

variable {Pubkey : Type} [DecidableEq Pubkey]

/-- Nothing of the pool at `key` was written; its vault may have received
tokens. -/
structure PoolUntouched (d : Deployment Pubkey) (before after : Bank Pubkey)
    (key : Pubkey) (pool : StakePool Pubkey) : Prop where
  poolAt : d.PoolAt after key pool
  records : ∀ user,
    recordIn d (after.accounts (d.deriveDepositPda key user).1) =
      recordIn d (before.accounts (d.deriveDepositPda key user).1)
  vault : ∃ balance balance', d.TokenAt before pool.vault balance ∧
    d.TokenAt after pool.vault balance' ∧
    balance.amount.toNat ≤ balance'.amount.toNat
  lpMint : ∃ m m', d.MintAt before pool.lpMint m ∧
    d.MintAt after pool.lpMint m' ∧ m'.supply = m.supply

theorem Drift.untouched {d : Deployment Pubkey} {before after : Bank Pubkey}
    {key : Pubkey} {view view' : PoolView Pubkey}
    (h : Drift 0 view view') (hview : Shows d before key view)
    (hview' : Shows d after key view') :
    PoolUntouched d before after key view.pool := by
  obtain ⟨freeze, hmint⟩ := hview.lpMint
  obtain ⟨freeze', hmint'⟩ := hview'.lpMint
  have hpool := hview'.pool
  have hvault := hview'.vault
  rw [h.pool] at hpool hvault hmint'
  refine ⟨hpool, ?_, ⟨_, _, hview.vault, hvault, h.vault⟩,
    ⟨_, _, hmint, hmint', ?_⟩⟩
  · intro user
    rw [← hview.records, ← hview'.records, h.records]
  · exact BitVec.eq_of_toNat_eq h.supply

section Pools

variable [Inhabited Pubkey] {rt : Runtime Pubkey} {bank after : Bank Pubkey}
  {key other : Pubkey}

/-- Pools that share a vault or an LP mint are the same. -/
theorem Reachable.pool_of_shared (h : Reachable rt bank)
    {pool otherPool : StakePool Pubkey} (hpool : rt.PoolAt bank key pool)
    (hother : rt.PoolAt bank other otherPool)
    (hshared : pool.vault = otherPool.vault ∨
      pool.lpMint = otherPool.lpMint) : key = other := by
  obtain ⟨view, rfl, hview⟩ := h.shows_pool hpool
  obtain ⟨otherView, rfl, hotherView⟩ := h.shows_pool hother
  rcases hshared with hvault | hmint
  · have hheld := hview.vault
    rw [hvault] at hheld
    apply rt.deriveVaultAuthority_injective
    exact congrArg TokenAccount.owner (hheld.unique hotherView.vault)
  · exact hview.eq_of_lpMint_eq hotherView hmint

/-- The vaults of some pools, as distinct accounts, hold the value of all of
them. -/
theorem Reachable.sum_bookValue_le (h : Reachable rt bank) {mint : Pubkey}
    {keys : Finset Pubkey} {pools : Pubkey → StakePool Pubkey}
    (hpools : ∀ key ∈ keys, rt.PoolAt bank key (pools key))
    (hmint : ∀ key ∈ keys, (pools key).collateralMint = mint) :
    ∑ key ∈ keys, (pools key).bookValue ≤
      ∑ vault ∈ keys.image fun key => (pools key).vault,
        tokensOf rt.toDeployment bank mint vault := by
  have hdistinct : Set.InjOn (fun key => (pools key).vault) keys := by
    intro key hkey other hother hsame
    exact h.pool_of_shared (hpools key hkey) (hpools other hother)
      (.inl hsame)
  rw [Finset.sum_image hdistinct]
  apply Finset.sum_le_sum
  intro key hkey
  obtain ⟨view, hshown, hview⟩ := h.shows_pool (hpools key hkey)
  have hbacked := (Nat.le_add_right _ _).trans (h.coherent hview).backed
  rw [view.ledger_value, hshown] at hbacked
  have hvault := hview.vault
  have hcollateral := hmint key hkey
  rw [hshown] at hvault
  rw [tokensOf_of_tokenAt hvault, if_pos hcollateral]
  exact hbacked

/-- A transaction writes to no pool but the one it names second. -/
theorem process_untouched {accounts : List (AccountInfo Pubkey)}
    {data : List U8} (h : Reachable rt bank)
    (hsigned : SignedByOthers rt.toDeployment accounts)
    (hrun : process rt accounts data bank = .ok after)
    {pool : StakePool Pubkey} (hpool : rt.PoolAt bank key pool)
    (hother : accounts[1]?.map AccountInfo.key ≠ some key) :
    PoolUntouched rt.toDeployment bank after key pool := by
  obtain ⟨view, rfl, hview⟩ := h.shows_pool hpool
  obtain ⟨call, -, -, hstep⟩ := step_of_process hsigned hrun
  have hidle : (Event.instruction accounts call).seenBy key = .idle := by
    match accounts with
    | [] => rfl
    | [_] => rfl
    | user :: info :: rest =>
        exact if_neg fun hnamed => hother (congrArg some hnamed)
  obtain ⟨middle, view', hmachine, hdrift, hview', -⟩ :=
    hstep.poolStep h.sound hview
  rw [hidle] at hmachine
  cases hmachine
  exact hdrift.untouched hview hview'

theorem Reachable.pools_isolated (h : Reachable rt bank) :
    (∀ key other pool otherPool, rt.PoolAt bank key pool →
      rt.PoolAt bank other otherPool →
      (pool.vault = otherPool.vault ∨ pool.lpMint = otherPool.lpMint) →
        key = other) ∧
    (∀ mint (keys : Finset Pubkey) (pools : Pubkey → StakePool Pubkey),
      (∀ key ∈ keys, rt.PoolAt bank key (pools key) ∧
        (pools key).collateralMint = mint) →
      ∑ key ∈ keys, (pools key).bookValue ≤
          ∑ vault ∈ keys.image fun key => (pools key).vault,
            tokensOf rt.toDeployment bank mint vault ∧
        ∀ m, rt.MintAt bank mint m → m.mintAuthority ≠ none →
          TokenTotals rt.toDeployment bank
              (keys.image fun key => (pools key).vault) →
            ∑ key ∈ keys, (pools key).bookValue ≤ m.supply.toNat) ∧
    ∀ accounts data after, SignedByOthers rt.toDeployment accounts →
      process rt accounts data bank = .ok after →
        ∀ key pool, rt.PoolAt bank key pool →
          accounts[1]?.map AccountInfo.key ≠ some key →
            PoolUntouched rt.toDeployment bank after key pool := by
  refine ⟨fun _ _ _ _ => h.pool_of_shared, ?_, ?_⟩
  · intro mint keys pools hpools
    have hheld := h.sum_bookValue_le (fun key hkey => (hpools key hkey).1)
      fun key hkey => (hpools key hkey).2
    refine ⟨hheld, ?_⟩
    intro m hm hauthority htotals
    exact hheld.trans (htotals.supplied mint m hm hauthority)
  · intro accounts data after hsigned hrun key pool hpool hother
    exact process_untouched h hsigned hrun hpool hother

end Pools

namespace Reference

/-- Accounts for a second market on the same collateral. -/
def twinAccounts : Address → Account Address
  | .wallet 50 => ⟨1, percolator, .foreign [1]⟩
  | .wallet 52 => tokenSpace 82
  | .wallet 53 => tokenSpace 165
  | .wallet 54 => tokenSpace 165
  | key => genesisAccounts key

def twinGenesis : Bank Address := ⟨twinAccounts, genesis.clock⟩

theorem twinGenesis_genesis : Genesis deployment twinGenesis where
  unused key howned := by
    change (twinAccounts key).owner = .vaultProgram at howned
    unfold twinAccounts at howned
    split at howned
    · cases howned
    · cases howned
    · cases howned
    · cases howned
    · unfold genesisAccounts at howned
      split at howned <;> cases howned
  mintsExist key t ht := by
    obtain ⟨howned, hdata⟩ := ht
    change (twinAccounts key).owner = .splToken at howned
    change (twinAccounts key).data = .tokenAccount t at hdata
    have hmint : t.mint = collateralMint := by
      unfold twinAccounts at hdata
      split at hdata
      · cases hdata
      · cases hdata
      · cases hdata
      · cases hdata
      · unfold genesisAccounts at hdata
        split at hdata <;> cases hdata <;> rfl
    exact ⟨collateralSupply, by rw [hmint]; exact ⟨rfl, rfl⟩⟩

def twinKey : Address := .stakePool (.wallet 50)

def initTwin : Transaction Address :=
  .call
    [signer admin, writable (.wallet 50), writable twinKey,
      writable (.wallet 52), writable (.wallet 53),
      readonly (.vaultAuth twinKey), readonly collateralMint,
      readonly percolator, readonly .splToken, readonly .systemProgram,
      readonly rentSysvar]
    (.initPool 10 0)

def depositToTwin (amount : U64) : Transaction Address :=
  .call
    [signer bob.key, writable twinKey, writable bob.tokens,
      writable (.wallet 53), writable (.wallet 52), writable (.wallet 54),
      readonly (.vaultAuth twinKey),
      writable (.stakeDeposit twinKey bob.key), readonly .splToken,
      readonly .clockSysvar, readonly .systemProgram]
    (.deposit amount)

/-- Two markets, alice in the first and bob in the second. -/
def twoMarkets : List (Transaction Address) :=
  [initPool 10, initTwin, openLpAccount alice,
    .openAccount (.wallet 54) (.wallet 52) bob.key, deposit alice 1000,
    depositToTwin 400]

def twoMarketsBank : Bank Address :=
  Transaction.performAll runtime twinGenesis twoMarkets

def poolHeldAt (bank : Bank Address) (key : Address) :
    Option (StakePool Address) :=
  if (bank.accounts key).owner = .vaultProgram then
    match (bank.accounts key).data with
    | .stakePool pool => some pool
    | _ => none
  else none

theorem exists_poolAt_of_held {α : Type} {bank : Bank Address}
    {key : Address} {read : StakePool Address → α} {value : α}
    (h : (poolHeldAt bank key).map read = some value) :
    ∃ pool, deployment.PoolAt bank key pool ∧ read pool = value := by
  rw [Option.map_eq_some_iff] at h
  obtain ⟨pool, hpool, hread⟩ := h
  refine ⟨pool, ?_, hread⟩
  unfold poolHeldAt at hpool
  split at hpool
  · next howned =>
      split at hpool
      · next hdata =>
          cases hpool
          exact ⟨howned, hdata⟩
      · cases hpool
  · cases hpool

/-- While alice deposits more, nothing happens to the pool bob is in. -/
theorem twoMarkets_pools_isolated : ∃ pool twin after,
    deployment.PoolAt twoMarketsBank poolKey pool ∧
      deployment.PoolAt twoMarketsBank twinKey twin ∧
      (pool.bookValue, twin.bookValue) = (1000, 400) ∧
      pool.bookValue + twin.bookValue ≤ collateralSupply.supply.toNat ∧
      process runtime (depositAccounts alice) depositData twoMarketsBank =
        .ok after ∧
      PoolUntouched deployment twoMarketsBank after twinKey twin := by
  have hreachable : Reachable runtime twoMarketsBank :=
    ⟨twinGenesis, _, twinGenesis_genesis,
      run_of_acceptsAll (by decide +kernel)⟩
  have hread : (poolHeldAt twoMarketsBank poolKey).map (fun pool =>
      (pool.collateralMint, pool.vault, pool.bookValue)) =
        some (collateralMint, vault, 1000) := by
    decide +kernel
  have hread' : (poolHeldAt twoMarketsBank twinKey).map (fun pool =>
      (pool.collateralMint, pool.vault, pool.bookValue)) =
        some (collateralMint, .wallet 53, 400) := by
    decide +kernel
  obtain ⟨pool, hpool, hnumbers⟩ := exists_poolAt_of_held hread
  obtain ⟨twin, htwin, hnumbers'⟩ := exists_poolAt_of_held hread'
  simp only [Prod.mk.injEq] at hnumbers hnumbers'
  obtain ⟨hmint, hvault, hvalue⟩ := hnumbers
  obtain ⟨hmint', hvault', hvalue'⟩ := hnumbers'
  have haccepts : accepts twoMarketsBank (deposit alice 500) = true := by
    decide +kernel
  have hunpack : StakeInstruction.unpack runtime.pubkeyFromBytes
      depositData = .ok (.deposit 500) := rfl
  obtain ⟨hsigned, after, hrun⟩ := process_of_accepts hunpack haccepts
  obtain ⟨-, hvalues, huntouched⟩ := Reachable.pools_isolated hreachable
  refine ⟨pool, twin, after, hpool, htwin, by rw [hvalue, hvalue'], ?_, hrun,
    huntouched _ _ _ hsigned hrun twinKey twin htwin (by decide)⟩
  have hne : poolKey ≠ twinKey := by decide
  let pools := Function.update (fun _ => twin) poolKey pool
  have hatFirst : pools poolKey = pool := Function.update_self ..
  have hatTwin : pools twinKey = twin :=
    Function.update_of_ne hne.symm ..
  have hvaults : ({poolKey, twinKey} : Finset Address).image
      (fun key => (pools key).vault) = {vault, .wallet 53} := by
    rw [Finset.image_insert, Finset.image_singleton, hatFirst, hatTwin,
      hvault, hvault']
  have hpools : ∀ key ∈ ({poolKey, twinKey} : Finset Address),
      deployment.PoolAt twoMarketsBank key (pools key) ∧
        (pools key).collateralMint = collateralMint := by
    intro key hkey
    rw [Finset.mem_insert, Finset.mem_singleton] at hkey
    rcases hkey with rfl | rfl
    · rw [hatFirst]
      exact ⟨hpool, hmint⟩
    · rw [hatTwin]
      exact ⟨htwin, hmint'⟩
  obtain ⟨-, hsupplied⟩ :=
    hvalues collateralMint {poolKey, twinKey} pools hpools
  have htotal := hsupplied collateralSupply
    (mintAccount_eq_ok.mp (by decide +kernel)) (by decide)
    (by
      rw [hvaults]
      exact @tokenTotals_of_keepsTotals _ _ {collateralMint}
        (by decide +kernel))
  rwa [Finset.sum_pair hne, hatFirst, hatTwin] at htotal

end Reference

end PercolatorVault
