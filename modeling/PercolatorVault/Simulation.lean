import PercolatorVault.PoolUpdates
import PercolatorVault.Runs

/-!
# Handlers simulate the pool machine

`Simulates` is what every instruction owes the rest of the development: the
bank stays sound, each pool makes the step its event names, possibly followed
by a drift, and no pool appears out of nowhere.  This file has the parts that
all handlers share.
-/

namespace PercolatorVault

open CheckedArithmetic
open FallibleSteps

variable {Pubkey : Type}

/-- No mint disappears and no pool appears. -/
structure Keeps (d : Deployment Pubkey) (before after : Bank Pubkey) :
    Prop where
  clock : after.clock = before.clock
  mints : ∀ key m, d.MintAt before key m → ∃ m', d.MintAt after key m'
  pools : ∀ key pool, d.PoolAt after key pool →
    ∃ pool', d.PoolAt before key pool'

section Keeping

variable {d : Deployment Pubkey} {first before after : Bank Pubkey}

theorem Keeps.refl (d : Deployment Pubkey) (bank : Bank Pubkey) :
    Keeps d bank bank :=
  ⟨rfl, fun _ m hm => ⟨m, hm⟩, fun _ pool hpool => ⟨pool, hpool⟩⟩

theorem Keeps.trans (hleft : Keeps d first before)
    (hright : Keeps d before after) : Keeps d first after where
  clock := hright.clock.trans hleft.clock
  mints key m hm := by
    obtain ⟨m', hm'⟩ := hleft.mints key m hm
    exact hright.mints key m' hm'
  pools key pool hpool := by
    obtain ⟨pool', hpool'⟩ := hright.pools key pool hpool
    exact hleft.pools key pool' hpool'

theorem Frame.keeps (h : Frame d before after)
    (hclock : after.clock = before.clock) : Keeps d before after where
  clock := hclock
  mints := h.mints
  pools key pool hpool := by
    exact ⟨pool, hpool.back h⟩

/-- Rewriting a pool record creates no pool. -/
theorem Stored.keeps_of_pool {target : Pubkey} {pool : StakePool Pubkey}
    {data : AccountData Pubkey} (h : Stored d before after target data)
    (hdata : (before.accounts target).data = .stakePool pool) :
    Keeps d before after where
  clock := h.clock
  mints _ m hm := ⟨m, h.mintAt hm⟩
  pools key other hother := by
    by_cases heq : key = target
    · subst heq
      exact ⟨pool, h.owner.symm.trans hother.1, hdata⟩
    · exact ⟨other, (h.poolAt_iff heq).mp hother⟩

theorem Stored.keeps_of_deposit {target : Pubkey}
    {deposit : StakeDeposit Pubkey}
    (h : Stored d before after target (.stakeDeposit deposit)) :
    Keeps d before after where
  clock := h.clock
  mints _ m hm := ⟨m, h.mintAt hm⟩
  pools _ other hother :=
    ⟨other, (h.poolAt_iff (h.ne_of_poolAt hother)).mp hother⟩

/-- A signer other than the program is no vault authority. -/
theorem SignedByOthers.ne_vaultAuthority
    {accounts : List (AccountInfo Pubkey)} (h : SignedByOthers d accounts)
    {info : AccountInfo Pubkey}
    (hmem : info ∈ accounts) (hsigner : info.isSigner = true) (key : Pubkey) :
    info.key ≠ (d.deriveVaultAuthority key).1 := by
  intro heq
  apply h info hmem hsigner
  rw [heq]
  exact d.deriveVaultAuthority_isProgramAddress key

end Keeping

section Naming

variable [DecidableEq Pubkey] {d : Deployment Pubkey}
  {before after : Bank Pubkey} {accounts : List (AccountInfo Pubkey)}
  {call : StakeInstruction Pubkey}

/-- The event of an instruction for the pool it names. -/
theorem seenBy_same {user pool : AccountInfo Pubkey}
    {rest : List (AccountInfo Pubkey)}
    (haccounts : accounts = user :: pool :: rest) :
    (Event.instruction accounts call).seenBy pool.key =
      call.poolEvent user.key := by
  subst haccounts
  simp [Event.seenBy]

theorem seenBy_other {user pool : AccountInfo Pubkey}
    {rest : List (AccountInfo Pubkey)} {key : Pubkey}
    (haccounts : accounts = user :: pool :: rest) (hne : key ≠ pool.key) :
    (Event.instruction accounts call).seenBy key = .idle := by
  subst haccounts
  simp [Event.seenBy, Ne.symm hne]

/-- Rewriting the pool record at `target`, wherever that is, keeps the bank
sound. -/
theorem Sound.updatedPool {target : Pubkey} {pool pool' : StakePool Pubkey}
    (h : Sound d before)
    (hdata : (before.accounts target).data = .stakePool pool)
    (hstored : Stored d before after target (.stakePool pool'))
    (hsame : pool.SameAccounts pool') : Sound d after := by
  rcases hstored.owned with rfl | howned
  · exact h
  · obtain ⟨view, rfl, hview⟩ := h.pools target pool ⟨howned, hdata⟩
    refine h.storedPool hstored ?_ ⟨_, rfl, hview.storedPool hstored hsame⟩
    simp [recordIn, hdata]

/-- Seen from another pool nothing happened. -/
theorem Shows.updatedOtherPool {target key : Pubkey}
    {pool pool' : StakePool Pubkey} {view : PoolView Pubkey}
    (h : Shows d before key view)
    (hdata : (before.accounts target).data = .stakePool pool)
    (hstored : Stored d before after target (.stakePool pool'))
    (hne : key ≠ target) : Shows d after key view := by
  apply h.storedOtherPool hstored hne
  simp [recordIn, hdata]

/-- A wrapper call that is neither a top-up nor a withdrawal. -/
theorem onlyForeignChanged_of_wrapper {rt : Runtime Pubkey}
    {percolatorProgram : Pubkey}
    {metas : List (AccountMeta Pubkey)} {tag : U8} {data : List U8}
    {signers : List (List (Seed Pubkey))}
    (htop : tag ≠ tagTopUpInsurance) (hwithdraw : tag ≠ tagWithdrawInsurance)
    (h : rt.invokeSigned (.wrapper percolatorProgram metas (tag :: data))
      signers before = .ok after) :
    OnlyForeignChanged rt.toDeployment before after := by
  have heffect : WrapperEffect rt.toDeployment before after metas
      (tag :: data) := rt.invokeSigned_effect h
  unfold WrapperEffect at heffect
  rw [if_neg (by simpa using htop), if_neg (by simpa using hwithdraw)]
    at heffect
  exact heffect

end Naming

section Loading

variable [Inhabited Pubkey] {bank : Bank Pubkey} {info : AccountInfo Pubkey}

theorem loadPool_of_poolAt {d : Deployment Pubkey} {pool : StakePool Pubkey}
    (h : d.PoolAt bank info.key pool) : loadPool bank info = .ok pool := by
  simp only [loadPool, h.2]

/-- A loaded pool that is initialised was not read from zero bytes. -/
theorem data_of_loadPool {pool : StakePool Pubkey}
    (h : loadPool bank info = .ok pool) (hinit : pool.isInitialized = 1) :
    (bank.accounts info.key).data = .stakePool pool := by
  unfold loadPool at h
  split at h
  · next other hdata =>
      cases h
      exact hdata
  · split at h
    · cases h
      exact absurd hinit (by decide : (0 : U8) ≠ 1)
    · cases h
  · cases h

theorem data_of_loadDeposit {deposit : StakeDeposit Pubkey}
    (h : loadDeposit bank info = .ok deposit)
    (hinit : deposit.isInitialized = 1) :
    (bank.accounts info.key).data = .stakeDeposit deposit := by
  unfold loadDeposit at h
  split at h
  · next other hdata =>
      cases h
      exact hdata
  · split at h
    · cases h
      exact absurd hinit (by decide : (0 : U8) ≠ 1)
    · cases h
  · cases h

/-- What is read from a deposit account of the program. -/
theorem loadDeposit_eq [DecidableEq Pubkey] {d : Deployment Pubkey}
    {deposit : StakeDeposit Pubkey}
    (howned : (bank.accounts info.key).owner = d.programId)
    (h : loadDeposit bank info = .ok deposit) :
    deposit =
      (recordIn d (bank.accounts info.key)).getD StakeDeposit.zeroed := by
  unfold loadDeposit at h
  unfold recordIn
  rw [if_pos howned]
  split at h
  · next other hdata =>
      cases h
      rw [hdata]
      rfl
  · next length hdata =>
      rw [hdata]
      split at h
      · cases h
        rfl
      · cases h
  · cases h

end Loading

section Simulating

variable [DecidableEq Pubkey] [Inhabited Pubkey]

structure Simulates (d : Deployment Pubkey) (before : Bank Pubkey)
    (event : Event Pubkey) (after : Bank Pubkey) : Prop where
  sound : Sound d after
  mints : ∀ key m, d.MintAt before key m → ∃ m', d.MintAt after key m'
  steps : ∀ key view, Shows d before key view → ∃ middle view',
    PoolStep d key before.clock (event.seenBy key) view middle ∧
      Drift (event.lpBurned view.pool.lpMint) middle view' ∧
      Shows d after key view' ∧
      ((event.seenBy key).Exact → view' = middle)
  created : ∀ key view, Shows d after key view →
    (∃ view', Shows d before key view') ∨
      view.Fresh ∧ ∀ m, ¬ d.MintAt before view.pool.lpMint m
  burnedMint : ∀ mint, event.lpBurned mint ≠ 0 → ∃ m, d.MintAt before mint m

variable {d : Deployment Pubkey} {before after : Bank Pubkey}
  {accounts : List (AccountInfo Pubkey)} {call : StakeInstruction Pubkey}

/-- An instruction that keeps mints and creates no pool simulates its event as
soon as every pool makes its step. -/
theorem Keeps.simulates (hkeeps : Keeps d before after)
    (hbefore : Sound d before) (hsound : Sound d after)
    (hsteps : ∀ key view, Shows d before key view → ∃ middle view',
      PoolStep d key before.clock
          ((Event.instruction accounts call).seenBy key) view middle ∧
        Drift 0 middle view' ∧ Shows d after key view' ∧
        (((Event.instruction accounts call).seenBy key).Exact →
          view' = middle)) :
    Simulates d before (.instruction accounts call) after where
  sound := hsound
  mints := hkeeps.mints
  steps := hsteps
  created key view hview := by
    obtain ⟨pool, hpool⟩ := hkeeps.pools key _ hview.pool
    obtain ⟨view', -, hshows⟩ := hbefore.pools key pool hpool
    exact Or.inl ⟨view', hshows⟩
  burnedMint _ h := absurd rfl h

end Simulating

end PercolatorVault
