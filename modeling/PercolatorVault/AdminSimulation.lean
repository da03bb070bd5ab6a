import PercolatorVault.Simulation

/-!
# Flush, return, crank and administration

The remaining instructions that touch a pool record.  Each of them calls the
wrapper at most once and then rewrites the record; whatever the wrapper did
in between, a record that does not belong to the program could only be
written back unchanged.
-/

namespace PercolatorVault

open CheckedArithmetic
open FallibleSteps
open LittleEndian

variable {Pubkey : Type}

theorem OnlyForeignChanged.refl (d : Deployment Pubkey)
    (bank : Bank Pubkey) : OnlyForeignChanged d bank bank :=
  ⟨rfl, fun _ _ => rfl⟩

theorem leValue_pushU128FromU64 (amount : U64) :
    leValue (pushU128FromU64 amount) = amount.toNat := by
  have hamount := amount.isLt
  unfold pushU128FromU64
  rw [leValue_leBytes, toNat_asU128, Nat.mod_eq_of_lt (by omega)]

theorem AdminPoolAccounts.next_eq_ok {a : AdminPoolAccounts Pubkey}
    {accounts : List (AccountInfo Pubkey)}
    (h : AdminPoolAccounts.next accounts = .ok a) :
    ∃ rest, accounts = a.admin :: a.poolPda :: rest := by
  unfold AdminPoolAccounts.next at h
  split at h
  · cases h
    exact ⟨_, rfl⟩
  · cases h

theorem WrapperAdminAccounts.next_eq_ok {a : WrapperAdminAccounts Pubkey}
    {accounts : List (AccountInfo Pubkey)}
    (h : WrapperAdminAccounts.next accounts = .ok a) :
    ∃ rest, accounts = a.admin :: a.poolPda :: rest := by
  unfold WrapperAdminAccounts.next at h
  split at h
  · cases h
    exact ⟨_, rfl⟩
  · cases h

theorem FlushAccounts.next_eq_ok {a : FlushAccounts Pubkey}
    {accounts : List (AccountInfo Pubkey)}
    (h : FlushAccounts.next accounts = .ok a) :
    ∃ rest, accounts = a.caller :: a.poolPda :: rest := by
  unfold FlushAccounts.next at h
  split at h
  · cases h
    exact ⟨_, rfl⟩
  · cases h

theorem WithdrawInsuranceAccounts.next_eq_ok
    {a : WithdrawInsuranceAccounts Pubkey}
    {accounts : List (AccountInfo Pubkey)}
    (h : WithdrawInsuranceAccounts.next accounts = .ok a) :
    ∃ rest, accounts = a.admin :: a.poolPda :: rest := by
  unfold WithdrawInsuranceAccounts.next at h
  split at h
  · cases h
    exact ⟨_, rfl⟩
  · cases h

theorem AccrueAccounts.next_eq_ok {a : AccrueAccounts Pubkey}
    {accounts : List (AccountInfo Pubkey)}
    (h : AccrueAccounts.next accounts = .ok a) :
    ∃ rest, accounts = a.pool :: rest := by
  unfold AccrueAccounts.next at h
  split at h
  · cases h
    exact ⟨_, rfl⟩
  · cases h

/-! ## The shape shared by these handlers -/

variable {d : Deployment Pubkey} {before moved middle after : Bank Pubkey}

/-- A record that is rewritten in the end belonged to the program from the
start, or nothing was written. -/
theorem Stored.poolAt_or_eq {target : Pubkey} {pool : StakePool Pubkey}
    {data : AccountData Pubkey}
    (hdata : (before.accounts target).data = .stakePool pool)
    (hback : (middle.accounts target).owner = d.programId →
      middle.accounts target = before.accounts target)
    (hstored : Stored d middle after target data) :
    d.PoolAt before target pool ∧ d.PoolAt middle target pool ∨
      after = middle := by
  rcases hstored.owned with hsame | howned
  · exact Or.inr hsame
  · have heq := hback howned
    refine Or.inl ⟨⟨?_, hdata⟩, howned, ?_⟩
    · rw [← heq, howned]
    · rw [heq, hdata]

section Updating

variable [DecidableEq Pubkey] [Inhabited Pubkey] {rt : Runtime Pubkey}
  {accounts rest : List (AccountInfo Pubkey)}
  {call : StakeInstruction Pubkey} {user info : AccountInfo Pubkey}
  {pool pool' : StakePool Pubkey}

/-- A handler that makes one call and then rewrites the record of the pool it
names. -/
theorem simulates_of_call (hbefore : Sound d before) (hmiddle : Sound d middle)
    (hframe : Frame d before middle) (hclock : middle.clock = before.clock)
    (hback : (middle.accounts info.key).owner = d.programId →
      middle.accounts info.key = before.accounts info.key)
    (haccounts : accounts = user :: info :: rest)
    (hdata : (before.accounts info.key).data = .stakePool pool)
    (hstored : Stored d middle after info.key (.stakePool pool'))
    (hothers : ∀ key view, key ≠ info.key → Shows d before key view →
      ∃ view', Drift 0 view view' ∧ Shows d middle key view')
    (hown : ∀ view, view.pool = pool → Shows d before info.key view →
      d.PoolAt middle info.key pool →
        pool.SameAccounts pool' ∧ ∃ view', view'.pool = pool ∧
          Shows d middle info.key view' ∧
          PoolStep d info.key before.clock (call.poolEvent user.key) view
            { view' with pool := pool' }) :
    Simulates d before (.instruction accounts call) after := by
  have hkeeps := hframe.keeps hclock
  by_cases hpool : d.PoolAt before info.key pool
  · have hpoolMiddle := hpool.of_frame hframe
    obtain ⟨own, hownPool, hownShows⟩ := hbefore.pools _ _ hpool
    have hsame := (hown own hownPool hownShows hpoolMiddle).1
    apply (hkeeps.trans (hstored.keeps_of_pool hpoolMiddle.2)).simulates
      hbefore (hmiddle.updatedPool hpoolMiddle.2 hstored hsame)
    intro key view hview
    by_cases heq : key = info.key
    · subst heq
      obtain ⟨-, view', hview', hshows, hstep⟩ :=
        hown view (hview.pool.unique hpool) hview hpoolMiddle
      rw [seenBy_same haccounts]
      refine ⟨_, _, hstep, Drift.refl _, ?_, fun _ => rfl⟩
      exact hshows.storedPool hstored (hview' ▸ hsame)
    · obtain ⟨view', hdrift, hshows⟩ := hothers key view heq hview
      rw [seenBy_other haccounts heq]
      exact ⟨view, view', .idle view, hdrift,
        hshows.updatedOtherPool hpoolMiddle.2 hstored heq, False.elim⟩
  · rcases hstored.poolAt_or_eq hdata hback with ⟨h, -⟩ | rfl
    · exact absurd h hpool
    · apply hkeeps.simulates hbefore hmiddle
      intro key view hview
      have hne : key ≠ info.key := by
        rintro rfl
        exact hpool ⟨hview.pool.1, hdata⟩
      obtain ⟨view', hdrift, hshows⟩ := hothers key view hne hview
      rw [seenBy_other haccounts hne]
      exact ⟨view, view', .idle view, hdrift, hshows, False.elim⟩

/-- The call moved no tokens. -/
theorem simulates_of_update (hbefore : Sound d before)
    (haccounts : accounts = user :: info :: rest)
    (hdata : (before.accounts info.key).data = .stakePool pool)
    (hforeign : OnlyForeignChanged d before middle)
    (hstored : Stored d middle after info.key (.stakePool pool'))
    (hupdate : d.PoolAt middle info.key pool →
      pool.SameAccounts pool' ∧
        ∀ view, view.pool = pool → Shows d before info.key view →
          PoolStep d info.key before.clock (call.poolEvent user.key) view
            { view with pool := pool' }) :
    Simulates d before (.instruction accounts call) after := by
  apply simulates_of_call hbefore (hbefore.onlyForeignChanged hforeign)
    hforeign.bankFrame hforeign.clock
    (fun howned => hforeign.frame _ (.inr (.inr (.inl howned)))) haccounts
    hdata hstored
  · intro key view _ hview
    exact ⟨view, Drift.refl view, hview.onlyForeignChanged hforeign⟩
  · intro view hpool hview hmiddle
    obtain ⟨hsame, hstep⟩ := hupdate hmiddle
    exact ⟨hsame, view, hpool, hview.onlyForeignChanged hforeign,
      hstep view hpool hview⟩

/-- The call moved tokens under an authority that is not that of any other
pool. -/
theorem simulates_of_transfer {source destination authority : Pubkey}
    {amount : ℕ} (hbefore : Sound d before)
    (haccounts : accounts = user :: info :: rest)
    (hdata : (before.accounts info.key).data = .stakePool pool)
    (hmoved : TokensMoved d before moved source destination authority amount)
    (hforeign : OnlyForeignChanged d moved middle)
    (hstored : Stored d middle after info.key (.stakePool pool'))
    (hauthority : ∀ key, key ≠ info.key →
      authority ≠ (d.deriveVaultAuthority key).1)
    (hupdate : d.PoolAt middle info.key pool →
      pool.SameAccounts pool' ∧
        ∀ (view : PoolView Pubkey) (vaultAmount : U64), view.pool = pool →
          vaultAmount.toNat + (if source = view.pool.vault then amount else 0) =
            view.vaultAmount.toNat +
              (if destination = view.pool.vault then amount else 0) →
          (source = view.pool.vault →
            authority = (d.deriveVaultAuthority info.key).1) →
          PoolStep d info.key before.clock (call.poolEvent user.key) view
            { view with pool := pool', vaultAmount := vaultAmount }) :
    Simulates d before (.instruction accounts call) after := by
  apply simulates_of_call hbefore
    ((hbefore.tokensMoved hmoved).onlyForeignChanged hforeign)
    (hmoved.bankFrame.trans hforeign.bankFrame)
    (hforeign.clock.trans hmoved.clock) ?_ haccounts hdata hstored
  · intro key view hne hview
    obtain ⟨view', hdrift, hshows⟩ :=
      hview.drift_of_tokensMoved hmoved (hauthority key hne)
    exact ⟨view', hdrift, hshows.onlyForeignChanged hforeign⟩
  · intro view hpool hview hmiddle
    obtain ⟨hsame, hstep⟩ := hupdate hmiddle
    obtain ⟨hsource, w, hw, hshows⟩ := hview.tokensMoved hmoved
    exact ⟨hsame, { view with vaultAmount := w }, hpool,
      hshows.onlyForeignChanged hforeign, hstep view w hpool hw hsource⟩
  · intro howned
    have hsame := hforeign.frame _ (.inr (.inr (.inl howned)))
    rw [hsame] at howned ⊢
    apply hmoved.accounts_eq
    intro t ht
    exact d.splTokenId_ne_programId (ht.1.symm.trans howned)

/-- An instruction that only lets the wrapper run. -/
theorem simulates_of_foreign (hbefore : Sound d before)
    (hforeign : OnlyForeignChanged d before after)
    (hidle : ∀ user : Pubkey, call.poolEvent user = .idle) :
    Simulates d before (.instruction accounts call) after := by
  apply (hforeign.bankFrame.keeps hforeign.clock).simulates hbefore
    (hbefore.onlyForeignChanged hforeign)
  intro key view hview
  have hevent : (Event.instruction accounts call).seenBy key = .idle := by
    unfold Event.seenBy
    split
    · next heq =>
        cases heq
        split
        · exact hidle _
        · rfl
    · rfl
  rw [hevent]
  exact ⟨view, view, .idle view, Drift.refl view,
    hview.onlyForeignChanged hforeign, False.elim⟩

/-! ## Instructions that move no tokens -/

theorem processUpdateConfig_simulates
    {newCooldownSlots newDepositCap : Option U64}
    (hbefore : Sound rt.toDeployment before)
    (h : processUpdateConfig rt accounts newCooldownSlots newDepositCap
      before = .ok after) :
    Simulates rt.toDeployment before
      (.instruction accounts
        (.updateConfig newCooldownSlots newDepositCap)) after := by
  simp only [processUpdateConfig, bind_eq_ok, require_eq_ok,
    exists_const] at h
  obtain ⟨a, ha, -, pool, hload, hinit, -, hstore⟩ := h
  obtain ⟨rest, haccounts⟩ := AdminPoolAccounts.next_eq_ok ha
  apply simulates_of_update hbefore haccounts (data_of_loadPool hload hinit)
    (.refl _ before) (storeData_stored hstore)
  intro _
  refine ⟨⟨rfl, rfl, rfl, rfl⟩, ?_⟩
  rintro view rfl -
  exact .administer (.updateConfig _ _)

theorem processAdminSetHwmConfig_simulates {enabled : Bool}
    {hwmFloorBps : U16} (hbefore : Sound rt.toDeployment before)
    (h : processAdminSetHwmConfig rt accounts enabled hwmFloorBps before =
      .ok after) :
    Simulates rt.toDeployment before
      (.instruction accounts (.adminSetHwmConfig enabled hwmFloorBps))
        after := by
  simp only [processAdminSetHwmConfig, bind_eq_ok, require_eq_ok,
    exists_const] at h
  obtain ⟨a, ha, -, pool, hload, hinit, -, -, configured, hconfig, hstore⟩ := h
  obtain ⟨rest, haccounts⟩ := AdminPoolAccounts.next_eq_ok ha
  have hadmin : Administered pool configured := .setHwmConfig hconfig
  apply simulates_of_update hbefore haccounts (data_of_loadPool hload hinit)
    (.refl _ before) (storeData_stored hstore)
  intro _
  constructor
  · obtain ⟨_, _, _, _, rfl, _⟩ := StakePool.administered_eq hadmin
    exact ⟨rfl, rfl, rfl, rfl⟩
  · rintro view rfl -
    exact .administer hadmin

theorem processTransferAdmin_simulates
    (hbefore : Sound rt.toDeployment before)
    (h : processTransferAdmin rt accounts before = .ok after) :
    Simulates rt.toDeployment before (.instruction accounts .transferAdmin)
      after := by
  simp only [processTransferAdmin, cpiUpdateAuthority, bind_eq_ok,
    require_eq_ok, exists_const] at h
  obtain ⟨a, ha, -, -, pool, hload, hinit, -, -, -, -, middle, hcall, reread,
    hreread, hstore⟩ := h
  obtain ⟨rest, haccounts⟩ := WrapperAdminAccounts.next_eq_ok ha
  apply simulates_of_update hbefore haccounts (data_of_loadPool hload hinit)
    (onlyForeignChanged_of_wrapper (by decide) (by decide) hcall)
    (storeData_stored hstore)
  intro hmiddle
  have hsame := (loadPool_of_poolAt hmiddle).symm.trans hreread
  cases hsame
  refine ⟨⟨rfl, rfl, rfl, rfl⟩, ?_⟩
  rintro view rfl -
  exact .administer .transferAdmin

theorem validateAdminCpi_eq_ok
    {poolPda admin slab percolatorProgram : AccountInfo Pubkey} {bump : U8}
    (h : validateAdminCpi rt before poolPda admin slab percolatorProgram =
      .ok bump) :
    ∃ pool : StakePool Pubkey,
      (before.accounts poolPda.key).data = .stakePool pool ∧
        loadPool before poolPda = .ok pool := by
  simp only [validateAdminCpi, bind_eq_ok, require_eq_ok, exists_const] at h
  obtain ⟨-, pool, hload, hinit, -⟩ := h
  exact ⟨pool, data_of_loadPool hload hinit, hload⟩

theorem processAdminResolveMarket_simulates
    (hbefore : Sound rt.toDeployment before)
    (h : processAdminResolveMarket rt accounts before = .ok after) :
    Simulates rt.toDeployment before
      (.instruction accounts .adminResolveMarket) after := by
  simp only [processAdminResolveMarket, cpiResolveMarket, bind_eq_ok] at h
  obtain ⟨a, ha, bump, hvalid, middle, hcall, reread, hreread, hstore⟩ := h
  obtain ⟨rest, haccounts⟩ := WrapperAdminAccounts.next_eq_ok ha
  obtain ⟨pool, hdata, -⟩ := validateAdminCpi_eq_ok hvalid
  apply simulates_of_update hbefore haccounts hdata
    (onlyForeignChanged_of_wrapper (by decide) (by decide) hcall)
    (storeData_stored hstore)
  intro hmiddle
  have hsame := (loadPool_of_poolAt hmiddle).symm.trans hreread
  cases hsame
  refine ⟨⟨rfl, rfl, rfl, rfl⟩, ?_⟩
  rintro view rfl -
  exact .administer .resolveMarket

/-- A crank lets the pool named second accrue at the balance of its vault. -/
theorem processAccrueFees_eq_ok
    (h : processAccrueFees rt accounts before = .ok after) :
    ∃ caller info rest pool pool' vaultState,
      accounts = caller :: info :: rest ∧
      (before.accounts info.key).data = .stakePool pool ∧
      pool.poolMode = 1 ∧
      (before.accounts pool.vault).data = .tokenAccount vaultState ∧
      pool.accrue vaultState.amount before.clock.slot = .ok pool' ∧
      Stored rt.toDeployment before after info.key (.stakePool pool') := by
  unfold processAccrueFees at h
  split at h
  · cases h
  · next caller tail =>
      simp only [Clock.fromAccountInfo, bind_eq_ok, require_eq_ok,
        exists_const, Except.ok.injEq] at h
      obtain ⟨-, a, ha, pool, hload, hinit, hmode, vaultState, hvaultState,
        hvault, clock, ⟨-, rfl⟩, pool', haccrue, hstore⟩ := h
      obtain ⟨rest, rfl⟩ := AccrueAccounts.next_eq_ok ha
      refine ⟨caller, a.pool, rest, pool, pool', vaultState, rfl,
        data_of_loadPool hload hinit, hmode, ?_, haccrue,
        storeData_stored hstore⟩
      rw [← hvault]
      unfold unpackTokenAccount at hvaultState
      split at hvaultState
      · next hdata =>
          cases hvaultState
          exact hdata
      · cases hvaultState

theorem processAccrueFees_simulates (hbefore : Sound rt.toDeployment before)
    (h : processAccrueFees rt accounts before = .ok after) :
    Simulates rt.toDeployment before (.instruction accounts .accrueFees)
      after := by
  obtain ⟨caller, info, rest, pool, pool', vaultState, rfl, hdata, hmode,
    hvault, haccrue, hstored⟩ := processAccrueFees_eq_ok h
  apply simulates_of_update hbefore rfl hdata (.refl _ before) hstored
  intro _
  constructor
  · rcases StakePool.accrue_eq_ok haccrue with
      ⟨-, _, rfl, -⟩ | ⟨-, _, _, -, -, -, rfl⟩
    · exact ⟨rfl, rfl, rfl, rfl⟩
    · exact ⟨rfl, rfl, rfl, rfl⟩
  · rintro view rfl hview
    apply PoolStep.accrueFees hmode
    cases hview.vault.2.symm.trans hvault
    exact haccrue

/-! ## Flush and return -/

omit [Inhabited Pubkey] in
theorem cpiTopUpInsurance_effect
    {percolatorProgram signer slab signerAta wrapperVault tokenProgram :
      AccountInfo Pubkey} {amount : U64} {seeds : List (Seed Pubkey)}
    (h : cpiTopUpInsurance rt percolatorProgram signer slab signerAta
      wrapperVault tokenProgram amount seeds before = .ok after) :
    signerAta.key ≠ wrapperVault.key ∧ ∃ moved,
      TokensMoved rt.toDeployment before moved signerAta.key wrapperVault.key
        signer.key amount.toNat ∧
      OnlyForeignChanged rt.toDeployment moved after := by
  have heffect : WrapperEffect rt.toDeployment before after _
      (tagTopUpInsurance :: pushU128FromU64 amount) :=
    rt.invokeSigned_effect h
  unfold WrapperEffect at heffect
  rw [if_pos (by simp)] at heffect
  obtain ⟨_, _, _, _, _, moved, hkeys, hne, hmoved, hforeign⟩ := heffect
  simp only [readonlySigner, writableAccount, readonlyAccount, List.map_cons,
    List.map_nil, List.cons.injEq] at hkeys
  obtain ⟨rfl, rfl, rfl, rfl, -⟩ := hkeys
  rw [List.tail_cons, leValue_pushU128FromU64] at hmoved
  exact ⟨hne, moved, hmoved, hforeign⟩

omit [Inhabited Pubkey] in
theorem cpiWithdrawInsurance_effect
    {percolatorProgram authority slab destToken wrapperVault
      wrapperVaultAuthority tokenProgram : AccountInfo Pubkey}
    {amount : U64} {seeds : List (Seed Pubkey)}
    (h : cpiWithdrawInsurance rt percolatorProgram authority slab destToken
      wrapperVault wrapperVaultAuthority tokenProgram amount seeds before =
        .ok after) :
    destToken.key ≠ wrapperVault.key ∧
      ¬ rt.IsProgramAddress wrapperVaultAuthority.key ∧ ∃ moved,
      TokensMoved rt.toDeployment before moved wrapperVault.key destToken.key
        wrapperVaultAuthority.key amount.toNat ∧
      OnlyForeignChanged rt.toDeployment moved after := by
  have heffect : WrapperEffect rt.toDeployment before after _
      (tagWithdrawInsurance :: pushU128FromU64 amount) :=
    rt.invokeSigned_effect h
  unfold WrapperEffect at heffect
  rw [if_neg (by simp; decide), if_pos (by simp)] at heffect
  obtain ⟨_, _, _, _, _, _, moved, hkeys, hne, hauth, hmoved, hforeign⟩ :=
    heffect
  simp only [readonlySigner, writableAccount, readonlyAccount, List.map_cons,
    List.map_nil, List.cons.injEq] at hkeys
  obtain ⟨rfl, rfl, rfl, rfl, rfl, -⟩ := hkeys
  rw [List.tail_cons, leValue_pushU128FromU64] at hmoved
  exact ⟨hne, hauth, moved, hmoved, hforeign⟩

theorem processFlushToInsurance_simulates {amount : U64}
    (hbefore : Sound rt.toDeployment before)
    (h : processFlushToInsurance rt accounts amount before = .ok after) :
    Simulates rt.toDeployment before
      (.instruction accounts (.flushToInsurance amount)) after := by
  simp only [processFlushToInsurance, validateFlushPoolMode,
    verifyTokenProgram, bind_eq_ok, require_eq_ok, okOr_eq_ok,
    exists_const] at h
  obtain ⟨hamount, a, ha, -, pool, hload, hinit, hmode, -, -, hvault, -, -,
    available, hceiling, havailable, hvaultAuth, middle, hcall, totalFlushed,
    htotal, hstore⟩ := h
  obtain ⟨rest, haccounts⟩ := FlushAccounts.next_eq_ok ha
  obtain ⟨hne, moved, hmoved, hforeign⟩ := cpiTopUpInsurance_effect hcall
  apply simulates_of_transfer hbefore haccounts (data_of_loadPool hload hinit)
    hmoved hforeign (storeData_stored hstore)
  · intro key hkey
    rw [hvaultAuth]
    intro heq
    exact hkey (rt.deriveVaultAuthority_injective heq).symm
  · intro _
    refine ⟨⟨rfl, rfl, rfl, rfl⟩, ?_⟩
    rintro view w rfl hw -
    have hdestination : a.wrapperVault.key ≠ view.pool.vault := by
      rw [hvault]
      exact hne.symm
    rw [if_pos hvault.symm, if_neg hdestination] at hw
    exact .flush hamount hmode hceiling havailable htotal hw

theorem processAdminWithdrawInsurance_simulates {amount : U64}
    (hbefore : Sound rt.toDeployment before)
    (h : processAdminWithdrawInsurance rt accounts amount before =
      .ok after) :
    Simulates rt.toDeployment before
      (.instruction accounts (.adminWithdrawInsurance amount)) after := by
  simp only [processAdminWithdrawInsurance, validateWithdrawInsurancePoolMode,
    validateReturnVault, verifyTokenProgram, bind_eq_ok, require_eq_ok,
    okOr_eq_ok, exists_const] at h
  obtain ⟨a, ha, bump, hvalid, pool, hload, hmode, hvault, -, -, middle,
    hcall, reread, hreread, totalReturned, htotal, hstore⟩ := h
  obtain ⟨rest, haccounts⟩ := WithdrawInsuranceAccounts.next_eq_ok ha
  obtain ⟨valid, hdata, hvalidLoad⟩ := validateAdminCpi_eq_ok hvalid
  rw [hload] at hvalidLoad
  cases hvalidLoad
  obtain ⟨hne, hauth, moved, hmoved, hforeign⟩ :=
    cpiWithdrawInsurance_effect hcall
  apply simulates_of_transfer hbefore haccounts hdata hmoved hforeign
    (storeData_stored hstore)
  · rintro key - heq
    apply hauth
    rw [heq]
    exact rt.deriveVaultAuthority_isProgramAddress key
  · intro hmiddle
    have hsame := (loadPool_of_poolAt hmiddle).symm.trans hreread
    cases hsame
    refine ⟨⟨rfl, rfl, rfl, rfl⟩, ?_⟩
    rintro view w rfl hw -
    have hsource : a.wrapperVault.key ≠ view.pool.vault := by
      rw [hvault]
      exact hne.symm
    rw [if_neg hsource, if_pos hvault.symm] at hw
    exact .returnInsurance hmode htotal hw

/-! ## Forwarded instructions -/

theorem processAdminSetOracleAuthority_simulates {newAuthority : Pubkey}
    (hbefore : Sound rt.toDeployment before)
    (h : processAdminSetOracleAuthority rt accounts newAuthority before =
      .ok after) :
    Simulates rt.toDeployment before
      (.instruction accounts (.adminSetOracleAuthority newAuthority))
        after := by
  simp only [processAdminSetOracleAuthority, cpiUpdateAssetAuthority,
    bind_eq_ok, require_eq_ok, exists_const] at h
  obtain ⟨a, -, -, -, bump, -, hcall⟩ := h
  exact simulates_of_foreign hbefore
    (onlyForeignChanged_of_wrapper (by decide) (by decide) hcall)
    (fun _ => rfl)

theorem processAdminSetInsurancePolicy_simulates {authority : Pubkey}
    {minWithdrawBase : U64} {maxWithdrawBps : U16} {cooldownSlots : U64}
    (hbefore : Sound rt.toDeployment before)
    (h : processAdminSetInsurancePolicy rt accounts authority minWithdrawBase
      maxWithdrawBps cooldownSlots before = .ok after) :
    Simulates rt.toDeployment before
      (.instruction accounts
        (.adminSetInsurancePolicy authority minWithdrawBase maxWithdrawBps
          cooldownSlots)) after := by
  simp only [processAdminSetInsurancePolicy, cpiUpdateAssetAuthority,
    bind_eq_ok, require_eq_ok, exists_const] at h
  obtain ⟨a, -, _, -, -, bump, -, hcall⟩ := h
  exact simulates_of_foreign hbefore
    (onlyForeignChanged_of_wrapper (by decide) (by decide) hcall)
    (fun _ => rfl)

/-- The wrapper no longer accepts risk thresholds. -/
theorem processAdminSetRiskThreshold_ne_ok {newThreshold : U128} :
    processAdminSetRiskThreshold rt accounts newThreshold before ≠
      .ok after := by
  intro h
  simp only [processAdminSetRiskThreshold, cpiSetRiskThreshold, bind_eq_ok,
    reduceCtorEq, and_false, exists_false] at h

/-- The wrapper no longer accepts maintenance fees. -/
theorem processAdminSetMaintenanceFee_ne_ok {newFee : U128} :
    processAdminSetMaintenanceFee rt accounts newFee before ≠ .ok after := by
  intro h
  simp only [processAdminSetMaintenanceFee, cpiSetMaintenanceFee, bind_eq_ok,
    reduceCtorEq, and_false, exists_false] at h

end Updating

end PercolatorVault
