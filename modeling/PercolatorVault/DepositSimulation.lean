import PercolatorVault.Simulation

/-!
# Deposit

A successful deposit, followed call by call from the bank before to the bank
after: collateral moves into the vault, LP is minted to the user, and the pool
and the user's record are rewritten.
-/

namespace PercolatorVault

open CheckedArithmetic
open FallibleSteps

variable {Pubkey : Type} {before after : Bank Pubkey}
  {accounts : List (AccountInfo Pubkey)}

theorem DepositAccounts.next_eq_ok {a : DepositAccounts Pubkey}
    (h : DepositAccounts.next accounts = .ok a) :
    ∃ rest, accounts = a.user :: a.poolPda :: rest := by
  unfold DepositAccounts.next at h
  split at h
  · cases h
    exact ⟨_, rfl⟩
  · cases h

theorem StakePool.recordDeposit_sameAccounts {pool pool' : StakePool Pubkey}
    {amount lp : U64} {clock : Clock}
    (h : pool.recordDeposit amount lp clock = .ok pool') :
    pool.SameAccounts pool' ∧ pool'.cooldownSlots = pool.cooldownSlots := by
  obtain ⟨_, _, _, _, _, rfl, _⟩ := StakePool.recordDeposit_eq_ok h
  exact ⟨⟨rfl, rfl, rfl, rfl⟩, rfl⟩

variable [DecidableEq Pubkey] {rt : Runtime Pubkey}

/-- The depositor's record is at its derived address and belongs to the
program; if it had to be created, nothing else changed. -/
theorem ensureDepositRecord_eq_ok {a : DepositAccounts Pubkey}
    (h : ensureDepositRecord rt a before = .ok after) :
    a.depositPda.key = (rt.deriveDepositPda a.poolPda.key a.user.key).1 ∧
      (after.accounts a.depositPda.key).owner = rt.programId ∧
      (after = before ∨
        Allocated rt.toDeployment before after a.depositPda.key rt.programId
          stakeDepositSize) := by
  simp only [ensureDepositRecord, bind_eq_ok, require_eq_ok,
    exists_const] at h
  obtain ⟨hkey, howned, hcreate⟩ := h
  refine ⟨hkey, ?_⟩
  split at hcreate
  · have halloc := createOrAdoptPda_allocated (by decide) hcreate
    exact ⟨halloc.owned, Or.inr halloc⟩
  · next hdata =>
      cases hcreate
      exact ⟨howned.resolve_left hdata, Or.inl rfl⟩

variable [Inhabited Pubkey]

/-- Everything a successful deposit did, in order. -/
structure DepositTrace (rt : Runtime Pubkey)
    (accounts : List (AccountInfo Pubkey)) (amount : U64)
    (before after : Bank Pubkey) where
  a : DepositAccounts Pubkey
  pool : StakePool Pubkey
  pool' : StakePool Pubkey
  lp : U64
  record : StakeDeposit Pubkey
  record' : StakeDeposit Pubkey
  paid : Bank Pubkey
  minted : Bank Pubkey
  ensured : Bank Pubkey
  recorded : Bank Pubkey
  hnext : DepositAccounts.next accounts = .ok a
  haccounts : ∃ rest, accounts = a.user :: a.poolPda :: rest
  hamount : amount ≠ 0
  hsigner : a.user.isSigner = true
  hdata : (before.accounts a.poolPda.key).data = .stakePool pool
  hlpMint : pool.lpMint = a.lpMint.key
  hvault : pool.vault = a.vault.key
  htransferred : pool.adminTransferred = 1
  hopen : pool.isResolved = false
  hvaultAuth : a.vaultAuth.key = (rt.deriveVaultAuthority a.poolPda.key).1
  hcap : checkDepositCap pool amount = .ok ()
  hlp : pool.calcLpForDeposit amount = some lp
  hminted : lp ≠ 0
  hpaid : TokensMoved rt.toDeployment before paid a.userAta.key a.vault.key
    a.user.key amount.toNat
  hmint : TokensMinted rt.toDeployment paid minted a.lpMint.key
    a.userLpAta.key a.vaultAuth.key lp.toNat
  hpool : pool.recordDeposit amount lp before.clock = .ok pool'
  hpda : a.depositPda.key =
    (rt.deriveDepositPda a.poolPda.key a.user.key).1
  howned : (ensured.accounts a.depositPda.key).owner = rt.programId
  hensured : ensured = minted ∨
    Allocated rt.toDeployment minted ensured a.depositPda.key rt.programId
      stakeDepositSize
  hload : loadDeposit ensured a.depositPda = .ok record
  hcredit : (record.bind (rt.deriveDepositPda a.poolPda.key a.user.key).2
    a.poolPda.key a.user.key).creditLp lp before.clock.slot
      pool.cooldownSlots = .ok record'
  hrecorded : Stored rt.toDeployment ensured recorded a.poolPda.key
    (.stakePool pool')
  hafter : Stored rt.toDeployment recorded after a.depositPda.key
    (.stakeDeposit record')

theorem processDeposit_trace {amount : U64}
    (h : processDeposit rt accounts amount before = .ok after) :
    Nonempty (DepositTrace rt accounts amount before after) := by
  simp only [processDeposit, verifyTokenProgram, Clock.fromAccountInfo,
    bind_eq_ok, require_eq_ok, okOr_eq_ok, exists_const, Except.ok.injEq] at h
  obtain ⟨hamount, a, ha, hsigner, pool, hload, hinit, -, hlpMint, hvault,
    htransferred, hopen, hvaultAuth, _, hcap, -, lp, hlp, hminted, paid,
    hpaid, minted, hmint, clock, ⟨-, hclock⟩, pool', hpool, ensured, hensure,
    record, hrecord, record', hcredit, recorded, hrecorded, hafter⟩ := h
  have hmoved := rt.invokeSigned_effect hpaid
  have hmintTo := rt.invokeSigned_effect hmint
  have hclockBefore : clock = before.clock := by
    rw [← hclock, hmintTo.clock, hmoved.clock]
  subst hclockBefore
  obtain ⟨hpda, howned, hensured⟩ := ensureDepositRecord_eq_ok hensure
  rw [(StakePool.recordDeposit_sameAccounts hpool).2] at hcredit
  exact ⟨⟨a, pool, pool', lp, record, record', paid, minted, ensured,
    recorded, ha, DepositAccounts.next_eq_ok ha, hamount, hsigner,
    data_of_loadPool hload hinit, hlpMint, hvault, htransferred, hopen,
    hvaultAuth, hcap, hlp, hminted, hmoved, hmintTo, hpool, hpda, howned,
    hensured, hrecord, hcredit, storeData_stored hrecorded,
    storeData_stored hafter⟩⟩

namespace DepositTrace

variable {amount : U64}

theorem user_ne (t : DepositTrace rt accounts amount before after)
    (hsigned : SignedByOthers rt.toDeployment accounts) (key : Pubkey) :
    t.a.user.key ≠ (rt.deriveVaultAuthority key).1 := by
  obtain ⟨rest, haccounts⟩ := t.haccounts
  exact hsigned.ne_vaultAuthority (by simp [haccounts]) t.hsigner key

/-- Up to the creation of the deposit record, an account without token data
was not touched. -/
theorem minted_eq (t : DepositTrace rt accounts amount before after)
    (key : Pubkey) (htoken : ∀ s, ¬ rt.TokenAt t.minted key s)
    (hmint : ∀ m, ¬ rt.MintAt t.minted key m) :
    t.minted.accounts key = before.accounts key := by
  have hsame := t.hmint.accounts_eq htoken hmint
  rw [hsame]
  apply t.hpaid.accounts_eq
  intro s hs
  apply htoken s
  unfold Deployment.TokenAt
  rw [hsame]
  exact hs

/-- The pool that took the deposit is a pool of the program: another account
could not have been rewritten. -/
theorem poolAt (t : DepositTrace rt accounts amount before after) :
    rt.PoolAt before t.a.poolPda.key t.pool := by
  refine ⟨?_, t.hdata⟩
  rcases t.hrecorded.owned with hsame | howned
  · have hdata := t.hrecorded.data
    rw [hsame] at hdata
    have hminted : t.minted.accounts t.a.poolPda.key =
        t.ensured.accounts t.a.poolPda.key ∨
        (t.minted.accounts t.a.poolPda.key).data = .stakePool t.pool' := by
      rcases t.hensured with heq | halloc
      · exact Or.inl (by rw [heq])
      · refine Or.inr ?_
        have hne : t.a.poolPda.key ≠ t.a.depositPda.key := by
          intro heq
          rw [heq, halloc.zeroed] at hdata
          cases hdata
        rw [← (halloc.others _ hne).2, hdata]
    have hmintedData :
        (t.minted.accounts t.a.poolPda.key).data = .stakePool t.pool' := by
      rcases hminted with heq | h
      · rw [heq, hdata]
      · exact h
    have hbefore := t.minted_eq t.a.poolPda.key
      (fun s hs => by
        have h := hmintedData.symm.trans hs.2
        cases h)
      (fun m hm => by
        have h := hmintedData.symm.trans hm.2
        cases h)
    rw [hbefore, t.hdata] at hmintedData
    injection hmintedData with hpool
    obtain ⟨total, _, _, htotal, _, hpool', _⟩ :=
      StakePool.recordDeposit_eq_ok t.hpool
    rw [← hpool] at hpool'
    have hsameTotal : t.pool.totalDeposited = total :=
      congrArg StakePool.totalDeposited hpool'
    have hpos := toNat_pos.mpr t.hamount
    rw [hsameTotal] at htotal
    omega
  · have hminted :
        (t.minted.accounts t.a.poolPda.key).owner = rt.programId ∨
        (t.minted.accounts t.a.poolPda.key).owner = rt.systemProgramId ∧
          (t.minted.accounts t.a.poolPda.key).data = .zeroed 0 := by
      rcases t.hensured with heq | halloc
      · exact Or.inl (by rw [← heq, howned])
      · by_cases heq : t.a.poolPda.key = t.a.depositPda.key
        · rw [heq]
          exact Or.inr ⟨halloc.system, halloc.empty⟩
        · exact Or.inl ((halloc.others _ heq).1.symm.trans howned)
    have hforeign :
        (t.minted.accounts t.a.poolPda.key).owner ≠ rt.splTokenId := by
      rcases hminted with h | ⟨h, _⟩
      · exact h ▸ rt.splTokenId_ne_programId.symm
      · exact h ▸ rt.systemProgramId_ne_splTokenId
    have hbefore := t.minted_eq t.a.poolPda.key
      (fun s hs => hforeign hs.1) (fun m hm => hforeign hm.1)
    rw [hbefore] at hminted
    rcases hminted with h | ⟨_, hzero⟩
    · exact h
    · rw [t.hdata] at hzero
      cases hzero

/-- A degenerate pool, whose collateral is its own LP token, takes no
deposits: nobody holds any. -/
theorem live (t : DepositTrace rt accounts amount before after)
    {view : PoolView Pubkey}
    (hview : Shows rt.toDeployment before t.a.poolPda.key view) :
    view.pool.collateralMint ≠ view.pool.lpMint := by
  intro hdegenerate
  have hpool := hview.pool.unique t.poolAt
  obtain ⟨s, s', r, r', hs, hs', hr, hr', hsame, hrsame, hmints, hauth, hle,
    -, -⟩ := t.hpaid.moved
  have hvault := hview.vault
  rw [hpool, t.hvault] at hvault
  have hcollateral : s.mint = view.pool.lpMint := by
    rw [hmints, congrArg TokenAccount.mint (hr.unique hvault), ← hpool,
      hdegenerate]
  have hzero := hview.unheld hdegenerate _ s hs hcollateral
  have hpos := toNat_pos.mpr t.hamount
  omega

/-- Only the pool that took the deposit had LP minted. -/
theorem lpMint_ne (t : DepositTrace rt accounts amount before after)
    {key : Pubkey} {view view' : PoolView Pubkey}
    (hview : Shows rt.toDeployment before t.a.poolPda.key view)
    (hother : Shows rt.toDeployment before key view')
    (hne : key ≠ t.a.poolPda.key) : t.a.lpMint.key ≠ view'.pool.lpMint := by
  intro heq
  apply hne
  apply hother.eq_of_lpMint_eq hview
  rw [← heq, ← t.hlpMint, hview.pool.unique t.poolAt]

/-- The calls before the writes, as one frame. -/
theorem ensured_frame (t : DepositTrace rt accounts amount before after) :
    Frame rt.toDeployment before t.ensured := by
  have hminted := t.hpaid.bankFrame.trans t.hmint.bankFrame
  rcases t.hensured with heq | halloc
  · rw [heq]
    exact hminted
  · exact hminted.trans halloc.bankFrame

theorem ensured_clock (t : DepositTrace rt accounts amount before after) :
    t.ensured.clock = before.clock := by
  rw [← t.hpaid.clock, ← t.hmint.clock]
  rcases t.hensured with heq | halloc
  · rw [heq]
  · exact halloc.clock

/-- The calls left the pool record as it was. -/
theorem poolAt_ensured (t : DepositTrace rt accounts amount before after) :
    rt.PoolAt t.ensured t.a.poolPda.key t.pool :=
  t.poolAt.of_frame t.ensured_frame

theorem sound (t : DepositTrace rt accounts amount before after)
    (hbefore : Sound rt.toDeployment before) :
    Sound rt.toDeployment after := by
  obtain ⟨view, hpool, hview⟩ := hbefore.pools _ _ t.poolAt
  have hminted : Sound rt.toDeployment t.minted := by
    apply (hbefore.tokensMoved t.hpaid).tokensMinted t.hmint
    intro key other hother hdegenerate
    obtain ⟨view', hpool', hview'⟩ :=
      hbefore.pools key other.pool (hother.pool.back t.hpaid.bankFrame)
    rw [← hpool'] at hdegenerate ⊢
    by_cases heq : key = t.a.poolPda.key
    · subst heq
      exact absurd hdegenerate (t.live hview')
    · exact t.lpMint_ne hview hview' heq
  have hensured : Sound rt.toDeployment t.ensured := by
    rcases t.hensured with heq | halloc
    · rw [heq]
      exact hminted
    · exact hminted.allocated halloc
  have hpoolEnsured := t.poolAt_ensured
  have hsame := (StakePool.recordDeposit_sameAccounts t.hpool).1
  have hrecorded := hensured.updatedPool hpoolEnsured.2 t.hrecorded hsame
  have hkey : t.record'.pool = t.a.poolPda.key ∧
      t.record'.user = t.a.user.key := by
    have hcredit := t.hcredit
    simp only [StakeDeposit.creditLp, bind_eq_ok, Except.ok.injEq] at hcredit
    obtain ⟨_, -, heq⟩ := hcredit
    rw [← heq]
    exact ⟨rfl, rfl⟩
  have hafter := t.hafter
  rw [t.hpda, ← hkey.1, ← hkey.2] at hafter
  apply hrecorded.storedDeposit hafter
  · rw [hkey.1, hkey.2, ← t.hpda, t.hrecorded.owner_eq]
    exact t.howned
  · rw [hkey.1]
    exact ⟨t.pool', t.hrecorded.owner.trans hpoolEnsured.1, t.hrecorded.data⟩

theorem keeps (t : DepositTrace rt accounts amount before after) :
    Keeps rt.toDeployment before after := by
  have hensured := t.ensured_frame.keeps t.ensured_clock
  have hrecorded : Keeps rt.toDeployment before t.recorded := by
    refine ⟨t.hrecorded.clock.trans hensured.clock, ?_, ?_⟩
    · intro key m hm
      obtain ⟨m', hm'⟩ := hensured.mints key m hm
      exact ⟨m', t.hrecorded.mintAt hm'⟩
    · intro key pool hpool
      by_cases heq : key = t.a.poolPda.key
      · subst heq
        exact ⟨t.pool, t.poolAt⟩
      · exact hensured.pools key pool ((t.hrecorded.poolAt_iff heq).mp hpool)
  exact hrecorded.trans t.hafter.keeps_of_deposit

/-- The pool that took the deposit makes a deposit step. -/
theorem step (t : DepositTrace rt accounts amount before after)
    (hsigned : SignedByOthers rt.toDeployment accounts)
    {view : PoolView Pubkey}
    (hview : Shows rt.toDeployment before t.a.poolPda.key view) :
    ∃ view', PoolStep rt.toDeployment t.a.poolPda.key before.clock
        (.deposit t.a.user.key amount) view view' ∧
      Shows rt.toDeployment after t.a.poolPda.key view' := by
  have hpool := hview.pool.unique t.poolAt
  have hlive := t.live hview
  obtain ⟨hauth, w, hw, hpaid⟩ := hview.tokensMoved t.hpaid
  have hsource : t.a.userAta.key ≠ view.pool.vault := fun heq =>
    t.user_ne hsigned _ (hauth heq)
  have hdestination : t.a.vault.key = view.pool.vault := by
    rw [hpool, t.hvault]
  rw [if_neg hsource, if_pos hdestination] at hw
  obtain ⟨-, haccount, w', supply, hw', hsupply, hminted⟩ :=
    hpaid.tokensMinted t.hmint (fun hdegenerate => absurd hdegenerate hlive)
  have hmint : t.a.lpMint.key = view.pool.lpMint := by
    rw [hpool, t.hlpMint]
  have hholder : t.a.userLpAta.key ≠ view.pool.vault := fun heq =>
    hlive ((haccount heq).symm.trans hmint)
  dsimp only at hw' hsupply
  rw [if_neg hholder] at hw'
  rw [if_pos hmint] at hsupply
  have hensured : Shows rt.toDeployment t.ensured t.a.poolPda.key
      { view with vaultAmount := w', lpMintSupply := supply } := by
    rcases t.hensured with heq | halloc
    · rw [heq]
      exact hminted
    · exact hminted.allocated halloc
  have hrecord : t.record =
      (view.records t.a.user.key).getD StakeDeposit.zeroed := by
    rw [hensured.records t.a.user.key, ← t.hpda]
    exact loadDeposit_eq t.howned t.hload
  have hrecorded := hensured.storedPool t.hrecorded (by
    dsimp only
    rw [hpool]
    exact (StakePool.recordDeposit_sameAccounts t.hpool).1)
  have hafter := t.hafter
  rw [t.hpda] at hafter
  have hshows := hrecorded.storedDeposit hafter (by
    rw [← t.hpda, t.hrecorded.owner_eq]
    exact t.howned)
  refine ⟨_, ?_, hshows⟩
  refine PoolStep.deposit t.hamount ?_ ?_ ?_ ?_ t.hminted ?_ ?_ ?_ ?_
  · rw [hpool]
    exact t.htransferred
  · rw [hpool]
    exact t.hopen
  · rw [hpool]
    exact t.hcap
  · rw [hpool]
    exact t.hlp
  · rw [hpool]
    exact t.hpool
  · rw [hpool, ← hrecord]
    exact t.hcredit
  · dsimp only
    omega
  · dsimp only
    omega

/-- Another pool at most receives tokens. -/
theorem drift (t : DepositTrace rt accounts amount before after)
    (hsigned : SignedByOthers rt.toDeployment accounts)
    (hbefore : Sound rt.toDeployment before) {key : Pubkey}
    {view : PoolView Pubkey} (hview : Shows rt.toDeployment before key view)
    (hne : key ≠ t.a.poolPda.key) :
    ∃ view', Drift 0 view view' ∧ Shows rt.toDeployment after key view' := by
  obtain ⟨own, -, hown⟩ := hbefore.pools _ _ t.poolAt
  obtain ⟨paidView, hpaidDrift, hpaid⟩ :=
    hview.drift_of_tokensMoved t.hpaid (t.user_ne hsigned key)
  have hmint : t.a.lpMint.key ≠ paidView.pool.lpMint := by
    rw [hpaidDrift.pool]
    exact t.lpMint_ne hown hview hne
  obtain ⟨view', hdrift, hminted⟩ :=
    hpaid.drift_of_tokensMinted t.hmint hmint
  have hensured : Shows rt.toDeployment t.ensured key view' := by
    rcases t.hensured with heq | halloc
    · rw [heq]
      exact hminted
    · exact hminted.allocated halloc
  have hrecorded := hensured.updatedOtherPool t.poolAt_ensured.2 t.hrecorded hne
  have hafter := t.hafter
  rw [t.hpda] at hafter
  exact ⟨view', by simpa using hpaidDrift.trans hdrift,
    hrecorded.storedOtherDeposit hafter hne⟩

end DepositTrace

theorem processDeposit_simulates {amount : U64}
    (hbefore : Sound rt.toDeployment before)
    (hsigned : SignedByOthers rt.toDeployment accounts)
    (h : processDeposit rt accounts amount before = .ok after) :
    Simulates rt.toDeployment before
      (.instruction accounts (.deposit amount)) after := by
  obtain ⟨t⟩ := processDeposit_trace h
  obtain ⟨rest, haccounts⟩ := t.haccounts
  apply t.keeps.simulates hbefore (t.sound hbefore)
  intro key view hview
  by_cases heq : key = t.a.poolPda.key
  · subst heq
    obtain ⟨view', hstep, hshows⟩ := t.step hsigned hview
    rw [seenBy_same haccounts]
    exact ⟨view', view', hstep, Drift.refl view', hshows, fun _ => rfl⟩
  · obtain ⟨view', hdrift, hshows⟩ := t.drift hsigned hbefore hview heq
    rw [seenBy_other haccounts heq]
    exact ⟨view, view', .idle view, hdrift, hshows, False.elim⟩

end PercolatorVault
