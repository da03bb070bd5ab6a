import PercolatorVault.Simulation

/-!
# Withdraw

A successful withdrawal, followed call by call from the bank before to the
bank after: LP is burned, the vault pays the user, and the pool and the user's
record are rewritten.
-/

namespace PercolatorVault

open CheckedArithmetic
open FallibleSteps

variable {Pubkey : Type} {before after : Bank Pubkey}
  {accounts : List (AccountInfo Pubkey)}

theorem WithdrawAccounts.next_eq_ok {a : WithdrawAccounts Pubkey}
    (h : WithdrawAccounts.next accounts = .ok a) :
    ∃ rest, accounts = a.user :: a.poolPda :: rest := by
  unfold WithdrawAccounts.next at h
  split at h
  · cases h
    exact ⟨_, rfl⟩
  · cases h

variable [DecidableEq Pubkey] {rt : Runtime Pubkey}

/-- Everything a successful withdrawal did, in order. -/
structure WithdrawTrace (rt : Runtime Pubkey)
    (accounts : List (AccountInfo Pubkey)) (lpAmount : U64)
    (before after : Bank Pubkey) where
  a : WithdrawAccounts Pubkey
  pool : StakePool Pubkey
  guarded : StakePool Pubkey
  pool' : StakePool Pubkey
  collateral : U64
  record : StakeDeposit Pubkey
  remaining : StakeDeposit Pubkey
  burned : Bank Pubkey
  paid : Bank Pubkey
  recorded : Bank Pubkey
  hnext : WithdrawAccounts.next accounts = .ok a
  haccounts : ∃ rest, accounts = a.user :: a.poolPda :: rest
  hamount : lpAmount ≠ 0
  hsigner : a.user.isSigner = true
  hdata : (before.accounts a.poolPda.key).data = .stakePool pool
  hlpMint : pool.lpMint = a.lpMint.key
  hvault : pool.vault = a.vault.key
  hvaultAuth : a.vaultAuth.key = (rt.deriveVaultAuthority a.poolPda.key).1
  hpda : a.depositPda.key =
    (rt.deriveDepositPda a.poolPda.key a.user.key).1
  hrecord : rt.DepositAt before a.depositPda.key record
  huser : record.user = a.user.key
  hrecordPool : record.pool = a.poolPda.key
  hcooldown : (saturatingAdd record.lastDepositSlot pool.cooldownSlots).toNat ≤
    before.clock.slot.toNat
  hcollateral : pool.calcCollateralForWithdraw lpAmount = some collateral
  hpositive : collateral ≠ 0
  hfloor : enforceHwmFloor pool before.clock.epoch collateral = .ok guarded
  hburned : TokensBurned rt.toDeployment before burned a.userLpAta.key
    a.lpMint.key a.user.key lpAmount.toNat
  hpaid : TokensMoved rt.toDeployment burned paid a.vault.key a.userAta.key
    a.vaultAuth.key collateral.toNat
  hpool : guarded.recordWithdraw collateral lpAmount = .ok pool'
  hremaining : record.debitLp lpAmount = .ok remaining
  hrecorded : Stored rt.toDeployment paid recorded a.poolPda.key
    (.stakePool pool')
  hafter : Stored rt.toDeployment recorded after a.depositPda.key
    (.stakeDeposit remaining)

namespace WithdrawTrace

variable {lpAmount : U64}

theorem user_ne (t : WithdrawTrace rt accounts lpAmount before after)
    (hsigned : SignedByOthers rt.toDeployment accounts) (key : Pubkey) :
    t.a.user.key ≠ (rt.deriveVaultAuthority key).1 := by
  obtain ⟨rest, haccounts⟩ := t.haccounts
  exact hsigned.ne_vaultAuthority (by simp [haccounts]) t.hsigner key

/-- The new record keeps the accounts of the pool and counts the payout. -/
theorem pool'_eq (t : WithdrawTrace rt accounts lpAmount before after) :
    t.pool.SameAccounts t.pool' ∧
      t.pool'.totalWithdrawn.toNat =
        t.pool.totalWithdrawn.toNat + t.collateral.toNat := by
  obtain ⟨total, supply, reserved, htotal, -, hpool', -⟩ :=
    StakePool.guardedWithdraw_eq_ok t.hfloor t.hpool
  rw [hpool']
  exact ⟨⟨rfl, rfl, rfl, rfl⟩, htotal⟩

/-- The pool that paid is a pool of the program: another account could not
have been rewritten. -/
theorem poolAt (t : WithdrawTrace rt accounts lpAmount before after) :
    rt.PoolAt before t.a.poolPda.key t.pool := by
  have hback : ∀ key, (∀ s, ¬ rt.TokenAt t.paid key s) →
      (∀ m, ¬ rt.MintAt t.paid key m) →
      t.paid.accounts key = before.accounts key := by
    intro key htoken hmint
    have hsame := t.hpaid.accounts_eq htoken
    rw [hsame]
    apply t.hburned.accounts_eq
    · intro s hs
      apply htoken s
      unfold Deployment.TokenAt
      rw [hsame]
      exact hs
    · intro m hm
      apply hmint m
      unfold Deployment.MintAt
      rw [hsame]
      exact hm
  refine ⟨?_, t.hdata⟩
  rcases t.hrecorded.owned with hsame | howned
  · have hdata := t.hrecorded.data
    rw [hsame] at hdata
    have hbefore := hback t.a.poolPda.key
      (fun s hs => by
        have h := hdata.symm.trans hs.2
        cases h)
      (fun m hm => by
        have h := hdata.symm.trans hm.2
        cases h)
    rw [hbefore, t.hdata] at hdata
    injection hdata with hpool
    exact absurd hpool
      (StakePool.ne_of_guardedWithdraw t.hfloor t.hpool t.hpositive)
  · have hforeign :
        (t.paid.accounts t.a.poolPda.key).owner ≠ rt.splTokenId :=
      howned ▸ rt.splTokenId_ne_programId.symm
    rw [← hback t.a.poolPda.key (fun s hs => hforeign hs.1)
      (fun m hm => hforeign hm.1)]
    exact howned

theorem poolAt_paid (t : WithdrawTrace rt accounts lpAmount before after) :
    rt.PoolAt t.paid t.a.poolPda.key t.pool :=
  t.poolAt.of_frame (t.hburned.bankFrame.trans t.hpaid.bankFrame)

theorem record_owned (t : WithdrawTrace rt accounts lpAmount before after) :
    (t.recorded.accounts t.a.depositPda.key).owner = rt.programId := by
  rw [t.hrecorded.owner_eq]
  exact (t.hrecord.of_frame
    (t.hburned.bankFrame.trans t.hpaid.bankFrame)).1

theorem sound (t : WithdrawTrace rt accounts lpAmount before after)
    (hbefore : Sound rt.toDeployment before) :
    Sound rt.toDeployment after := by
  have hpaid := (hbefore.tokensBurned t.hburned).tokensMoved t.hpaid
  have hrecorded :=
    hpaid.updatedPool t.poolAt_paid.2 t.hrecorded t.pool'_eq.1
  have hkey : t.remaining.pool = t.a.poolPda.key ∧
      t.remaining.user = t.a.user.key := by
    have hdebit := t.hremaining
    simp only [StakeDeposit.debitLp, bind_eq_ok, Except.ok.injEq] at hdebit
    obtain ⟨_, -, heq⟩ := hdebit
    rw [← heq]
    exact ⟨t.hrecordPool, t.huser⟩
  have hafter := t.hafter
  rw [t.hpda, ← hkey.1, ← hkey.2] at hafter
  apply hrecorded.storedDeposit hafter
  · rw [hkey.1, hkey.2, ← t.hpda]
    exact t.record_owned
  · rw [hkey.1]
    exact ⟨t.pool', t.hrecorded.owner.trans t.poolAt_paid.1,
      t.hrecorded.data⟩

theorem keeps (t : WithdrawTrace rt accounts lpAmount before after) :
    Keeps rt.toDeployment before after :=
  (((t.hburned.bankFrame.keeps t.hburned.clock).trans
    (t.hpaid.bankFrame.keeps t.hpaid.clock)).trans
      (t.hrecorded.keeps_of_pool t.poolAt_paid.2)).trans
        t.hafter.keeps_of_deposit

/-- Another pool at most receives tokens. -/
theorem drift (t : WithdrawTrace rt accounts lpAmount before after)
    (hsigned : SignedByOthers rt.toDeployment accounts)
    (hbefore : Sound rt.toDeployment before) {key : Pubkey}
    {view : PoolView Pubkey} (hview : Shows rt.toDeployment before key view)
    (hne : key ≠ t.a.poolPda.key) :
    ∃ view', Drift 0 view view' ∧ Shows rt.toDeployment after key view' := by
  obtain ⟨own, hownPool, hown⟩ := hbefore.pools _ _ t.poolAt
  have hmint : t.a.lpMint.key ≠ view.pool.lpMint := by
    intro heq
    apply hne
    apply hview.eq_of_lpMint_eq hown
    rw [← heq, ← t.hlpMint, hownPool]
  obtain ⟨burnedView, hburnedDrift, hburned⟩ :=
    hview.drift_of_tokensBurned t.hburned (t.user_ne hsigned key)
  rw [if_neg hmint] at hburnedDrift
  have hauthority : t.a.vaultAuth.key ≠ (rt.deriveVaultAuthority key).1 := by
    rw [t.hvaultAuth]
    intro heq
    exact hne (rt.deriveVaultAuthority_injective heq).symm
  obtain ⟨view', hdrift, hpaid⟩ :=
    hburned.drift_of_tokensMoved t.hpaid hauthority
  have hrecorded := hpaid.updatedOtherPool t.poolAt_paid.2 t.hrecorded hne
  have hafter := t.hafter
  rw [t.hpda] at hafter
  exact ⟨view', by simpa using hburnedDrift.trans hdrift,
    hrecorded.storedOtherDeposit hafter hne⟩

end WithdrawTrace

variable [Inhabited Pubkey]

theorem processWithdraw_trace {lpAmount : U64}
    (h : processWithdraw rt accounts lpAmount before = .ok after) :
    Nonempty (WithdrawTrace rt accounts lpAmount before after) := by
  simp only [processWithdraw, verifyTokenProgram, Clock.fromAccountInfo,
    bind_eq_ok, require_eq_ok, okOr_eq_ok, exists_const, Except.ok.injEq] at h
  obtain ⟨hamount, a, ha, hsigner, pool, hload, hinit, -, hlpMint, hvault, -,
    hvaultAuth, hpda, howned, clock, ⟨-, rfl⟩, record, hrecord,
    ⟨hrecordInit, huser, hrecordPool⟩, hcooldown, -, collateral, hcollateral,
    hpositive, guarded, hfloor, burned, hburn, paid, hpay, pool', hpool,
    reread, hreread, remaining, hremaining, recorded, hrecorded, hafter⟩ := h
  have hburned := rt.invokeSigned_effect hburn
  have hpaid := rt.invokeSigned_effect hpay
  have hdata := data_of_loadDeposit hrecord hrecordInit
  have hkept := (hburned.bankFrame.trans hpaid.bankFrame).kept _ howned
  have hsame : reread = record := by
    have hpaidData := hkept.2.trans hdata
    simp only [loadDeposit, hpaidData, Except.ok.injEq] at hreread
    exact hreread.symm
  subst hsame
  exact ⟨⟨a, pool, guarded, pool', collateral, reread, remaining, burned,
    paid, recorded, ha, WithdrawAccounts.next_eq_ok ha, hamount, hsigner,
    data_of_loadPool hload hinit, hlpMint, hvault, hvaultAuth, hpda,
    ⟨howned, hdata⟩, huser, hrecordPool, hcooldown, hcollateral, hpositive,
    hfloor, hburned, hpaid, hpool, hremaining, storeData_stored hrecorded,
    storeData_stored hafter⟩⟩

omit [Inhabited Pubkey] in
/-- What is seen of the pool that paid.  If the payout was sent to the vault
itself, it came straight back. -/
theorem WithdrawTrace.shows {lpAmount : U64}
    (t : WithdrawTrace rt accounts lpAmount before after)
    (hsigned : SignedByOthers rt.toDeployment accounts)
    {view : PoolView Pubkey}
    (hview : Shows rt.toDeployment before t.a.poolPda.key view) :
    view.records t.a.user.key = some t.record ∧
      t.collateral.toNat ≤ view.vaultAmount.toNat ∧
      ∃ vaultAmount lpMintSupply : U64,
        vaultAmount.toNat + t.collateral.toNat =
          view.vaultAmount.toNat +
            (if t.a.userAta.key = view.pool.vault then t.collateral.toNat
              else 0) ∧
        lpMintSupply.toNat + lpAmount.toNat = view.lpMintSupply.toNat ∧
        Shows rt.toDeployment after t.a.poolPda.key
          ⟨t.pool', vaultAmount, lpMintSupply,
            Function.update view.records t.a.user.key
              (some t.remaining)⟩ := by
  have hpool := hview.pool.unique t.poolAt
  obtain ⟨hauth, w, supply, hw, hsupply, hburned⟩ :=
    hview.tokensBurned t.hburned
  have hholder : t.a.userLpAta.key ≠ view.pool.vault := fun heq =>
    t.user_ne hsigned _ (hauth heq)
  have hmint : t.a.lpMint.key = view.pool.lpMint := by
    rw [hpool, t.hlpMint]
  rw [if_neg hholder] at hw
  rw [if_pos hmint] at hsupply
  have hcovered : t.collateral.toNat ≤ w.toNat := by
    obtain ⟨s, _, _, _, hs, -, -, -, -, -, -, -, hle, -, -⟩ := t.hpaid.moved
    have hvault := hburned.vault
    dsimp only at hvault
    rw [hpool, t.hvault] at hvault
    rw [hs.unique hvault] at hle
    exact hle
  obtain ⟨-, w', hw', hpaid⟩ := hburned.tokensMoved t.hpaid
  have hsource : t.a.vault.key = view.pool.vault := by
    rw [hpool, t.hvault]
  dsimp only at hw'
  rw [if_pos hsource] at hw'
  have hrecorded := hpaid.storedPool t.hrecorded (by
    dsimp only
    rw [hpool]
    exact t.pool'_eq.1)
  have hafter := t.hafter
  rw [t.hpda] at hafter
  have hshows := hrecorded.storedDeposit hafter (by
    rw [← t.hpda]
    exact t.record_owned)
  have hrecord : view.records t.a.user.key = some t.record := by
    rw [hview.records, ← t.hpda]
    exact recordIn_eq_some.mpr t.hrecord
  exact ⟨hrecord, by omega, w', supply, by omega, hsupply, hshows⟩

/-- The pool that paid makes a withdraw step. -/
theorem WithdrawTrace.step {lpAmount : U64}
    (t : WithdrawTrace rt accounts lpAmount before after)
    (hsigned : SignedByOthers rt.toDeployment accounts)
    {view : PoolView Pubkey}
    (hview : Shows rt.toDeployment before t.a.poolPda.key view) :
    ∃ middle view', PoolStep rt.toDeployment t.a.poolPda.key before.clock
        (.withdraw t.a.user.key lpAmount) view middle ∧
      Drift 0 middle view' ∧
      Shows rt.toDeployment after t.a.poolPda.key view' := by
  have hpool := hview.pool.unique t.poolAt
  obtain ⟨hrecord, hcovered, w, supply, hw, hsupply, hshows⟩ :=
    t.shows hsigned hview
  have hleft : (view.vaultAmount - t.collateral).toNat +
      t.collateral.toNat = view.vaultAmount.toNat := by
    rw [toNat_sub_of_le hcovered]
    omega
  refine ⟨⟨t.pool', view.vaultAmount - t.collateral, supply,
    Function.update view.records t.a.user.key (some t.remaining)⟩, _, ?_, ?_,
    hshows⟩
  · refine PoolStep.withdraw t.hamount hrecord ?_ ?_ t.hpositive ?_ t.hpool
      t.hremaining hleft hsupply
    · rw [hpool]
      exact t.hcooldown
    · rw [hpool]
      exact t.hcollateral
    · rw [hpool]
      exact t.hfloor
  · refine ⟨rfl, rfl, ?_, rfl⟩
    dsimp only
    omega

theorem processWithdraw_simulates {lpAmount : U64}
    (hbefore : Sound rt.toDeployment before)
    (hsigned : SignedByOthers rt.toDeployment accounts)
    (h : processWithdraw rt accounts lpAmount before = .ok after) :
    Simulates rt.toDeployment before
      (.instruction accounts (.withdraw lpAmount)) after := by
  obtain ⟨t⟩ := processWithdraw_trace h
  obtain ⟨rest, haccounts⟩ := t.haccounts
  apply t.keeps.simulates hbefore (t.sound hbefore)
  intro key view hview
  by_cases heq : key = t.a.poolPda.key
  · subst heq
    rw [seenBy_same haccounts]
    obtain ⟨middle, view', hstep, hdrift, hshows⟩ := t.step hsigned hview
    exact ⟨middle, view', hstep, hdrift, hshows, False.elim⟩
  · obtain ⟨view', hdrift, hshows⟩ := t.drift hsigned hbefore hview heq
    rw [seenBy_other haccounts heq]
    exact ⟨view, view', .idle view, hdrift, hshows, False.elim⟩

end PercolatorVault
