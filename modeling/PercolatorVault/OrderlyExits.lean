import PercolatorVault.ParValue
import PercolatorVault.TokenTotals

/-!
# Everybody can leave

On a pool that never flushed and enforces no floor the holders whose locks are
over can all withdraw what their records show, one after the other and in any
order.  No exit stands in the way of a later one, nobody gets less than one
unit for an LP, and the last of all holders takes the value down to nothing.
-/

namespace PercolatorVault

open CheckedArithmetic
open FiniteTallies
open ProportionalShares

variable {Pubkey : Type}

/-! ## Holders -/

/-- A user with a deposit record, and what they pass to a withdrawal. -/
structure Holder (Pubkey : Type) where
  accounts : List (AccountInfo Pubkey)
  infos : WithdrawAccounts Pubkey
  held : TokenAccount Pubkey
  record : StakeDeposit Pubkey

/-- Nothing was flushed, no floor is enforced, and the value fits. -/
structure StakePool.Leavable (pool : StakePool Pubkey) : Prop where
  unflushed : pool.poolMode = 1 ∨ pool.totalFlushed = 0
  unprotected : pool.hwmEnabled = false
  inflow_lt : pool.inflow < 2 ^ 64

/-- The holder of a record whose lock is over still has its LP tokens, and
passes valid accounts.  The token accounts are among `keys`. -/
structure Holder.Ready [DecidableEq Pubkey] (rt : Runtime Pubkey)
    (bank : Bank Pubkey) (key : Pubkey) (pool : StakePool Pubkey)
    (keys : Finset Pubkey) (holder : Holder Pubkey) : Prop where
  signed : SignedByOthers rt.toDeployment holder.accounts
  live : TokenProgramLive rt holder.accounts
  next : WithdrawAccounts.next holder.accounts = .ok holder.infos
  named : holder.infos.poolPda.key = key
  valid : holder.infos.Valid rt.toDeployment bank pool holder.held
  record : rt.DepositAt bank holder.infos.depositPda.key holder.record
  positive : 0 < holder.record.lpAmount.toNat
  covered : holder.record.lpAmount.toNat ≤ holder.held.amount.toNat
  unlocked :
    min (holder.record.lastDepositSlot.toNat + pool.cooldownSlots.toNat)
      (2 ^ 64 - 1) ≤ bank.clock.slot.toNat
  counted : ∀ info ∈ [holder.infos.userLpAta, holder.infos.vault,
    holder.infos.userAta], info.key ∈ keys

section Exits

variable [DecidableEq Pubkey] [Inhabited Pubkey] {rt : Runtime Pubkey}
  {before after : Bank Pubkey} {key : Pubkey} {pool pool' : StakePool Pubkey}
  {keys : Finset Pubkey} {holder other : Holder Pubkey} {payout : ℕ}

/-- The holders withdraw all LP of their records in this order and get these
amounts. -/
inductive LeaveInTurn (rt : Runtime Pubkey) :
    Bank Pubkey → List (Holder Pubkey) → List ℕ → Bank Pubkey → Prop
  | nil (bank : Bank Pubkey) : LeaveInTurn rt bank [] [] bank
  | cons {before middle after : Bank Pubkey} {holder : Holder Pubkey}
      {rest : List (Holder Pubkey)} {payout : ℕ} {payouts : List ℕ}
      (hleave : processWithdraw rt holder.accounts holder.record.lpAmount
        before = .ok middle)
      (hpaid : TokensChanged rt.toDeployment before middle
        holder.infos.userAta.key 0 payout)
      (hrest : LeaveInTurn rt middle rest payouts after) :
      LeaveInTurn rt before (holder :: rest) (payout :: payouts) after

/-- The exit of one holder. -/
structure Left (rt : Runtime Pubkey) (keys : Finset Pubkey)
    (holder : Holder Pubkey) (before after : Bank Pubkey)
    (pool pool' : StakePool Pubkey) (payout : ℕ) : Prop where
  ran : processWithdraw rt holder.accounts holder.record.lpAmount before =
    .ok after
  effect : WithdrawEffect rt.toDeployment before after holder.infos pool
    holder.record holder.record.lpAmount.toNat payout
  reachable : Reachable rt after
  totals : TokenTotals rt.toDeployment after keys
  poolAt : rt.PoolAt after holder.infos.poolPda.key pool'
  kept : pool' = { pool with
    totalWithdrawn := pool'.totalWithdrawn
    totalLpSupply := pool'.totalLpSupply
    reserved := pool'.reserved }
  leavable : pool'.Leavable
  value : pool'.bookValue + payout = pool.bookValue
  supply : pool'.totalLpSupply.toNat + holder.record.lpAmount.toNat =
    pool.totalLpSupply.toNat
  par : holder.record.lpAmount.toNat ≤ payout
  last : holder.record.lpAmount.toNat = pool.totalLpSupply.toNat →
    payout = pool.bookValue

/-! ## One exit -/

omit [DecidableEq Pubkey] [Inhabited Pubkey] in
theorem StakePool.Leavable.of_withdraw (h : pool.Leavable)
    (hkept : pool' = { pool with
      totalWithdrawn := pool'.totalWithdrawn
      totalLpSupply := pool'.totalLpSupply
      reserved := pool'.reserved })
    (hfields : pool'.reservedFields = pool.reservedFields) :
    pool'.Leavable where
  unflushed := by
    rw [hkept]
    exact h.unflushed
  unprotected :=
    (congrArg ReservedFields.hwmEnabled hfields).trans h.unprotected
  inflow_lt := by
    rw [hkept]
    exact h.inflow_lt

/-- What the holder gets for the LP of the record. -/
theorem Holder.Ready.exists_payout
    (h : holder.Ready rt before key pool keys)
    (hreachable : Reachable rt before) (hpool : pool.Leavable) :
    ∃ value : U64, pool.totalPoolValue = some value ∧
      pool.bookValue = value.toNat ∧
      holder.record.lpAmount.toNat ≤ pool.totalLpSupply.toNat ∧
      holder.record.lpAmount.toNat ≤
        pool.payout value.toNat holder.record.lpAmount.toNat := by
  obtain ⟨view, rfl, hview⟩ := hreachable.shows_pool h.valid.poolAt
  have hcovered := (hreachable.coherent hview).covered
  rw [view.ledger_inflow, view.ledger_outflow] at hcovered
  obtain ⟨value, hvalue⟩ := Option.isSome_iff_exists.mp
    ((StakePool.totalPoolValue_isSome_iff hcovered).mpr hpool.inflow_lt)
  have hrecord := h.record
  rw [h.valid.depositPda] at hrecord
  obtain ⟨-, hsupply⟩ := hreachable.record_of_user hview hrecord
  obtain ⟨collateral, hcollateral, hcalc, -, -⟩ :=
    hreachable.exists_payout hview hvalue h.positive hsupply
  have hpar := StakePool.le_of_calcCollateralForWithdraw
    (hreachable.pot_atPar hview hpool.unflushed) hcalc
  exact ⟨value, hvalue, (StakePool.bookValue_of_totalPoolValue hvalue).1,
    hsupply, hcollateral ▸ hpar⟩

theorem Holder.Ready.leaves (h : holder.Ready rt before key pool keys)
    (hreachable : Reachable rt before) (hpool : pool.Leavable)
    (htotals : TokenTotals rt.toDeployment before keys) :
    ∃ after pool' payout,
      Left rt keys holder before after pool pool' payout := by
  obtain ⟨value, hvalue, hbook, hsupply, hpar⟩ :=
    h.exists_payout hreachable hpool
  have hpositive := h.positive
  have hallows : pool.AllowsWithdraw holder.record before.clock value.toNat
      holder.record.lpAmount.toNat := by
    refine ⟨h.positive, h.unlocked, le_rfl, by omega, ?_⟩
    intro henabled
    rw [hpool.unprotected] at henabled
    cases henabled
  have hbooks : TokenBooks rt.toDeployment before
      [holder.infos.userLpAta.key, holder.infos.vault.key,
        holder.infos.userAta.key] := by
    apply htotals.tokenBooks
    intro other hmem
    simp only [List.mem_cons, List.not_mem_nil, or_false] at hmem
    rcases hmem with rfl | rfl | rfl
    all_goals exact h.counted _ (by simp)
  obtain ⟨after, hrun⟩ := processWithdraw_succeeds hreachable h.signed
    h.live hbooks h.next h.valid hvalue h.covered h.record hallows
  obtain ⟨accounts, infos, held, record⟩ := holder
  dsimp only at hrun hsupply hpar hpositive
  obtain ⟨t⟩ := processWithdraw_trace hrun
  cases h.next.symm.trans t.hnext
  cases h.valid.poolAt.unique t.poolAt
  have hrecord : t.record = record := by
    have hdata := t.hrecord.2.symm.trans h.record.2
    injection hdata
  obtain ⟨view, -, hview⟩ := hreachable.shows_pool t.poolAt
  have heffect := t.effect h.signed hview h.valid.payee_ne
  rw [hrecord] at heffect
  obtain ⟨-, hpaid⟩ := t.allows hvalue
  obtain ⟨pool', hpoolAt, hkept, hwithdrawn, hburned, hfields⟩ :=
    heffect.pool
  rw [hpool.unprotected] at hfields
  have hinflow : pool'.inflow = t.pool.inflow := by
    rw [hkept]
    rfl
  have houtflow : pool'.outflow = t.pool.outflow + t.collateral.toNat := by
    have hflushed : pool'.totalFlushed = t.pool.totalFlushed := by
      rw [hkept]
    unfold StakePool.outflow
    rw [hwithdrawn, hflushed]
    omega
  have hcovered : t.collateral.toNat ≤ value.toNat := by
    rw [hpaid]
    exact Nat.div_le_of_le_mul (Nat.mul_le_mul_right _ hsupply)
  have hstep : Step rt before
      (.instruction accounts (.withdraw record.lpAmount)) after :=
    .instruction h.signed hrun
  refine ⟨after, pool', t.collateral.toNat, hrun, heffect,
    hreachable.step hstep,
    htotals.withdrawn t (h.counted _ (by simp)) (h.counted _ (by simp))
      (h.counted _ (by simp)) h.valid.payee_ne.symm,
    hpoolAt, hkept, hpool.of_withdraw hkept hfields, ?_, hburned,
    hpar.trans_eq hpaid.symm, ?_⟩
  · unfold StakePool.bookValue at hbook ⊢
    omega
  · intro hall
    rw [hpaid, hbook]
    change record.lpAmount.toNat = t.pool.totalLpSupply.toNat at hall
    unfold StakePool.payout
    rw [hall]
    exact Nat.mul_div_cancel_left _ (hall ▸ hpositive)

/-! ## The others -/

omit [DecidableEq Pubkey] [Inhabited Pubkey] in
/-- Token accounts are not accounts of the program. -/
theorem Deployment.TokenAt.ne_of_owned {d : Deployment Pubkey}
    {bank : Bank Pubkey} {account owned : Pubkey} {t : TokenAccount Pubkey}
    (ht : d.TokenAt bank account t)
    (howned : (bank.accounts owned).owner = d.programId) :
    account ≠ owned := by
  rintro rfl
  exact d.splTokenId_ne_programId (ht.1.symm.trans howned)

/-- LP and collateral are different tokens where somebody is ready to leave. -/
theorem Holder.Ready.mints_ne (h : holder.Ready rt before key pool keys)
    (hreachable : Reachable rt before) :
    pool.collateralMint ≠ pool.lpMint := by
  obtain ⟨view, rfl, hview⟩ := hreachable.shows_pool h.valid.poolAt
  intro hdegenerate
  have hzero := hview.unheld hdegenerate _ _ h.valid.lpTokens
    h.valid.lpTokens_mint
  have hcovered := h.covered
  have hpositive := h.positive
  omega

/-- Token accounts of others keep their tokens. -/
theorem Left.untouched {account : Pubkey} {t : TokenAccount Pubkey}
    {m : Mint Pubkey}
    (hleft : Left rt keys holder before after pool pool' payout)
    (hexited : holder.Ready rt before key pool keys)
    (hmint : rt.MintAt before pool.lpMint m)
    (ht : rt.TokenAt before account t)
    (hlpTokens : account ≠ holder.infos.userLpAta.key)
    (hvault : account ≠ pool.vault)
    (hpayee : account ≠ holder.infos.userAta.key) :
    after.accounts account = before.accounts account := by
  apply hleft.effect.others
  simp only [List.forall_mem_cons, List.not_mem_nil, false_implies,
    implies_true, and_true]
  rw [← hexited.valid.lpMint, ← hexited.valid.vault]
  exact ⟨ht.ne_of_owned hexited.valid.poolAt.1, hlpTokens,
    ht.ne_of_mintAt hmint, hvault, hpayee, ht.ne_of_owned hexited.record.1⟩

/-- The exit of one holder leaves every other one ready. -/
theorem Holder.Ready.after_exit (h : other.Ready rt before key pool keys)
    (hexited : holder.Ready rt before key pool keys)
    (hreachable : Reachable rt before)
    (hleft : Left rt keys holder before after pool pool' payout)
    (hne : other.infos.user.key ≠ holder.infos.user.key) :
    other.Ready rt after key pool' keys := by
  have hmints := h.mints_ne hreachable
  obtain ⟨view, rfl, hview⟩ := hreachable.shows_pool h.valid.poolAt
  obtain ⟨freeze, hmint⟩ := hview.lpMint
  have hkept := hleft.kept
  have hsame : holder.infos.poolPda.key = other.infos.poolPda.key :=
    hexited.named.trans h.named.symm
  -- The LP tokens of the other are neither those of the holder nor
  -- collateral.
  have hlpTokens : rt.TokenAt after other.infos.userLpAta.key other.held := by
    refine h.valid.lpTokens.of_sameContents (.of_eq
      (hleft.untouched hexited hmint h.valid.lpTokens ?_ ?_ ?_))
    · intro heq
      have hown := h.valid.lpTokens
      rw [heq] at hown
      apply hne
      rw [← h.valid.lpTokens_owner, ← hexited.valid.lpTokens_owner,
        hown.unique hexited.valid.lpTokens]
    · intro heq
      have hown := h.valid.lpTokens
      rw [heq] at hown
      apply hmints
      rw [← h.valid.lpTokens_mint, hown.unique hview.vault]
    · intro heq
      obtain ⟨t, ht, htmint⟩ := hexited.valid.payee
      have hown := h.valid.lpTokens
      rw [heq] at hown
      apply hmints
      rw [← htmint, ← h.valid.lpTokens_mint, hown.unique ht]
  -- The payee of the other may be the payee of the holder.
  have hpayee : ∃ t, rt.TokenAt after other.infos.userAta.key t ∧
      t.mint = view.pool.collateralMint := by
    obtain ⟨t, ht, htmint⟩ := h.valid.payee
    by_cases hshared : other.infos.userAta.key = holder.infos.userAta.key
    · obtain ⟨s, s', hs, hs', hholder, -⟩ := hleft.effect.payee
      rw [hshared] at ht ⊢
      exact ⟨s', hs', by rw [hholder.mint, hs.unique ht, htmint]⟩
    · refine ⟨t, ht.of_sameContents (.of_eq
        (hleft.untouched hexited hmint ht ?_ ?_ hshared)), htmint⟩
      · intro heq
        rw [heq] at ht
        apply hmints
        rw [← htmint, ← hexited.valid.lpTokens_mint,
          ht.unique hexited.valid.lpTokens]
      · rw [h.valid.vault]
        exact h.valid.payee_ne
  have hrecord :
      rt.DepositAt after other.infos.depositPda.key other.record := by
    have hkey : after.accounts other.infos.depositPda.key =
        before.accounts other.infos.depositPda.key := by
      apply hleft.effect.others
      have howned := h.record.1
      obtain ⟨t, ht, -⟩ := hexited.valid.payee
      have hvault := hview.vault
      rw [hexited.valid.vault] at hvault
      rw [hexited.valid.lpMint] at hmint
      simp only [List.forall_mem_cons, List.not_mem_nil, false_implies,
        implies_true, and_true]
      refine ⟨?_, (hexited.valid.lpTokens.ne_of_owned howned).symm, ?_,
        (hvault.ne_of_owned howned).symm, (ht.ne_of_owned howned).symm, ?_⟩
      · rw [hsame, h.valid.depositPda]
        exact (hview.ne_deriveDepositPda _ _).symm
      · intro heq
        rw [heq] at howned
        exact rt.splTokenId_ne_programId (hmint.1.symm.trans howned)
      · rw [h.valid.depositPda, hexited.valid.depositPda]
        intro heq
        exact hne (rt.deriveDepositPda_injective heq).2
    unfold Deployment.DepositAt
    rw [hkey]
    exact h.record
  have hpoolAt := hleft.poolAt
  rw [hsame] at hpoolAt
  rw [hkept] at hpoolAt ⊢
  exact
    { signed := h.signed
      live := h.live
      next := h.next
      named := h.named
      valid :=
        { poolAt := hpoolAt
          signer := h.valid.signer
          lpMint := h.valid.lpMint
          vault := h.valid.vault
          vaultAuth := h.valid.vaultAuth
          depositPda := h.valid.depositPda
          tokenProgram := h.valid.tokenProgram
          clockSysvar := h.valid.clockSysvar
          writable := h.valid.writable
          lpTokens := hlpTokens
          lpTokens_mint := h.valid.lpTokens_mint
          lpTokens_owner := h.valid.lpTokens_owner
          payee := hpayee
          payee_ne := h.valid.payee_ne }
      record := hrecord
      positive := h.positive
      covered := h.covered
      unlocked := by
        rw [hleft.effect.clock]
        exact h.unlocked
      counted := h.counted }

/-! ## All exits -/

/-- LP on the records of the holders. -/
def lpRecordedBy (holders : List (Holder Pubkey)) : ℕ :=
  (holders.map fun holder => holder.record.lpAmount.toNat).sum

/-- Holders who are ready to leave can leave in any order.  Each gets at
least one unit for an LP, and together all holders get the whole value. -/
theorem Reachable.everyone_leaves (h : Reachable rt before)
    (hleavable : pool.Leavable)
    (htotals : TokenTotals rt.toDeployment before keys)
    (hpool : rt.PoolAt before key pool) {holders : List (Holder Pubkey)}
    (hready : ∀ holder ∈ holders, holder.Ready rt before key pool keys)
    (hdistinct : (holders.map fun holder => holder.infos.user.key).Nodup) :
    ∃ after pool' payouts, LeaveInTurn rt before holders payouts after ∧
      rt.PoolAt after key pool' ∧
      List.Forall₂ (fun holder payout =>
        holder.record.lpAmount.toNat ≤ payout) holders payouts ∧
      pool'.totalLpSupply.toNat + lpRecordedBy holders =
        pool.totalLpSupply.toNat ∧
      pool'.bookValue + payouts.sum = pool.bookValue ∧
      (holders ≠ [] → lpRecordedBy holders = pool.totalLpSupply.toNat →
        payouts.sum = pool.bookValue) := by
  induction holders generalizing before pool with
  | nil =>
      exact ⟨before, pool, [], .nil before, hpool, .nil, rfl, rfl,
        fun hnone => absurd rfl hnone⟩
  | cons holder rest ih =>
      simp only [List.map_cons, List.nodup_cons, List.mem_map, not_exists,
        not_and] at hdistinct
      have hfirst := hready holder (by simp)
      obtain ⟨middle, between, payout, hleft⟩ :=
        hfirst.leaves h hleavable htotals
      have hbetween := hleft.poolAt
      rw [hfirst.named] at hbetween
      have hothers : ∀ other ∈ rest,
          other.Ready rt middle key between keys := by
        intro other hmem
        apply (hready other (List.mem_cons_of_mem _ hmem)).after_exit hfirst
          h hleft
        exact hdistinct.1 other hmem
      obtain ⟨after, pool', payouts, hrest, hpool', hpar, hsupply, hvalue,
        hlast⟩ := ih hleft.reachable hleft.leavable hleft.totals hbetween
          hothers hdistinct.2
      have hsupplyFirst := hleft.supply
      have hvalueFirst := hleft.value
      have hlp : lpRecordedBy (holder :: rest) =
          holder.record.lpAmount.toNat + lpRecordedBy rest := by
        simp only [lpRecordedBy, List.map_cons, List.sum_cons]
      have hpaid : (payout :: payouts).sum = payout + payouts.sum := by
        simp only [List.sum_cons]
      refine ⟨after, pool', payout :: payouts,
        .cons hleft.ran hleft.effect.payee hrest, hpool',
        .cons hleft.par hpar, by omega, by omega, ?_⟩
      intro _ hall
      cases rest with
      | nil =>
          cases hrest
          have hwhole := hleft.last hall
          simpa using hwhole
      | cons next others =>
          have hrestAll := hlast (List.cons_ne_nil _ _) (by omega)
          omega

end Exits

namespace Reference

/-- Two deposits with fees in between, and both locks over. -/
def exitMarket : List (Transaction Address) :=
  [initTradingPool 10, openLpAccount alice, openLpAccount bob,
    deposit alice 1000, donate 333, accrueFees, deposit bob 500,
    waitUntil 1200 1]

/-- The holder as the bank shows them. -/
def holderIn (bank : Bank Address) (party : Party) : Holder Address where
  accounts := withdrawAccounts party
  infos := withdrawInfos party
  held :=
    match tokenAccount bank party.lpTokens with
    | .ok held => held
    | .error _ => ⟨lpMint, party.key, 0, none⟩
  record := (recordIn deployment
    (bank.accounts (.stakeDeposit poolKey party.key))).getD .zeroed

def exitKeys : Finset Address :=
  {alice.lpTokens, bob.lpTokens, vault, alice.tokens, bob.tokens}

theorem exitMarket_ready : ∃ pool,
    deployment.PoolAt (bankAfter exitMarket) poolKey pool ∧
      pool.Leavable ∧ pool.totalLpSupply = 1375 ∧ pool.bookValue = 1833 ∧
      ∀ party ∈ [bob, alice],
        (holderIn (bankAfter exitMarket) party).Ready runtime
          (bankAfter exitMarket) poolKey pool exitKeys := by
  have hread : (poolIn (bankAfter exitMarket)).map (fun pool =>
      (pool.poolMode, pool.hwmEnabled, pool.inflow, pool.totalLpSupply,
        pool.bookValue)) = some (1, false, 1833, 1375, 1833) := by
    decide +kernel
  have hinfos : (poolIn (bankAfter exitMarket)).map (fun pool =>
      (pool.lpMint, pool.vault, pool.collateralMint, pool.cooldownSlots)) =
        some (lpMint, vault, collateralMint, 10) := by
    decide +kernel
  obtain ⟨pool, hpool, hread⟩ := exists_poolAt hread
  obtain ⟨_, hpool', hinfos⟩ := exists_poolAt hinfos
  cases hpool.unique hpool'
  simp only [Prod.mk.injEq] at hread hinfos
  obtain ⟨hmode, hfloor, hinflow, hsupply, hvalue⟩ := hread
  obtain ⟨hmint, hvault, hcollateral, hcooldown⟩ := hinfos
  refine ⟨pool, hpool, ⟨.inl hmode, hfloor, by omega⟩, hsupply, hvalue, ?_⟩
  intro party hparty
  have hsigned : ∀ party ∈ [bob, alice],
      authentic (withdraw party 1) = true := by decide
  have hwritable : ∀ party ∈ [bob, alice],
      ∀ info ∈ [(withdrawInfos party).poolPda, writable party.lpTokens,
        writable lpMint, writable vault, writable party.tokens,
        (withdrawInfos party).depositPda],
        info.isWritable = true := by decide
  have hheld : ∀ party ∈ [bob, alice],
      tokenAccount (bankAfter exitMarket) party.lpTokens =
          .ok (holderIn (bankAfter exitMarket) party).held ∧
        (holderIn (bankAfter exitMarket) party).held.mint = lpMint ∧
        (holderIn (bankAfter exitMarket) party).held.owner = party.key := by
    decide +kernel
  have hpayee : ∀ party ∈ [bob, alice],
      (tokenAccount (bankAfter exitMarket) party.tokens).toOption.map
          TokenAccount.mint = some collateralMint ∧
        party.tokens ≠ vault := by
    decide +kernel
  have hrecord : ∀ party ∈ [bob, alice],
      recordIn deployment ((bankAfter exitMarket).accounts
          (.stakeDeposit poolKey party.key)) =
        some (holderIn (bankAfter exitMarket) party).record := by
    decide +kernel
  have hnumbers : ∀ party ∈ [bob, alice],
      0 < (holderIn (bankAfter exitMarket) party).record.lpAmount.toNat ∧
        (holderIn (bankAfter exitMarket) party).record.lpAmount.toNat ≤
          (holderIn (bankAfter exitMarket) party).held.amount.toNat ∧
        (holderIn (bankAfter exitMarket) party).record.lastDepositSlot.toNat
          + 10 ≤ (bankAfter exitMarket).clock.slot.toNat := by
    decide +kernel
  have hcounted : ∀ party ∈ [bob, alice],
      ∀ info ∈ [writable party.lpTokens, writable vault,
        writable party.tokens], info.key ∈ exitKeys := by decide
  obtain ⟨hlpTokens, hlpMint, howner⟩ := hheld party hparty
  obtain ⟨hcollateralTokens, hapart⟩ := hpayee party hparty
  obtain ⟨hpositive, hcovered, hslot⟩ := hnumbers party hparty
  obtain ⟨t, ht, htmint⟩ := Option.map_eq_some_iff.mp hcollateralTokens
  have htokens : tokenAccount (bankAfter exitMarket) party.tokens =
      .ok t := by
    cases haccount : tokenAccount (bankAfter exitMarket) party.tokens with
    | ok s =>
        rw [haccount] at ht
        cases ht
        rfl
    | error e =>
        rw [haccount] at ht
        cases ht
  refine
    { signed := @authentic_sound (withdraw party 1) (hsigned party hparty)
      live := runtime_tokenProgramLive _
      next := rfl
      named := rfl
      valid := ?_
      record := recordIn_eq_some.mp (hrecord party hparty)
      positive := hpositive
      covered := hcovered
      unlocked := ?_
      counted := hcounted party hparty }
  · exact
      { poolAt := hpool
        signer := rfl
        lpMint := hmint
        vault := hvault
        vaultAuth := rfl
        depositPda := rfl
        tokenProgram := rfl
        clockSysvar := rfl
        writable := hwritable party hparty
        lpTokens := tokenAccount_eq_ok.mp hlpTokens
        lpTokens_mint := hlpMint.trans hmint.symm
        lpTokens_owner := howner
        payee := ⟨t, tokenAccount_eq_ok.mp htokens,
          htmint.trans hcollateral.symm⟩
        payee_ne := hapart }
  · rw [hcooldown]
    exact (Nat.min_le_left _ _).trans hslot

/-- Bob leaves first, alice takes the rest. -/
theorem exitMarket_everyone_leaves : ∃ after payouts,
    LeaveInTurn runtime (bankAfter exitMarket)
        ([bob, alice].map (holderIn (bankAfter exitMarket))) payouts
        after ∧
      payouts.sum = 1833 := by
  obtain ⟨pool, hpool, hleavable, hsupply, hvalue, hready⟩ :=
    exitMarket_ready
  have htotals : TokenTotals runtime.toDeployment (bankAfter exitMarket)
      exitKeys :=
    @tokenTotals_of_keepsTotals _ exitKeys {lpMint, collateralMint}
      (by decide +kernel)
  have hholders : ∀ holder ∈
      [bob, alice].map (holderIn (bankAfter exitMarket)),
      holder.Ready runtime (bankAfter exitMarket) poolKey pool exitKeys := by
    intro holder hmem
    obtain ⟨party, hparty, rfl⟩ := List.mem_map.mp hmem
    exact hready party hparty
  have hall : lpRecordedBy
      ([bob, alice].map (holderIn (bankAfter exitMarket))) = 1375 := by
    decide +kernel
  obtain ⟨after, pool', payouts, hleave, -, -, -, -, hlast⟩ :=
    Reachable.everyone_leaves (bankAfter_reachable (by decide +kernel))
      hleavable htotals hpool hholders (by decide)
  refine ⟨after, payouts, hleave, ?_⟩
  rw [hlast (by simp) (by rw [hall, hsupply]; rfl), hvalue]

end Reference

end PercolatorVault
