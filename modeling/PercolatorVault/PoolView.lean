import PercolatorVault.BankFrame

/-!
# What a bank shows of one pool

The record of a pool, the amount in its vault, the supply of its LP mint and
the deposit records of its users make up a `PoolView`.  `Shows` says that a
bank holds exactly this at the pool's address, with the authorities that
initialisation set.  The lemmas follow a view through every call a handler
makes and every record it writes.
-/

namespace PercolatorVault

open CheckedArithmetic
open FallibleSteps

variable {Pubkey : Type}

structure PoolView (Pubkey : Type) where
  pool : StakePool Pubkey
  vaultAmount : U64
  lpMintSupply : U64
  records : Pubkey → Option (StakeDeposit Pubkey)

/-- `pool` is the pool record at `key`. -/
def Deployment.PoolAt (d : Deployment Pubkey) (bank : Bank Pubkey)
    (key : Pubkey) (pool : StakePool Pubkey) : Prop :=
  (bank.accounts key).owner = d.programId ∧
    (bank.accounts key).data = .stakePool pool

/-- `deposit` is the deposit record at `key`. -/
def Deployment.DepositAt (d : Deployment Pubkey) (bank : Bank Pubkey)
    (key : Pubkey) (deposit : StakeDeposit Pubkey) : Prop :=
  (bank.accounts key).owner = d.programId ∧
    (bank.accounts key).data = .stakeDeposit deposit

theorem Deployment.PoolAt.unique {d : Deployment Pubkey} {bank : Bank Pubkey}
    {key : Pubkey} {pool pool' : StakePool Pubkey}
    (h : d.PoolAt bank key pool) (h' : d.PoolAt bank key pool') :
    pool = pool' := by
  have hdata := h.2.symm.trans h'.2
  injection hdata

section Frames

variable {d : Deployment Pubkey} {before after : Bank Pubkey} {key : Pubkey}
  {pool : StakePool Pubkey} {deposit : StakeDeposit Pubkey}

theorem Deployment.PoolAt.of_frame (h : d.PoolAt before key pool)
    (hframe : Frame d before after) : d.PoolAt after key pool := by
  have hkept := hframe.kept key h.1
  exact ⟨hkept.1.trans h.1, hkept.2.trans h.2⟩

theorem Deployment.DepositAt.of_frame (h : d.DepositAt before key deposit)
    (hframe : Frame d before after) : d.DepositAt after key deposit := by
  have hkept := hframe.kept key h.1
  exact ⟨hkept.1.trans h.1, hkept.2.trans h.2⟩

/-- A frame adds no pool. -/
theorem Deployment.PoolAt.back (h : d.PoolAt after key pool)
    (hframe : Frame d before after) : d.PoolAt before key pool := by
  obtain ⟨howned, hsame⟩ := hframe.kept_back h.1 (fun length hzero => by
    have hdata := h.2.symm.trans hzero
    cases hdata)
  exact ⟨howned, hsame.2.symm.trans h.2⟩

theorem Deployment.DepositAt.back (h : d.DepositAt after key deposit)
    (hframe : Frame d before after) : d.DepositAt before key deposit := by
  obtain ⟨howned, hsame⟩ := hframe.kept_back h.1 (fun length hzero => by
    have hdata := h.2.symm.trans hzero
    cases hdata)
  exact ⟨howned, hsame.2.symm.trans h.2⟩

end Frames

theorem TokenAccount.SameHolder.of_undelegated {t t' : TokenAccount Pubkey}
    (h : t.SameHolder t') (hdelegate : t.delegate = none) :
    t' = ⟨t.mint, t.owner, t'.amount, none⟩ := by
  have hnone : t'.delegate = none := by
    rcases h.delegate with heq | heq
    · exact heq.trans hdelegate
    · exact heq
  cases t'
  simp only [TokenAccount.mk.injEq, true_and]
  exact ⟨h.mint, h.owner, hnone⟩

theorem TokenAccount.Authorizes.owner_eq {t : TokenAccount Pubkey}
    {authority : Pubkey} (h : t.Authorizes authority)
    (hdelegate : t.delegate = none) : authority = t.owner := by
  rcases h with howner | hsome
  · exact howner.symm
  · rw [hdelegate] at hsome
    cases hsome

section Views

variable [DecidableEq Pubkey]

def recordIn (d : Deployment Pubkey) (account : Account Pubkey) :
    Option (StakeDeposit Pubkey) :=
  if account.owner = d.programId then
    match account.data with
    | .stakeDeposit deposit => some deposit
    | _ => none
  else none

theorem recordIn_eq_some {d : Deployment Pubkey} {bank : Bank Pubkey}
    {key : Pubkey} {deposit : StakeDeposit Pubkey} :
    recordIn d (bank.accounts key) = some deposit ↔
      d.DepositAt bank key deposit := by
  unfold recordIn Deployment.DepositAt
  by_cases howned : (bank.accounts key).owner = d.programId
  · rw [if_pos howned]
    cases hdata : (bank.accounts key).data <;> simp [howned]
  · simp [howned]

theorem recordIn_congr {d : Deployment Pubkey} {before after : Account Pubkey}
    (h : before.SameContents after) : recordIn d after = recordIn d before := by
  unfold recordIn
  rw [h.1, h.2]

/-- A bank holds the pool of `view` at `key`. -/
structure Shows (d : Deployment Pubkey) (bank : Bank Pubkey) (key : Pubkey)
    (view : PoolView Pubkey) : Prop where
  pool : d.PoolAt bank key view.pool
  address : ∃ slab, key = (d.derivePoolPda slab).1
  initialized : view.pool.isInitialized = 1
  vault : d.TokenAt bank view.pool.vault
    ⟨view.pool.collateralMint, (d.deriveVaultAuthority key).1,
      view.vaultAmount, none⟩
  lpMint : ∃ freezeAuthority, d.MintAt bank view.pool.lpMint
    ⟨some (d.deriveVaultAuthority key).1, view.lpMintSupply, freezeAuthority⟩
  records : ∀ user, view.records user =
    recordIn d (bank.accounts (d.deriveDepositPda key user).1)
  unheld : view.pool.collateralMint = view.pool.lpMint →
    NoHolders d bank view.pool.lpMint

variable {d : Deployment Pubkey} {before after : Bank Pubkey} {key : Pubkey}
  {view : PoolView Pubkey}

theorem Frame.recordIn_eq (hframe : Frame d before after) (record : Pubkey) :
    recordIn d (after.accounts record) =
      recordIn d (before.accounts record) := by
  by_cases howned : (before.accounts record).owner = d.programId
  · exact recordIn_congr (hframe.kept record howned)
  · have hbefore : recordIn d (before.accounts record) = none := by
      simp [recordIn, howned]
    rw [hbefore]
    by_cases hafter : (after.accounts record).owner = d.programId
    · rcases hframe.fresh record hafter with h | ⟨length, hzero⟩
      · exact absurd h howned
      · simp [recordIn, hzero]
    · simp [recordIn, hafter]

theorem Shows.ne_deriveDepositPda (h : Shows d before key view)
    (pool user : Pubkey) : key ≠ (d.deriveDepositPda pool user).1 := by
  obtain ⟨slab, hslab⟩ := h.address
  rw [hslab]
  exact d.derivePoolPda_ne_deriveDepositPda slab pool user

/-- After a frame only the vault and the LP mint have to be looked at. -/
theorem Shows.of_frame (h : Shows d before key view)
    (hframe : Frame d before after) {vaultAmount lpMintSupply : U64}
    (hvault : d.TokenAt after view.pool.vault
      ⟨view.pool.collateralMint, (d.deriveVaultAuthority key).1,
        vaultAmount, none⟩)
    (hmint : ∃ freezeAuthority, d.MintAt after view.pool.lpMint
      ⟨some (d.deriveVaultAuthority key).1, lpMintSupply, freezeAuthority⟩)
    (hunheld : view.pool.collateralMint = view.pool.lpMint →
      NoHolders d after view.pool.lpMint) :
    Shows d after key
      { view with vaultAmount := vaultAmount, lpMintSupply := lpMintSupply }
    where
  pool := h.pool.of_frame hframe
  address := h.address
  initialized := h.initialized
  vault := hvault
  lpMint := hmint
  records user := (h.records user).trans (hframe.recordIn_eq _).symm
  unheld := hunheld

/-- A bank shows one view of a pool. -/
theorem Shows.unique {other : PoolView Pubkey} (h : Shows d before key view)
    (hother : Shows d before key other) : view = other := by
  obtain ⟨pool, vaultAmount, lpMintSupply, records⟩ := view
  obtain ⟨pool', vaultAmount', lpMintSupply', records'⟩ := other
  have hpool : pool = pool' := h.pool.unique hother.pool
  subst hpool
  have hvault := congrArg TokenAccount.amount (h.vault.unique hother.vault)
  obtain ⟨f, hmint⟩ := h.lpMint
  obtain ⟨g, hmint'⟩ := hother.lpMint
  have hsupply := congrArg Mint.supply (hmint.unique hmint')
  have hrecords : records = records' := by
    funext user
    exact (h.records user).trans (hother.records user).symm
  simp only [PoolView.mk.injEq, true_and]
  exact ⟨hvault, hsupply, hrecords⟩

theorem Shows.eq_of_lpMint_eq {other : Pubkey} {otherView : PoolView Pubkey}
    (h : Shows d before key view) (hother : Shows d before other otherView)
    (hmint : view.pool.lpMint = otherView.pool.lpMint) : key = other := by
  obtain ⟨f, hleft⟩ := h.lpMint
  obtain ⟨g, hright⟩ := hother.lpMint
  rw [hmint] at hleft
  have heq := congrArg Mint.mintAuthority (hleft.unique hright)
  apply d.deriveVaultAuthority_injective
  simpa using heq

/-! ## Token movements -/

theorem TokensMoved.noHolders {source destination authority mint : Pubkey}
    {amount : ℕ}
    (h : TokensMoved d before after source destination authority amount)
    (hunheld : NoHolders d before mint) : NoHolders d after mint := by
  obtain ⟨s, s', t, t', hs, hs', ht, ht', hsame, htsame, hmints, -, hle,
    hsamount, htamount⟩ := h.moved
  intro key r hr hrmint
  by_cases hsource : key = source
  · subst hsource
    have heq := hr.unique hs'
    subst heq
    have hzero := hunheld key s hs (hsame.mint.symm.trans hrmint)
    split at hsamount <;> omega
  by_cases hdestination : key = destination
  · subst hdestination
    have heq := hr.unique ht'
    subst heq
    have htmint := htsame.mint.symm.trans hrmint
    have hzero := hunheld key t ht htmint
    have hszero := hunheld source s hs (hmints.trans htmint)
    split at htamount <;> omega
  exact hunheld key r
    (hr.back (.of_eq (h.frame key hsource hdestination))) hrmint

/-- A transfer changes the vault by what it moves out of or into it, and only
the vault authority can move tokens out. -/
theorem Shows.tokensMoved {source destination authority : Pubkey}
    {amount : ℕ} (h : Shows d before key view)
    (hmoved :
      TokensMoved d before after source destination authority amount) :
    (source = view.pool.vault →
      authority = (d.deriveVaultAuthority key).1) ∧
    ∃ vaultAmount : U64,
      vaultAmount.toNat + (if source = view.pool.vault then amount else 0) =
        view.vaultAmount.toNat +
          (if destination = view.pool.vault then amount else 0) ∧
      Shows d after key { view with vaultAmount := vaultAmount } := by
  obtain ⟨s, s', t, t', hs, hs', ht, ht', hsame, htsame, -, hauth, -,
    hsamount, htamount⟩ := hmoved.moved
  have hauthority : source = view.pool.vault →
      authority = (d.deriveVaultAuthority key).1 := by
    intro hsource
    subst hsource
    have heq := hs.unique h.vault
    subst heq
    exact hauth.owner_eq rfl
  refine ⟨hauthority, ?_⟩
  obtain ⟨freezeAuthority, hmint⟩ := h.lpMint
  have hmintKept := hmoved.frame _ (hs.ne_of_mintAt hmint).symm
    (ht.ne_of_mintAt hmint).symm
  have hclose : ∀ w : U64, d.TokenAt after view.pool.vault
        ⟨view.pool.collateralMint, (d.deriveVaultAuthority key).1, w, none⟩ →
      Shows d after key { view with vaultAmount := w } := fun w hw =>
    h.of_frame hmoved.bankFrame hw
      ⟨freezeAuthority, hmint.of_sameContents (.of_eq hmintKept)⟩
      (fun hdegenerate => hmoved.noHolders (h.unheld hdegenerate))
  by_cases hsource : source = view.pool.vault
  · subst hsource
    have heq := hs.unique h.vault
    subst heq
    rw [hsame.of_undelegated rfl] at hs'
    refine ⟨s'.amount, ?_, hclose _ hs'⟩
    simpa using hsamount
  · by_cases hdestination : destination = view.pool.vault
    · subst hdestination
      have heq := ht.unique h.vault
      subst heq
      rw [htsame.of_undelegated rfl] at ht'
      refine ⟨t'.amount, ?_, hclose _ ht'⟩
      simpa [hsource] using htamount
    · have hkept := hmoved.frame view.pool.vault (Ne.symm hsource)
        (Ne.symm hdestination)
      refine ⟨view.vaultAmount, by simp [hsource, hdestination], hclose _ ?_⟩
      exact h.vault.of_sameContents (.of_eq hkept)

/-! ## Minting and burning -/

theorem TokensMinted.noHolders {mint account authority other : Pubkey}
    {amount : ℕ}
    (h : TokensMinted d before after mint account authority amount)
    (hne : mint ≠ other) (hunheld : NoHolders d before other) :
    NoHolders d after other := by
  obtain ⟨m, m', t, t', hm, hm', ht, ht', hsame, htmint, -⟩ := h.minted
  intro key r hr hrmint
  by_cases haccount : key = account
  · subst haccount
    have heq := hr.unique ht'
    subst heq
    exact absurd ((htmint.symm.trans hsame.mint.symm).trans hrmint) hne
  · have hkept := h.frame key (hr.ne_of_mintAt hm') haccount
    exact hunheld key r (hr.back (.of_eq hkept)) hrmint

theorem TokensBurned.noHolders {account mint authority other : Pubkey}
    {amount : ℕ}
    (h : TokensBurned d before after account mint authority amount)
    (hunheld : NoHolders d before other) : NoHolders d after other := by
  obtain ⟨m, m', t, t', hm, hm', ht, ht', hsame, -, -, -, -, -, hamount⟩ :=
    h.burned
  intro key r hr hrmint
  by_cases haccount : key = account
  · subst haccount
    have heq := hr.unique ht'
    subst heq
    have hzero := hunheld key t ht (hsame.mint.symm.trans hrmint)
    omega
  · have hkept := h.frame key (hr.ne_of_mintAt hm') haccount
    exact hunheld key r (hr.back (.of_eq hkept)) hrmint

/-- The vault and the LP mint after one mint and one account of it changed;
the changes of supply and balance are passed on as they are. -/
private theorem Shows.supplyChange {mint account : Pubkey}
    {m m' : Mint Pubkey} {t t' : TokenAccount Pubkey}
    (h : Shows d before key view) (hbank : Frame d before after)
    (hframe : ∀ other, other ≠ mint → other ≠ account →
      after.accounts other = before.accounts other)
    (hm : d.MintAt before mint m) (hm' : d.MintAt after mint m')
    (ht : d.TokenAt before account t) (ht' : d.TokenAt after account t')
    (hsame : t.SameHolder t') (hauthority : m'.mintAuthority = m.mintAuthority)
    (hunheld : view.pool.collateralMint = view.pool.lpMint →
      NoHolders d after view.pool.lpMint) :
    ∃ vaultAmount lpMintSupply : U64,
      (account = view.pool.vault →
        t.amount = view.vaultAmount ∧ t'.amount = vaultAmount) ∧
      (account ≠ view.pool.vault → vaultAmount = view.vaultAmount) ∧
      (mint = view.pool.lpMint →
        m.supply = view.lpMintSupply ∧ m'.supply = lpMintSupply) ∧
      (mint ≠ view.pool.lpMint → lpMintSupply = view.lpMintSupply) ∧
      Shows d after key
        { view with
          vaultAmount := vaultAmount
          lpMintSupply := lpMintSupply } := by
  obtain ⟨freezeAuthority, hlp⟩ := h.lpMint
  obtain ⟨w, hw, hwsame, hwother⟩ : ∃ w : U64,
      d.TokenAt after view.pool.vault
        ⟨view.pool.collateralMint, (d.deriveVaultAuthority key).1, w, none⟩ ∧
      (account = view.pool.vault →
        t.amount = view.vaultAmount ∧ t'.amount = w) ∧
      (account ≠ view.pool.vault → w = view.vaultAmount) := by
    by_cases haccount : account = view.pool.vault
    · subst haccount
      have heq := ht.unique h.vault
      subst heq
      rw [hsame.of_undelegated rfl] at ht'
      exact ⟨t'.amount, ht', fun _ => ⟨rfl, rfl⟩, fun hne => absurd rfl hne⟩
    · have hkept := hframe _ (h.vault.ne_of_mintAt hm) (Ne.symm haccount)
      exact ⟨view.vaultAmount, h.vault.of_sameContents (.of_eq hkept),
        fun heq => absurd heq haccount, fun _ => rfl⟩
  obtain ⟨supply, hsupply, hsupplySame, hsupplyOther⟩ : ∃ supply : U64,
      (∃ freeze, d.MintAt after view.pool.lpMint
        ⟨some (d.deriveVaultAuthority key).1, supply, freeze⟩) ∧
      (mint = view.pool.lpMint →
        m.supply = view.lpMintSupply ∧ m'.supply = supply) ∧
      (mint ≠ view.pool.lpMint → supply = view.lpMintSupply) := by
    by_cases hmint : mint = view.pool.lpMint
    · subst hmint
      have heq := hm.unique hlp
      subst heq
      obtain ⟨mintAuthority, supply, freeze⟩ := m'
      dsimp only at hauthority
      subst hauthority
      exact ⟨supply, ⟨freeze, hm'⟩, fun _ => ⟨rfl, rfl⟩,
        fun hne => absurd rfl hne⟩
    · have hkept := hframe _ (Ne.symm hmint) (ht.ne_of_mintAt hlp).symm
      exact ⟨view.lpMintSupply,
        ⟨freezeAuthority, hlp.of_sameContents (.of_eq hkept)⟩,
        fun heq => absurd heq hmint, fun _ => rfl⟩
  exact ⟨w, supply, hwsame, hwother, hsupplySame, hsupplyOther,
    h.of_frame hbank hw hsupply hunheld⟩

/-- A word that follows the change of another one at one place, and stays as
it is elsewhere. -/
private theorem toNat_changed_at {here : Prop} [Decidable here]
    {old new changed changed' : U64} {amount : ℕ}
    (hsame : here → changed = old ∧ changed' = new)
    (hother : ¬ here → new = old)
    (hchange : changed'.toNat = changed.toNat + amount) :
    new.toNat = old.toNat + (if here then amount else 0) := by
  split
  · next hhere =>
      obtain ⟨rfl, rfl⟩ := hsame hhere
      exact hchange
  · next hhere => rw [hother hhere, Nat.add_zero]

theorem Shows.tokensMinted {mint account authority : Pubkey} {amount : ℕ}
    (h : Shows d before key view)
    (hminted : TokensMinted d before after mint account authority amount)
    (hlive : view.pool.collateralMint = view.pool.lpMint →
      mint ≠ view.pool.lpMint) :
    (mint = view.pool.lpMint →
      authority = (d.deriveVaultAuthority key).1) ∧
    (account = view.pool.vault → mint = view.pool.collateralMint) ∧
    ∃ vaultAmount lpMintSupply : U64,
      vaultAmount.toNat = view.vaultAmount.toNat +
        (if account = view.pool.vault then amount else 0) ∧
      lpMintSupply.toNat = view.lpMintSupply.toNat +
        (if mint = view.pool.lpMint then amount else 0) ∧
      Shows d after key
        { view with
          vaultAmount := vaultAmount
          lpMintSupply := lpMintSupply } := by
  obtain ⟨m, m', t, t', hm, hm', ht, ht', hsame, htmint, hauth, hauth', -,
    hsupply, hamount⟩ := hminted.minted
  refine ⟨?_, ?_, ?_⟩
  · rintro rfl
    obtain ⟨freezeAuthority, hlp⟩ := h.lpMint
    have heq := hm.unique hlp
    subst heq
    simpa using hauth.symm
  · rintro rfl
    have heq := ht.unique h.vault
    subst heq
    exact htmint.symm
  · obtain ⟨w, supply, hwsame, hwother, hssame, hsother, hshows⟩ :=
      h.supplyChange hminted.bankFrame hminted.frame hm hm' ht ht' hsame
        hauth' (fun hdegenerate =>
          hminted.noHolders (hlive hdegenerate) (h.unheld hdegenerate))
    exact ⟨w, supply, toNat_changed_at hwsame hwother hamount,
      toNat_changed_at hssame hsother hsupply, hshows⟩

theorem Shows.tokensBurned {account mint authority : Pubkey} {amount : ℕ}
    (h : Shows d before key view)
    (hburned : TokensBurned d before after account mint authority amount) :
    (account = view.pool.vault →
      authority = (d.deriveVaultAuthority key).1) ∧
    ∃ vaultAmount lpMintSupply : U64,
      vaultAmount.toNat + (if account = view.pool.vault then amount else 0) =
        view.vaultAmount.toNat ∧
      lpMintSupply.toNat + (if mint = view.pool.lpMint then amount else 0) =
        view.lpMintSupply.toNat ∧
      Shows d after key
        { view with
          vaultAmount := vaultAmount
          lpMintSupply := lpMintSupply } := by
  obtain ⟨m, m', t, t', hm, hm', ht, ht', hsame, -, hauth, hauth', -,
    hsupply, hamount⟩ := hburned.burned
  refine ⟨?_, ?_⟩
  · rintro rfl
    have heq := ht.unique h.vault
    subst heq
    exact hauth.owner_eq rfl
  · obtain ⟨w, supply, hwsame, hwother, hssame, hsother, hshows⟩ :=
      h.supplyChange hburned.bankFrame hburned.frame hm hm' ht ht' hsame
        hauth' (fun hdegenerate =>
          hburned.noHolders (h.unheld hdegenerate))
    refine ⟨w, supply, ?_, ?_, hshows⟩
    · exact (toNat_changed_at (fun haccount => (hwsame haccount).symm)
        (fun haccount => (hwother haccount).symm) hamount).symm
    · exact (toNat_changed_at (fun hmint => (hssame hmint).symm)
        (fun hmint => (hsother hmint).symm) hsupply).symm

/-! ## Initialisation of token accounts and mints -/

theorem Shows.mintInitialized {mint mintAuthority : Pubkey}
    {freezeAuthority : Option Pubkey} (h : Shows d before key view)
    (hinit : MintInitialized d before after mint mintAuthority
      freezeAuthority) :
    view.pool.lpMint ≠ mint ∧ Shows d after key view := by
  obtain ⟨freeze, hlp⟩ := h.lpMint
  obtain ⟨length, hfresh⟩ := hinit.fresh
  have hne : view.pool.lpMint ≠ mint := by
    rintro rfl
    have hdata := hfresh.symm.trans hlp.2
    cases hdata
  have hneVault : view.pool.vault ≠ mint := by
    rintro rfl
    have hdata := hfresh.symm.trans h.vault.2
    cases hdata
  refine ⟨hne, h.of_frame hinit.bankFrame ?_ ?_ ?_⟩
  · exact h.vault.of_sameContents (.of_eq (hinit.frame _ hneVault))
  · exact ⟨freeze, hlp.of_sameContents (.of_eq (hinit.frame _ hne))⟩
  · intro hdegenerate other t ht htmint
    have hkept := hinit.frame other (ht.ne_of_mintAt hinit.initialized)
    exact h.unheld hdegenerate other t (ht.back (.of_eq hkept)) htmint

theorem Shows.tokenAccountInitialized {account mint owner : Pubkey}
    (h : Shows d before key view)
    (hinit : TokenAccountInitialized d before after account mint owner) :
    view.pool.vault ≠ account ∧ Shows d after key view := by
  obtain ⟨freeze, hlp⟩ := h.lpMint
  obtain ⟨length, hfresh⟩ := hinit.fresh
  obtain ⟨m, amount, hm, ht, hamount⟩ := hinit.initialized
  have hne : view.pool.lpMint ≠ account := by
    rintro rfl
    have hdata := hfresh.symm.trans hlp.2
    cases hdata
  have hneVault : view.pool.vault ≠ account := by
    rintro rfl
    have hdata := hfresh.symm.trans h.vault.2
    cases hdata
  refine ⟨hneVault, h.of_frame hinit.bankFrame ?_ ?_ ?_⟩
  · exact h.vault.of_sameContents (.of_eq (hinit.frame _ hneVault))
  · exact ⟨freeze, hlp.of_sameContents (.of_eq (hinit.frame _ hne))⟩
  · intro hdegenerate other r hr hrmint
    by_cases haccount : other = account
    · subst haccount
      have heq := hr.unique ht
      subst heq
      dsimp only at hrmint
      subst hrmint
      have heq := hm.unique hlp
      subst heq
      simpa using congrArg BitVec.toNat (hamount (by simp))
    · have hkept := hinit.frame other haccount
      exact h.unheld hdegenerate other r (hr.back (.of_eq hkept)) hrmint

theorem Shows.onlyForeignChanged (h : Shows d before key view)
    (hforeign : OnlyForeignChanged d before after) :
    Shows d after key view := by
  obtain ⟨freeze, hlp⟩ := h.lpMint
  refine h.of_frame hforeign.bankFrame (hforeign.tokenAt_iff.mpr h.vault)
    ⟨freeze, hforeign.mintAt hlp⟩ ?_
  intro hdegenerate other t ht htmint
  exact h.unheld hdegenerate other t (hforeign.tokenAt_iff.mp ht) htmint

theorem Shows.allocated {target : Pubkey} {space : ℕ}
    (h : Shows d before key view)
    (halloc : Allocated d before after target d.programId space) :
    Shows d after key view := by
  have hne : ∀ other, (before.accounts other).owner = d.splTokenId →
      other ≠ target := by
    rintro other howner rfl
    exact d.systemProgramId_ne_splTokenId (halloc.system.symm.trans howner)
  obtain ⟨freeze, hlp⟩ := h.lpMint
  refine h.of_frame halloc.bankFrame ?_ ?_ ?_
  · exact h.vault.of_sameContents (halloc.others _ (hne _ h.vault.1))
  · exact ⟨freeze, hlp.of_sameContents (halloc.others _ (hne _ hlp.1))⟩
  · intro hdegenerate other t ht htmint
    have hother : other ≠ target := by
      rintro rfl
      exact d.splTokenId_ne_programId (ht.1.symm.trans halloc.owned)
    exact h.unheld hdegenerate other t (ht.back (halloc.others _ hother))
      htmint

end Views

end PercolatorVault
