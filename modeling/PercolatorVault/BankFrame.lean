import PercolatorVault.Processor

/-!
# What the other programs leave alone

A call to another program, and anything that happens between two instructions
of this one, cannot touch the data of an account the vault program owns.
`Frame` records that, together with two facts about SPL Token: an initialised
mint stays one, and a token account always belongs to an initialised mint.
Every effect a call may have is shown to be a frame.
-/

namespace PercolatorVault

open CheckedArithmetic
open FallibleSteps

variable {Pubkey : Type}

/-! ## Accounts up to lamports -/

def Account.SameContents (before after : Account Pubkey) : Prop :=
  after.owner = before.owner ∧ after.data = before.data

theorem Account.SameContents.of_eq {before after : Account Pubkey}
    (h : after = before) : before.SameContents after := by
  subst h
  exact ⟨rfl, rfl⟩

theorem Account.SameContents.trans {first second third : Account Pubkey}
    (hleft : first.SameContents second) (hright : second.SameContents third) :
    first.SameContents third :=
  ⟨hright.1.trans hleft.1, hright.2.trans hleft.2⟩

namespace Deployment

variable {d : Deployment Pubkey} {bank before after : Bank Pubkey}
  {key other : Pubkey}

theorem TokenAt.unique {t t' : TokenAccount Pubkey}
    (h : d.TokenAt bank key t) (h' : d.TokenAt bank key t') : t = t' := by
  have hdata := h.2.symm.trans h'.2
  injection hdata

theorem MintAt.unique {m m' : Mint Pubkey}
    (h : d.MintAt bank key m) (h' : d.MintAt bank key m') : m = m' := by
  have hdata := h.2.symm.trans h'.2
  injection hdata

theorem TokenAt.ne_of_mintAt {t : TokenAccount Pubkey} {m : Mint Pubkey}
    (ht : d.TokenAt bank key t) (hm : d.MintAt bank other m) :
    key ≠ other := by
  rintro rfl
  have hdata := ht.2.symm.trans hm.2
  cases hdata

theorem TokenAt.of_sameContents {t : TokenAccount Pubkey}
    (hsame : (before.accounts key).SameContents (after.accounts key))
    (ht : d.TokenAt before key t) : d.TokenAt after key t :=
  ⟨hsame.1.trans ht.1, hsame.2.trans ht.2⟩

theorem MintAt.of_sameContents {m : Mint Pubkey}
    (hsame : (before.accounts key).SameContents (after.accounts key))
    (hm : d.MintAt before key m) : d.MintAt after key m :=
  ⟨hsame.1.trans hm.1, hsame.2.trans hm.2⟩

theorem TokenAt.back {t : TokenAccount Pubkey}
    (hsame : (before.accounts key).SameContents (after.accounts key))
    (ht : d.TokenAt after key t) : d.TokenAt before key t :=
  ⟨hsame.1.symm.trans ht.1, hsame.2.symm.trans ht.2⟩

end Deployment

/-- Every token account belongs to an initialised mint. -/
def MintsExist (d : Deployment Pubkey) (bank : Bank Pubkey) : Prop :=
  ∀ key t, d.TokenAt bank key t → ∃ m, d.MintAt bank t.mint m

/-- Nobody holds tokens of the mint. -/
def NoHolders (d : Deployment Pubkey) (bank : Bank Pubkey)
    (mint : Pubkey) : Prop :=
  ∀ key t, d.TokenAt bank key t → t.mint = mint → t.amount.toNat = 0

/-! ## The frame -/

structure Frame (d : Deployment Pubkey) (before after : Bank Pubkey) :
    Prop where
  kept : ∀ key, (before.accounts key).owner = d.programId →
    (before.accounts key).SameContents (after.accounts key)
  fresh : ∀ key, (after.accounts key).owner = d.programId →
    (before.accounts key).owner = d.programId ∨
      ∃ length, (after.accounts key).data = .zeroed length
  mints : ∀ key m, d.MintAt before key m → ∃ m', d.MintAt after key m'
  known : ∀ key t, d.TokenAt after key t →
    (∃ s, d.TokenAt before key s ∧ s.mint = t.mint) ∨
      ∃ m, d.MintAt after t.mint m

namespace Frame

variable {d : Deployment Pubkey} {first before after : Bank Pubkey}

theorem refl (d : Deployment Pubkey) (bank : Bank Pubkey) :
    Frame d bank bank where
  kept _ _ := ⟨rfl, rfl⟩
  fresh _ h := Or.inl h
  mints _ m hm := ⟨m, hm⟩
  known _ t ht := Or.inl ⟨t, ht, rfl⟩

theorem trans (hleft : Frame d first before) (hright : Frame d before after) :
    Frame d first after where
  kept key howned := by
    have hmiddle := hleft.kept key howned
    exact hmiddle.trans (hright.kept key (hmiddle.1.trans howned))
  fresh key howned := by
    rcases hright.fresh key howned with hmiddle | hzero
    · rcases hleft.fresh key hmiddle with hfirst | ⟨length, hzero⟩
      · exact Or.inl hfirst
      · exact Or.inr ⟨length, (hright.kept key hmiddle).2.trans hzero⟩
    · exact Or.inr hzero
  mints key m hm := by
    obtain ⟨m', hm'⟩ := hleft.mints key m hm
    exact hright.mints key m' hm'
  known key t ht := by
    rcases hright.known key t ht with ⟨s, hs, hsmint⟩ | hmint
    · rcases hleft.known key s hs with ⟨r, hr, hrmint⟩ | ⟨m, hm⟩
      · exact Or.inl ⟨r, hr, hrmint.trans hsmint⟩
      · rw [hsmint] at hm
        exact Or.inr (hright.mints _ m hm)
    · exact Or.inr hmint

theorem mintsExist (hframe : Frame d before after)
    (hbefore : MintsExist d before) : MintsExist d after := by
  intro key t ht
  rcases hframe.known key t ht with ⟨s, hs, hsmint⟩ | hmint
  · obtain ⟨m, hm⟩ := hbefore key s hs
    rw [hsmint] at hm
    exact hframe.mints _ m hm
  · exact hmint

/-- A data-carrying account of the program was already there before. -/
theorem kept_back (hframe : Frame d before after) {key : Pubkey}
    (howned : (after.accounts key).owner = d.programId)
    (hdata : ∀ length, (after.accounts key).data ≠ .zeroed length) :
    (before.accounts key).owner = d.programId ∧
      (before.accounts key).SameContents (after.accounts key) := by
  rcases hframe.fresh key howned with hbefore | ⟨length, hzero⟩
  · exact ⟨hbefore, hframe.kept key hbefore⟩
  · exact absurd hzero (hdata length)

/-- Changing only accounts of SPL Token leaves the program's accounts alone. -/
theorem of_tokenProgram
    (hrest : ∀ key, after.accounts key = before.accounts key ∨
      ((before.accounts key).owner = d.splTokenId ∧
        (after.accounts key).owner = d.splTokenId))
    (hmints : ∀ key m, d.MintAt before key m → ∃ m', d.MintAt after key m')
    (hknown : ∀ key t, d.TokenAt after key t →
      (∃ s, d.TokenAt before key s ∧ s.mint = t.mint) ∨
        ∃ m, d.MintAt after t.mint m) :
    Frame d before after where
  kept key howned := by
    rcases hrest key with heq | ⟨hbefore, _⟩
    · exact .of_eq heq
    · exact absurd (hbefore.symm.trans howned) d.splTokenId_ne_programId
  fresh key howned := by
    rcases hrest key with heq | ⟨_, hafter⟩
    · rw [heq] at howned
      exact Or.inl howned
    · exact absurd (hafter.symm.trans howned) d.splTokenId_ne_programId
  mints := hmints
  known := hknown

end Frame

/-! ## Effects of calls are frames -/

section Effects

variable {d : Deployment Pubkey} {before after : Bank Pubkey}

theorem TokensMoved.bankFrame [DecidableEq Pubkey]
    {source destination authority : Pubkey} {amount : ℕ}
    (h : TokensMoved d before after source destination authority amount) :
    Frame d before after := by
  obtain ⟨s, s', t, t', hs, hs', ht, ht', hsame, htsame, -⟩ := h.moved
  apply Frame.of_tokenProgram
  · intro key
    by_cases hsource : key = source
    · subst hsource
      exact Or.inr ⟨hs.1, hs'.1⟩
    by_cases hdestination : key = destination
    · subst hdestination
      exact Or.inr ⟨ht.1, ht'.1⟩
    exact Or.inl (h.frame key hsource hdestination)
  · intro key m hm
    have hframe := h.frame key (hs.ne_of_mintAt hm).symm
      (ht.ne_of_mintAt hm).symm
    exact ⟨m, hm.of_sameContents (.of_eq hframe)⟩
  · intro key r hr
    by_cases hsource : key = source
    · subst hsource
      rw [hr.unique hs']
      exact Or.inl ⟨s, hs, hsame.mint.symm⟩
    by_cases hdestination : key = destination
    · subst hdestination
      rw [hr.unique ht']
      exact Or.inl ⟨t, ht, htsame.mint.symm⟩
    exact Or.inl ⟨r, hr.back (.of_eq (h.frame key hsource hdestination)), rfl⟩

/-- Minting and burning change one mint and one account of it. -/
private theorem frame_of_supplyChange {mint account : Pubkey}
    {m m' : Mint Pubkey} {t t' : TokenAccount Pubkey}
    (hframe : ∀ key, key ≠ mint → key ≠ account →
      after.accounts key = before.accounts key)
    (hm : d.MintAt before mint m) (hm' : d.MintAt after mint m')
    (ht : d.TokenAt before account t) (ht' : d.TokenAt after account t')
    (hsame : t.SameHolder t') : Frame d before after := by
  apply Frame.of_tokenProgram
  · intro key
    by_cases hmint : key = mint
    · subst hmint
      exact Or.inr ⟨hm.1, hm'.1⟩
    by_cases haccount : key = account
    · subst haccount
      exact Or.inr ⟨ht.1, ht'.1⟩
    exact Or.inl (hframe key hmint haccount)
  · intro key n hn
    by_cases hmint : key = mint
    · subst hmint
      exact ⟨m', hm'⟩
    have hsameKey := hframe key hmint (ht.ne_of_mintAt hn).symm
    exact ⟨n, hn.of_sameContents (.of_eq hsameKey)⟩
  · intro key r hr
    by_cases haccount : key = account
    · subst haccount
      rw [hr.unique ht']
      exact Or.inl ⟨t, ht, hsame.mint.symm⟩
    have hsameKey := hframe key (hr.ne_of_mintAt hm') haccount
    exact Or.inl ⟨r, hr.back (.of_eq hsameKey), rfl⟩

theorem TokensMinted.bankFrame {mint account authority : Pubkey} {amount : ℕ}
    (h : TokensMinted d before after mint account authority amount) :
    Frame d before after := by
  obtain ⟨m, m', t, t', hm, hm', ht, ht', hsame, -⟩ := h.minted
  exact frame_of_supplyChange h.frame hm hm' ht ht' hsame

theorem TokensBurned.bankFrame {account mint authority : Pubkey} {amount : ℕ}
    (h : TokensBurned d before after account mint authority amount) :
    Frame d before after := by
  obtain ⟨m, m', t, t', hm, hm', ht, ht', hsame, -⟩ := h.burned
  exact frame_of_supplyChange h.frame hm hm' ht ht' hsame

theorem MintInitialized.bankFrame {mint mintAuthority : Pubkey}
    {freezeAuthority : Option Pubkey}
    (h : MintInitialized d before after mint mintAuthority freezeAuthority) :
    Frame d before after := by
  apply Frame.of_tokenProgram
  · intro key
    by_cases hmint : key = mint
    · subst hmint
      exact Or.inr ⟨h.tokenOwned, h.initialized.1⟩
    exact Or.inl (h.frame key hmint)
  · intro key m hm
    by_cases hmint : key = mint
    · subst hmint
      exact ⟨_, h.initialized⟩
    exact ⟨m, hm.of_sameContents (.of_eq (h.frame key hmint))⟩
  · intro key t ht
    have hne := ht.ne_of_mintAt h.initialized
    exact Or.inl ⟨t, ht.back (.of_eq (h.frame key hne)), rfl⟩

theorem TokenAccountInitialized.bankFrame {account mint owner : Pubkey}
    (h : TokenAccountInitialized d before after account mint owner) :
    Frame d before after := by
  obtain ⟨m, amount, hm, ht, -⟩ := h.initialized
  obtain ⟨length, hfresh⟩ := h.fresh
  have hne : ∀ key n, d.MintAt before key n → key ≠ account := by
    rintro key n hn rfl
    have hdata := hfresh.symm.trans hn.2
    cases hdata
  have hmints : ∀ key n, d.MintAt before key n → d.MintAt after key n :=
    fun key n hn =>
      hn.of_sameContents (.of_eq (h.frame key (hne key n hn)))
  apply Frame.of_tokenProgram
  · intro key
    by_cases haccount : key = account
    · subst haccount
      exact Or.inr ⟨h.tokenOwned, ht.1⟩
    exact Or.inl (h.frame key haccount)
  · intro key n hn
    exact ⟨n, hmints key n hn⟩
  · intro key r hr
    by_cases haccount : key = account
    · subst haccount
      rw [hr.unique ht]
      exact Or.inr ⟨m, hmints mint m hm⟩
    exact Or.inl ⟨r, hr.back (.of_eq (h.frame key haccount)), rfl⟩

theorem OnlyForeignChanged.tokenAt_iff
    (h : OnlyForeignChanged d before after) {key : Pubkey}
    {t : TokenAccount Pubkey} :
    d.TokenAt after key t ↔ d.TokenAt before key t := by
  constructor
  · intro ht
    exact ht.back (.of_eq (h.frame key (.inr (.inr (.inr ht.1)))))
  · intro ht
    exact ht.of_sameContents (.of_eq (h.frame key (.inr (.inl ht.1))))

theorem OnlyForeignChanged.mintAt (h : OnlyForeignChanged d before after)
    {key : Pubkey} {m : Mint Pubkey} (hm : d.MintAt before key m) :
    d.MintAt after key m :=
  hm.of_sameContents (.of_eq (h.frame key (.inr (.inl hm.1))))

theorem OnlyForeignChanged.bankFrame
    (h : OnlyForeignChanged d before after) : Frame d before after where
  kept key howned := .of_eq (h.frame key (.inl howned))
  fresh key howned := by
    rw [h.frame key (.inr (.inr (.inl howned)))] at howned
    exact Or.inl howned
  mints key m hm := ⟨m, h.mintAt hm⟩
  known key t ht := Or.inl ⟨t, h.tokenAt_iff.mp ht, rfl⟩

end Effects

/-! ## Creating a program account -/

/-- A system account became an account of `owner` holding `space` zero bytes;
elsewhere at most lamports moved. -/
structure Allocated (d : Deployment Pubkey) (before after : Bank Pubkey)
    (target owner : Pubkey) (space : ℕ) : Prop where
  clock : after.clock = before.clock
  system : (before.accounts target).owner = d.systemProgramId
  empty : (before.accounts target).data = .zeroed 0
  owned : (after.accounts target).owner = owner
  zeroed : (after.accounts target).data = .zeroed space
  others : ∀ key, key ≠ target →
    (before.accounts key).SameContents (after.accounts key)

theorem Allocated.bankFrame {d : Deployment Pubkey} {before after : Bank Pubkey}
    {target : Pubkey} {space : ℕ}
    (h : Allocated d before after target d.programId space) :
    Frame d before after := by
  have htarget : ∀ key, (before.accounts key).owner = d.programId →
      key ≠ target := by
    rintro key howned rfl
    exact d.systemProgramId_ne_programId (h.system.symm.trans howned)
  have htoken : ∀ key, (after.accounts key).owner = d.splTokenId →
      key ≠ target := by
    rintro key howned rfl
    exact d.splTokenId_ne_programId (howned.symm.trans h.owned)
  have hmint : ∀ key, (before.accounts key).owner = d.splTokenId →
      key ≠ target := by
    rintro key howned rfl
    exact d.systemProgramId_ne_splTokenId (h.system.symm.trans howned)
  refine ⟨fun key howned => h.others key (htarget key howned), ?_, ?_, ?_⟩
  · intro key howned
    by_cases heq : key = target
    · subst heq
      exact Or.inr ⟨space, h.zeroed⟩
    · exact Or.inl ((h.others key heq).1.symm.trans howned)
  · intro key m hm
    exact ⟨m, hm.of_sameContents (h.others key (hmint key hm.1))⟩
  · intro key t ht
    exact Or.inl ⟨t, ht.back (h.others key (htoken key ht.1)), rfl⟩

section Creation

variable [DecidableEq Pubkey] {rt : Runtime Pubkey}

theorem Bank.setLamports_sameContents (bank : Bank Pubkey)
    (target key : Pubkey) (lamports : U64) :
    (bank.accounts key).SameContents
      ((bank.setLamports target lamports).accounts key) :=
  ⟨bank.setLamports_owner target key lamports,
    bank.setLamports_data target key lamports⟩

theorem createOrAdoptPda_allocated {target payer : AccountInfo Pubkey}
    {owner : Pubkey} {space : ℕ} {signerSeeds : List (Seed Pubkey)}
    {before after : Bank Pubkey} (hspace : space < 2 ^ 64)
    (h : createOrAdoptPda rt target payer owner space signerSeeds before =
      .ok after) :
    Allocated rt.toDeployment before after target.key owner space := by
  have hwidth : (BitVec.ofNat 64 space).toNat = space := by
    rw [BitVec.toNat_ofNat, Nat.mod_eq_of_lt hspace]
  unfold createOrAdoptPda at h
  dsimp only at h
  split at h
  · obtain ⟨_, _, _, htarget, rfl⟩ := rt.invokeSigned_effect h
    refine ⟨rfl, by rw [htarget], by rw [htarget], by simp,
      by simp [hwidth], ?_⟩
    intro key hkey
    rw [Bank.setAccount_other _ _ hkey]
    exact before.setLamports_sameContents _ _ _
  · simp only [bind_eq_ok] at h
    obtain ⟨funded, hfunded, allocated, hallocate, hassign⟩ := h
    have hlamports : funded.clock = before.clock ∧ ∀ key,
        (before.accounts key).SameContents (funded.accounts key) := by
      split at hfunded
      · obtain ⟨_, _, _, rfl, rfl⟩ := rt.invokeSigned_effect hfunded
        refine ⟨rfl, fun key => ?_⟩
        exact (before.setLamports_sameContents _ _ _).trans
          (Bank.setLamports_sameContents _ _ _ _)
      · cases hfunded
        exact ⟨rfl, fun key => ⟨rfl, rfl⟩⟩
    obtain ⟨hsystem, hempty, rfl⟩ := rt.invokeSigned_effect hallocate
    obtain ⟨-, rfl⟩ := rt.invokeSigned_effect hassign
    refine ⟨hlamports.1, ?_, ?_, ?_, ?_, ?_⟩
    · exact (hlamports.2 _).1.symm.trans hsystem
    · exact (hlamports.2 _).2.symm.trans hempty
    · simp [Bank.setOwner]
    · simp [Bank.setOwner, hwidth]
    · intro key hkey
      refine (hlamports.2 key).trans (.of_eq ?_)
      rw [Bank.setOwner, Bank.setAccount_other _ _ hkey,
        Bank.setData_other _ _ hkey]

end Creation

/-! ## What a token call cannot have changed -/

section Unchanged

variable {d : Deployment Pubkey} {before after : Bank Pubkey} {key : Pubkey}

theorem TokensMoved.accounts_eq [DecidableEq Pubkey]
    {source destination authority : Pubkey} {amount : ℕ}
    (h : TokensMoved d before after source destination authority amount)
    (hkey : ∀ t, ¬ d.TokenAt after key t) :
    after.accounts key = before.accounts key := by
  obtain ⟨-, s', -, t', -, hs', -, ht', -⟩ := h.moved
  apply h.frame
  · rintro rfl
    exact hkey s' hs'
  · rintro rfl
    exact hkey t' ht'

theorem TokensMinted.accounts_eq {mint account authority : Pubkey}
    {amount : ℕ}
    (h : TokensMinted d before after mint account authority amount)
    (hkey : ∀ t, ¬ d.TokenAt after key t)
    (hmint : ∀ m, ¬ d.MintAt after key m) :
    after.accounts key = before.accounts key := by
  obtain ⟨-, m', -, t', -, hm', -, ht', -⟩ := h.minted
  apply h.frame
  · rintro rfl
    exact hmint m' hm'
  · rintro rfl
    exact hkey t' ht'

theorem TokensBurned.accounts_eq {account mint authority : Pubkey}
    {amount : ℕ}
    (h : TokensBurned d before after account mint authority amount)
    (hkey : ∀ t, ¬ d.TokenAt after key t)
    (hmint : ∀ m, ¬ d.MintAt after key m) :
    after.accounts key = before.accounts key := by
  obtain ⟨-, m', -, t', -, hm', -, ht', -⟩ := h.burned
  apply h.frame
  · rintro rfl
    exact hmint m' hm'
  · rintro rfl
    exact hkey t' ht'

end Unchanged

end PercolatorVault
