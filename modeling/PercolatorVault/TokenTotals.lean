import PercolatorVault.WithdrawAcceptance

/-!
# Token balances in sum

What the accounts of a finite set hold of each mint together.  SPL Token keeps
these totals within the supply of the mint and within 64 bits; payments inside
the set do not change them and a burn takes as much from the supply.
-/

namespace PercolatorVault

open CheckedArithmetic
open FiniteTallies

variable {Pubkey : Type} [DecidableEq Pubkey] {d : Deployment Pubkey}
  {before after bank : Bank Pubkey} {mint key : Pubkey}

/-- Tokens of `mint` in the account at `key`. -/
def tokensOf (d : Deployment Pubkey) (bank : Bank Pubkey)
    (mint key : Pubkey) : ℕ :=
  match (bank.accounts key).data with
  | .tokenAccount t =>
      if (bank.accounts key).owner = d.splTokenId ∧ t.mint = mint then
        t.amount.toNat
      else 0
  | _ => 0

/-- What the accounts hold of a mint together fits in 64 bits, and in the
supply of the mint unless it is the native one. -/
structure TokenTotals (d : Deployment Pubkey) (bank : Bank Pubkey)
    (keys : Finset Pubkey) : Prop where
  supplied : ∀ mint m, d.MintAt bank mint m → m.mintAuthority ≠ none →
    ∑ key ∈ keys, tokensOf d bank mint key ≤ m.supply.toNat
  fits : ∀ mint, ∑ key ∈ keys, tokensOf d bank mint key < 2 ^ 64

theorem tokensOf_of_tokenAt {t : TokenAccount Pubkey}
    (ht : d.TokenAt bank key t) :
    tokensOf d bank mint key = if t.mint = mint then t.amount.toNat else 0 := by
  unfold tokensOf
  rw [ht.2]
  simp only [ht.1, true_and]

theorem tokensOf_of_not_tokenAt (h : ∀ t, ¬ d.TokenAt bank key t) :
    tokensOf d bank mint key = 0 := by
  unfold tokensOf
  cases hdata : (bank.accounts key).data with
  | tokenAccount t =>
      dsimp only
      rw [if_neg fun hheld => h t ⟨hheld.1, hdata⟩]
  | _ => rfl

/-- The same token account before and after holds the same. -/
theorem tokensOf_congr
    (h : ∀ t, d.TokenAt after key t ↔ d.TokenAt before key t) :
    tokensOf d after mint key = tokensOf d before mint key := by
  by_cases htoken : ∃ t, d.TokenAt before key t
  · obtain ⟨t, ht⟩ := htoken
    rw [tokensOf_of_tokenAt ht, tokensOf_of_tokenAt ((h t).mpr ht)]
  · rw [not_exists] at htoken
    rw [tokensOf_of_not_tokenAt htoken,
      tokensOf_of_not_tokenAt fun t ht => htoken t ((h t).mp ht)]

theorem tokensOf_of_accounts_eq
    (h : after.accounts key = before.accounts key) :
    tokensOf d after mint key = tokensOf d before mint key := by
  unfold tokensOf
  rw [h]

namespace TokenTotals

variable {keys : Finset Pubkey}

/-- Single balances and pairs of balances are within these bounds. -/
theorem tokenBooks (h : TokenTotals d bank keys) {listed : List Pubkey}
    (hlisted : ∀ key ∈ listed, key ∈ keys) : TokenBooks d bank listed where
  supplied key hkey t m ht hm hauthority := by
    refine le_trans ?_ (h.supplied _ m hm hauthority)
    have hheld : t.amount.toNat = tokensOf d bank t.mint key := by
      rw [tokensOf_of_tokenAt ht, if_pos rfl]
    rw [hheld]
    exact Finset.single_le_sum_of_canonicallyOrdered (hlisted key hkey)
  fits key hkey key' hkey' hne t t' ht ht' hmint := by
    refine lt_of_le_of_lt ?_ (h.fits t.mint)
    have hpair : t.amount.toNat + t'.amount.toNat =
        ∑ other ∈ {key, key'}, tokensOf d bank t.mint other := by
      rw [Finset.sum_pair hne, tokensOf_of_tokenAt ht, if_pos rfl,
        tokensOf_of_tokenAt ht', if_pos hmint.symm]
    rw [hpair]
    apply Finset.sum_le_sum_of_subset
    intro other hother
    rw [Finset.mem_insert, Finset.mem_singleton] at hother
    rcases hother with rfl | rfl
    · exact hlisted _ hkey
    · exact hlisted _ hkey'

/-- A payment inside the set. -/
theorem tokensMoved (h : TokenTotals d before keys)
    {source destination authority : Pubkey} {amount : ℕ}
    (hmoved : TokensMoved d before after source destination authority amount)
    (hsource : source ∈ keys) (hdestination : destination ∈ keys)
    (hne : source ≠ destination) : TokenTotals d after keys := by
  obtain ⟨s, s', t, t', hs, hs', ht, ht', hsame, htsame, hmint, -, -, hsent,
    hreceived⟩ := hmoved.moved
  rw [if_neg hne.symm] at hsent
  rw [if_neg hne] at hreceived
  have hsum : ∀ mint, ∑ key ∈ keys, tokensOf d after mint key =
      ∑ key ∈ keys, tokensOf d before mint key := by
    intro mint
    by_cases hpaid : s.mint = mint
    · have hdebit : tokensOf d after mint source + amount =
          tokensOf d before mint source := by
        rw [tokensOf_of_tokenAt hs, tokensOf_of_tokenAt hs', hsame.mint,
          if_pos hpaid, if_pos hpaid, hsent]
        rfl
      have hcredit : tokensOf d after mint destination =
          tokensOf d before mint destination + amount := by
        rw [tokensOf_of_tokenAt ht, tokensOf_of_tokenAt ht', htsame.mint,
          ← hmint, if_pos hpaid, if_pos hpaid, ← hreceived]
        rfl
      exact sum_of_move hsource hdestination hne hdebit hcredit
        fun key hkey hkey' =>
          tokensOf_of_accounts_eq (hmoved.frame key hkey hkey')
    · apply Finset.sum_congr rfl
      intro key _
      by_cases hkey : key = source
      · rw [hkey, tokensOf_of_tokenAt hs, tokensOf_of_tokenAt hs',
          hsame.mint, if_neg hpaid, if_neg hpaid]
      · by_cases hkey' : key = destination
        · rw [hkey', tokensOf_of_tokenAt ht, tokensOf_of_tokenAt ht',
            htsame.mint, ← hmint, if_neg hpaid, if_neg hpaid]
        · exact tokensOf_of_accounts_eq (hmoved.frame key hkey hkey')
  constructor
  · intro mint m hm hauthority
    rw [hsum]
    have hkept := hmoved.frame mint (hs'.ne_of_mintAt hm).symm
      (ht'.ne_of_mintAt hm).symm
    exact h.supplied mint m (hm.of_sameContents (.of_eq hkept.symm))
      hauthority
  · intro mint
    rw [hsum]
    exact h.fits mint

/-- A burn inside the set. -/
theorem tokensBurned (h : TokenTotals d before keys)
    {account burnedMint authority : Pubkey} {amount : ℕ}
    (hburned :
      TokensBurned d before after account burnedMint authority amount)
    (haccount : account ∈ keys) : TokenTotals d after keys := by
  obtain ⟨m, m', t, t', hm, hm', ht, ht', hsame, hmint, -, hauthority, -,
    hsupply, hamount⟩ := hburned.burned
  have hkept : ∀ mint key, key ≠ account →
      tokensOf d after mint key = tokensOf d before mint key := by
    intro mint key hkey
    by_cases hkey' : key = burnedMint
    · rw [hkey', tokensOf_of_not_tokenAt fun s hs => hs.ne_of_mintAt hm rfl,
        tokensOf_of_not_tokenAt fun s hs => hs.ne_of_mintAt hm' rfl]
    · exact tokensOf_of_accounts_eq (hburned.frame key hkey' hkey)
  have hsum : ∀ mint, ∑ key ∈ keys, tokensOf d after mint key +
      (if mint = burnedMint then amount else 0) =
        ∑ key ∈ keys, tokensOf d before mint key := by
    intro mint
    apply sum_of_debit haccount _ (hkept mint)
    rw [tokensOf_of_tokenAt ht, tokensOf_of_tokenAt ht', hsame.mint, hmint,
      hamount]
    split
    · next heq => rw [if_pos heq.symm]
    · next hne => rw [if_neg fun heq => hne heq.symm]
  constructor
  · intro mint n hn hauthority'
    have hbefore := hsum mint
    by_cases hburnedMint : mint = burnedMint
    · rw [if_pos hburnedMint] at hbefore
      rw [hburnedMint] at hn hbefore ⊢
      cases hn.unique hm'
      have hbound := h.supplied burnedMint m hm (hauthority ▸ hauthority')
      omega
    · rw [if_neg hburnedMint] at hbefore
      have hframe := hburned.frame mint hburnedMint
        (ht'.ne_of_mintAt hn).symm
      have hbound := h.supplied mint n
        (hn.of_sameContents (.of_eq hframe.symm)) hauthority'
      omega
  · intro mint
    have hbefore := hsum mint
    have hbound := h.fits mint
    omega

/-- A write to a record of the program. -/
theorem stored (h : TokenTotals d before keys) {target : Pubkey}
    {data : AccountData Pubkey} (hstored : Stored d before after target data) :
    TokenTotals d after keys := by
  have hsum : ∀ mint, ∑ key ∈ keys, tokensOf d after mint key =
      ∑ key ∈ keys, tokensOf d before mint key := fun mint =>
    Finset.sum_congr rfl fun key _ =>
      tokensOf_congr fun _ => hstored.tokenAt_iff
  constructor
  · intro mint m hm hauthority
    rw [hsum]
    have howned := (hstored.owner_eq mint).symm.trans hm.1
    have hkept := hstored.accounts_eq_of_foreign
      (howned ▸ d.splTokenId_ne_programId)
    exact h.supplied mint m (hm.of_sameContents (.of_eq hkept.symm))
      hauthority
  · intro mint
    rw [hsum]
    exact h.fits mint

/-- A withdrawal inside the set. -/
theorem withdrawn {rt : Runtime Pubkey} {before after : Bank Pubkey}
    {accounts : List (AccountInfo Pubkey)} {lpAmount : U64}
    (h : TokenTotals rt.toDeployment before keys)
    (t : WithdrawTrace rt accounts lpAmount before after)
    (hlpTokens : t.a.userLpAta.key ∈ keys) (hvault : t.a.vault.key ∈ keys)
    (hpayee : t.a.userAta.key ∈ keys)
    (hne : t.a.vault.key ≠ t.a.userAta.key) :
    TokenTotals rt.toDeployment after keys :=
  (((h.tokensBurned t.hburned hlpTokens).tokensMoved t.hpaid hvault hpayee
    hne).stored t.hrecorded).stored t.hafter

end TokenTotals

namespace Reference

/-- No account of the set holds another mint than these, and their totals
are kept. -/
def keepsTotals (bank : Bank Address) (keys mints : Finset Address) : Bool :=
  decide (∀ key ∈ keys, (tokenAccount bank key).toOption.all
    fun t => decide (t.mint ∈ mints)) &&
  decide (∀ mint ∈ mints,
    ∑ key ∈ keys, tokensOf deployment bank mint key < 2 ^ 64 ∧
      (mintAccount bank mint).toOption.all fun m =>
        decide (m.mintAuthority = none ∨
          ∑ key ∈ keys, tokensOf deployment bank mint key ≤
            m.supply.toNat))

theorem tokenTotals_of_keepsTotals {bank : Bank Address}
    {keys mints : Finset Address} (h : keepsTotals bank keys mints = true) :
    TokenTotals deployment bank keys := by
  simp only [keepsTotals, Bool.and_eq_true, decide_eq_true_eq] at h
  obtain ⟨hmints, htotals⟩ := h
  have hnone : ∀ mint, mint ∉ mints →
      ∑ key ∈ keys, tokensOf deployment bank mint key = 0 := by
    intro mint hmint
    apply Finset.sum_eq_zero
    intro key hkey
    by_cases htoken : ∃ t, deployment.TokenAt bank key t
    · obtain ⟨t, ht⟩ := htoken
      have hmem := hmints key hkey
      rw [tokenAccount_eq_ok.mpr ht] at hmem
      simp only [Except.toOption, Option.all_some, decide_eq_true_eq] at hmem
      rw [tokensOf_of_tokenAt ht, if_neg (by rintro rfl; exact hmint hmem)]
    · rw [not_exists] at htoken
      exact tokensOf_of_not_tokenAt htoken
  constructor
  · intro mint m hm hauthority
    by_cases hmint : mint ∈ mints
    · have hsupplied := (htotals mint hmint).2
      rw [mintAccount_eq_ok.mpr hm] at hsupplied
      simp only [Except.toOption, Option.all_some, decide_eq_true_eq]
        at hsupplied
      exact hsupplied.resolve_left hauthority
    · rw [hnone mint hmint]
      exact Nat.zero_le _
  · intro mint
    by_cases hmint : mint ∈ mints
    · exact (htotals mint hmint).1
    · rw [hnone mint hmint]
      decide

end Reference

end PercolatorVault
