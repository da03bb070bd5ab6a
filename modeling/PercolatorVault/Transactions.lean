import PercolatorVault.Runs

/-!
# Transactions that can be executed

A run is a list of events between banks.  Here the events are produced by
executing transactions: calls of the vault program, transfers and burns signed
by ordinary wallets, the opening of token accounts, and the passing of time.
Each of the latter is something `Outside` allows.
-/

namespace PercolatorVault

open CheckedArithmetic
open FallibleSteps

variable {Pubkey : Type}

/-! ## What wallets can do -/

namespace Outside

variable {d : Deployment Pubkey} {before after : Bank Pubkey}

/-- Nobody but the program authorizes a transfer out of its accounts. -/
theorem authority_of_programOwned {t : TokenAccount Pubkey}
    {authority : Pubkey} (hauthorizes : t.Authorizes authority)
    (howner : d.IsProgramAddress t.owner) (hdelegate : t.delegate = none) :
    d.IsProgramAddress authority := by
  rw [hauthorizes.owner_eq hdelegate]
  exact howner

theorem of_tokensMoved [DecidableEq Pubkey]
    {source destination authority : Pubkey} {amount : ℕ}
    (h : TokensMoved d before after source destination authority amount)
    (hwallet : ¬ d.IsProgramAddress authority) :
    Outside d before after (fun _ => 0) where
  frame := h.bankFrame
  vaults key t ht howner hdelegate := by
    obtain ⟨s, -, r, r', hs, -, hr, hr', -, hsame, -, hauthorizes, -, -,
      hamount⟩ := h.moved
    have hsource : key ≠ source := by
      rintro rfl
      rw [← ht.unique hs] at hauthorizes
      exact hwallet
        (authority_of_programOwned hauthorizes howner hdelegate)
    by_cases hdestination : key = destination
    · subst hdestination
      have heq := hr.unique ht
      subst heq
      rw [if_neg (Ne.symm hsource)] at hamount
      have hafter := hsame.of_undelegated hdelegate
      refine ⟨r'.amount, by omega, ?_⟩
      rw [hafter] at hr'
      cases r
      cases hdelegate
      exact hr'
    · exact ⟨t.amount, le_rfl,
        ht.of_sameContents (.of_eq (h.frame key hsource hdestination))⟩
  supplies key m authority' hm _ _ := by
    obtain ⟨s, -, r, -, hs, -, hr, -⟩ := h.moved
    have hframe := h.frame key (hs.ne_of_mintAt hm).symm
      (hr.ne_of_mintAt hm).symm
    exact ⟨m.supply, m.freezeAuthority, rfl,
      hm.of_sameContents (.of_eq hframe)⟩
  unheld key m authority' hm _ _ hempty := by
    obtain ⟨s, s', r, r', hs, hs', hr, hr', hssame, hrsame, hmint, -, hle,
      hsent, hreceived⟩ := h.moved
    intro other t ht htmint
    by_cases hsource : other = source
    · subst hsource
      have heq := ht.unique hs'
      subst heq
      have hzero := hempty other s hs (hssame.mint.symm.trans htmint)
      split at hsent <;> omega
    by_cases hdestination : other = destination
    · subst hdestination
      have heq := ht.unique hr'
      subst heq
      have hrmint := hrsame.mint.symm.trans htmint
      have hzero := hempty other r hr hrmint
      have hszero := hempty source s hs (hmint.trans hrmint)
      split at hreceived <;> omega
    · exact hempty other t
        (ht.back (.of_eq (h.frame other hsource hdestination))) htmint
  burnedMint _ hburned := absurd rfl hburned

theorem of_tokensBurned [DecidableEq Pubkey]
    {account mint authority : Pubkey} {amount : ℕ}
    (h : TokensBurned d before after account mint authority amount)
    (hwallet : ¬ d.IsProgramAddress authority) :
    Outside d before after (fun key => if key = mint then amount else 0) where
  frame := h.bankFrame
  vaults key t ht howner hdelegate := by
    obtain ⟨m, -, s, -, hm, -, hs, -, -, -, hauthorizes, -⟩ := h.burned
    have haccount : key ≠ account := by
      rintro rfl
      rw [← ht.unique hs] at hauthorizes
      exact hwallet
        (authority_of_programOwned hauthorizes howner hdelegate)
    exact ⟨t.amount, le_rfl, ht.of_sameContents
      (.of_eq (h.frame key (ht.ne_of_mintAt hm) haccount))⟩
  supplies key m authority' hm _ _ := by
    obtain ⟨n, n', s, -, hn, hn', hs, -, -, -, -, hauthority, -, hsupply,
      -⟩ := h.burned
    by_cases hkey : key = mint
    · subst hkey
      have heq := hm.unique hn
      subst heq
      refine ⟨n'.supply, n'.freezeAuthority, ?_, ?_⟩
      · rw [if_pos rfl]
        omega
      · rw [← hauthority]
        exact hn'
    · have hframe := h.frame key hkey (hs.ne_of_mintAt hm).symm
      refine ⟨m.supply, m.freezeAuthority, ?_,
        hm.of_sameContents (.of_eq hframe)⟩
      rw [if_neg hkey]
      rfl
  unheld key m authority' hm _ _ hempty := by
    obtain ⟨n, n', s, s', hn, hn', hs, hs', hsame, -, -, -, -, -, hheld⟩ :=
      h.burned
    intro other t ht htmint
    by_cases haccount : other = account
    · subst haccount
      have heq := ht.unique hs'
      subst heq
      have hzero := hempty other s hs (hsame.mint.symm.trans htmint)
      omega
    · have hframe := h.frame other (ht.ne_of_mintAt hn') haccount
      exact hempty other t (ht.back (.of_eq hframe)) htmint
  burnedMint key hburned := by
    obtain ⟨m, -, -, -, hm, -⟩ := h.burned
    by_cases hkey : key = mint
    · subst hkey
      exact ⟨m, hm⟩
    · rw [if_neg hkey] at hburned
      exact absurd rfl hburned

theorem of_tokenAccountInitialized {account mint owner : Pubkey}
    (h : TokenAccountInitialized d before after account mint owner) :
    Outside d before after (fun _ => 0) := by
  obtain ⟨length, hfresh⟩ := h.fresh
  have htoken : ∀ key t, d.TokenAt before key t → key ≠ account := by
    rintro key t ht rfl
    have hdata := hfresh.symm.trans ht.2
    cases hdata
  have hmint : ∀ key m, d.MintAt before key m → key ≠ account := by
    rintro key m hm rfl
    have hdata := hfresh.symm.trans hm.2
    cases hdata
  refine ⟨h.bankFrame, ?_, ?_, ?_, fun _ hburned => absurd rfl hburned⟩
  · intro key t ht _ _
    exact ⟨t.amount, le_rfl, ht.of_sameContents
      (.of_eq (h.frame key (htoken key t ht)))⟩
  · intro key m _ hm _ _
    exact ⟨m.supply, m.freezeAuthority, rfl, hm.of_sameContents
      (.of_eq (h.frame key (hmint key m hm)))⟩
  · intro key m authority hm hauthority _ hempty other t ht htmint
    by_cases haccount : other = account
    · subst haccount
      obtain ⟨n, amount, hn, hopened, hzero⟩ := h.initialized
      have heq := ht.unique hopened
      subst heq
      have hkey : mint = key := htmint
      subst hkey
      have hn' := hm.unique hn
      subst hn'
      rw [hzero (by rw [hauthority]; exact Option.some_ne_none _)]
      rfl
    · exact hempty other t (ht.back (.of_eq (h.frame other haccount))) htmint

/-- Time passes. -/
theorem of_clock (d : Deployment Pubkey) (bank : Bank Pubkey)
    (clock : Clock) :
    Outside d bank { bank with clock := clock } (fun _ => 0) where
  frame := ⟨fun _ _ => ⟨rfl, rfl⟩, fun _ howned => Or.inl howned,
    fun _ m hm => ⟨m, hm⟩, fun _ t ht => Or.inl ⟨t, ht, rfl⟩⟩
  vaults _ t ht _ _ := ⟨t.amount, le_rfl, ht⟩
  supplies _ m _ hm _ _ := ⟨m.supply, m.freezeAuthority, rfl, hm⟩
  unheld _ _ _ _ _ _ hempty := hempty
  burnedMint _ hburned := absurd rfl hburned

end Outside

/-! ## Transactions -/

inductive Transaction (Pubkey : Type) where
  | call (accounts : List (AccountInfo Pubkey))
      (instruction : StakeInstruction Pubkey)
  | transfer (source destination authority : Pubkey) (amount : U64)
  | burn (account mint authority : Pubkey) (amount : U64)
  | openAccount (account mint owner : Pubkey)
  | wait (clock : Clock)

namespace Transaction

/-- The signatures a transaction needs can be obtained. -/
def Authentic (d : Deployment Pubkey) : Transaction Pubkey → Prop
  | .call accounts _ => SignedByOthers d accounts
  | .transfer _ _ authority _ => ¬ d.IsProgramAddress authority
  | .burn _ _ authority _ => ¬ d.IsProgramAddress authority
  | _ => True

variable [DecidableEq Pubkey]

def event : Transaction Pubkey → Event Pubkey
  | .call accounts instruction => .instruction accounts instruction
  | .burn _ mint _ amount =>
      .outside fun key => if key = mint then amount.toNat else 0
  | _ => .outside fun _ => 0

variable [Inhabited Pubkey] (rt : Runtime Pubkey)

def execute (bank : Bank Pubkey) :
    Transaction Pubkey → Except ProgramError (Bank Pubkey)
  | .call accounts instruction =>
      processInstruction rt accounts instruction bank
  | .transfer source destination authority amount =>
      rt.invokeSigned
        (.transferTokens rt.splTokenId source destination authority amount)
        [] bank
  | .burn account mint authority amount =>
      rt.invokeSigned (.burn rt.splTokenId account mint authority amount)
        [] bank
  | .openAccount account mint owner =>
      rt.invokeSigned (.initializeAccount rt.splTokenId account mint owner)
        [] bank
  | .wait clock => .ok { bank with clock := clock }

variable {rt}

/-- Executing a transaction is a step. -/
theorem step {transaction : Transaction Pubkey} {before after : Bank Pubkey}
    (hauthentic : transaction.Authentic rt.toDeployment)
    (h : transaction.execute rt before = .ok after) :
    Step rt before transaction.event after := by
  cases transaction with
  | call accounts instruction => exact .instruction hauthentic h
  | transfer source destination authority amount =>
      have heffect := rt.invokeSigned_effect h
      exact .outside (.of_tokensMoved heffect hauthentic)
  | burn account mint authority amount =>
      have heffect := rt.invokeSigned_effect h
      exact .outside (.of_tokensBurned heffect hauthentic)
  | openAccount account mint owner =>
      have heffect := rt.invokeSigned_effect h
      exact .outside (.of_tokenAccountInitialized heffect)
  | wait clock =>
      cases h
      exact .outside (.of_clock rt.toDeployment before clock)

variable (rt)

/-- The bank after a transaction; a rejected one leaves it as it is. -/
def perform (bank : Bank Pubkey) (transaction : Transaction Pubkey) :
    Bank Pubkey :=
  (transaction.execute rt bank).toOption.getD bank

def succeeds (bank : Bank Pubkey) (transaction : Transaction Pubkey) : Bool :=
  (transaction.execute rt bank).toOption.isSome

def performAll (bank : Bank Pubkey) : List (Transaction Pubkey) → Bank Pubkey
  | [] => bank
  | transaction :: rest => performAll (transaction.perform rt bank) rest

def allSucceed (bank : Bank Pubkey) : List (Transaction Pubkey) → Bool
  | [] => true
  | transaction :: rest =>
      transaction.succeeds rt bank &&
        allSucceed (transaction.perform rt bank) rest

variable {rt}

theorem perform_step {transaction : Transaction Pubkey} {bank : Bank Pubkey}
    (hauthentic : transaction.Authentic rt.toDeployment)
    (h : transaction.succeeds rt bank = true) :
    Step rt bank transaction.event (transaction.perform rt bank) := by
  unfold succeeds at h
  cases hexecute : transaction.execute rt bank with
  | error error =>
      rw [hexecute] at h
      cases h
  | ok after =>
      unfold perform
      rw [hexecute]
      exact step hauthentic hexecute

theorem performAll_run {transactions : List (Transaction Pubkey)}
    {bank : Bank Pubkey}
    (hauthentic : ∀ transaction ∈ transactions,
      transaction.Authentic rt.toDeployment)
    (h : allSucceed rt bank transactions = true) :
    Run rt bank (transactions.map event) (performAll rt bank transactions) := by
  induction transactions generalizing bank with
  | nil => exact .start
  | cons transaction rest ih =>
      simp only [allSucceed, Bool.and_eq_true] at h
      have hstep := perform_step (hauthentic _ (by simp)) h.1
      have hrest := ih (fun t ht => hauthentic t (by simp [ht])) h.2
      exact (Run.start.step hstep).trans hrest

end Transaction

end PercolatorVault
