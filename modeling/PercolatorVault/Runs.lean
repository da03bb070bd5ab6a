import PercolatorVault.PoolMachine

/-!
# Runs of the program

A run starts in a bank without pools and continues with instructions of this
program, rejected instructions, and whatever other transactions do in between.
`Outside` lists what those others cannot do: they hold no signature of a
program address, so they neither move tokens out of a vault nor mint LP
tokens.
-/

namespace PercolatorVault

open CheckedArithmetic
open FallibleSteps

variable {Pubkey : Type}

/-- Other transactions ran.  `burned` is the number of tokens burned of each
mint. -/
structure Outside (d : Deployment Pubkey) (before after : Bank Pubkey)
    (burned : Pubkey → ℕ) : Prop where
  frame : Frame d before after
  vaults : ∀ key t, d.TokenAt before key t → d.IsProgramAddress t.owner →
    t.delegate = none →
      ∃ amount : U64, t.amount.toNat ≤ amount.toNat ∧
        d.TokenAt after key { t with amount := amount }
  supplies : ∀ key m authority, d.MintAt before key m →
    m.mintAuthority = some authority → d.IsProgramAddress authority →
      ∃ (supply : U64) (freezeAuthority : Option Pubkey),
        supply.toNat + burned key = m.supply.toNat ∧
        d.MintAt after key ⟨m.mintAuthority, supply, freezeAuthority⟩
  unheld : ∀ key m authority, d.MintAt before key m →
    m.mintAuthority = some authority → d.IsProgramAddress authority →
      NoHolders d before key → NoHolders d after key
  burnedMint : ∀ key, burned key ≠ 0 → ∃ m, d.MintAt before key m

inductive Event (Pubkey : Type) where
  | instruction (accounts : List (AccountInfo Pubkey))
      (instruction : StakeInstruction Pubkey)
  | rejected (accounts : List (AccountInfo Pubkey))
      (instruction : StakeInstruction Pubkey)
  | outside (burned : Pubkey → ℕ)

def Event.lpBurned : Event Pubkey → Pubkey → ℕ
  | .outside burned => burned
  | _ => fun _ => 0

/-- LP tokens of `mint` burned by their holders during a run. -/
def burnedOutside (events : List (Event Pubkey)) (mint : Pubkey) : ℕ :=
  (events.map fun event => event.lpBurned mint).sum

@[simp] theorem burnedOutside_nil (mint : Pubkey) :
    burnedOutside ([] : List (Event Pubkey)) mint = 0 := rfl

@[simp] theorem burnedOutside_append (left right : List (Event Pubkey))
    (mint : Pubkey) :
    burnedOutside (left ++ right) mint =
      burnedOutside left mint + burnedOutside right mint := by
  simp [burnedOutside]

@[simp] theorem burnedOutside_singleton (event : Event Pubkey)
    (mint : Pubkey) :
    burnedOutside [event] mint = event.lpBurned mint := by
  simp [burnedOutside]

section Steps

variable [DecidableEq Pubkey]

/-- What an event is for the pool at `key`.  Every instruction that changes a
pool record names the user first and the pool second. -/
def Event.seenBy (key : Pubkey) : Event Pubkey → PoolEvent Pubkey
  | .instruction (user :: pool :: _) call =>
      if pool.key = key then call.poolEvent user.key else .idle
  | _ => .idle

/-- Nobody but the program signs for its addresses. -/
def SignedByOthers (d : Deployment Pubkey)
    (accounts : List (AccountInfo Pubkey)) : Prop :=
  ∀ info ∈ accounts, info.isSigner = true → ¬ d.IsProgramAddress info.key

/-- The vault program has no records yet. -/
structure Genesis (d : Deployment Pubkey) (bank : Bank Pubkey) : Prop where
  unused : ∀ key, (bank.accounts key).owner = d.programId →
    ∃ length, (bank.accounts key).data = .zeroed length
  mintsExist : MintsExist d bank

omit [DecidableEq Pubkey] in
theorem Genesis.no_pool {d : Deployment Pubkey} {bank : Bank Pubkey}
    (h : Genesis d bank) (key : Pubkey) (pool : StakePool Pubkey) :
    ¬ d.PoolAt bank key pool := by
  intro hpool
  obtain ⟨length, hzero⟩ := h.unused key hpool.1
  have hdata := hpool.2.symm.trans hzero
  cases hdata

theorem Genesis.sound {d : Deployment Pubkey} {bank : Bank Pubkey}
    (h : Genesis d bank) : Sound d bank where
  pools key pool hpool := absurd hpool (h.no_pool key pool)
  records key deposit hdeposit := by
    obtain ⟨length, hzero⟩ := h.unused key hdeposit.1
    have hdata := hdeposit.2.symm.trans hzero
    cases hdata
  mintsExist := h.mintsExist

/-- Seen from a pool, other transactions are a drift. -/
theorem Shows.outside {d : Deployment Pubkey} {before after : Bank Pubkey}
    {key : Pubkey} {view : PoolView Pubkey} {burned : Pubkey → ℕ}
    (h : Shows d before key view) (houtside : Outside d before after burned) :
    ∃ view', Drift (burned view.pool.lpMint) view view' ∧
      Shows d after key view' := by
  have haddress := d.deriveVaultAuthority_isProgramAddress key
  obtain ⟨amount, hamount, hvault⟩ :=
    houtside.vaults _ _ h.vault haddress rfl
  obtain ⟨freeze, hlp⟩ := h.lpMint
  obtain ⟨supply, freeze', hsupply, hmint⟩ :=
    houtside.supplies _ _ _ hlp rfl haddress
  refine ⟨_, ?_, h.of_frame houtside.frame hvault ⟨freeze', hmint⟩ ?_⟩
  · exact ⟨rfl, rfl, hamount, hsupply⟩
  · intro hdegenerate
    exact houtside.unheld _ _ _ hlp rfl haddress (h.unheld hdegenerate)

variable [Inhabited Pubkey] (rt : Runtime Pubkey)

inductive Step : Bank Pubkey → Event Pubkey → Bank Pubkey → Prop
  | instruction {before after : Bank Pubkey}
      {accounts : List (AccountInfo Pubkey)}
      {instruction : StakeInstruction Pubkey}
      (hsigned : SignedByOthers rt.toDeployment accounts)
      (hrun : processInstruction rt accounts instruction before = .ok after) :
      Step before (.instruction accounts instruction) after
  | rejected {before : Bank Pubkey} {accounts : List (AccountInfo Pubkey)}
      {instruction : StakeInstruction Pubkey} {error : ProgramError}
      (hrun :
        processInstruction rt accounts instruction before = .error error) :
      Step before (.rejected accounts instruction) before
  | outside {before after : Bank Pubkey} {burned : Pubkey → ℕ}
      (houtside : Outside rt.toDeployment before after burned) :
      Step before (.outside burned) after

inductive Run (start : Bank Pubkey) : List (Event Pubkey) → Bank Pubkey → Prop
  | start : Run start [] start
  | step {events : List (Event Pubkey)} {event : Event Pubkey}
      {before after : Bank Pubkey}
      (hrun : Run start events before) (hstep : Step rt before event after) :
      Run start (events ++ [event]) after

def Reachable (bank : Bank Pubkey) : Prop :=
  ∃ start events, Genesis rt.toDeployment start ∧ Run rt start events bank

variable {rt}

theorem Reachable.step {before after : Bank Pubkey} {event : Event Pubkey}
    (h : Reachable rt before) (hstep : Step rt before event after) :
    Reachable rt after := by
  obtain ⟨start, events, hgenesis, hrun⟩ := h
  exact ⟨start, events ++ [event], hgenesis, hrun.step hstep⟩

theorem Run.trans {first second third : Bank Pubkey}
    {events events' : List (Event Pubkey)}
    (hleft : Run rt first events second)
    (hright : Run rt second events' third) :
    Run rt first (events ++ events') third := by
  induction hright with
  | start => simpa using hleft
  | step _ hstep ih =>
      rw [← List.append_assoc]
      exact ih.step hstep

theorem Reachable.run {before after : Bank Pubkey}
    {events : List (Event Pubkey)} (h : Reachable rt before)
    (hrun : Run rt before events after) : Reachable rt after := by
  obtain ⟨start, earlier, hgenesis, hearlier⟩ := h
  exact ⟨start, earlier ++ events, hgenesis, hearlier.trans hrun⟩

/-- A successful call of the entry point is a step. -/
theorem step_of_process {before after : Bank Pubkey}
    {accounts : List (AccountInfo Pubkey)} {data : List U8}
    (hsigned : SignedByOthers rt.toDeployment accounts)
    (h : process rt accounts data before = .ok after) :
    ∃ instruction,
      StakeInstruction.unpack rt.pubkeyFromBytes data = .ok instruction ∧
        processInstruction rt accounts instruction before = .ok after ∧
        Step rt before (.instruction accounts instruction) after := by
  simp only [process, bind_eq_ok] at h
  obtain ⟨instruction, hunpack, hrun⟩ := h
  exact ⟨instruction, hunpack, hrun, .instruction hsigned hrun⟩

end Steps

end PercolatorVault
