import PercolatorVault.BankInvariant

/-!
# One pool as a state machine

The instructions seen from a single pool.  `PoolStep` gives the change of the
view made by each event, with the guards the handler passed; `Drift` is what
may happen to the same pool in between, when somebody sends tokens to the
vault or burns LP tokens of their own.
-/

namespace PercolatorVault

open CheckedArithmetic
open FallibleSteps

variable {Pubkey : Type}

inductive PoolEvent (Pubkey : Type) where
  | deposit (user : Pubkey) (amount : U64)
  | withdraw (user : Pubkey) (lpAmount : U64)
  | flush (amount : U64)
  | returnInsurance (amount : U64)
  | accrueFees
  | administer
  | idle
deriving DecidableEq

/-- Events that leave in the vault exactly what their step says.  A payout may
be sent to the vault itself, and an idle pool may receive tokens. -/
def PoolEvent.Exact : PoolEvent Pubkey → Prop
  | .withdraw _ _ => False
  | .idle => False
  | _ => True

/-- What an instruction of `user` is for the pool it names. -/
def StakeInstruction.poolEvent (user : Pubkey) :
    StakeInstruction Pubkey → PoolEvent Pubkey
  | .deposit amount => .deposit user amount
  | .withdraw lpAmount => .withdraw user lpAmount
  | .flushToInsurance amount => .flush amount
  | .adminWithdrawInsurance amount => .returnInsurance amount
  | .accrueFees => .accrueFees
  | .updateConfig _ _ => .administer
  | .transferAdmin => .administer
  | .adminResolveMarket => .administer
  | .adminSetHwmConfig _ _ => .administer
  | _ => .idle

/-- The changes of a pool record by the admin instructions that move no
tokens. -/
inductive Administered (pool : StakePool Pubkey) : StakePool Pubkey → Prop
  | updateConfig (cooldownSlots depositCap : U64) :
      Administered pool
        { pool with cooldownSlots := cooldownSlots, depositCap := depositCap }
  | transferAdmin : Administered pool { pool with adminTransferred := 1 }
  | resolveMarket : Administered pool pool.setResolved
  | setHwmConfig {enabled : Bool} {hwmFloorBps : U16}
      {configured : StakePool Pubkey}
      (hconfig : pool.configureHwm enabled hwmFloorBps = .ok configured) :
      Administered pool configured

/-- Tokens may have been sent to the vault, and holders may have burned
`burned` LP tokens of their own. -/
structure Drift (burned : ℕ) (before after : PoolView Pubkey) : Prop where
  pool : after.pool = before.pool
  records : after.records = before.records
  vault : before.vaultAmount.toNat ≤ after.vaultAmount.toNat
  supply : after.lpMintSupply.toNat + burned = before.lpMintSupply.toNat

namespace Drift

theorem refl (view : PoolView Pubkey) : Drift 0 view view :=
  ⟨rfl, rfl, le_rfl, rfl⟩

theorem trans {burned burned' : ℕ} {first second third : PoolView Pubkey}
    (hleft : Drift burned first second) (hright : Drift burned' second third) :
    Drift (burned + burned') first third where
  pool := hright.pool.trans hleft.pool
  records := hright.records.trans hleft.records
  vault := hleft.vault.trans hright.vault
  supply := by
    have hfirst := hleft.supply
    have hsecond := hright.supply
    omega

end Drift

section Steps

variable [DecidableEq Pubkey]

inductive PoolStep [Inhabited Pubkey] (d : Deployment Pubkey) (key : Pubkey)
    (clock : Clock) :
    PoolEvent Pubkey → PoolView Pubkey → PoolView Pubkey → Prop
  | deposit {view : PoolView Pubkey} {user : Pubkey} {amount lp : U64}
      {pool : StakePool Pubkey} {record : StakeDeposit Pubkey}
      {vaultAmount lpMintSupply : U64}
      (hamount : amount ≠ 0)
      (htransferred : view.pool.adminTransferred = 1)
      (hopen : view.pool.isResolved = false)
      (hcap : checkDepositCap view.pool amount = .ok ())
      (hlp : view.pool.calcLpForDeposit amount = some lp)
      (hminted : lp ≠ 0)
      (hpool : view.pool.recordDeposit amount lp clock = .ok pool)
      (hrecord : (((view.records user).getD StakeDeposit.zeroed).bind
        (d.deriveDepositPda key user).2 key user).creditLp lp clock.slot
          view.pool.cooldownSlots = .ok record)
      (hvault : vaultAmount.toNat = view.vaultAmount.toNat + amount.toNat)
      (hsupply : lpMintSupply.toNat = view.lpMintSupply.toNat + lp.toNat) :
      PoolStep d key clock (.deposit user amount) view
        ⟨pool, vaultAmount, lpMintSupply,
          Function.update view.records user (some record)⟩
  | withdraw {view : PoolView Pubkey} {user : Pubkey}
      {lpAmount collateral : U64} {guarded pool : StakePool Pubkey}
      {record remaining : StakeDeposit Pubkey}
      {vaultAmount lpMintSupply : U64}
      (hamount : lpAmount ≠ 0)
      (hrecord : view.records user = some record)
      (hcooldown : (saturatingAdd record.lastDepositSlot
        view.pool.cooldownSlots).toNat ≤ clock.slot.toNat)
      (hcollateral :
        view.pool.calcCollateralForWithdraw lpAmount = some collateral)
      (hpaid : collateral ≠ 0)
      (hfloor :
        enforceHwmFloor view.pool clock.epoch collateral = .ok guarded)
      (hpool : guarded.recordWithdraw collateral lpAmount = .ok pool)
      (hremaining : record.debitLp lpAmount = .ok remaining)
      (hvault :
        vaultAmount.toNat + collateral.toNat = view.vaultAmount.toNat)
      (hsupply :
        lpMintSupply.toNat + lpAmount.toNat = view.lpMintSupply.toNat) :
      PoolStep d key clock (.withdraw user lpAmount) view
        ⟨pool, vaultAmount, lpMintSupply,
          Function.update view.records user (some remaining)⟩
  | flush {view : PoolView Pubkey} {amount available totalFlushed : U64}
      {vaultAmount : U64}
      (hamount : amount ≠ 0)
      (hmode : view.pool.poolMode = 0)
      (hceiling : view.pool.flushCeiling = some available)
      (havailable : amount.toNat ≤ available.toNat)
      (htotal : checkedAdd view.pool.totalFlushed amount = some totalFlushed)
      (hvault : vaultAmount.toNat + amount.toNat = view.vaultAmount.toNat) :
      PoolStep d key clock (.flush amount) view
        { view with
          pool := { view.pool with totalFlushed := totalFlushed }
          vaultAmount := vaultAmount }
  | returnInsurance {view : PoolView Pubkey} {amount totalReturned : U64}
      {vaultAmount : U64}
      (hmode : view.pool.poolMode = 0)
      (htotal :
        checkedAdd view.pool.totalReturned amount = some totalReturned)
      (hvault : vaultAmount.toNat = view.vaultAmount.toNat + amount.toNat) :
      PoolStep d key clock (.returnInsurance amount) view
        { view with
          pool := { view.pool with totalReturned := totalReturned }
          vaultAmount := vaultAmount }
  | accrueFees {view : PoolView Pubkey} {pool : StakePool Pubkey}
      (hmode : view.pool.poolMode = 1)
      (hpool : view.pool.accrue view.vaultAmount clock.slot = .ok pool) :
      PoolStep d key clock .accrueFees view { view with pool := pool }
  | administer {view : PoolView Pubkey} {pool : StakePool Pubkey}
      (hpool : Administered view.pool pool) :
      PoolStep d key clock .administer view { view with pool := pool }
  | idle (view : PoolView Pubkey) : PoolStep d key clock .idle view view

/-- A pool as initialisation leaves it. -/
structure PoolView.Fresh [Inhabited Pubkey] (view : PoolView Pubkey) :
    Prop where
  pool : ∃ (a : InitPoolAccounts Pubkey)
    (poolBump vaultAuthBump : U8) (cooldownSlots depositCap : U64)
    (poolMode : U8), (poolMode = 0 ∨ poolMode = 1) ∧
    view.pool =
      { StakePool.zeroed.initPool a poolBump vaultAuthBump cooldownSlots
          depositCap with poolMode := poolMode }
  supply : view.lpMintSupply.toNat = 0
  records : ∀ user, view.records user = none

/-! ## Calls seen from a pool whose authority did not sign -/

section Others

variable {d : Deployment Pubkey} {before after : Bank Pubkey} {key : Pubkey}
  {view : PoolView Pubkey}

theorem Shows.drift_of_tokensMoved {source destination authority : Pubkey}
    {amount : ℕ} (h : Shows d before key view)
    (hmoved :
      TokensMoved d before after source destination authority amount)
    (hother : authority ≠ (d.deriveVaultAuthority key).1) :
    ∃ view', Drift 0 view view' ∧ Shows d after key view' := by
  obtain ⟨hauthority, w, hw, hshows⟩ := h.tokensMoved hmoved
  have hsource : source ≠ view.pool.vault := fun heq =>
    hother (hauthority heq)
  rw [if_neg hsource] at hw
  refine ⟨_, ?_, hshows⟩
  exact ⟨rfl, rfl, by dsimp only; omega, rfl⟩

theorem Shows.drift_of_tokensMinted {mint account authority : Pubkey}
    {amount : ℕ} (h : Shows d before key view)
    (hminted : TokensMinted d before after mint account authority amount)
    (hother : mint ≠ view.pool.lpMint) :
    ∃ view', Drift 0 view view' ∧ Shows d after key view' := by
  obtain ⟨-, -, w, supply, hw, hsupply, hshows⟩ :=
    h.tokensMinted hminted (fun _ => hother)
  rw [if_neg hother] at hsupply
  refine ⟨_, ?_, hshows⟩
  exact ⟨rfl, rfl, by dsimp only; omega, by dsimp only; omega⟩

theorem Shows.drift_of_tokensBurned {account mint authority : Pubkey}
    {amount : ℕ} (h : Shows d before key view)
    (hburned : TokensBurned d before after account mint authority amount)
    (hother : authority ≠ (d.deriveVaultAuthority key).1) :
    ∃ view',
      Drift (if mint = view.pool.lpMint then amount else 0) view view' ∧
        Shows d after key view' := by
  obtain ⟨hauthority, w, supply, hw, hsupply, hshows⟩ :=
    h.tokensBurned hburned
  have haccount : account ≠ view.pool.vault := fun heq =>
    hother (hauthority heq)
  rw [if_neg haccount] at hw
  refine ⟨_, ?_, hshows⟩
  exact ⟨rfl, rfl, by dsimp only; omega, by dsimp only; omega⟩

end Others

/-! ## Soundness after a call -/

section SoundCalls

variable {d : Deployment Pubkey} {before after : Bank Pubkey}

theorem Sound.tokensMoved {source destination authority : Pubkey}
    {amount : ℕ} (h : Sound d before)
    (hmoved :
      TokensMoved d before after source destination authority amount) :
    Sound d after := by
  apply h.of_frame hmoved.bankFrame
  intro key view hview
  obtain ⟨-, w, -, hshows⟩ := hview.tokensMoved hmoved
  refine ⟨_, ?_, hshows⟩
  rfl

theorem Sound.tokensMinted {mint account authority : Pubkey} {amount : ℕ}
    (h : Sound d before)
    (hminted : TokensMinted d before after mint account authority amount)
    (hlive : ∀ key view, Shows d before key view →
      view.pool.collateralMint = view.pool.lpMint →
        mint ≠ view.pool.lpMint) :
    Sound d after := by
  apply h.of_frame hminted.bankFrame
  intro key view hview
  obtain ⟨-, -, w, supply, -, -, hshows⟩ :=
    hview.tokensMinted hminted (hlive key view hview)
  refine ⟨_, ?_, hshows⟩
  rfl

theorem Sound.tokensBurned {account mint authority : Pubkey} {amount : ℕ}
    (h : Sound d before)
    (hburned : TokensBurned d before after account mint authority amount) :
    Sound d after := by
  apply h.of_frame hburned.bankFrame
  intro key view hview
  obtain ⟨-, w, supply, -, -, hshows⟩ := hview.tokensBurned hburned
  refine ⟨_, ?_, hshows⟩
  rfl

theorem Sound.onlyForeignChanged (h : Sound d before)
    (hforeign : OnlyForeignChanged d before after) : Sound d after :=
  h.of_frame hforeign.bankFrame fun _ view hview =>
    ⟨view, rfl, hview.onlyForeignChanged hforeign⟩

theorem Sound.allocated {target : Pubkey} {space : ℕ} (h : Sound d before)
    (halloc : Allocated d before after target d.programId space) :
    Sound d after :=
  h.of_frame halloc.bankFrame fun _ view hview =>
    ⟨view, rfl, hview.allocated halloc⟩

end SoundCalls

end Steps

end PercolatorVault
