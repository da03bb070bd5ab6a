import PercolatorVault.DepositSimulation
import PercolatorVault.WithdrawSimulation
import PercolatorVault.AdminSimulation
import PercolatorVault.InitSimulation
import PercolatorVault.FrozenFields

/-!
# Invariants of runs

Every step of a run simulates its event.  Hence a property of one pool that
holds when the pool is created, and that the pool machine and drifts keep,
holds in every bank a run can reach.
-/

namespace PercolatorVault

open CheckedArithmetic
open FallibleSteps

variable {Pubkey : Type} [DecidableEq Pubkey] [Inhabited Pubkey]
  {rt : Runtime Pubkey} {before after : Bank Pubkey}

theorem processInstruction_simulates {accounts : List (AccountInfo Pubkey)}
    {call : StakeInstruction Pubkey} (hbefore : Sound rt.toDeployment before)
    (hsigned : SignedByOthers rt.toDeployment accounts)
    (h : processInstruction rt accounts call before = .ok after) :
    Simulates rt.toDeployment before (.instruction accounts call) after := by
  cases call with
  | initPool cooldownSlots depositCap =>
      exact processInitPool_simulates hbefore h
  | deposit amount => exact processDeposit_simulates hbefore hsigned h
  | withdraw lpAmount => exact processWithdraw_simulates hbefore hsigned h
  | flushToInsurance amount =>
      exact processFlushToInsurance_simulates hbefore h
  | updateConfig newCooldownSlots newDepositCap =>
      exact processUpdateConfig_simulates hbefore h
  | transferAdmin => exact processTransferAdmin_simulates hbefore h
  | adminSetOracleAuthority newAuthority =>
      exact processAdminSetOracleAuthority_simulates hbefore h
  | adminSetRiskThreshold newThreshold =>
      exact absurd h processAdminSetRiskThreshold_ne_ok
  | adminSetMaintenanceFee newFee =>
      exact absurd h processAdminSetMaintenanceFee_ne_ok
  | adminResolveMarket => exact processAdminResolveMarket_simulates hbefore h
  | adminWithdrawInsurance amount =>
      exact processAdminWithdrawInsurance_simulates hbefore h
  | adminSetInsurancePolicy authority minWithdrawBase maxWithdrawBps
      cooldownSlots =>
      exact processAdminSetInsurancePolicy_simulates hbefore h
  | accrueFees => exact processAccrueFees_simulates hbefore h
  | initTradingPool cooldownSlots depositCap =>
      exact processInitTradingPool_simulates hbefore h
  | adminSetHwmConfig enabled hwmFloorBps =>
      exact processAdminSetHwmConfig_simulates hbefore h

theorem Step.simulates {event : Event Pubkey}
    (hstep : Step rt before event after)
    (hbefore : Sound rt.toDeployment before) :
    Simulates rt.toDeployment before event after := by
  cases hstep with
  | instruction hsigned hrun =>
      exact processInstruction_simulates hbefore hsigned hrun
  | rejected hrun =>
      refine ⟨hbefore, fun _ m hm => ⟨m, hm⟩, ?_, ?_,
        fun _ h => absurd rfl h⟩
      · intro key view hview
        exact ⟨view, view, .idle view, Drift.refl view, hview, False.elim⟩
      · intro key view hview
        exact Or.inl ⟨view, hview⟩
  | outside houtside =>
      have hsound : Sound rt.toDeployment after :=
        hbefore.of_frame houtside.frame fun key view hview => by
          obtain ⟨view', hdrift, hshows⟩ := hview.outside houtside
          exact ⟨view', hdrift.pool, hshows⟩
      refine ⟨hsound, houtside.frame.mints, ?_, ?_, houtside.burnedMint⟩
      · intro key view hview
        obtain ⟨view', hdrift, hshows⟩ := hview.outside houtside
        exact ⟨view, view', .idle view, hdrift, hshows, False.elim⟩
      · intro key view hview
        obtain ⟨view', -, hshows⟩ :=
          hbefore.pools key view.pool (hview.pool.back houtside.frame)
        exact Or.inl ⟨view', hshows⟩

theorem Run.sound {events : List (Event Pubkey)}
    (hrun : Run rt before events after)
    (hbefore : Sound rt.toDeployment before) :
    Sound rt.toDeployment after := by
  induction hrun with
  | start => exact hbefore
  | step _ hstep ih => exact (hstep.simulates ih).sound

theorem Reachable.sound (h : Reachable rt after) :
    Sound rt.toDeployment after := by
  obtain ⟨start, events, hgenesis, hrun⟩ := h
  exact hrun.sound hgenesis.sound

theorem Reachable.shows_pool (h : Reachable rt after) {key : Pubkey}
    {pool : StakePool Pubkey} (hpool : rt.PoolAt after key pool) :
    ∃ view, view.pool = pool ∧ Shows rt.toDeployment after key view :=
  h.sound.pools key pool hpool

omit [DecidableEq Pubkey] [Inhabited Pubkey] in
theorem StakePool.SameIdentity.sameAccounts {pool pool' : StakePool Pubkey}
    (h : pool.SameIdentity pool') : pool.SameAccounts pool' :=
  ⟨h.isInitialized, h.collateralMint, h.lpMint, h.vault⟩

/-! ## The induction over runs -/

/-- A property of a pool and of the number of its LP tokens burned outside
the program that survives everything. -/
structure PoolInvariant (d : Deployment Pubkey)
    (property : ℕ → PoolView Pubkey → Prop) : Prop where
  fresh : ∀ view, view.Fresh → property 0 view
  step : ∀ {burned : ℕ} {key : Pubkey} {clock : Clock}
    {event : PoolEvent Pubkey} {view view' : PoolView Pubkey},
    PoolStep d key clock event view view' → property burned view →
      property burned view'
  drift : ∀ {burned extra : ℕ} {view view' : PoolView Pubkey},
    Drift extra view view' → property burned view →
      property (burned + extra) view'

theorem Run.burned_mintAt {start bank : Bank Pubkey}
    {events : List (Event Pubkey)} (hgenesis : Genesis rt.toDeployment start)
    (hrun : Run rt start events bank) {mint : Pubkey}
    (hburned : burnedOutside events mint ≠ 0) :
    ∃ m, rt.MintAt bank mint m := by
  induction hrun with
  | start => exact absurd rfl hburned
  | @step earlier event before after hrun hstep ih =>
      have hsimulates := hstep.simulates (hrun.sound hgenesis.sound)
      rw [burnedOutside_append, burnedOutside_singleton] at hburned
      have hmint : ∃ m, rt.MintAt before mint m := by
        rcases Nat.eq_zero_or_pos (burnedOutside earlier mint) with hzero | hpos
        · rw [hzero, Nat.zero_add] at hburned
          exact hsimulates.burnedMint mint hburned
        · exact ih (Nat.pos_iff_ne_zero.mp hpos)
      obtain ⟨m, hm⟩ := hmint
      exact hsimulates.mints mint m hm

theorem Run.invariant {property : ℕ → PoolView Pubkey → Prop}
    (hproperty : PoolInvariant rt.toDeployment property)
    {start bank : Bank Pubkey} {events : List (Event Pubkey)}
    (hgenesis : Genesis rt.toDeployment start)
    (hrun : Run rt start events bank) {key : Pubkey}
    {view : PoolView Pubkey} (hview : Shows rt.toDeployment bank key view) :
    property (burnedOutside events view.pool.lpMint) view := by
  induction hrun generalizing view with
  | start =>
      exact absurd hview.pool (hgenesis.no_pool key _)
  | @step earlierEvents event before after hrun hstep ih =>
      have hsimulates := hstep.simulates (hrun.sound hgenesis.sound)
      rw [burnedOutside_append, burnedOutside_singleton]
      rcases hsimulates.created key view hview with
        ⟨earlier, hearlier⟩ | ⟨hfresh, hnewMint⟩
      · obtain ⟨middle, later, hpool, hdrift, hlater, -⟩ :=
          hsimulates.steps key earlier hearlier
        have hsame := hlater.unique hview
        subst hsame
        have hmint : later.pool.lpMint = earlier.pool.lpMint := by
          rw [hdrift.pool]
          exact hpool.sameIdentity.lpMint
        rw [hmint]
        exact hproperty.drift hdrift (hproperty.step hpool (ih hearlier))
      · have hold : burnedOutside earlierEvents view.pool.lpMint = 0 := by
          by_contra hburned
          obtain ⟨m, hm⟩ := hrun.burned_mintAt hgenesis hburned
          exact hnewMint m hm
        have hnew : event.lpBurned view.pool.lpMint = 0 := by
          by_contra hburned
          obtain ⟨m, hm⟩ := hsimulates.burnedMint view.pool.lpMint hburned
          exact hnewMint m hm
        rw [hold, hnew]
        exact hproperty.fresh view hfresh

/-- The same for properties that do not mention the burned tokens. -/
theorem Reachable.invariant {bank : Bank Pubkey} (h : Reachable rt bank)
    (property : PoolView Pubkey → Prop)
    (hfresh : ∀ view, view.Fresh → property view)
    (hstep : ∀ {key : Pubkey} {clock : Clock} {event : PoolEvent Pubkey}
      {view view' : PoolView Pubkey},
      PoolStep rt.toDeployment key clock event view view' →
        property view → property view')
    (hdrift : ∀ {extra : ℕ} {view view' : PoolView Pubkey},
      Drift extra view view' → property view → property view')
    {key : Pubkey}
    {view : PoolView Pubkey} (hview : Shows rt.toDeployment bank key view) :
    property view := by
  obtain ⟨start, events, hgenesis, hrun⟩ := h
  have hproperty : PoolInvariant rt.toDeployment fun _ => property :=
    ⟨hfresh, hstep, hdrift⟩
  exact hrun.invariant hproperty hgenesis hview

end PercolatorVault
