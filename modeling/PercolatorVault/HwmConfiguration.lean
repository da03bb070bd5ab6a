import PercolatorVault.AdminEffects
import PercolatorVault.FrozenFields
import PercolatorVault.PoolCreation
import PercolatorVault.PoolSegments
import PercolatorVault.ReferenceMarket

/-!
# Configuring the high-water mark

The flag and the floor of the high-water mark share the reserved bytes with
everything else a pool keeps there, and the flag is written before the floor is
checked.  Still the stored floor is always that of the last enabling call that
succeeded, and an enabled floor is in range.
-/

namespace PercolatorVault

open CheckedArithmetic
open FallibleSteps

variable {Pubkey : Type}

section Configuring

variable [DecidableEq Pubkey]

/-- The floor an event leaves behind: an enabling call that succeeded sets it,
and the initialisation of the pool resets it. -/
def Event.enabledFloor (key : Pubkey) (floor : U16) : Event Pubkey → U16
  | .instruction (_ :: pool :: _) (.adminSetHwmConfig true hwmFloorBps) =>
      if pool.key = key then hwmFloorBps else floor
  | event => if event.Initializes key then 0 else floor

/-- The floor of the last successful enabling call for the pool at `key`; 0 if
there was none since its initialisation. -/
def lastEnabledFloor (key : Pubkey) (events : List (Event Pubkey)) : U16 :=
  events.foldl (fun floor event => event.enabledFloor key floor) 0

@[simp] theorem lastEnabledFloor_append (key : Pubkey)
    (events : List (Event Pubkey)) (event : Event Pubkey) :
    lastEnabledFloor key (events ++ [event]) =
      event.enabledFloor key (lastEnabledFloor key events) := by
  simp [lastEnabledFloor]

theorem Event.enabledFloor_of_initializes {key : Pubkey} {event : Event Pubkey}
    (hinit : event.Initializes key) (floor : U16) :
    event.enabledFloor key floor = 0 := by
  unfold enabledFloor
  split
  · simp [Initializes] at hinit
  · exact if_pos hinit

theorem Event.enabledFloor_of_other {key : Pubkey} {event : Event Pubkey}
    (hseen : event.seenBy key ≠ .administer)
    (hinit : ¬ event.Initializes key) (floor : U16) :
    event.enabledFloor key floor = floor := by
  unfold enabledFloor
  split
  · next user info rest bps =>
      refine if_neg fun hkey => hseen ?_
      simp [Event.seenBy, hkey, StakeInstruction.poolEvent]
  · exact if_neg hinit

variable [Inhabited Pubkey] {rt : Runtime Pubkey} {before after : Bank Pubkey}
  {key : Pubkey} {event : Event Pubkey} {view view' : PoolView Pubkey}

/-- A step is a successful enabling call, or it keeps the floor and does not
enable anything. -/
theorem Step.hwm_cases (hstep : Step rt before event after)
    (hbefore : Sound rt.toDeployment before)
    (hview : Shows rt.toDeployment before key view)
    (hview' : Shows rt.toDeployment after key view') (floor : U16) :
    (1 ≤ view'.pool.hwmFloorBps.toNat ∧
        view'.pool.hwmFloorBps.toNat ≤ 10000 ∧
        view'.pool.hwmFloorBps = event.enabledFloor key floor) ∨
      event.enabledFloor key floor = floor ∧
        view'.pool.hwmFloorBps = view.pool.hwmFloorBps ∧
        (view'.pool.hwmEnabled = true → view.pool.hwmEnabled = true) := by
  by_cases hevent : event.seenBy key = .administer
  · obtain ⟨user, info, rest, call, pool', rfl, rfl, hpool', hadmin⟩ :=
      hstep.administers hevent hview.pool
    cases hview'.pool.unique hpool'
    cases call with
    | updateConfig newCooldownSlots newDepositCap =>
        rw [show view'.pool = _ from hadmin]
        exact Or.inr ⟨by simp [Event.enabledFloor, Event.Initializes], rfl, id⟩
    | transferAdmin =>
        rw [hadmin.2]
        exact Or.inr ⟨by simp [Event.enabledFloor, Event.Initializes], rfl, id⟩
    | adminResolveMarket =>
        have hfields := view.pool.reservedFields_setResolved
        rw [← show view'.pool = _ from hadmin] at hfields
        have henabled : view'.pool.hwmEnabled = view.pool.hwmEnabled :=
          congrArg ReservedFields.hwmEnabled hfields
        refine Or.inr ⟨by simp [Event.enabledFloor, Event.Initializes],
          congrArg ReservedFields.hwmFloorBps hfields, fun h => ?_⟩
        exact henabled.symm.trans h
    | adminSetHwmConfig enabled bps =>
        obtain ⟨hrange, -, hfields⟩ := StakePool.configureHwm_eq_ok hadmin
        have henabled : view'.pool.hwmEnabled = enabled :=
          congrArg ReservedFields.hwmEnabled hfields
        have hbps : view'.pool.hwmFloorBps =
            if enabled then bps else view.pool.hwmFloorBps :=
          congrArg ReservedFields.hwmFloorBps hfields
        cases enabled with
        | true =>
            rw [if_pos rfl] at hbps
            rw [hbps]
            obtain ⟨hpositive, hle⟩ := hrange rfl
            refine Or.inl ⟨hpositive, hle, ?_⟩
            simp [Event.enabledFloor]
        | false =>
            refine Or.inr
              ⟨by simp [Event.enabledFloor, Event.Initializes], hbps, ?_⟩
            intro h
            simp [henabled] at h
    | _ => exact hadmin.elim
  · obtain ⟨middle, later, hpool, hdrift, hlater, -⟩ :=
      hstep.poolStep hbefore hview
    cases hlater.unique hview'
    have hsettings := hpool.sameSettings hevent
    have hinit : ¬ event.Initializes key := fun hinit =>
      hstep.absent_of_initializes hbefore hinit _ hview.pool
    refine Or.inr ⟨Event.enabledFloor_of_other hevent hinit floor, ?_, ?_⟩
    · rw [hdrift.pool]
      exact hsettings.hwmFloorBps
    · intro henabled
      rw [hdrift.pool, hsettings.hwmEnabled] at henabled
      exact henabled

/-- The invariant, along a run. -/
theorem Run.hwm_configured {start bank : Bank Pubkey}
    {events : List (Event Pubkey)} (hgenesis : Genesis rt.toDeployment start)
    (hrun : Run rt start events bank)
    (hview : Shows rt.toDeployment bank key view) :
    (view.pool.hwmEnabled = true →
        1 ≤ view.pool.hwmFloorBps.toNat ∧
          view.pool.hwmFloorBps.toNat ≤ 10000) ∧
      view.pool.hwmFloorBps = lastEnabledFloor key events := by
  induction hrun generalizing view with
  | start =>
      exact absurd hview.pool (hgenesis.no_pool key _)
  | @step earlier event before after hrun hstep ih =>
      have hsound := hrun.sound hgenesis.sound
      rw [lastEnabledFloor_append]
      rcases hstep.created hsound hview with ⟨old, hold⟩ | ⟨hfresh, hinit⟩
      · obtain ⟨hrange, hfloor⟩ := ih hold
        rcases hstep.hwm_cases hsound hold hview
            (lastEnabledFloor key earlier) with
          ⟨hpositive, hle, hset⟩ | ⟨hsame, hkept, henabled⟩
        · exact ⟨fun _ => ⟨hpositive, hle⟩, hset⟩
        · rw [hkept, hsame]
          exact ⟨fun h => hrange (henabled h), hfloor⟩
      · obtain ⟨-, -, hdisabled, hzero⟩ := hfresh.settings
        rw [Event.enabledFloor_of_initializes hinit]
        exact ⟨fun h => absurd h (by simp [hdisabled]), hzero⟩

/-- After any run, and whatever a call does next: an enabled floor is in
range, the stored floor is that of the last enabling call, a disabling call
keeps it, and a rejected call keeps flag and floor. -/
theorem Run.hwmConfig {start bank : Bank Pubkey}
    {events : List (Event Pubkey)} (hgenesis : Genesis rt.toDeployment start)
    (hrun : Run rt start events bank) {pool : StakePool Pubkey}
    (hpool : rt.PoolAt bank key pool) :
    (pool.hwmEnabled = true →
        1 ≤ pool.hwmFloorBps.toNat ∧ pool.hwmFloorBps.toNat ≤ 10000) ∧
      pool.hwmFloorBps = lastEnabledFloor key events ∧
      (∀ accounts bps after pool',
        Step rt bank (.instruction accounts (.adminSetHwmConfig false bps))
          after →
        rt.PoolAt after key pool' →
        pool'.hwmFloorBps = pool.hwmFloorBps) ∧
      (∀ accounts enabled bps after pool',
        Step rt bank (.rejected accounts (.adminSetHwmConfig enabled bps))
          after →
        rt.PoolAt after key pool' →
        pool'.hwmEnabled = pool.hwmEnabled ∧
          pool'.hwmFloorBps = pool.hwmFloorBps) := by
  have hreachable : Reachable rt bank := ⟨start, events, hgenesis, hrun⟩
  obtain ⟨view, rfl, hview⟩ := hreachable.shows_pool hpool
  obtain ⟨hrange, hfloor⟩ := hrun.hwm_configured hgenesis hview
  refine ⟨hrange, hfloor, ?_, ?_⟩
  · intro accounts bps after pool' hstep hpool'
    obtain ⟨view', rfl, hview'⟩ := (hreachable.step hstep).shows_pool hpool'
    have hlater := (hrun.step hstep).hwm_configured hgenesis hview'
    rw [lastEnabledFloor_append, ← hfloor] at hlater
    simpa [Event.enabledFloor, Event.Initializes] using hlater.2
  · intro accounts enabled bps after pool' hstep hpool'
    cases hstep
    cases hpool.unique hpool'
    exact ⟨rfl, rfl⟩

end Configuring

namespace Reference

/-- Enabled at 5000 and disabled with a floor that is ignored. -/
def configuredMarket : List (Transaction Address) :=
  [initPool 10, setHwmConfig true 5000, setHwmConfig false 7]

theorem configuredMarket_hwmConfig : ∃ pool,
    deployment.PoolAt (bankAfter configuredMarket) poolKey pool ∧
      (pool.hwmEnabled = true →
        1 ≤ pool.hwmFloorBps.toNat ∧ pool.hwmFloorBps.toNat ≤ 10000) ∧
      pool.hwmFloorBps = lastEnabledFloor poolKey
        (configuredMarket.map Transaction.event) := by
  have hread : (poolIn (bankAfter configuredMarket)).map
      (fun pool => pool.hwmFloorBps) = some 5000 := by decide +kernel
  obtain ⟨pool, hpool, -⟩ := exists_poolAt hread
  obtain ⟨hrange, hfloor, -⟩ := Run.hwmConfig genesis_genesis
    (bankAfter_run (by decide +kernel)) hpool
  exact ⟨pool, hpool, hrange, hfloor⟩

end Reference

end PercolatorVault
