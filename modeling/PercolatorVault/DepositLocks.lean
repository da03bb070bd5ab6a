import PercolatorVault.CooldownSlot
import PercolatorVault.PoolSegments

/-!
# How long LP stays locked

Along runs in which time does not go back, the slot of a deposit record lies
in the past and never decreases, and LP that comes to a user who had none
carries the slot in which it was minted.  So whatever a user and the others
do in between, no withdrawal comes earlier than the cooldown after the moment
at which the user held nothing.
-/

namespace PercolatorVault

open CheckedArithmetic
open FallibleSteps
open FiniteTallies

variable {Pubkey : Type}

/-- The record of `user`, if there is one, was last blended at or before
slot `now`. -/
def PoolView.SlotBy (view : PoolView Pubkey) (user : Pubkey) (now : ℕ) :
    Prop :=
  ∀ record, view.records user = some record →
    record.lastDepositSlot.toNat ≤ now

/-- The LP of `user`, if there is any, counts from slot `since` or later. -/
def PoolView.LockedFrom (view : PoolView Pubkey) (user : Pubkey)
    (since : ℕ) : Prop :=
  ∀ record, view.records user = some record → 0 < record.lpAmount.toNat →
    since ≤ record.lastDepositSlot.toNat

theorem PoolView.LockedFrom.of_records_eq {view view' : PoolView Pubkey}
    {user : Pubkey} {since : ℕ} (h : view.LockedFrom user since)
    (hsame : view'.records user = view.records user) :
    view'.LockedFrom user since := by
  intro record hrecord hheld
  exact h record (hsame.symm.trans hrecord) hheld

theorem PoolView.SlotBy.of_records_eq {view view' : PoolView Pubkey}
    {user : Pubkey} {now : ℕ} (h : view.SlotBy user now)
    (hsame : view'.records user = view.records user) :
    view'.SlotBy user now := by
  intro record hrecord
  exact h record (hsame.symm.trans hrecord)

theorem PoolView.SlotBy.later {view : PoolView Pubkey} {user : Pubkey}
    {now later : ℕ} (h : view.SlotBy user now) (hle : now ≤ later) :
    view.SlotBy user later := by
  intro record hrecord
  exact (h record hrecord).trans hle

/-- LP added to an empty record counts from the current slot. -/
theorem current_le_weightedDepositSlot_of_empty
    (existingLp existingSlot newLp currentSlot cooldownSlots : U64)
    (hnew : 0 < newLp.toNat) (hempty : existingLp.toNat = 0) :
    currentSlot.toNat ≤
      (weightedDepositSlot existingLp existingSlot newLp currentSlot
        cooldownSlots).toNat := by
  rw [toNat_weightedDepositSlot _ _ _ _ _ hnew, hempty, Nat.mul_zero,
    Nat.zero_div, Nat.sub_zero]
  exact le_max_right _ _

section Steps

variable [DecidableEq Pubkey] [Inhabited Pubkey] {d : Deployment Pubkey}
  {key user : Pubkey} {clock : Clock} {event : PoolEvent Pubkey}
  {view view' : PoolView Pubkey}

/-- What a step leaves of the slot of a record: it moves towards the current
one, and not at all in a withdrawal. -/
theorem PoolStep.lastDepositSlot (hstep : PoolStep d key clock event view view')
    (hpast : view.SlotBy user clock.slot.toNat) :
    view'.SlotBy user clock.slot.toNat ∧
      ∀ since, since ≤ clock.slot.toNat → view.LockedFrom user since →
        view'.LockedFrom user since := by
  by_cases hother : event.user? = some user
  · cases hstep with
    | @deposit _ depositor amount lp pool record _ _ hamount htransferred
        hopen hcap hlp hminted hpool hrecord hvault hsupply =>
        injection hother with huser
        subst huser
        obtain ⟨hcredit, hslot⟩ := StakeDeposit.creditLp_eq_ok hrecord
        rw [(StakeDeposit.bind_fields _ _ _ _).1,
          (StakeDeposit.bind_fields _ _ _ _).2] at hslot
        have hnew := toNat_pos.mpr hminted
        have hexisting : ((view.records depositor).getD
            StakeDeposit.zeroed).lastDepositSlot.toNat ≤ clock.slot.toNat := by
          cases hold : view.records depositor with
          | none => exact Nat.zero_le _
          | some old => exact hpast old hold
        obtain ⟨hlow, hhigh⟩ := weightedDepositSlot_between
          ((view.records depositor).getD StakeDeposit.zeroed).lpAmount
          ((view.records depositor).getD StakeDeposit.zeroed).lastDepositSlot
          lp clock.slot view.pool.cooldownSlots (by omega)
        rw [max_eq_right hexisting, ← hslot] at hhigh
        rw [min_eq_left hexisting, ← hslot] at hlow
        refine ⟨?_, ?_⟩
        · intro written hwritten
          cases (Function.update_self _ _ _).symm.trans hwritten
          exact hhigh
        · intro since hsince hlocked written hwritten _
          cases (Function.update_self _ _ _).symm.trans hwritten
          rcases Nat.eq_zero_or_pos ((view.records depositor).getD
              StakeDeposit.zeroed).lpAmount.toNat with hempty | hheld
          · rw [hslot]
            exact hsince.trans
              (current_le_weightedDepositSlot_of_empty _ _ _ _ _ hnew hempty)
          · cases hold : view.records depositor with
            | none =>
                rw [hold] at hheld
                exact absurd hheld (Nat.lt_irrefl 0)
            | some old =>
                rw [hold] at hheld hlow
                exact (hlocked old hold hheld).trans hlow
    | @withdraw _ holder lpAmount collateral guarded pool record remaining _ _
        hamount hrecord hcooldown hcollateral hpaid hfloor hpool hremaining
        hvault hsupply =>
        injection hother with huser
        subst huser
        have hkept := StakeDeposit.debitLp_slot hremaining
        have hdebit := StakeDeposit.debitLp_eq_ok hremaining
        refine ⟨?_, ?_⟩
        · intro written hwritten
          cases (Function.update_self _ _ _).symm.trans hwritten
          rw [hkept]
          exact hpast record hrecord
        · intro since _ hlocked written hwritten hheld
          cases (Function.update_self _ _ _).symm.trans hwritten
          rw [hkept]
          exact hlocked record hrecord (by omega)
    | _ => cases hother
  · have hsame := hstep.records_eq hother
    exact ⟨hpast.of_records_eq hsame, fun _ _ h => h.of_records_eq hsame⟩

/-- A withdrawal waits for the cooldown of the record it is made from. -/
theorem PoolStep.withdraw_after {lpAmount : U64} {since : ℕ}
    (hstep : PoolStep d key clock (.withdraw user lpAmount) view view')
    (hlocked : view.LockedFrom user since) :
    min (since + view.pool.cooldownSlots.toNat) (2 ^ 64 - 1) ≤
      clock.slot.toNat := by
  cases hstep with
  | @withdraw _ _ _ collateral guarded pool record remaining _ _ hamount
      hrecord hcooldown _ _ _ _ hremaining _ _ =>
      have hdebit := StakeDeposit.debitLp_eq_ok hremaining
      have hpositive := toNat_pos.mpr hamount
      have hsince := hlocked record hrecord (by omega)
      rw [toNat_saturatingAdd] at hcooldown
      omega

end Steps

/-! ## Runs in which time passes -/

section Runs

variable [DecidableEq Pubkey] [Inhabited Pubkey]

/-- A run along which the slot never goes back. -/
inductive TimedRun (rt : Runtime Pubkey) (start : Bank Pubkey) :
    Bank Pubkey → Prop
  | start : TimedRun rt start start
  | step {before after : Bank Pubkey} {event : Event Pubkey}
      (hrun : TimedRun rt start before) (hstep : Step rt before event after)
      (hclock : before.clock.slot.toNat ≤ after.clock.slot.toNat) :
      TimedRun rt start after

/-- Reachable without the slot ever going back. -/
def TimedReachable (rt : Runtime Pubkey) (bank : Bank Pubkey) : Prop :=
  ∃ start, Genesis rt.toDeployment start ∧ TimedRun rt start bank

variable {rt : Runtime Pubkey} {start before after : Bank Pubkey}
  {key user : Pubkey}

theorem TimedRun.reachable (hrun : TimedRun rt start after)
    (hstart : Reachable rt start) : Reachable rt after := by
  induction hrun with
  | start => exact hstart
  | step _ hstep _ ih => exact ih.step hstep

theorem TimedReachable.reachable (h : TimedReachable rt after) :
    Reachable rt after := by
  obtain ⟨start, hgenesis, hrun⟩ := h
  exact hrun.reachable ⟨start, [], hgenesis, .start⟩

theorem TimedRun.clock_le (hrun : TimedRun rt start after) :
    start.clock.slot.toNat ≤ after.clock.slot.toNat := by
  induction hrun with
  | start => exact le_rfl
  | step _ _ hclock ih => exact ih.trans hclock

/-- The slots of all deposit records lie in the past. -/
theorem TimedReachable.slotBy (h : TimedReachable rt after)
    {view : PoolView Pubkey}
    (hview : Shows rt.toDeployment after key view) :
    view.SlotBy user after.clock.slot.toNat := by
  obtain ⟨start, hgenesis, hrun⟩ := h
  induction hrun generalizing view with
  | start => exact absurd hview.pool (hgenesis.no_pool key _)
  | @step before after event hrun hstep hclock ih =>
      have hsound := (hrun.reachable ⟨start, [], hgenesis, .start⟩).sound
      rcases (hstep.simulates hsound).created key view hview with
        ⟨earlier, hearlier⟩ | ⟨hfresh, -⟩
      · obtain ⟨middle, shown, hpool, hdrift, hshown, -⟩ :=
          hstep.poolStep hsound hearlier
        cases hshown.unique hview
        have hpast := (hpool.lastDepositSlot (ih hearlier)).1
        exact (hpast.of_records_eq (congrFun hdrift.records user)).later hclock
      · intro record hrecord
        rw [hfresh.records user] at hrecord
        cases hrecord

/-- Whatever happens, LP counts from no earlier slot than it once did. -/
theorem TimedRun.lockedFrom (hrun : TimedRun rt start after)
    (hstart : TimedReachable rt start) {view : PoolView Pubkey}
    (hview : Shows rt.toDeployment start key view) {since : ℕ}
    (hsince : since ≤ start.clock.slot.toNat)
    (hlocked : view.LockedFrom user since) :
    TimedReachable rt after ∧
      ∃ view', Shows rt.toDeployment after key view' ∧
        view'.LockedFrom user since := by
  induction hrun with
  | start => exact ⟨hstart, view, hview, hlocked⟩
  | step hrun hstep hclock ih =>
      obtain ⟨hreachable, earlier, hearlier, hkept⟩ := ih
      obtain ⟨middle, view', hpool, hdrift, hshows, -⟩ :=
        hstep.poolStep hreachable.reachable.sound hearlier
      have hmiddle := (hpool.lastDepositSlot (hreachable.slotBy hearlier)).2
        since (hsince.trans hrun.clock_le) hkept
      obtain ⟨origin, hgenesis, horigin⟩ := hreachable
      exact ⟨⟨origin, hgenesis, horigin.step hstep hclock⟩, view', hshows,
        hmiddle.of_records_eq (congrFun hdrift.records user)⟩

/-- An accepted withdrawal comes a cooldown after the slot its user's LP
counted from at any earlier time, and a cooldown after any earlier time at
which the user held no LP.  The cooldown is the one in force at the
withdrawal. -/
theorem TimedRun.withdraw_waits (hrun : TimedRun rt start before)
    (hstart : TimedReachable rt start) {pool pool' : StakePool Pubkey}
    (hpool : rt.PoolAt start key pool) (hpool' : rt.PoolAt before key pool')
    {event : Event Pubkey} {lpAmount : U64}
    (hstep : Step rt before event after)
    (hwithdraw : event.seenBy key = .withdraw user lpAmount) :
    min ((storedRecord rt.toDeployment start key user).lastDepositSlot.toNat +
        pool'.cooldownSlots.toNat) (2 ^ 64 - 1) ≤ before.clock.slot.toNat ∧
      ((storedRecord rt.toDeployment start key user).lpAmount = 0 →
        min (start.clock.slot.toNat + pool'.cooldownSlots.toNat)
          (2 ^ 64 - 1) ≤ before.clock.slot.toNat) := by
  obtain ⟨view, rfl, hview⟩ := hstart.reachable.shows_pool hpool
  have hwaits : ∀ since, since ≤ start.clock.slot.toNat →
      view.LockedFrom user since →
        min (since + pool'.cooldownSlots.toNat) (2 ^ 64 - 1) ≤
          before.clock.slot.toNat := by
    intro since hsince hlocked
    obtain ⟨hreachable, view', hview', hlocked'⟩ :=
      hrun.lockedFrom hstart hview hsince hlocked
    cases hview'.pool.unique hpool'
    obtain ⟨middle, _, hpoolStep, -⟩ :=
      hstep.poolStep hreachable.reachable.sound hview'
    rw [hwithdraw] at hpoolStep
    exact hpoolStep.withdraw_after hlocked'
  have hpast : view.SlotBy user start.clock.slot.toNat := hstart.slotBy hview
  rw [hview.storedRecord_eq user]
  constructor
  · apply hwaits
    · cases hrecord : view.records user with
      | none => exact Nat.zero_le _
      | some record => exact hpast record hrecord
    · intro record hrecord _
      rw [hrecord]
      exact le_rfl
  · intro hempty
    apply hwaits _ le_rfl
    intro record hrecord hheld
    rw [hrecord] at hempty
    change record.lpAmount = 0 at hempty
    rw [hempty] at hheld
    exact absurd hheld (Nat.lt_irrefl 0)

end Runs

namespace Reference

/-- The transactions are accepted one after the other, and the slot never goes
back. -/
def inTime (bank : Bank Address) : List (Transaction Address) → Bool
  | [] => true
  | transaction :: rest =>
      let next := transaction.perform runtime bank
      accepts bank transaction &&
        decide (bank.clock.slot.toNat ≤ next.clock.slot.toNat) &&
        inTime next rest

theorem timedRun_of_inTime {start bank : Bank Address}
    {transactions : List (Transaction Address)}
    (hrun : TimedRun runtime start bank)
    (h : inTime bank transactions = true) :
    TimedRun runtime start
      (Transaction.performAll runtime bank transactions) := by
  induction transactions generalizing bank with
  | nil => exact hrun
  | cons transaction rest ih =>
      simp only [inTime, Bool.and_eq_true, decide_eq_true_eq] at h
      obtain ⟨⟨haccepts, hclock⟩, hrest⟩ := h
      exact ih (hrun.step (step_of_accepts haccepts) hclock) hrest

/-- Bob is in the pool, Alice is not yet. -/
def lockedMarket : List (Transaction Address) :=
  [initTradingPool 100, openLpAccount alice, openLpAccount bob,
    deposit bob 500, waitUntil 1030 1]

/-- Alice deposits twice and leaves when the average has aged out. -/
def aliceStays : List (Transaction Address) :=
  [deposit alice 300, waitUntil 1090 1, deposit alice 10, donate 81,
    accrueFees, waitUntil 1132 1]

theorem aliceStays_withdraw_waits : ∃ pool pool',
    pool'.cooldownSlots = 100 ∧
      deployment.PoolAt (bankAfter lockedMarket) poolKey pool ∧
      deployment.PoolAt
        (Transaction.performAll runtime (bankAfter lockedMarket) aliceStays)
        poolKey pool' ∧
      min (1030 + pool'.cooldownSlots.toNat) (2 ^ 64 - 1) ≤ 1132 := by
  have hread : (poolIn (bankAfter lockedMarket)).map (fun _ => ()) =
      some () := by decide +kernel
  have hread' : (poolIn (Transaction.performAll runtime
      (bankAfter lockedMarket) aliceStays)).map
        (fun pool => pool.cooldownSlots) = some 100 := by decide +kernel
  obtain ⟨pool, hpool, -⟩ := exists_poolAt hread
  obtain ⟨pool', hpool', hcooldown⟩ := exists_poolAt hread'
  have hstart : TimedReachable runtime (bankAfter lockedMarket) :=
    ⟨genesis, genesis_genesis,
      timedRun_of_inTime .start (by decide +kernel)⟩
  have hrun : TimedRun runtime (bankAfter lockedMarket)
      (Transaction.performAll runtime (bankAfter lockedMarket) aliceStays) :=
    timedRun_of_inTime .start (by decide +kernel)
  have hwithdraw : accepts
      (Transaction.performAll runtime (bankAfter lockedMarket) aliceStays)
      (withdraw alice 310) = true := by decide +kernel
  have hempty : (storedRecord deployment (bankAfter lockedMarket) poolKey
      alice.key).lpAmount = 0 := by decide +kernel
  have hwaits := (hrun.withdraw_waits hstart hpool hpool'
    (step_of_accepts hwithdraw) rfl).2 hempty
  exact ⟨pool, pool', hcooldown, hpool, hpool', hwaits⟩

end Reference

end PercolatorVault
