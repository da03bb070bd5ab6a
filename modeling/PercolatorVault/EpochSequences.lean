import PercolatorVault.HighWaterMark
import PercolatorVault.HwmConfiguration
import PercolatorVault.OverflowedPools

/-!
# Drawdowns over many epochs

In a protected epoch withdrawals leave at least the floor of the value the
epoch began with.  Over several epochs the floors multiply: whatever the
holders do, the value of the pool falls at most by one floor after the other,
rounded down each time, as long as nothing is flushed and nobody withdraws
while protection is off.  A floor of the whole value is accepted too; under it
nobody leaves in any epoch before the admin changes the configuration.
-/

namespace PercolatorVault

open CheckedArithmetic
open ShareLedger

variable {Pubkey : Type}

/-- What a floor leaves of a value. -/
def floorOf (value : ℕ) (floorBps : U16) : ℕ :=
  value * floorBps.toNat / 10000

theorem floorOf_mono {value value' : ℕ} (h : value ≤ value')
    (floorBps : U16) : floorOf value floorBps ≤ floorOf value' floorBps :=
  Nat.div_le_div_right (Nat.mul_le_mul_right _ h)

theorem floorOf_le (value : ℕ) {floorBps : U16}
    (h : floorBps.toNat ≤ 10000) : floorOf value floorBps ≤ value := by
  apply Nat.div_le_of_le_mul
  rw [Nat.mul_comm]
  exact Nat.mul_le_mul_right value h

section Runs

variable [DecidableEq Pubkey] [Inhabited Pubkey] {rt : Runtime Pubkey}
  {start before opened after : Bank Pubkey} {key : Pubkey}
  {floorBps : U16} {peak : ℕ}

/-- Events that pay nothing out do not lower the value. -/
theorem PoolStep.bookValue_le {d : Deployment Pubkey} {clock : Clock}
    {event : PoolEvent Pubkey} {view view' : PoolView Pubkey}
    (hstep : PoolStep d key clock event view view')
    (hcoherent : view.ledger.Coherent) (hpays : ¬ event.PaysOut) :
    view.pool.bookValue ≤ view'.pool.bookValue := by
  obtain ⟨operation, hperforms, hallowed, hledger⟩ := hstep.ledger_apply
  have hflush : ∀ amount, event ≠ .flush amount := by
    rintro amount rfl
    exact hpays trivial
  have hwithdraw : ∀ user lpAmount, event ≠ .withdraw user lpAmount := by
    rintro user lpAmount rfl
    exact hpays trivial
  have hvalue := hcoherent.value_le_apply hallowed
    (hperforms.ne_flush hflush) (hperforms.ne_withdraw hwithdraw)
  rwa [← hledger, view.ledger_value, view'.ledger_value] at hvalue

theorem Run.bookValue_le {events : List (Event Pubkey)}
    (hrun : Run rt before events after) (hbefore : Reachable rt before)
    (hpays : ∀ event ∈ events, ¬ (event.seenBy key).PaysOut)
    {view : PoolView Pubkey}
    (hview : Shows rt.toDeployment before key view) :
    ∃ view', Shows rt.toDeployment after key view' ∧
      view.pool.bookValue ≤ view'.pool.bookValue := by
  induction hrun with
  | start => exact ⟨view, hview, le_rfl⟩
  | @step events event middle after hrun hstep ih =>
      obtain ⟨earlier, hearlier, hsofar⟩ :=
        ih fun event hmem => hpays event (by simp [hmem])
      have hreachable := hbefore.run hrun
      obtain ⟨stepped, view', hpool, hdrift, hshows, -⟩ :=
        hstep.poolStep hreachable.sound hearlier
      have hlast := hpool.bookValue_le (hreachable.coherent hearlier)
        (hpays event (by simp))
      refine ⟨view', hshows, hsofar.trans ?_⟩
      rw [hdrift.pool]
      exact hlast

/-- The floor an enabled protection works with is at most the whole. -/
theorem Reachable.floor_le (h : Reachable rt before)
    {view : PoolView Pubkey}
    (hview : Shows rt.toDeployment before key view)
    (hprotected : view.pool.ProtectedAt floorBps) :
    floorBps.toNat ≤ 10000 := by
  obtain ⟨start, events, hgenesis, hrun⟩ := h
  have hrange := (hrun.hwm_configured hgenesis hview).1 hprotected.1
  rw [hprotected.2] at hrange
  exact hrange.2

/-- At any time of a protected epoch the value is at least the floor of the
value at its beginning. -/
theorem EpochRun.keeps_floor
    (hrun : EpochRun rt key floorBps opened peak after)
    (hopened : Reachable rt opened) {first : PoolView Pubkey}
    (hfirst : Shows rt.toDeployment opened key first) :
    Reachable rt after ∧ ∃ view, Shows rt.toDeployment after key view ∧
      view.pool.ProtectedAt floorBps ∧
      first.pool.bookValue ≤
        max view.pool.bookValue (view.pool.markIn after.clock.epoch) ∧
      floorOf first.pool.bookValue floorBps ≤ view.pool.bookValue := by
  induction hrun with
  | start hpool hprotected =>
      cases hfirst.pool.unique hpool
      exact ⟨hopened, first, hfirst, hprotected, le_max_left _ _,
        floorOf_le _ (hopened.floor_le hfirst hprotected)⟩
  | @step _ before after event _ _ hstep hepoch hflush hpool hprotected ih =>
      obtain ⟨hreachable, view, hview, ⟨henabled, hbps⟩, hcovered, hfloor⟩ := ih
      obtain ⟨middle, view', hpoolStep, hdrift, hshows, -⟩ :=
        hstep.poolStep hreachable.sound hview
      cases hshows.pool.unique hpool
      have hcoherent := hreachable.coherent hview
      have hkept := hpoolStep.peak_le hcoherent henabled hflush hcovered
      have hleft : floorOf first.pool.bookValue floorBps ≤
          middle.pool.bookValue := by
        by_cases hpays : (event.seenBy key).PaysOut
        · -- A withdrawal: the refreshed mark covers the first value.
          cases hcall : event.seenBy key with
          | withdraw user lpAmount =>
              rw [hcall] at hpoolStep
              have hmark := hpoolStep.markIn_le
              obtain ⟨hbook, value, hvalue, -, hwithdraw⟩ :=
                hpoolStep.withdraw_leaves henabled
              rw [hbps] at hwithdraw
              rw [(StakePool.bookValue_of_totalPoolValue hvalue).1]
              exact (floorOf_mono (by omega) floorBps).trans hwithdraw
          | flush amount => exact absurd hcall (hflush amount)
          | _ =>
              rw [hcall] at hpays
              exact hpays.elim
        · exact hfloor.trans (hpoolStep.bookValue_le hcoherent hpays)
      rw [← hdrift.pool] at hkept hleft
      refine ⟨hreachable.step hstep, view', hshows, hprotected, ?_, hleft⟩
      rw [hepoch]
      exact hkept

/-- Protected epochs with the given floors.  In between anything may happen
but a withdrawal or a flush. -/
inductive EpochSequence (rt : Runtime Pubkey) (key : Pubkey)
    (start : Bank Pubkey) : List U16 → Bank Pubkey → Prop
  | start : EpochSequence rt key start [] start
  | epoch {floors : List U16} {floorBps : U16} {peak : ℕ}
      {before opened after : Bank Pubkey} {events : List (Event Pubkey)}
      (hsequence : EpochSequence rt key start floors before)
      (hbetween : Run rt before events opened)
      (hpays : ∀ event ∈ events, ¬ (event.seenBy key).PaysOut)
      (hrun : EpochRun rt key floorBps opened peak after) :
      EpochSequence rt key start (floors ++ [floorBps]) after

/-- Withdrawals take something out. -/
theorem PoolStep.bookValue_lt_of_withdraw {d : Deployment Pubkey}
    {clock : Clock} {user : Pubkey} {lpAmount : U64}
    {view view' : PoolView Pubkey}
    (hstep : PoolStep d key clock (.withdraw user lpAmount) view view') :
    view'.pool.bookValue < view.pool.bookValue := by
  obtain ⟨operation, hperforms, hallowed, hledger⟩ := hstep.ledger_apply
  obtain ⟨payout, rfl⟩ := hperforms.of_withdraw
  obtain ⟨-, hheld, hpayout, hpositive, -⟩ := hallowed
  have hle : payout ≤ view.ledger.value := by
    rw [hpayout]
    exact view.ledger.pot.redeem_le_value hheld
  have hvalue := view.ledger.value_withdraw lpAmount.toNat payout
  rw [← hledger, view'.ledger_value] at hvalue
  rw [← view.ledger_value]
  omega

/-- Nobody left: nothing was paid out and no LP was burned by the program. -/
structure PoolView.Remains (view view' : PoolView Pubkey) : Prop where
  withdrawn : view'.pool.totalWithdrawn = view.pool.totalWithdrawn
  supply : view.pool.totalLpSupply.toNat ≤ view'.pool.totalLpSupply.toNat

theorem PoolStep.remains {d : Deployment Pubkey} {clock : Clock}
    {event : PoolEvent Pubkey} {view view' : PoolView Pubkey}
    (hstep : PoolStep d key clock event view view')
    (hwithdraw : ∀ user lpAmount, event ≠ .withdraw user lpAmount) :
    view.Remains view' := by
  obtain ⟨operation, hperforms, -, hledger⟩ := hstep.ledger_apply
  have hwithdrawn := congrArg Ledger.withdrawn hledger
  have hsupply := congrArg Ledger.supply hledger
  have hother := hperforms.ne_withdraw hwithdraw
  cases operation with
  | withdraw shares payout => exact absurd rfl (hother shares payout)
  | deposit amount shares =>
      exact ⟨BitVec.eq_of_toNat_eq hwithdrawn,
        (Nat.le_add_right _ _).trans_eq hsupply.symm⟩
  | _ => exact ⟨BitVec.eq_of_toNat_eq hwithdrawn, hsupply.ge⟩

/-- Under a floor of the whole value no step is a withdrawal. -/
theorem PoolStep.ne_withdraw_of_wholeFloor {d : Deployment Pubkey}
    {clock : Clock} {event : PoolEvent Pubkey} {view view' : PoolView Pubkey}
    (hstep : PoolStep d key clock event view view')
    (hprotected : view.pool.ProtectedAt 10000) (user : Pubkey)
    (lpAmount : U64) : event ≠ .withdraw user lpAmount := by
  rintro rfl
  have hfalls := hstep.bookValue_lt_of_withdraw
  obtain ⟨hmark, value, hvalue, -, hfloor⟩ :=
    hstep.withdraw_leaves hprotected.1
  rw [hprotected.2, show (10000 : U16).toNat = 10000 from rfl,
    Nat.mul_div_cancel _ (by decide)] at hfloor
  rw [(StakePool.bookValue_of_totalPoolValue hvalue).1] at hfalls
  omega

/-- With a floor of the whole value in force, nobody withdraws in any
continuation until the admin changes the configuration. -/
theorem Run.exitsHalted {events : List (Event Pubkey)}
    (hrun : Run rt start events after) (hstart : Reachable rt start)
    {pool pool' : StakePool Pubkey} (hpool : rt.PoolAt start key pool)
    (hpool' : rt.PoolAt after key pool')
    (hprotected : pool.ProtectedAt 10000)
    (hadmin : ∀ event ∈ events, event.seenBy key ≠ .administer) :
    (∀ event ∈ events, ∀ user lpAmount,
        event.seenBy key ≠ .withdraw user lpAmount) ∧
      pool'.ProtectedAt 10000 ∧
      pool'.totalWithdrawn = pool.totalWithdrawn ∧
      pool.totalLpSupply.toNat ≤ pool'.totalLpSupply.toNat := by
  obtain ⟨view, rfl, hview⟩ := hstart.shows_pool hpool
  have hshown : (∀ event ∈ events, ∀ user lpAmount,
        event.seenBy key ≠ .withdraw user lpAmount) ∧
      ∃ view', Shows rt.toDeployment after key view' ∧
        view'.pool.ProtectedAt 10000 ∧ view.Remains view' := by
    clear hpool'
    induction hrun with
    | start =>
        exact ⟨by simp, view, hview, hprotected, rfl, le_rfl⟩
    | @step events event before after hrun hstep ih =>
        obtain ⟨hnone, earlier, hearlier, hstill, hkept⟩ :=
          ih fun event hmem => hadmin event (by simp [hmem])
        have hreachable := hstart.run hrun
        obtain ⟨middle, view', hpoolStep, hdrift, hshows, -⟩ :=
          hstep.poolStep hreachable.sound hearlier
        have hother := hpoolStep.ne_withdraw_of_wholeFloor hstill
        have hsettings := hpoolStep.sameSettings (hadmin event (by simp))
        have hlast := hpoolStep.remains hother
        refine ⟨?_, view', hshows, ?_, ?_, ?_⟩
        · intro event' hmem
          rcases List.mem_append.mp hmem with hearly | hnew
          · exact hnone event' hearly
          · cases List.mem_singleton.mp hnew
            exact hother
        · rw [hdrift.pool]
          exact ⟨hsettings.hwmEnabled.trans hstill.1,
            hsettings.hwmFloorBps.trans hstill.2⟩
        · rw [hdrift.pool, hlast.withdrawn, hkept.withdrawn]
        · rw [hdrift.pool]
          exact hkept.supply.trans hlast.supply
  obtain ⟨hnone, view', hview', hstill, hkept⟩ := hshown
  cases hview'.pool.unique hpool'
  exact ⟨hnone, hstill, hkept.withdrawn, hkept.supply⟩

end Runs

namespace Reference

theorem exists_epochRun {bank : Bank Address} {floorBps : U16} {value : ℕ}
    (hread : (poolIn bank).map (fun pool =>
      ((pool.totalPoolValue.getD 0).toNat,
        decide (pool.ProtectedAt floorBps))) = some (value, true)) :
    EpochRun runtime poolKey floorBps bank value bank := by
  obtain ⟨pool, hpool, hnumbers⟩ := exists_poolAt hread
  have hvalue : (pool.totalPoolValue.getD 0).toNat = value :=
    congrArg Prod.fst hnumbers
  rw [← hvalue]
  exact .start hpool (of_decide_eq_true (congrArg Prod.snd hnumbers))

/-- The bank after a first epoch that ends with a withdrawal. -/
def firstEpoch : Bank Address :=
  Transaction.performAll runtime (bankAfter protectedMarket)
    [waitUntil 1200 1, withdraw alice 400]

/-- The next epoch begins. -/
def secondEpoch : Bank Address :=
  Transaction.performAll runtime firstEpoch [waitUntil 1300 2]

/-- A floor of the whole value, set while two holders are in the pool. -/
def haltedMarket : List (Transaction Address) :=
  [initTradingPool 10, openLpAccount alice, openLpAccount bob,
    deposit alice 1000, setHwmConfig true 10000]

/-- Deposits and fees go on in the epochs that follow. -/
def haltedEpochs : List (Transaction Address) :=
  [waitUntil 2000 2, deposit bob 300, donate 70, accrueFees,
    waitUntil 3000 3]

theorem haltedEpochs_exitsHalted : ∃ pool pool',
    deployment.PoolAt (bankAfter haltedMarket) poolKey pool ∧
      deployment.PoolAt
        (Transaction.performAll runtime (bankAfter haltedMarket)
          haltedEpochs) poolKey pool' ∧
      pool.ProtectedAt 10000 ∧
      pool'.ProtectedAt 10000 ∧
      pool'.totalWithdrawn = pool.totalWithdrawn ∧
      pool.totalLpSupply.toNat ≤ pool'.totalLpSupply.toNat := by
  have hread : (poolIn (bankAfter haltedMarket)).map
      (fun pool => decide (pool.ProtectedAt 10000)) = some true := by
    decide +kernel
  have hread' : (poolIn (Transaction.performAll runtime
      (bankAfter haltedMarket) haltedEpochs)).map (fun _ => ()) =
        some () := by decide +kernel
  obtain ⟨pool, hpool, hprotected⟩ := exists_poolAt hread
  obtain ⟨pool', hpool', -⟩ := exists_poolAt hread'
  have hprotected : pool.ProtectedAt 10000 := of_decide_eq_true hprotected
  have haccepts : acceptsAll (bankAfter haltedMarket) haltedEpochs = true :=
    by decide +kernel
  have hadmin : ∀ event ∈ haltedEpochs.map Transaction.event,
      event.seenBy poolKey ≠ .administer := by
    intro event hmem
    obtain ⟨transaction, htransaction, rfl⟩ := List.mem_map.mp hmem
    have hall : ∀ transaction ∈ haltedEpochs,
        transaction.event.seenBy poolKey ≠ .administer := by decide +kernel
    exact hall transaction htransaction
  obtain ⟨-, hstill, hkept⟩ := Run.exitsHalted (run_of_acceptsAll haccepts)
    (bankAfter_reachable (by decide +kernel)) hpool hpool' hprotected hadmin
  exact ⟨pool, pool', hpool, hpool', hprotected, hstill, hkept⟩

end Reference

end PercolatorVault
