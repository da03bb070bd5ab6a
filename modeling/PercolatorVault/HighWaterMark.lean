import PercolatorVault.PoolSegments

/-!
# The high-water mark

While protection is on, the value left by a withdrawal stays above the floor
of the largest value seen in the epoch.  The stored mark is refreshed by
deposits and withdrawals only; the invariant is that no peak exceeds both the
mark and the present value.
-/

namespace PercolatorVault

open CheckedArithmetic
open ShareLedger

variable {Pubkey : Type}

/-- The stored mark, as far as it counts in `epoch`. -/
def StakePool.markIn (pool : StakePool Pubkey) (epoch : U64) : ℕ :=
  if pool.hwmLastEpoch = epoch then pool.epochHighWaterTvl.toNat else 0

namespace StakePool

variable {pool pool' : StakePool Pubkey} {epoch : U64}

theorem markIn_congr
    (hmark : pool'.epochHighWaterTvl = pool.epochHighWaterTvl)
    (hepoch : pool'.hwmLastEpoch = pool.hwmLastEpoch) :
    pool'.markIn epoch = pool.markIn epoch := by
  unfold markIn
  rw [hmark, hepoch]

theorem markIn_of_refreshed {value : U64}
    (h : pool'.reservedFields = pool.reservedFields.refreshHwm epoch value) :
    pool'.markIn epoch = max (pool.markIn epoch) value.toNat := by
  have hlast : pool'.hwmLastEpoch = epoch :=
    congrArg ReservedFields.hwmLastEpoch h
  have hmark : pool'.epochHighWaterTvl =
      if epoch ≠ pool.hwmLastEpoch then value
      else wordMax pool.epochHighWaterTvl value :=
    congrArg ReservedFields.epochHighWaterTvl h
  unfold markIn
  rw [if_pos hlast, hmark]
  by_cases hepoch : pool.hwmLastEpoch = epoch
  · rw [if_neg (not_not.mpr hepoch.symm), if_pos hepoch, toNat_wordMax]
  · rw [if_pos (Ne.symm hepoch), if_neg hepoch, Nat.zero_max]

theorem markIn_eq_of_reservedFields
    (h : pool'.reservedFields = pool.reservedFields) :
    pool'.markIn epoch = pool.markIn epoch :=
  markIn_congr (congrArg ReservedFields.epochHighWaterTvl h)
    (congrArg ReservedFields.hwmLastEpoch h)

theorem markIn_recordWithdraw {collateral lpAmount : U64}
    (h : pool.recordWithdraw collateral lpAmount = .ok pool') :
    pool'.markIn epoch = pool.markIn epoch := by
  obtain ⟨_, _, _, _, rfl⟩ := recordWithdraw_eq_ok h
  exact markIn_eq_of_reservedFields (reservedFields_congr rfl)

/-- The value the program works with is at most the booked one. -/
theorem totalPoolValue_getD_le (pool : StakePool Pubkey) :
    (pool.totalPoolValue.getD 0).toNat ≤ pool.bookValue := by
  cases hvalue : pool.totalPoolValue with
  | none => exact Nat.zero_le _
  | some value => exact (bookValue_of_totalPoolValue hvalue).1.ge

end StakePool

section Steps

variable [DecidableEq Pubkey] [Inhabited Pubkey] {d : Deployment Pubkey}
  {key : Pubkey} {clock : Clock} {event : PoolEvent Pubkey}
  {view view' : PoolView Pubkey}

/-- Within its epoch the mark never falls. -/
theorem PoolStep.markIn_le (hstep : PoolStep d key clock event view view') :
    view.pool.markIn clock.epoch ≤ view'.pool.markIn clock.epoch := by
  cases hstep with
  | deposit _ _ _ _ _ _ hpool _ _ _ =>
      obtain ⟨_, _, _, _, _, -, hfields⟩ :=
        StakePool.recordDeposit_eq_ok hpool
      split at hfields
      · rw [StakePool.markIn_of_refreshed hfields]
        exact le_max_left _ _
      · exact (StakePool.markIn_eq_of_reservedFields hfields).ge
  | withdraw _ _ _ _ _ hfloor hpool _ _ _ =>
      obtain ⟨_, _, _, _, _, -, hfields⟩ :=
        StakePool.guardedWithdraw_eq_ok hfloor hpool
      split at hfields
      · rw [StakePool.markIn_of_refreshed hfields]
        exact le_max_left _ _
      · exact (StakePool.markIn_eq_of_reservedFields hfields).ge
  | flush =>
      exact (StakePool.markIn_eq_of_reservedFields
        (StakePool.reservedFields_congr rfl)).ge
  | returnInsurance =>
      exact (StakePool.markIn_eq_of_reservedFields
        (StakePool.reservedFields_congr rfl)).ge
  | accrueFees _ hpool =>
      rcases StakePool.accrue_eq_ok hpool with
        ⟨-, _, -, hfields⟩ | ⟨-, _, _, -, -, -, hwritten⟩
      · exact (StakePool.markIn_congr
          (congrArg ReservedFields.epochHighWaterTvl hfields)
          (congrArg ReservedFields.hwmLastEpoch hfields)).ge
      · exact (StakePool.markIn_eq_of_reservedFields
          (StakePool.reservedFields_congr
            (congrArg StakePool.reserved hwritten))).ge
  | administer hpool =>
      obtain ⟨_, _, _, _, -, -, hmark, hlast⟩ :=
        StakePool.administered_eq hpool
      exact (StakePool.markIn_congr hmark hlast).ge
  | idle => exact le_rfl

/-- A protected withdrawal refreshes the mark with the value it found and
leaves at least the floor of it. -/
theorem PoolStep.withdraw_leaves {user : Pubkey} {lpAmount : U64}
    (hstep : PoolStep d key clock (.withdraw user lpAmount) view view')
    (henabled : view.pool.hwmEnabled = true) :
    view.pool.bookValue ≤ view'.pool.markIn clock.epoch ∧
      ∃ value, view'.pool.totalPoolValue = some value ∧
        value.toNat ≤ view.pool.bookValue ∧
        view'.pool.markIn clock.epoch * view.pool.hwmFloorBps.toNat / 10000 ≤
          value.toNat := by
  cases hstep with
  | @withdraw _ _ _ collateral guarded pool _ _ _ _ _ _ _ hcollateral _ hfloor
      hpool _ _ _ =>
      have hmark : pool.markIn clock.epoch = guarded.markIn clock.epoch :=
        StakePool.markIn_recordWithdraw hpool
      obtain ⟨value, hvalue, -, -⟩ :=
        StakePool.calcCollateralForWithdraw_eq_some.mp hcollateral
      have hbook := (StakePool.bookValue_of_totalPoolValue hvalue).1
      obtain ⟨reserved, hguarded, hguard⟩ :=
        StakePool.enforceHwmFloor_eq_ok hfloor
      rw [if_pos henabled, hvalue, Option.getD_some] at hguard
      obtain ⟨hfields, hle, hleft⟩ := hguard
      have hrefreshed : guarded.markIn clock.epoch =
          max (view.pool.markIn clock.epoch) value.toNat :=
        StakePool.markIn_of_refreshed hfields
      have hcounts : guarded.markIn clock.epoch =
          guarded.epochHighWaterTvl.toNat :=
        if_pos (congrArg ReservedFields.hwmLastEpoch hfields)
      obtain ⟨withdrawn, supply, hwithdrawn, -, rfl⟩ :=
        StakePool.recordWithdraw_eq_ok hpool
      have hinflow : StakePool.inflow
          { guarded with
            totalWithdrawn := withdrawn
            totalLpSupply := supply } = view.pool.inflow := by
        rw [hguarded]
        rfl
      have houtflow : StakePool.outflow
          { guarded with
            totalWithdrawn := withdrawn
            totalLpSupply := supply } =
          view.pool.outflow + collateral.toNat := by
        unfold StakePool.outflow
        rw [hguarded] at hwithdrawn ⊢
        dsimp only at hwithdrawn ⊢
        omega
      obtain ⟨hin, -, hsum⟩ := StakePool.totalPoolValue_eq_some.mp hvalue
      have hleftValue : (value - collateral).toNat =
          value.toNat - collateral.toNat := toNat_sub_of_le hle
      refine ⟨?_, value - collateral, ?_, ?_, ?_⟩
      · rw [hmark, hrefreshed, hbook]
        exact le_max_right _ _
      · rw [StakePool.totalPoolValue_eq_some, hinflow, houtflow]
        omega
      · omega
      · rw [hmark, hcounts, hleftValue]
        exact hleft

end Steps

/-! ## Segments of a run -/

def StakePool.ProtectedAt (pool : StakePool Pubkey) (floorBps : U16) : Prop :=
  pool.hwmEnabled = true ∧ pool.hwmFloorBps = floorBps

variable [DecidableEq Pubkey] [Inhabited Pubkey] {rt : Runtime Pubkey}
  {key : Pubkey} {floorBps : U16} {start before after : Bank Pubkey}
  {peak : ℕ} {event : Event Pubkey}

/-- A segment inside one epoch during which protection stays on, the floor
stays the same and the pool is not flushed.  The number is the largest value
the pool had in any state so far. -/
inductive EpochRun (rt : Runtime Pubkey) (key : Pubkey) (floorBps : U16)
    (start : Bank Pubkey) : ℕ → Bank Pubkey → Prop
  | start {pool : StakePool Pubkey} (hpool : rt.PoolAt start key pool)
      (hprotected : pool.ProtectedAt floorBps) :
      EpochRun rt key floorBps start (pool.totalPoolValue.getD 0).toNat start
  | step {peak : ℕ} {before after : Bank Pubkey} {event : Event Pubkey}
      {pool : StakePool Pubkey}
      (hrun : EpochRun rt key floorBps start peak before)
      (hstep : Step rt before event after)
      (hepoch : after.clock.epoch = before.clock.epoch)
      (hflush : ∀ amount, event.seenBy key ≠ .flush amount)
      (hpool : rt.PoolAt after key pool)
      (hprotected : pool.ProtectedAt floorBps) :
      EpochRun rt key floorBps start
        (max peak (pool.totalPoolValue.getD 0).toNat) after

/-- No peak is lost: it is covered by the present value or by the mark. -/
theorem PoolStep.peak_le {d : Deployment Pubkey} {clock : Clock}
    {event : PoolEvent Pubkey} {view view' : PoolView Pubkey}
    (hstep : PoolStep d key clock event view view')
    (hcoherent : view.ledger.Coherent)
    (henabled : view.pool.hwmEnabled = true)
    (hflush : ∀ amount, event ≠ .flush amount)
    (hpeak : peak ≤ max view.pool.bookValue (view.pool.markIn clock.epoch)) :
    peak ≤ max view'.pool.bookValue (view'.pool.markIn clock.epoch) := by
  have hmark := hstep.markIn_le
  by_cases hwithdraw : ∃ user lpAmount, event = .withdraw user lpAmount
  · obtain ⟨user, lpAmount, rfl⟩ := hwithdraw
    have hrefreshed := (hstep.withdraw_leaves henabled).1
    omega
  · obtain ⟨operation, hperforms, hallowed, hledger⟩ := hstep.ledger_apply
    have hvalue := hcoherent.value_le_apply hallowed
      (hperforms.ne_flush hflush)
      (hperforms.ne_withdraw fun user lpAmount heq =>
        hwithdraw ⟨user, lpAmount, heq⟩)
    rw [← hledger, view.ledger_value, view'.ledger_value] at hvalue
    omega

theorem EpochRun.tracked (hrun : EpochRun rt key floorBps start peak before)
    (hstart : Reachable rt start) :
    Reachable rt before ∧ ∃ view, Shows rt.toDeployment before key view ∧
      view.pool.ProtectedAt floorBps ∧
      peak ≤ max view.pool.bookValue
        (view.pool.markIn before.clock.epoch) := by
  induction hrun with
  | start hpool hprotected =>
      obtain ⟨view, rfl, hview⟩ := hstart.shows_pool hpool
      have hvalue := view.pool.totalPoolValue_getD_le
      exact ⟨hstart, view, hview, hprotected, by omega⟩
  | step _ hstep hepoch hflush hpool hprotected ih =>
      obtain ⟨hreachable, view, hview, ⟨henabled, -⟩, hpeak⟩ := ih
      obtain ⟨middle, view', hpoolStep, hdrift, hshows, -⟩ :=
        hstep.poolStep hreachable.sound hview
      have hsame := hshows.pool.unique hpool
      subst hsame
      have hkept := hpoolStep.peak_le (hreachable.coherent hview) henabled
        hflush hpeak
      rw [← hdrift.pool] at hkept
      have hvalue := view'.pool.totalPoolValue_getD_le
      refine ⟨hreachable.step hstep, view', hshows, hprotected, ?_⟩
      rw [hepoch]
      omega

/-- What a withdrawal leaves is at least the floor of the largest value the
segment has seen. -/
theorem EpochRun.withdraw_floor
    (hrun : EpochRun rt key floorBps start peak before)
    (hstart : Reachable rt start) (hstep : Step rt before event after)
    {user : Pubkey} {lpAmount : U64}
    (hwithdraw : event.seenBy key = .withdraw user lpAmount) :
    ∃ pool value, rt.PoolAt after key pool ∧
      pool.totalPoolValue = some value ∧
      max peak value.toNat * floorBps.toNat / 10000 ≤ value.toNat := by
  obtain ⟨hreachable, view, hview, ⟨henabled, hbps⟩, hpeak⟩ :=
    hrun.tracked hstart
  obtain ⟨middle, view', hpool, hdrift, hshows, -⟩ :=
    hstep.poolStep hreachable.sound hview
  rw [hwithdraw] at hpool
  obtain ⟨hrefreshed, value, hvalue, hle, hfloor⟩ :=
    hpool.withdraw_leaves henabled
  have hmark := hpool.markIn_le
  rw [hbps] at hfloor
  refine ⟨view'.pool, value, hshows.pool, ?_, ?_⟩
  · rw [hdrift.pool]
    exact hvalue
  · refine le_trans (Nat.div_le_div_right (Nat.mul_le_mul_right _ ?_)) hfloor
    omega

namespace Reference

instance (pool : StakePool Address) (floorBps : U16) :
    Decidable (pool.ProtectedAt floorBps) :=
  inferInstanceAs (Decidable (_ ∧ _))

/-- The peak after the transactions, if they make up a protected segment. -/
def protectedPeak (floorBps : U16) (peak : ℕ) (bank : Bank Address) :
    List (Transaction Address) → Option ℕ
  | [] => some peak
  | transaction :: rest =>
      let next := transaction.perform runtime bank
      match poolIn next with
      | none => none
      | some pool =>
          if accepts bank transaction = true ∧
              next.clock.epoch = bank.clock.epoch ∧
              flushes transaction = false ∧ pool.ProtectedAt floorBps then
            protectedPeak floorBps
              (max peak (pool.totalPoolValue.getD 0).toNat) next rest
          else none

theorem epochRun_of_protectedPeak {start bank : Bank Address}
    {transactions : List (Transaction Address)} {peak peak' : ℕ}
    (hrun : EpochRun runtime poolKey floorBps start peak bank)
    (h : protectedPeak floorBps peak bank transactions = some peak') :
    EpochRun runtime poolKey floorBps start peak'
      (Transaction.performAll runtime bank transactions) := by
  induction transactions generalizing bank peak with
  | nil =>
      cases h
      exact hrun
  | cons transaction rest ih =>
      unfold protectedPeak at h
      dsimp only at h
      split at h
      · cases h
      · next pool hpool =>
          split at h
          · next hstep =>
              obtain ⟨haccepts, hepoch, hflush, hprotected⟩ := hstep
              exact ih (hrun.step (step_of_accepts haccepts) hepoch
                (ne_flush_of_not_flushes hflush) (poolIn_eq_some.mp hpool)
                hprotected) h
          · cases h

/-- A deposit of 1000 under a floor of one half. -/
def protectedMarket : List (Transaction Address) :=
  [initTradingPool 10, openLpAccount alice, deposit alice 1000,
    setHwmConfig true 5000]

/-- Booked fees lift the value to 1500 without touching the mark. -/
def unmarkedPeak : List (Transaction Address) :=
  [donate 500, accrueFees, waitUntil 1200 1]

theorem unmarkedPeak_withdraw_floor : ∃ pool value,
    deployment.PoolAt
        ((withdraw alice 200).perform runtime
          (Transaction.performAll runtime (bankAfter protectedMarket)
            unmarkedPeak)) poolKey pool ∧
      pool.totalPoolValue = some value ∧
      max 1500 value.toNat * 5000 / 10000 ≤ value.toNat := by
  have hread : (poolIn (bankAfter protectedMarket)).map (fun pool =>
      ((pool.totalPoolValue.getD 0).toNat,
        decide (pool.ProtectedAt 5000))) = some (1000, true) := by
    decide +kernel
  obtain ⟨pool, hpool, hnumbers⟩ := exists_poolAt hread
  have hstart : EpochRun runtime poolKey 5000 (bankAfter protectedMarket)
      1000 (bankAfter protectedMarket) := by
    have hvalue : (pool.totalPoolValue.getD 0).toNat = 1000 :=
      congrArg Prod.fst hnumbers
    rw [← hvalue]
    exact .start hpool (of_decide_eq_true (congrArg Prod.snd hnumbers))
  have hpeak : protectedPeak 5000 1000 (bankAfter protectedMarket)
      unmarkedPeak = some 1500 := by decide +kernel
  have haccepts : accepts (Transaction.performAll runtime
      (bankAfter protectedMarket) unmarkedPeak) (withdraw alice 200) = true :=
    by decide +kernel
  have hwithdraw : (withdraw alice 200).event.seenBy poolKey =
      .withdraw alice.key 200 := rfl
  exact EpochRun.withdraw_floor (epochRun_of_protectedPeak hstart hpeak)
    (bankAfter_reachable (by decide +kernel)) (step_of_accepts haccepts)
    hwithdraw

end Reference

end PercolatorVault
