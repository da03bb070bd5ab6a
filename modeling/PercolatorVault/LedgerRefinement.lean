import PercolatorVault.RunInvariants
import PercolatorVault.ShareLedger

/-!
# Pools keep ledgers

The totals of a pool record, read as unbounded numbers together with the
vault, are a `Ledger`.  Every step of the pool machine performs one allowed
operation on it and every drift is a receipt, so the ledger of every reachable
pool is coherent.
-/

namespace PercolatorVault

open CheckedArithmetic
open FallibleSteps
open ProportionalShares
open ShareLedger

variable {Pubkey : Type}

def PoolView.ledger (view : PoolView Pubkey) : Ledger where
  trading := view.pool.poolMode = 1
  deposited := view.pool.totalDeposited.toNat
  withdrawn := view.pool.totalWithdrawn.toNat
  flushed := view.pool.totalFlushed.toNat
  returned := view.pool.totalReturned.toNat
  fees := view.pool.totalFeesEarned.toNat
  supply := view.pool.totalLpSupply.toNat
  offset := view.pool.preSupplyVaultOffset.toNat
  vault := view.vaultAmount.toNat

/-- The operations an event may perform on the ledger. -/
def PoolEvent.Performs : PoolEvent Pubkey → Operation → Prop
  | .deposit _ amount, .deposit amount' _ => amount' = amount.toNat
  | .withdraw _ lpAmount, .withdraw shares _ => shares = lpAmount.toNat
  | .flush amount, .flush amount' => amount' = amount.toNat
  | .returnInsurance amount, .reclaim amount' => amount' = amount.toNat
  | .accrueFees, .settle => True
  | .accrueFees, .book => True
  | .administer, .receive amount => amount = 0
  | .idle, .receive amount => amount = 0
  | _, _ => False

/-- The value of a pool as an unbounded number. -/
def StakePool.bookValue (pool : StakePool Pubkey) : ℕ :=
  pool.inflow - pool.outflow

@[simp] theorem PoolView.ledger_inflow (view : PoolView Pubkey) :
    view.ledger.inflow = view.pool.inflow := by
  unfold Ledger.inflow StakePool.inflow PoolView.ledger
  by_cases hmode : view.pool.poolMode = 1 <;> simp [hmode]

@[simp] theorem PoolView.ledger_outflow (view : PoolView Pubkey) :
    view.ledger.outflow = view.pool.outflow := rfl

@[simp] theorem PoolView.ledger_value (view : PoolView Pubkey) :
    view.ledger.value = view.pool.bookValue := by
  unfold Ledger.value StakePool.bookValue
  rw [ledger_inflow, ledger_outflow]

@[simp] theorem PoolView.ledger_supply (view : PoolView Pubkey) :
    view.ledger.supply = view.pool.totalLpSupply.toNat := rfl

theorem PoolView.ledger_trading {view : PoolView Pubkey} :
    view.ledger.trading = true ↔ view.pool.poolMode = 1 := by
  simp [PoolView.ledger]

theorem StakePool.bookValue_of_totalPoolValue {pool : StakePool Pubkey}
    {value : U64} (h : pool.totalPoolValue = some value) :
    pool.bookValue = value.toNat ∧ pool.outflow ≤ pool.inflow := by
  obtain ⟨-, -, heq⟩ := totalPoolValue_eq_some.mp h
  unfold bookValue
  omega

/-- When the totals are covered, only a large inflow can make the value
unavailable. -/
theorem StakePool.totalPoolValue_isSome_iff {pool : StakePool Pubkey}
    (hcovered : pool.outflow ≤ pool.inflow) :
    pool.totalPoolValue.isSome ↔ pool.inflow < 2 ^ 64 := by
  rw [Option.isSome_iff_exists]
  constructor
  · rintro ⟨value, hvalue⟩
    exact (totalPoolValue_eq_some.mp hvalue).1
  · intro hlt
    refine ⟨BitVec.ofNat 64 (pool.inflow - pool.outflow), ?_⟩
    rw [totalPoolValue_eq_some, BitVec.toNat_ofNat]
    omega

theorem StakePool.flushCeiling_eq_some {pool : StakePool Pubkey}
    {available : U64} :
    pool.flushCeiling = some available ↔
      pool.totalDeposited.toNat + pool.totalReturned.toNat < 2 ^ 64 ∧
        pool.totalDeposited.toNat + pool.totalReturned.toNat =
          available.toNat + pool.outflow := by
  unfold flushCeiling outflow
  simp only [Option.bind_eq_bind, Option.bind_eq_some_iff,
    checkedAdd_eq_some, checkedSub_eq_some]
  constructor
  · rintro ⟨inflows, hinflows, held, hheld, hceiling⟩
    have := inflows.isLt
    omega
  · rintro ⟨hfits, heq⟩
    refine ⟨BitVec.ofNat 64 (pool.totalDeposited.toNat +
        pool.totalReturned.toNat), ?_,
      BitVec.ofNat 64 (pool.totalDeposited.toNat +
        pool.totalReturned.toNat - pool.totalWithdrawn.toNat), ?_, ?_⟩ <;>
      simp only [BitVec.toNat_ofNat] <;> omega

/-- On a pool in insurance mode the ceiling of a flush is the pool value. -/
theorem StakePool.flushCeiling_eq {pool : StakePool Pubkey}
    (hmode : pool.poolMode = 0) : pool.flushCeiling = pool.totalPoolValue := by
  have hinflow : pool.inflow =
      pool.totalDeposited.toNat + pool.totalReturned.toNat := by
    simp [inflow, hmode]
  apply Option.ext
  intro value
  rw [flushCeiling_eq_some, totalPoolValue_eq_some, hinflow]
  omega

/-! ## Steps -/

section Steps

variable {clock : Clock}

/-- A change that reaches neither the totals nor the offset nor the vault. -/
theorem PoolView.ledger_congr {view view' : PoolView Pubkey}
    (hmode : view'.pool.poolMode = view.pool.poolMode)
    (hdeposited : view'.pool.totalDeposited = view.pool.totalDeposited)
    (hwithdrawn : view'.pool.totalWithdrawn = view.pool.totalWithdrawn)
    (hflushed : view'.pool.totalFlushed = view.pool.totalFlushed)
    (hreturned : view'.pool.totalReturned = view.pool.totalReturned)
    (hfees : view'.pool.totalFeesEarned = view.pool.totalFeesEarned)
    (hsupply : view'.pool.totalLpSupply = view.pool.totalLpSupply)
    (hoffset :
      view'.pool.preSupplyVaultOffset = view.pool.preSupplyVaultOffset)
    (hvault : view'.vaultAmount = view.vaultAmount) :
    view'.ledger = view.ledger := by
  unfold PoolView.ledger
  rw [hmode, hdeposited, hwithdrawn, hflushed, hreturned, hfees, hsupply,
    hoffset, hvault]

theorem PoolStep.deposit_ledger {view : PoolView Pubkey}
    {amount lp : U64} {pool : StakePool Pubkey} {vaultAmount lpMintSupply : U64}
    {records : Pubkey → Option (StakeDeposit Pubkey)}
    (hamount : amount ≠ 0)
    (hlp : view.pool.calcLpForDeposit amount = some lp) (hminted : lp ≠ 0)
    (hpool : view.pool.recordDeposit amount lp clock = .ok pool)
    (hvault : vaultAmount.toNat = view.vaultAmount.toNat + amount.toNat) :
    view.ledger.Allowed (.deposit amount.toNat lp.toNat) ∧
      PoolView.ledger ⟨pool, vaultAmount, lpMintSupply, records⟩ =
        view.ledger.apply (.deposit amount.toNat lp.toNat) := by
  constructor
  · refine ⟨toNat_pos.mpr hamount, toNat_pos.mpr hminted, ?_⟩
    rw [view.ledger_supply, view.ledger_value]
    rcases StakePool.calcLpForDeposit_eq_some.mp hlp with
      ⟨hsupply, -, rfl⟩ | ⟨value, hvalue, hpositive, hsupply, hmint⟩
    · rw [if_pos hsupply]
    · have hbook := (StakePool.bookValue_of_totalPoolValue hvalue).1
      rw [if_neg (by omega), hbook]
      refine ⟨hpositive, ?_⟩
      unfold Ledger.pot
      rw [view.ledger_supply, view.ledger_value, hbook]
      exact hmint
  · obtain ⟨deposited, supply, reserved, hdeposited, hsupply, rfl, hfields⟩ :=
      StakePool.recordDeposit_eq_ok hpool
    have hoffset : StakePool.preSupplyVaultOffset
        { view.pool with
          totalDeposited := deposited
          totalLpSupply := supply
          reserved := reserved } = view.pool.preSupplyVaultOffset := by
      split at hfields
      · exact StakePool.preSupplyVaultOffset_of_refreshed hfields
      · exact StakePool.preSupplyVaultOffset_congr hfields
    unfold PoolView.ledger Ledger.apply
    rw [hoffset, hdeposited, hsupply, hvault]

theorem PoolStep.withdraw_ledger {view : PoolView Pubkey}
    {lpAmount collateral : U64} {guarded pool : StakePool Pubkey}
    {vaultAmount lpMintSupply : U64}
    {records : Pubkey → Option (StakeDeposit Pubkey)}
    (hamount : lpAmount ≠ 0)
    (hcollateral :
      view.pool.calcCollateralForWithdraw lpAmount = some collateral)
    (hpaid : collateral ≠ 0)
    (hfloor : enforceHwmFloor view.pool clock.epoch collateral = .ok guarded)
    (hpool : guarded.recordWithdraw collateral lpAmount = .ok pool)
    (hvault : vaultAmount.toNat + collateral.toNat =
      view.vaultAmount.toNat) :
    view.ledger.Allowed (.withdraw lpAmount.toNat collateral.toNat) ∧
      PoolView.ledger ⟨pool, vaultAmount, lpMintSupply, records⟩ =
        view.ledger.apply (.withdraw lpAmount.toNat collateral.toNat) := by
  obtain ⟨withdrawn, supply, reserved, hwithdrawn, hsupply, rfl, hfields⟩ :=
    StakePool.guardedWithdraw_eq_ok hfloor hpool
  obtain ⟨value, hvalue, -, hpayout⟩ :=
    StakePool.calcCollateralForWithdraw_eq_some.mp hcollateral
  constructor
  · refine ⟨toNat_pos.mpr hamount, ?_, ?_, toNat_pos.mpr hpaid, ?_⟩
    · rw [view.ledger_supply]
      omega
    · unfold Ledger.pot
      rw [view.ledger_supply, view.ledger_value,
        (StakePool.bookValue_of_totalPoolValue hvalue).1]
      exact hpayout
    · change collateral.toNat ≤ view.vaultAmount.toNat
      omega
  · have hoffset : StakePool.preSupplyVaultOffset
        { view.pool with
          totalWithdrawn := withdrawn
          totalLpSupply := supply
          reserved := reserved } = view.pool.preSupplyVaultOffset := by
      split at hfields
      · exact StakePool.preSupplyVaultOffset_of_refreshed hfields
      · exact StakePool.preSupplyVaultOffset_congr hfields
    have hsupply' : supply.toNat =
        view.pool.totalLpSupply.toNat - lpAmount.toNat := by omega
    have hvault' : vaultAmount.toNat =
        view.vaultAmount.toNat - collateral.toNat := by omega
    unfold PoolView.ledger Ledger.apply
    rw [hoffset, hwithdrawn, hsupply', hvault']

/-- What a crank expects, read off the pool record. -/
theorem PoolView.ledger_expected {view : PoolView Pubkey} {baseline : U64}
    (h : view.pool.accrualBaseline = some baseline) :
    view.ledger.expected =
      baseline.toNat + view.pool.preSupplyVaultOffset.toNat := by
  obtain ⟨-, hbaseline⟩ := StakePool.accrualBaseline_eq_some.mp h
  simp only [Ledger.expected, PoolView.ledger]
  omega

theorem PoolStep.accrue_ledger {view : PoolView Pubkey}
    {pool : StakePool Pubkey} (hmode : view.pool.poolMode = 1)
    (hpool : view.pool.accrue view.vaultAmount clock.slot = .ok pool) :
    ∃ operation, (operation = .settle ∨ operation = .book) ∧
      view.ledger.Allowed operation ∧
      PoolView.ledger { view with pool := pool } =
        view.ledger.apply operation := by
  have htrading := PoolView.ledger_trading.mpr hmode
  rcases StakePool.accrue_eq_ok hpool with
    ⟨hsupply, reserved, rfl, hfields⟩ |
    ⟨hsupply, baseline, fees, hbaseline, -, hfees, rfl⟩
  · refine ⟨.settle, Or.inl rfl, ⟨htrading, hsupply⟩, ?_⟩
    have hoffset := congrArg ReservedFields.preSupplyVaultOffset hfields
    unfold PoolView.ledger Ledger.apply
    simp only [Ledger.mk.injEq, true_and, and_true]
    exact congrArg BitVec.toNat hoffset
  · refine ⟨.book, Or.inr rfl, ⟨htrading, hsupply⟩, ?_⟩
    have hbooked : fees.toNat =
        view.ledger.fees + (view.ledger.vault - view.ledger.expected) := by
      rw [PoolView.ledger_expected hbaseline]
      exact hfees
    unfold Ledger.apply
    rw [← hbooked]
    rfl

/-- Every step of the pool machine performs an allowed operation on the
ledger. -/
theorem PoolStep.ledger_apply [DecidableEq Pubkey] [Inhabited Pubkey]
    {d : Deployment Pubkey} {key : Pubkey} {event : PoolEvent Pubkey}
    {view view' : PoolView Pubkey}
    (hstep : PoolStep d key clock event view view') :
    ∃ operation, event.Performs operation ∧
      view.ledger.Allowed operation ∧
      view'.ledger = view.ledger.apply operation := by
  cases hstep with
  | deposit hamount _ _ _ hlp hminted hpool _ hvault _ =>
      obtain ⟨hallowed, hledger⟩ :=
        PoolStep.deposit_ledger hamount hlp hminted hpool hvault
      exact ⟨.deposit _ _, rfl, hallowed, hledger⟩
  | withdraw hamount _ _ hcollateral hpaid hfloor hpool _ hvault _ =>
      obtain ⟨hallowed, hledger⟩ :=
        PoolStep.withdraw_ledger hamount hcollateral hpaid hfloor hpool hvault
      exact ⟨.withdraw _ _, rfl, hallowed, hledger⟩
  | @flush _ amount available totalFlushed vaultAmount _ hmode hceiling
      havailable htotal hvault =>
      obtain ⟨-, hceiling⟩ := StakePool.flushCeiling_eq_some.mp hceiling
      have htotal := checkedAdd_eq_some.mp htotal
      refine ⟨.flush amount.toNat, rfl, ⟨?_, ?_, ?_⟩, ?_⟩
      · simp [PoolView.ledger, hmode]
      · rw [view.ledger_value]
        unfold StakePool.bookValue StakePool.inflow
        omega
      · change amount.toNat ≤ view.vaultAmount.toNat
        omega
      · have hvault' : vaultAmount.toNat =
            view.vaultAmount.toNat - amount.toNat := by omega
        unfold PoolView.ledger Ledger.apply
        rw [← htotal, hvault']
        rfl
  | @returnInsurance _ amount totalReturned vaultAmount hmode htotal
      hvault =>
      have htotal := checkedAdd_eq_some.mp htotal
      refine ⟨.reclaim amount.toNat, rfl, ?_, ?_⟩
      · simp [Ledger.Allowed, PoolView.ledger, hmode]
      · unfold PoolView.ledger Ledger.apply
        rw [← htotal, hvault]
        rfl
  | accrueFees hmode hpool =>
      obtain ⟨operation, hkind, hallowed, hledger⟩ :=
        PoolStep.accrue_ledger hmode hpool
      refine ⟨operation, ?_, hallowed, hledger⟩
      rcases hkind with rfl | rfl <;> trivial
  | administer hpool =>
      obtain ⟨_, _, _, _, rfl, hoffset, -, -⟩ :=
        StakePool.administered_eq hpool
      exact ⟨.receive 0, rfl, trivial,
        PoolView.ledger_congr rfl rfl rfl rfl rfl rfl rfl hoffset rfl⟩
  | idle => exact ⟨.receive 0, rfl, trivial, rfl⟩

end Steps

theorem Drift.ledger_apply {burned : ℕ} {view view' : PoolView Pubkey}
    (h : Drift burned view view') :
    view'.ledger = view.ledger.apply
      (.receive (view'.vaultAmount.toNat - view.vaultAmount.toNat)) := by
  have hvault : view.vaultAmount.toNat +
      (view'.vaultAmount.toNat - view.vaultAmount.toNat) =
        view'.vaultAmount.toNat := Nat.add_sub_of_le h.vault
  unfold PoolView.ledger Ledger.apply
  rw [h.pool]
  simp only [Ledger.mk.injEq, true_and]
  exact hvault.symm

/-! ## Reachable ledgers -/

section Reachable

variable [Inhabited Pubkey]

/-- The totals a pool is created with. -/
theorem PoolView.Fresh.ledger_eq {view : PoolView Pubkey} (h : view.Fresh) :
    ∃ trading vault, view.ledger =
      { trading := trading, deposited := 0, withdrawn := 0, flushed := 0,
        returned := 0, fees := 0, supply := 0, offset := 0,
        vault := vault } := by
  obtain ⟨a, poolBump, vaultAuthBump, cooldown, cap, mode, -, hpool⟩ := h.pool
  have hoffset := StakePool.initPool_offset a poolBump vaultAuthBump cooldown
    cap
  have hview : view.pool.preSupplyVaultOffset = 0 := by
    rw [hpool]
    exact hoffset
  refine ⟨decide (mode = 1), view.vaultAmount.toNat, ?_⟩
  unfold PoolView.ledger
  rw [hview, hpool]
  rfl

theorem PoolView.Fresh.coherent {view : PoolView Pubkey} (h : view.Fresh) :
    view.ledger.Coherent := by
  obtain ⟨trading, vault, hledger⟩ := h.ledger_eq
  rw [hledger]
  refine ⟨?_, ?_, fun _ => ⟨rfl, rfl⟩, fun _ => ?_⟩
  · simp [Ledger.outflow]
  · cases trading <;> simp [Ledger.value, Ledger.inflow]
  · cases trading <;> simp [Ledger.value, Ledger.inflow]

theorem Reachable.coherent [DecidableEq Pubkey] {rt : Runtime Pubkey}
    {bank : Bank Pubkey} (h : Reachable rt bank) {key : Pubkey}
    {view : PoolView Pubkey}
    (hview : Shows rt.toDeployment bank key view) :
    view.ledger.Coherent := by
  refine h.invariant (fun view => view.ledger.Coherent) ?_ ?_ ?_ hview
  · intro view hfresh
    exact hfresh.coherent
  · intro _ _ _ view view' hstep hcoherent
    obtain ⟨operation, -, hallowed, hledger⟩ := hstep.ledger_apply
    rw [hledger]
    exact hcoherent.apply hallowed
  · intro _ view view' hdrift hcoherent
    rw [hdrift.ledger_apply]
    exact hcoherent.apply trivial

end Reachable

end PercolatorVault
