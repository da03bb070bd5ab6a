import PercolatorVault.Availability
import PercolatorVault.FlushCeiling

/-!
# Other formulas for the pool value

The fee-inclusive helper and the formula of the proof harness subtract the
withdrawals before they add the fees or the returns.  They agree with the
value of the pool exactly while no more has left it than was deposited.
-/

namespace PercolatorVault

open CheckedArithmetic
open ShareLedger

variable {Pubkey : Type}

/-! ## The formulas -/

/-- The documented value of the helper: defined when deposits and fees cover
the withdrawals. -/
def documentedValueWithFees
    (totalDeposited totalWithdrawn totalFeesEarned : U64) : Option U64 :=
  if totalWithdrawn.toNat ≤ totalDeposited.toNat + totalFeesEarned.toNat then
    some (BitVec.ofNat 64 (totalDeposited.toNat + totalFeesEarned.toNat -
      totalWithdrawn.toNat))
  else none

theorem poolValueWithFees_eq_some {deposited withdrawn fees value : U64} :
    poolValueWithFees deposited withdrawn fees = some value ↔
      withdrawn.toNat ≤ deposited.toNat ∧
        deposited.toNat + fees.toNat = value.toNat + withdrawn.toNat := by
  unfold poolValueWithFees
  simp only [Option.bind_eq_bind, Option.bind_eq_some_iff,
    checkedAdd_eq_some, checkedSub_eq_some]
  constructor
  · rintro ⟨net, hnet, hvalue⟩
    omega
  · rintro ⟨hle, heq⟩
    refine ⟨deposited - withdrawn, ?_, ?_⟩ <;>
      rw [toNat_sub_of_le hle] <;> omega

/-- The helper is the documented value exactly when the withdrawals are within
the deposits, or beyond deposits and fees. -/
theorem poolValueWithFees_documented_iff {deposited withdrawn fees : U64}
    (hfits : deposited.toNat + fees.toNat < 2 ^ 64) :
    poolValueWithFees deposited withdrawn fees =
        documentedValueWithFees deposited withdrawn fees ↔
      withdrawn.toNat ≤ deposited.toNat ∨
        deposited.toNat + fees.toNat < withdrawn.toNat := by
  unfold documentedValueWithFees
  split
  · next hcovered =>
      rw [poolValueWithFees_eq_some, BitVec.toNat_ofNat]
      omega
  · next hbroken =>
      rw [Option.eq_none_iff_forall_ne_some]
      simp only [ne_eq, poolValueWithFees_eq_some]
      constructor
      · intro _
        omega
      · intro _ value
        omega

namespace KaniProofs

/-- `pool_value_with_flush` of the proof harness, on 32-bit counters. -/
def poolValueWithFlush (deposited withdrawn flushed returned : U32) :
    Option U32 := do
  let held ← checkedSub deposited withdrawn
  let left ← checkedSub held flushed
  checkedAdd left returned

theorem poolValueWithFlush_eq_some
    {deposited withdrawn flushed returned value : U32} :
    poolValueWithFlush deposited withdrawn flushed returned = some value ↔
      withdrawn.toNat + flushed.toNat ≤ deposited.toNat ∧
        deposited.toNat + returned.toNat =
          value.toNat + (withdrawn.toNat + flushed.toNat) := by
  unfold poolValueWithFlush
  simp only [Option.bind_eq_bind, Option.bind_eq_some_iff,
    checkedAdd_eq_some, checkedSub_eq_some]
  constructor
  · rintro ⟨held, hheld, left, hleft, hvalue⟩
    omega
  · rintro ⟨hle, heq⟩
    have hwithdrawn : withdrawn.toNat ≤ deposited.toNat := by omega
    have hflushed : flushed.toNat ≤ (deposited - withdrawn).toNat := by
      rw [toNat_sub_of_le hwithdrawn]
      omega
    refine ⟨deposited - withdrawn, ?_, deposited - withdrawn - flushed, ?_, ?_⟩
    all_goals
      simp only [toNat_sub_of_le hflushed, toNat_sub_of_le hwithdrawn]
      omega

/-- The formula on the counters of a pool. -/
def mirroredValue (pool : StakePool Pubkey) : Option U32 :=
  poolValueWithFlush (pool.totalDeposited.setWidth 32)
    (pool.totalWithdrawn.setWidth 32) (pool.totalFlushed.setWidth 32)
    (pool.totalReturned.setWidth 32)

/-- The lifetime counters of an insurance pool are below 2^31. -/
@[mk_iff] structure SmallCounters (pool : StakePool Pubkey) : Prop where
  deposited : pool.totalDeposited.toNat < 2 ^ 31
  withdrawn : pool.totalWithdrawn.toNat < 2 ^ 31
  flushed : pool.totalFlushed.toNat < 2 ^ 31
  returned : pool.totalReturned.toNat < 2 ^ 31

instance (pool : StakePool Pubkey) : Decidable (SmallCounters pool) :=
  decidable_of_iff _ (smallCounters_iff pool).symm

theorem mirroredValue_eq_some {pool : StakePool Pubkey}
    (hsmall : SmallCounters pool) {value : U32} :
    mirroredValue pool = some value ↔
      pool.outflow ≤ pool.totalDeposited.toNat ∧
        pool.totalDeposited.toNat + pool.totalReturned.toNat =
          value.toNat + pool.outflow := by
  obtain ⟨hdeposited, hwithdrawn, hflushed, hreturned⟩ := hsmall
  unfold mirroredValue StakePool.outflow
  rw [poolValueWithFlush_eq_some]
  simp only [BitVec.toNat_setWidth]
  omega

end KaniProofs

/-! ## On the states of a pool -/

open KaniProofs

/-- The fee-inclusive helper on the counters of a pool. -/
def StakePool.helperValue (pool : StakePool Pubkey) : Option U64 :=
  poolValueWithFees pool.totalDeposited pool.totalWithdrawn
    pool.totalFeesEarned

/-- On a trading pool the helper gives the value exactly while withdrawals are
within the deposits. -/
theorem PoolView.helperValue_iff {view : PoolView Pubkey}
    (h : view.ledger.Coherent) (hmode : view.pool.poolMode = 1)
    (hfits : view.pool.totalDeposited.toNat +
      view.pool.totalFeesEarned.toNat < 2 ^ 64) :
    view.pool.helperValue = view.pool.totalPoolValue ∧
        view.pool.helperValue = view.pool.accrualBaseline ↔
      view.pool.totalWithdrawn.toNat ≤ view.pool.totalDeposited.toNat := by
  have hboot := PoolView.bootstrappable h hmode
  have hcovered : view.pool.totalWithdrawn.toNat ≤
      view.pool.totalDeposited.toNat + view.pool.totalFeesEarned.toNat := by
    have hcovered := h.covered
    rw [view.ledger_inflow, view.ledger_outflow] at hcovered
    unfold StakePool.inflow StakePool.outflow at hcovered
    rw [if_pos hmode, hboot.unflushed, hboot.unreturned] at hcovered
    simpa using hcovered
  have hdocumented : view.pool.accrualBaseline =
      documentedValueWithFees view.pool.totalDeposited
        view.pool.totalWithdrawn view.pool.totalFeesEarned := by
    unfold documentedValueWithFees
    rw [if_pos hcovered, StakePool.accrualBaseline_eq_some,
      BitVec.toNat_ofNat]
    omega
  rw [← hboot.baseline, and_self, hdocumented]
  exact (poolValueWithFees_documented_iff hfits).trans (by omega)

/-- On an insurance pool with small counters the harness formula gives the
value exactly while no more has left than was deposited. -/
theorem PoolView.mirroredValue_iff {view : PoolView Pubkey}
    (h : view.ledger.Coherent) (hmode : view.pool.poolMode = 0)
    (hsmall : SmallCounters view.pool) :
    (mirroredValue view.pool).map BitVec.toNat =
        view.pool.totalPoolValue.map BitVec.toNat ↔
      view.pool.outflow ≤ view.pool.totalDeposited.toNat := by
  have hinflow : view.pool.inflow = view.pool.totalDeposited.toNat +
      view.pool.totalReturned.toNat := by
    simp [StakePool.inflow, hmode]
  have hcovered := h.covered
  rw [view.ledger_inflow, view.ledger_outflow, hinflow] at hcovered
  have hdeposited := hsmall.deposited
  have hreturned := hsmall.returned
  obtain ⟨value, hvalue⟩ : ∃ value : U64,
      value.toNat = view.pool.inflow - view.pool.outflow :=
    exists_toNat_eq (by omega)
  have htotal : view.pool.totalPoolValue = some value := by
    rw [StakePool.totalPoolValue_eq_some]
    omega
  rw [htotal, Option.map_some, Option.map_eq_some_iff]
  simp only [mirroredValue_eq_some hsmall]
  constructor
  · rintro ⟨_, ⟨hle, -⟩, -⟩
    exact hle
  · intro hle
    obtain ⟨mirrored, hmirrored⟩ : ∃ mirrored : U32,
        mirrored.toNat = value.toNat := exists_toNat_eq (by omega)
    exact ⟨mirrored, ⟨hle, by omega⟩, hmirrored⟩

/-! ## Runs that leave within the deposits -/

/-- What a call takes out of the pool. -/
def StakePool.spends (pool : StakePool Pubkey) : PoolEvent Pubkey → ℕ
  | .withdraw _ lpAmount => pool.pot.redeem lpAmount.toNat
  | .flush amount => amount.toNat
  | _ => 0

theorem Operates.outflow_eq {call : PoolEvent Pubkey} {operation : Operation}
    {view view' : PoolView Pubkey} (h : Operates call operation view view') :
    view'.pool.outflow = view.pool.outflow + view.pool.spends call := by
  obtain ⟨received, hledger⟩ := h.ledger
  have houtflow : view'.ledger.outflow =
      view.ledger.outflow + Ledger.spent operation := by
    rw [hledger, ← view.ledger.outflow_apply]
    rfl
  rw [view'.ledger_outflow, view.ledger_outflow] at houtflow
  rw [houtflow, Nat.add_left_cancel_iff]
  have hperforms := h.performs
  cases call with
  | deposit user amount =>
      obtain ⟨shares, rfl⟩ := hperforms.of_deposit
      rfl
  | withdraw user lpAmount =>
      obtain ⟨payout, rfl⟩ := hperforms.of_withdraw
      obtain ⟨-, -, hpayout, -⟩ := h.allowed
      rw [view.ledger_pot] at hpayout
      exact hpayout
  | flush amount =>
      cases hperforms.of_flush
      rfl
  | returnInsurance amount =>
      cases hperforms.of_returnInsurance
      rfl
  | _ =>
      cases operation with
      | deposit amount shares => exact hperforms.elim
      | withdraw shares payout => exact hperforms.elim
      | flush amount => exact hperforms.elim
      | _ => rfl

theorem Operates.deposited_le {call : PoolEvent Pubkey}
    {operation : Operation} {view view' : PoolView Pubkey}
    (h : Operates call operation view view') :
    view.pool.totalDeposited.toNat ≤ view'.pool.totalDeposited.toNat := by
  obtain ⟨received, hledger⟩ := h.ledger
  have hle := view.ledger.deposited_le_apply operation
  have hsame : view'.ledger.deposited =
      (view.ledger.apply operation).deposited := by
    rw [hledger]
    rfl
  rw [← hsame] at hle
  exact hle

section Runs

variable [DecidableEq Pubkey] [Inhabited Pubkey] {rt : Runtime Pubkey}
  {start bank : Bank Pubkey} {key : Pubkey}

/-- A run in which every payout and every flush keeps what has left the pool
within what was deposited. -/
inductive PrincipalRun (rt : Runtime Pubkey) (key : Pubkey)
    (start : Bank Pubkey) : Bank Pubkey → Prop
  | start : PrincipalRun rt key start start
  | step {before after : Bank Pubkey} {event : Event Pubkey}
      (hrun : PrincipalRun rt key start before)
      (hstep : Step rt before event after)
      (hprincipal : ∀ pool, rt.PoolAt before key pool →
        pool.outflow + pool.spends (event.seenBy key) ≤
          pool.totalDeposited.toNat) :
      PrincipalRun rt key start after

theorem PrincipalRun.outflow_le (hrun : PrincipalRun rt key start bank)
    (hgenesis : Genesis rt.toDeployment start) :
    Reachable rt bank ∧
      ∀ view, Shows rt.toDeployment bank key view →
        view.pool.outflow ≤ view.pool.totalDeposited.toNat := by
  induction hrun with
  | start =>
      refine ⟨⟨start, [], hgenesis, .start⟩, ?_⟩
      intro view hview
      exact absurd hview.pool (hgenesis.no_pool key _)
  | @step before after event _ hstep hprincipal ih =>
      obtain ⟨hbefore, -⟩ := ih
      refine ⟨hbefore.step hstep, ?_⟩
      intro view hview
      rcases hstep.operates_or_fresh hbefore.sound hview with
        ⟨_, earlier, hearlier, hoperates⟩ | hfresh
      · rw [hoperates.outflow_eq]
        exact (hprincipal _ hearlier.pool).trans hoperates.deposited_le
      · obtain ⟨trading, vault, hledger⟩ := hfresh.ledger_eq
        rw [← view.ledger_outflow, hledger]
        exact Nat.zero_le _

variable (rt) in
/-- When the helper is its documented value, and when it is the value and the
baseline of a trading pool. -/
theorem poolValueWithFees_agrees_iff :
    (∀ deposited withdrawn fees : U64,
      deposited.toNat + fees.toNat < 2 ^ 64 →
      (poolValueWithFees deposited withdrawn fees =
          documentedValueWithFees deposited withdrawn fees ↔
        withdrawn.toNat ≤ deposited.toNat ∨
          deposited.toNat + fees.toNat < withdrawn.toNat)) ∧
    (∀ bank key pool, Reachable rt bank → rt.PoolAt bank key pool →
      pool.poolMode = 1 →
      pool.totalDeposited.toNat + pool.totalFeesEarned.toNat < 2 ^ 64 →
      (pool.helperValue = pool.totalPoolValue ∧
          pool.helperValue = pool.accrualBaseline ↔
        pool.totalWithdrawn.toNat ≤ pool.totalDeposited.toNat)) ∧
    ∀ start bank key pool, Genesis rt.toDeployment start →
      PrincipalRun rt key start bank → rt.PoolAt bank key pool →
      pool.poolMode = 1 →
      pool.totalDeposited.toNat + pool.totalFeesEarned.toNat < 2 ^ 64 →
      pool.helperValue = pool.totalPoolValue ∧
        pool.helperValue = pool.accrualBaseline := by
  refine ⟨fun _ _ _ => poolValueWithFees_documented_iff, ?_, ?_⟩
  · intro bank key pool hreachable hpool hmode hfits
    obtain ⟨view, rfl, hview⟩ := hreachable.shows_pool hpool
    exact PoolView.helperValue_iff (hreachable.coherent hview) hmode hfits
  · intro start bank key pool hgenesis hrun hpool hmode hfits
    obtain ⟨hreachable, hprincipal⟩ := hrun.outflow_le hgenesis
    obtain ⟨view, rfl, hview⟩ := hreachable.shows_pool hpool
    have hcoherent := hreachable.coherent hview
    have hle := hprincipal view hview
    rw [PoolView.helperValue_iff hcoherent hmode hfits]
    exact (Nat.le_add_right _ _).trans hle

variable (rt) in
/-- When the harness formula is the value of an insurance pool. -/
theorem mirroredValue_agrees_iff :
    (∀ bank key pool, Reachable rt bank → rt.PoolAt bank key pool →
      pool.poolMode = 0 → SmallCounters pool →
      ((mirroredValue pool).map BitVec.toNat =
          pool.totalPoolValue.map BitVec.toNat ↔
        pool.totalWithdrawn.toNat + pool.totalFlushed.toNat ≤
          pool.totalDeposited.toNat)) ∧
    ∀ start bank key pool, Genesis rt.toDeployment start →
      PrincipalRun rt key start bank → rt.PoolAt bank key pool →
      pool.poolMode = 0 → SmallCounters pool →
      (mirroredValue pool).map BitVec.toNat =
        pool.totalPoolValue.map BitVec.toNat := by
  constructor
  · intro bank key pool hreachable hpool hmode hsmall
    obtain ⟨view, rfl, hview⟩ := hreachable.shows_pool hpool
    exact PoolView.mirroredValue_iff (hreachable.coherent hview) hmode hsmall
  · intro start bank key pool hgenesis hrun hpool hmode hsmall
    obtain ⟨hreachable, hprincipal⟩ := hrun.outflow_le hgenesis
    obtain ⟨view, rfl, hview⟩ := hreachable.shows_pool hpool
    rw [PoolView.mirroredValue_iff (hreachable.coherent hview) hmode hsmall]
    exact hprincipal view hview

end Runs

namespace Reference

/-- Fees, and then a withdrawal of more than was ever deposited. -/
def appreciatedMarket : List (Transaction Address) :=
  [initTradingPool 10, openLpAccount alice, deposit alice 1000, donate 500,
    accrueFees, waitUntil 1200 1, withdraw alice 900]

/-- The pool is worth 150, and the helper gives nothing. -/
theorem appreciatedMarket_helperValue : ∃ pool,
    Reachable runtime (bankAfter appreciatedMarket) ∧
      deployment.PoolAt (bankAfter appreciatedMarket) poolKey pool ∧
      pool.poolMode = 1 ∧
      pool.totalDeposited.toNat + pool.totalFeesEarned.toNat < 2 ^ 64 ∧
      pool.totalWithdrawn.toNat ≤
        pool.totalDeposited.toNat + pool.totalFeesEarned.toNat ∧
      pool.helperValue = none ∧ pool.totalPoolValue = some 150 ∧
      pool.accrualBaseline = some 150 := by
  have hread : (poolIn (bankAfter appreciatedMarket)).map (fun pool =>
      (pool.poolMode, [pool.totalDeposited, pool.totalFeesEarned,
        pool.totalWithdrawn],
        [pool.helperValue, pool.totalPoolValue, pool.accrualBaseline])) =
      some (1, [1000, 500, 1350], [none, some 150, some 150]) := by
    decide +kernel
  obtain ⟨pool, hpool, hnumbers⟩ := exists_poolAt hread
  simp only [Prod.mk.injEq, List.cons.injEq, and_true] at hnumbers
  obtain ⟨hmode, ⟨hdeposited, hfees, hwithdrawn⟩, hhelper, hvalue,
    hbaseline⟩ := hnumbers
  refine ⟨pool, bankAfter_reachable (by decide +kernel), hpool, hmode, ?_, ?_,
    hhelper, hvalue, hbaseline⟩
  · rw [hdeposited, hfees]
    decide
  · rw [hdeposited, hfees, hwithdrawn]
    decide

/-- All of the collateral was flushed and came back before alice left. -/
def recycledMarket : List (Transaction Address) :=
  [initPool 10, openLpAccount alice, deposit alice 100, flush 100,
    returnInsurance 100, waitUntil 1200 1, withdraw alice 50]

/-- The pool is worth 50, and the harness formula gives nothing. -/
theorem recycledMarket_mirroredValue : ∃ pool,
    Reachable runtime (bankAfter recycledMarket) ∧
      deployment.PoolAt (bankAfter recycledMarket) poolKey pool ∧
      pool.poolMode = 0 ∧ SmallCounters pool ∧
      mirroredValue pool = none ∧ pool.totalPoolValue = some 50 := by
  have hread : (poolIn (bankAfter recycledMarket)).map (fun pool =>
      (pool.poolMode, decide (SmallCounters pool), mirroredValue pool,
        pool.totalPoolValue)) = some (0, true, none, some 50) := by
    decide +kernel
  obtain ⟨pool, hpool, hnumbers⟩ := exists_poolAt hread
  simp only [Prod.mk.injEq, decide_eq_true_eq] at hnumbers
  obtain ⟨hmode, hsmall, hmirror, hvalue⟩ := hnumbers
  exact ⟨pool, bankAfter_reachable (by decide +kernel), hpool, hmode, hsmall,
    hmirror, hvalue⟩

/-- The transactions succeed and keep what leaves the pool within the
deposits. -/
def keepsPrincipal (bank : Bank Address) : List (Transaction Address) → Bool
  | [] => true
  | transaction :: rest =>
      accepts bank transaction &&
        (poolIn bank).all (fun pool =>
          decide (pool.outflow +
            pool.spends (transaction.event.seenBy poolKey) ≤
              pool.totalDeposited.toNat)) &&
        keepsPrincipal (transaction.perform runtime bank) rest

theorem principalRun_of_keepsPrincipal {start bank : Bank Address}
    {transactions : List (Transaction Address)}
    (hrun : PrincipalRun runtime poolKey start bank)
    (h : keepsPrincipal bank transactions = true) :
    PrincipalRun runtime poolKey start
      (Transaction.performAll runtime bank transactions) := by
  induction transactions generalizing bank with
  | nil => exact hrun
  | cons transaction rest ih =>
      simp only [keepsPrincipal, Bool.and_eq_true] at h
      obtain ⟨⟨haccepts, hprincipal⟩, hrest⟩ := h
      refine ih (hrun.step (step_of_accepts haccepts) ?_) hrest
      intro pool hpool
      rw [poolIn_eq_some.mpr hpool, Option.all_some] at hprincipal
      exact of_decide_eq_true hprincipal

/-- Fees, and a withdrawal within the deposits. -/
def principalMarket : List (Transaction Address) :=
  [initTradingPool 10, openLpAccount alice, deposit alice 1000, donate 500,
    accrueFees, waitUntil 1200 1, withdraw alice 400]

theorem principalMarket_helperValue : ∃ pool,
    deployment.PoolAt (bankAfter principalMarket) poolKey pool ∧
      pool.totalWithdrawn = 600 ∧
      pool.helperValue = pool.totalPoolValue ∧
      pool.helperValue = pool.accrualBaseline := by
  have hread : (poolIn (bankAfter principalMarket)).map (fun pool =>
      (pool.poolMode, [pool.totalDeposited, pool.totalFeesEarned,
        pool.totalWithdrawn])) = some (1, [1000, 500, 600]) := by
    decide +kernel
  obtain ⟨pool, hpool, hnumbers⟩ := exists_poolAt hread
  simp only [Prod.mk.injEq, List.cons.injEq, and_true] at hnumbers
  obtain ⟨hmode, hdeposited, hfees, hwithdrawn⟩ := hnumbers
  have hrun := principalRun_of_keepsPrincipal .start
    (show keepsPrincipal genesis principalMarket = true by decide +kernel)
  refine ⟨pool, hpool, hwithdrawn, ?_⟩
  apply (poolValueWithFees_agrees_iff runtime).2.2 genesis _ poolKey pool
    genesis_genesis hrun hpool hmode
  rw [hdeposited, hfees]
  decide

/-- A flush that did not come back, and a withdrawal of the rest. -/
def flushedMarket : List (Transaction Address) :=
  [initPool 10, openLpAccount alice, deposit alice 1000, flush 400,
    returnInsurance 100, waitUntil 1200 1, withdraw alice 500]

theorem flushedMarket_mirroredValue : ∃ pool,
    deployment.PoolAt (bankAfter flushedMarket) poolKey pool ∧
      pool.totalReturned = 100 ∧
      (mirroredValue pool).map BitVec.toNat =
        pool.totalPoolValue.map BitVec.toNat := by
  have hread : (poolIn (bankAfter flushedMarket)).map (fun pool =>
      (pool.poolMode, decide (SmallCounters pool), pool.totalReturned)) =
        some (0, true, 100) := by decide +kernel
  obtain ⟨pool, hpool, hnumbers⟩ := exists_poolAt hread
  simp only [Prod.mk.injEq, decide_eq_true_eq] at hnumbers
  obtain ⟨hmode, hsmall, hreturned⟩ := hnumbers
  have hrun := principalRun_of_keepsPrincipal .start
    (show keepsPrincipal genesis flushedMarket = true by decide +kernel)
  exact ⟨pool, hpool, hreturned, (mirroredValue_agrees_iff runtime).2 genesis _
    poolKey pool genesis_genesis hrun hpool hmode hsmall⟩

end Reference

end PercolatorVault
