import PercolatorVault.FiniteTallies
import PercolatorVault.PoolSegments

/-!
# Conservation of LP

Three ledgers count the LP of a pool: the deposit records of its users, the
total in the pool record, and the supply of the LP mint.  The first two always
agree, and the third falls behind only by what holders burned themselves.
-/

namespace PercolatorVault

open CheckedArithmetic
open FallibleSteps
open FiniteTallies

variable {Pubkey : Type}

/-! ## The invariant -/

structure PoolView.Conserves (burned : ℕ) (view : PoolView Pubkey) :
    Prop where
  recorded : ∃ users, Tally view.records StakeDeposit.weight users
    view.pool.totalLpSupply.toNat
  minted : view.pool.totalLpSupply.toNat = view.lpMintSupply.toNat + burned

variable [DecidableEq Pubkey] [Inhabited Pubkey]

omit [DecidableEq Pubkey] in
theorem PoolView.Fresh.conserves {view : PoolView Pubkey} (h : view.Fresh) :
    view.Conserves 0 := by
  obtain ⟨trading, vault, hledger⟩ := h.ledger_eq
  have hsupply : view.pool.totalLpSupply.toNat = 0 := by
    rw [← view.ledger_supply, hledger]
  refine ⟨⟨∅, ?_⟩, ?_⟩
  · rw [hsupply]
    exact Tally.empty _ h.records
  · rw [hsupply, h.supply]

theorem PoolStep.conserves {d : Deployment Pubkey} {key : Pubkey}
    {clock : Clock} {event : PoolEvent Pubkey} {view view' : PoolView Pubkey}
    {burned : ℕ} (hstep : PoolStep d key clock event view view')
    (h : view.Conserves burned) : view'.Conserves burned := by
  obtain ⟨⟨users, htally⟩, hminted⟩ := h
  cases hstep with
  | @deposit _ user amount lp pool record vaultAmount lpMintSupply _ _ _ _ _ _
      hpool hrecord _ hsupply =>
      obtain ⟨_, supply, _, _, htotal, rfl, _⟩ :=
        StakePool.recordDeposit_eq_ok hpool
      have hcredit := (StakeDeposit.creditLp_eq_ok hrecord).1
      rw [(StakeDeposit.bind_fields _ _ _ _).1, ← StakeDeposit.weigh_getD]
        at hcredit
      refine ⟨⟨_, htally.update user record ?_⟩, ?_⟩
      · unfold StakeDeposit.weight at *
        dsimp only
        omega
      · dsimp only
        omega
  | @withdraw _ user lpAmount collateral guarded pool record remaining
      vaultAmount lpMintSupply _ hrecord _ _ _ hfloor hpool hremaining _
      hsupply =>
      obtain ⟨_, supply, _, _, htotal, rfl, _⟩ :=
        StakePool.guardedWithdraw_eq_ok hfloor hpool
      have hdebit := StakeDeposit.debitLp_eq_ok hremaining
      refine ⟨⟨_, htally.update user remaining ?_⟩, ?_⟩
      · rw [hrecord, weigh_some]
        unfold StakeDeposit.weight
        dsimp only
        omega
      · dsimp only
        omega
  | flush => exact ⟨⟨users, htally⟩, hminted⟩
  | returnInsurance => exact ⟨⟨users, htally⟩, hminted⟩
  | accrueFees _ hpool =>
      rcases StakePool.accrue_eq_ok hpool with
        ⟨-, _, rfl, -⟩ | ⟨-, _, _, -, -, -, rfl⟩
      · exact ⟨⟨users, htally⟩, hminted⟩
      · exact ⟨⟨users, htally⟩, hminted⟩
  | administer hpool =>
      obtain ⟨_, _, _, _, rfl, _⟩ := StakePool.administered_eq hpool
      exact ⟨⟨users, htally⟩, hminted⟩
  | idle => exact ⟨⟨users, htally⟩, hminted⟩

omit [DecidableEq Pubkey] [Inhabited Pubkey] in
theorem Drift.conserves {burned extra : ℕ} {view view' : PoolView Pubkey}
    (hdrift : Drift extra view view') (h : view.Conserves burned) :
    view'.Conserves (burned + extra) := by
  obtain ⟨⟨users, htally⟩, hminted⟩ := h
  have hsupply := hdrift.supply
  refine ⟨⟨users, ?_⟩, ?_⟩
  · rw [hdrift.records, hdrift.pool]
    exact htally
  · rw [hdrift.pool]
    omega

theorem conserves_invariant (d : Deployment Pubkey) :
    PoolInvariant d PoolView.Conserves where
  fresh _ h := h.conserves
  step hstep h := hstep.conserves h
  drift hdrift h := hdrift.conserves h

/-! ## Records in the bank -/

section Bank

variable {d : Deployment Pubkey} {bank : Bank Pubkey} {key : Pubkey}

/-- The LP a deposit record holds. -/
def lpRecorded (d : Deployment Pubkey) (bank : Bank Pubkey)
    (record : Pubkey) : ℕ :=
  weigh StakeDeposit.weight (recordIn d (bank.accounts record))

/-- The record at an address, if it belongs to the pool at `key`. -/
def recordOf (d : Deployment Pubkey) (bank : Bank Pubkey)
    (key record : Pubkey) : Option (StakeDeposit Pubkey) :=
  (recordIn d (bank.accounts record)).filter fun deposit => deposit.pool = key

omit [Inhabited Pubkey] in
theorem recordOf_eq_some {record : Pubkey} {deposit : StakeDeposit Pubkey} :
    recordOf d bank key record = some deposit ↔
      d.DepositAt bank record deposit ∧ deposit.pool = key := by
  unfold recordOf
  rw [Option.filter_eq_some_iff, recordIn_eq_some, decide_eq_true_eq]

def depositAddress (d : Deployment Pubkey) (key : Pubkey) : Pubkey ↪ Pubkey :=
  ⟨fun user => (d.deriveDepositPda key user).1,
    fun _ _ h => (d.deriveDepositPda_injective h).2⟩

omit [Inhabited Pubkey] in
/-- The users of a view are the records of its pool. -/
theorem Sound.tally_recordOf (h : Sound d bank) {view : PoolView Pubkey}
    (hview : Shows d bank key view) {users : Finset Pubkey} {total : ℕ}
    (htally : Tally view.records StakeDeposit.weight users total) :
    Tally (recordOf d bank key) StakeDeposit.weight
      (users.map (depositAddress d key)) total := by
  apply htally.rename
  · intro user
    rw [hview.records]
    unfold recordOf
    cases hrecord :
        recordIn d (bank.accounts (depositAddress d key user)) with
    | none => exact hrecord.symm
    | some deposit =>
        have hkey := (h.records _ deposit (recordIn_eq_some.mp hrecord)).1
        have hpool : decide (deposit.pool = key) = true :=
          decide_eq_true (d.deriveDepositPda_injective hkey).1.symm
        rw [Option.filter_some, if_pos hpool]
        exact hrecord.symm
  · intro record hpresent
    obtain ⟨deposit, hdeposit⟩ := Option.ne_none_iff_exists'.mp hpresent
    obtain ⟨hrecord, hpool⟩ := recordOf_eq_some.mp hdeposit
    refine ⟨deposit.user, ?_⟩
    rw [(h.records record deposit hrecord).1, hpool]
    rfl

end Bank

section Runs

variable {rt : Runtime Pubkey} {start bank : Bank Pubkey}
  {events : List (Event Pubkey)} {key : Pubkey} {pool : StakePool Pubkey}

theorem Run.lp_conserved (hgenesis : Genesis rt.toDeployment start)
    (hrun : Run rt start events bank) (hpool : rt.PoolAt bank key pool) :
    ∃ (records : Finset Pubkey) (mint : Mint Pubkey),
      (∀ record, record ∈ records ↔
        ∃ deposit, rt.DepositAt bank record deposit ∧ deposit.pool = key) ∧
      ∑ record ∈ records, lpRecorded rt.toDeployment bank record =
        pool.totalLpSupply.toNat ∧
      rt.MintAt bank pool.lpMint mint ∧
      pool.totalLpSupply.toNat =
        mint.supply.toNat + burnedOutside events pool.lpMint ∧
      (∀ record deposit, rt.DepositAt bank record deposit →
        deposit.pool = key →
          deposit.lpAmount.toNat ≤ pool.totalLpSupply.toNat) ∧
      mint.supply.toNat ≤ pool.totalLpSupply.toNat := by
  have hsound := hrun.sound hgenesis.sound
  obtain ⟨view, rfl, hview⟩ := hsound.pools key pool hpool
  obtain ⟨⟨users, htally⟩, hminted⟩ :=
    hrun.invariant (conserves_invariant rt.toDeployment) hgenesis hview
  obtain ⟨freeze, hmint⟩ := hview.lpMint
  have hrecords := hsound.tally_recordOf hview htally
  have hmem : ∀ record,
      record ∈ users.map (depositAddress rt.toDeployment key) ↔
        ∃ deposit, rt.DepositAt bank record deposit ∧
          deposit.pool = key := by
    intro record
    rw [hrecords.present, Option.ne_none_iff_exists']
    exact exists_congr fun _ => recordOf_eq_some
  refine ⟨_, _, hmem, ?_, hmint, hminted, ?_, ?_⟩
  · rw [← hrecords.sum_eq]
    apply Finset.sum_congr rfl
    intro record hrecord
    obtain ⟨deposit, hdeposit⟩ := (hmem record).mp hrecord
    rw [recordOf_eq_some.mpr hdeposit]
    unfold lpRecorded
    rw [recordIn_eq_some.mpr hdeposit.1]
  · intro record deposit hdeposit hkey
    have hle := hrecords.weigh_le record
    rw [recordOf_eq_some.mpr ⟨hdeposit, hkey⟩, weigh_some] at hle
    exact hle
  · dsimp only
    omega

theorem Reachable.weigh_le (h : Reachable rt bank)
    {view : PoolView Pubkey} (hview : Shows rt.toDeployment bank key view)
    (user : Pubkey) :
    weigh StakeDeposit.weight (view.records user) ≤
      view.pool.totalLpSupply.toNat := by
  obtain ⟨start, events, hgenesis, hrun⟩ := h
  obtain ⟨⟨users, htally⟩, -⟩ :=
    hrun.invariant (conserves_invariant rt.toDeployment) hgenesis hview
  exact htally.weigh_le user

end Runs

namespace Reference

/-- Two depositors, one of whom burns LP without withdrawing. -/
def burningMarket : List (Transaction Address) :=
  [initTradingPool 10, openLpAccount alice, openLpAccount bob,
    deposit alice 1000, deposit bob 300, burnLp alice 40,
    waitUntil 1200 1, withdraw bob 100]

theorem burningMarket_lp_conserved :
    ∃ pool, deployment.PoolAt (bankAfter burningMarket) poolKey pool ∧
      (pool.totalLpSupply, pool.lpMint) = (1200, lpMint) ∧
      ∃ (records : Finset Address) (mint : Mint Address),
        (∀ record, record ∈ records ↔ ∃ deposit,
          deployment.DepositAt (bankAfter burningMarket) record deposit ∧
            deposit.pool = poolKey) ∧
        ∑ record ∈ records,
            lpRecorded deployment (bankAfter burningMarket) record =
          pool.totalLpSupply.toNat ∧
        deployment.MintAt (bankAfter burningMarket) pool.lpMint mint ∧
        pool.totalLpSupply.toNat = mint.supply.toNat +
          burnedOutside (burningMarket.map Transaction.event) pool.lpMint ∧
        (∀ record deposit,
          deployment.DepositAt (bankAfter burningMarket) record deposit →
            deposit.pool = poolKey →
              deposit.lpAmount.toNat ≤ pool.totalLpSupply.toNat) ∧
        mint.supply.toNat ≤ pool.totalLpSupply.toNat := by
  have hread : (poolIn (bankAfter burningMarket)).map
      (fun pool => (pool.totalLpSupply, pool.lpMint)) =
        some (1200, lpMint) := by decide +kernel
  obtain ⟨pool, hpool, hnumbers⟩ := exists_poolAt hread
  have hrun := bankAfter_run
    (show acceptsAll genesis burningMarket = true by decide +kernel)
  exact ⟨pool, hpool, hnumbers, Run.lp_conserved genesis_genesis hrun hpool⟩

end Reference

end PercolatorVault
