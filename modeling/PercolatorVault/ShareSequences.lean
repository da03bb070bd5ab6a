import PercolatorVault.PoolSegments

/-!
# Deposits and withdrawals in sequence

The share arithmetic of a pool, applied several times with the totals updated
in between.  Leaving right after a deposit never gains and costs at most one
LP; cutting an amount into pieces never gains; and when all holders leave, in
whatever order, they receive the whole value and each of them at least what
the LP were worth before anybody left.
-/

namespace PercolatorVault

open CheckedArithmetic
open FallibleSteps
open ProportionalShares

/-- A depositor who leaves at once gets back at most the deposit, and loses at
most the price of one LP, rounded up. -/
theorem depositWithdraw_roundTrip {supply value amount lp : U64}
    (hsupply : 0 < supply.toNat)
    (hlp : calcLpForDeposit supply value amount = some lp)
    (hlpFits : supply.toNat + lp.toNat < 2 ^ 64)
    (hvalueFits : value.toNat + amount.toNat < 2 ^ 64) :
    ∃ back,
      calcCollateralForWithdraw (supply + lp) (value + amount) lp =
        some back ∧
      back.toNat ≤ amount.toNat ∧
      amount.toNat - back.toNat ≤ value.toNat ⌈/⌉ supply.toNat := by
  obtain ⟨hvalue, hmint⟩ := calcLpForDeposit_of_pos hsupply hlp
  let pot := Pot.mk value.toNat supply.toNat
  have hle := pot.redeem_issue_mint_le amount.toNat
  have hge := pot.le_redeem_issue_mint_add amount.toNat hvalue hsupply
  rw [← hmint] at hle hge
  have hfits : (pot.issue amount.toNat lp.toNat).redeem lp.toNat < 2 ^ 64 :=
    lt_of_le_of_lt hle amount.isLt
  refine ⟨BitVec.ofNat 64
    ((pot.issue amount.toNat lp.toNat).redeem lp.toNat), ?_, ?_, ?_⟩
  · rw [calcCollateralForWithdraw_eq_some, toNat_add_of_lt hlpFits,
      toNat_add_of_lt hvalueFits, BitVec.toNat_ofNat, Nat.mod_eq_of_lt hfits]
    exact ⟨Nat.add_pos_left hsupply _, rfl⟩
  · rw [BitVec.toNat_ofNat, Nat.mod_eq_of_lt hfits]
    exact hle
  · rw [BitVec.toNat_ofNat, Nat.mod_eq_of_lt hfits]
    exact Nat.sub_le_iff_le_add'.mpr hge

theorem depositWithdraw_roundTrip_seven : ∃ back,
    calcCollateralForWithdraw (3 + 4) (5 + 7) 4 = some back ∧
      back.toNat ≤ (7 : U64).toNat ∧
      (7 : U64).toNat - back.toNat ≤ (5 : U64).toNat ⌈/⌉ (3 : U64).toNat :=
  depositWithdraw_roundTrip (by decide) (by decide) (by decide) (by decide)

namespace StakePool

variable {Pubkey : Type} {pool pool' : StakePool Pubkey} {value : U64}

/-! ## One step on the pot -/

theorem pot_of_totalPoolValue (hvalue : pool.totalPoolValue = some value) :
    pool.pot = ⟨value.toNat, pool.totalLpSupply.toNat⟩ := by
  unfold pot
  rw [(bookValue_of_totalPoolValue hvalue).1]

theorem recordDeposit_pot {amount lp : U64} {clock : Clock}
    (h : pool.recordDeposit amount lp clock = .ok pool')
    (hcovered : pool.outflow ≤ pool.inflow) :
    pool'.inflow = pool.inflow + amount.toNat ∧
      pool'.outflow = pool.outflow ∧
      pool'.pot = pool.pot.issue amount.toNat lp.toNat := by
  obtain ⟨deposited, supply, reserved, hdeposited, hsupply, rfl, -⟩ :=
    recordDeposit_eq_ok h
  have hinflow : pool.inflow + amount.toNat =
      StakePool.inflow
        { pool with
          totalDeposited := deposited
          totalLpSupply := supply
          reserved := reserved } := by
    unfold inflow
    dsimp only
    omega
  refine ⟨hinflow.symm, rfl, ?_⟩
  unfold pot bookValue Pot.issue
  rw [← hinflow, hsupply]
  simp only [Pot.mk.injEq, and_true]
  change pool.inflow + amount.toNat - pool.outflow = _
  omega

/-- What a withdrawal pays, and that it is there to be paid. -/
theorem calcCollateralForWithdraw_pot {collateral lp : U64}
    (hvalue : pool.totalPoolValue = some value)
    (h : pool.calcCollateralForWithdraw lp = some collateral) :
    0 < pool.totalLpSupply.toNat ∧
      collateral.toNat = pool.pot.redeem lp.toNat ∧
      (lp.toNat ≤ pool.totalLpSupply.toNat →
        collateral.toNat ≤ value.toNat) := by
  obtain ⟨value', hvalue', hheld, hpaid⟩ :=
    calcCollateralForWithdraw_eq_some.mp h
  cases hvalue.symm.trans hvalue'
  rw [pot_of_totalPoolValue hvalue]
  refine ⟨hheld, hpaid, fun hlp => ?_⟩
  rw [hpaid]
  exact Pot.redeem_le_value _ hlp

theorem exists_calcCollateralForWithdraw {lp : U64}
    (hvalue : pool.totalPoolValue = some value)
    (hheld : 0 < pool.totalLpSupply.toNat)
    (hlp : lp.toNat ≤ pool.totalLpSupply.toNat) :
    ∃ collateral, pool.calcCollateralForWithdraw lp = some collateral := by
  have hfits :
      (Pot.mk value.toNat pool.totalLpSupply.toNat).redeem lp.toNat <
        2 ^ 64 :=
    lt_of_le_of_lt (Pot.redeem_le_value _ hlp) value.isLt
  refine ⟨BitVec.ofNat 64
    ((Pot.mk value.toNat pool.totalLpSupply.toNat).redeem lp.toNat), ?_⟩
  rw [calcCollateralForWithdraw_eq_some]
  refine ⟨value, hvalue, hheld, ?_⟩
  rw [BitVec.toNat_ofNat, Nat.mod_eq_of_lt hfits]

/-- Paying out at most the value always succeeds. -/
theorem exists_recordWithdraw {collateral lp : U64}
    (hvalue : pool.totalPoolValue = some value)
    (hpaid : collateral.toNat ≤ value.toNat)
    (hlp : lp.toNat ≤ pool.totalLpSupply.toNat) :
    ∃ pool', pool.recordWithdraw collateral lp = .ok pool' := by
  obtain ⟨hinflow, hout, heq⟩ := totalPoolValue_eq_some.mp hvalue
  have hfits : pool.totalWithdrawn.toNat + collateral.toNat < 2 ^ 64 := by
    unfold outflow at heq
    omega
  have hadd : checkedAdd pool.totalWithdrawn collateral =
      some (pool.totalWithdrawn + collateral) := if_pos hfits
  have hsub : checkedSub pool.totalLpSupply lp =
      some (pool.totalLpSupply - lp) := if_pos hlp
  simp [recordWithdraw, hadd, hsub]

theorem recordWithdraw_pot {collateral lp : U64}
    (h : pool.recordWithdraw collateral lp = .ok pool')
    (hvalue : pool.totalPoolValue = some value)
    (hcollateral : pool.calcCollateralForWithdraw lp = some collateral) :
    lp.toNat ≤ pool.totalLpSupply.toNat ∧
      collateral.toNat ≤ value.toNat ∧
      pool'.totalPoolValue = some (value - collateral) ∧
      pool'.pot = pool.pot.retire collateral.toNat lp.toNat := by
  obtain ⟨withdrawn, supply, hwithdrawn, hsupply, hpool'⟩ :=
    recordWithdraw_eq_ok h
  have hpaid :=
    (calcCollateralForWithdraw_pot hvalue hcollateral).2.2 (by omega)
  obtain ⟨hinflow, hout, heq⟩ := totalPoolValue_eq_some.mp hvalue
  have hin' : pool'.inflow = pool.inflow := by
    rw [hpool']
    rfl
  have hout' : pool'.outflow = pool.outflow + collateral.toNat := by
    rw [hpool']
    unfold outflow
    dsimp only
    omega
  have hvalue' : pool'.totalPoolValue = some (value - collateral) := by
    rw [totalPoolValue_eq_some, toNat_sub_of_le hpaid]
    omega
  have hsupply' : pool'.totalLpSupply = supply := by rw [hpool']
  refine ⟨by omega, hpaid, hvalue', ?_⟩
  rw [pot_of_totalPoolValue hvalue', pot_of_totalPoolValue hvalue, hsupply',
    toNat_sub_of_le hpaid]
  simp only [Pot.retire, Pot.mk.injEq, true_and]
  omega

/-! ## Amounts in pieces -/

/-- Deposit the amounts one after the other, each at its own time. -/
def depositEach (pool : StakePool Pubkey) :
    List (Clock × U64) → Except ProgramError (List U64 × StakePool Pubkey)
  | [] => .ok ([], pool)
  | (clock, amount) :: rest => do
      let lp ← okOr (pool.calcLpForDeposit amount) StakeError.overflow
      let pool ← pool.recordDeposit amount lp clock
      let (minted, pool) ← pool.depositEach rest
      .ok (lp :: minted, pool)

/-- Burn the LP amounts one after the other. -/
def withdrawEach (pool : StakePool Pubkey) :
    List U64 → Except ProgramError (List U64 × StakePool Pubkey)
  | [] => .ok ([], pool)
  | lp :: rest => do
      let collateral ← okOr (pool.calcCollateralForWithdraw lp)
        StakeError.overflow
      let pool ← pool.recordWithdraw collateral lp
      let (payouts, pool) ← pool.withdrawEach rest
      .ok (collateral :: payouts, pool)

theorem depositEach_cons_eq_ok {clock : Clock} {amount : U64}
    {rest : List (Clock × U64)} {minted : List U64} :
    pool.depositEach ((clock, amount) :: rest) = .ok (minted, pool') ↔
      ∃ lp middle minted', pool.calcLpForDeposit amount = some lp ∧
        pool.recordDeposit amount lp clock = .ok middle ∧
        middle.depositEach rest = .ok (minted', pool') ∧
        minted = lp :: minted' := by
  simp only [depositEach, bind_eq_ok, okOr_eq_ok, Prod.exists,
    Except.ok.injEq, Prod.mk.injEq]
  constructor
  · rintro ⟨lp, hlp, middle, hmiddle, minted', _, hrest, rfl, rfl⟩
    exact ⟨lp, middle, minted', hlp, hmiddle, hrest, rfl⟩
  · rintro ⟨lp, middle, minted', hlp, hmiddle, hrest, rfl⟩
    exact ⟨lp, hlp, middle, hmiddle, minted', _, hrest, rfl, rfl⟩

theorem withdrawEach_cons_eq_ok {lp : U64} {rest payouts : List U64} :
    pool.withdrawEach (lp :: rest) = .ok (payouts, pool') ↔
      ∃ collateral middle payouts',
        pool.calcCollateralForWithdraw lp = some collateral ∧
        pool.recordWithdraw collateral lp = .ok middle ∧
        middle.withdrawEach rest = .ok (payouts', pool') ∧
        payouts = collateral :: payouts' := by
  simp only [withdrawEach, bind_eq_ok, okOr_eq_ok, Prod.exists,
    Except.ok.injEq, Prod.mk.injEq]
  constructor
  · rintro ⟨collateral, hpaid, middle, hmiddle, payouts', _, hrest, rfl, rfl⟩
    exact ⟨collateral, middle, payouts', hpaid, hmiddle, hrest, rfl⟩
  · rintro ⟨collateral, middle, payouts', hpaid, hmiddle, hrest, rfl⟩
    exact ⟨collateral, hpaid, middle, hmiddle, payouts', _, hrest, rfl, rfl⟩

/-- With LP outstanding the pieces keep the price up together. -/
theorem depositEach_pot {deposits : List (Clock × U64)} {minted : List U64}
    (h : pool.depositEach deposits = .ok (minted, pool'))
    (hheld : 0 < pool.totalLpSupply.toNat) :
    pool'.pot = pool.pot.issue
        ((deposits.map Prod.snd).map BitVec.toNat).sum
        (minted.map BitVec.toNat).sum ∧
      PriceLe pool.pot pool'.pot := by
  induction deposits generalizing pool minted with
  | nil =>
      simp only [depositEach, Except.ok.injEq, Prod.mk.injEq] at h
      obtain ⟨rfl, rfl⟩ := h
      exact ⟨rfl, PriceLe.refl _⟩
  | cons deposit rest ih =>
      obtain ⟨clock, amount⟩ := deposit
      obtain ⟨lp, middle, minted', hlp, hmiddle, hrest, rfl⟩ :=
        depositEach_cons_eq_ok.mp h
      obtain ⟨value, hvalue, hpositive, -, hmint⟩ :=
        (calcLpForDeposit_eq_some.mp hlp).resolve_left (fun hempty =>
          absurd hempty.1 (Nat.pos_iff_ne_zero.mp hheld))
      obtain ⟨hbook, hcovered⟩ := bookValue_of_totalPoolValue hvalue
      have hpot := (recordDeposit_pot hmiddle hcovered).2.2
      have hsupply : middle.totalLpSupply.toNat =
          pool.totalLpSupply.toNat + lp.toNat := congrArg Pot.supply hpot
      obtain ⟨hfinal, hprice⟩ := ih hrest (by omega)
      rw [← pot_of_totalPoolValue hvalue] at hmint
      constructor
      · rw [hfinal, hpot, Pot.issue_issue]
        simp
      · have hstep : PriceLe pool.pot middle.pot := by
          rw [hpot, hmint]
          apply pool.pot.priceLe_issue
          change 0 < pool.bookValue
          omega
        have hmiddle' : 0 < middle.pot.supply := by
          change 0 < middle.totalLpSupply.toNat
          omega
        exact hstep.trans hmiddle' hprice

/-- Into an empty pool every piece mints its own amount. -/
theorem depositEach_of_even {deposits : List (Clock × U64)}
    {minted : List U64}
    (h : pool.depositEach deposits = .ok (minted, pool'))
    (heven : pool.bookValue = pool.totalLpSupply.toNat)
    (hvalue : pool.totalLpSupply.toNat = 0 → pool.totalPoolValue = some 0) :
    (minted.map BitVec.toNat).sum =
      ((deposits.map Prod.snd).map BitVec.toNat).sum := by
  induction deposits generalizing pool minted with
  | nil =>
      simp only [depositEach, Except.ok.injEq, Prod.mk.injEq] at h
      obtain ⟨rfl, rfl⟩ := h
      rfl
  | cons deposit rest ih =>
      obtain ⟨clock, amount⟩ := deposit
      obtain ⟨lp, middle, minted', hlp, hmiddle, hrest, rfl⟩ :=
        depositEach_cons_eq_ok.mp h
      obtain ⟨hsame, hcovered⟩ :
          lp.toNat = amount.toNat ∧ pool.outflow ≤ pool.inflow := by
        rcases calcLpForDeposit_eq_some.mp hlp with
          ⟨hsupply, -, rfl⟩ | ⟨value, hsome, hpositive, hsupply, hmint⟩
        · exact ⟨rfl, (bookValue_of_totalPoolValue (hvalue hsupply)).2⟩
        · obtain ⟨hbook, hcovered⟩ := bookValue_of_totalPoolValue hsome
          refine ⟨?_, hcovered⟩
          rw [hmint, Pot.mint, ← heven, hbook]
          exact Nat.mul_div_cancel _ hpositive
      obtain ⟨hinflow, houtflow, hpot⟩ := recordDeposit_pot hmiddle hcovered
      have hsupply : middle.totalLpSupply.toNat =
          pool.totalLpSupply.toNat + lp.toNat := congrArg Pot.supply hpot
      have hbook : middle.bookValue = pool.bookValue + amount.toNat :=
        congrArg Pot.value hpot
      have hlater := ih hrest (by omega) (by
        intro hempty
        have hbefore := totalPoolValue_eq_some.mp (hvalue (by omega))
        rw [totalPoolValue_eq_some, hinflow, houtflow]
        omega)
      simp [hsame, hlater]

/-- Withdrawals in pieces keep the price up together. -/
theorem withdrawEach_pot {pieces payouts : List U64}
    (h : pool.withdrawEach pieces = .ok (payouts, pool'))
    (hvalue : pool.totalPoolValue = some value) :
    (pieces.map BitVec.toNat).sum ≤ pool.totalLpSupply.toNat ∧
      (payouts.map BitVec.toNat).sum ≤ value.toNat ∧
      pool'.pot = pool.pot.retire (payouts.map BitVec.toNat).sum
        (pieces.map BitVec.toNat).sum ∧
      PriceLe pool.pot pool'.pot := by
  induction pieces generalizing pool payouts value with
  | nil =>
      simp only [withdrawEach, Except.ok.injEq, Prod.mk.injEq] at h
      obtain ⟨rfl, rfl⟩ := h
      simp [Pot.retire, PriceLe.refl]
  | cons lp rest ih =>
      obtain ⟨collateral, middle, payouts', hpaid, hmiddle, hrest, rfl⟩ :=
        withdrawEach_cons_eq_ok.mp h
      obtain ⟨hheld, hpayout, -⟩ :=
        calcCollateralForWithdraw_pot hvalue hpaid
      obtain ⟨hlp, hle, hmiddleValue, hpot⟩ :=
        recordWithdraw_pot hmiddle hvalue hpaid
      obtain ⟨hpieces, hpayouts, hfinal, hprice⟩ := ih hrest hmiddleValue
      have hsupply : middle.totalLpSupply.toNat =
          pool.totalLpSupply.toNat - lp.toNat := congrArg Pot.supply hpot
      rw [toNat_sub_of_le hle] at hpayouts
      simp only [List.map_cons, List.sum_cons]
      refine ⟨by omega, by omega, ?_, ?_⟩
      · rw [hfinal, hpot, Pot.retire_retire]
      · rcases Nat.eq_zero_or_pos middle.totalLpSupply.toNat with
          hempty | hpositive
        · have hgone : pool'.pot.supply = 0 := by
            rw [hfinal]
            change middle.totalLpSupply.toNat - _ = 0
            omega
          unfold PriceLe
          rw [hgone]
          exact Nat.zero_le _
        · have hstep : PriceLe pool.pot middle.pot := by
            rw [hpot, hpayout]
            exact pool.pot.priceLe_retire hlp
          exact hstep.trans hpositive hprice

/-- Cutting an amount into pieces never mints or pays more than the whole
does at once. -/
theorem pieces_le (pool : StakePool Pubkey) (value whole : U64)
    (hvalue : pool.totalPoolValue = some value) :
    (∀ (deposits : List (Clock × U64)) (minted : List U64)
        (pool' : StakePool Pubkey) (lp : U64),
      pool.depositEach deposits = .ok (minted, pool') →
      whole.toNat = ((deposits.map Prod.snd).map BitVec.toNat).sum →
      pool.calcLpForDeposit whole = some lp →
      (minted.map BitVec.toNat).sum ≤ lp.toNat ∧
        (pool.totalLpSupply = 0 → value = 0 →
          (minted.map BitVec.toNat).sum = lp.toNat)) ∧
    (∀ (pieces payouts : List U64) (pool' : StakePool Pubkey)
        (collateral : U64),
      pool.withdrawEach pieces = .ok (payouts, pool') →
      whole.toNat = (pieces.map BitVec.toNat).sum →
      pool.calcCollateralForWithdraw whole = some collateral →
      (payouts.map BitVec.toNat).sum ≤ collateral.toNat) := by
  have hpotValue : pool.pot.value = value.toNat := by
    rw [pot_of_totalPoolValue hvalue]
  have hpotSupply : pool.pot.supply = pool.totalLpSupply.toNat := rfl
  constructor
  · intro deposits minted pool' lp hdeposits hwhole hlp
    rcases calcLpForDeposit_eq_some.mp hlp with
      ⟨hsupply, hzero, rfl⟩ | ⟨value', hvalue', hpositive, hsupply, hmint⟩
    · rw [hvalue, Option.getD_some] at hzero
      have heven := depositEach_of_even hdeposits (by
        rw [hsupply, ← hzero]
        exact hpotValue) (fun _ => by
          rw [hvalue, toNat_eq_zero.mp hzero])
      exact ⟨by omega, fun _ _ => by omega⟩
    · cases hvalue.symm.trans hvalue'
      obtain ⟨hfinal, hprice⟩ := depositEach_pot hdeposits hsupply
      rw [hfinal, pool.pot.priceLe_issue_iff _ _ (by omega), ← hwhole,
        pot_of_totalPoolValue hvalue, ← hmint] at hprice
      refine ⟨hprice, fun hempty => ?_⟩
      exact absurd (toNat_eq_zero.mpr hempty) (by omega)
  · intro pieces payouts pool' collateral hpieces hwhole hcollateral
    obtain ⟨hheld, hpaid, -⟩ :=
      calcCollateralForWithdraw_pot hvalue hcollateral
    obtain ⟨hshares, hpayouts, hfinal, hprice⟩ :=
      withdrawEach_pot hpieces hvalue
    rw [hfinal] at hprice
    have hle := pool.pot.le_redeem_of_priceLe_retire (by omega) hshares
      (by omega) hprice
    rw [hpaid, hwhole]
    exact hle

/-- A pool of value ten with seven LP outstanding. -/
def tenOverSeven : StakePool ℕ :=
  { StakePool.zeroed with totalDeposited := 10, totalLpSupply := 7 }

theorem pieces_le_tenOverSeven :
    tenOverSeven.totalPoolValue = some 10 ∧
    (∀ (deposits : List (Clock × U64)) (minted : List U64)
        (pool' : StakePool ℕ) (lp : U64),
      tenOverSeven.depositEach deposits = .ok (minted, pool') →
      (5 : U64).toNat = ((deposits.map Prod.snd).map BitVec.toNat).sum →
      tenOverSeven.calcLpForDeposit 5 = some lp →
      (minted.map BitVec.toNat).sum ≤ lp.toNat ∧
        (tenOverSeven.totalLpSupply = 0 → (10 : U64) = 0 →
          (minted.map BitVec.toNat).sum = lp.toNat)) ∧
    (∀ (pieces payouts : List U64) (pool' : StakePool ℕ)
        (collateral : U64),
      tenOverSeven.withdrawEach pieces = .ok (payouts, pool') →
      (5 : U64).toNat = (pieces.map BitVec.toNat).sum →
      tenOverSeven.calcCollateralForWithdraw 5 = some collateral →
      (payouts.map BitVec.toNat).sum ≤ collateral.toNat) :=
  ⟨by decide +kernel, pieces_le tenOverSeven 10 5 (by decide +kernel)⟩

/-- Three single LP pay one each, three at once pay four. -/
example : (tenOverSeven.withdrawEach [1, 1, 1]).toOption.map Prod.fst =
      some [1, 1, 1] ∧
    tenOverSeven.calcCollateralForWithdraw 3 = some 4 := by
  decide +kernel

/-! ## Everybody leaves -/

/-- Whoever holds part of the LP can leave, and nothing is left behind if it
was all. -/
theorem exists_exit {lp : U64} (hvalue : pool.totalPoolValue = some value)
    (hpositive : 0 < lp.toNat) (hlp : lp.toNat ≤ pool.pot.supply) :
    ∃ collateral middle,
      pool.calcCollateralForWithdraw lp = some collateral ∧
      pool.recordWithdraw collateral lp = .ok middle ∧
      collateral.toNat = pool.pot.redeem lp.toNat ∧
      collateral.toNat ≤ value.toNat ∧
      middle.totalPoolValue = some (value - collateral) ∧
      middle.pot = pool.pot.retire (pool.pot.redeem lp.toNat) lp.toNat ∧
      (middle.totalLpSupply.toNat = 0 → value - collateral = 0) := by
  have hheld : 0 < pool.pot.supply := hpositive.trans_le hlp
  obtain ⟨collateral, hcollateral⟩ :=
    exists_calcCollateralForWithdraw hvalue hheld hlp
  obtain ⟨-, hpaid, hcovered⟩ :=
    calcCollateralForWithdraw_pot hvalue hcollateral
  obtain ⟨middle, hmiddle⟩ :=
    exists_recordWithdraw hvalue (hcovered hlp) hlp
  obtain ⟨-, hle, hmiddleValue, hpot⟩ :=
    recordWithdraw_pot hmiddle hvalue hcollateral
  rw [hpaid] at hpot
  refine ⟨collateral, middle, hcollateral, hmiddle, hpaid, hle, hmiddleValue,
    hpot, fun hzero => ?_⟩
  have hsupply : middle.totalLpSupply.toNat =
      pool.pot.supply - lp.toNat := congrArg Pot.supply hpot
  have hall : lp.toNat = pool.pot.supply := by omega
  rw [hall, pool.pot.redeem_supply hheld, pot_of_totalPoolValue hvalue]
    at hpaid
  rw [← toNat_eq_zero, toNat_sub_of_le hle, hpaid]
  exact Nat.sub_self _

/-- From a pool that kept the price of `first` and at most `dust` on top, all
holders can leave one after the other. -/
theorem withdrawEach_all {first : Pot} {dust : ℕ} {holdings : List U64}
    (hvalue : pool.totalPoolValue = some value)
    (hpositive : ∀ holding ∈ holdings, 0 < holding.toNat)
    (hsum : (holdings.map BitVec.toNat).sum = pool.totalLpSupply.toNat)
    (hempty : pool.totalLpSupply.toNat = 0 → value = 0)
    (hfirst : 0 < first.supply) (hprice : PriceLe first pool.pot)
    (hdust : SurplusLe dust first pool.pot) :
    ∃ payouts pool', pool.withdrawEach holdings = .ok (payouts, pool') ∧
      (payouts.map BitVec.toNat).sum = value.toNat ∧
      pool'.totalLpSupply = 0 ∧ pool'.totalPoolValue = some 0 ∧
      payouts.length = holdings.length ∧
      ∀ k holding payout, holdings[k]? = some holding →
        payouts[k]? = some payout →
        first.redeem holding.toNat ≤ payout.toNat ∧
          payout.toNat * first.supply ≤
            holding.toNat * first.value + (dust + k) * first.supply := by
  induction holdings generalizing pool value dust with
  | nil =>
      have hsupply : pool.totalLpSupply.toNat = 0 := hsum.symm
      have hzero := hempty hsupply
      refine ⟨[], pool, rfl, ?_, toNat_eq_zero.mp hsupply, ?_, rfl, ?_⟩
      · simp [hzero]
      · rw [hvalue, hzero]
      · intro k holding payout hholding
        simp at hholding
  | cons lp rest ih =>
      simp only [List.map_cons, List.sum_cons] at hsum
      have hlpPositive : 0 < lp.toNat := hpositive lp (by simp)
      have hheld : 0 < pool.pot.supply := by
        change 0 < pool.totalLpSupply.toNat
        omega
      have hlp : lp.toNat ≤ pool.pot.supply := by
        change lp.toNat ≤ pool.totalLpSupply.toNat
        omega
      obtain ⟨collateral, middle, hcollateral, hmiddle, hpaid, hle,
        hmiddleValue, hpot, hgone⟩ := exists_exit hvalue hlpPositive hlp
      have hsupply : middle.totalLpSupply.toNat =
          pool.totalLpSupply.toNat - lp.toNat := congrArg Pot.supply hpot
      have hprice' : PriceLe first middle.pot := by
        rw [hpot]
        exact hprice.trans hheld (pool.pot.priceLe_retire hlp)
      have hdust' : SurplusLe (dust + 1) first middle.pot := by
        rw [hpot]
        exact hdust.retire hheld hlp
      obtain ⟨payouts, pool', hrest, htotal, hfinal, hfinalValue, hlength,
        hfair⟩ := ih hmiddleValue
          (fun holding hmem => hpositive holding (by simp [hmem]))
          (by omega) hgone hprice' hdust'
      refine ⟨collateral :: payouts, pool',
        withdrawEach_cons_eq_ok.mpr
          ⟨collateral, middle, payouts, hcollateral, hmiddle, hrest, rfl⟩,
        ?_, hfinal, hfinalValue, by simp [hlength], ?_⟩
      · rw [toNat_sub_of_le hle] at htotal
        simp only [List.map_cons, List.sum_cons]
        omega
      · intro k holding payout hholding hpayout
        cases k with
        | zero =>
            simp only [List.getElem?_cons_zero, Option.some.injEq]
              at hholding hpayout
            subst hholding hpayout
            rw [hpaid]
            exact ⟨hprice.redeem_mono hfirst hheld _,
              hdust.redeem_mul_le hheld hlp⟩
        | succ k =>
            simp only [List.getElem?_cons_succ] at hholding hpayout
            obtain ⟨hlow, hhigh⟩ := hfair k holding payout hholding hpayout
            refine ⟨hlow, hhigh.trans_eq ?_⟩
            ring

/-- Whatever the order in which all holders burn their whole holding, every
call succeeds, the payouts sum to the value, nothing is left, and whoever
leaves after `k` others gets between the share of the value rounded down and
`k` units more than that share. -/
theorem exitOrder_fair {holdings order : List U64}
    (hvalue : pool.totalPoolValue = some value)
    (hheld : 0 < pool.totalLpSupply.toNat)
    (hpositive : ∀ holding ∈ holdings, 0 < holding.toNat)
    (hsum : (holdings.map BitVec.toNat).sum = pool.totalLpSupply.toNat)
    (horder : order.Perm holdings) :
    ∃ payouts pool', pool.withdrawEach order = .ok (payouts, pool') ∧
      (payouts.map BitVec.toNat).sum = value.toNat ∧
      pool'.totalLpSupply = 0 ∧ pool'.totalPoolValue = some 0 ∧
      payouts.length = order.length ∧
      ∀ (k : ℕ) (holding payout : U64), order[k]? = some holding →
        payouts[k]? = some payout →
        holding.toNat * value.toNat / pool.totalLpSupply.toNat ≤
            payout.toNat ∧
          (payout.toNat : ℚ) ≤
            holding.toNat * value.toNat / pool.totalLpSupply.toNat + k := by
  have hsum' : (order.map BitVec.toNat).sum = pool.totalLpSupply.toNat := by
    rw [← hsum]
    exact (horder.map _).sum_eq
  have hpositive' : ∀ holding ∈ order, 0 < holding.toNat := fun holding hmem =>
    hpositive holding (horder.mem_iff.mp hmem)
  obtain ⟨payouts, pool', hrun, htotal, hsupply, hfinal, hlength, hfair⟩ :=
    withdrawEach_all hvalue hpositive' hsum'
      (fun hzero => absurd hzero (Nat.pos_iff_ne_zero.mp hheld)) hheld
      (PriceLe.refl pool.pot) (SurplusLe.refl pool.pot)
  refine ⟨payouts, pool', hrun, htotal, hsupply, hfinal, hlength, ?_⟩
  intro k holding payout hholding hpayout
  obtain ⟨hlow, hhigh⟩ := hfair k holding payout hholding hpayout
  rw [pot_of_totalPoolValue hvalue] at hlow hhigh
  refine ⟨hlow, ?_⟩
  have hheldRat : (0 : ℚ) < pool.totalLpSupply.toNat := by
    exact_mod_cast hheld
  rw [← sub_le_iff_le_add, le_div_iff₀ hheldRat]
  have hcast : (payout.toNat : ℚ) * pool.totalLpSupply.toNat ≤
      holding.toNat * value.toNat + (0 + k) * pool.totalLpSupply.toNat := by
    exact_mod_cast hhigh
  linarith

theorem exitOrder_fair_tenOverSeven : ∃ payouts pool',
    tenOverSeven.withdrawEach [1, 4, 2] = .ok (payouts, pool') ∧
      (payouts.map BitVec.toNat).sum = (10 : U64).toNat ∧
      pool'.totalLpSupply = 0 ∧ pool'.totalPoolValue = some 0 ∧
      payouts.length = [1, 4, 2].length ∧
      ∀ (k : ℕ) (holding payout : U64), [1, 4, 2][k]? = some holding →
        payouts[k]? = some payout →
        holding.toNat * (10 : U64).toNat /
              tenOverSeven.totalLpSupply.toNat ≤ payout.toNat ∧
          (payout.toNat : ℚ) ≤
            holding.toNat * (10 : U64).toNat /
              tenOverSeven.totalLpSupply.toNat + k :=
  have hall : ∀ holding ∈ ([4, 2, 1] : List U64), 0 < holding.toNat := by
    simp
  exitOrder_fair (by decide +kernel) (by decide +kernel) hall
    (by decide +kernel) (by decide)

end StakePool

end PercolatorVault
