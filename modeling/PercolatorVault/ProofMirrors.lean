import PercolatorVault.DepositAcceptance
import PercolatorVault.ValueMirrors

/-!
# The functions of the proof harness

The harness checks copies of the LP math on 32-bit words with 64-bit
intermediates.  A copy computes what the program does whenever the result fits
in its words.  Two copies stand apart: the flushable amount leaves out what the
insurance returned, and the cooldown saturates at the end of the narrow range.
-/

namespace PercolatorVault

open CheckedArithmetic
open ProportionalShares

variable {Pubkey : Type}

namespace KaniProofs

def u32Max : U32 := BitVec.allOnes 32

def asU64 (x : U32) : U64 := x.setWidth 64

def asU32 (x : U64) : U32 := x.setWidth 32

@[simp] theorem toNat_asU64 (x : U32) : (asU64 x).toNat = x.toNat :=
  toNat_setWidth_of_le (by decide) x

def calcLpForDeposit (supply poolValue deposit : U32) : Option U32 :=
  if supply = 0 ∧ poolValue = 0 then
    some deposit
  else if supply = 0 ∨ poolValue = 0 then
    none
  else do
    let product ← checkedMul (asU64 deposit) (asU64 supply)
    let lp ← checkedDiv product (asU64 poolValue)
    if (asU64 u32Max).toNat < lp.toNat then none else some (asU32 lp)

def calcCollateralForWithdraw (supply poolValue lp : U32) : Option U32 :=
  if supply = 0 then
    none
  else do
    let product ← checkedMul (asU64 lp) (asU64 poolValue)
    let collateral ← checkedDiv product (asU64 supply)
    if (asU64 u32Max).toNat < collateral.toNat then none
    else some (asU32 collateral)

def poolValue (deposited withdrawn : U32) : Option U32 :=
  checkedSub deposited withdrawn

def flushAvailable (deposited withdrawn flushed : U32) : U32 :=
  saturatingSub (saturatingSub deposited withdrawn) flushed

def cooldownElapsed (currentSlot depositSlot cooldownSlots : U32) : Bool :=
  (saturatingAdd depositSlot cooldownSlots).toNat ≤ currentSlot.toNat

def exceedsCap (totalDeposited newDeposit cap : U32) : Bool :=
  if cap = 0 then
    false
  else
    match checkedAdd totalDeposited newDeposit with
    | some total => cap.toNat < total.toNat
    | none => true

/-! ## Each copy in natural numbers -/

/-- The guard against a result that does not fit. -/
theorem guard_eq_checkedResize (x : U64) :
    (if (asU64 u32Max).toNat < x.toNat then none else some (asU32 x)) =
      checkedResize 32 x := by
  have hmax : (asU64 u32Max).toNat = 2 ^ 32 - 1 := rfl
  unfold checkedResize asU32
  rw [hmax]
  by_cases hlt : x.toNat < 2 ^ 32
  · rw [if_pos hlt, if_neg (by omega)]
  · rw [if_neg hlt, if_pos (by omega)]

theorem calcLpForDeposit_eq_some {supply value deposit lp : U32} :
    calcLpForDeposit supply value deposit = some lp ↔
      (supply.toNat = 0 ∧ value.toNat = 0 ∧ lp = deposit) ∨
      (0 < supply.toNat ∧ 0 < value.toNat ∧
        lp.toNat = (Pot.mk value.toNat supply.toNat).mint deposit.toNat) := by
  unfold calcLpForDeposit Pot.mint
  simp only [← toNat_eq_zero (x := supply), ← toNat_eq_zero (x := value),
    guard_eq_checkedResize]
  by_cases hsupply : supply.toNat = 0
  · by_cases hvalue : value.toNat = 0
    · rw [if_pos ⟨hsupply, hvalue⟩]
      simp only [Option.some.injEq, hsupply, hvalue, true_and,
        Nat.lt_irrefl, false_and, or_false]
      exact eq_comm
    · rw [if_neg fun h => hvalue h.2, if_pos (.inl hsupply)]
      simp only [hsupply, hvalue, reduceCtorEq, false_and, and_false,
        Nat.lt_irrefl, or_false]
  · rw [if_neg fun h => hsupply h.1]
    by_cases hvalue : value.toNat = 0
    · rw [if_pos (.inr hvalue)]
      simp only [hsupply, hvalue, reduceCtorEq, false_and, and_false,
        Nat.lt_irrefl, or_false]
    · rw [if_neg (not_or.mpr ⟨hsupply, hvalue⟩)]
      unfold asU64
      rw [wideMulDiv_eq_some (by decide)]
      simp only [hsupply, false_and, false_or, Nat.pos_of_ne_zero hsupply,
        true_and]

theorem calcCollateralForWithdraw_eq_some
    {supply value lp collateral : U32} :
    calcCollateralForWithdraw supply value lp = some collateral ↔
      0 < supply.toNat ∧
        collateral.toNat =
          (Pot.mk value.toNat supply.toNat).redeem lp.toNat := by
  unfold calcCollateralForWithdraw Pot.redeem
  simp only [← toNat_eq_zero (x := supply), guard_eq_checkedResize]
  by_cases hsupply : supply.toNat = 0
  · rw [if_pos hsupply]
    simp only [hsupply, reduceCtorEq, Nat.lt_irrefl, false_and]
  · rw [if_neg hsupply]
    unfold asU64
    rw [wideMulDiv_eq_some (by decide)]

theorem cooldownElapsed_iff {currentSlot depositSlot cooldownSlots : U32} :
    cooldownElapsed currentSlot depositSlot cooldownSlots = true ↔
      min (depositSlot.toNat + cooldownSlots.toNat) (2 ^ 32 - 1) ≤
        currentSlot.toNat := by
  unfold cooldownElapsed
  rw [decide_eq_true_iff, toNat_saturatingAdd]

theorem exceedsCap_eq_false {totalDeposited newDeposit cap : U32} :
    exceedsCap totalDeposited newDeposit cap = false ↔
      cap.toNat = 0 ∨
        totalDeposited.toNat + newDeposit.toNat ≤ cap.toNat := by
  have hcapLt := cap.isLt
  unfold exceedsCap
  by_cases hcap : cap = 0
  · rw [if_pos hcap, hcap]
    simp
  · rw [if_neg hcap, toNat_eq_zero]
    cases hsum : checkedAdd totalDeposited newDeposit with
    | none =>
        unfold checkedAdd at hsum
        have hover : ¬ totalDeposited.toNat + newDeposit.toNat < 2 ^ 32 := by
          intro hlt
          rw [if_pos hlt] at hsum
          cases hsum
        simp only [Bool.true_eq_false, hcap, false_or, false_iff]
        omega
    | some total =>
        rw [checkedAdd_eq_some] at hsum
        simp only [decide_eq_false_iff_not, hcap, false_or]
        omega

/-! ## Against the program -/

theorem calcLpForDeposit_eq (supply value deposit : U32) :
    calcLpForDeposit supply value deposit =
      (PercolatorVault.calcLpForDeposit (asU64 supply) (asU64 value)
        (asU64 deposit)).bind (checkedResize 32) := by
  apply Option.ext
  intro lp
  simp only [calcLpForDeposit_eq_some, Option.bind_eq_some_iff,
    PercolatorVault.calcLpForDeposit_eq_some, toNat_asU64,
    checkedResize_eq_some]
  constructor
  · rintro (⟨hsupply, hvalue, rfl⟩ | ⟨hsupply, hvalue, hlp⟩)
    · exact ⟨asU64 lp, .inl ⟨hsupply, hvalue, rfl⟩, toNat_asU64 lp⟩
    · exact ⟨asU64 lp, .inr ⟨hsupply, hvalue, by rw [toNat_asU64, hlp]⟩,
        toNat_asU64 lp⟩
  · rintro ⟨wide, ⟨hsupply, hvalue, rfl⟩ | ⟨hsupply, hvalue, hwide⟩, hlp⟩
    · rw [toNat_asU64] at hlp
      exact .inl ⟨hsupply, hvalue, BitVec.eq_of_toNat_eq hlp.symm⟩
    · exact .inr ⟨hsupply, hvalue, hlp.symm.trans hwide⟩

theorem calcCollateralForWithdraw_eq (supply value lp : U32) :
    calcCollateralForWithdraw supply value lp =
      (PercolatorVault.calcCollateralForWithdraw (asU64 supply)
        (asU64 value) (asU64 lp)).bind (checkedResize 32) := by
  apply Option.ext
  intro collateral
  simp only [calcCollateralForWithdraw_eq_some, Option.bind_eq_some_iff,
    PercolatorVault.calcCollateralForWithdraw_eq_some, toNat_asU64,
    checkedResize_eq_some]
  constructor
  · rintro ⟨hsupply, hcollateral⟩
    exact ⟨asU64 collateral, ⟨hsupply, by rw [toNat_asU64, hcollateral]⟩,
      toNat_asU64 collateral⟩
  · rintro ⟨wide, ⟨hsupply, hwide⟩, hcollateral⟩
    exact ⟨hsupply, hcollateral.symm.trans hwide⟩

theorem poolValue_eq (deposited withdrawn : U32) :
    poolValue deposited withdrawn =
      (PercolatorVault.poolValue (asU64 deposited)
        (asU64 withdrawn)).bind (checkedResize 32) := by
  unfold poolValue PercolatorVault.poolValue
  apply Option.ext
  intro value
  simp only [checkedSub_eq_some, Option.bind_eq_some_iff, toNat_asU64,
    checkedResize_eq_some]
  constructor
  · intro hvalue
    exact ⟨asU64 value, by rw [toNat_asU64, hvalue], toNat_asU64 value⟩
  · rintro ⟨wide, hwide, hvalue⟩
    rw [hwide, hvalue]

/-- What came back from the insurance is missing unless the totals that left
cover it as well. -/
theorem flushAvailable_eq_iff (deposited returned withdrawn flushed : U32) :
    asU64 (flushAvailable deposited withdrawn flushed) =
        PercolatorVault.flushAvailable (asU64 deposited) (asU64 returned)
          (asU64 withdrawn) (asU64 flushed) ↔
      returned.toNat = 0 ∨ deposited.toNat + returned.toNat ≤
        withdrawn.toNat + flushed.toNat := by
  have hdeposited := deposited.isLt
  have hreturned := returned.isLt
  unfold flushAvailable PercolatorVault.flushAvailable
  rw [← BitVec.toNat_inj]
  simp only [toNat_asU64, toNat_saturatingSub, toNat_saturatingAdd]
  omega

/-- At the last narrow slot the copy already counts a cooldown as over that
ends behind it. -/
theorem cooldownElapsed_iff_gate (currentSlot depositSlot cooldown : U32) :
    cooldownElapsed currentSlot depositSlot cooldown = true ↔
      (saturatingAdd (asU64 depositSlot) (asU64 cooldown)).toNat ≤
          (asU64 currentSlot).toNat ∨
        currentSlot.toNat = 2 ^ 32 - 1 := by
  have hcurrent := currentSlot.isLt
  have hdeposit := depositSlot.isLt
  have hcooldown := cooldown.isLt
  rw [cooldownElapsed_iff, toNat_saturatingAdd]
  simp only [toNat_asU64]
  omega

theorem exceedsCap_eq_false_iff {pool : StakePool Pubkey}
    {value newDeposit cap : U32} (hcap : pool.depositCap = asU64 cap)
    (hvalue : pool.totalPoolValue = some (asU64 value)) :
    exceedsCap value newDeposit cap = false ↔
      checkDepositCap pool (asU64 newDeposit) = .ok () := by
  rw [exceedsCap_eq_false, StakePool.checkDepositCap_eq_ok hvalue, hcap]
  simp only [toNat_asU64]

/-- The copies against the functions and the gates of the program. -/
theorem mirrors_program (pool : StakePool Pubkey)
    {value cap : U32} (hcap : pool.depositCap = asU64 cap)
    (hvalue : pool.totalPoolValue = some (asU64 value)) :
    (∀ supply worth deposit : U32, calcLpForDeposit supply worth deposit =
      (PercolatorVault.calcLpForDeposit (asU64 supply) (asU64 worth)
        (asU64 deposit)).bind (checkedResize 32)) ∧
    (∀ supply worth lp : U32, calcCollateralForWithdraw supply worth lp =
      (PercolatorVault.calcCollateralForWithdraw (asU64 supply)
        (asU64 worth) (asU64 lp)).bind (checkedResize 32)) ∧
    (∀ deposited withdrawn : U32, poolValue deposited withdrawn =
      (PercolatorVault.poolValue (asU64 deposited)
        (asU64 withdrawn)).bind (checkedResize 32)) ∧
    (∀ deposited returned withdrawn flushed : U32,
      asU64 (flushAvailable deposited withdrawn flushed) =
          PercolatorVault.flushAvailable (asU64 deposited)
            (asU64 returned) (asU64 withdrawn) (asU64 flushed) ↔
        returned.toNat = 0 ∨ deposited.toNat + returned.toNat ≤
          withdrawn.toNat + flushed.toNat) ∧
    (∀ currentSlot depositSlot cooldown : U32,
      cooldownElapsed currentSlot depositSlot cooldown = true ↔
        (saturatingAdd (asU64 depositSlot) (asU64 cooldown)).toNat ≤
            (asU64 currentSlot).toNat ∨
          currentSlot.toNat = 2 ^ 32 - 1) ∧
    ∀ newDeposit : U32, exceedsCap value newDeposit cap = false ↔
      checkDepositCap pool (asU64 newDeposit) = .ok () :=
  ⟨calcLpForDeposit_eq, calcCollateralForWithdraw_eq, poolValue_eq,
    flushAvailable_eq_iff, cooldownElapsed_iff_gate,
    fun _ => exceedsCap_eq_false_iff hcap hvalue⟩

end KaniProofs

namespace Reference

open KaniProofs

def cappedPool : StakePool Address :=
  { StakePool.zeroed with totalDeposited := 1000, depositCap := 1500 }

/-- A deposit up to the cap passes, and one unit more does not. -/
theorem cappedPool_mirrors_program :
    exceedsCap 1000 500 1500 = false ∧
      checkDepositCap cappedPool 500 = .ok () ∧
      checkDepositCap cappedPool 501 ≠ .ok () := by
  have hcap : ∀ newDeposit : U32, exceedsCap 1000 newDeposit 1500 = false ↔
      checkDepositCap cappedPool (KaniProofs.asU64 newDeposit) = .ok () :=
    (@mirrors_program _ cappedPool 1000 1500 rfl (by decide)).2.2.2.2.2
  refine ⟨by decide, (hcap 500).mp (by decide), ?_⟩
  intro hover
  exact absurd ((hcap 501).mpr hover) (by decide)

end Reference

end PercolatorVault
