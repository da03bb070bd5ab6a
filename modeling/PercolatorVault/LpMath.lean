import PercolatorVault.CheckedArithmetic
import PercolatorVault.ProportionalShares

/-!
# Pure LP math

The arithmetic of the vault, free of accounts: minting and redeeming LP
tokens, the blended deposit slot of the withdrawal cooldown, and the
high-water-mark floor.  Each function is followed by what it computes as a
number.
-/

namespace PercolatorVault

open CheckedArithmetic
open ProportionalShares

def u64Max : U64 := BitVec.allOnes 64

def asU128 (x : U64) : U128 := x.setWidth 128

def asU64 (x : U128) : U64 := x.setWidth 64

@[simp] theorem toNat_asU128 (x : U64) : (asU128 x).toNat = x.toNat :=
  toNat_widen_u64 x

theorem toNat_asU64_of_lt {x : U128} (h : x.toNat < 2 ^ 64) :
    (asU64 x).toNat = x.toNat := by
  unfold asU64
  rw [BitVec.toNat_setWidth, Nat.mod_eq_of_lt h]

@[simp] theorem toNat_u64Max : u64Max.toNat = 2 ^ 64 - 1 := rfl

/-! ## Minting and redeeming -/

/-- LP tokens for a deposit, rounded down.  Deposits into orphaned value
(no supply) and into valueless LP (no value) are blocked. -/
def calcLpForDeposit
    (totalLpSupply totalPoolValue depositAmount : U64) : Option U64 :=
  if totalLpSupply = 0 ∧ totalPoolValue = 0 then
    some depositAmount
  else if totalLpSupply = 0 then
    none
  else if totalPoolValue = 0 then
    none
  else do
    let product ← checkedMul (asU128 depositAmount) (asU128 totalLpSupply)
    let lp ← checkedDiv product (asU128 totalPoolValue)
    if (asU128 u64Max).toNat < lp.toNat then none else some (asU64 lp)

/-- Collateral for burning LP tokens, rounded down. -/
def calcCollateralForWithdraw
    (totalLpSupply totalPoolValue lpAmount : U64) : Option U64 :=
  if totalLpSupply = 0 then
    none
  else do
    let product ← checkedMul (asU128 lpAmount) (asU128 totalPoolValue)
    let collateral ← checkedDiv product (asU128 totalLpSupply)
    if (asU128 u64Max).toNat < collateral.toNat then none
    else some (asU64 collateral)

/-- The widened multiply-then-divide shared by minting, redeeming and the
high-water-mark floor is exact whenever its quotient fits in 64 bits. -/
theorem mulDiv_narrow_eq_some {x y : U64} {divisor : U128} {z : U64} :
    (do
      let product ← checkedMul (asU128 x) (asU128 y)
      let quotient ← checkedDiv product divisor
      if (asU128 u64Max).toNat < quotient.toNat then none
      else some (asU64 quotient)) = some z ↔
    0 < divisor.toNat ∧ z.toNat = x.toNat * y.toNat / divisor.toNat := by
  obtain ⟨product, hproduct⟩ :
      ∃ product, checkedMul (asU128 x) (asU128 y) = some product := by
    refine ⟨asU128 x * asU128 y, ?_⟩
    unfold checkedMul
    rw [toNat_asU128, toNat_asU128, if_pos (mul_lt_u128 x y)]
  have hvalue : product.toNat = x.toNat * y.toNat := by
    simpa using (checkedMul_eq_some.mp hproduct).symm
  rw [hproduct]
  simp only [Option.bind_eq_bind, Option.bind_some,
    Option.bind_eq_some_iff, checkedDiv_eq_some, hvalue, toNat_asU128,
    toNat_u64Max, Option.ite_none_left_eq_some, not_lt, Option.some.injEq]
  constructor
  · rintro ⟨quotient, ⟨hpos, hquotient⟩, hfit, rfl⟩
    refine ⟨hpos, ?_⟩
    rw [toNat_asU64_of_lt (by omega), hquotient]
  · rintro ⟨hpos, hz⟩
    refine ⟨asU128 z, ⟨hpos, by simpa using hz⟩, ?_, ?_⟩
    · have := z.isLt
      simp only [toNat_asU128]
      omega
    · apply BitVec.eq_of_toNat_eq
      have := z.isLt
      rw [toNat_asU64_of_lt (by rw [toNat_asU128]; omega), toNat_asU128]

theorem calcLpForDeposit_eq_some
    {supply value amount lp : U64} :
    calcLpForDeposit supply value amount = some lp ↔
      (supply.toNat = 0 ∧ value.toNat = 0 ∧ lp = amount) ∨
      (0 < supply.toNat ∧ 0 < value.toNat ∧
        lp.toNat = (Pot.mk value.toNat supply.toNat).mint amount.toNat) := by
  unfold calcLpForDeposit Pot.mint
  simp only [← toNat_eq_zero (x := supply), ← toNat_eq_zero (x := value)]
  by_cases hsupply : supply.toNat = 0
  · by_cases hvalue : value.toNat = 0
    · rw [if_pos ⟨hsupply, hvalue⟩]
      simp only [Option.some.injEq, hsupply, hvalue, true_and,
        Nat.lt_irrefl, false_and, or_false]
      exact eq_comm
    · rw [if_neg (fun h => hvalue h.2), if_pos hsupply]
      simp only [hsupply, hvalue, reduceCtorEq, false_and, and_false,
        Nat.lt_irrefl, or_false]
  · rw [if_neg (fun h => hsupply h.1), if_neg hsupply]
    by_cases hvalue : value.toNat = 0
    · rw [if_pos hvalue]
      simp only [hsupply, hvalue, reduceCtorEq, false_and, and_false,
        Nat.lt_irrefl, or_false]
    · rw [if_neg hvalue, mulDiv_narrow_eq_some, toNat_asU128]
      simp only [hsupply, false_and, false_or, Nat.pos_of_ne_zero hsupply,
        true_and]

theorem calcLpForDeposit_of_pos
    {supply value amount lp : U64} (hsupply : 0 < supply.toNat)
    (h : calcLpForDeposit supply value amount = some lp) :
    0 < value.toNat ∧
      lp.toNat = (Pot.mk value.toNat supply.toNat).mint amount.toNat := by
  rcases calcLpForDeposit_eq_some.mp h with ⟨hzero, _, _⟩ | ⟨_, hvalue, hlp⟩
  · omega
  · exact ⟨hvalue, hlp⟩

theorem calcCollateralForWithdraw_eq_some
    {supply value lp collateral : U64} :
    calcCollateralForWithdraw supply value lp = some collateral ↔
      0 < supply.toNat ∧
        collateral.toNat =
          (Pot.mk value.toNat supply.toNat).redeem lp.toNat := by
  unfold calcCollateralForWithdraw Pot.redeem
  simp only [← toNat_eq_zero (x := supply)]
  by_cases hsupply : supply.toNat = 0
  · rw [if_pos hsupply]
    simp only [hsupply, reduceCtorEq, Nat.lt_irrefl, false_and]
  · rw [if_neg hsupply, mulDiv_narrow_eq_some, toNat_asU128]

/-! ## Pool value from the raw totals -/

def poolValue (totalDeposited totalWithdrawn : U64) : Option U64 :=
  checkedSub totalDeposited totalWithdrawn

def poolValueWithFees
    (totalDeposited totalWithdrawn totalFeesEarned : U64) : Option U64 := do
  let net ← checkedSub totalDeposited totalWithdrawn
  checkedAdd net totalFeesEarned

def flushAvailable
    (totalDeposited totalReturned totalWithdrawn totalFlushed : U64) : U64 :=
  saturatingSub
    (saturatingSub (saturatingAdd totalDeposited totalReturned)
      totalWithdrawn)
    totalFlushed

/-! ## The blended deposit slot -/

/-- LP-weighted average of the old and the current slot, lifted to a floor
that credits age only to the LP held before this deposit. -/
def weightedDepositSlot
    (existingLp existingSlot newLp currentSlot cooldownSlots : U64) : U64 :=
  let totalLp := asU128 existingLp + asU128 newLp
  if totalLp = 0 then
    currentSlot
  else
    let lo := wordMin existingSlot currentSlot
    let existingSpan := asU128 (existingSlot - lo)
    let currentSpan := asU128 (currentSlot - lo)
    let weightedSpan :=
      asU128 existingLp * existingSpan + asU128 newLp * currentSpan
    let offset := weightedSpan / totalLp
    let blended := saturatingAdd lo (asU64 offset)
    if 0 < newLp.toNat then
      let agedCreditU128 := asU128 cooldownSlots * asU128 existingLp / totalLp
      let agedCredit := asU64 (wordMin agedCreditU128 (asU128 u64Max))
      let floor := saturatingSub currentSlot agedCredit
      wordMax blended floor
    else
      blended

/-- The average before the floor, as a number. -/
def blendedSlot (existingLp existingSlot newLp currentSlot : ℕ) : ℕ :=
  let lo := min existingSlot currentSlot
  lo + (existingLp * (existingSlot - lo) + newLp * (currentSlot - lo)) /
    (existingLp + newLp)

theorem weightedSpan_le (existingLp existingSlot newLp currentSlot : ℕ) :
    let lo := min existingSlot currentSlot
    existingLp * (existingSlot - lo) + newLp * (currentSlot - lo) ≤
      (max existingSlot currentSlot - lo) * (existingLp + newLp) := by
  intro lo
  have hleft : existingLp * (existingSlot - lo) ≤
      existingLp * (max existingSlot currentSlot - lo) :=
    Nat.mul_le_mul_left _ (by omega)
  have hright : newLp * (currentSlot - lo) ≤
      newLp * (max existingSlot currentSlot - lo) :=
    Nat.mul_le_mul_left _ (by omega)
  calc
    existingLp * (existingSlot - lo) + newLp * (currentSlot - lo) ≤
        existingLp * (max existingSlot currentSlot - lo) +
          newLp * (max existingSlot currentSlot - lo) :=
      Nat.add_le_add hleft hright
    _ = _ := by ring

theorem blendedSlot_le_max (existingLp existingSlot newLp currentSlot : ℕ) :
    blendedSlot existingLp existingSlot newLp currentSlot ≤
      max existingSlot currentSlot := by
  have hspan := weightedSpan_le existingLp existingSlot newLp currentSlot
  have hdiv := Nat.div_le_of_le_mul (hspan.trans_eq (Nat.mul_comm _ _))
  unfold blendedSlot
  dsimp only at hdiv ⊢
  omega

theorem weightedSpan_lt_u128 (existingLp existingSlot newLp currentSlot : U64) :
    let lo := min existingSlot.toNat currentSlot.toNat
    existingLp.toNat * (existingSlot.toNat - lo) +
      newLp.toNat * (currentSlot.toNat - lo) < 2 ^ 128 := by
  intro lo
  have hE := mul_lt_u128 existingLp existingSlot
  have hN := mul_lt_u128 newLp currentSlot
  rcases le_total existingSlot.toNat currentSlot.toNat with h | h
  · have hzero : existingSlot.toNat - lo = 0 := by omega
    have hle : newLp.toNat * (currentSlot.toNat - lo) ≤
        newLp.toNat * currentSlot.toNat :=
      Nat.mul_le_mul_left _ (Nat.sub_le _ _)
    rw [hzero, Nat.mul_zero, Nat.zero_add]
    exact lt_of_le_of_lt hle hN
  · have hzero : currentSlot.toNat - lo = 0 := by omega
    have hle : existingLp.toNat * (existingSlot.toNat - lo) ≤
        existingLp.toNat * existingSlot.toNat :=
      Nat.mul_le_mul_left _ (Nat.sub_le _ _)
    rw [hzero, Nat.mul_zero, Nat.add_zero]
    exact lt_of_le_of_lt hle hE

/-! ### The words of the computation as numbers -/

theorem toNat_totalLp (existingLp newLp : U64) :
    (asU128 existingLp + asU128 newLp).toNat =
      existingLp.toNat + newLp.toNat := by
  rw [toNat_add_of_lt] <;> simp only [toNat_asU128]
  omega

theorem toNat_existingSpan (existingSlot currentSlot : U64) :
    (existingSlot - wordMin existingSlot currentSlot).toNat =
      existingSlot.toNat - min existingSlot.toNat currentSlot.toNat := by
  rw [toNat_sub_of_le] <;> rw [toNat_wordMin]
  exact min_le_left _ _

theorem toNat_currentSpan (existingSlot currentSlot : U64) :
    (currentSlot - wordMin existingSlot currentSlot).toNat =
      currentSlot.toNat - min existingSlot.toNat currentSlot.toNat := by
  rw [toNat_sub_of_le] <;> rw [toNat_wordMin]
  exact min_le_right _ _

theorem toNat_lpSpan (lp span : U64) :
    (asU128 lp * asU128 span).toNat = lp.toNat * span.toNat := by
  rw [toNat_mul_of_lt] <;> simp only [toNat_asU128]
  exact mul_lt_u128 _ _

theorem toNat_weightedSpan
    (existingLp existingSlot newLp currentSlot : U64) :
    let lo := wordMin existingSlot currentSlot
    (asU128 existingLp * asU128 (existingSlot - lo) +
        asU128 newLp * asU128 (currentSlot - lo)).toNat =
      (asU128 existingLp * asU128 (existingSlot - lo)).toNat +
        (asU128 newLp * asU128 (currentSlot - lo)).toNat := by
  intro lo
  rw [toNat_add_of_lt]
  rw [toNat_lpSpan, toNat_lpSpan, toNat_existingSpan, toNat_currentSpan]
  exact weightedSpan_lt_u128 existingLp existingSlot newLp currentSlot

theorem toNat_slotOffset (existingLp existingSlot newLp currentSlot : U64) :
    let lo := wordMin existingSlot currentSlot
    lo.toNat +
        ((asU128 existingLp * asU128 (existingSlot - lo) +
            asU128 newLp * asU128 (currentSlot - lo)) /
          (asU128 existingLp + asU128 newLp)).toNat =
      blendedSlot existingLp.toNat existingSlot.toNat newLp.toNat
        currentSlot.toNat := by
  intro lo
  unfold blendedSlot
  rw [BitVec.toNat_udiv, toNat_weightedSpan, toNat_lpSpan, toNat_lpSpan,
    toNat_existingSpan, toNat_currentSpan, toNat_totalLp, toNat_wordMin]

theorem blendedSlot_lt_u64
    (existingLp existingSlot newLp currentSlot : U64) :
    blendedSlot existingLp.toNat existingSlot.toNat newLp.toNat
      currentSlot.toNat < 2 ^ 64 := by
  have hmax := blendedSlot_le_max existingLp.toNat existingSlot.toNat
    newLp.toNat currentSlot.toNat
  have hexisting := existingSlot.isLt
  have hcurrent := currentSlot.isLt
  omega

/-- The blended slot is computed without overflow, truncation or saturation. -/
theorem toNat_blended (existingLp existingSlot newLp currentSlot : U64) :
    let lo := wordMin existingSlot currentSlot
    (saturatingAdd lo
      (asU64
        ((asU128 existingLp * asU128 (existingSlot - lo) +
            asU128 newLp * asU128 (currentSlot - lo)) /
          (asU128 existingLp + asU128 newLp)))).toNat =
      blendedSlot existingLp.toNat existingSlot.toNat newLp.toNat
        currentSlot.toNat := by
  have hoffset := toNat_slotOffset existingLp existingSlot newLp currentSlot
  have hlt := blendedSlot_lt_u64 existingLp existingSlot newLp currentSlot
  dsimp only at hoffset ⊢
  rw [toNat_saturatingAdd, toNat_asU64_of_lt (by omega), hoffset]
  omega

/-- The credit for age never exceeds the cooldown it is a part of. -/
theorem agedCredit_le (existingLp newLp cooldownSlots : ℕ) :
    cooldownSlots * existingLp / (existingLp + newLp) ≤ cooldownSlots := by
  apply Nat.div_le_of_le_mul
  rw [Nat.mul_comm]
  exact Nat.mul_le_mul_right _ (Nat.le_add_right _ _)

theorem toNat_agedCredit (existingLp newLp cooldownSlots : U64) :
    (asU128 cooldownSlots * asU128 existingLp /
        (asU128 existingLp + asU128 newLp)).toNat =
      cooldownSlots.toNat * existingLp.toNat /
        (existingLp.toNat + newLp.toNat) := by
  rw [BitVec.toNat_udiv, toNat_lpSpan, toNat_totalLp]

theorem toNat_agedCredit_lt (existingLp newLp cooldownSlots : U64) :
    (asU128 cooldownSlots * asU128 existingLp /
      (asU128 existingLp + asU128 newLp)).toNat < 2 ^ 64 := by
  rw [toNat_agedCredit]
  exact lt_of_le_of_lt (agedCredit_le _ _ _) cooldownSlots.isLt

/-- The clip of the aged credit does nothing. -/
theorem wordMin_agedCredit (existingLp newLp cooldownSlots : U64) :
    wordMin
        (asU128 cooldownSlots * asU128 existingLp /
          (asU128 existingLp + asU128 newLp)) (asU128 u64Max) =
      asU128 cooldownSlots * asU128 existingLp /
        (asU128 existingLp + asU128 newLp) := by
  have hlt := toNat_agedCredit_lt existingLp newLp cooldownSlots
  apply if_pos
  rw [toNat_asU128, toNat_u64Max]
  omega

/-- What the function computes when LP is added: the blended slot, lifted to
the proportional freshness floor. -/
theorem toNat_weightedDepositSlot
    (existingLp existingSlot newLp currentSlot cooldownSlots : U64)
    (hnew : 0 < newLp.toNat) :
    (weightedDepositSlot existingLp existingSlot newLp currentSlot
        cooldownSlots).toNat =
      max
        (blendedSlot existingLp.toNat existingSlot.toNat newLp.toNat
          currentSlot.toNat)
        (currentSlot.toNat -
          cooldownSlots.toNat * existingLp.toNat /
            (existingLp.toNat + newLp.toNat)) := by
  have hne : asU128 existingLp + asU128 newLp ≠ 0 := by
    rw [← toNat_pos, toNat_totalLp]
    omega
  have hcredit := toNat_agedCredit_lt existingLp newLp cooldownSlots
  unfold weightedDepositSlot
  simp only [if_neg hne, if_pos hnew]
  rw [toNat_wordMax, toNat_saturatingSub, wordMin_agedCredit,
    toNat_asU64_of_lt hcredit, toNat_agedCredit,
    toNat_blended existingLp existingSlot newLp currentSlot]

theorem weightedDepositSlot_le_current
    {existingLp existingSlot newLp currentSlot cooldownSlots : U64}
    (hnew : 0 < newLp.toNat)
    (hslot : existingSlot.toNat ≤ currentSlot.toNat) :
    (weightedDepositSlot existingLp existingSlot newLp currentSlot
      cooldownSlots).toNat ≤ currentSlot.toNat := by
  have hblended := blendedSlot_le_max existingLp.toNat existingSlot.toNat
    newLp.toNat currentSlot.toNat
  rw [max_eq_right hslot] at hblended
  rw [toNat_weightedDepositSlot _ _ _ _ _ hnew]
  exact max_le hblended (Nat.sub_le _ _)

/-- The average is at most `age` slots old exactly when the old LP does not
bring along more age than that. -/
theorem sub_blendedSlot_le_iff
    {existingLp existingSlot newLp currentSlot age : ℕ} (hnew : 0 < newLp)
    (hslot : existingSlot ≤ currentSlot) :
    currentSlot - blendedSlot existingLp existingSlot newLp currentSlot ≤
        age ↔
      existingLp * (currentSlot - existingSlot) ≤
        (existingLp + newLp) * age := by
  have hpositive : 0 < existingLp + newLp := Nat.add_pos_right _ hnew
  obtain ⟨elapsed, rfl⟩ := Nat.exists_eq_add_of_le hslot
  have hblended : blendedSlot existingLp existingSlot newLp
      (existingSlot + elapsed) =
        existingSlot + newLp * elapsed / (existingLp + newLp) := by
    unfold blendedSlot
    rw [min_eq_left hslot]
    simp
  have hiff : elapsed - age ≤ newLp * elapsed / (existingLp + newLp) ↔
      (elapsed - age) * (existingLp + newLp) ≤ newLp * elapsed :=
    Nat.le_div_iff_mul_le hpositive
  rw [hblended, Nat.add_sub_add_left, Nat.add_sub_cancel_left]
  rcases Nat.le_total elapsed age with hyoung | hold
  · refine iff_of_true ((Nat.sub_le _ _).trans hyoung) ?_
    exact Nat.mul_le_mul (Nat.le_add_right _ _) hyoung
  · obtain ⟨excess, rfl⟩ := Nat.exists_eq_add_of_le hold
    rw [Nat.add_sub_cancel_left] at hiff
    constructor
    · intro h
      have hexcess := hiff.mp (by omega)
      nlinarith
    · intro h
      have hexcess := hiff.mpr (by nlinarith)
      omega

/-- A deposit leaves a record at most `age` slots old exactly when the
average or the freshness floor does. -/
theorem sub_weightedDepositSlot_le_iff
    {existingLp existingSlot newLp currentSlot cooldownSlots : U64} {age : ℕ}
    (hnew : 0 < newLp.toNat)
    (hslot : existingSlot.toNat ≤ currentSlot.toNat) :
    currentSlot.toNat -
          (weightedDepositSlot existingLp existingSlot newLp currentSlot
            cooldownSlots).toNat ≤ age ↔
      existingLp.toNat * (currentSlot.toNat - existingSlot.toNat) ≤
          (existingLp.toNat + newLp.toNat) * age ∨
        cooldownSlots.toNat * existingLp.toNat /
          (existingLp.toNat + newLp.toNat) ≤ age := by
  rw [← sub_blendedSlot_le_iff hnew hslot,
    toNat_weightedDepositSlot _ _ _ _ _ hnew]
  omega

/-! ## The high-water-mark floor -/

def bpsDenominator : U128 := 10000

/-- `epochHighWaterTvl * hwmFloorBps / 10000`; `none` on overflow. -/
def hwmFloor (epochHighWaterTvl : U64) (hwmFloorBps : U16) : Option U64 := do
  let product ←
    checkedMul (asU128 epochHighWaterTvl) (hwmFloorBps.setWidth 128)
  let floor ← checkedDiv product bpsDenominator
  if (asU128 u64Max).toNat < floor.toNat then none else some (asU64 floor)

/-- Whether the value left after a withdrawal stays at or above the floor. -/
def hwmWithdrawalAllowed
    (postWithdrawalTvl epochHighWaterTvl : U64) (hwmFloorBps : U16) : Bool :=
  match hwmFloor epochHighWaterTvl hwmFloorBps with
  | some floor => decide (floor.toNat ≤ postWithdrawalTvl.toNat)
  | none => false

theorem hwmFloor_eq_some {mark : U64} {bps : U16} {floor : U64} :
    hwmFloor mark bps = some floor ↔
      floor.toNat = mark.toNat * bps.toNat / 10000 := by
  have hwiden : bps.setWidth 128 = asU128 (bps.setWidth 64) := by
    apply BitVec.eq_of_toNat_eq
    have := bps.isLt
    simp only [toNat_asU128, BitVec.toNat_setWidth]
    omega
  have hvalue : (bps.setWidth 64).toNat = bps.toNat := by
    have := bps.isLt
    rw [BitVec.toNat_setWidth]
    omega
  unfold hwmFloor
  rw [hwiden, mulDiv_narrow_eq_some, hvalue]
  simp [bpsDenominator]

theorem hwmWithdrawalAllowed_iff {post mark : U64} {bps : U16} :
    hwmWithdrawalAllowed post mark bps = true ↔
      mark.toNat * bps.toNat / 10000 ≤ post.toNat := by
  unfold hwmWithdrawalAllowed
  constructor
  · intro h
    split at h
    · next floor hfloor =>
        rw [← hwmFloor_eq_some.mp hfloor]
        simpa using h
    · cases h
  · intro h
    have hfit : mark.toNat * bps.toNat / 10000 < 2 ^ 64 :=
      lt_of_le_of_lt h post.isLt
    have hfloor :
        hwmFloor mark bps =
          some (BitVec.ofNat 64 (mark.toNat * bps.toNat / 10000)) := by
      rw [hwmFloor_eq_some, BitVec.toNat_ofNat, Nat.mod_eq_of_lt hfit]
    rw [hfloor]
    simp only [BitVec.toNat_ofNat, decide_eq_true_eq,
      Nat.mod_eq_of_lt hfit]
    exact h

end PercolatorVault
