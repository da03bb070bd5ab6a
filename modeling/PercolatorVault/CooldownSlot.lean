import PercolatorVault.WithdrawSimulation

/-!
# The blended deposit slot over its full range

`weightedDepositSlot` wraps, truncates and clamps like the machine does.
`checkedWeightedDepositSlot` is the same computation with every such operation
replaced by one that fails instead.  The two agree on all inputs, so the slot
can be computed with natural numbers, and the lock it implies is exact.
-/

namespace PercolatorVault

open CheckedArithmetic
open FallibleSteps

/-- A narrowing that fails instead of truncating. -/
def checkedAsU64 (x : U128) : Option U64 :=
  if x.toNat < 2 ^ 64 then some (asU64 x) else none

/-- The blended slot, failing on overflow, underflow, truncation and
saturation.  Only the subtraction of the aged credit is meant to saturate. -/
def checkedWeightedDepositSlot
    (existingLp existingSlot newLp currentSlot cooldownSlots : U64) :
    Option U64 := do
  let totalLp ← checkedAdd (asU128 existingLp) (asU128 newLp)
  if totalLp = 0 then
    some currentSlot
  else
    let lo := wordMin existingSlot currentSlot
    let existingSpan ← checkedSub existingSlot lo
    let currentSpan ← checkedSub currentSlot lo
    let existingPart ← checkedMul (asU128 existingLp) (asU128 existingSpan)
    let newPart ← checkedMul (asU128 newLp) (asU128 currentSpan)
    let weightedSpan ← checkedAdd existingPart newPart
    let offset ← checkedDiv weightedSpan totalLp
    let narrowOffset ← checkedAsU64 offset
    let blended ← checkedAdd lo narrowOffset
    if 0 < newLp.toNat then
      let credit ← checkedMul (asU128 cooldownSlots) (asU128 existingLp)
      let agedCreditU128 ← checkedDiv credit totalLp
      let agedCredit ← checkedAsU64 agedCreditU128
      let floor := saturatingSub currentSlot agedCredit
      some (wordMax blended floor)
    else
      some blended

/-! ## Nothing overflows -/

theorem checkedMul_asU128 (x y : U64) :
    checkedMul (asU128 x) (asU128 y) = some (asU128 x * asU128 y) := by
  apply if_pos
  rw [toNat_asU128, toNat_asU128]
  exact mul_lt_u128 x y

theorem checkedAdd_asU128 (x y : U64) :
    checkedAdd (asU128 x) (asU128 y) = some (asU128 x + asU128 y) := by
  apply if_pos
  simp only [toNat_asU128]
  omega

theorem checkedWeightedSpan
    (existingLp existingSlot newLp currentSlot : U64) :
    let lo := wordMin existingSlot currentSlot
    checkedAdd (asU128 existingLp * asU128 (existingSlot - lo))
        (asU128 newLp * asU128 (currentSlot - lo)) =
      some (asU128 existingLp * asU128 (existingSlot - lo) +
        asU128 newLp * asU128 (currentSlot - lo)) := by
  intro lo
  apply if_pos
  rw [toNat_lpSpan, toNat_lpSpan, toNat_existingSpan, toNat_currentSpan]
  exact weightedSpan_lt_u128 existingLp existingSlot newLp currentSlot

/-- The failing operations never fail, so the wrapping, truncating and
clamping ones never wrap, truncate or clamp. -/
theorem checkedWeightedDepositSlot_eq
    (existingLp existingSlot newLp currentSlot cooldownSlots : U64) :
    checkedWeightedDepositSlot existingLp existingSlot newLp currentSlot
        cooldownSlots =
      some (weightedDepositSlot existingLp existingSlot newLp currentSlot
        cooldownSlots) := by
  have hoffset := toNat_slotOffset existingLp existingSlot newLp currentSlot
  have hlt := blendedSlot_lt_u64 existingLp existingSlot newLp currentSlot
  have hspan := checkedWeightedSpan existingLp existingSlot newLp currentSlot
  have hcredit := toNat_agedCredit_lt existingLp newLp cooldownSlots
  have hclip := wordMin_agedCredit existingLp newLp cooldownSlots
  dsimp only at hoffset hspan
  unfold checkedWeightedDepositSlot weightedDepositSlot
  rw [checkedAdd_asU128, Option.bind_eq_bind, Option.bind_some]
  by_cases hzero : asU128 existingLp + asU128 newLp = 0
  · rw [if_pos hzero, if_pos hzero]
  · have hexisting : checkedSub existingSlot (wordMin existingSlot currentSlot)
        = some (existingSlot - wordMin existingSlot currentSlot) := by
      apply if_pos
      rw [toNat_wordMin]
      exact min_le_left _ _
    have hcurrent : checkedSub currentSlot (wordMin existingSlot currentSlot)
        = some (currentSlot - wordMin existingSlot currentSlot) := by
      apply if_pos
      rw [toNat_wordMin]
      exact min_le_right _ _
    have hdiv (x : U128) :
        checkedDiv x (asU128 existingLp + asU128 newLp) =
          some (x / (asU128 existingLp + asU128 newLp)) := if_neg hzero
    have hnarrow (x : U128) (hx : x.toNat < 2 ^ 64) :
        checkedAsU64 x = some (asU64 x) := if_pos hx
    have hoffsetLt := hoffset.trans_lt hlt
    have hblended (offset : U128)
        (hsum : (wordMin existingSlot currentSlot).toNat + offset.toNat <
          2 ^ 64) :
        checkedAdd (wordMin existingSlot currentSlot) (asU64 offset) =
          some (saturatingAdd (wordMin existingSlot currentSlot)
            (asU64 offset)) := by
      unfold checkedAdd saturatingAdd
      rw [toNat_asU64_of_lt (by omega), if_pos hsum, if_pos hsum]
    rw [if_neg hzero, if_neg hzero]
    simp only [hexisting, hcurrent, checkedMul_asU128, hspan, hdiv,
      hnarrow _ (Nat.lt_of_le_of_lt (Nat.le_add_left _ _) hoffsetLt),
      hblended _ hoffsetLt, hnarrow _ hcredit, hclip, Option.bind_eq_bind,
      Option.bind_some]
    split <;> rfl

/-! ## The slot as a number -/

theorem le_blendedSlot (existingLp existingSlot newLp currentSlot : ℕ) :
    min existingSlot currentSlot ≤
      blendedSlot existingLp existingSlot newLp currentSlot :=
  Nat.le_add_right _ _

/-- Without new LP the slot is the blended one. -/
theorem toNat_weightedDepositSlot_of_none
    (existingLp existingSlot newLp currentSlot cooldownSlots : U64)
    (hnew : newLp.toNat = 0) (hheld : 0 < existingLp.toNat) :
    (weightedDepositSlot existingLp existingSlot newLp currentSlot
        cooldownSlots).toNat =
      blendedSlot existingLp.toNat existingSlot.toNat newLp.toNat
        currentSlot.toNat := by
  have hne : asU128 existingLp + asU128 newLp ≠ 0 := by
    rw [← toNat_pos, toNat_totalLp]
    omega
  have hnone : ¬ 0 < newLp.toNat := by omega
  unfold weightedDepositSlot
  simp only [if_neg hne, if_neg hnone]
  exact toNat_blended existingLp existingSlot newLp currentSlot

/-- The slot never leaves the interval between the two slots it blends. -/
theorem weightedDepositSlot_between
    (existingLp existingSlot newLp currentSlot cooldownSlots : U64)
    (htotal : 0 < existingLp.toNat + newLp.toNat) :
    min existingSlot.toNat currentSlot.toNat ≤
        (weightedDepositSlot existingLp existingSlot newLp currentSlot
          cooldownSlots).toNat ∧
      (weightedDepositSlot existingLp existingSlot newLp currentSlot
          cooldownSlots).toNat ≤
        max existingSlot.toNat currentSlot.toNat := by
  have hlow := le_blendedSlot existingLp.toNat existingSlot.toNat newLp.toNat
    currentSlot.toNat
  have hhigh := blendedSlot_le_max existingLp.toNat existingSlot.toNat
    newLp.toNat currentSlot.toNat
  rcases Nat.eq_zero_or_pos newLp.toNat with hnone | hnew
  · rw [toNat_weightedDepositSlot_of_none _ _ _ _ _ hnone (by omega)]
    exact ⟨hlow, hhigh⟩
  · rw [toNat_weightedDepositSlot _ _ _ _ _ hnew]
    exact ⟨hlow.trans (le_max_left _ _),
      max_le hhigh ((Nat.sub_le _ _).trans (le_max_right _ _))⟩

/-- Two parts of a whole number of units: one rounded down and the other
rounded up make the whole. -/
theorem div_add_ceilDiv {whole left right total : ℕ} (htotal : 0 < total)
    (hsum : left + right = total * whole) :
    left / total + right ⌈/⌉ total = whole := by
  have hfloor := Nat.mul_div_le left total
  have hnext := Nat.lt_mul_div_succ left htotal
  have hle : left / total ≤ whole :=
    Nat.div_le_of_le_mul (by omega)
  obtain ⟨rest, rfl⟩ := Nat.exists_eq_add_of_le hle
  rw [Nat.mul_add] at hsum
  have hupper : right ⌈/⌉ total ≤ rest := by
    rw [ceilDiv_le_iff_le_mul htotal]
    omega
  have hlower : rest ≤ right ⌈/⌉ total := by
    by_contra hlt
    have hsmall : right ⌈/⌉ total ≤ rest - 1 := by omega
    rw [ceilDiv_le_iff_le_mul htotal, Nat.mul_sub] at hsmall
    have hunit : total * 1 ≤ total * rest :=
      Nat.mul_le_mul_left _ (by omega)
    rw [Nat.mul_add] at hnext
    omega
  rw [le_antisymm hupper hlower]

/-- With new LP on an older record, the slot lies behind the current one by
the average age or by the credit for age, whichever is less. -/
theorem toNat_weightedDepositSlot_eq_sub
    (existingLp existingSlot newLp currentSlot cooldownSlots : U64)
    (hnew : 0 < newLp.toNat)
    (hslot : existingSlot.toNat ≤ currentSlot.toNat) :
    (weightedDepositSlot existingLp existingSlot newLp currentSlot
        cooldownSlots).toNat =
      currentSlot.toNat -
        min
          (existingLp.toNat * (currentSlot.toNat - existingSlot.toNat) ⌈/⌉
            (existingLp.toNat + newLp.toNat))
          (min currentSlot.toNat
            (existingLp.toNat * cooldownSlots.toNat /
              (existingLp.toNat + newLp.toNat))) := by
  have hparts := @div_add_ceilDiv (currentSlot.toNat - existingSlot.toNat)
    (newLp.toNat * (currentSlot.toNat - existingSlot.toNat))
    (existingLp.toNat * (currentSlot.toNat - existingSlot.toNat))
    (existingLp.toNat + newLp.toNat) (by omega) (by ring)
  have hblended : blendedSlot existingLp.toNat existingSlot.toNat newLp.toNat
      currentSlot.toNat =
        existingSlot.toNat +
          newLp.toNat * (currentSlot.toNat - existingSlot.toNat) /
            (existingLp.toNat + newLp.toNat) := by
    unfold blendedSlot
    rw [min_eq_left hslot]
    simp
  rw [toNat_weightedDepositSlot _ _ _ _ _ hnew, hblended,
    Nat.mul_comm cooldownSlots.toNat]
  omega

/-- A record that has aged out gets the credit in full. -/
theorem toNat_weightedDepositSlot_of_aged
    (existingLp existingSlot newLp currentSlot cooldownSlots : U64)
    (hnew : 0 < newLp.toNat)
    (haged : existingSlot.toNat + cooldownSlots.toNat ≤ currentSlot.toNat) :
    (weightedDepositSlot existingLp existingSlot newLp currentSlot
        cooldownSlots).toNat =
      currentSlot.toNat -
        cooldownSlots.toNat * existingLp.toNat /
          (existingLp.toNat + newLp.toNat) := by
  have htotal : 0 < existingLp.toNat + newLp.toNat := by omega
  have hcredit := agedCredit_le existingLp.toNat newLp.toNat
    cooldownSlots.toNat
  have hage : cooldownSlots.toNat * existingLp.toNat /
        (existingLp.toNat + newLp.toNat) ≤
      existingLp.toNat * (currentSlot.toNat - existingSlot.toNat) ⌈/⌉
        (existingLp.toNat + newLp.toNat) := by
    have hle : cooldownSlots.toNat * existingLp.toNat ≤
        existingLp.toNat * (currentSlot.toNat - existingSlot.toNat) := by
      rw [Nat.mul_comm]
      exact Nat.mul_le_mul_left _ (by omega)
    refine (Nat.div_le_div_right hle).trans ?_
    rw [← Nat.floorDiv_eq_div]
    exact floorDiv_le_ceilDiv
  rw [toNat_weightedDepositSlot_eq_sub _ _ _ _ _ hnew (by omega),
    Nat.mul_comm existingLp.toNat cooldownSlots.toNat]
  omega

/-- Its next unlock waits for the new LP's part of the cooldown. -/
theorem unlock_weightedDepositSlot_of_aged
    (existingLp existingSlot newLp currentSlot cooldownSlots : U64)
    (hnew : 0 < newLp.toNat)
    (haged : existingSlot.toNat + cooldownSlots.toNat ≤ currentSlot.toNat)
    (hfits : currentSlot.toNat + cooldownSlots.toNat < 2 ^ 64) :
    (saturatingAdd
        (weightedDepositSlot existingLp existingSlot newLp currentSlot
          cooldownSlots) cooldownSlots).toNat =
      currentSlot.toNat +
        cooldownSlots.toNat * newLp.toNat ⌈/⌉
          (existingLp.toNat + newLp.toNat) := by
  have hparts := @div_add_ceilDiv cooldownSlots.toNat
    (cooldownSlots.toNat * existingLp.toNat)
    (cooldownSlots.toNat * newLp.toNat)
    (existingLp.toNat + newLp.toNat) (by omega) (by ring)
  rw [toNat_saturatingAdd,
    toNat_weightedDepositSlot_of_aged _ _ _ _ _ hnew haged]
  generalize cooldownSlots.toNat * existingLp.toNat /
    (existingLp.toNat + newLp.toNat) = credit at hparts ⊢
  generalize cooldownSlots.toNat * newLp.toNat ⌈/⌉
    (existingLp.toNat + newLp.toNat) = wait at hparts ⊢
  omega

/-! ## The withdrawal gate -/

/-- Whatever the record held, its gate is closed in the slot of a deposit. -/
theorem lt_unlock_weightedDepositSlot
    (existingLp existingSlot newLp currentSlot cooldownSlots : U64)
    (hnew : 0 < newLp.toNat)
    (hcooldown : 0 < cooldownSlots.toNat)
    (hslot : currentSlot.toNat < 2 ^ 64 - 1) :
    currentSlot.toNat <
      (saturatingAdd
        (weightedDepositSlot existingLp existingSlot newLp currentSlot
          cooldownSlots) cooldownSlots).toNat := by
  have hcredit : cooldownSlots.toNat * existingLp.toNat /
      (existingLp.toNat + newLp.toNat) < cooldownSlots.toNat := by
    rw [Nat.div_lt_iff_lt_mul (by omega)]
    exact Nat.mul_lt_mul_of_pos_left (by omega) hcooldown
  rw [toNat_saturatingAdd, toNat_weightedDepositSlot _ _ _ _ _ hnew]
  omega

section Gate

variable {Pubkey : Type} [DecidableEq Pubkey] [Inhabited Pubkey]
  {rt : Runtime Pubkey} {accounts : List (AccountInfo Pubkey)}
  {lpAmount : U64} {before after : Bank Pubkey}

/-- A successful withdrawal passed the gate of the record it was made from. -/
theorem processWithdraw_unlocked
    (h : processWithdraw rt accounts lpAmount before = .ok after)
    {a : WithdrawAccounts Pubkey} (ha : WithdrawAccounts.next accounts = .ok a)
    {pool : StakePool Pubkey} (hpool : loadPool before a.poolPda = .ok pool)
    {record : StakeDeposit Pubkey}
    (hrecord : loadDeposit before a.depositPda = .ok record) :
    (saturatingAdd record.lastDepositSlot pool.cooldownSlots).toNat ≤
      before.clock.slot.toNat := by
  simp only [processWithdraw, verifyTokenProgram, Clock.fromAccountInfo,
    bind_eq_ok, require_eq_ok, okOr_eq_ok, exists_const, Except.ok.injEq] at h
  obtain ⟨-, a', ha', -, pool', hpool', -, -, -, -, -, -, -, -, clock,
    ⟨-, rfl⟩, record', hrecord', -, hunlocked, -⟩ := h
  cases ha.symm.trans ha'
  cases hpool.symm.trans hpool'
  cases hrecord.symm.trans hrecord'
  exact hunlocked

/-- The full-range specification of the blended slot. -/
theorem weightedDepositSlot_fullRange
    (existingLp existingSlot newLp currentSlot cooldownSlots : U64)
    (htotal : 0 < existingLp.toNat + newLp.toNat) :
    let slot := weightedDepositSlot existingLp existingSlot newLp currentSlot
      cooldownSlots
    let total := existingLp.toNat + newLp.toNat
    checkedWeightedDepositSlot existingLp existingSlot newLp currentSlot
        cooldownSlots = some slot ∧
      min existingSlot.toNat currentSlot.toNat ≤ slot.toNat ∧
      slot.toNat ≤ max existingSlot.toNat currentSlot.toNat ∧
      (0 < newLp.toNat → existingSlot.toNat ≤ currentSlot.toNat →
        slot.toNat = currentSlot.toNat -
          min
            (existingLp.toNat *
              (currentSlot.toNat - existingSlot.toNat) ⌈/⌉ total)
            (min currentSlot.toNat
              (existingLp.toNat * cooldownSlots.toNat / total))) ∧
      (0 < newLp.toNat →
        existingSlot.toNat + cooldownSlots.toNat ≤ currentSlot.toNat →
        slot.toNat = currentSlot.toNat -
            cooldownSlots.toNat * existingLp.toNat / total ∧
          (currentSlot.toNat + cooldownSlots.toNat < 2 ^ 64 →
            (saturatingAdd slot cooldownSlots).toNat =
              currentSlot.toNat +
                cooldownSlots.toNat * newLp.toNat ⌈/⌉ total)) ∧
      (0 < newLp.toNat → existingSlot.toNat ≤ currentSlot.toNat →
        0 < cooldownSlots.toNat → currentSlot.toNat < 2 ^ 64 - 1 →
        ∀ (rt : Runtime Pubkey) (accounts : List (AccountInfo Pubkey))
          (lpAmount : U64) (before after : Bank Pubkey)
          (a : WithdrawAccounts Pubkey) (pool : StakePool Pubkey)
          (record : StakeDeposit Pubkey),
        WithdrawAccounts.next accounts = .ok a →
        loadPool before a.poolPda = .ok pool →
        pool.cooldownSlots = cooldownSlots →
        loadDeposit before a.depositPda = .ok record →
        record.lastDepositSlot = slot →
        before.clock.slot.toNat ≤ currentSlot.toNat →
        processWithdraw rt accounts lpAmount before ≠ .ok after) := by
  intro slot total
  obtain ⟨hlow, hhigh⟩ := weightedDepositSlot_between existingLp existingSlot
    newLp currentSlot cooldownSlots htotal
  refine ⟨checkedWeightedDepositSlot_eq _ _ _ _ _, hlow, hhigh, ?_, ?_, ?_⟩
  · exact toNat_weightedDepositSlot_eq_sub _ _ _ _ _
  · intro hnew haged
    exact ⟨toNat_weightedDepositSlot_of_aged _ _ _ _ _ hnew haged,
      unlock_weightedDepositSlot_of_aged _ _ _ _ _ hnew haged⟩
  · intro hnew _ hcooldown hslot rt accounts lpAmount before after a pool
      record ha hpool hcooldownEq hrecord hrecordSlot hclock hwithdraw
    have hlocked := lt_unlock_weightedDepositSlot existingLp existingSlot
      newLp currentSlot cooldownSlots hnew hcooldown hslot
    have hunlocked := processWithdraw_unlocked hwithdraw ha hpool hrecord
    rw [hcooldownEq, hrecordSlot] at hunlocked
    exact absurd (hunlocked.trans hclock) (Nat.not_le.mpr hlocked)

end Gate

/-- A million LP of age 100000 and nine million new LP: the cooldown of 10000
slots starts again for nine tenths. -/
theorem weightedDepositSlot_mostlyFresh :
    (weightedDepositSlot 1000000 0 9000000 100000 10000).toNat =
      (100000 : U64).toNat -
        (10000 : U64).toNat * (1000000 : U64).toNat /
          ((1000000 : U64).toNat + (9000000 : U64).toNat) :=
  ((@weightedDepositSlot_fullRange ℕ _ _ 1000000 0 9000000 100000 10000
    (by decide)).2.2.2.2.1 (by decide) (by decide)).1

end PercolatorVault
