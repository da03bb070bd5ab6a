import PercolatorVault.PoolSegments

/-!
# Deposits in several pieces

The freshness floor counts all LP already in the record as old, also LP minted
in the same slot, and the average slot is rounded down.  So depositing in
pieces can leave a shorter lock than depositing at once.  The lock keeps the
guarantee of a single deposit exactly when the last piece does not let the
record look older than the LP from before the first piece allows.
-/

namespace PercolatorVault

open CheckedArithmetic

/-- The wait left covers the fresh LP exactly when the age of the record is
covered by the old LP. -/
theorem lock_covers_iff {newSlot slot cooldown old fresh : ℕ}
    (hslot : newSlot ≤ slot) (hlocked : slot - newSlot ≤ cooldown) :
    cooldown * fresh ≤ (newSlot + cooldown - slot) * (old + fresh) ↔
      (slot - newSlot) * (old + fresh) ≤ cooldown * old := by
  obtain ⟨age, rfl⟩ := Nat.exists_eq_add_of_le hslot
  rw [Nat.add_sub_cancel_left] at hlocked ⊢
  obtain ⟨wait, rfl⟩ := Nat.exists_eq_add_of_le hlocked
  have hwait : newSlot + (age + wait) - (newSlot + age) = wait := by omega
  rw [hwait]
  constructor <;> intro h <;> nlinarith

/-- The last of several pieces that mint `pieces` LP in all, put on top of a
record that held `first`. -/
theorem StakeDeposit.lock_covers {Pubkey : Type}
    {first last final : StakeDeposit Pubkey} {lp slot cooldown : U64}
    {minted pieces : ℕ}
    (hlast : last.lpAmount.toNat = first.lpAmount.toNat + minted)
    (hpieces : pieces = minted + lp.toNat) (hpositive : 0 < lp.toNat)
    (hslot : last.lastDepositSlot.toNat ≤ slot.toNat)
    (hblend : final.lastDepositSlot = weightedDepositSlot last.lpAmount
      last.lastDepositSlot lp slot cooldown) :
    slot.toNat ≤ final.lastDepositSlot.toNat + cooldown.toNat ∧
      (cooldown.toNat * pieces ≤
          (final.lastDepositSlot.toNat + cooldown.toNat - slot.toNat) *
            (first.lpAmount.toNat + pieces) ↔
        last.lpAmount.toNat * (slot.toNat - last.lastDepositSlot.toNat) ≤
            (first.lpAmount.toNat + pieces) *
              (cooldown.toNat * first.lpAmount.toNat /
                (first.lpAmount.toNat + pieces)) ∨
          cooldown.toNat * last.lpAmount.toNat /
              (first.lpAmount.toNat + pieces) ≤
            cooldown.toNat * first.lpAmount.toNat /
              (first.lpAmount.toNat + pieces)) := by
  have htotal : last.lpAmount.toNat + lp.toNat =
      first.lpAmount.toNat + pieces := by omega
  have hle := @weightedDepositSlot_le_current last.lpAmount
    last.lastDepositSlot lp slot cooldown hpositive hslot
  have hage (age : ℕ) := @sub_weightedDepositSlot_le_iff last.lpAmount
    last.lastDepositSlot lp slot cooldown age hpositive hslot
  rw [htotal] at hage
  rw [← hblend] at hage hle
  have hcredit : cooldown.toNat * last.lpAmount.toNat /
      (first.lpAmount.toNat + pieces) ≤ cooldown.toNat := by
    apply Nat.div_le_of_le_mul
    rw [Nat.mul_comm]
    exact Nat.mul_le_mul_right _ (by omega)
  have hlocked := (hage cooldown.toNat).mpr (Or.inr hcredit)
  refine ⟨by omega, ?_⟩
  rw [← hage, lock_covers_iff hle hlocked]
  exact (Nat.le_div_iff_mul_le (by omega)).symm

section Pieces

variable {Pubkey : Type} [DecidableEq Pubkey] [Inhabited Pubkey]
  {rt : Runtime Pubkey} {key user : Pubkey} {slot cooldown lp : U64}
  {start before after : Bank Pubkey} {minted : List U64}

/-- A deposit of `user` in `slot` that mints `lp`. -/
inductive DepositPiece (rt : Runtime Pubkey) (key user : Pubkey)
    (slot cooldown : U64) (before : Bank Pubkey) (lp : U64)
    (after : Bank Pubkey) : Prop
  | deposit {event : Event Pubkey} {amount : U64}
      {pool pool' : StakePool Pubkey}
      (hstep : Step rt before event after)
      (hevent : event.seenBy key = .deposit user amount)
      (hslot : before.clock.slot = slot)
      (hpool : rt.PoolAt before key pool)
      (hcooldown : pool.cooldownSlots = cooldown)
      (hpool' : rt.PoolAt after key pool')
      (hminted : pool'.totalLpSupply.toNat =
        pool.totalLpSupply.toNat + lp.toNat)

/-- Successive deposits of `user`, all in `slot`; anything but deposits and
withdrawals of that user may happen in between. -/
inductive DepositSeries (rt : Runtime Pubkey) (key user : Pubkey)
    (slot cooldown : U64) (start : Bank Pubkey) :
    List U64 → Bank Pubkey → Prop
  | start : DepositSeries rt key user slot cooldown start [] start
  | deposit {minted : List U64} {lp : U64} {before after : Bank Pubkey}
      (hseries : DepositSeries rt key user slot cooldown start minted before)
      (hpiece : DepositPiece rt key user slot cooldown before lp after) :
      DepositSeries rt key user slot cooldown start (minted ++ [lp]) after
  | other {minted : List U64} {event : Event Pubkey}
      {before after : Bank Pubkey}
      (hseries : DepositSeries rt key user slot cooldown start minted before)
      (hstep : Step rt before event after)
      (hother : (event.seenBy key).user? ≠ some user) :
      DepositSeries rt key user slot cooldown start minted after

def mintedTotal (minted : List U64) : ℕ :=
  (minted.map BitVec.toNat).sum

@[simp] theorem mintedTotal_append (minted : List U64) (lp : U64) :
    mintedTotal (minted ++ [lp]) = mintedTotal minted + lp.toNat := by
  simp [mintedTotal]

/-- What a piece does to the record of its user. -/
theorem DepositPiece.credited
    (h : DepositPiece rt key user slot cooldown before lp after)
    (hbefore : Sound rt.toDeployment before) {view : PoolView Pubkey}
    (hview : Shows rt.toDeployment before key view) :
    0 < lp.toNat ∧
      (storedRecord rt.toDeployment after key user).lpAmount.toNat =
        (storedRecord rt.toDeployment before key user).lpAmount.toNat +
          lp.toNat ∧
      (storedRecord rt.toDeployment after key user).lastDepositSlot =
        weightedDepositSlot
          (storedRecord rt.toDeployment before key user).lpAmount
          (storedRecord rt.toDeployment before key user).lastDepositSlot
          lp slot cooldown ∧
      ∃ view', Shows rt.toDeployment after key view' := by
  obtain ⟨hstep, hevent, hslot, hpool, hcooldown, hpool', hminted⟩ := h
  obtain ⟨middle, view', hpoolStep, hdrift, hview', -⟩ :=
    hstep.poolStep hbefore hview
  rw [hevent] at hpoolStep
  obtain ⟨lp', record, hpositive, hrecord, hsupply, hlp, hblend⟩ :=
    hpoolStep.deposit_record
  cases hview.pool.unique hpool
  cases hview'.pool.unique hpool'
  rw [hdrift.pool] at hminted
  have hsame : lp' = lp := BitVec.eq_of_toNat_eq (by omega)
  subst hsame
  rw [hview'.storedRecord_eq, hview.storedRecord_eq, hdrift.records, hrecord]
  rw [hslot, hcooldown] at hblend
  exact ⟨hpositive, hlp, hblend, view', hview'⟩

/-- After any number of pieces the record holds what they minted, and its
slot is not ahead of theirs. -/
theorem DepositSeries.credited
    (hseries : DepositSeries rt key user slot cooldown start minted before)
    (hstart : Sound rt.toDeployment start) {view : PoolView Pubkey}
    (hview : Shows rt.toDeployment start key view)
    (haged : (storedRecord rt.toDeployment start key
      user).lastDepositSlot.toNat ≤ slot.toNat) :
    Sound rt.toDeployment before ∧
      (∃ view', Shows rt.toDeployment before key view') ∧
      (storedRecord rt.toDeployment before key user).lpAmount.toNat =
        (storedRecord rt.toDeployment start key user).lpAmount.toNat +
          mintedTotal minted ∧
      (storedRecord rt.toDeployment before key
        user).lastDepositSlot.toNat ≤ slot.toNat := by
  induction hseries with
  | start => exact ⟨hstart, ⟨view, hview⟩, rfl, haged⟩
  | deposit hseries hpiece ih =>
      obtain ⟨hsound, ⟨view', hview'⟩, htotal, hslot⟩ := ih
      obtain ⟨hpositive, hlp, hblend, hshows⟩ :=
        hpiece.credited hsound hview'
      obtain ⟨hstep, -⟩ := hpiece
      refine ⟨(hstep.simulates hsound).sound, hshows, ?_, ?_⟩
      · rw [hlp, htotal, mintedTotal_append, Nat.add_assoc]
      · rw [hblend]
        exact weightedDepositSlot_le_current hpositive hslot
  | other hseries hstep hother ih =>
      obtain ⟨hsound, ⟨view', hview'⟩, htotal, hslot⟩ := ih
      obtain ⟨middle, view'', hpoolStep, hdrift, hview'', -⟩ :=
        hstep.poolStep hsound hview'
      have hkept := hpoolStep.records_eq hother
      rw [hview'.storedRecord_eq, ← hkept, ← hdrift.records,
        ← hview''.storedRecord_eq] at htotal hslot
      exact ⟨(hstep.simulates hsound).sound, ⟨view'', hview''⟩, htotal,
        hslot⟩

end Pieces

namespace Reference

/-- Alice's deposit is 4000 slots old. -/
def agedMarket (seed cooldown : U64) : List (Transaction Address) :=
  [initPool cooldown, openLpAccount alice, deposit alice seed,
    waitUntil 5000 1]

theorem depositPiece_of_accepts {bank : Bank Address}
    {slot cooldown amount lp : U64} (supply : ℕ)
    (haccepts : accepts bank (deposit alice amount) = true)
    (hslot : bank.clock.slot = slot)
    (hread : (poolIn bank).map (fun pool =>
      (pool.cooldownSlots, pool.totalLpSupply.toNat)) =
        some (cooldown, supply))
    (hread' : (poolIn ((deposit alice amount).perform runtime bank)).map
      (fun pool => pool.totalLpSupply.toNat) = some (supply + lp.toNat)) :
    DepositPiece runtime poolKey alice.key slot cooldown bank lp
      ((deposit alice amount).perform runtime bank) := by
  obtain ⟨pool, hpool, hnumbers⟩ := exists_poolAt hread
  obtain ⟨pool', hpool', hsupply⟩ := exists_poolAt hread'
  simp only [Prod.mk.injEq] at hnumbers
  refine .deposit (step_of_accepts haccepts) rfl hslot hpool hnumbers.1
    hpool' ?_
  rw [hsupply, hnumbers.2]

end Reference

end PercolatorVault
