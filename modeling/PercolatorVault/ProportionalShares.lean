import Mathlib.Algebra.Order.Floor.Div
import Mathlib.Tactic

/-!
# Pots of value owned through proportional shares

A pot holds some value and has issued some shares.  Whoever gives up shares
receives the rounded-down proportion of the value, and whoever adds value
receives the rounded-down proportion of the shares.  This file compares two
pots by the value behind one share, without division: `PriceLe` is the
cross-multiplied order.  All quantities are natural numbers, so the lemmas
apply to any accounting that keeps such a pair.
-/

namespace ProportionalShares

structure Pot where
  value : ℕ
  supply : ℕ
deriving DecidableEq

/-- What giving up `shares` shares pays, rounded down. -/
def Pot.redeem (pot : Pot) (shares : ℕ) : ℕ :=
  shares * pot.value / pot.supply

/-- How many shares adding `amount` of value buys, rounded down. -/
def Pot.mint (pot : Pot) (amount : ℕ) : ℕ :=
  amount * pot.supply / pot.value

/-- The value behind one share of `before` is at most that of `after`. -/
def PriceLe (before after : Pot) : Prop :=
  before.value * after.supply ≤ after.value * before.supply

theorem PriceLe.refl (pot : Pot) : PriceLe pot pot :=
  le_refl _

theorem PriceLe.trans {first second third : Pot}
    (hsupply : 0 < second.supply)
    (hleft : PriceLe first second) (hright : PriceLe second third) :
    PriceLe first third := by
  unfold PriceLe at *
  refine Nat.le_of_mul_le_mul_right ?_ hsupply
  calc
    first.value * third.supply * second.supply =
        first.value * second.supply * third.supply := by ring
    _ ≤ second.value * first.supply * third.supply :=
      Nat.mul_le_mul_right _ hleft
    _ = second.value * third.supply * first.supply := by ring
    _ ≤ third.value * second.supply * first.supply :=
      Nat.mul_le_mul_right _ hright
    _ = third.value * first.supply * second.supply := by ring

/-! ## Redemption -/

theorem Pot.redeem_mul_le (pot : Pot) (shares : ℕ) :
    pot.redeem shares * pot.supply ≤ shares * pot.value :=
  Nat.div_mul_le_self _ _

theorem Pot.lt_redeem_succ_mul (pot : Pot) (shares : ℕ)
    (hsupply : 0 < pot.supply) :
    shares * pot.value < (pot.redeem shares + 1) * pot.supply := by
  rw [Nat.mul_comm (_ + 1)]
  exact Nat.lt_mul_div_succ _ hsupply

theorem Pot.redeem_le_value (pot : Pot) {shares : ℕ}
    (hshares : shares ≤ pot.supply) :
    pot.redeem shares ≤ pot.value := by
  apply Nat.div_le_of_le_mul
  exact Nat.mul_le_mul_right _ hshares

@[simp] theorem Pot.redeem_supply (pot : Pot) (hsupply : 0 < pot.supply) :
    pot.redeem pot.supply = pot.value := by
  simp [Pot.redeem, hsupply]

/-- Burning fewer shares than were issued leaves part of a positive value. -/
theorem Pot.redeem_lt_value (pot : Pot) {shares : ℕ}
    (hvalue : 0 < pot.value) (hshares : shares < pot.supply) :
    pot.redeem shares < pot.value := by
  apply Nat.div_lt_of_lt_mul
  exact Nat.mul_lt_mul_of_pos_right hshares hvalue

/-- Only all shares together empty a positive pot. -/
theorem Pot.redeem_eq_value_iff (pot : Pot) {shares : ℕ}
    (hvalue : 0 < pot.value) (hsupply : 0 < pot.supply)
    (hshares : shares ≤ pot.supply) :
    pot.redeem shares = pot.value ↔ shares = pot.supply := by
  constructor
  · intro hwhole
    by_contra hne
    have hlt := pot.redeem_lt_value hvalue (lt_of_le_of_ne hshares hne)
    omega
  · rintro rfl
    exact pot.redeem_supply hsupply

theorem PriceLe.redeem_mono {before after : Pot}
    (hprice : PriceLe before after)
    (hbefore : 0 < before.supply) (hafter : 0 < after.supply)
    (shares : ℕ) : before.redeem shares ≤ after.redeem shares := by
  unfold Pot.redeem
  rw [Nat.le_div_iff_mul_le hafter]
  refine Nat.le_of_mul_le_mul_right ?_ hbefore
  calc
    shares * before.value / before.supply * after.supply * before.supply =
        shares * before.value / before.supply * before.supply *
          after.supply := by ring
    _ ≤ shares * before.value * after.supply :=
      Nat.mul_le_mul_right _ (Nat.div_mul_le_self _ _)
    _ = shares * (before.value * after.supply) := by ring
    _ ≤ shares * (after.value * before.supply) :=
      Nat.mul_le_mul_left _ hprice
    _ = shares * after.value * before.supply := by ring

/-- Nobody's redemption falls exactly when the price does not fall: the
holder of all shares of `before` already detects any decrease. -/
theorem forall_redeem_le_iff {before after : Pot}
    (hbefore : 0 < before.supply) (hafter : 0 < after.supply) :
    (∀ shares ≤ before.supply,
        before.redeem shares ≤ after.redeem shares) ↔
      PriceLe before after := by
  constructor
  · intro hall
    have hwhole := hall before.supply le_rfl
    rw [before.redeem_supply hbefore] at hwhole
    have hmul := Nat.mul_le_mul_right after.supply hwhole
    calc
      before.value * after.supply ≤
          after.redeem before.supply * after.supply := hmul
      _ ≤ before.supply * after.value := after.redeem_mul_le _
      _ = after.value * before.supply := Nat.mul_comm _ _
  · intro hprice shares _
    exact hprice.redeem_mono hbefore hafter shares

/-! ## What the operations do to the price -/

def Pot.issue (pot : Pot) (amount shares : ℕ) : Pot where
  value := pot.value + amount
  supply := pot.supply + shares

def Pot.retire (pot : Pot) (payout shares : ℕ) : Pot where
  value := pot.value - payout
  supply := pot.supply - shares

def Pot.gain (pot : Pot) (amount : ℕ) : Pot where
  value := pot.value + amount
  supply := pot.supply

theorem Pot.priceLe_gain (pot : Pot) (amount : ℕ) :
    PriceLe pot (pot.gain amount) := by
  unfold PriceLe Pot.gain
  exact Nat.mul_le_mul_right _ (Nat.le_add_right _ _)

/-- Issuing shares keeps the price up exactly when no more shares are issued
than the amount buys at the current price. -/
theorem Pot.priceLe_issue_iff (pot : Pot) (amount shares : ℕ)
    (hvalue : 0 < pot.value) :
    PriceLe pot (pot.issue amount shares) ↔ shares ≤ pot.mint amount := by
  unfold PriceLe Pot.issue Pot.mint
  rw [Nat.le_div_iff_mul_le hvalue]
  dsimp only
  constructor <;> intro h <;> nlinarith

theorem Pot.priceLe_issue (pot : Pot) (amount : ℕ)
    (hvalue : 0 < pot.value) :
    PriceLe pot (pot.issue amount (pot.mint amount)) :=
  (pot.priceLe_issue_iff amount _ hvalue).mpr le_rfl

/-- The shares there were before an issue keep all the value there was. -/
theorem Pot.value_le_redeem_issue (pot : Pot) (amount : ℕ)
    (hvalue : 0 < pot.value) (hsupply : 0 < pot.supply) :
    pot.value ≤
      (pot.issue amount (pot.mint amount)).redeem pot.supply := by
  have hle := (pot.priceLe_issue amount hvalue).redeem_mono hsupply
    (Nat.add_pos_left hsupply _) pot.supply
  rwa [pot.redeem_supply hsupply] at hle

/-- They gain nothing exactly when the part of `amount` lost to rounding is
worth less than one unit spread over all shares. -/
theorem Pot.redeem_issue_le_iff (pot : Pot) (amount : ℕ)
    (hsupply : 0 < pot.supply) :
    (pot.issue amount (pot.mint amount)).redeem pot.supply ≤ pot.value ↔
      amount * pot.supply % pot.value < pot.supply + pot.mint amount := by
  have hsplit := Nat.div_add_mod (amount * pot.supply) pot.value
  have hpositive : 0 < pot.supply + pot.mint amount :=
    Nat.add_pos_left hsupply _
  rw [← Nat.lt_succ_iff]
  unfold Pot.redeem Pot.issue
  dsimp only
  rw [Nat.div_lt_iff_lt_mul hpositive]
  change pot.value * pot.mint amount + _ = _ at hsplit
  constructor
  · intro h
    nlinarith
  · intro h
    nlinarith

theorem Pot.priceLe_retire (pot : Pot) {shares : ℕ}
    (hshares : shares ≤ pot.supply) :
    PriceLe pot (pot.retire (pot.redeem shares) shares) := by
  unfold PriceLe Pot.retire
  have hpayout := pot.redeem_le_value hshares
  have hfloor := pot.redeem_mul_le shares
  dsimp only
  rw [Nat.mul_sub, Nat.sub_mul]
  have hcomm : shares * pot.value = pot.value * shares := Nat.mul_comm _ _
  omega

/-- A payout that keeps the price up is at most what the shares were worth. -/
theorem Pot.le_redeem_of_priceLe_retire (pot : Pot) {payout shares : ℕ}
    (hsupply : 0 < pot.supply) (hshares : shares ≤ pot.supply)
    (hpayout : payout ≤ pot.value)
    (hprice : PriceLe pot (pot.retire payout shares)) :
    payout ≤ pot.redeem shares := by
  unfold PriceLe Pot.retire at hprice
  unfold Pot.redeem
  rw [Nat.le_div_iff_mul_le hsupply]
  obtain ⟨left, hleft⟩ := Nat.exists_eq_add_of_le hpayout
  obtain ⟨rest, hrest⟩ := Nat.exists_eq_add_of_le hshares
  dsimp only at hprice
  rw [hleft, hrest, Nat.add_sub_cancel_left, Nat.add_sub_cancel_left]
    at hprice
  rw [hleft, hrest]
  nlinarith

theorem Pot.issue_issue (pot : Pot) (amount shares amount' shares' : ℕ) :
    (pot.issue amount shares).issue amount' shares' =
      pot.issue (amount + amount') (shares + shares') := by
  simp [Pot.issue, Nat.add_assoc]

theorem Pot.retire_retire (pot : Pot) (payout shares payout' shares' : ℕ) :
    (pot.retire payout shares).retire payout' shares' =
      pot.retire (payout + payout') (shares + shares') := by
  simp [Pot.retire, Nat.sub_sub]

theorem Pot.priceLe_of_value_le {before after : Pot}
    (hsupply : after.supply = before.supply)
    (hvalue : before.value ≤ after.value) : PriceLe before after := by
  unfold PriceLe
  rw [hsupply]
  exact Nat.mul_le_mul_right _ hvalue

/-- More value behind fewer shares adds to the price of each of them. -/
theorem PriceLe.gain {before after : Pot} (hprice : PriceLe before after)
    (hsupply : after.supply ≤ before.supply) (amount : ℕ) :
    PriceLe (before.gain amount) (after.gain amount) := by
  have hgain : amount * after.supply ≤ amount * before.supply :=
    Nat.mul_le_mul_left amount hsupply
  unfold PriceLe Pot.gain at *
  dsimp only
  rw [Nat.add_mul, Nat.add_mul]
  omega

/-! ## Shares at par -/

/-- Every share has at least one unit of value behind it. -/
def Pot.AtPar (pot : Pot) : Prop :=
  pot.supply ≤ pot.value

theorem Pot.atPar_iff_priceLe (pot : Pot) :
    pot.AtPar ↔ PriceLe ⟨1, 1⟩ pot := by
  unfold Pot.AtPar PriceLe
  rw [Nat.one_mul, Nat.mul_one]

theorem Pot.AtPar.of_priceLe {before after : Pot} (h : before.AtPar)
    (hsupply : 0 < before.supply) (hprice : PriceLe before after) :
    after.AtPar := by
  rw [Pot.atPar_iff_priceLe] at h ⊢
  exact h.trans hsupply hprice

theorem Pot.AtPar.le_redeem {pot : Pot} (h : pot.AtPar)
    (hsupply : 0 < pot.supply) (shares : ℕ) : shares ≤ pot.redeem shares := by
  unfold Pot.redeem
  rw [Nat.le_div_iff_mul_le hsupply]
  exact Nat.mul_le_mul_left shares h

theorem Pot.AtPar.mint_le {pot : Pot} (h : pot.AtPar) (amount : ℕ) :
    pot.mint amount ≤ amount := by
  unfold Pot.mint
  apply Nat.div_le_of_le_mul
  rw [Nat.mul_comm pot.value]
  exact Nat.mul_le_mul_left amount h

/-! ## Minting and redeeming at once -/

/-- The shares just bought are worth at most what they cost. -/
theorem Pot.redeem_issue_mint_le (pot : Pot) (amount : ℕ) :
    (pot.issue amount (pot.mint amount)).redeem (pot.mint amount) ≤
      amount := by
  have hfloor : pot.mint amount * pot.value ≤ amount * pot.supply :=
    Nat.div_mul_le_self _ _
  unfold Pot.redeem Pot.issue
  apply Nat.div_le_of_le_mul
  dsimp only
  calc
    pot.mint amount * (pot.value + amount) =
        pot.mint amount * pot.value + pot.mint amount * amount := by ring
    _ ≤ amount * pot.supply + pot.mint amount * amount :=
      Nat.add_le_add_right hfloor _
    _ = (pot.supply + pot.mint amount) * amount := by ring

/-- They lose at most the price of one share, rounded up. -/
theorem Pot.le_redeem_issue_mint_add (pot : Pot) (amount : ℕ)
    (hvalue : 0 < pot.value) (hsupply : 0 < pot.supply) :
    amount ≤
      (pot.issue amount (pot.mint amount)).redeem (pot.mint amount) +
        pot.value ⌈/⌉ pot.supply := by
  have hnext : amount * pot.supply < pot.value * (pot.mint amount + 1) :=
    Nat.lt_mul_div_succ _ hvalue
  have hprice : pot.value ≤ pot.supply * (pot.value ⌈/⌉ pot.supply) :=
    le_smul_ceilDiv hsupply
  rw [← Nat.sub_le_iff_le_add]
  rcases Nat.le_total amount (pot.value ⌈/⌉ pot.supply) with hle | hle
  · rw [Nat.sub_eq_zero_of_le hle]
    exact Nat.zero_le _
  · obtain ⟨kept, hkept⟩ := Nat.exists_eq_add_of_le hle
    have hpositive : 0 < pot.supply + pot.mint amount :=
      Nat.add_pos_left hsupply _
    have hback : kept ≤
        (pot.issue amount (pot.mint amount)).redeem (pot.mint amount) := by
      unfold Pot.redeem Pot.issue
      rw [Nat.le_div_iff_mul_le hpositive]
      dsimp only
      generalize pot.mint amount = shares at hnext ⊢
      generalize pot.value ⌈/⌉ pot.supply = price at hprice hkept
      subst hkept
      nlinarith
    omega

/-! ## Profit -/

/-- Whoever leaves the others their share takes out at most what went in and
the worth of the own shares. -/
theorem Pot.paidOut_le {before after : Pot} {paidIn paidOut own : ℕ}
    (hsupply : 0 < before.supply)
    (hconserved : after.value + paidOut = before.value + paidIn)
    (hothers : before.value * (before.supply - own) ≤
      after.value * before.supply) :
    paidOut ≤ paidIn + before.redeem own := by
  rcases Nat.le_total paidOut paidIn with hle | hle
  · omega
  · obtain ⟨profit, rfl⟩ := Nat.exists_eq_add_of_le hle
    have hleft : after.value + profit = before.value := by omega
    have hprofit : profit ≤ before.redeem own := by
      unfold Pot.redeem
      rw [Nat.le_div_iff_mul_le hsupply]
      have htotal : before.value * before.supply ≤
          before.value * (before.supply - own) + before.value * own := by
        rw [← Nat.mul_add]
        exact Nat.mul_le_mul_left _ (by omega)
      rw [← hleft, Nat.add_mul, Nat.add_mul, Nat.add_mul] at htotal
      rw [← hleft, Nat.add_mul] at hothers
      rw [← hleft, Nat.mul_add, Nat.mul_comm own, Nat.mul_comm own]
      omega
    omega

/-! ## Redeeming everything in turn -/

/-- `after` holds at most `dust` more than what its shares were worth in
`before`. -/
def SurplusLe (dust : ℕ) (before after : Pot) : Prop :=
  after.value * before.supply ≤
    before.value * after.supply + dust * before.supply

theorem SurplusLe.refl (pot : Pot) : SurplusLe 0 pot pot := by
  simp [SurplusLe]

/-- One redemption leaves less than one unit of rounding behind. -/
theorem SurplusLe.retire {dust shares : ℕ} {before pot : Pot}
    (h : SurplusLe dust before pot) (hsupply : 0 < pot.supply)
    (hshares : shares ≤ pot.supply) :
    SurplusLe (dust + 1) before
      (pot.retire (pot.redeem shares) shares) := by
  have hpayout := pot.redeem_le_value hshares
  have hnext := pot.lt_redeem_succ_mul shares hsupply
  unfold SurplusLe Pot.retire at *
  dsimp only
  generalize pot.redeem shares = payout at *
  obtain ⟨left, hleft⟩ := Nat.exists_eq_add_of_le hpayout
  obtain ⟨rest, hrest⟩ := Nat.exists_eq_add_of_le hshares
  have hkept : left * pot.supply ≤ pot.value * rest + pot.supply := by
    nlinarith
  rw [hleft, hrest, Nat.add_sub_cancel_left, Nat.add_sub_cancel_left]
  refine Nat.le_of_mul_le_mul_right ?_ hsupply
  calc
    left * before.supply * pot.supply =
        left * pot.supply * before.supply := by ring
    _ ≤ (pot.value * rest + pot.supply) * before.supply :=
      Nat.mul_le_mul_right _ hkept
    _ = pot.value * before.supply * rest + pot.supply * before.supply := by
      ring
    _ ≤ (before.value * pot.supply + dust * before.supply) * rest +
          pot.supply * before.supply :=
      Nat.add_le_add_right (Nat.mul_le_mul_right _ h) _
    _ = before.value * rest * pot.supply + dust * before.supply * rest +
          before.supply * pot.supply := by ring
    _ ≤ before.value * rest * pot.supply +
          dust * before.supply * pot.supply +
            before.supply * pot.supply := by
      have hle : rest ≤ pot.supply := by omega
      have hmul := Nat.mul_le_mul_left (dust * before.supply) hle
      omega
    _ = (before.value * rest + (dust + 1) * before.supply) *
          pot.supply := by ring

/-- Whoever redeems from such a pot gets at most the dust on top. -/
theorem SurplusLe.redeem_mul_le {dust shares : ℕ} {before pot : Pot}
    (h : SurplusLe dust before pot) (hsupply : 0 < pot.supply)
    (hshares : shares ≤ pot.supply) :
    pot.redeem shares * before.supply ≤
      shares * before.value + dust * before.supply := by
  refine Nat.le_of_mul_le_mul_right ?_ hsupply
  calc
    pot.redeem shares * before.supply * pot.supply =
        pot.redeem shares * pot.supply * before.supply := by ring
    _ ≤ shares * pot.value * before.supply :=
      Nat.mul_le_mul_right _ (pot.redeem_mul_le shares)
    _ = shares * (pot.value * before.supply) := by ring
    _ ≤ shares * (before.value * pot.supply + dust * before.supply) :=
      Nat.mul_le_mul_left _ h
    _ = shares * before.value * pot.supply +
          dust * before.supply * shares := by ring
    _ ≤ shares * before.value * pot.supply +
          dust * before.supply * pot.supply :=
      Nat.add_le_add_left (Nat.mul_le_mul_left _ hshares) _
    _ = (shares * before.value + dust * before.supply) * pot.supply := by
      ring

/-! ## Minting against a stale value -/

/-- A lower price mints at least as many shares. -/
theorem Pot.mint_anti (supply amount : ℕ) {low high : ℕ}
    (hlow : 0 < low) (hle : low ≤ high) :
    (Pot.mk high supply).mint amount ≤ (Pot.mk low supply).mint amount :=
  Nat.div_le_div_left hle hlow

/-- Dividing by less rounds to the same quotient exactly when the difference
is too small to reach the next one. -/
theorem div_eq_div_add_iff {n low hidden : ℕ} (hlow : 0 < low) :
    n / low = n / (low + hidden) ↔
      hidden * (n / (low + hidden) + 1) + n % (low + hidden) <
        low + hidden := by
  have hsplit := Nat.div_add_mod n (low + hidden)
  have hquotient : n / (low + hidden) ≤ n / low :=
    Nat.div_le_div_left (Nat.le_add_right low hidden) hlow
  have hnext : n / low < n / (low + hidden) + 1 ↔
      n < (n / (low + hidden) + 1) * low := Nat.div_lt_iff_lt_mul hlow
  constructor
  · intro h
    have hlt := hnext.mp (by omega)
    nlinarith
  · intro h
    have hlt := hnext.mpr (by nlinarith)
    omega

/-- Shares issued against a value `low` while the pot is really worth
`low + hidden`: once the hidden part is counted, nobody's redemption has
fallen exactly when the hidden part is too small to have changed the number
of shares issued. -/
theorem forall_redeem_le_of_stale_issue_iff
    {low hidden supply amount : ℕ} (hlow : 0 < low) (hsupply : 0 < supply) :
    (∀ shares ≤ supply,
        (Pot.mk (low + hidden) supply).redeem shares ≤
          ((Pot.mk (low + hidden) supply).issue amount
            ((Pot.mk low supply).mint amount)).redeem shares) ↔
      hidden * (amount * supply / (low + hidden) + 1) +
          amount * supply % (low + hidden) <
        low + hidden := by
  have hredeem := @forall_redeem_le_iff (Pot.mk (low + hidden) supply)
    ((Pot.mk (low + hidden) supply).issue amount
      ((Pot.mk low supply).mint amount)) hsupply (Nat.add_pos_left hsupply _)
  have hanti := Pot.mint_anti supply amount hlow (Nat.le_add_right low hidden)
  dsimp only at hredeem
  rw [hredeem, Pot.priceLe_issue_iff _ _ _ (Nat.add_pos_left hlow hidden),
    ← div_eq_div_add_iff hlow]
  constructor
  · intro h
    exact le_antisymm h hanti
  · intro h
    exact le_of_eq h

end ProportionalShares
