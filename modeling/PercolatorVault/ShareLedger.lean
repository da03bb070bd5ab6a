import PercolatorVault.ProportionalShares

/-!
# The ledger behind a pool

What the accounting of a pool is for, in unbounded numbers: lifetime totals,
the shares issued, and the tokens really in the vault.  `Ledger.apply` is what
an operation does to the totals and `Ledger.Allowed` what must hold before it.
A ledger is `Coherent` when its value is not negative and is covered by the
vault; every allowed operation keeps it so, and none but a flush lowers the
price of a share.
-/

namespace ShareLedger

open ProportionalShares

structure Ledger where
  trading : Bool
  deposited : ℕ
  withdrawn : ℕ
  flushed : ℕ
  returned : ℕ
  fees : ℕ
  supply : ℕ
  offset : ℕ
  vault : ℕ
deriving DecidableEq

inductive Operation where
  | deposit (amount shares : ℕ)
  | withdraw (shares payout : ℕ)
  | flush (amount : ℕ)
  | reclaim (amount : ℕ)
  | settle
  | book
  | receive (amount : ℕ)
deriving DecidableEq

namespace Ledger

def inflow (ledger : Ledger) : ℕ :=
  ledger.deposited + ledger.returned +
    (bif ledger.trading then ledger.fees else 0)

def outflow (ledger : Ledger) : ℕ :=
  ledger.withdrawn + ledger.flushed

def value (ledger : Ledger) : ℕ :=
  ledger.inflow - ledger.outflow

def pot (ledger : Ledger) : Pot :=
  ⟨ledger.value, ledger.supply⟩

/-- What a crank expects in the vault before new fees. -/
def expected (ledger : Ledger) : ℕ :=
  ledger.deposited + ledger.fees - ledger.withdrawn + ledger.offset

def Allowed (ledger : Ledger) : Operation → Prop
  | .deposit amount shares =>
      0 < amount ∧ 0 < shares ∧
        if ledger.supply = 0 then shares = amount
        else 0 < ledger.value ∧ shares = ledger.pot.mint amount
  | .withdraw shares payout =>
      0 < shares ∧ shares ≤ ledger.supply ∧
        payout = ledger.pot.redeem shares ∧ 0 < payout ∧
        payout ≤ ledger.vault
  | .flush amount =>
      ledger.trading = false ∧ amount ≤ ledger.value ∧
        amount ≤ ledger.vault
  | .reclaim _ => ledger.trading = false
  | .settle => ledger.trading = true ∧ ledger.supply = 0
  | .book => ledger.trading = true ∧ 0 < ledger.supply
  | .receive _ => True

def apply (ledger : Ledger) : Operation → Ledger
  | .deposit amount shares =>
      { ledger with
        deposited := ledger.deposited + amount
        supply := ledger.supply + shares
        vault := ledger.vault + amount }
  | .withdraw shares payout =>
      { ledger with
        withdrawn := ledger.withdrawn + payout
        supply := ledger.supply - shares
        vault := ledger.vault - payout }
  | .flush amount =>
      { ledger with
        flushed := ledger.flushed + amount
        vault := ledger.vault - amount }
  | .reclaim amount =>
      { ledger with
        returned := ledger.returned + amount
        vault := ledger.vault + amount }
  | .settle => { ledger with offset := ledger.vault }
  | .book =>
      { ledger with
        fees := ledger.fees + (ledger.vault - ledger.expected) }
  | .receive amount => { ledger with vault := ledger.vault + amount }

/-! ## Coherence -/

structure Coherent (ledger : Ledger) : Prop where
  covered : ledger.outflow ≤ ledger.inflow
  backed : ledger.value + (bif ledger.trading then ledger.offset else 0) ≤
    ledger.vault
  unflushed : ledger.trading = true →
    ledger.flushed = 0 ∧ ledger.returned = 0
  shared : ledger.trading = true → (ledger.supply = 0 ↔ ledger.value = 0)

theorem value_deposit (ledger : Ledger) (amount shares : ℕ)
    (hcovered : ledger.outflow ≤ ledger.inflow) :
    (ledger.apply (.deposit amount shares)).value =
      ledger.value + amount := by
  simp only [value, inflow, outflow, apply] at hcovered ⊢
  omega

theorem value_withdraw (ledger : Ledger) (shares payout : ℕ) :
    (ledger.apply (.withdraw shares payout)).value =
      ledger.value - payout := by
  simp only [value, inflow, outflow, apply]
  omega

theorem value_flush (ledger : Ledger) (amount : ℕ) :
    (ledger.apply (.flush amount)).value = ledger.value - amount := by
  simp only [value, inflow, outflow, apply]
  omega

theorem value_reclaim (ledger : Ledger) (amount : ℕ)
    (hcovered : ledger.outflow ≤ ledger.inflow) :
    (ledger.apply (.reclaim amount)).value = ledger.value + amount := by
  simp only [value, inflow, outflow, apply] at hcovered ⊢
  omega

@[simp] theorem value_settle (ledger : Ledger) :
    (ledger.apply .settle).value = ledger.value := rfl

@[simp] theorem value_receive (ledger : Ledger) (amount : ℕ) :
    (ledger.apply (.receive amount)).value = ledger.value := rfl

theorem value_book (ledger : Ledger) (htrading : ledger.trading = true)
    (hcovered : ledger.outflow ≤ ledger.inflow) :
    (ledger.apply .book).value =
      ledger.value + (ledger.vault - ledger.expected) := by
  simp only [value, inflow, outflow, apply, htrading, cond_true]
    at hcovered ⊢
  omega

/-! ## What the operations do to the pot -/

theorem pot_deposit (ledger : Ledger) (amount shares : ℕ)
    (hcovered : ledger.outflow ≤ ledger.inflow) :
    (ledger.apply (.deposit amount shares)).pot =
      ledger.pot.issue amount shares := by
  simp only [pot, Pot.issue, value_deposit _ _ _ hcovered]
  rfl

theorem pot_withdraw (ledger : Ledger) (shares payout : ℕ) :
    (ledger.apply (.withdraw shares payout)).pot =
      ledger.pot.retire payout shares := by
  simp only [pot, Pot.retire, value_withdraw]
  rfl

theorem pot_flush (ledger : Ledger) (amount : ℕ) :
    (ledger.apply (.flush amount)).pot = ledger.pot.retire amount 0 := by
  simp only [pot, Pot.retire, value_flush]
  rfl

theorem pot_reclaim (ledger : Ledger) (amount : ℕ)
    (hcovered : ledger.outflow ≤ ledger.inflow) :
    (ledger.apply (.reclaim amount)).pot = ledger.pot.gain amount := by
  simp only [pot, Pot.gain, value_reclaim _ _ hcovered]
  rfl

theorem pot_book (ledger : Ledger) (htrading : ledger.trading = true)
    (hcovered : ledger.outflow ≤ ledger.inflow) :
    (ledger.apply .book).pot =
      ledger.pot.gain (ledger.vault - ledger.expected) := by
  simp only [pot, Pot.gain, value_book _ htrading hcovered]
  rfl

/-- A deposit leaves what the crank would book as it is. -/
theorem unbooked_deposit (ledger : Ledger) (amount shares : ℕ)
    (hbooked : ledger.withdrawn ≤ ledger.deposited + ledger.fees) :
    (ledger.apply (.deposit amount shares)).vault -
        (ledger.apply (.deposit amount shares)).expected =
      ledger.vault - ledger.expected := by
  simp only [expected, apply]
  omega

/-! ## Coherent ledgers -/

/-- A crank expects the booked value and the offset. -/
theorem Coherent.expected_eq {ledger : Ledger} (h : ledger.Coherent)
    (htrading : ledger.trading = true) :
    ledger.expected = ledger.value + ledger.offset := by
  obtain ⟨hflushed, hreturned⟩ := h.unflushed htrading
  have hcovered := h.covered
  simp only [expected, value, inflow, outflow, htrading, cond_true, hflushed,
    hreturned] at hcovered ⊢
  omega

theorem Coherent.apply {ledger : Ledger} {operation : Operation}
    (h : ledger.Coherent) (hallowed : ledger.Allowed operation) :
    (ledger.apply operation).Coherent := by
  have hcovered := h.covered
  have hbacked := h.backed
  cases operation with
  | deposit amount shares =>
      obtain ⟨hamount, hshares, hprice⟩ := hallowed
      have hvalue := ledger.value_deposit amount shares hcovered
      refine ⟨?_, ?_, h.unflushed, ?_⟩
      · simp only [inflow, outflow, Ledger.apply] at hcovered ⊢
        omega
      · rw [hvalue]
        simp only [Ledger.apply]
        omega
      · intro _
        rw [hvalue]
        simp only [Ledger.apply]
        omega
  | withdraw shares payout =>
      obtain ⟨hshares, hheld, hpayout, hpositive, hvault⟩ := hallowed
      have hle : payout ≤ ledger.value := by
        rw [hpayout]
        exact ledger.pot.redeem_le_value hheld
      have hvalue := ledger.value_withdraw shares payout
      refine ⟨?_, ?_, h.unflushed, ?_⟩
      · simp only [value, inflow, outflow, Ledger.apply] at hle ⊢
        omega
      · rw [hvalue]
        simp only [Ledger.apply]
        omega
      · intro _
        have hwhole := ledger.pot.redeem_eq_value_iff (hpositive.trans_le hle)
          (hshares.trans_le hheld) hheld
        rw [← hpayout] at hwhole
        change payout = ledger.value ↔ shares = ledger.supply at hwhole
        rw [hvalue]
        simp only [Ledger.apply]
        omega
  | flush amount =>
      obtain ⟨htrading, hle, hvault⟩ := hallowed
      have hvalue := ledger.value_flush amount
      refine ⟨?_, ?_, ?_, ?_⟩
      · simp only [value, inflow, outflow, Ledger.apply] at hle hcovered ⊢
        omega
      · rw [hvalue]
        simp only [Ledger.apply]
        omega
      · intro h'
        exact absurd (htrading.symm.trans h') (by decide)
      · intro h'
        exact absurd (htrading.symm.trans h') (by decide)
  | reclaim amount =>
      have hvalue := ledger.value_reclaim amount hcovered
      refine ⟨?_, ?_, ?_, ?_⟩
      · simp only [inflow, outflow, Ledger.apply] at hcovered ⊢
        omega
      · rw [hvalue]
        simp only [Ledger.apply]
        omega
      · intro h'
        exact absurd (hallowed.symm.trans h') (by decide)
      · intro h'
        exact absurd (hallowed.symm.trans h') (by decide)
  | settle =>
      obtain ⟨htrading, hsupply⟩ := hallowed
      have hzero := (h.shared htrading).mp hsupply
      refine ⟨hcovered, ?_, h.unflushed, h.shared⟩
      rw [value_settle, hzero]
      simp only [Ledger.apply, htrading, cond_true]
      omega
  | book =>
      obtain ⟨htrading, hsupply⟩ := hallowed
      have hvalue := ledger.value_book htrading hcovered
      have hexpected := h.expected_eq htrading
      refine ⟨?_, ?_, h.unflushed, ?_⟩
      · simp only [inflow, outflow, Ledger.apply, htrading, cond_true]
          at hcovered ⊢
        omega
      · rw [hvalue]
        rw [htrading, cond_true] at hbacked
        simp only [Ledger.apply, htrading, cond_true]
        omega
      · intro _
        have hpositive := (not_congr (h.shared htrading)).mp (by omega)
        rw [hvalue]
        simp only [Ledger.apply]
        omega
  | receive amount =>
      refine ⟨hcovered, ?_, h.unflushed, h.shared⟩
      rw [value_receive]
      simp only [Ledger.apply]
      omega

/-! ## Booking in between -/

/-- A crank never finds less in the vault than it expects. -/
theorem Coherent.expected_le {ledger : Ledger} (h : ledger.Coherent)
    (htrading : ledger.trading = true) : ledger.expected ≤ ledger.vault := by
  have hbacked := h.backed
  rw [htrading, cond_true] at hbacked
  rw [h.expected_eq htrading]
  exact hbacked

/-- Afterwards it expects exactly what is in the vault. -/
theorem Coherent.expected_book {ledger : Ledger} (h : ledger.Coherent)
    (hallowed : ledger.Allowed .book) :
    (ledger.apply .book).expected = ledger.vault := by
  have hbefore := h.expected_eq hallowed.1
  have hle := h.expected_le hallowed.1
  have hvalue := ledger.value_book hallowed.1 h.covered
  rw [(h.apply hallowed).expected_eq hallowed.1, hvalue]
  simp only [Ledger.apply]
  omega

/-- Everything that came in is what is left in the vault and what was paid. -/
theorem Coherent.inflow_of_expected {ledger : Ledger} (h : ledger.Coherent)
    (htrading : ledger.trading = true)
    (hexpected : ledger.expected = ledger.vault) :
    ledger.inflow + ledger.offset = ledger.vault + ledger.withdrawn := by
  obtain ⟨hflushed, -⟩ := h.unflushed htrading
  have hcovered := h.covered
  rw [h.expected_eq htrading] at hexpected
  simp only [value, outflow, hflushed] at hexpected hcovered
  omega

theorem Coherent.apply_book_book {ledger : Ledger} (h : ledger.Coherent)
    (hallowed : ledger.Allowed .book) :
    (ledger.apply .book).apply .book = ledger.apply .book := by
  have hnothing : (ledger.apply .book).vault -
      (ledger.apply .book).expected = 0 := by
    rw [h.expected_book hallowed]
    exact Nat.sub_self ledger.vault
  conv_lhs => rw [Ledger.apply]
  rw [hnothing, Nat.add_zero]

theorem apply_receive_receive (ledger : Ledger) (first second : ℕ) :
    (ledger.apply (.receive first)).apply (.receive second) =
      ledger.apply (.receive (first + second)) := by
  simp only [Ledger.apply, Nat.add_assoc]

/-- A booking that another one follows makes no difference, whatever is
received in between. -/
theorem Coherent.apply_book_receive_book {ledger : Ledger}
    (h : ledger.Coherent) (hallowed : ledger.Allowed .book) (amount : ℕ) :
    ((ledger.apply .book).apply (.receive amount)).apply .book =
      (ledger.apply (.receive amount)).apply .book := by
  have hle := h.expected_le hallowed.1
  have hfees : ledger.fees + (ledger.vault - ledger.expected) +
      (ledger.vault + amount - (ledger.apply .book).expected) =
        ledger.fees + (ledger.vault + amount - ledger.expected) := by
    rw [h.expected_book hallowed]
    omega
  calc
    ((ledger.apply .book).apply (.receive amount)).apply .book
      = { ledger with
          vault := ledger.vault + amount
          fees := ledger.fees + (ledger.vault - ledger.expected) +
            (ledger.vault + amount - (ledger.apply .book).expected) } := rfl
    _ = { ledger with
          vault := ledger.vault + amount
          fees := ledger.fees +
            (ledger.vault + amount - ledger.expected) } := by rw [hfees]
    _ = (ledger.apply (.receive amount)).apply .book := rfl

/-- Ledgers that a booking makes equal stay so when both receive the same. -/
theorem Coherent.apply_receive_congr {ledger other : Ledger}
    (h : ledger.Coherent) (hallowed : ledger.Allowed .book)
    (h' : other.Coherent) (hallowed' : other.Allowed .book)
    (hsame : ledger.apply .book = other.apply .book) (amount : ℕ) :
    (ledger.apply (.receive amount)).apply .book =
      (other.apply (.receive amount)).apply .book := by
  rw [← h.apply_book_receive_book hallowed, hsame,
    h'.apply_book_receive_book hallowed']

/-! ## The price of a share -/

/-- Only a flush lowers the price. -/
theorem Coherent.priceLe_apply {ledger : Ledger} {operation : Operation}
    (h : ledger.Coherent) (hallowed : ledger.Allowed operation)
    (hflush : ∀ amount, operation ≠ .flush amount)
    (hsupply : 0 < ledger.supply) :
    PriceLe ledger.pot (ledger.apply operation).pot := by
  cases operation with
  | deposit amount shares =>
      obtain ⟨-, -, hprice⟩ := hallowed
      rw [if_neg (by omega)] at hprice
      rw [pot_deposit _ _ _ h.covered, hprice.2]
      exact ledger.pot.priceLe_issue amount hprice.1
  | withdraw shares payout =>
      obtain ⟨-, hheld, hpayout, -, -⟩ := hallowed
      rw [pot_withdraw, hpayout]
      exact ledger.pot.priceLe_retire hheld
  | flush amount => exact absurd rfl (hflush amount)
  | reclaim amount =>
      rw [pot_reclaim _ _ h.covered]
      exact ledger.pot.priceLe_gain amount
  | settle => exact PriceLe.refl _
  | book =>
      obtain ⟨htrading, -⟩ := hallowed
      rw [pot_book _ htrading h.covered]
      exact ledger.pot.priceLe_gain _
  | receive amount => exact PriceLe.refl _

/-- Shares that are at par stay so until a flush. -/
theorem Coherent.atPar_apply {ledger : Ledger} {operation : Operation}
    (h : ledger.Coherent) (hallowed : ledger.Allowed operation)
    (hflush : ∀ amount, operation ≠ .flush amount)
    (hpar : ledger.pot.AtPar) : (ledger.apply operation).pot.AtPar := by
  rcases Nat.eq_zero_or_pos ledger.supply with hempty | hsupply
  · cases operation with
    | deposit amount shares =>
        -- The first shares are issued one for one.
        obtain ⟨-, -, hshares⟩ := hallowed
        rw [if_pos hempty] at hshares
        rw [pot_deposit _ _ _ h.covered]
        change ledger.supply + shares ≤ ledger.value + amount
        omega
    | withdraw shares payout =>
        obtain ⟨hshares, hheld, -⟩ := hallowed
        omega
    | flush amount => exact absurd rfl (hflush amount)
    | book => exact absurd hempty (Nat.pos_iff_ne_zero.mp hallowed.2)
    | _ =>
        change ledger.supply ≤ _
        rw [hempty]
        exact Nat.zero_le _
  · exact hpar.of_priceLe hsupply (h.priceLe_apply hallowed hflush hsupply)

/-- A ledger that nothing was ever flushed from has its shares at par. -/
def ParUnlessFlushed (ledger : Ledger) : Prop :=
  ledger.flushed = 0 → ledger.pot.AtPar

theorem Coherent.parUnlessFlushed_apply {ledger : Ledger}
    {operation : Operation} (h : ledger.Coherent)
    (hallowed : ledger.Allowed operation)
    (hpar : ledger.ParUnlessFlushed) :
    (ledger.apply operation).ParUnlessFlushed := by
  intro hunflushed
  cases operation with
  | flush amount =>
      change ledger.flushed + amount = 0 at hunflushed
      have hnothing : amount = 0 := by omega
      rw [pot_flush, hnothing]
      exact hpar (by omega)
  | _ => exact h.atPar_apply hallowed (by simp) (hpar hunflushed)

/-- Operations other than a withdrawal or a flush do not lower the value. -/
theorem Coherent.value_le_apply {ledger : Ledger} {operation : Operation}
    (h : ledger.Coherent) (hallowed : ledger.Allowed operation)
    (hflush : ∀ amount, operation ≠ .flush amount)
    (hwithdraw : ∀ shares payout, operation ≠ .withdraw shares payout) :
    ledger.value ≤ (ledger.apply operation).value := by
  cases operation with
  | deposit amount shares =>
      rw [value_deposit _ _ _ h.covered]
      exact Nat.le_add_right _ _
  | withdraw shares payout => exact absurd rfl (hwithdraw shares payout)
  | flush amount => exact absurd rfl (hflush amount)
  | reclaim amount =>
      rw [value_reclaim _ _ h.covered]
      exact Nat.le_add_right _ _
  | settle => exact le_rfl
  | book =>
      rw [value_book _ hallowed.1 h.covered]
      exact Nat.le_add_right _ _
  | receive amount => exact le_rfl

/-- What is owed to the pot after an operation: flushes run it up and returns
pay it off. -/
def owedAfter : Operation → ℕ → ℕ
  | .flush amount, owed => owed + amount
  | .reclaim amount, owed => owed - amount
  | _, owed => owed

/-- Counted together with what is owed, no operation lowers the price, except
a deposit made while something is owed. -/
theorem Coherent.priceLe_gain_apply {ledger : Ledger} {operation : Operation}
    (h : ledger.Coherent) (hallowed : ledger.Allowed operation)
    (hsupply : 0 < ledger.supply) {owed : ℕ}
    (hdeposit : ∀ amount shares, operation = .deposit amount shares →
      owed = 0) :
    PriceLe (ledger.pot.gain owed)
      ((ledger.apply operation).pot.gain (owedAfter operation owed)) := by
  cases operation with
  | deposit amount shares =>
      rw [hdeposit amount shares rfl]
      exact h.priceLe_apply hallowed (by simp) hsupply
  | withdraw shares payout =>
      exact (h.priceLe_apply hallowed (by simp) hsupply).gain
        (Nat.sub_le _ _) owed
  | flush amount =>
      have hcovers : amount ≤ ledger.value := hallowed.2.1
      refine Pot.priceLe_of_value_le ?_ ?_
      · rfl
      · rw [pot_flush]
        simp only [Pot.gain, Pot.retire, pot, owedAfter]
        omega
  | reclaim amount =>
      refine Pot.priceLe_of_value_le ?_ ?_
      · rfl
      · rw [pot_reclaim _ _ h.covered]
        simp only [Pot.gain, pot, owedAfter]
        omega
  | settle => exact PriceLe.refl _
  | book =>
      exact (h.priceLe_apply hallowed (by simp) hsupply).gain le_rfl owed
  | receive amount => exact PriceLe.refl _

/-- What an operation adds to the lifetime inflow. -/
def gained (ledger : Ledger) : Operation → ℕ
  | .deposit amount _ => amount
  | .reclaim amount => amount
  | .book => ledger.vault - ledger.expected
  | _ => 0

theorem inflow_apply (ledger : Ledger) {operation : Operation}
    (hallowed : ledger.Allowed operation) :
    (ledger.apply operation).inflow =
      ledger.inflow + ledger.gained operation := by
  cases operation with
  | book =>
      simp only [inflow, Ledger.apply, gained, hallowed.1, cond_true]
      omega
  | _ =>
      simp only [inflow, Ledger.apply, gained]
      omega

/-- What an operation adds to the lifetime outflow. -/
def spent : Operation → ℕ
  | .withdraw _ payout => payout
  | .flush amount => amount
  | _ => 0

theorem outflow_apply (ledger : Ledger) (operation : Operation) :
    (ledger.apply operation).outflow = ledger.outflow + spent operation := by
  cases operation with
  | withdraw shares payout =>
      simp only [outflow, Ledger.apply, spent]
      omega
  | flush amount =>
      simp only [outflow, Ledger.apply, spent]
      omega
  | _ => rfl

theorem deposited_le_apply (ledger : Ledger) (operation : Operation) :
    ledger.deposited ≤ (ledger.apply operation).deposited := by
  cases operation with
  | deposit amount shares => exact Nat.le_add_right _ _
  | _ => exact le_rfl

/-! ## Where fees come from -/

@[simp] theorem apply_receive_zero (ledger : Ledger) :
    ledger.apply (.receive 0) = ledger := rfl

/-- `received` tokens came in while there were shares.  The fees were among
them, and so is everything a booking could still turn into fees. -/
structure FeesFrom (received : ℕ) (ledger : Ledger) : Prop where
  booked : ledger.fees ≤ received
  bookable : 0 < ledger.supply →
    ledger.fees + (ledger.vault - ledger.expected) ≤ received

/-- The first shares are issued at a moment when the vault holds, beyond the
offset, no more than came in while there were shares and was not booked. -/
def Covers (received : ℕ) (ledger : Ledger) : Prop :=
  ledger.supply = 0 → ledger.vault - ledger.offset ≤ received - ledger.fees

variable {ledger : Ledger} {received : ℕ}

theorem FeesFrom.receive (h : ledger.FeesFrom received) (amount : ℕ) :
    (ledger.apply (.receive amount)).FeesFrom
      (received + if 0 < ledger.supply then amount else 0) := by
  obtain ⟨hbooked, hbookable⟩ := h
  constructor
  · exact hbooked.trans (Nat.le_add_right _ _)
  · intro hsupply
    change 0 < ledger.supply at hsupply
    have hbound := hbookable hsupply
    rw [if_pos hsupply]
    simp only [Ledger.apply, expected] at hbound ⊢
    omega

theorem FeesFrom.mono {more : ℕ} (h : ledger.FeesFrom received)
    (hle : received ≤ more) : ledger.FeesFrom more :=
  ⟨h.booked.trans hle, fun hsupply => (h.bookable hsupply).trans hle⟩

theorem FeesFrom.deposit {amount shares : ℕ} (h : ledger.FeesFrom received)
    (hcoherent : ledger.Coherent) (htrading : ledger.trading = true)
    (hcovers : ledger.Covers received) :
    (ledger.apply (.deposit amount shares)).FeesFrom received := by
  obtain ⟨hflushed, hreturned⟩ := hcoherent.unflushed htrading
  have hcovered := hcoherent.covered
  simp only [inflow, outflow, htrading, cond_true, hflushed, hreturned]
    at hcovered
  refine ⟨h.booked, fun _ => ?_⟩
  rw [ledger.unbooked_deposit amount shares (by omega)]
  change ledger.fees + (ledger.vault - ledger.expected) ≤ received
  rcases Nat.eq_zero_or_pos ledger.supply with hzero | hpositive
  · have hworthless := (hcoherent.shared htrading).mp hzero
    have hbooked := h.booked
    have hbound := hcovers hzero
    rw [hcoherent.expected_eq htrading, hworthless]
    omega
  · exact h.bookable hpositive

theorem FeesFrom.withdraw {shares payout : ℕ} (h : ledger.FeesFrom received)
    (hcoherent : ledger.Coherent) (htrading : ledger.trading = true)
    (hallowed : ledger.Allowed (.withdraw shares payout)) :
    (ledger.apply (.withdraw shares payout)).FeesFrom received := by
  have hafter := (hcoherent.apply hallowed).expected_eq htrading
  have hbefore := hcoherent.expected_eq htrading
  obtain ⟨hshares, hheld, hpayout, -, -⟩ := hallowed
  have hle : payout ≤ ledger.value := by
    rw [hpayout]
    exact ledger.pot.redeem_le_value hheld
  refine ⟨h.booked, fun _ => ?_⟩
  have hbound := h.bookable (by omega)
  rw [hbefore] at hbound
  rw [hafter, value_withdraw]
  simp only [Ledger.apply]
  omega

theorem FeesFrom.settle (h : ledger.FeesFrom received)
    (hallowed : ledger.Allowed .settle) :
    (ledger.apply .settle).FeesFrom received := by
  refine ⟨h.booked, fun hsupply => ?_⟩
  exact absurd hallowed.2 (Nat.pos_iff_ne_zero.mp hsupply)

theorem FeesFrom.book (h : ledger.FeesFrom received)
    (hcoherent : ledger.Coherent) (hallowed : ledger.Allowed .book) :
    (ledger.apply .book).FeesFrom received := by
  have htrading := hallowed.1
  have hbound := h.bookable hallowed.2
  have hbefore := hcoherent.expected_eq htrading
  have hafter := (hcoherent.apply hallowed).expected_eq htrading
  have hvalue := ledger.value_book htrading hcoherent.covered
  refine ⟨hbound, fun _ => ?_⟩
  rw [hafter, hvalue]
  simp only [Ledger.apply]
  omega

end Ledger

end ShareLedger
