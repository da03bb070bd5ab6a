import PercolatorVault.ShareLedger

/-!
# Books rebuilt from a log

A register of shares that is kept from nothing but the log of what was posted:
it never looks into the vault.  `Register.post` refuses an entry the books do
not cover, so a log that is accepted from end to end fixes every number in
them.  A ledger whose operations are posted as they happen agrees with the
register throughout.
-/

namespace ShareRegister

open ProportionalShares
open ShareLedger

variable {User : Type}

inductive Entry (User : Type) where
  | deposit (user : User) (amount : ℕ)
  | withdraw (user : User) (shares : ℕ)
  | flush (amount : ℕ)
  | reclaim (amount : ℕ)
  | earn (amount : ℕ)

structure Register (User : Type) where
  trading : Bool
  deposited : ℕ
  withdrawn : ℕ
  flushed : ℕ
  returned : ℕ
  fees : ℕ
  supply : ℕ
  held : User → ℕ

/-- Shares given up by `user`. -/
def Entry.givenUp [DecidableEq User] (user : User) : Entry User → ℕ
  | .withdraw holder shares => if holder = user then shares else 0
  | _ => 0

namespace Register

def value (register : Register User) : ℕ :=
  register.deposited + register.returned +
    (bif register.trading then register.fees else 0) -
      (register.withdrawn + register.flushed)

def pot (register : Register User) : Pot :=
  ⟨register.value, register.supply⟩

/-- The shares a deposit buys, one for a unit when there are none yet. -/
def minted (register : Register User) (amount : ℕ) : ℕ :=
  if register.supply = 0 then amount else register.pot.mint amount

variable [DecidableEq User]

def post (register : Register User) : Entry User → Option (Register User)
  | .deposit user amount =>
      let shares := register.minted amount
      if 0 < shares ∧ (register.supply = 0 ∨ 0 < register.value) then
        some { register with
          deposited := register.deposited + amount
          supply := register.supply + shares
          held := Function.update register.held user
            (register.held user + shares) }
      else none
  | .withdraw user shares =>
      let payout := register.pot.redeem shares
      if 0 < payout ∧ shares ≤ register.held user then
        some { register with
          withdrawn := register.withdrawn + payout
          supply := register.supply - shares
          held := Function.update register.held user
            (register.held user - shares) }
      else none
  | .flush amount =>
      if register.trading = false ∧ amount ≤ register.value then
        some { register with flushed := register.flushed + amount }
      else none
  | .reclaim amount =>
      if register.trading = false then
        some { register with returned := register.returned + amount }
      else none
  | .earn amount =>
      if register.trading = true ∧ (amount = 0 ∨ 0 < register.supply) then
        some { register with fees := register.fees + amount }
      else none

/-- The books after the whole log, if no entry is refused. -/
def replay (register : Register User) :
    List (Entry User) → Option (Register User)
  | [] => some register
  | entry :: rest => (register.post entry).bind fun posted => posted.replay rest

theorem replay_append {register middle : Register User}
    {entries : List (Entry User)} (h : register.replay entries = some middle)
    (later : List (Entry User)) :
    register.replay (entries ++ later) = middle.replay later := by
  induction entries generalizing register with
  | nil =>
      cases h
      rfl
  | cons entry rest ih =>
      simp only [replay, Option.bind_eq_some_iff] at h
      obtain ⟨posted, hposted, hrest⟩ := h
      rw [List.cons_append, replay, hposted, Option.bind_some, ih hrest]

/-! ## Who does not deposit -/

/-- Without a deposit of the user an entry only takes from what they hold. -/
theorem held_post {register register' : Register User} {entry : Entry User}
    {user : User} (h : register.post entry = some register')
    (hentry : ∀ amount, entry ≠ .deposit user amount) :
    register'.held user + entry.givenUp user = register.held user := by
  cases entry with
  | deposit holder amount =>
      have hne : user ≠ holder := by
        rintro rfl
        exact hentry amount rfl
      simp only [post, Option.ite_none_right_eq_some, Option.some.injEq] at h
      obtain ⟨-, rfl⟩ := h
      exact Function.update_of_ne hne ..
  | withdraw holder shares =>
      simp only [post, Option.ite_none_right_eq_some, Option.some.injEq] at h
      obtain ⟨⟨-, hheld⟩, rfl⟩ := h
      by_cases hholder : holder = user
      · subst hholder
        simp only [Entry.givenUp, Function.update_self, if_pos]
        omega
      · simp only [Entry.givenUp, if_neg hholder]
        exact Function.update_of_ne (Ne.symm hholder) ..
  | flush amount =>
      simp only [post, Option.ite_none_right_eq_some, Option.some.injEq] at h
      obtain ⟨-, rfl⟩ := h
      rfl
  | reclaim amount =>
      simp only [post, Option.ite_none_right_eq_some, Option.some.injEq] at h
      obtain ⟨-, rfl⟩ := h
      rfl
  | earn amount =>
      simp only [post, Option.ite_none_right_eq_some, Option.some.injEq] at h
      obtain ⟨-, rfl⟩ := h
      rfl

theorem held_replay {register register' : Register User}
    {entries : List (Entry User)} {user : User}
    (h : register.replay entries = some register')
    (hentries : ∀ amount, .deposit user amount ∉ entries) :
    register'.held user + (entries.map (Entry.givenUp user)).sum =
      register.held user := by
  induction entries generalizing register with
  | nil =>
      cases h
      rfl
  | cons entry rest ih =>
      simp only [replay, Option.bind_eq_some_iff] at h
      obtain ⟨posted, hposted, hrest⟩ := h
      have hfirst := held_post hposted fun amount heq =>
        hentries amount (heq ▸ List.mem_cons_self)
      have hlater := ih hrest fun amount hmem =>
        hentries amount (List.mem_cons_of_mem _ hmem)
      rw [List.map_cons, List.sum_cons]
      omega

/-! ## Posting what a ledger does -/

/-- The part of a ledger that a register keeps. -/
def ofLedger (ledger : Ledger) (held : User → ℕ) : Register User where
  trading := ledger.trading
  deposited := ledger.deposited
  withdrawn := ledger.withdrawn
  flushed := ledger.flushed
  returned := ledger.returned
  fees := ledger.fees
  supply := ledger.supply
  held := held

section Ledgers

variable {ledger : Ledger} {held : User → ℕ} {user : User}

theorem post_deposit {amount shares : ℕ}
    (h : ledger.Allowed (.deposit amount shares)) :
    (ofLedger ledger held).post (.deposit user amount) =
      some (ofLedger (ledger.apply (.deposit amount shares))
        (Function.update held user (held user + shares))) := by
  obtain ⟨-, hshares, hprice⟩ := h
  have hminted : (ofLedger ledger held).minted amount = shares := by
    unfold minted
    by_cases hsupply : ledger.supply = 0
    · rw [if_pos hsupply] at hprice
      exact (if_pos hsupply).trans hprice.symm
    · rw [if_neg hsupply] at hprice
      exact (if_neg hsupply).trans hprice.2.symm
  have hopen : ledger.supply = 0 ∨ 0 < ledger.value := by
    by_cases hsupply : ledger.supply = 0
    · exact .inl hsupply
    · rw [if_neg hsupply] at hprice
      exact .inr hprice.1
  simp only [post, hminted]
  exact if_pos ⟨hshares, hopen⟩

theorem post_withdraw {shares payout : ℕ}
    (h : ledger.Allowed (.withdraw shares payout))
    (hheld : shares ≤ held user) :
    (ofLedger ledger held).post (.withdraw user shares) =
      some (ofLedger (ledger.apply (.withdraw shares payout))
        (Function.update held user (held user - shares))) := by
  obtain ⟨-, -, hpayout, hpaid, -⟩ := h
  have hpot : (ofLedger ledger held).pot = ledger.pot := rfl
  simp only [post, hpot, ← hpayout]
  exact if_pos ⟨hpaid, hheld⟩

theorem post_flush {amount : ℕ} (h : ledger.Allowed (.flush amount)) :
    (ofLedger ledger held).post (.flush amount) =
      some (ofLedger (ledger.apply (.flush amount)) held) :=
  if_pos ⟨h.1, h.2.1⟩

theorem post_reclaim {amount : ℕ} (h : ledger.Allowed (.reclaim amount)) :
    (ofLedger ledger held).post (.reclaim amount) =
      some (ofLedger (ledger.apply (.reclaim amount)) held) :=
  if_pos h

theorem post_settle (h : ledger.Allowed .settle) :
    (ofLedger ledger held).post (.earn 0) =
      some (ofLedger (ledger.apply .settle) held) :=
  if_pos ⟨h.1, .inl rfl⟩

theorem post_book (h : ledger.Allowed .book) :
    (ofLedger ledger held).post (.earn (ledger.vault - ledger.expected)) =
      some (ofLedger (ledger.apply .book) held) :=
  if_pos ⟨h.1, .inr h.2⟩

end Ledgers

end Register

end ShareRegister
