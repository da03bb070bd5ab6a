import PercolatorVault.LpConservation
import PercolatorVault.ShareRegister

/-!
# Auditing a pool from its log

The accepted instructions that name a pool, with the fees its cranks booked,
determine its books: an auditor who posts them to a register arrives at the
totals of the pool record and at every user's LP.  Nothing else counts, not
what was sent to the vault or burned, nor the admin's configuration, nor other
pools, nor what was rejected.
-/

namespace PercolatorVault

open CheckedArithmetic
open FallibleSteps
open FiniteTallies
open ShareLedger
open ShareRegister

variable {Pubkey : Type}

/-! ## The log -/

def PoolEvent.isLogged : PoolEvent Pubkey → Bool
  | .administer => false
  | .idle => false
  | _ => true

/-- The entry an auditor posts.  The fees a crank books are not part of the
instruction. -/
def PoolEvent.Posts : PoolEvent Pubkey → Entry Pubkey → Prop
  | .deposit user amount, .deposit user' amount' =>
      user' = user ∧ amount' = amount.toNat
  | .withdraw user lpAmount, .withdraw user' shares =>
      user' = user ∧ shares = lpAmount.toNat
  | .flush amount, .flush amount' => amount' = amount.toNat
  | .returnInsurance amount, .reclaim amount' => amount' = amount.toNat
  | .accrueFees, .earn _ => True
  | _, _ => False

/-- LP withdrawn by `user`. -/
def PoolEvent.lpWithdrawn [DecidableEq Pubkey] (user : Pubkey) :
    PoolEvent Pubkey → ℕ
  | .withdraw holder lpAmount => if holder = user then lpAmount.toNat else 0
  | _ => 0

/-- What an auditor of the pool at `key` sees of a run. -/
def logAt [DecidableEq Pubkey] (key : Pubkey) (events : List (Event Pubkey)) :
    List (PoolEvent Pubkey) :=
  (events.map (Event.seenBy key)).filter PoolEvent.isLogged

def PoolView.held (view : PoolView Pubkey) (user : Pubkey) : ℕ :=
  weigh StakeDeposit.weight (view.records user)

def PoolView.register (view : PoolView Pubkey) : Register Pubkey :=
  Register.ofLedger view.ledger view.held

theorem Drift.register {burned : ℕ} {view view' : PoolView Pubkey}
    (h : Drift burned view view') : view'.register = view.register := by
  have hheld : view'.held = view.held := by
    unfold PoolView.held
    rw [h.records]
  unfold PoolView.register
  rw [hheld, h.ledger_apply]
  rfl

section Books

variable [DecidableEq Pubkey]

/-- The books of the pool at `key`, read from the accounts. -/
def registerAt (d : Deployment Pubkey) (bank : Bank Pubkey) (key : Pubkey)
    (pool : StakePool Pubkey) : Register Pubkey where
  trading := pool.poolMode = 1
  deposited := pool.totalDeposited.toNat
  withdrawn := pool.totalWithdrawn.toNat
  flushed := pool.totalFlushed.toNat
  returned := pool.totalReturned.toNat
  fees := pool.totalFeesEarned.toNat
  supply := pool.totalLpSupply.toNat
  held := fun user => lpRecorded d bank (d.deriveDepositPda key user).1

theorem Shows.registerAt_eq {d : Deployment Pubkey} {bank : Bank Pubkey}
    {key : Pubkey} {view : PoolView Pubkey} (h : Shows d bank key view) :
    registerAt d bank key view.pool = view.register := by
  have hheld : (fun user =>
      lpRecorded d bank (d.deriveDepositPda key user).1) = view.held := by
    funext user
    unfold PoolView.held
    rw [h.records]
    rfl
  unfold registerAt
  rw [hheld]
  rfl

/-! ## Posting one step -/

/-- Writing one record writes one holding. -/
theorem PoolView.held_update (view : PoolView Pubkey) (user : Pubkey)
    (record : StakeDeposit Pubkey) (pool : StakePool Pubkey)
    (vaultAmount lpMintSupply : U64) :
    PoolView.held ⟨pool, vaultAmount, lpMintSupply,
        Function.update view.records user (some record)⟩ =
      Function.update view.held user record.lpAmount.toNat := by
  funext holder
  unfold PoolView.held
  dsimp only
  by_cases hholder : holder = user
  · rw [hholder, Function.update_self, Function.update_self]
    rfl
  · rw [Function.update_of_ne hholder, Function.update_of_ne hholder]

variable [Inhabited Pubkey] {d : Deployment Pubkey} {key : Pubkey}
  {clock : Clock} {event : PoolEvent Pubkey} {view view' : PoolView Pubkey}

/-- A step that is logged is posted, and any other leaves the books alone. -/
theorem PoolStep.posted (hstep : PoolStep d key clock event view view') :
    ∃ entries,
      List.Forall₂ PoolEvent.Posts ([event].filter PoolEvent.isLogged)
        entries ∧
      view.register.replay entries = some view'.register := by
  have hoperation := hstep.ledger_apply
  cases hstep with
  | @deposit _ user amount lp pool record vaultAmount lpMintSupply hamount _
      _ _ hlp hminted hpool hrecord hvault _ =>
      obtain ⟨hallowed, hledger⟩ :=
        PoolStep.deposit_ledger hamount hlp hminted hpool hvault
      have hcredit := (StakeDeposit.creditLp_eq_ok hrecord).1
      rw [(StakeDeposit.bind_fields _ _ _ _).1, ← StakeDeposit.weigh_getD]
        at hcredit
      refine ⟨[.deposit user amount.toNat], .cons ⟨rfl, rfl⟩ .nil, ?_⟩
      rw [Register.replay, PoolView.register,
        Register.post_deposit hallowed, PoolView.register, hledger,
        PoolView.held_update, hcredit]
      rfl
  | @withdraw _ user lpAmount collateral guarded pool record remaining
      vaultAmount lpMintSupply hamount hrecord _ hcollateral hpaid hfloor
      hpool hremaining hvault _ =>
      obtain ⟨hallowed, hledger⟩ := PoolStep.withdraw_ledger
        hamount hcollateral hpaid hfloor hpool hvault
      have hdebit := StakeDeposit.debitLp_eq_ok hremaining
      have hholding : view.held user = record.lpAmount.toNat := by
        unfold PoolView.held
        rw [hrecord]
        rfl
      have hheld : lpAmount.toNat ≤ view.held user := by omega
      have hleft : remaining.lpAmount.toNat =
          view.held user - lpAmount.toNat := by
        omega
      refine ⟨[.withdraw user lpAmount.toNat], .cons ⟨rfl, rfl⟩ .nil, ?_⟩
      rw [Register.replay, PoolView.register,
        Register.post_withdraw hallowed hheld, PoolView.register, hledger,
        PoolView.held_update, hleft]
      rfl
  | @flush _ amount _ _ _ _ _ _ _ _ _ =>
      obtain ⟨operation, hperforms, hallowed, hledger⟩ := hoperation
      cases hperforms.of_flush
      refine ⟨[.flush amount.toNat], .cons rfl .nil, ?_⟩
      rw [Register.replay, PoolView.register, Register.post_flush hallowed,
        PoolView.register, hledger]
      rfl
  | @returnInsurance _ amount _ _ _ _ _ =>
      obtain ⟨operation, hperforms, hallowed, hledger⟩ := hoperation
      cases hperforms.of_returnInsurance
      refine ⟨[.reclaim amount.toNat], .cons rfl .nil, ?_⟩
      rw [Register.replay, PoolView.register,
        Register.post_reclaim hallowed, PoolView.register, hledger]
      rfl
  | @accrueFees _ pool hmode hpool =>
      obtain ⟨operation, hkind, hallowed, hledger⟩ :=
        PoolStep.accrue_ledger hmode hpool
      rcases hkind with rfl | rfl
      · refine ⟨[.earn 0], .cons trivial .nil, ?_⟩
        rw [Register.replay, PoolView.register,
          Register.post_settle hallowed, PoolView.register, hledger]
        rfl
      · refine ⟨[.earn (view.ledger.vault - view.ledger.expected)],
          .cons trivial .nil, ?_⟩
        rw [Register.replay, PoolView.register,
          Register.post_book hallowed, PoolView.register, hledger]
        rfl
  | @administer _ pool hpool =>
      obtain ⟨_, _, _, _, rfl, -, -, -⟩ := StakePool.administered_eq hpool
      exact ⟨[], .nil, rfl⟩
  | idle => exact ⟨[], .nil, rfl⟩

/-! ## Posting a run -/

variable {rt : Runtime Pubkey} {before after : Bank Pubkey}
  {events : List (Event Pubkey)}

omit [Inhabited Pubkey] in
theorem logAt_append (key : Pubkey) (events : List (Event Pubkey))
    (event : Event Pubkey) :
    logAt key (events ++ [event]) =
      logAt key events ++ [event.seenBy key].filter PoolEvent.isLogged := by
  unfold logAt
  rw [List.map_append, List.filter_append]
  rfl

theorem Run.posted (hrun : Run rt before events after)
    (hbefore : Sound rt.toDeployment before)
    (hview : Shows rt.toDeployment before key view)
    (hview' : Shows rt.toDeployment after key view') :
    ∃ entries, List.Forall₂ PoolEvent.Posts (logAt key events) entries ∧
      view.register.replay entries = some view'.register := by
  induction hrun generalizing view' with
  | start =>
      cases hview.unique hview'
      exact ⟨[], .nil, rfl⟩
  | @step earlier event middle after hrun hstep ih =>
      obtain ⟨reached, hreached, -⟩ := hrun.shows hbefore hview
      obtain ⟨entries, hposts, hreplay⟩ := ih hreached
      obtain ⟨stepped, later, hpool, hdrift, hlater, -⟩ :=
        hstep.poolStep (hrun.sound hbefore) hreached
      cases hlater.unique hview'
      obtain ⟨posted, hposted, hlast⟩ := hpool.posted
      refine ⟨entries ++ posted, ?_, ?_⟩
      · rw [logAt_append]
        exact List.rel_append hposts hposted
      · rw [Register.replay_append hreplay, hlast, hdrift.register]

omit [Inhabited Pubkey] in
theorem PoolEvent.Posts.givenUp {event : PoolEvent Pubkey}
    {entry : Entry Pubkey} (h : event.Posts entry) (user : Pubkey) :
    entry.givenUp user = event.lpWithdrawn user := by
  cases event with
  | withdraw holder lpAmount =>
      cases entry with
      | withdraw holder' shares =>
          obtain ⟨rfl, rfl⟩ := h
          rfl
      | _ => cases h
  | _ =>
      cases entry with
      | withdraw => cases h
      | _ => rfl

omit [Inhabited Pubkey] in
theorem givenUp_of_posts {log : List (PoolEvent Pubkey)}
    {entries : List (Entry Pubkey)}
    (h : List.Forall₂ PoolEvent.Posts log entries) (user : Pubkey) :
    (entries.map (Entry.givenUp user)).sum =
      (log.map (PoolEvent.lpWithdrawn user)).sum := by
  induction h with
  | nil => rfl
  | cons hposts _ ih =>
      rw [List.map_cons, List.map_cons, List.sum_cons, List.sum_cons, ih,
        hposts.givenUp]

omit [DecidableEq Pubkey] [Inhabited Pubkey] in
theorem deposit_mem_of_posts {log : List (PoolEvent Pubkey)}
    {entries : List (Entry Pubkey)} {user : Pubkey} {amount : ℕ}
    (h : List.Forall₂ PoolEvent.Posts log entries)
    (hmem : .deposit user amount ∈ entries) :
    ∃ amount, .deposit user amount ∈ log := by
  induction h with
  | nil => cases hmem
  | @cons event entry _ _ hposts _ ih =>
      rcases List.mem_cons.mp hmem with rfl | hrest
      · cases event with
        | deposit holder paid =>
            obtain ⟨rfl, -⟩ := hposts
            exact ⟨paid, List.mem_cons_self⟩
        | _ => cases hposts
      · obtain ⟨paid, hpaid⟩ := ih hrest
        exact ⟨paid, List.mem_cons_of_mem _ hpaid⟩

/-- Replaying the log gives the books, so a user who did not deposit has
withdrawn exactly what their record lost. -/
theorem Run.books_replayed {pool : StakePool Pubkey} (h : Reachable rt before)
    (hrun : Run rt before events after) (hpool : rt.PoolAt before key pool) :
    ∃ pool' entries, rt.PoolAt after key pool' ∧
      List.Forall₂ PoolEvent.Posts (logAt key events) entries ∧
      (registerAt rt.toDeployment before key pool).replay entries =
        some (registerAt rt.toDeployment after key pool') ∧
      ∀ user, (∀ amount, .deposit user amount ∉ logAt key events) →
        lpRecorded rt.toDeployment after (rt.deriveDepositPda key user).1 +
            ((logAt key events).map (PoolEvent.lpWithdrawn user)).sum =
          lpRecorded rt.toDeployment before
            (rt.deriveDepositPda key user).1 := by
  obtain ⟨view, rfl, hview⟩ := h.shows_pool hpool
  obtain ⟨view', hview', -⟩ := hrun.shows h.sound hview
  obtain ⟨entries, hposts, hreplay⟩ := hrun.posted h.sound hview hview'
  rw [← hview.registerAt_eq, ← hview'.registerAt_eq] at hreplay
  refine ⟨view'.pool, entries, hview'.pool, hposts, hreplay, ?_⟩
  intro user huser
  rw [← givenUp_of_posts hposts]
  refine Register.held_replay hreplay fun amount hmem => ?_
  obtain ⟨paid, hpaid⟩ := deposit_mem_of_posts hposts hmem
  exact huser paid hpaid

end Books

namespace Reference

/-- Two holders of a trading pool. -/
def auditedMarket : List (Transaction Address) :=
  [initTradingPool 10, openLpAccount alice, openLpAccount bob,
    deposit alice 1000, deposit bob 300]

def auditedTrades : List (Transaction Address) :=
  [donate 50, accrueFees, burnLp alice 10, waitUntil 1200 1,
    withdraw bob 100, setHwmConfig true 5000, donate 7, deposit alice 200]

/-- Three of the eight transactions are posted, and bob's record lost the 100
that he withdrew. -/
theorem auditedTrades_books_replayed :
    let after := Transaction.performAll runtime (bankAfter auditedMarket)
      auditedTrades
    ∃ pool pool' entries,
      deployment.PoolAt (bankAfter auditedMarket) poolKey pool ∧
        deployment.PoolAt after poolKey pool' ∧
        List.Forall₂ PoolEvent.Posts
          [.accrueFees, .withdraw bob.key 100, .deposit alice.key 200]
          entries ∧
        (registerAt deployment (bankAfter auditedMarket) poolKey
            pool).replay entries =
          some (registerAt deployment after poolKey pool') ∧
        lpRecorded deployment after (.stakeDeposit poolKey bob.key) + 100 =
          300 := by
  intro after
  have hread : (poolIn (bankAfter auditedMarket)).map (fun _ => ()) =
      some () := by decide +kernel
  obtain ⟨pool, hpool, -⟩ := exists_poolAt hread
  have hlog : logAt poolKey (auditedTrades.map Transaction.event) =
      [.accrueFees, .withdraw bob.key 100, .deposit alice.key 200] := by
    decide +kernel
  have hrun := run_of_acceptsAll
    (show acceptsAll (bankAfter auditedMarket) auditedTrades = true by
      decide +kernel)
  obtain ⟨pool', entries, hpool', hposts, hreplay, huser⟩ :=
    Run.books_replayed (bankAfter_reachable (by decide +kernel)) hrun hpool
  rw [hlog] at hposts huser
  refine ⟨pool, pool', entries, hpool, hpool', hposts, hreplay, ?_⟩
  have hbob := huser bob.key (by
    intro amount hmem
    simp [alice, bob] at hmem)
  have hheld : lpRecorded deployment (bankAfter auditedMarket)
      (.stakeDeposit poolKey bob.key) = 300 := by decide +kernel
  exact hbob.trans hheld

end Reference

end PercolatorVault
