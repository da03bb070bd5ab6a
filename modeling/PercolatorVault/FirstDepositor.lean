import PercolatorVault.LpConservation

/-!
# The first depositor

Whoever deposits first owns all LP, and may raise the price of the next LP by
sending collateral to the vault and running the crank.  What the next
depositor loses to rounding then goes to the shares there were before.  This
file says exactly when the first depositor comes out ahead.
-/

namespace PercolatorVault

open CheckedArithmetic
open FiniteTallies
open ProportionalShares
open ShareLedger

section Attack

variable {Pubkey : Type} [DecidableEq Pubkey] [Inhabited Pubkey]
  {rt : Runtime Pubkey} {empty donated ready exited : Bank Pubkey}
  {key attacker victim : Pubkey} {seed stake lpAmount : U64} {donation : ℕ}

/-- After the first deposit its maker owns the whole pot, and the crank
expects just the deposit. -/
theorem Calls.firstDeposit_owns
    (hdeposit : Calls rt key empty [.deposit attacker seed] donated)
    (hempty : Reachable rt empty) {view : PoolView Pubkey}
    (hview : Shows rt.toDeployment empty key view)
    (htrading : view.pool.poolMode = 1)
    (hsupply : view.pool.totalLpSupply.toNat = 0)
    (hoffset : view.pool.preSupplyVaultOffset.toNat = 0) :
    ∃ view', Reachable rt donated ∧
      Shows rt.toDeployment donated key view' ∧
      view'.pool.vault = view.pool.vault ∧
      0 < seed.toNat ∧ view'.pool.pot = ⟨seed.toNat, seed.toNat⟩ ∧
      view'.ledger.expected = seed.toNat ∧
      weigh StakeDeposit.weight (view'.records attacker) = seed.toNat := by
  obtain ⟨operation, view', hoperates, hdonated, hview'⟩ :=
    hdeposit.singleton_operates hempty hview
  have hcoherent := hempty.coherent hview
  have hmode : view.ledger.trading = true :=
    PoolView.ledger_trading.mpr htrading
  have hvalue : view.pool.bookValue = 0 := by
    rw [← view.ledger_value]
    exact (hcoherent.shared hmode).mp hsupply
  have hpot : view'.pool.pot = ⟨seed.toNat, seed.toNat⟩ := by
    rw [hoperates.firstDeposit_pot hcoherent hsupply]
    simp only [StakePool.pot, Pot.issue, hvalue, hsupply, Nat.zero_add]
  have hissued : view'.pool.totalLpSupply.toNat = seed.toNat :=
    congrArg Pot.supply hpot
  have hrecord := hempty.weigh_le hview attacker
  have hcredited := hoperates.credited attacker seed rfl
  obtain ⟨shares, rfl⟩ := hoperates.performs.of_deposit
  obtain ⟨received, hledger⟩ := hoperates.ledger
  have hmode' : view'.ledger.trading = true := by
    rw [hledger]
    exact hmode
  have hoffset' : view'.ledger.offset = 0 := by
    rw [hledger]
    exact hoffset
  have hvalue' : view'.ledger.value = seed.toNat := by
    rw [view'.ledger_value]
    exact congrArg Pot.value hpot
  refine ⟨view', hdonated, hview', hoperates.accounts.vault,
    hoperates.allowed.1, hpot, ?_, by omega⟩
  rw [(hdonated.coherent hview').expected_eq hmode', hvalue', hoffset',
    Nat.add_zero]

/-- Before the exit the attacker's LP is what the first deposit minted, in a
pot of everything the vault held at the crank and the victim's stake. -/
theorem Calls.inflated_pot
    (hvictim : Calls rt key donated
      [.accrueFees, .deposit victim stake] ready)
    (hdonated : Reachable rt donated) (hother : attacker ≠ victim)
    {view : PoolView Pubkey} (hview : Shows rt.toDeployment donated key view)
    (hseed : 0 < seed.toNat)
    (hpot : view.pool.pot = ⟨seed.toNat, seed.toNat⟩)
    (hexpected : view.ledger.expected = seed.toNat)
    (hheld : seed.toNat ≤ view.vaultAmount.toNat) :
    ∃ view', Reachable rt ready ∧ Shows rt.toDeployment ready key view' ∧
      view'.pool.pot =
        (Pot.mk view.vaultAmount.toNat seed.toNat).issue stake.toNat
          ((Pot.mk view.vaultAmount.toNat seed.toNat).mint stake.toNat) ∧
      view'.records attacker = view.records attacker := by
  obtain ⟨_, next, inflated, hbooked, hnext, hinflated, hcalls⟩ :=
    hvictim.cons_operates hdonated hview
  obtain ⟨_, view', hminted, hready, hview'⟩ :=
    hcalls.singleton_operates hnext hinflated
  have hsupply : view.pool.totalLpSupply.toNat = seed.toNat :=
    congrArg Pot.supply hpot
  have hgain := hbooked.accrueFees_pot (hdonated.coherent hview) (by omega)
  have hinflatedPot : inflated.pool.pot =
      ⟨view.vaultAmount.toNat, seed.toNat⟩ := by
    rw [hgain, hpot, hexpected]
    simp only [Pot.gain, Pot.mk.injEq, and_true]
    exact Nat.add_sub_of_le hheld
  have hinflatedSupply : inflated.pool.totalLpSupply.toNat = seed.toNat :=
    congrArg Pot.supply hinflatedPot
  obtain ⟨-, hissued⟩ :=
    hminted.deposit_pot (hnext.coherent hinflated) (by omega)
  refine ⟨view', hready, hview', ?_, ?_⟩
  · rw [hissued, hinflatedPot]
  · rw [hminted.records attacker, hbooked.records attacker]
    · simp [PoolEvent.user?]
    · intro heq
      exact hother (Option.some.inj heq).symm

/-- The attacker gets back no more than went in exactly when the vault was
empty to begin with and the victim loses little enough to rounding. -/
theorem Calls.donationAttack_le_iff (hempty : Reachable rt empty)
    {pool pool' pool'' : StakePool Pubkey}
    (hpool : rt.PoolAt empty key pool) (htrading : pool.poolMode = 1)
    (hsupply : pool.totalLpSupply = 0)
    (hoffset : pool.preSupplyVaultOffset = 0)
    {balance balance' : TokenAccount Pubkey}
    (hbalance : rt.TokenAt empty pool.vault balance)
    (hdeposit : Calls rt key empty [.deposit attacker seed] donated)
    (hbalance' : rt.TokenAt donated pool.vault balance')
    (hdonation : balance'.amount.toNat =
      balance.amount.toNat + seed.toNat + donation)
    (hvictim : Calls rt key donated
      [.accrueFees, .deposit victim stake] ready)
    (hother : attacker ≠ victim)
    (hall : lpRecorded rt.toDeployment ready
      (rt.deriveDepositPda key attacker).1 = lpAmount.toNat)
    (hexit : Calls rt key ready [.withdraw attacker lpAmount] exited)
    (hpool' : rt.PoolAt ready key pool')
    (hpool'' : rt.PoolAt exited key pool'') :
    pool''.totalWithdrawn.toNat ≤
        pool'.totalWithdrawn.toNat + (seed.toNat + donation) ↔
      balance.amount.toNat = 0 ∧
        stake.toNat * seed.toNat % (seed.toNat + donation) <
          seed.toNat + stake.toNat * seed.toNat / (seed.toNat + donation) := by
  obtain ⟨view, rfl, hview⟩ := hempty.shows_pool hpool
  obtain ⟨owned, hdonated, howned, haddress, hseed, hpot, hexpected,
    hrecord⟩ := hdeposit.firstDeposit_owns hempty hview htrading
      (by rw [hsupply]; rfl) (by rw [hoffset]; rfl)
  have hvault : owned.vaultAmount.toNat =
      balance.amount.toNat + seed.toNat + donation := by
    rw [← hdonation]
    rw [← haddress] at hbalance'
    rw [← howned.vault.unique hbalance']
  obtain ⟨inflated, hready, hinflated, hissued, hkept⟩ :=
    hvictim.inflated_pot hdonated hother howned hseed hpot hexpected
      (by omega)
  cases hinflated.pool.unique hpool'
  obtain ⟨_, view'', hexited, -, hview''⟩ :=
    hexit.singleton_operates hready hinflated
  cases hview''.pool.unique hpool''
  have hlp : lpAmount.toNat = seed.toNat := by
    rw [← hall, ← hrecord, ← hkept, hinflated.records]
    rfl
  rw [hexited.withdraw_pays, hissued, hlp, hvault,
    Nat.add_le_add_iff_left]
  have hkeeps := (Pot.mk (balance.amount.toNat + seed.toNat + donation)
    seed.toNat).value_le_redeem_issue stake.toNat (by dsimp only; omega) hseed
  have hgains := (Pot.mk (seed.toNat + donation)
    seed.toNat).redeem_issue_le_iff stake.toNat hseed
  dsimp only at hkeeps hgains
  constructor
  · intro hle
    have hdust : balance.amount.toNat = 0 := by omega
    rw [hdust, Nat.zero_add] at hle
    exact ⟨hdust, hgains.mp hle⟩
  · rintro ⟨hdust, hrounding⟩
    rw [hdust, Nat.zero_add]
    exact hgains.mpr hrounding

end Attack

namespace Reference

def emptyMarket : List (Transaction Address) :=
  [initTradingPool 10, openLpAccount alice, openLpAccount bob]

def seedWith (seed donation : U64) : List (Transaction Address) :=
  [deposit alice seed, donate donation]

def joinWith (stake : U64) : List (Transaction Address) :=
  [accrueFees, deposit bob stake, waitUntil 1100 1]

theorem calls_seedWith {bank : Bank Address} {seed donation : U64}
    (h : acceptsAll bank (seedWith seed donation) = true) :
    Calls runtime poolKey bank [.deposit alice.key seed]
      (Transaction.performAll runtime bank (seedWith seed donation)) := by
  obtain ⟨hdeposit, hrest⟩ := acceptsAll_cons h
  obtain ⟨hdonate, -⟩ := acceptsAll_cons hrest
  exact .cons (step_of_accepts hdeposit) rfl
    (.single (step_of_accepts hdonate) rfl) (.nil _)

theorem calls_joinWith {bank : Bank Address} {stake : U64}
    (h : acceptsAll bank (joinWith stake) = true) :
    Calls runtime poolKey bank [.accrueFees, .deposit bob.key stake]
      (Transaction.performAll runtime bank (joinWith stake)) := by
  obtain ⟨hcrank, hrest⟩ := acceptsAll_cons h
  obtain ⟨hdeposit, hrest⟩ := acceptsAll_cons hrest
  obtain ⟨hwait, -⟩ := acceptsAll_cons hrest
  exact .cons (step_of_accepts hcrank) rfl (.refl _ _ _)
    (.cons (step_of_accepts hdeposit) rfl
      (.single (step_of_accepts hwait) rfl) (.nil _))

/-- Alice deposits 1 and donates 100; bob deposits 150 and gets one LP where
the price asks for almost one and a half.  Alice leaves with 125. -/
theorem donationAttack_profits :
    let empty := bankAfter emptyMarket
    let donated := Transaction.performAll runtime empty (seedWith 1 100)
    let ready := Transaction.performAll runtime donated (joinWith 150)
    let exited := (withdraw alice 1).perform runtime ready
    ∃ pool pool' pool'' balance balance',
      Reachable runtime empty ∧ deployment.PoolAt empty poolKey pool ∧
      pool.poolMode = 1 ∧ pool.totalLpSupply = 0 ∧
      pool.totalPoolValue = some 0 ∧ pool.preSupplyVaultOffset = 0 ∧
      pool.hwmEnabled = false ∧
      deployment.TokenAt empty pool.vault balance ∧
      balance.amount.toNat = 0 ∧
      Calls runtime poolKey empty [.deposit alice.key 1] donated ∧
      deployment.TokenAt donated pool.vault balance' ∧
      balance'.amount.toNat = balance.amount.toNat + (1 + 100) ∧
      Calls runtime poolKey donated [.accrueFees, .deposit bob.key 150]
        ready ∧
      lpRecorded deployment ready (.stakeDeposit poolKey alice.key) = 1 ∧
      Calls runtime poolKey ready [.withdraw alice.key 1] exited ∧
      deployment.PoolAt ready poolKey pool' ∧
      deployment.PoolAt exited poolKey pool'' ∧
      pool''.totalWithdrawn.toNat = pool'.totalWithdrawn.toNat + 125 ∧
      ¬ pool''.totalWithdrawn.toNat ≤
        pool'.totalWithdrawn.toNat + (1 + 100) := by
  intro empty donated ready exited
  have hread : (poolIn empty).map (fun pool => (pool.poolMode,
      pool.totalLpSupply, pool.totalPoolValue, pool.preSupplyVaultOffset,
      pool.hwmEnabled, pool.vault)) =
        some (1, 0, some 0, 0, false, vault) := by decide +kernel
  have hread' : (poolIn ready).map (fun pool => pool.totalWithdrawn.toNat) =
      some 0 := by decide +kernel
  have hread'' : (poolIn exited).map (fun pool =>
      pool.totalWithdrawn.toNat) = some 125 := by decide +kernel
  have hvault : (vaultIn empty).map (fun balance =>
      balance.amount.toNat) = some 0 := by decide +kernel
  have hvault' : (vaultIn donated).map (fun balance =>
      balance.amount.toNat) = some 101 := by decide +kernel
  obtain ⟨pool, hpool, hnumbers⟩ := exists_poolAt hread
  obtain ⟨pool', hpool', hpaid'⟩ := exists_poolAt hread'
  obtain ⟨pool'', hpool'', hpaid''⟩ := exists_poolAt hread''
  obtain ⟨balance, hbalance, hamount⟩ := exists_vaultBalance hvault
  obtain ⟨balance', hbalance', hamount'⟩ := exists_vaultBalance hvault'
  simp only [Prod.mk.injEq] at hnumbers
  obtain ⟨hmode, hsupply, hvalue, hoffset, hmark, haddress⟩ := hnumbers
  rw [← haddress] at hbalance hbalance'
  have hseed : acceptsAll empty (seedWith 1 100) = true := by decide +kernel
  have hjoin : acceptsAll donated (joinWith 150) = true := by decide +kernel
  have hexit : acceptsAll ready [withdraw alice 1] = true := by
    decide +kernel
  have hall : lpRecorded deployment ready
      (.stakeDeposit poolKey alice.key) = 1 := by decide +kernel
  refine ⟨pool, pool', pool'', balance, balance',
    bankAfter_reachable (by decide +kernel), hpool, hmode, hsupply, hvalue,
    hoffset, hmark, hbalance, hamount, calls_seedWith hseed, hbalance', ?_,
    calls_joinWith hjoin, hall, calls_of_acceptsAll hexit, hpool', hpool'',
    ?_, ?_⟩ <;> omega

/-- At a price of two bob's deposit of 300 mints 150 LP and loses nothing, so
alice leaves with what she put in. -/
theorem evenDonation_le_iff :
    let empty := bankAfter emptyMarket
    let donated := Transaction.performAll runtime empty (seedWith 100 100)
    let ready := Transaction.performAll runtime donated (joinWith 300)
    let exited := (withdraw alice 100).perform runtime ready
    ∃ pool' pool'',
      deployment.PoolAt ready poolKey pool' ∧
      deployment.PoolAt exited poolKey pool'' ∧
      (pool''.totalWithdrawn.toNat ≤
          pool'.totalWithdrawn.toNat + (100 + 100) ↔
        0 = 0 ∧ 300 * 100 % (100 + 100) < 100 + 300 * 100 / (100 + 100)) := by
  intro empty donated ready exited
  have hread : (poolIn empty).map (fun pool => (pool.poolMode,
      pool.totalLpSupply, pool.preSupplyVaultOffset, pool.vault)) =
        some (1, 0, 0, vault) := by decide +kernel
  have hread' : (poolIn ready).map (fun _ => ()) = some () := by
    decide +kernel
  have hread'' : (poolIn exited).map (fun _ => ()) = some () := by
    decide +kernel
  have hvault : (vaultIn empty).map (fun balance =>
      balance.amount.toNat) = some 0 := by decide +kernel
  have hvault' : (vaultIn donated).map (fun balance =>
      balance.amount.toNat) = some 200 := by decide +kernel
  obtain ⟨pool, hpool, hnumbers⟩ := exists_poolAt hread
  obtain ⟨pool', hpool', -⟩ := exists_poolAt hread'
  obtain ⟨pool'', hpool'', -⟩ := exists_poolAt hread''
  obtain ⟨balance, hbalance, hamount⟩ := exists_vaultBalance hvault
  obtain ⟨balance', hbalance', hamount'⟩ := exists_vaultBalance hvault'
  simp only [Prod.mk.injEq] at hnumbers
  obtain ⟨hmode, hsupply, hoffset, haddress⟩ := hnumbers
  rw [← haddress] at hbalance hbalance'
  have hseed : acceptsAll empty (seedWith 100 100) = true := by
    decide +kernel
  have hjoin : acceptsAll donated (joinWith 300) = true := by decide +kernel
  have hexit : acceptsAll ready [withdraw alice 100] = true := by
    decide +kernel
  have hall : lpRecorded deployment ready
      (runtime.deriveDepositPda poolKey alice.key).1 = (100 : U64).toNat := by
    decide +kernel
  have hdonation : balance'.amount.toNat =
      balance.amount.toNat + (100 : U64).toNat + 100 := by
    rw [hamount, hamount']
    rfl
  have hother : alice.key ≠ bob.key := by decide
  have hiff := Calls.donationAttack_le_iff
    (bankAfter_reachable (by decide +kernel)) hpool hmode hsupply hoffset
    hbalance (calls_seedWith hseed) hbalance' hdonation (calls_joinWith hjoin)
    hother hall (calls_of_acceptsAll hexit) hpool' hpool''
  rw [hamount] at hiff
  exact ⟨pool', pool'', hpool', hpool'', hiff⟩

end Reference

end PercolatorVault
