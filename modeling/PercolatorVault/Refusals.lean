import PercolatorVault.DepositAcceptance

/-!
# Why an instruction is refused

With valid accounts a withdrawal or deposit is answered by the first check it
fails, in the order of the handler.  On a reachable pool no other error is
possible before the calls, and after them a withdrawal cannot fail.
-/

namespace PercolatorVault

open CheckedArithmetic
open FallibleSteps

variable {Pubkey : Type}

/-! ## Withdrawals -/

/-- The first check a withdrawal fails, in the order of the handler. -/
def StakePool.withdrawRefusal (pool : StakePool Pubkey)
    (record : StakeDeposit Pubkey) (clock : Clock) (lpAmount : ℕ) :
    Option ProgramError :=
  let collateral := pool.payout pool.bookValue lpAmount
  if lpAmount = 0 then some StakeError.zeroAmount
  else if clock.slot.toNat <
      min (record.lastDepositSlot.toNat + pool.cooldownSlots.toNat)
        (2 ^ 64 - 1) then
    some StakeError.cooldownNotElapsed
  else if record.lpAmount.toNat < lpAmount then
    some StakeError.insufficientLpTokens
  else if 2 ^ 64 ≤ pool.inflow then some StakeError.overflow
  else if collateral = 0 then some StakeError.zeroAmount
  else if pool.hwmEnabled = true ∧ pool.bookValue - collateral <
      pool.refreshedMark clock.epoch pool.bookValue *
        pool.hwmFloorBps.toNat / 10000 then
    some StakeError.withdrawalBelowHwmFloor
  else none

/-- What is not refused is allowed. -/
theorem StakePool.allowsWithdraw_of_unrefused {pool : StakePool Pubkey}
    {record : StakeDeposit Pubkey} {clock : Clock} {lpAmount : ℕ}
    (h : pool.withdrawRefusal record clock lpAmount = none) :
    pool.inflow < 2 ^ 64 ∧
      pool.AllowsWithdraw record clock pool.bookValue lpAmount := by
  simp only [withdrawRefusal, refuses_eq_none, not_lt, not_le, not_and,
    and_true] at h
  obtain ⟨hpositive, hunlocked, hheld, hfits, hpays, hfloor⟩ := h
  exact ⟨hfits, Nat.pos_of_ne_zero hpositive, hunlocked, hheld,
    Nat.pos_of_ne_zero hpays, hfloor⟩

theorem StakePool.enforceHwmFloor_refuses {pool : StakePool Pubkey}
    {epoch collateral value : U64}
    (hvalue : pool.totalPoolValue = some value)
    (hcovered : collateral.toNat ≤ value.toNat)
    (henabled : pool.hwmEnabled = true)
    (hfloor : value.toNat - collateral.toNat <
      pool.refreshedMark epoch value.toNat * pool.hwmFloorBps.toNat /
        10000) :
    enforceHwmFloor pool epoch collateral =
      .error (StakeError.withdrawalBelowHwmFloor : ProgramError) := by
  have hbps : (pool.refreshHwm epoch value).hwmFloorBps =
      pool.hwmFloorBps :=
    congrArg ReservedFields.hwmFloorBps
      (pool.reservedFields_refreshHwm epoch value)
  have hbelow : ¬ hwmWithdrawalAllowed (value - collateral)
      (pool.refreshHwm epoch value).epochHighWaterTvl
      (pool.refreshHwm epoch value).hwmFloorBps = true := by
    rw [hwmWithdrawalAllowed_iff, toNat_epochHighWaterTvl_refreshHwm, hbps,
      toNat_sub_of_le hcovered]
    omega
  unfold enforceHwmFloor
  rw [if_pos henabled, hvalue, Option.getD_some]
  simp only [checkedSub, if_pos hcovered, okOr, ok_bind,
    require_of_not hbelow, error_bind]

section Withdraw

variable [DecidableEq Pubkey] [Inhabited Pubkey] {rt : Runtime Pubkey}
  {before : Bank Pubkey} {accounts : List (AccountInfo Pubkey)}
  {a : WithdrawAccounts Pubkey} {pool : StakePool Pubkey}
  {held : TokenAccount Pubkey} {record : StakeDeposit Pubkey}
  {lpAmount : U64}

/-- For LP the pool counts only an overflowed value leaves the payout
undefined. -/
theorem Reachable.calcCollateralForWithdraw_eq_none
    (h : Reachable rt before) {view : PoolView Pubkey} {key : Pubkey}
    (hview : Shows rt.toDeployment before key view)
    (hpositive : 0 < lpAmount.toNat)
    (hsupply : lpAmount.toNat ≤ view.pool.totalLpSupply.toNat) :
    2 ^ 64 ≤ view.pool.inflow ↔
      view.pool.calcCollateralForWithdraw lpAmount = none := by
  have hcovered := (h.coherent hview).covered
  rw [view.ledger_inflow, view.ledger_outflow] at hcovered
  have hsome := StakePool.totalPoolValue_isSome_iff hcovered
  cases hvalue : view.pool.totalPoolValue with
  | none =>
      rw [hvalue, Option.isSome_none] at hsome
      rw [StakePool.calcCollateralForWithdraw, hvalue]
      simpa using hsome
  | some value =>
      rw [hvalue, Option.isSome_some] at hsome
      obtain ⟨collateral, -, hcalc, -⟩ :=
        h.exists_payout hview hvalue hpositive hsupply
      rw [hcalc]
      simpa using hsome

/-- With valid accounts a refused withdrawal fails with its first reason. -/
theorem processWithdraw_refused (hreachable : Reachable rt before)
    (hnext : WithdrawAccounts.next accounts = .ok a)
    (hvalid : a.Valid rt.toDeployment before pool held)
    (hrecord : rt.DepositAt before a.depositPda.key record)
    {error : ProgramError}
    (hrefusal : pool.withdrawRefusal record before.clock lpAmount.toNat =
      some error) :
    processWithdraw rt accounts lpAmount before = .error error := by
  obtain ⟨view, rfl, hview⟩ := hreachable.shows_pool hvalid.poolAt
  have hstanding := hreachable.standing hview
  have hpda := hrecord
  rw [hvalid.depositPda] at hpda
  obtain ⟨hnames, hrecordLe⟩ := hreachable.record_of_user hview hpda
  simp only [processWithdraw, verifyTokenProgram, Clock.fromAccountInfo,
    hnext, loadPool_of_poolAt hview.pool, loadDeposit_of_depositAt hrecord,
    require_of hvalid.signer, require_of hview.initialized,
    require_of (StakePool.validateDiscriminator_of_eq hstanding.discriminator),
    require_of hvalid.lpMint, require_of hvalid.vault,
    require_of hvalid.tokenProgram, require_of hvalid.vaultAuth,
    require_of hvalid.depositPda, require_of hvalid.clockSysvar,
    require_of hrecord.1, require_of hnames, ok_bind]
  -- The checks in their order.
  refine require_refuses hrefusal (by rw [toNat_eq_zero, not_not])
    fun hpositive hrefusal => ?_
  refine require_refuses hrefusal (by rw [toNat_saturatingAdd, not_le])
    fun _ hrefusal => ?_
  refine require_refuses hrefusal (by rw [not_le])
    fun hheld hrefusal => ?_
  have hsupply := hheld.trans hrecordLe
  refine okOr_refuses hrefusal
    (hreachable.calcCollateralForWithdraw_eq_none hview
      (toNat_pos.mpr hpositive) hsupply)
    fun collateral hcalc hrefusal => ?_
  obtain ⟨value, hvalue, -, hcollateral⟩ :=
    StakePool.calcCollateralForWithdraw_eq_some.mp hcalc
  have hpaid : view.pool.payout view.pool.bookValue lpAmount.toNat =
      collateral.toNat := by
    rw [(StakePool.bookValue_of_totalPoolValue hvalue).1, hcollateral]
    rfl
  rw [hpaid, (StakePool.bookValue_of_totalPoolValue hvalue).1] at hrefusal
  refine require_refuses hrefusal (by rw [toNat_eq_zero, not_not])
    fun _ hrefusal => ?_
  rw [Option.ite_none_right_eq_some, Option.some.injEq] at hrefusal
  obtain ⟨⟨henabled, hfloor⟩, rfl⟩ := hrefusal
  have hpart : collateral.toNat ≤ value.toNat := by
    rw [hcollateral]
    exact Nat.div_le_of_le_mul (Nat.mul_le_mul_right _ hsupply)
  rw [StakePool.enforceHwmFloor_refuses hvalue hpart henabled hfloor,
    error_bind]

/-- A withdrawal is answered by its first reason for refusal; without one it
goes through as soon as the LP tokens are there. -/
theorem processWithdraw_outcome (hreachable : Reachable rt before)
    (hsigned : SignedByOthers rt.toDeployment accounts)
    (hlive : TokenProgramLive rt accounts)
    (hbooks : TokenBooks rt.toDeployment before
      [a.userLpAta.key, a.vault.key, a.userAta.key])
    (hnext : WithdrawAccounts.next accounts = .ok a)
    (hvalid : a.Valid rt.toDeployment before pool held)
    (hrecord : rt.DepositAt before a.depositPda.key record) :
    (∀ error, pool.withdrawRefusal record before.clock lpAmount.toNat =
        some error →
      processWithdraw rt accounts lpAmount before = .error error) ∧
    (pool.withdrawRefusal record before.clock lpAmount.toNat = none →
      ((∃ after, processWithdraw rt accounts lpAmount before = .ok after) ↔
        lpAmount.toNat ≤ held.amount.toNat)) := by
  refine ⟨fun error => processWithdraw_refused hreachable hnext hvalid
    hrecord, ?_⟩
  intro hunrefused
  obtain ⟨hfits, hallows⟩ := StakePool.allowsWithdraw_of_unrefused hunrefused
  constructor
  · rintro ⟨after, h⟩
    obtain ⟨t⟩ := processWithdraw_trace h
    cases hnext.symm.trans t.hnext
    obtain ⟨-, -, s, s', -, -, hs, -, -, -, -, -, -, -, hamount⟩ :=
      t.hburned.burned
    cases hs.unique hvalid.lpTokens
    omega
  · intro hheld
    obtain ⟨view, rfl, hview⟩ := hreachable.shows_pool hvalid.poolAt
    have hcovered := (hreachable.coherent hview).covered
    rw [view.ledger_inflow, view.ledger_outflow] at hcovered
    obtain ⟨value, hvalue⟩ := Option.isSome_iff_exists.mp
      ((StakePool.totalPoolValue_isSome_iff hcovered).mpr hfits)
    rw [(StakePool.bookValue_of_totalPoolValue hvalue).1] at hallows
    exact processWithdraw_succeeds hreachable hsigned hlive hbooks hnext
      hvalid hvalue hheld hrecord hallows

end Withdraw

/-! ## Deposits -/

/-- The value a deposit counts with, 0 where it is not defined. -/
def StakePool.countedValue (pool : StakePool Pubkey) : ℕ :=
  if pool.inflow < 2 ^ 64 then pool.bookValue else 0

/-- The LP a deposit buys. -/
def StakePool.lpFor (pool : StakePool Pubkey) (amount : ℕ) : ℕ :=
  if pool.totalLpSupply.toNat = 0 then amount
  else amount * pool.totalLpSupply.toNat / pool.countedValue

/-- The first check a deposit fails, in the order of the handler. -/
def StakePool.depositRefusal (pool : StakePool Pubkey) (amount : ℕ) :
    Option ProgramError :=
  let capped := 0 < pool.depositCap.toNat
  let value := pool.countedValue + amount
  if amount = 0 then some StakeError.zeroAmount
  else if pool.isResolved = true then some StakeError.marketResolved
  else if capped ∧ 2 ^ 64 ≤ value then some StakeError.overflow
  else if capped ∧ pool.depositCap.toNat < value then
    some StakeError.depositCapExceeded
  else if ¬ (pool.totalLpSupply.toNat = 0 ↔ pool.countedValue = 0) ∨
      2 ^ 64 ≤ pool.lpFor amount then
    some StakeError.overflow
  else if pool.lpFor amount = 0 then some StakeError.zeroAmount
  else none

theorem StakePool.countedValue_eq {pool : StakePool Pubkey}
    (hcovered : pool.outflow ≤ pool.inflow) :
    (pool.totalPoolValue.getD 0).toNat = pool.countedValue := by
  have hsome := totalPoolValue_isSome_iff hcovered
  unfold countedValue
  cases hvalue : pool.totalPoolValue with
  | none =>
      rw [hvalue, Option.isSome_none] at hsome
      rw [if_neg (by simpa using hsome)]
      rfl
  | some value =>
      rw [hvalue, Option.isSome_some] at hsome
      rw [if_pos (hsome.mp rfl), (bookValue_of_totalPoolValue hvalue).1]
      rfl

theorem StakePool.calcLpForDeposit_eq {pool : StakePool Pubkey}
    {amount lp : U64} (hcovered : pool.outflow ≤ pool.inflow) :
    pool.calcLpForDeposit amount = some lp ↔
      (pool.totalLpSupply.toNat = 0 ↔ pool.countedValue = 0) ∧
        lp.toNat = pool.lpFor amount.toNat := by
  unfold StakePool.calcLpForDeposit lpFor
  rw [PercolatorVault.calcLpForDeposit_eq_some, countedValue_eq hcovered]
  by_cases hsupply : pool.totalLpSupply.toNat = 0
  · rw [if_pos hsupply, ← BitVec.toNat_inj]
    simp [hsupply]
  · rw [if_neg hsupply]
    simp [hsupply, Nat.pos_iff_ne_zero, ProportionalShares.Pot.mint]

theorem StakePool.calcLpForDeposit_eq_none {pool : StakePool Pubkey}
    {amount : U64} (hcovered : pool.outflow ≤ pool.inflow) :
    (¬ (pool.totalLpSupply.toNat = 0 ↔ pool.countedValue = 0) ∨
        2 ^ 64 ≤ pool.lpFor amount.toNat) ↔
      pool.calcLpForDeposit amount = none := by
  rw [Option.eq_none_iff_forall_ne_some]
  constructor
  · intro hrefused lp hlp
    obtain ⟨hopen, hlp⟩ := (calcLpForDeposit_eq hcovered).mp hlp
    have hlt := lp.isLt
    rcases hrefused with hclosed | hwide
    · exact hclosed hopen
    · omega
  · intro hnone
    by_contra hrefused
    rw [not_or, not_not, not_le] at hrefused
    obtain ⟨lp, hlp⟩ := exists_toNat_eq hrefused.2
    exact hnone lp ((calcLpForDeposit_eq hcovered).mpr ⟨hrefused.1, hlp⟩)

/-- The cap has two refusals: the sum does not fit, or it is too large. -/
theorem StakePool.checkDepositCap_refuses {pool : StakePool Pubkey}
    {α : Type} {amount : U64} {error : ProgramError}
    {rest : Option ProgramError} {f : Unit → Except ProgramError α}
    (hcovered : pool.outflow ≤ pool.inflow)
    (h : (if 0 < pool.depositCap.toNat ∧
          2 ^ 64 ≤ pool.countedValue + amount.toNat then
        some (StakeError.overflow : ProgramError)
      else if 0 < pool.depositCap.toNat ∧
          pool.depositCap.toNat < pool.countedValue + amount.toNat then
        some (StakeError.depositCapExceeded : ProgramError)
      else rest) = some error)
    (hrest : rest = some error → f () = .error error) :
    (checkDepositCap pool amount >>= f) = .error error := by
  unfold checkDepositCap
  by_cases hcap : 0 < pool.depositCap.toNat
  · rw [if_pos hcap, bind_assoc]
    simp only [hcap, true_and] at h
    refine okOr_refuses h ?_ fun sum hsum h => ?_
    · rw [← countedValue_eq hcovered, checkedAdd]
      simp
    rw [checkedAdd_eq_some, countedValue_eq hcovered] at hsum
    exact require_refuses h (by rw [hsum, not_le]) fun _ h => hrest h
  · rw [if_neg hcap, ok_bind]
    simp only [hcap, false_and, if_false] at h
    exact hrest h

section Deposit

variable [DecidableEq Pubkey] [Inhabited Pubkey] {rt : Runtime Pubkey}
  {before : Bank Pubkey} {accounts : List (AccountInfo Pubkey)}
  {a : DepositAccounts Pubkey} {pool : StakePool Pubkey}
  {tokens : TokenAccount Pubkey} {amount : U64} {error : ProgramError}

omit [DecidableEq Pubkey] [Inhabited Pubkey] in
/-- What is not refused is allowed as far as the totals have room. -/
theorem StakePool.allowsDeposit_of_unrefused {value lp : ℕ}
    (h : pool.depositRefusal amount.toNat = none)
    (hvalue : pool.countedValue = value) (hlp : lp = pool.lpFor amount.toNat)
    (hdeposited : pool.totalDeposited.toNat + amount.toNat < 2 ^ 64)
    (hsupply : pool.totalLpSupply.toNat + lp < 2 ^ 64) :
    pool.AllowsDeposit value amount.toNat lp := by
  simp only [depositRefusal, refuses_eq_none, hvalue, not_or, not_not, not_and,
    not_lt, not_le, and_true] at h
  obtain ⟨hpositive, -, -, hcap, ⟨hopen, -⟩, hmints⟩ := h
  rw [← hlp] at hmints
  refine ⟨Nat.pos_of_ne_zero hpositive, ?_, ?_, Nat.pos_of_ne_zero hmints,
    by omega, hdeposited, hsupply⟩
  · rcases Nat.eq_zero_or_pos pool.depositCap.toNat with hnone | hcapped
    · exact .inl hnone
    · exact .inr (hcap hcapped)
  · unfold lpFor at hlp
    rw [hvalue] at hlp
    by_cases hempty : pool.totalLpSupply.toNat = 0
    · rw [if_pos hempty] at hlp
      exact .inl ⟨hempty, hopen.mp hempty, hlp⟩
    · rw [if_neg hempty] at hlp
      exact .inr ⟨Nat.pos_of_ne_zero hempty,
        Nat.pos_of_ne_zero fun hzero => hempty (hopen.mpr hzero), hlp⟩

/-- With valid accounts a refused deposit fails with its first reason. -/
theorem processDeposit_refused (hreachable : Reachable rt before)
    (hnext : DepositAccounts.next accounts = .ok a)
    (hvalid : a.Valid rt before pool tokens)
    (hrefusal : pool.depositRefusal amount.toNat = some error) :
    processDeposit rt accounts amount before = .error error := by
  obtain ⟨view, rfl, hview⟩ := hreachable.shows_pool hvalid.poolAt
  have hstanding := hreachable.standing hview
  have hcovered := (hreachable.coherent hview).covered
  rw [view.ledger_inflow, view.ledger_outflow] at hcovered
  simp only [processDeposit, verifyTokenProgram, hnext,
    loadPool_of_poolAt hview.pool, require_of hvalid.signer,
    require_of hview.initialized,
    require_of (StakePool.validateDiscriminator_of_eq hstanding.discriminator),
    require_of hvalid.lpMint, require_of hvalid.vault,
    require_of hstanding.transferred, require_of hvalid.vaultAuth,
    require_of hvalid.tokenProgram, ok_bind]
  -- The checks in their order.
  refine require_refuses hrefusal (by rw [toNat_eq_zero, not_not])
    fun _ hrefusal => ?_
  refine require_refuses hrefusal (by rw [Bool.not_eq_false])
    fun _ hrefusal => ?_
  refine StakePool.checkDepositCap_refuses hcovered hrefusal
    fun hrefusal => ?_
  refine okOr_refuses hrefusal (StakePool.calcLpForDeposit_eq_none hcovered)
    fun lp hlp hrefusal => ?_
  rw [← ((StakePool.calcLpForDeposit_eq hcovered).mp hlp).2] at hrefusal
  refine require_refuses hrefusal (by rw [toNat_eq_zero, not_not])
    fun _ hrefusal => ?_
  cases hrefusal

/-- A deposit is answered by its first reason for refusal; without one it goes
through as soon as the collateral is there and the totals have room. -/
theorem processDeposit_outcome (hreachable : Reachable rt before)
    (hsigned : SignedByOthers rt.toDeployment accounts)
    (hlive : TokenProgramLive rt accounts)
    (hsystem : SystemProgramLive rt accounts)
    (hbooks : TokenBooks rt.toDeployment before
      [a.userAta.key, a.vault.key, a.userLpAta.key])
    (hnext : DepositAccounts.next accounts = .ok a)
    (hvalid : a.Valid rt before pool tokens) :
    (∀ error, pool.depositRefusal amount.toNat = some error →
      processDeposit rt accounts amount before = .error error) ∧
    (pool.depositRefusal amount.toNat = none → pool.inflow < 2 ^ 64 →
      ((∃ after, processDeposit rt accounts amount before = .ok after) ↔
        amount.toNat ≤ tokens.amount.toNat ∧
          pool.totalDeposited.toNat + amount.toNat < 2 ^ 64 ∧
          pool.totalLpSupply.toNat + pool.lpFor amount.toNat < 2 ^ 64)) := by
  refine ⟨fun error => processDeposit_refused hreachable hnext hvalid, ?_⟩
  intro hunrefused hfits
  obtain ⟨view, rfl, hview⟩ := hreachable.shows_pool hvalid.poolAt
  have hcovered := (hreachable.coherent hview).covered
  rw [view.ledger_inflow, view.ledger_outflow] at hcovered
  obtain ⟨value, hvalue⟩ := Option.isSome_iff_exists.mp
    ((StakePool.totalPoolValue_isSome_iff hcovered).mpr hfits)
  constructor
  · rintro ⟨after, h⟩
    obtain ⟨t⟩ := processDeposit_trace h
    cases hnext.symm.trans t.hnext
    have hpool : t.pool = view.pool :=
      AccountData.stakePool.inj (t.hdata.symm.trans hvalid.poolAt.2)
    have hallows := t.allows (hpool ▸ hvalue)
    have hlp := t.hlp
    rw [hpool] at hallows hlp
    rw [← ((StakePool.calcLpForDeposit_eq hcovered).mp hlp).2]
    refine ⟨?_, hallows.deposited_lt, hallows.supply_lt⟩
    obtain ⟨s, s', r, r', hs, -, -, -, -, -, -, -, hamount, -, -⟩ :=
      t.hpaid.moved
    cases hs.unique hvalid.collateral
    exact hamount
  · rintro ⟨hfunds, hdeposited, hsupply⟩
    have hopen : view.pool.isResolved = false := by
      simp only [StakePool.depositRefusal, refuses_eq_none] at hunrefused
      simpa using hunrefused.2.1
    have hcounted : view.pool.countedValue = value.toNat := by
      rw [← StakePool.countedValue_eq hcovered, hvalue, Option.getD_some]
    obtain ⟨lp, hlp⟩ := @exists_toNat_eq 64
      (view.pool.lpFor amount.toNat) (by omega)
    rw [← hlp] at hsupply
    exact processDeposit_succeeds hreachable hsigned hlive hsystem hbooks
      hnext hvalid hopen hvalue hfunds
      (StakePool.allowsDeposit_of_unrefused hunrefused hcounted hlp
        hdeposited hsupply)

end Deposit

namespace Reference

/-- Alice cannot withdraw the 2000 she does not have, but 400. -/
theorem unlockedMarket_withdraw_outcome :
    processWithdraw runtime (withdrawAccounts alice) 2000
        (bankAfter unlockedMarket) =
      .error (StakeError.insufficientLpTokens : ProgramError) ∧
    ∃ after, processWithdraw runtime (withdrawAccounts alice) 400
      (bankAfter unlockedMarket) = .ok after := by
  obtain ⟨pool, hpool, -, hvalid⟩ := unlockedMarket_withdraw_valid
  have hread : ((poolIn (bankAfter unlockedMarket)).bind fun pool =>
      (recordIn deployment ((bankAfter unlockedMarket).accounts
        (.stakeDeposit poolKey alice.key))).map fun record =>
          (pool.withdrawRefusal record (bankAfter unlockedMarket).clock 2000,
            pool.withdrawRefusal record (bankAfter unlockedMarket).clock
              400)) =
      some (some (StakeError.insufficientLpTokens : ProgramError), none) := by
    decide +kernel
  simp only [poolIn_eq_some.mpr hpool, Option.bind_some,
    Option.map_eq_some_iff, Prod.mk.injEq] at hread
  obtain ⟨record, hrecord, hrefused, hunrefused⟩ := hread
  have hsigned : SignedByOthers deployment (withdrawAccounts alice) :=
    @authentic_sound (withdraw alice 400) (by decide)
  have houtcome : ∀ lpAmount, _ := fun lpAmount =>
    @processWithdraw_outcome _ _ _ runtime _ _ _ _ _ _ lpAmount
      (bankAfter_reachable (by decide +kernel)) hsigned
      (runtime_tokenProgramLive _)
      (tokenBooks_of_keepsBooks (by decide +kernel)) rfl hvalid
      (recordIn_eq_some.mp hrecord)
  exact ⟨(houtcome 2000).1 _ hrefused,
    ((houtcome 400).2 hunrefused).mpr (by decide)⟩

/-- The admin has capped the pool at 1500. -/
def cappedMarket : List (Transaction Address) :=
  joinableMarket ++
    [.call [signer admin, writable poolKey]
      (.updateConfig none (some 1500))]

theorem cappedMarket_deposit_valid :
    ∃ pool, deployment.PoolAt (bankAfter cappedMarket) poolKey pool ∧
      pool.depositRefusal 600 = some StakeError.depositCapExceeded ∧
      pool.depositRefusal 500 = none ∧ pool.inflow = 1000 ∧
      pool.totalDeposited.toNat = 1000 ∧
      pool.totalLpSupply.toNat = 1000 ∧
      pool.lpFor 500 = 500 ∧
      (depositInfos bob).Valid runtime (bankAfter cappedMarket) pool
        bobTokens := by
  have hread : (poolIn (bankAfter cappedMarket)).map (fun pool =>
      (pool.depositRefusal 600, pool.depositRefusal 500, pool.lpMint,
        pool.vault, pool.collateralMint)) =
        some (some (StakeError.depositCapExceeded : ProgramError), none,
          lpMint, vault, collateralMint) := by
    decide +kernel
  have htotals : (poolIn (bankAfter cappedMarket)).map (fun pool =>
      (pool.inflow, pool.totalDeposited.toNat, pool.totalLpSupply.toNat,
        pool.lpFor 500)) = some (1000, 1000, 1000, 500) := by
    decide +kernel
  obtain ⟨pool, hpool, hread⟩ := exists_poolAt hread
  rw [poolIn_eq_some.mpr hpool, Option.map_some, Option.some.injEq]
    at htotals
  simp only [Prod.mk.injEq] at hread htotals
  obtain ⟨hrefused, hunrefused, hmint, hvault, hcollateral⟩ := hread
  obtain ⟨hinflow, hdeposited, hsupply, hlp⟩ := htotals
  refine ⟨pool, hpool, hrefused, hunrefused, hinflow, hdeposited, hsupply,
    hlp, ?_⟩
  refine ⟨hpool, rfl, hmint, hvault, rfl, rfl, rfl, rfl, by decide,
    ⟨by decide +kernel, by decide +kernel⟩, hcollateral.symm, rfl,
    ⟨⟨lpMint, bob.key, 0, none⟩, ⟨by decide +kernel, by decide +kernel⟩,
      hmint.symm⟩, Or.inr ⟨rfl, ?_⟩⟩
  exact ⟨by decide +kernel, by decide +kernel, by decide +kernel,
    by decide +kernel, by decide +kernel⟩

/-- Under the cap of 1500 bob can add 500 to the 1000 in the pool, but not
600. -/
theorem cappedMarket_deposit_outcome :
    processDeposit runtime (depositAccounts bob) 600
        (bankAfter cappedMarket) =
      .error (StakeError.depositCapExceeded : ProgramError) ∧
    ∃ after, processDeposit runtime (depositAccounts bob) 500
      (bankAfter cappedMarket) = .ok after := by
  obtain ⟨pool, hpool, hrefused, hunrefused, hinflow, hdeposited, hsupply,
    hlp, hvalid⟩ := cappedMarket_deposit_valid
  have hsigned : SignedByOthers deployment (depositAccounts bob) :=
    @authentic_sound (deposit bob 500) (by decide)
  have houtcome : ∀ amount, _ := fun amount =>
    @processDeposit_outcome _ _ _ runtime _ _ _ _ _ amount
      (bankAfter_reachable (by decide +kernel)) hsigned
      (runtime_tokenProgramLive _) (runtime_systemProgramLive _)
      (tokenBooks_of_keepsBooks (by decide +kernel)) rfl hvalid
  refine ⟨(houtcome 600).1 _ hrefused,
    ((houtcome 500).2 hunrefused (by rw [hinflow]; decide)).mpr ?_⟩
  rw [hdeposited, hsupply]
  refine ⟨by decide, by decide, ?_⟩
  change 1000 + pool.lpFor 500 < 2 ^ 64
  rw [hlp]
  decide

end Reference

end PercolatorVault
