import PercolatorVault.AdminEffects
import PercolatorVault.PoolCreation
import PercolatorVault.WithdrawAcceptance

/-!
# The life of a pool

From its initialisation on a pool keeps its identity, its counters grow, and
a resolved market stays resolved: nothing can be deposited any more, while
withdrawals do not even look at the flag.
-/

namespace PercolatorVault

open CheckedArithmetic
open FallibleSteps

variable {Pubkey : Type}

/-! ## From one moment to a later one -/

/-- What holds between a pool and the same pool later. -/
structure StakePool.Continues (pool later : StakePool Pubkey) : Prop where
  identity : pool.SameIdentity later
  transferred : later.adminTransferred = pool.adminTransferred
  counters : pool.CountersLe later
  resolved : pool.isResolved = true → later.isResolved = true ∧
    later.totalDeposited.toNat ≤ pool.totalDeposited.toNat ∧
    later.totalLpSupply.toNat ≤ pool.totalLpSupply.toNat

namespace StakePool

variable {pool pool' pool'' : StakePool Pubkey}

theorem Continues.refl (pool : StakePool Pubkey) : pool.Continues pool :=
  ⟨.refl pool, rfl, .refl pool, fun h => ⟨h, le_rfl, le_rfl⟩⟩

theorem Continues.trans (hleft : pool.Continues pool')
    (hright : pool'.Continues pool'') : pool.Continues pool'' where
  identity := hleft.identity.trans hright.identity
  transferred := hright.transferred.trans hleft.transferred
  counters := hleft.counters.trans hright.counters
  resolved h := by
    obtain ⟨hmiddle, hdeposited, hsupply⟩ := hleft.resolved h
    obtain ⟨hlater, hdeposited', hsupply'⟩ := hright.resolved hmiddle
    exact ⟨hlater, hdeposited'.trans hdeposited, hsupply'.trans hsupply⟩

end StakePool

section Steps

variable [DecidableEq Pubkey] [Inhabited Pubkey] {d : Deployment Pubkey}
  {key : Pubkey} {clock : Clock} {event : PoolEvent Pubkey}
  {view view' : PoolView Pubkey}

/-- Nothing clears the resolved flag. -/
theorem PoolStep.isResolved (hstep : PoolStep d key clock event view view')
    (h : view.pool.isResolved = true) : view'.pool.isResolved = true := by
  by_cases hevent : event = .administer
  · subst hevent
    cases hstep with
    | administer hpool =>
        obtain ⟨resolved, _, _, hkept, hfields⟩ :=
          StakePool.administered_reservedFields hpool
        exact (congrArg ReservedFields.resolved hfields).trans (hkept h)
  · rw [(hstep.sameSettings hevent).isResolved, h]

/-- A resolved pool takes in nothing and mints nothing. -/
theorem PoolStep.totals_of_isResolved
    (hstep : PoolStep d key clock event view view')
    (h : view.pool.isResolved = true) :
    view'.pool.totalDeposited.toNat ≤ view.pool.totalDeposited.toNat ∧
      view'.pool.totalLpSupply.toNat ≤ view.pool.totalLpSupply.toNat := by
  cases hstep with
  | deposit _ _ hopen => simp [hopen] at h
  | withdraw _ _ _ _ _ hfloor hpool _ _ _ =>
      obtain ⟨_, supply, _, _, hsupply, rfl, _⟩ :=
        StakePool.guardedWithdraw_eq_ok hfloor hpool
      refine ⟨le_rfl, ?_⟩
      dsimp only
      omega
  | flush => exact ⟨le_rfl, le_rfl⟩
  | returnInsurance => exact ⟨le_rfl, le_rfl⟩
  | accrueFees _ hpool =>
      rcases StakePool.accrue_eq_ok hpool with
        ⟨-, _, rfl, -⟩ | ⟨-, _, _, -, -, -, rfl⟩
      · exact ⟨le_rfl, le_rfl⟩
      · exact ⟨le_rfl, le_rfl⟩
  | administer hpool =>
      obtain ⟨_, _, _, _, rfl, _⟩ := StakePool.administered_eq hpool
      exact ⟨le_rfl, le_rfl⟩
  | idle => exact ⟨le_rfl, le_rfl⟩

theorem PoolStep.continues (hstep : PoolStep d key clock event view view')
    (hstanding : view.Standing) : view.pool.Continues view'.pool where
  identity := hstep.sameIdentity
  transferred :=
    (hstep.transferred hstanding.transferred).trans
      hstanding.transferred.symm
  counters := hstep.countersLe
  resolved h := ⟨hstep.isResolved h, hstep.totals_of_isResolved h⟩

variable {rt : Runtime Pubkey} {created bank : Bank Pubkey}
  {events : List (Event Pubkey)}

/-- A pool goes on for as long as the run does. -/
theorem Run.continues (hrun : Run rt created events bank)
    (hreachable : Reachable rt created)
    (hview : Shows rt.toDeployment created key view) :
    ∃ view', Shows rt.toDeployment bank key view' ∧
      view.pool.Continues view'.pool := by
  induction hrun with
  | start => exact ⟨view, hview, .refl _⟩
  | step hrun hstep ih =>
      obtain ⟨middle, hmiddle, hcontinues⟩ := ih
      have hbefore := hreachable.run hrun
      obtain ⟨stepped, view', hpool, hdrift, hshows, -⟩ :=
        hstep.poolStep hbefore.sound hmiddle
      refine ⟨view', hshows, hcontinues.trans ?_⟩
      rw [hdrift.pool]
      exact hpool.continues (hbefore.standing hmiddle)

end Steps

/-! ## Beginning and resolution -/

/-- The event resolves the market of the pool at `key`. -/
def Event.Resolves (key : Pubkey) : Event Pubkey → Prop
  | .instruction (_ :: pool :: _) .adminResolveMarket => pool.key = key
  | _ => False

section Events

variable [DecidableEq Pubkey] [Inhabited Pubkey] {rt : Runtime Pubkey}
  {before after created bank : Bank Pubkey} {key : Pubkey}
  {events : List (Event Pubkey)}

omit [Inhabited Pubkey] in
theorem Event.Resolves.seenBy {event : Event Pubkey}
    (h : event.Resolves key) : event.seenBy key = .administer := by
  unfold Event.Resolves at h
  split at h
  · simp [Event.seenBy, h, StakeInstruction.poolEvent]
  · exact h.elim

theorem Step.resolved {event : Event Pubkey}
    (hstep : Step rt before event after) (hevent : event.Resolves key)
    {pool pool' : StakePool Pubkey} (hpool : rt.PoolAt before key pool)
    (hpool' : rt.PoolAt after key pool') : pool'.isResolved = true := by
  obtain ⟨user, info, rest, call, written, rfl, -, hwritten, hadmin⟩ :=
    hstep.administers hevent.seenBy hpool
  cases hpool'.unique hwritten
  unfold Event.Resolves at hevent
  split at hevent
  · next heq =>
      cases heq
      rw [show pool' = _ from hadmin]
      exact congrArg ReservedFields.resolved pool.reservedFields_setResolved
  · exact hevent.elim

/-- A pool that was resolved during the run is resolved at its end. -/
theorem Run.resolved (hrun : Run rt created events bank)
    (hreachable : Reachable rt created) {view view' : PoolView Pubkey}
    (hview : Shows rt.toDeployment created key view)
    (hview' : Shows rt.toDeployment bank key view')
    (hresolves : ∃ event ∈ events, event.Resolves key) :
    view'.pool.isResolved = true := by
  induction hrun generalizing view' with
  | start => simp at hresolves
  | @step earlier last middle after hrun hstep ih =>
      have hmiddle := hreachable.run hrun
      obtain ⟨old, hold, -⟩ := hrun.continues hreachable hview
      obtain ⟨event, hmem, hevent⟩ := hresolves
      rcases List.mem_append.mp hmem with hearlier | hlast
      · have hresolved := ih hold ⟨event, hearlier, hevent⟩
        obtain ⟨later, hlater, hcontinues⟩ :=
          (Run.start.step hstep).continues hmiddle hold
        cases hlater.unique hview'
        exact (hcontinues.resolved hresolved).1
      · cases List.mem_singleton.mp hlast
        exact hstep.resolved hevent hold.pool hview'.pool

theorem processInitPool_pda {accounts : List (AccountInfo Pubkey)}
    {cooldownSlots depositCap : U64}
    (h : processInitPool rt accounts cooldownSlots depositCap before =
      .ok after) :
    ∃ admin slab pda rest, accounts = admin :: slab :: pda :: rest ∧
      pda.key = (rt.derivePoolPda slab.key).1 := by
  simp only [processInitPool, bind_eq_ok, require_eq_ok, exists_const] at h
  obtain ⟨a, ha, -, hpda, -⟩ := h
  obtain ⟨rest, haccounts⟩ := InitPoolAccounts.next_eq_ok ha
  exact ⟨a.admin, a.slab, a.poolPda, rest, haccounts, hpda⟩

/-- A pool is initialised at the address of its slab, where there was none,
and it starts with the LP mint empty. -/
theorem processInstruction_initializes {admin slab pda : AccountInfo Pubkey}
    {rest : List (AccountInfo Pubkey)} {call : StakeInstruction Pubkey}
    (hbefore : Sound rt.toDeployment before)
    (h : processInstruction rt (admin :: slab :: pda :: rest) call before =
      .ok after)
    (hinit : (Event.instruction (admin :: slab :: pda :: rest)
      call).Initializes pda.key) :
    pda.key = (rt.derivePoolPda slab.key).1 ∧
      (∀ pool, ¬ rt.PoolAt before pda.key pool) ∧
      ∃ view, Shows rt.toDeployment after pda.key view := by
  cases call with
  | initPool cooldownSlots depositCap =>
      obtain ⟨_, _, _, _, haccounts, hpda⟩ := processInitPool_pda h
      cases haccounts
      obtain ⟨a, _, view, haccounts, -, hcreated⟩ :=
        processInitPool_created hbefore h
      cases haccounts
      exact ⟨hpda, hcreated.absent, view, hcreated.shows_new⟩
  | initTradingPool cooldownSlots depositCap =>
      have hplain := h
      simp only [processInstruction, processInitTradingPool,
        bind_eq_ok] at hplain
      obtain ⟨middle, hplain, -⟩ := hplain
      obtain ⟨_, _, _, _, haccounts, hpda⟩ := processInitPool_pda hplain
      cases haccounts
      obtain ⟨a, _, view, haccounts, -, hcreated⟩ :=
        processInitTradingPool_created hbefore h
      cases haccounts
      exact ⟨hpda, hcreated.absent, view, hcreated.shows_new⟩
  | _ => exact hinit.elim

/-- A resolved pool takes no deposit. -/
theorem processDeposit_ne_ok_of_resolved {user info : AccountInfo Pubkey}
    {rest : List (AccountInfo Pubkey)} {amount : U64}
    {pool : StakePool Pubkey} (hpool : rt.PoolAt before info.key pool)
    (hresolved : pool.isResolved = true) :
    processDeposit rt (user :: info :: rest) amount before ≠ .ok after := by
  intro h
  obtain ⟨t⟩ := processDeposit_trace h
  obtain ⟨_, haccounts⟩ := t.haccounts
  simp only [List.cons.injEq] at haccounts
  rw [haccounts.2.1] at hpool
  have hopen := t.hopen
  rw [← hpool.unique t.poolAt, hresolved] at hopen
  cases hopen

end Events

/-! ## Withdrawals and the flag -/

/-- The same pool, resolved or not. -/
structure StakePool.SameButResolved (pool pool' : StakePool Pubkey) :
    Prop where
  record : ∃ reserved, pool' = { pool with reserved := reserved }
  fields : pool'.reservedFields =
    { pool.reservedFields with resolved := pool'.isResolved }

/-- SPL Token does not look at accounts of the vault program. -/
structure TokenProgramBlind [DecidableEq Pubkey] (rt : Runtime Pubkey) :
    Prop where
  transferTokens : ∀ {source destination authority amount signers before
    after key} (data : AccountData Pubkey),
    (before.accounts key).owner = rt.programId →
    rt.invokeSigned
      (.transferTokens rt.splTokenId source destination authority amount)
      signers before = .ok after →
    rt.invokeSigned
      (.transferTokens rt.splTokenId source destination authority amount)
      signers (before.setData key data) = .ok (after.setData key data)
  burn : ∀ {account mint authority amount signers before after key}
    (data : AccountData Pubkey),
    (before.accounts key).owner = rt.programId →
    rt.invokeSigned (.burn rt.splTokenId account mint authority amount)
      signers before = .ok after →
    rt.invokeSigned (.burn rt.splTokenId account mint authority amount)
      signers (before.setData key data) = .ok (after.setData key data)

namespace StakePool

variable {pool pool' : StakePool Pubkey}

theorem SameButResolved.symm (h : pool.SameButResolved pool') :
    pool'.SameButResolved pool := by
  obtain ⟨⟨reserved, hrecord⟩, hfields⟩ := h
  refine ⟨⟨pool.reserved, ?_⟩, ?_⟩
  · rw [hrecord]
  · rw [hfields]
    rfl

theorem sameButResolved_setResolved (pool : StakePool Pubkey) :
    pool.SameButResolved pool.setResolved := by
  have hfields := pool.reservedFields_setResolved
  refine ⟨⟨_, rfl⟩, ?_⟩
  rw [hfields, show pool.setResolved.isResolved = true from
    congrArg ReservedFields.resolved hfields]

theorem SameButResolved.validateDiscriminator
    (h : pool.SameButResolved pool') :
    pool'.validateDiscriminator = pool.validateDiscriminator := by
  have hdiscriminator := congrArg ReservedFields.discriminator h.fields
  change LittleEndian.readSlice pool'.reserved 0 8 =
    LittleEndian.readSlice pool.reserved 0 8 at hdiscriminator
  unfold StakePool.validateDiscriminator
  rw [hdiscriminator]

/-- The floor does not depend on the flag. -/
theorem SameButResolved.exists_enforceHwmFloor
    (h : pool.SameButResolved pool') {epoch collateral : U64}
    {guarded : StakePool Pubkey}
    (hfloor : enforceHwmFloor pool epoch collateral = .ok guarded) :
    ∃ guarded', enforceHwmFloor pool' epoch collateral = .ok guarded' := by
  have henabled : pool'.hwmEnabled = pool.hwmEnabled :=
    congrArg ReservedFields.hwmEnabled h.fields
  have hvalue : pool'.totalPoolValue = pool.totalPoolValue := by
    obtain ⟨reserved, rfl⟩ := h.record
    rfl
  unfold enforceHwmFloor at hfloor ⊢
  rw [henabled, hvalue]
  split
  · next hon =>
      rw [if_pos hon] at hfloor
      have hfields : ∀ value,
          (pool'.refreshHwm epoch value).reservedFields =
            { (pool.refreshHwm epoch value).reservedFields with
              resolved := pool'.isResolved } := by
        intro value
        rw [reservedFields_refreshHwm, reservedFields_refreshHwm, h.fields]
        unfold ReservedFields.refreshHwm
        dsimp only
      simp only [bind_eq_ok, okOr_eq_ok, require_eq_ok, exists_const]
        at hfloor ⊢
      obtain ⟨postTvl, hpost, hallowed, -⟩ := hfloor
      refine ⟨_, postTvl, hpost, ?_, rfl⟩
      have hmark := congrArg ReservedFields.epochHighWaterTvl
        (hfields (pool.totalPoolValue.getD 0))
      have hbps := congrArg ReservedFields.hwmFloorBps
        (hfields (pool.totalPoolValue.getD 0))
      change StakePool.epochHighWaterTvl _ = StakePool.epochHighWaterTvl _
        at hmark
      change StakePool.hwmFloorBps _ = StakePool.hwmFloorBps _ at hbps
      rw [hmark, hbps]
      exact hallowed
  · exact ⟨pool', rfl⟩

theorem exists_recordWithdraw_of_same {guarded guarded' : StakePool Pubkey}
    {reserved reserved' : Vector U8 64} {collateral lpAmount : U64}
    (hguarded : guarded = { pool with reserved := reserved })
    (hguarded' : guarded' = { pool with reserved := reserved' })
    (h : guarded.recordWithdraw collateral lpAmount = .ok pool') :
    ∃ pool'', guarded'.recordWithdraw collateral lpAmount = .ok pool'' := by
  subst hguarded hguarded'
  simp only [recordWithdraw, bind_eq_ok, okOr_eq_ok] at h ⊢
  obtain ⟨totalWithdrawn, hwithdrawn, totalLpSupply, hsupply, -⟩ := h
  exact ⟨_, totalWithdrawn, hwithdrawn, totalLpSupply, hsupply, rfl⟩

end StakePool

section Withdrawing

variable [DecidableEq Pubkey] [Inhabited Pubkey] {rt : Runtime Pubkey}
  {bank after : Bank Pubkey} {user info : AccountInfo Pubkey}
  {rest : List (AccountInfo Pubkey)} {pool pool' : StakePool Pubkey}
  {lpAmount : U64}

theorem loadDeposit_setData {key : Pubkey} {data : AccountData Pubkey}
    (hne : info.key ≠ key) :
    loadDeposit (bank.setData key data) info = loadDeposit bank info := by
  unfold loadDeposit
  rw [Bank.setData_other _ _ hne]

omit [Inhabited Pubkey] in
/-- Whether a write is accepted depends on the written account only. -/
theorem exists_storeData_of_same {d : Deployment Pubkey}
    {other written : Bank Pubkey} {data : AccountData Pubkey}
    (hsame : other.accounts info.key = bank.accounts info.key)
    (h : storeData d bank info data = .ok written) :
    ∃ written', storeData d other info data = .ok written' := by
  unfold storeData at h ⊢
  rw [hsame]
  split
  · exact ⟨other, rfl⟩
  · next hchanged =>
      rw [if_neg hchanged] at h
      simp only [bind_eq_ok, require_eq_ok, exists_const] at h ⊢
      exact ⟨_, h.1, h.2.1, rfl⟩

omit [Inhabited Pubkey] in
/-- A write that changes something was to a writable account. -/
theorem isWritable_of_storeData {d : Deployment Pubkey}
    {written : Bank Pubkey} {data : AccountData Pubkey}
    (h : storeData d bank info data = .ok written)
    (hchanged : (bank.accounts info.key).data ≠ data) :
    info.isWritable = true := by
  unfold storeData at h
  rw [if_neg hchanged] at h
  simp only [bind_eq_ok, require_eq_ok, exists_const] at h
  exact h.2.1

/-- A withdrawal that succeeds also succeeds with the flag set or cleared. -/
theorem processWithdraw_of_sameButResolved (hblind : TokenProgramBlind rt)
    (hpool : rt.PoolAt bank info.key pool)
    (hsame : pool.SameButResolved pool')
    (h : processWithdraw rt (user :: info :: rest) lpAmount bank =
      .ok after) :
    ∃ after', processWithdraw rt (user :: info :: rest) lpAmount
      (bank.setData info.key (.stakePool pool')) = .ok after' := by
  simp only [processWithdraw, verifyTokenProgram, Clock.fromAccountInfo,
    bind_eq_ok, require_eq_ok, okOr_eq_ok, exists_const,
    Except.ok.injEq] at h
  obtain ⟨hamount, a, ha, hsigner, loaded, hload, hinit, hdisc, hlpMint,
    hvault, htoken, hvaultAuth, hpda, howned, clock, ⟨hsysvar, hclock⟩,
    record, hrecord, hnames, hcooldown, hheld, collateral, hcollateral,
    hpaid, guarded, hfloor, burned, hburn, paid, hpay, written, hwritten,
    record', hrecord', remaining, hremaining, recorded, hrecorded,
    hafter⟩ := h
  obtain ⟨_, haccounts⟩ := WithdrawAccounts.next_eq_ok ha
  simp only [List.cons.injEq] at haccounts
  obtain ⟨-, rfl, -⟩ := haccounts
  cases (loadPool_of_poolAt hpool).symm.trans hload
  -- The flagged bank, and the pool record through the calls.
  have hflagged : rt.PoolAt
      (bank.setData a.poolPda.key (.stakePool pool')) a.poolPda.key pool' :=
    ⟨(Bank.setData_owner _ _ _ _).trans hpool.1, Bank.setData_data _ _ _⟩
  have hburnedPool := hpool.of_frame (rt.invokeSigned_effect hburn).bankFrame
  have hpaidPool :=
    hburnedPool.of_frame (rt.invokeSigned_effect hpay).bankFrame
  rw [htoken] at hburn hpay
  have hburn' := hblind.burn (.stakePool pool') hpool.1 hburn
  have hpay' := hblind.transferTokens (.stakePool pool') hburnedPool.1 hpay
  have hne : a.depositPda.key ≠ a.poolPda.key := by
    intro heq
    unfold loadDeposit at hrecord
    rw [heq, hpool.2] at hrecord
    cases hrecord
  -- The same numbers are computed from the flagged pool.
  obtain ⟨reserved, hguarded, -⟩ := StakePool.enforceHwmFloor_eq_ok hfloor
  obtain ⟨guarded', hfloor'⟩ := hsame.exists_enforceHwmFloor hfloor
  obtain ⟨reserved', hguarded', -⟩ :=
    StakePool.enforceHwmFloor_eq_ok hfloor'
  have hdisc' := hsame.validateDiscriminator.trans hdisc
  obtain ⟨flags, rfl⟩ := hsame.record
  obtain ⟨written', hwritten'⟩ :=
    StakePool.exists_recordWithdraw_of_same hguarded hguarded' hwritten
  -- The pool record changes, so its account is writable.
  have hwritable : a.poolPda.isWritable = true := by
    apply isWritable_of_storeData hrecorded
    rw [hpaidPool.2]
    exact fun hdata => StakePool.ne_of_guardedWithdraw hfloor hwritten hpaid
      (AccountData.stakePool.inj hdata)
  obtain ⟨recorded', hrecorded'⟩ := @exists_storeData _ _ rt.toDeployment
    (paid.setData a.poolPda.key (.stakePool { pool with reserved := flags }))
    a.poolPda ((Bank.setData_owner _ _ _ _).trans hpaidPool.1)
    hwritable (.stakePool written')
  have hrecordAccount : recorded'.accounts a.depositPda.key =
      recorded.accounts a.depositPda.key := by
    rw [(storeData_stored hrecorded').others _ hne,
      Bank.setData_other _ _ hne, (storeData_stored hrecorded).others _ hne]
  obtain ⟨after', hafter'⟩ := exists_storeData_of_same hrecordAccount hafter
  refine ⟨after', ?_⟩
  simp only [processWithdraw, verifyTokenProgram, Clock.fromAccountInfo,
    bind_eq_ok, require_eq_ok, okOr_eq_ok, exists_const, Except.ok.injEq]
  exact ⟨hamount, a, ha, hsigner, _, loadPool_of_poolAt hflagged, hinit,
    hdisc', hlpMint, hvault, htoken, hvaultAuth, hpda,
    (Bank.setData_owner _ _ _ _).trans howned, clock, ⟨hsysvar, hclock⟩,
    record, (loadDeposit_setData hne).trans hrecord, hnames, hcooldown,
    hheld, collateral, hcollateral, hpaid, guarded', hfloor', _,
    htoken ▸ hburn', _, htoken ▸ hpay', written', hwritten', record',
    (loadDeposit_setData hne).trans hrecord', remaining, hremaining,
    recorded', hrecorded', hafter'⟩

omit [Inhabited Pubkey] in
theorem Bank.setData_restore {key : Pubkey} {data : AccountData Pubkey}
    (h : (bank.accounts key).data = data) (other : AccountData Pubkey) :
    (bank.setData key other).setData key data = bank := by
  subst h
  simp [Bank.setData, Bank.setAccount]

/-- Whether a withdrawal is accepted does not depend on the flag. -/
theorem processWithdraw_sameButResolved (hblind : TokenProgramBlind rt)
    (hpool : rt.PoolAt bank info.key pool)
    (hsame : pool.SameButResolved pool') :
    (∃ after, processWithdraw rt (user :: info :: rest) lpAmount bank =
      .ok after) ↔
      ∃ after, processWithdraw rt (user :: info :: rest) lpAmount
        (bank.setData info.key (.stakePool pool')) = .ok after := by
  constructor
  · rintro ⟨after, h⟩
    exact processWithdraw_of_sameButResolved hblind hpool hsame h
  · rintro ⟨after, h⟩
    have hflagged : rt.PoolAt
        (bank.setData info.key (.stakePool pool')) info.key pool' :=
      ⟨(Bank.setData_owner _ _ _ _).trans hpool.1, Bank.setData_data _ _ _⟩
    have hback :=
      processWithdraw_of_sameButResolved hblind hflagged hsame.symm h
    rw [Bank.setData_restore hpool.2] at hback
    exact hback

end Withdrawing

/-! ## The whole life -/

section Lifetime

variable [DecidableEq Pubkey] [Inhabited Pubkey] {rt : Runtime Pubkey}
  {start created middle bank : Bank Pubkey}
  {admin slab pda : AccountInfo Pubkey} {rest : List (AccountInfo Pubkey)}
  {call : StakeInstruction Pubkey} {earlier later : List (Event Pubkey)}

/-- From the initialisation of a pool on: between any two moments the pool
continues, its slab cannot be initialised again, a resolution is final and
ends all deposits, and no withdrawal depends on it. -/
theorem Run.poolLifetime (hblind : TokenProgramBlind rt)
    (hreachable : Reachable rt start)
    (hinit : Step rt start
      (.instruction (admin :: slab :: pda :: rest) call) created)
    (hcall : (Event.instruction (admin :: slab :: pda :: rest)
      call).Initializes pda.key)
    (hearlier : Run rt created earlier middle)
    (hlater : Run rt middle later bank) :
    ∃ pool₀ pool₁ pool₂ : StakePool Pubkey,
      rt.PoolAt created pda.key pool₀ ∧ rt.PoolAt middle pda.key pool₁ ∧
      rt.PoolAt bank pda.key pool₂ ∧
      pool₀.Continues pool₁ ∧ pool₁.Continues pool₂ ∧
      (∀ admin' slab' pda' rest' call' after, slab'.key = slab.key →
        (Event.instruction (admin' :: slab' :: pda' :: rest')
          call').Initializes pda'.key →
        processInstruction rt (admin' :: slab' :: pda' :: rest') call' bank ≠
          .ok after) ∧
      ((∃ event ∈ earlier, event.Resolves pda.key) →
        pool₁.isResolved = true) ∧
      (pool₂.isResolved = true →
        ∀ user info infos amount after, info.key = pda.key →
          processInstruction rt (user :: info :: infos) (.deposit amount)
            bank ≠ .ok after) ∧
      (∀ pool', pool₂.SameButResolved pool' →
        ∀ user info infos lpAmount, info.key = pda.key →
          ((∃ after, processInstruction rt (user :: info :: infos)
              (.withdraw lpAmount) bank = .ok after) ↔
            ∃ after, processInstruction rt (user :: info :: infos)
              (.withdraw lpAmount)
              (bank.setData pda.key (.stakePool pool')) = .ok after)) := by
  have hcreated := hreachable.step hinit
  have hmiddle := hcreated.run hearlier
  obtain ⟨hpda, view₀, hview₀⟩ : pda.key = (rt.derivePoolPda slab.key).1 ∧
      ∃ view, Shows rt.toDeployment created pda.key view := by
    cases hinit with
    | instruction _ hrun =>
        obtain ⟨hpda, -, hview⟩ :=
          processInstruction_initializes hreachable.sound hrun hcall
        exact ⟨hpda, hview⟩
  obtain ⟨view₁, hview₁, hfirst⟩ := hearlier.continues hcreated hview₀
  obtain ⟨view₂, hview₂, hsecond⟩ := hlater.continues hmiddle hview₁
  refine ⟨view₀.pool, view₁.pool, view₂.pool, hview₀.pool, hview₁.pool,
    hview₂.pool, hfirst, hsecond, ?_, ?_, ?_, ?_⟩
  · intro admin' slab' pda' rest' call' after hslab hcall' hrun
    obtain ⟨hpda', habsent, -⟩ := processInstruction_initializes
      (hmiddle.run hlater).sound hrun hcall'
    rw [hslab, ← hpda] at hpda'
    exact habsent _ (hpda' ▸ hview₂.pool)
  · exact hearlier.resolved hcreated hview₀ hview₁
  · intro hresolved user info infos amount after hinfo
    exact processDeposit_ne_ok_of_resolved (hinfo ▸ hview₂.pool) hresolved
  · intro pool' hsame user info infos lpAmount hinfo
    rw [← hinfo]
    exact processWithdraw_sameButResolved hblind (hinfo ▸ hview₂.pool) hsame

end Lifetime

namespace Reference

section Blind

variable {bank after : Bank Address} {key target : Address}

theorem setData_comm (bank : Bank Address) (hne : target ≠ key)
    (data written : AccountData Address) :
    (bank.setData key data).setData target written =
      (bank.setData target written).setData key data := by
  simp only [Bank.setData, Bank.setAccount, Function.update_of_ne hne,
    Function.update_of_ne hne.symm]
  rw [Function.update_comm hne]

theorem ne_of_tokenOwned (hkey : (bank.accounts key).owner = .vaultProgram)
    (htarget : (bank.accounts target).owner = .splToken) : target ≠ key := by
  rintro rfl
  rw [hkey] at htarget
  cases htarget

theorem tokenAccount_setData {account : TokenAccount Address}
    (hkey : (bank.accounts key).owner = .vaultProgram)
    (data : AccountData Address)
    (h : tokenAccount bank target = .ok account) :
    tokenAccount (bank.setData key data) target = .ok account := by
  have hne := ne_of_tokenOwned hkey (tokenAccount_eq_ok.mp h).1
  unfold tokenAccount at h ⊢
  rw [Bank.setData_other _ _ hne]
  exact h

theorem mintAccount_setData {mint : Mint Address}
    (hkey : (bank.accounts key).owner = .vaultProgram)
    (data : AccountData Address)
    (h : mintAccount bank target = .ok mint) :
    mintAccount (bank.setData key data) target = .ok mint := by
  have hne := ne_of_tokenOwned hkey (mintAccount_eq_ok.mp h).1
  unfold mintAccount at h ⊢
  rw [Bank.setData_other _ _ hne]
  exact h

theorem runtime_tokenProgramBlind : TokenProgramBlind runtime where
  transferTokens {source destination authority amount _ before after key} data
      hkey h := by
    change transferTokens source destination authority amount
      (before.setData key data) = .ok (after.setData key data)
    change transferTokens source destination authority amount before =
      .ok after at h
    change (before.accounts key).owner = .vaultProgram at hkey
    simp only [transferTokens, bind_eq_ok, require_eq_ok, exists_const]
      at h ⊢
    obtain ⟨s, hs, t, ht, hamount, hmint, howner, h⟩ := h
    refine ⟨s, tokenAccount_setData hkey data hs, t,
      tokenAccount_setData hkey data ht, hamount, hmint, howner, ?_⟩
    split at h
    · next hself =>
        rw [if_pos hself]
        cases h
        rfl
    · next hapart =>
        rw [if_neg hapart]
        simp only [bind_eq_ok, Except.ok.injEq] at h ⊢
        obtain ⟨received, hreceived, rfl⟩ := h
        refine ⟨received, hreceived, ?_⟩
        have hsource := ne_of_tokenOwned hkey (tokenAccount_eq_ok.mp hs).1
        have hdestination :=
          ne_of_tokenOwned hkey (tokenAccount_eq_ok.mp ht).1
        rw [setData_comm before hsource, setData_comm _ hdestination]
  burn {account mint authority amount _ before after key} data hkey h := by
    change burn account mint authority amount (before.setData key data) =
      .ok (after.setData key data)
    change burn account mint authority amount before = .ok after at h
    change (before.accounts key).owner = .vaultProgram at hkey
    simp only [burn, bind_eq_ok, require_eq_ok, exists_const,
      Except.ok.injEq] at h ⊢
    obtain ⟨t, ht, m, hm, hmint, howner, held, hheld, supply, hsupply,
      rfl⟩ := h
    refine ⟨t, tokenAccount_setData hkey data ht, m,
      mintAccount_setData hkey data hm, hmint, howner, held, hheld, supply,
      hsupply, ?_⟩
    have haccount := ne_of_tokenOwned hkey (tokenAccount_eq_ok.mp ht).1
    have hmintNe := ne_of_tokenOwned hkey (mintAccount_eq_ok.mp hm).1
    rw [setData_comm before hmintNe, setData_comm _ haccount]

end Blind

def resolveMarket : Transaction Address :=
  .call [signer admin, writable poolKey, writable slab, readonly percolator]
    .adminResolveMarket

/-- Alice deposits, and the market is resolved. -/
def untilResolution : List (Transaction Address) :=
  [openLpAccount alice, deposit alice 1000, resolveMarket]

/-- She takes part of it out again. -/
def afterResolution : List (Transaction Address) :=
  [waitUntil 1200 1, withdraw alice 400]

theorem resolvedMarket_poolLifetime :
    ∃ created middle bank : Bank Address,
    ∃ pool₀ pool₁ pool₂ : StakePool Address,
      deployment.PoolAt created poolKey pool₀ ∧
      deployment.PoolAt middle poolKey pool₁ ∧
      deployment.PoolAt bank poolKey pool₂ ∧
      pool₀.Continues pool₁ ∧ pool₁.Continues pool₂ ∧
      pool₁.isResolved = true ∧
      (∀ amount after,
        processInstruction runtime (depositAccounts bob) (.deposit amount)
          bank ≠ .ok after) ∧
      ∀ pool', pool₂.SameButResolved pool' → ∀ lpAmount,
        ((∃ after, processInstruction runtime (withdrawAccounts alice)
            (.withdraw lpAmount) bank = .ok after) ↔
          ∃ after, processInstruction runtime (withdrawAccounts alice)
            (.withdraw lpAmount)
            (bank.setData poolKey (.stakePool pool')) = .ok after) := by
  have hinit := step_of_accepts
    (show accepts genesis (initPool 10) = true by decide +kernel)
  have hearlier := run_of_acceptsAll (show acceptsAll
    ((initPool 10).perform runtime genesis) untilResolution = true by
      decide +kernel)
  have hlater := run_of_acceptsAll (show acceptsAll
    (Transaction.performAll runtime ((initPool 10).perform runtime genesis)
      untilResolution) afterResolution = true by decide +kernel)
  obtain ⟨pool₀, pool₁, pool₂, hpool₀, hpool₁, hpool₂, hfirst, hsecond, -,
    hresolved, hclosed, hblind⟩ :=
    Run.poolLifetime runtime_tokenProgramBlind
      ⟨genesis, [], genesis_genesis, .start⟩ hinit rfl hearlier hlater
  have hresolved₁ :=
    hresolved ⟨resolveMarket.event, by simp [untilResolution], rfl⟩
  refine ⟨_, _, _, pool₀, pool₁, pool₂, hpool₀, hpool₁, hpool₂, hfirst,
    hsecond, hresolved₁, ?_, ?_⟩
  · intro amount after
    exact hclosed (hsecond.resolved hresolved₁).1 _ _ _ _ _ rfl
  · intro pool' hsame lpAmount
    exact hblind pool' hsame _ _ _ _ rfl

end Reference

end PercolatorVault
