import PercolatorVault.LittleEndian
import PercolatorVault.LpMath

/-!
# Pool and deposit records

The two account layouts of the program.  `StakePool` keeps its totals in named
fields and everything added later in a packed array of 64 reserved bytes; the
accessors of that array are translated byte by byte.  Addresses are an
arbitrary type `Pubkey`, whose `default` value is the all-zero address.
-/

namespace PercolatorVault

open CheckedArithmetic
open LittleEndian

variable {Pubkey : Type}

def stakePoolDiscriminator : List U8 :=
  [0x53, 0x50, 0x4F, 0x4F, 0x4C, 0x5F, 0x56, 0x31]

def stakeDepositDiscriminator : List U8 :=
  [0x53, 0x44, 0x45, 0x50, 0x5F, 0x56, 0x31, 0x00]

def zeroBytes (size : ℕ) : Vector U8 size := Vector.replicate size 0

structure StakePool (Pubkey : Type) where
  isInitialized : U8
  bump : U8
  vaultAuthorityBump : U8
  adminTransferred : U8
  slab : Pubkey
  admin : Pubkey
  collateralMint : Pubkey
  lpMint : Pubkey
  vault : Pubkey
  totalDeposited : U64
  totalLpSupply : U64
  cooldownSlots : U64
  depositCap : U64
  totalFlushed : U64
  totalReturned : U64
  totalWithdrawn : U64
  percolatorProgram : Pubkey
  totalFeesEarned : U64
  lastFeeAccrualSlot : U64
  lastVaultSnapshot : U64
  poolMode : U8
  reserved : Vector U8 64
deriving DecidableEq

def stakePoolSize : ℕ := 352

structure StakeDeposit (Pubkey : Type) where
  isInitialized : U8
  bump : U8
  pool : Pubkey
  user : Pubkey
  lastDepositSlot : U64
  lpAmount : U64
  reserved : Vector U8 64
deriving DecidableEq

def stakeDepositSize : ℕ := 152

/-- The record read from freshly allocated, all-zero bytes. -/
def StakePool.zeroed [Inhabited Pubkey] : StakePool Pubkey where
  isInitialized := 0
  bump := 0
  vaultAuthorityBump := 0
  adminTransferred := 0
  slab := default
  admin := default
  collateralMint := default
  lpMint := default
  vault := default
  totalDeposited := 0
  totalLpSupply := 0
  cooldownSlots := 0
  depositCap := 0
  totalFlushed := 0
  totalReturned := 0
  totalWithdrawn := 0
  percolatorProgram := default
  totalFeesEarned := 0
  lastFeeAccrualSlot := 0
  lastVaultSnapshot := 0
  poolMode := 0
  reserved := zeroBytes 64

def StakeDeposit.zeroed [Inhabited Pubkey] : StakeDeposit Pubkey where
  isInitialized := 0
  bump := 0
  pool := default
  user := default
  lastDepositSlot := 0
  lpAmount := 0
  reserved := zeroBytes 64

def StakeDeposit.setDiscriminator
    (deposit : StakeDeposit Pubkey) : StakeDeposit Pubkey :=
  { deposit with
    reserved := copyFromSlice deposit.reserved 0 stakeDepositDiscriminator }

namespace StakePool

/-! ## The packed reserved bytes -/

def currentVersion : U8 := 1

def setDiscriminator (pool : StakePool Pubkey) : StakePool Pubkey :=
  { pool with
    reserved :=
      (copyFromSlice pool.reserved 0 stakePoolDiscriminator).set 8
        currentVersion }

def version (pool : StakePool Pubkey) : U8 := pool.reserved[8]

/-- Accepts the discriminator, or the zero bytes of a pre-upgrade account. -/
def validateDiscriminator (pool : StakePool Pubkey) : Bool :=
  let disc := readSlice pool.reserved 0 8
  decide (disc = List.replicate 8 0 ∨ disc = stakePoolDiscriminator)

def isResolved (pool : StakePool Pubkey) : Bool :=
  pool.reserved[9] &&& 0x01 ≠ 0

def setResolved (pool : StakePool Pubkey) : StakePool Pubkey :=
  { pool with reserved := pool.reserved.set 9 (pool.reserved[9] ||| 0x01) }

def hwmEnabled (pool : StakePool Pubkey) : Bool :=
  pool.reserved[9] &&& 0x02 ≠ 0

def setHwmEnabled (pool : StakePool Pubkey) (enabled : Bool) :
    StakePool Pubkey :=
  if enabled then
    { pool with reserved := pool.reserved.set 9 (pool.reserved[9] ||| 0x02) }
  else
    { pool with
      reserved := pool.reserved.set 9 (pool.reserved[9] &&& ~~~0x02) }

def hwmFloorBps (pool : StakePool Pubkey) : U16 :=
  BitVec.ofNat 16 (leValue [pool.reserved[10], pool.reserved[11]])

def setHwmFloorBps (pool : StakePool Pubkey) (bps : U16) :
    StakePool Pubkey :=
  { pool with reserved := copyFromSlice pool.reserved 10 (leBytes 2 bps.toNat) }

def epochHighWaterTvl (pool : StakePool Pubkey) : U64 :=
  BitVec.ofNat 64 (leValue (readSlice pool.reserved 16 8))

def setEpochHighWaterTvl (pool : StakePool Pubkey) (tvl : U64) :
    StakePool Pubkey :=
  { pool with reserved := copyFromSlice pool.reserved 16 (leBytes 8 tvl.toNat) }

def hwmLastEpoch (pool : StakePool Pubkey) : U64 :=
  BitVec.ofNat 64 (leValue (readSlice pool.reserved 24 8))

def setHwmLastEpoch (pool : StakePool Pubkey) (epoch : U64) :
    StakePool Pubkey :=
  { pool with
    reserved := copyFromSlice pool.reserved 24 (leBytes 8 epoch.toNat) }

def preSupplyVaultOffset (pool : StakePool Pubkey) : U64 :=
  BitVec.ofNat 64 (leValue (readSlice pool.reserved 32 8))

def setPreSupplyVaultOffset (pool : StakePool Pubkey) (amount : U64) :
    StakePool Pubkey :=
  { pool with
    reserved := copyFromSlice pool.reserved 32 (leBytes 8 amount.toNat) }

/-- Refresh the high-water mark; the mark the source returns is
`epochHighWaterTvl` of the refreshed pool. -/
def refreshHwm (pool : StakePool Pubkey) (currentEpoch currentTvl : U64) :
    StakePool Pubkey :=
  if currentEpoch ≠ pool.hwmLastEpoch then
    (pool.setEpochHighWaterTvl currentTvl).setHwmLastEpoch currentEpoch
  else if pool.epochHighWaterTvl.toNat < currentTvl.toNat then
    pool.setEpochHighWaterTvl currentTvl
  else
    pool

/-! ## Pool value -/

/-- Deposits and returns, plus the fees on a trading pool, minus withdrawals
and flushes; all positive terms are summed first. -/
def totalPoolValue (pool : StakePool Pubkey) : Option U64 := do
  let principal ← checkedAdd pool.totalDeposited pool.totalReturned
  let positives ←
    (if pool.poolMode = 1 then checkedAdd principal pool.totalFeesEarned
      else some principal)
  let negatives ← checkedAdd pool.totalWithdrawn pool.totalFlushed
  checkedSub positives negatives

/-- What the fee crank expects the vault to hold before new fees. -/
def accrualBaseline (pool : StakePool Pubkey) : Option U64 := do
  let positives ← checkedAdd pool.totalDeposited pool.totalFeesEarned
  checkedSub positives pool.totalWithdrawn

def calcLpForDeposit (pool : StakePool Pubkey) (amount : U64) : Option U64 :=
  PercolatorVault.calcLpForDeposit pool.totalLpSupply
    (pool.totalPoolValue.getD 0) amount

def calcCollateralForWithdraw (pool : StakePool Pubkey) (lpAmount : U64) :
    Option U64 := do
  let value ← pool.totalPoolValue
  PercolatorVault.calcCollateralForWithdraw pool.totalLpSupply value lpAmount

/-- Everything that ever counted as value, as an unbounded number. -/
def inflow (pool : StakePool Pubkey) : ℕ :=
  pool.totalDeposited.toNat + pool.totalReturned.toNat +
    (if pool.poolMode = 1 then pool.totalFeesEarned.toNat else 0)

/-- Everything that ever left the accounted value. -/
def outflow (pool : StakePool Pubkey) : ℕ :=
  pool.totalWithdrawn.toNat + pool.totalFlushed.toNat

theorem totalPoolValue_eq_some {pool : StakePool Pubkey} {value : U64} :
    pool.totalPoolValue = some value ↔
      pool.inflow < 2 ^ 64 ∧ pool.outflow < 2 ^ 64 ∧
        pool.inflow = value.toNat + pool.outflow := by
  unfold totalPoolValue inflow outflow
  simp only [Option.bind_eq_bind, Option.bind_eq_some_iff,
    checkedAdd_eq_some, checkedSub_eq_some]
  by_cases hmode : pool.poolMode = 1
  · simp only [if_pos hmode, checkedAdd_eq_some]
    constructor
    · rintro ⟨principal, hp, positives, hpos, negatives, hneg, hvalue⟩
      have := positives.isLt
      have := negatives.isLt
      omega
    · rintro ⟨hin, hout, heq⟩
      refine ⟨BitVec.ofNat 64 (pool.totalDeposited.toNat +
          pool.totalReturned.toNat), ?_,
        BitVec.ofNat 64 (pool.totalDeposited.toNat +
          pool.totalReturned.toNat + pool.totalFeesEarned.toNat), ?_,
        BitVec.ofNat 64 (pool.totalWithdrawn.toNat +
          pool.totalFlushed.toNat), ?_, ?_⟩ <;>
        simp only [BitVec.toNat_ofNat] <;> omega
  · simp only [if_neg hmode, Option.some.injEq]
    constructor
    · rintro ⟨principal, hp, positives, rfl, negatives, hneg, hvalue⟩
      have := principal.isLt
      have := negatives.isLt
      omega
    · rintro ⟨hin, hout, heq⟩
      refine ⟨BitVec.ofNat 64 (pool.totalDeposited.toNat +
          pool.totalReturned.toNat), ?_, _, rfl,
        BitVec.ofNat 64 (pool.totalWithdrawn.toNat +
          pool.totalFlushed.toNat), ?_, ?_⟩ <;>
        simp only [BitVec.toNat_ofNat] <;> omega

theorem accrualBaseline_eq_some {pool : StakePool Pubkey} {value : U64} :
    pool.accrualBaseline = some value ↔
      pool.totalDeposited.toNat + pool.totalFeesEarned.toNat < 2 ^ 64 ∧
        pool.totalDeposited.toNat + pool.totalFeesEarned.toNat =
          value.toNat + pool.totalWithdrawn.toNat := by
  unfold accrualBaseline
  simp only [Option.bind_eq_bind, Option.bind_eq_some_iff,
    checkedAdd_eq_some, checkedSub_eq_some]
  constructor
  · rintro ⟨positives, hpos, hvalue⟩
    have := positives.isLt
    omega
  · rintro ⟨hlt, heq⟩
    refine ⟨BitVec.ofNat 64 (pool.totalDeposited.toNat +
      pool.totalFeesEarned.toNat), ?_, ?_⟩ <;>
      simp only [BitVec.toNat_ofNat] <;> omega

/-! ## What the accessors keep -/

@[simp] theorem preSupplyVaultOffset_setPreSupplyVaultOffset
    (pool : StakePool Pubkey) (amount : U64) :
    (pool.setPreSupplyVaultOffset amount).preSupplyVaultOffset = amount := by
  have hread := readSlice_copyFromSlice pool.reserved 32
    (leBytes 8 amount.toNat) (by simp)
  rw [leBytes_length] at hread
  unfold preSupplyVaultOffset setPreSupplyVaultOffset
  dsimp only
  rw [hread]
  exact ofNat_leValue_leBytes 8 rfl amount

@[simp] theorem epochHighWaterTvl_setEpochHighWaterTvl
    (pool : StakePool Pubkey) (tvl : U64) :
    (pool.setEpochHighWaterTvl tvl).epochHighWaterTvl = tvl := by
  have hread := readSlice_copyFromSlice pool.reserved 16
    (leBytes 8 tvl.toNat) (by simp)
  rw [leBytes_length] at hread
  unfold epochHighWaterTvl setEpochHighWaterTvl
  dsimp only
  rw [hread]
  exact ofNat_leValue_leBytes 8 rfl tvl

@[simp] theorem hwmLastEpoch_setHwmLastEpoch
    (pool : StakePool Pubkey) (epoch : U64) :
    (pool.setHwmLastEpoch epoch).hwmLastEpoch = epoch := by
  have hread := readSlice_copyFromSlice pool.reserved 24
    (leBytes 8 epoch.toNat) (by simp)
  rw [leBytes_length] at hread
  unfold hwmLastEpoch setHwmLastEpoch
  dsimp only
  rw [hread]
  exact ofNat_leValue_leBytes 8 rfl epoch

@[simp] theorem hwmFloorBps_setHwmFloorBps
    (pool : StakePool Pubkey) (bps : U16) :
    (pool.setHwmFloorBps bps).hwmFloorBps = bps := by
  have hbytes : [(pool.setHwmFloorBps bps).reserved[10],
      (pool.setHwmFloorBps bps).reserved[11]] = leBytes 2 bps.toNat := by
    simp [setHwmFloorBps, getElem_copyFromSlice, leBytes]
  unfold hwmFloorBps
  rw [hbytes]
  exact ofNat_leValue_leBytes 2 rfl bps

end StakePool

end PercolatorVault
