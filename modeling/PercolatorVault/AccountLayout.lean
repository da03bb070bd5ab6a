import PercolatorVault.PlainRecords
import PercolatorVault.PoolState
import Mathlib.Data.Fintype.Basic

/-!
# The bytes of the account records

`StakePool` and `StakeDeposit` are cast from account data as they lie there.
Their images are laid out field after field, with the padding that makes the
words aligned; the fields kept in the reserved bytes have fixed places as
well.  Every string of the right length is the image of one record, every
field sits at the sum of the sizes before it, and a field that is written
changes its own bytes only.
-/

namespace PercolatorVault

open CheckedArithmetic
open LittleEndian
open PlainRecords

variable {Pubkey : Type}

/-- Addresses are 32 bytes, the default one is all zero. -/
structure KeyBytes (Pubkey : Type) [Inhabited Pubkey] where
  toBytes : Pubkey ≃ Vector U8 32
  toBytes_default : toBytes default = zeroBytes 32

namespace Layout

def u8 : Plain U8 := .word 1 rfl
def u16 : Plain U16 := .word 2 rfl
def u64 : Plain U64 := .word 8 rfl

/-- The first of the parts a field is made of. -/
abbrev first {α β γ : Type} {record : Plain α} {left : Plain β}
    {right : Plain γ} (field : Field record (left.pair right)) :
    Field record left :=
  field.comp (.head left right)

/-- The parts after the first. -/
abbrev rest {α β γ : Type} {record : Plain α} {left : Plain β}
    {right : Plain γ} (field : Field record (left.pair right)) :
    Field record right :=
  field.comp (.tail left right)

end Layout

open Layout

theorem u8_fromBytes_readSlice {size : ℕ} (array : Vector U8 size)
    {start : ℕ} (h : start < size) :
    u8.fromBytes (readSlice array start 1) = array[start] := by
  rw [readSlice_one array h]
  change BitVec.ofNat 8 (array[start].toNat + 256 * 0) = array[start]
  rw [Nat.mul_zero, Nat.add_zero, BitVec.ofNat_toNat, BitVec.setWidth_eq]

theorem copyFromSlice_u8_toBytes {size : ℕ} (array : Vector U8 size)
    {start : ℕ} (h : start < size) (byte : U8) :
    copyFromSlice array start (u8.toBytes byte) = array.set start byte := by
  have hbyte : u8.toBytes byte = [byte] := by
    change [BitVec.ofNat 8 byte.toNat] = [byte]
    rw [BitVec.ofNat_toNat, BitVec.setWidth_eq]
  rw [hbyte]
  exact copyFromSlice_one array h byte

section Records

variable [Inhabited Pubkey] (keys : KeyBytes Pubkey)

def KeyBytes.plain : Plain Pubkey :=
  (Plain.array 32).map keys.toBytes.symm

/-! ## StakePool -/

/-- A pool record with its padding. -/
structure StakePoolImage (Pubkey : Type) where
  pool : StakePool Pubkey
  padding : Vector U8 4
  modePadding : Vector U8 7
deriving DecidableEq

namespace StakePoolImage

def flagsLayout : Plain (U8 × U8 × U8 × U8 × Vector U8 4) :=
  u8.pair (u8.pair (u8.pair (u8.pair (.array 4))))

def addressesLayout :
    Plain (Pubkey × Pubkey × Pubkey × Pubkey × Pubkey) :=
  keys.plain.pair
    (keys.plain.pair (keys.plain.pair (keys.plain.pair keys.plain)))

def totalsLayout : Plain (U64 × U64 × U64 × U64 × U64 × U64 × U64) :=
  u64.pair (u64.pair (u64.pair (u64.pair (u64.pair (u64.pair u64)))))

def accrualLayout : Plain (U64 × U64 × U64) :=
  u64.pair (u64.pair u64)

def modeLayout : Plain (U8 × Vector U8 7 × Vector U8 64) :=
  u8.pair ((Plain.array 7).pair (.array 64))

/-- The fields in the order of their declaration. -/
abbrev Fields (Pubkey : Type) : Type :=
  (U8 × U8 × U8 × U8 × Vector U8 4) ×
    (Pubkey × Pubkey × Pubkey × Pubkey × Pubkey) ×
      (U64 × U64 × U64 × U64 × U64 × U64 × U64) × Pubkey ×
        (U64 × U64 × U64) × U8 × Vector U8 7 × Vector U8 64

def fieldsLayout : Plain (Fields Pubkey) :=
  flagsLayout.pair ((addressesLayout keys).pair (totalsLayout.pair
    (keys.plain.pair (accrualLayout.pair modeLayout))))

def ofFields : Fields Pubkey ≃ StakePoolImage Pubkey where
  toFun
    | ((isInitialized, bump, vaultAuthorityBump, adminTransferred, padding),
        (slab, admin, collateralMint, lpMint, vault),
        (totalDeposited, totalLpSupply, cooldownSlots, depositCap,
          totalFlushed, totalReturned, totalWithdrawn),
        percolatorProgram,
        (totalFeesEarned, lastFeeAccrualSlot, lastVaultSnapshot),
        poolMode, modePadding, reserved) =>
      ⟨⟨isInitialized, bump, vaultAuthorityBump, adminTransferred, slab,
          admin, collateralMint, lpMint, vault, totalDeposited, totalLpSupply,
          cooldownSlots, depositCap, totalFlushed, totalReturned,
          totalWithdrawn, percolatorProgram, totalFeesEarned,
          lastFeeAccrualSlot, lastVaultSnapshot, poolMode, reserved⟩,
        padding, modePadding⟩
  invFun image :=
    let pool := image.pool
    ((pool.isInitialized, pool.bump, pool.vaultAuthorityBump,
        pool.adminTransferred, image.padding),
      (pool.slab, pool.admin, pool.collateralMint, pool.lpMint, pool.vault),
      (pool.totalDeposited, pool.totalLpSupply, pool.cooldownSlots,
        pool.depositCap, pool.totalFlushed, pool.totalReturned,
        pool.totalWithdrawn),
      pool.percolatorProgram,
      (pool.totalFeesEarned, pool.lastFeeAccrualSlot,
        pool.lastVaultSnapshot),
      pool.poolMode, image.modePadding, pool.reserved)
  left_inv _ := rfl
  right_inv _ := rfl

/-- The account data of a pool. -/
def layout : Plain (StakePoolImage Pubkey) :=
  (fieldsLayout keys).map ofFields

def all : Field (layout keys) (fieldsLayout keys) :=
  (Field.whole (fieldsLayout keys)).ofMap ofFields

def flags : Field (layout keys) flagsLayout := first (all keys)

def addresses : Field (layout keys) (addressesLayout keys) :=
  first (rest (all keys))

def totals : Field (layout keys) totalsLayout :=
  first (rest (rest (all keys)))

def program : Field (layout keys) keys.plain :=
  first (rest (rest (rest (all keys))))

def accrual : Field (layout keys) accrualLayout :=
  first (rest (rest (rest (rest (all keys)))))

def mode : Field (layout keys) modeLayout :=
  rest (rest (rest (rest (rest (all keys)))))

def reserved : Field (layout keys) (.array 64) :=
  rest (rest (mode keys))

/-- A part of the reserved bytes. -/
def reservedPart {α : Type} (part : Plain α) (offset : ℕ)
    (hfits : offset + part.size ≤ 64) : Field (layout keys) part :=
  (reserved keys).comp (.within part offset hfits)

end StakePoolImage

/-- The fields of a pool account in their order, the reserved bytes taken
apart. -/
inductive PoolField where
  | isInitialized
  | bump
  | vaultAuthorityBump
  | adminTransferred
  | padding
  | slab
  | admin
  | collateralMint
  | lpMint
  | vault
  | totalDeposited
  | totalLpSupply
  | cooldownSlots
  | depositCap
  | totalFlushed
  | totalReturned
  | totalWithdrawn
  | percolatorProgram
  | totalFeesEarned
  | lastFeeAccrualSlot
  | lastVaultSnapshot
  | poolMode
  | modePadding
  | discriminator
  | version
  | reservedFlags
  | hwmFloorBps
  | reservedPadding
  | epochHighWaterTvl
  | hwmLastEpoch
  | preSupplyVaultOffset
  | free
deriving DecidableEq

namespace PoolField

/-- The fields as they follow each other. -/
def inOrder : List PoolField :=
  [isInitialized, bump, vaultAuthorityBump, adminTransferred, padding, slab,
    admin, collateralMint, lpMint, vault, totalDeposited, totalLpSupply,
    cooldownSlots, depositCap, totalFlushed, totalReturned, totalWithdrawn,
    percolatorProgram, totalFeesEarned, lastFeeAccrualSlot,
    lastVaultSnapshot, poolMode, modePadding, discriminator, version,
    reservedFlags, hwmFloorBps, reservedPadding, epochHighWaterTvl,
    hwmLastEpoch, preSupplyVaultOffset, free]

theorem mem_inOrder (field : PoolField) : field ∈ inOrder := by
  cases field <;> decide

instance : Fintype PoolField := .ofList inOrder mem_inOrder

def offset : PoolField → ℕ
  | isInitialized => 0
  | bump => 1
  | vaultAuthorityBump => 2
  | adminTransferred => 3
  | padding => 4
  | slab => 8
  | admin => 40
  | collateralMint => 72
  | lpMint => 104
  | vault => 136
  | totalDeposited => 168
  | totalLpSupply => 176
  | cooldownSlots => 184
  | depositCap => 192
  | totalFlushed => 200
  | totalReturned => 208
  | totalWithdrawn => 216
  | percolatorProgram => 224
  | totalFeesEarned => 256
  | lastFeeAccrualSlot => 264
  | lastVaultSnapshot => 272
  | poolMode => 280
  | modePadding => 281
  | discriminator => 288
  | version => 296
  | reservedFlags => 297
  | hwmFloorBps => 298
  | reservedPadding => 300
  | epochHighWaterTvl => 304
  | hwmLastEpoch => 312
  | preSupplyVaultOffset => 320
  | free => 328

abbrev Value (Pubkey : Type) : PoolField → Type
  | slab | admin | collateralMint | lpMint | vault | percolatorProgram =>
      Pubkey
  | totalDeposited | totalLpSupply | cooldownSlots | depositCap
  | totalFlushed | totalReturned | totalWithdrawn | totalFeesEarned
  | lastFeeAccrualSlot | lastVaultSnapshot | epochHighWaterTvl
  | hwmLastEpoch | preSupplyVaultOffset => U64
  | isInitialized | bump | vaultAuthorityBump | adminTransferred | poolMode
  | version | reservedFlags => U8
  | hwmFloorBps => U16
  | padding | reservedPadding => Vector U8 4
  | modePadding => Vector U8 7
  | discriminator => Vector U8 8
  | free => Vector U8 24

def plain : (field : PoolField) → Plain (field.Value Pubkey)
  | slab | admin | collateralMint | lpMint | vault | percolatorProgram =>
      keys.plain
  | totalDeposited | totalLpSupply | cooldownSlots | depositCap
  | totalFlushed | totalReturned | totalWithdrawn | totalFeesEarned
  | lastFeeAccrualSlot | lastVaultSnapshot | epochHighWaterTvl
  | hwmLastEpoch | preSupplyVaultOffset => u64
  | isInitialized | bump | vaultAuthorityBump | adminTransferred | poolMode
  | version | reservedFlags => u8
  | hwmFloorBps => u16
  | padding | reservedPadding => .array 4
  | modePadding => .array 7
  | discriminator => .array 8
  | free => .array 24

/-- Where each field is found in the account data. -/
def place : (field : PoolField) →
    Field (StakePoolImage.layout keys) (field.plain keys)
  | isInitialized => first (StakePoolImage.flags keys)
  | bump => first (rest (StakePoolImage.flags keys))
  | vaultAuthorityBump => first (rest (rest (StakePoolImage.flags keys)))
  | adminTransferred => first (rest (rest (rest (StakePoolImage.flags keys))))
  | padding => rest (rest (rest (rest (StakePoolImage.flags keys))))
  | slab => first (StakePoolImage.addresses keys)
  | admin => first (rest (StakePoolImage.addresses keys))
  | collateralMint => first (rest (rest (StakePoolImage.addresses keys)))
  | lpMint => first (rest (rest (rest (StakePoolImage.addresses keys))))
  | vault => rest (rest (rest (rest (StakePoolImage.addresses keys))))
  | totalDeposited => first (StakePoolImage.totals keys)
  | totalLpSupply => first (rest (StakePoolImage.totals keys))
  | cooldownSlots => first (rest (rest (StakePoolImage.totals keys)))
  | depositCap => first (rest (rest (rest (StakePoolImage.totals keys))))
  | totalFlushed =>
      first (rest (rest (rest (rest (StakePoolImage.totals keys)))))
  | totalReturned =>
      first (rest (rest (rest (rest (rest (StakePoolImage.totals keys))))))
  | totalWithdrawn =>
      rest (rest (rest (rest (rest (rest (StakePoolImage.totals keys))))))
  | percolatorProgram => StakePoolImage.program keys
  | totalFeesEarned => first (StakePoolImage.accrual keys)
  | lastFeeAccrualSlot => first (rest (StakePoolImage.accrual keys))
  | lastVaultSnapshot => rest (rest (StakePoolImage.accrual keys))
  | poolMode => first (StakePoolImage.mode keys)
  | modePadding => first (rest (StakePoolImage.mode keys))
  | discriminator =>
      StakePoolImage.reservedPart keys (.array 8) 0 (by decide)
  | version => StakePoolImage.reservedPart keys u8 8 (by decide)
  | reservedFlags => StakePoolImage.reservedPart keys u8 9 (by decide)
  | hwmFloorBps => StakePoolImage.reservedPart keys u16 10 (by decide)
  | reservedPadding =>
      StakePoolImage.reservedPart keys (.array 4) 12 (by decide)
  | epochHighWaterTvl => StakePoolImage.reservedPart keys u64 16 (by decide)
  | hwmLastEpoch => StakePoolImage.reservedPart keys u64 24 (by decide)
  | preSupplyVaultOffset =>
      StakePoolImage.reservedPart keys u64 32 (by decide)
  | free => StakePoolImage.reservedPart keys (.array 24) 40 (by decide)

/-- The fields read with the accessors of the record. -/
def get : (field : PoolField) → StakePoolImage Pubkey → field.Value Pubkey
  | isInitialized, image => image.pool.isInitialized
  | bump, image => image.pool.bump
  | vaultAuthorityBump, image => image.pool.vaultAuthorityBump
  | adminTransferred, image => image.pool.adminTransferred
  | padding, image => image.padding
  | slab, image => image.pool.slab
  | admin, image => image.pool.admin
  | collateralMint, image => image.pool.collateralMint
  | lpMint, image => image.pool.lpMint
  | vault, image => image.pool.vault
  | totalDeposited, image => image.pool.totalDeposited
  | totalLpSupply, image => image.pool.totalLpSupply
  | cooldownSlots, image => image.pool.cooldownSlots
  | depositCap, image => image.pool.depositCap
  | totalFlushed, image => image.pool.totalFlushed
  | totalReturned, image => image.pool.totalReturned
  | totalWithdrawn, image => image.pool.totalWithdrawn
  | percolatorProgram, image => image.pool.percolatorProgram
  | totalFeesEarned, image => image.pool.totalFeesEarned
  | lastFeeAccrualSlot, image => image.pool.lastFeeAccrualSlot
  | lastVaultSnapshot, image => image.pool.lastVaultSnapshot
  | poolMode, image => image.pool.poolMode
  | modePadding, image => image.modePadding
  | discriminator, image =>
      (Plain.array 8).fromBytes (readSlice image.pool.reserved 0 8)
  | version, image => image.pool.version
  | reservedFlags, image => image.pool.reserved.get 9
  | hwmFloorBps, image => image.pool.hwmFloorBps
  | reservedPadding, image =>
      (Plain.array 4).fromBytes (readSlice image.pool.reserved 12 4)
  | epochHighWaterTvl, image => image.pool.epochHighWaterTvl
  | hwmLastEpoch, image => image.pool.hwmLastEpoch
  | preSupplyVaultOffset, image => image.pool.preSupplyVaultOffset
  | free, image =>
      (Plain.array 24).fromBytes (readSlice image.pool.reserved 40 24)

theorem place_get (field : PoolField) (image : StakePoolImage Pubkey) :
    (field.place keys).get image = field.get image := by
  cases field with
  | version => exact u8_fromBytes_readSlice _ _
  | reservedFlags => exact u8_fromBytes_readSlice _ _
  | hwmFloorBps =>
      change u16.fromBytes (readSlice image.pool.reserved 10 2) = _
      unfold get StakePool.hwmFloorBps
      rw [readSlice_two image.pool.reserved (by decide) (by decide)]
      rfl
  | _ => rfl

theorem versionByte_lt : 8 < 64 := by
  decide

theorem flagsByte_lt : 9 < 64 := by
  decide

/-- The fields written with the setters of the record. -/
def set : (field : PoolField) → StakePoolImage Pubkey →
    field.Value Pubkey → StakePoolImage Pubkey
  | isInitialized, image, value =>
      { image with pool := { image.pool with isInitialized := value } }
  | bump, image, value =>
      { image with pool := { image.pool with bump := value } }
  | vaultAuthorityBump, image, value =>
      { image with pool := { image.pool with vaultAuthorityBump := value } }
  | adminTransferred, image, value =>
      { image with pool := { image.pool with adminTransferred := value } }
  | padding, image, value => { image with padding := value }
  | slab, image, value =>
      { image with pool := { image.pool with slab := value } }
  | admin, image, value =>
      { image with pool := { image.pool with admin := value } }
  | collateralMint, image, value =>
      { image with pool := { image.pool with collateralMint := value } }
  | lpMint, image, value =>
      { image with pool := { image.pool with lpMint := value } }
  | vault, image, value =>
      { image with pool := { image.pool with vault := value } }
  | totalDeposited, image, value =>
      { image with pool := { image.pool with totalDeposited := value } }
  | totalLpSupply, image, value =>
      { image with pool := { image.pool with totalLpSupply := value } }
  | cooldownSlots, image, value =>
      { image with pool := { image.pool with cooldownSlots := value } }
  | depositCap, image, value =>
      { image with pool := { image.pool with depositCap := value } }
  | totalFlushed, image, value =>
      { image with pool := { image.pool with totalFlushed := value } }
  | totalReturned, image, value =>
      { image with pool := { image.pool with totalReturned := value } }
  | totalWithdrawn, image, value =>
      { image with pool := { image.pool with totalWithdrawn := value } }
  | percolatorProgram, image, value =>
      { image with pool := { image.pool with percolatorProgram := value } }
  | totalFeesEarned, image, value =>
      { image with pool := { image.pool with totalFeesEarned := value } }
  | lastFeeAccrualSlot, image, value =>
      { image with pool := { image.pool with lastFeeAccrualSlot := value } }
  | lastVaultSnapshot, image, value =>
      { image with pool := { image.pool with lastVaultSnapshot := value } }
  | poolMode, image, value =>
      { image with pool := { image.pool with poolMode := value } }
  | modePadding, image, value => { image with modePadding := value }
  | discriminator, image, value =>
      { image with pool := { image.pool with
        reserved := copyFromSlice image.pool.reserved 0 value.toList } }
  | version, image, value =>
      { image with pool := { image.pool with
        reserved := image.pool.reserved.set 8 value versionByte_lt } }
  | reservedFlags, image, value =>
      { image with pool := { image.pool with
        reserved := image.pool.reserved.set 9 value flagsByte_lt } }
  | hwmFloorBps, image, value =>
      { image with pool := image.pool.setHwmFloorBps value }
  | reservedPadding, image, value =>
      { image with pool := { image.pool with
        reserved := copyFromSlice image.pool.reserved 12 value.toList } }
  | epochHighWaterTvl, image, value =>
      { image with pool := image.pool.setEpochHighWaterTvl value }
  | hwmLastEpoch, image, value =>
      { image with pool := image.pool.setHwmLastEpoch value }
  | preSupplyVaultOffset, image, value =>
      { image with pool := image.pool.setPreSupplyVaultOffset value }
  | free, image, value =>
      { image with pool := { image.pool with
        reserved := copyFromSlice image.pool.reserved 40 value.toList } }

theorem place_set (field : PoolField) (image : StakePoolImage Pubkey)
    (value : field.Value Pubkey) :
    (field.place keys).set image value = field.set image value := by
  have hreserved : ∀ {left right : Vector U8 64}, left = right →
      { image with pool := { image.pool with reserved := left } } =
        { image with pool := { image.pool with reserved := right } } := by
    rintro left _ rfl
    rfl
  cases field with
  | version =>
      exact hreserved (copyFromSlice_u8_toBytes _ versionByte_lt value)
  | reservedFlags =>
      exact hreserved (copyFromSlice_u8_toBytes _ flagsByte_lt value)
  | _ => rfl

def size : PoolField → ℕ
  | slab | admin | collateralMint | lpMint | vault | percolatorProgram => 32
  | totalDeposited | totalLpSupply | cooldownSlots | depositCap
  | totalFlushed | totalReturned | totalWithdrawn | totalFeesEarned
  | lastFeeAccrualSlot | lastVaultSnapshot | epochHighWaterTvl
  | hwmLastEpoch | preSupplyVaultOffset | discriminator => 8
  | isInitialized | bump | vaultAuthorityBump | adminTransferred | poolMode
  | version | reservedFlags => 1
  | hwmFloorBps => 2
  | padding | reservedPadding => 4
  | modePadding => 7
  | free => 24

theorem place_offset (field : PoolField) :
    (field.place keys).offset = field.offset := by
  cases field <;> rfl

theorem plain_size (field : PoolField) :
    (field.plain keys).size = field.size := by
  cases field <;> rfl

theorem covered : ∀ index < stakePoolSize, ∃ field : PoolField,
    field.offset ≤ index ∧ index < field.offset + field.size := by
  decide +kernel

theorem disjoint : ∀ field other : PoolField, field ≠ other →
    other.offset + other.size ≤ field.offset ∨
      field.offset + field.size ≤ other.offset := by
  decide +kernel

end PoolField

namespace StakePoolImage

theorem layout_size : (layout keys).size = stakePoolSize := by
  simp only [layout, Plain.map, fieldsLayout, Plain.pair, flagsLayout,
    addressesLayout, totalsLayout, accrualLayout, modeLayout,
    KeyBytes.plain, u8, u64, Plain.word, Plain.array]
  rfl

end StakePoolImage

/-! ## StakeDeposit -/

/-- A deposit record with its padding. -/
structure StakeDepositImage (Pubkey : Type) where
  deposit : StakeDeposit Pubkey
  padding : Vector U8 6
deriving DecidableEq

namespace StakeDepositImage

/-- The fields in the order of their declaration. -/
abbrev Fields (Pubkey : Type) : Type :=
  U8 × U8 × Vector U8 6 × Pubkey × Pubkey × U64 × U64 × Vector U8 64

def fieldsLayout : Plain (Fields Pubkey) :=
  u8.pair (u8.pair ((Plain.array 6).pair (keys.plain.pair (keys.plain.pair
    (u64.pair (u64.pair (.array 64)))))))

def ofFields : Fields Pubkey ≃ StakeDepositImage Pubkey where
  toFun
    | (isInitialized, bump, padding, pool, user, lastDepositSlot, lpAmount,
        reserved) =>
      ⟨⟨isInitialized, bump, pool, user, lastDepositSlot, lpAmount,
        reserved⟩, padding⟩
  invFun image :=
    let deposit := image.deposit
    (deposit.isInitialized, deposit.bump, image.padding, deposit.pool,
      deposit.user, deposit.lastDepositSlot, deposit.lpAmount,
      deposit.reserved)
  left_inv _ := rfl
  right_inv _ := rfl

/-- The account data of a deposit record. -/
def layout : Plain (StakeDepositImage Pubkey) :=
  (fieldsLayout keys).map ofFields

def all : Field (layout keys) (fieldsLayout keys) :=
  (Field.whole (fieldsLayout keys)).ofMap ofFields

/-- The address of the pool and what follows it. -/
def body : Field (layout keys) (keys.plain.pair (keys.plain.pair
    (u64.pair (u64.pair (.array 64))))) :=
  rest (rest (rest (all keys)))

def reserved : Field (layout keys) (.array 64) :=
  rest (rest (rest (rest (body keys))))

theorem layout_size : (layout keys).size = stakeDepositSize := by
  simp only [layout, Plain.map, fieldsLayout, Plain.pair, KeyBytes.plain, u8,
    u64, Plain.word, Plain.array]
  rfl

end StakeDepositImage

inductive DepositField where
  | isInitialized
  | bump
  | padding
  | pool
  | user
  | lastDepositSlot
  | lpAmount
  | discriminator
  | free
deriving DecidableEq

namespace DepositField

def inOrder : List DepositField :=
  [isInitialized, bump, padding, pool, user, lastDepositSlot, lpAmount,
    discriminator, free]

theorem mem_inOrder (field : DepositField) : field ∈ inOrder := by
  cases field <;> decide

instance : Fintype DepositField := .ofList inOrder mem_inOrder

def offset : DepositField → ℕ
  | isInitialized => 0
  | bump => 1
  | padding => 2
  | pool => 8
  | user => 40
  | lastDepositSlot => 72
  | lpAmount => 80
  | discriminator => 88
  | free => 96

def size : DepositField → ℕ
  | isInitialized | bump => 1
  | padding => 6
  | pool | user => 32
  | lastDepositSlot | lpAmount | discriminator => 8
  | free => 56

abbrev Value (Pubkey : Type) : DepositField → Type
  | isInitialized | bump => U8
  | padding => Vector U8 6
  | pool | user => Pubkey
  | lastDepositSlot | lpAmount => U64
  | discriminator => Vector U8 8
  | free => Vector U8 56

def plain : (field : DepositField) → Plain (field.Value Pubkey)
  | isInitialized | bump => u8
  | padding => .array 6
  | pool | user => keys.plain
  | lastDepositSlot | lpAmount => u64
  | discriminator => .array 8
  | free => .array 56

def place : (field : DepositField) →
    Field (StakeDepositImage.layout keys) (field.plain keys)
  | isInitialized => first (StakeDepositImage.all keys)
  | bump => first (rest (StakeDepositImage.all keys))
  | padding => first (rest (rest (StakeDepositImage.all keys)))
  | pool => first (StakeDepositImage.body keys)
  | user => first (rest (StakeDepositImage.body keys))
  | lastDepositSlot => first (rest (rest (StakeDepositImage.body keys)))
  | lpAmount => first (rest (rest (rest (StakeDepositImage.body keys))))
  | discriminator =>
      (StakeDepositImage.reserved keys).comp
        (.within (.array 8) 0 (by decide))
  | free =>
      (StakeDepositImage.reserved keys).comp
        (.within (.array 56) 8 (by decide))

def get : (field : DepositField) → StakeDepositImage Pubkey →
    field.Value Pubkey
  | isInitialized, image => image.deposit.isInitialized
  | bump, image => image.deposit.bump
  | padding, image => image.padding
  | pool, image => image.deposit.pool
  | user, image => image.deposit.user
  | lastDepositSlot, image => image.deposit.lastDepositSlot
  | lpAmount, image => image.deposit.lpAmount
  | discriminator, image =>
      (Plain.array 8).fromBytes (readSlice image.deposit.reserved 0 8)
  | free, image =>
      (Plain.array 56).fromBytes (readSlice image.deposit.reserved 8 56)

def set : (field : DepositField) → StakeDepositImage Pubkey →
    field.Value Pubkey → StakeDepositImage Pubkey
  | isInitialized, image, value =>
      { image with deposit := { image.deposit with isInitialized := value } }
  | bump, image, value =>
      { image with deposit := { image.deposit with bump := value } }
  | padding, image, value => { image with padding := value }
  | pool, image, value =>
      { image with deposit := { image.deposit with pool := value } }
  | user, image, value =>
      { image with deposit := { image.deposit with user := value } }
  | lastDepositSlot, image, value =>
      { image with deposit :=
        { image.deposit with lastDepositSlot := value } }
  | lpAmount, image, value =>
      { image with deposit := { image.deposit with lpAmount := value } }
  | discriminator, image, value =>
      { image with deposit := { image.deposit with
        reserved := copyFromSlice image.deposit.reserved 0 value.toList } }
  | free, image, value =>
      { image with deposit := { image.deposit with
        reserved := copyFromSlice image.deposit.reserved 8 value.toList } }

theorem plain_size (field : DepositField) :
    (field.plain keys).size = field.size := by
  cases field <;> rfl

theorem covered : ∀ index < stakeDepositSize, ∃ field : DepositField,
    field.offset ≤ index ∧ index < field.offset + field.size := by
  decide +kernel

theorem disjoint : ∀ field other : DepositField, field ≠ other →
    other.offset + other.size ≤ field.offset ∨
      field.offset + field.size ≤ other.offset := by
  decide +kernel

end DepositField

/-! ## The formats -/

theorem StakePoolImage.hasFormat :
    HasFormat (layout keys) stakePoolSize (PoolField.plain keys)
      PoolField.offset PoolField.get PoolField.set := by
  refine hasFormat_of_places (PoolField.place keys) (layout_size keys)
    (PoolField.place_offset keys) (PoolField.place_get keys)
    (PoolField.place_set keys) ?_ ?_
  · intro index hindex
    obtain ⟨field, hfield⟩ := PoolField.covered index hindex
    exact ⟨field, by rwa [field.plain_size]⟩
  · intro field other hne
    rw [field.plain_size, other.plain_size]
    exact PoolField.disjoint field other hne

theorem StakeDepositImage.hasFormat :
    HasFormat (layout keys) stakeDepositSize (DepositField.plain keys)
      DepositField.offset DepositField.get DepositField.set := by
  refine hasFormat_of_places (DepositField.place keys) (layout_size keys)
    (fun field => by cases field <;> rfl)
    (fun field image => by cases field <;> rfl)
    (fun field image value => by cases field <;> rfl) ?_ ?_
  · intro index hindex
    obtain ⟨field, hfield⟩ := DepositField.covered index hindex
    exact ⟨field, by rwa [field.plain_size]⟩
  · intro field other hne
    rw [field.plain_size, other.plain_size]
    exact DepositField.disjoint field other hne

end Records

end PercolatorVault
