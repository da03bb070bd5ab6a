import PercolatorVault.AccountLayout
import PercolatorVault.Processor

/-!
# Records cast from raw account data

The handlers work on records; the runtime hands them bytes.  What a handler
loads from an account of the program is what the cast of its first bytes
reads, what it stores is what overwriting these bytes leaves, and no deposit
record can be cast to a pool.
-/

namespace PercolatorVault

open CheckedArithmetic
open FallibleSteps
open PlainRecords

variable {Pubkey : Type} [Inhabited Pubkey] (keys : KeyBytes Pubkey)

/-! ## Freshly allocated accounts -/

theorem KeyBytes.isZero_default : keys.plain.IsZero default := by
  have hzero := (Plain.isZero_array 32).map keys.toBytes.symm
  rwa [← show keys.toBytes default = Vector.replicate 32 0 from
    keys.toBytes_default, Equiv.symm_apply_apply] at hzero

theorem Layout.isZero_u8 : Layout.u8.IsZero 0 := Plain.isZero_word 1 rfl

theorem Layout.isZero_u64 : Layout.u64.IsZero 0 := Plain.isZero_word 8 rfl

def StakePoolImage.zeroed : StakePoolImage Pubkey :=
  ⟨StakePool.zeroed, zeroBytes 4, zeroBytes 7⟩

def StakeDepositImage.zeroed : StakeDepositImage Pubkey :=
  ⟨StakeDeposit.zeroed, zeroBytes 6⟩

theorem StakePoolImage.isZero_zeroed :
    (layout keys).IsZero StakePoolImage.zeroed := by
  have hbyte := Layout.isZero_u8
  have hword := Layout.isZero_u64
  have hkey := keys.isZero_default
  have hflags := hbyte.pair (hbyte.pair (hbyte.pair
    (hbyte.pair (Plain.isZero_array 4))))
  have haddresses := hkey.pair (hkey.pair (hkey.pair (hkey.pair hkey)))
  have haccrual := hword.pair (hword.pair hword)
  have htotals := hword.pair (hword.pair (hword.pair (hword.pair haccrual)))
  have hmode := hbyte.pair
    ((Plain.isZero_array 7).pair (Plain.isZero_array 64))
  exact (hflags.pair (haddresses.pair (htotals.pair
    (hkey.pair (haccrual.pair hmode))))).map ofFields

theorem StakeDepositImage.isZero_zeroed :
    (layout keys).IsZero StakeDepositImage.zeroed := by
  have hbyte := Layout.isZero_u8
  have hword := Layout.isZero_u64
  have hkey := keys.isZero_default
  exact (hbyte.pair (hbyte.pair ((Plain.isZero_array 6).pair
    (hkey.pair (hkey.pair (hword.pair
      (hword.pair (Plain.isZero_array 64)))))))).map ofFields

/-! ## Casts -/

/-- `bytemuck::from_bytes(&data[..STAKE_POOL_SIZE])`; a short slice panics. -/
def castPool (data : List U8) :
    Except ProgramError (StakePoolImage Pubkey) :=
  okOr ((StakePoolImage.layout keys).readPrefix data) .programFailedToComplete

/-- `bytemuck::from_bytes(&data[..STAKE_DEPOSIT_SIZE])`. -/
def castDeposit (data : List U8) :
    Except ProgramError (StakeDepositImage Pubkey) :=
  okOr ((StakeDepositImage.layout keys).readPrefix data)
    .programFailedToComplete

/-- The data behind the mutable reference after the fields were written. -/
def writePool (data : List U8) (pool : StakePool Pubkey) : List U8 :=
  match castPool keys data with
  | .ok image =>
      overwrite data 0
        ((StakePoolImage.layout keys).toBytes { image with pool := pool })
  | .error _ => data

theorem castPool_zeroes (length : ℕ) :
    castPool keys (List.replicate length 0) =
      if stakePoolSize ≤ length then .ok StakePoolImage.zeroed
      else .error .programFailedToComplete := by
  unfold castPool
  rw [Plain.readPrefix_zeroes (StakePoolImage.isZero_zeroed keys),
    StakePoolImage.layout_size]
  split <;> rfl

theorem castDeposit_zeroes (length : ℕ) :
    castDeposit keys (List.replicate length 0) =
      if stakeDepositSize ≤ length then .ok StakeDepositImage.zeroed
      else .error .programFailedToComplete := by
  unfold castDeposit
  rw [Plain.readPrefix_zeroes (StakeDepositImage.isZero_zeroed keys),
    StakeDepositImage.layout_size]
  split <;> rfl

/-- What is written is what the next cast reads; the padding and everything
behind the record stay. -/
theorem castPool_writePool {data : List U8} {image : StakePoolImage Pubkey}
    (h : castPool keys data = .ok image) (pool : StakePool Pubkey) :
    castPool keys (writePool keys data pool) =
        .ok { image with pool := pool } ∧
      (writePool keys data pool).length = data.length ∧
      (writePool keys data pool).drop stakePoolSize =
        data.drop stakePoolSize := by
  have hwritten : writePool keys data pool =
      overwrite data 0
        ((StakePoolImage.layout keys).toBytes { image with pool := pool }) := by
    unfold writePool
    rw [h]
  rw [castPool, okOr_eq_ok] at h
  obtain ⟨hread, hlength, hbehind⟩ :=
    Plain.readPrefix_overwrite h { image with pool := pool }
  rw [StakePoolImage.layout_size] at hbehind
  rw [hwritten]
  exact ⟨okOr_eq_ok.mpr hread, hlength, hbehind⟩

/-! ## Loads and stores -/

/-- The bytes of an account of the program.  Deposit records are created with
their own size, which is less than that of a pool. -/
def AccountData.Represents : AccountData Pubkey → List U8 → Prop
  | .zeroed length, data => data = List.replicate length 0
  | .stakePool pool, data =>
      ∃ image, castPool keys data = .ok image ∧ image.pool = pool
  | .stakeDeposit deposit, data =>
      data.length < stakePoolSize ∧
        ∃ image, castDeposit keys data = .ok image ∧ image.deposit = deposit
  | _, _ => False

section Loads

variable {keys} {bank : Bank Pubkey} {info : AccountInfo Pubkey}
  {data : List U8}

/-- Loading a pool is casting the bytes. -/
theorem loadPool_eq_cast
    (h : (bank.accounts info.key).data.Represents keys data) :
    loadPool bank info = (castPool keys data).map StakePoolImage.pool := by
  unfold loadPool
  cases hdata : (bank.accounts info.key).data with
  | zeroed length =>
      rw [hdata] at h
      rw [show data = _ from h, castPool_zeroes]
      dsimp only
      split <;> rfl
  | stakePool pool =>
      rw [hdata] at h
      obtain ⟨image, hcast, rfl⟩ := h
      rw [hcast]
      rfl
  | stakeDeposit deposit =>
      rw [hdata] at h
      unfold castPool Plain.readPrefix
      rw [StakePoolImage.layout_size, if_neg (Nat.not_le.mpr h.1)]
      rfl
  | _ =>
      rw [hdata] at h
      exact h.elim

/-- Loading a deposit record is casting the bytes, where no pool lies. -/
theorem loadDeposit_eq_cast
    (h : (bank.accounts info.key).data.Represents keys data)
    (hpool : ∀ pool, (bank.accounts info.key).data ≠ .stakePool pool) :
    loadDeposit bank info =
      (castDeposit keys data).map StakeDepositImage.deposit := by
  unfold loadDeposit
  cases hdata : (bank.accounts info.key).data with
  | zeroed length =>
      rw [hdata] at h
      rw [show data = _ from h, castDeposit_zeroes]
      dsimp only
      split <;> rfl
  | stakePool pool => exact absurd hdata (hpool pool)
  | stakeDeposit deposit =>
      rw [hdata] at h
      obtain ⟨-, image, hcast, rfl⟩ := h
      rw [hcast]
      rfl
  | _ =>
      rw [hdata] at h
      exact h.elim

end Loads

/-! ## Addresses as they are -/

/-- Addresses that are their 32 bytes. -/
def KeyBytes.raw : KeyBytes (Vector U8 32) where
  toBytes := .refl _
  toBytes_default := rfl

end PercolatorVault
