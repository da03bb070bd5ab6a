import PercolatorVault.PoolState

/-!
# The reserved bytes as a record

Eight logical fields share the 64 reserved bytes of a pool.  `ReservedFields`
is the plain record they stand for.  Each setter of the packed array is shown
to be the update of exactly one field of that record (the discriminator setter
also writes the version), so that no setter disturbs the field of another.
-/

namespace PercolatorVault

open CheckedArithmetic
open LittleEndian

variable {Pubkey : Type}

structure ReservedFields where
  discriminator : List U8
  version : U8
  resolved : Bool
  hwmEnabled : Bool
  hwmFloorBps : U16
  epochHighWaterTvl : U64
  hwmLastEpoch : U64
  preSupplyVaultOffset : U64
deriving DecidableEq

/-- The high-water mark of a plain record, refreshed. -/
def ReservedFields.refreshHwm (fields : ReservedFields)
    (currentEpoch currentTvl : U64) : ReservedFields :=
  { fields with
    epochHighWaterTvl :=
      if currentEpoch ≠ fields.hwmLastEpoch then currentTvl
      else wordMax fields.epochHighWaterTvl currentTvl
    hwmLastEpoch := currentEpoch }

namespace StakePool

def reservedFields (pool : StakePool Pubkey) : ReservedFields where
  discriminator := readSlice pool.reserved 0 8
  version := pool.version
  resolved := pool.isResolved
  hwmEnabled := pool.hwmEnabled
  hwmFloorBps := pool.hwmFloorBps
  epochHighWaterTvl := pool.epochHighWaterTvl
  hwmLastEpoch := pool.hwmLastEpoch
  preSupplyVaultOffset := pool.preSupplyVaultOffset

/-! ## Bits of the flag byte -/

private theorem resolvedBit_or_resolved :
    ∀ byte : U8, (byte ||| 0x01) &&& 0x01 ≠ 0 := by decide

private theorem hwmBit_or_resolved :
    ∀ byte : U8, (byte ||| 0x01) &&& 0x02 = byte &&& 0x02 := by decide

private theorem resolvedBit_or_hwm :
    ∀ byte : U8, (byte ||| 0x02) &&& 0x01 = byte &&& 0x01 := by decide

private theorem hwmBit_or_hwm :
    ∀ byte : U8, (byte ||| 0x02) &&& 0x02 ≠ 0 := by decide

private theorem resolvedBit_clear_hwm :
    ∀ byte : U8, (byte &&& ~~~0x02) &&& 0x01 = byte &&& 0x01 := by decide

private theorem hwmBit_clear_hwm :
    ∀ byte : U8, (byte &&& ~~~0x02) &&& 0x02 = 0 := by decide

/-! ## Writing a range -/

/-- A range that starts behind the flag byte leaves the version and both
flags alone. -/
private theorem flags_copyFromSlice (pool : StakePool Pubkey)
    (start : ℕ) (bytes : List U8) (hstart : 10 ≤ start) :
    let next : StakePool Pubkey :=
      { pool with reserved := copyFromSlice pool.reserved start bytes }
    readSlice next.reserved 0 8 = readSlice pool.reserved 0 8 ∧
      next.version = pool.version ∧
      next.isResolved = pool.isResolved ∧
      next.hwmEnabled = pool.hwmEnabled := by
  have hversion : (copyFromSlice pool.reserved start bytes)[8] =
      pool.reserved[8] :=
    getElem_copyFromSlice_of_disjoint pool.reserved (by decide)
      (Or.inl (by omega))
  have hflags : (copyFromSlice pool.reserved start bytes)[9] =
      pool.reserved[9] :=
    getElem_copyFromSlice_of_disjoint pool.reserved (by decide)
      (Or.inl (by omega))
  refine ⟨readSlice_copyFromSlice_of_disjoint _ (Or.inl (by omega)),
    hversion, ?_, ?_⟩
  · simp only [isResolved, hflags]
  · simp only [hwmEnabled, hflags]

theorem reservedFields_setHwmFloorBps
    (pool : StakePool Pubkey) (bps : U16) :
    (pool.setHwmFloorBps bps).reservedFields =
      { pool.reservedFields with hwmFloorBps := bps } := by
  obtain ⟨hdisc, hversion, hresolved, hhwm⟩ :=
    pool.flags_copyFromSlice 10 (leBytes 2 bps.toNat) (le_refl 10)
  have hbps := pool.hwmFloorBps_setHwmFloorBps bps
  simp only [reservedFields, ReservedFields.mk.injEq]
  refine ⟨hdisc, hversion, hresolved, hhwm, hbps, ?_, ?_, ?_⟩ <;>
    simp [epochHighWaterTvl, hwmLastEpoch, preSupplyVaultOffset,
      setHwmFloorBps, readSlice_copyFromSlice_of_disjoint]

theorem reservedFields_setEpochHighWaterTvl
    (pool : StakePool Pubkey) (tvl : U64) :
    (pool.setEpochHighWaterTvl tvl).reservedFields =
      { pool.reservedFields with epochHighWaterTvl := tvl } := by
  obtain ⟨hdisc, hversion, hresolved, hhwm⟩ :=
    pool.flags_copyFromSlice 16 (leBytes 8 tvl.toNat)
      (by decide)
  have htvl := pool.epochHighWaterTvl_setEpochHighWaterTvl tvl
  simp only [reservedFields, ReservedFields.mk.injEq]
  refine ⟨hdisc, hversion, hresolved, hhwm, ?_, htvl, ?_, ?_⟩ <;>
    simp [hwmFloorBps, hwmLastEpoch, preSupplyVaultOffset,
      setEpochHighWaterTvl, readSlice_copyFromSlice_of_disjoint,
      getElem_copyFromSlice_of_disjoint]

theorem reservedFields_setHwmLastEpoch
    (pool : StakePool Pubkey) (epoch : U64) :
    (pool.setHwmLastEpoch epoch).reservedFields =
      { pool.reservedFields with hwmLastEpoch := epoch } := by
  obtain ⟨hdisc, hversion, hresolved, hhwm⟩ :=
    pool.flags_copyFromSlice 24 (leBytes 8 epoch.toNat)
      (by decide)
  have hepoch := pool.hwmLastEpoch_setHwmLastEpoch epoch
  simp only [reservedFields, ReservedFields.mk.injEq]
  refine ⟨hdisc, hversion, hresolved, hhwm, ?_, ?_, hepoch, ?_⟩ <;>
    simp [hwmFloorBps, epochHighWaterTvl, preSupplyVaultOffset,
      setHwmLastEpoch, readSlice_copyFromSlice_of_disjoint,
      getElem_copyFromSlice_of_disjoint]

theorem reservedFields_setPreSupplyVaultOffset
    (pool : StakePool Pubkey) (amount : U64) :
    (pool.setPreSupplyVaultOffset amount).reservedFields =
      { pool.reservedFields with preSupplyVaultOffset := amount } := by
  obtain ⟨hdisc, hversion, hresolved, hhwm⟩ :=
    pool.flags_copyFromSlice 32 (leBytes 8 amount.toNat)
      (by decide)
  have hoffset := pool.preSupplyVaultOffset_setPreSupplyVaultOffset amount
  simp only [reservedFields, ReservedFields.mk.injEq]
  refine ⟨hdisc, hversion, hresolved, hhwm, ?_, ?_, ?_, hoffset⟩ <;>
    simp [hwmFloorBps, epochHighWaterTvl, hwmLastEpoch,
      setPreSupplyVaultOffset, readSlice_copyFromSlice_of_disjoint,
      getElem_copyFromSlice_of_disjoint]

/-! ## Writing the flag byte -/

/-- Replacing the flag byte changes at most the two flags. -/
private theorem reservedFields_set_flags (pool : StakePool Pubkey)
    (byte : U8) {hindex : 9 < 64} :
    ({ pool with reserved := pool.reserved.set 9 byte hindex }
        : StakePool Pubkey).reservedFields =
      { pool.reservedFields with
        resolved := byte &&& 0x01 ≠ 0
        hwmEnabled := byte &&& 0x02 ≠ 0 } := by
  simp [reservedFields, version, isResolved, hwmEnabled, hwmFloorBps,
    epochHighWaterTvl, hwmLastEpoch, preSupplyVaultOffset,
    readSlice_set_of_disjoint]

theorem reservedFields_setResolved (pool : StakePool Pubkey) :
    pool.setResolved.reservedFields =
      { pool.reservedFields with resolved := true } := by
  unfold setResolved
  rw [reservedFields_set_flags, hwmBit_or_resolved]
  simp only [ne_eq, resolvedBit_or_resolved, not_false_eq_true, decide_true]
  rfl

theorem reservedFields_setHwmEnabled
    (pool : StakePool Pubkey) (enabled : Bool) :
    (pool.setHwmEnabled enabled).reservedFields =
      { pool.reservedFields with hwmEnabled := enabled } := by
  unfold setHwmEnabled
  cases enabled with
  | true =>
      rw [if_pos rfl, reservedFields_set_flags, resolvedBit_or_hwm]
      simp only [ne_eq, hwmBit_or_hwm, not_false_eq_true, decide_true]
      rfl
  | false =>
      rw [if_neg (by decide), reservedFields_set_flags,
        resolvedBit_clear_hwm, hwmBit_clear_hwm]
      rfl

theorem reservedFields_setDiscriminator (pool : StakePool Pubkey) :
    pool.setDiscriminator.reservedFields =
      { pool.reservedFields with
        discriminator := stakePoolDiscriminator
        version := currentVersion } := by
  have hdisc := readSlice_copyFromSlice pool.reserved 0
    stakePoolDiscriminator (by decide)
  have hlength : stakePoolDiscriminator.length = 8 := rfl
  rw [hlength] at hdisc
  simp [reservedFields, setDiscriminator, version, isResolved, hwmEnabled,
    hwmFloorBps, epochHighWaterTvl, hwmLastEpoch, preSupplyVaultOffset,
    readSlice_set_of_disjoint, readSlice_copyFromSlice_of_disjoint,
    getElem_copyFromSlice_of_disjoint, hlength, hdisc]

theorem reservedFields_refreshHwm (pool : StakePool Pubkey)
    (currentEpoch currentTvl : U64) :
    (pool.refreshHwm currentEpoch currentTvl).reservedFields =
      pool.reservedFields.refreshHwm currentEpoch currentTvl := by
  have hepoch : pool.reservedFields.hwmLastEpoch = pool.hwmLastEpoch := rfl
  have hmark :
      pool.reservedFields.epochHighWaterTvl = pool.epochHighWaterTvl := rfl
  unfold refreshHwm ReservedFields.refreshHwm
  rw [hepoch, hmark]
  by_cases hstale : currentEpoch ≠ pool.hwmLastEpoch
  · rw [if_pos hstale, if_pos hstale, reservedFields_setHwmLastEpoch,
      reservedFields_setEpochHighWaterTvl]
  · rw [if_neg hstale, if_neg hstale]
    rw [not_not] at hstale
    split
    · next hlt =>
        rw [reservedFields_setEpochHighWaterTvl, wordMax,
          if_pos (Nat.le_of_lt hlt), hstale, ← hepoch]
    · next hge =>
        have hmax : wordMax pool.epochHighWaterTvl currentTvl =
            pool.epochHighWaterTvl := by
          apply BitVec.eq_of_toNat_eq
          rw [toNat_wordMax]
          omega
        rw [hmax, hstale, ← hepoch, ← hmark]

end StakePool

/-! ## Bits of no field -/

/-- Bits 2 to 7 of the flag byte, bytes 12 to 15 and bytes 40 to 63 belong to
no field; they are the same in both arrays. -/
structure SameFreeBits (before after : Vector U8 64) : Prop where
  flagBits : ∀ bit, 2 ≤ bit →
    (after.get 9).getLsbD bit = (before.get 9).getLsbD bit
  freeBytes : ∀ i (hi : i < 64), (12 ≤ i ∧ i < 16) ∨ 40 ≤ i →
    after[i] = before[i]

theorem SameFreeBits.refl (array : Vector U8 64) : SameFreeBits array array :=
  ⟨fun _ _ => rfl, fun _ _ _ => rfl⟩

theorem SameFreeBits.trans {first second third : Vector U8 64}
    (hfirst : SameFreeBits first second)
    (hsecond : SameFreeBits second third) : SameFreeBits first third where
  flagBits bit hbit :=
    (hsecond.flagBits bit hbit).trans (hfirst.flagBits bit hbit)
  freeBytes i hi hfree :=
    (hsecond.freeBytes i hi hfree).trans (hfirst.freeBytes i hi hfree)

private theorem getLsbD_of_flagMask {mask : U8} (hmask : mask.toNat < 2 ^ 2)
    {bit : ℕ} (hbit : 2 ≤ bit) : mask.getLsbD bit = false := by
  rw [← BitVec.testBit_toNat]
  exact Nat.testBit_lt_two_pow
    (lt_of_lt_of_le hmask (Nat.pow_le_pow_right (by decide) hbit))

private theorem getLsbD_or_flagMask (byte : U8) {mask : U8}
    (hmask : mask.toNat < 2 ^ 2) {bit : ℕ} (hbit : 2 ≤ bit) :
    (byte ||| mask).getLsbD bit = byte.getLsbD bit := by
  rw [BitVec.getLsbD_or, getLsbD_of_flagMask hmask hbit, Bool.or_false]

private theorem getLsbD_clear_flagMask (byte : U8) {mask : U8}
    (hmask : mask.toNat < 2 ^ 2) {bit : ℕ} (hbit : 2 ≤ bit) :
    (byte &&& ~~~mask).getLsbD bit = byte.getLsbD bit := by
  rw [BitVec.getLsbD_and, BitVec.getLsbD_not,
    getLsbD_of_flagMask hmask hbit]
  by_cases hwidth : bit < 8
  · simp [hwidth]
  · simp [hwidth, BitVec.getLsbD_of_ge byte bit (by omega)]

/-- A range inside bytes 0 to 7, 10 to 11 or 16 to 39 holds no free bit. -/
private theorem sameFreeBits_copyFromSlice (array : Vector U8 64)
    {start : ℕ} {bytes : List U8}
    (hrange : start + bytes.length ≤ 8 ∨
      (10 ≤ start ∧ start + bytes.length ≤ 12) ∨
      (16 ≤ start ∧ start + bytes.length ≤ 40)) :
    SameFreeBits array (copyFromSlice array start bytes) where
  flagBits bit _ := by
    have hbyte : (copyFromSlice array start bytes)[9] = array[9] :=
      getElem_copyFromSlice_of_disjoint array (by decide) (by omega)
    exact congrArg (BitVec.getLsbD · bit) hbyte
  freeBytes i hi hfree := by
    rw [getElem_copyFromSlice_of_disjoint array hi (by omega)]

/-- The word setters all write eight bytes between byte 16 and byte 39. -/
private theorem sameFreeBits_copyWord (array : Vector U8 64) {start : ℕ}
    (word : U64) (hlow : 16 ≤ start) (hhigh : start + 8 ≤ 40) :
    SameFreeBits array
      (copyFromSlice array start (leBytes 8 word.toNat)) := by
  apply sameFreeBits_copyFromSlice
  rw [leBytes_length]
  exact Or.inr (Or.inr ⟨hlow, hhigh⟩)

private theorem sameFreeBits_set_flags (array : Vector U8 64) {byte : U8}
    (hindex : 9 < 64)
    (hbits : ∀ bit, 2 ≤ bit →
      byte.getLsbD bit = (array.get 9).getLsbD bit) :
    SameFreeBits array (array.set 9 byte hindex) where
  flagBits bit hbit := by
    have hset : (array.set 9 byte hindex).get 9 = byte :=
      Vector.getElem_set_self hindex
    rw [hset]
    exact hbits bit hbit
  freeBytes i hi hfree := by
    rw [Vector.getElem_set_ne]
    omega

private theorem sameFreeBits_set_version (array : Vector U8 64) (byte : U8)
    (hindex : 8 < 64) : SameFreeBits array (array.set 8 byte hindex) where
  flagBits bit _ :=
    congrArg (BitVec.getLsbD · bit)
      (Vector.getElem_set_ne hindex (by decide) (by decide))
  freeBytes i hi hfree := by
    rw [Vector.getElem_set_ne]
    omega

/-! ## Sequences of calls -/

inductive ReservedCall where
  | setDiscriminator
  | setResolved
  | setHwmEnabled (enabled : Bool)
  | setHwmFloorBps (bps : U16)
  | setEpochHighWaterTvl (tvl : U64)
  | setHwmLastEpoch (epoch : U64)
  | setPreSupplyVaultOffset (amount : U64)
  | refreshHwm (currentEpoch currentTvl : U64)

/-- The call on the packed bytes. -/
def ReservedCall.onPool (pool : StakePool Pubkey) :
    ReservedCall → StakePool Pubkey
  | .setDiscriminator => pool.setDiscriminator
  | .setResolved => pool.setResolved
  | .setHwmEnabled enabled => pool.setHwmEnabled enabled
  | .setHwmFloorBps bps => pool.setHwmFloorBps bps
  | .setEpochHighWaterTvl tvl => pool.setEpochHighWaterTvl tvl
  | .setHwmLastEpoch epoch => pool.setHwmLastEpoch epoch
  | .setPreSupplyVaultOffset amount => pool.setPreSupplyVaultOffset amount
  | .refreshHwm epoch tvl => pool.refreshHwm epoch tvl

/-- The same call on a record with one field for each value. -/
def ReservedCall.onFields (fields : ReservedFields) :
    ReservedCall → ReservedFields
  | .setDiscriminator =>
      { fields with
        discriminator := stakePoolDiscriminator
        version := StakePool.currentVersion }
  | .setResolved => { fields with resolved := true }
  | .setHwmEnabled enabled => { fields with hwmEnabled := enabled }
  | .setHwmFloorBps bps => { fields with hwmFloorBps := bps }
  | .setEpochHighWaterTvl tvl => { fields with epochHighWaterTvl := tvl }
  | .setHwmLastEpoch epoch => { fields with hwmLastEpoch := epoch }
  | .setPreSupplyVaultOffset amount =>
      { fields with preSupplyVaultOffset := amount }
  | .refreshHwm epoch tvl => fields.refreshHwm epoch tvl

theorem ReservedCall.reservedFields_onPool (pool : StakePool Pubkey)
    (call : ReservedCall) :
    (call.onPool pool).reservedFields = call.onFields pool.reservedFields := by
  cases call with
  | setDiscriminator => exact pool.reservedFields_setDiscriminator
  | setResolved => exact pool.reservedFields_setResolved
  | setHwmEnabled enabled => exact pool.reservedFields_setHwmEnabled enabled
  | setHwmFloorBps bps => exact pool.reservedFields_setHwmFloorBps bps
  | setEpochHighWaterTvl tvl =>
      exact pool.reservedFields_setEpochHighWaterTvl tvl
  | setHwmLastEpoch epoch => exact pool.reservedFields_setHwmLastEpoch epoch
  | setPreSupplyVaultOffset amount =>
      exact pool.reservedFields_setPreSupplyVaultOffset amount
  | refreshHwm epoch tvl => exact pool.reservedFields_refreshHwm epoch tvl

theorem ReservedCall.sameFreeBits_onPool (pool : StakePool Pubkey)
    (call : ReservedCall) :
    SameFreeBits pool.reserved (call.onPool pool).reserved := by
  cases call with
  | setDiscriminator =>
      have hcopy := @sameFreeBits_copyFromSlice pool.reserved 0
        stakePoolDiscriminator (Or.inl (by decide))
      exact hcopy.trans (sameFreeBits_set_version _ _ (by decide))
  | setResolved =>
      apply sameFreeBits_set_flags _ (by decide)
      intro bit hbit
      exact getLsbD_or_flagMask _ (by decide) hbit
  | setHwmEnabled enabled =>
      cases enabled with
      | true =>
          apply sameFreeBits_set_flags _ (by decide)
          intro bit hbit
          exact getLsbD_or_flagMask _ (by decide) hbit
      | false =>
          apply sameFreeBits_set_flags _ (by decide)
          intro bit hbit
          exact getLsbD_clear_flagMask _ (by decide) hbit
  | setHwmFloorBps bps =>
      apply sameFreeBits_copyFromSlice
      rw [leBytes_length]
      exact Or.inr (Or.inl ⟨by decide, by decide⟩)
  | setEpochHighWaterTvl tvl =>
      exact sameFreeBits_copyWord _ tvl (by decide) (by decide)
  | setHwmLastEpoch epoch =>
      exact sameFreeBits_copyWord _ epoch (by decide) (by decide)
  | setPreSupplyVaultOffset amount =>
      exact sameFreeBits_copyWord _ amount (by decide) (by decide)
  | refreshHwm epoch tvl =>
      have htvl : SameFreeBits pool.reserved
          (pool.setEpochHighWaterTvl tvl).reserved :=
        sameFreeBits_copyWord _ tvl (by decide) (by decide)
      simp only [ReservedCall.onPool, StakePool.refreshHwm]
      split
      · exact htvl.trans
          (sameFreeBits_copyWord _ epoch (by decide) (by decide))
      · split
        · exact htvl
        · exact SameFreeBits.refl _

/-- Every sequence of calls acts on the packed bytes as it does on a plain
record, and never alters a bit that belongs to no field. -/
theorem StakePool.reservedCalls_as_record (pool : StakePool Pubkey)
    (calls : List ReservedCall) :
    (calls.foldl ReservedCall.onPool pool).reservedFields =
        calls.foldl ReservedCall.onFields pool.reservedFields ∧
      SameFreeBits pool.reserved
        (calls.foldl ReservedCall.onPool pool).reserved := by
  induction calls generalizing pool with
  | nil => exact ⟨rfl, SameFreeBits.refl _⟩
  | cons call rest ih =>
      obtain ⟨hfields, hfree⟩ := ih (call.onPool pool)
      rw [call.reservedFields_onPool pool] at hfields
      exact ⟨hfields, (call.sameFreeBits_onPool pool).trans hfree⟩

end PercolatorVault
