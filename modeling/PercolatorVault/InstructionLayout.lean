import PercolatorVault.StakeInstruction

/-!
# The layout of instruction data

Instruction data is a tag byte and the payload of that tag; the decoder ignores
what follows.  It accepts exactly the data with a known tag and a long enough
payload, it never slices outside the data, and it returns every instruction
from the layout of that instruction.
-/

namespace PercolatorVault

open CheckedArithmetic
open FallibleSteps
open LittleEndian

variable {Pubkey : Type}

/-! ## Words in a payload -/

@[simp] theorem wordAt_cons_succ (w : ℕ) (byte : U8) (rest : List U8)
    (start count : ℕ) :
    wordAt w (byte :: rest) (start + 1) count = wordAt w rest start count :=
  rfl

@[simp] theorem wordAt_flag (byte : U8) (rest : List U8) :
    wordAt 8 (byte :: rest) 0 1 = byte := by
  simp [wordAt, leValue]

theorem wordAt_append (w : ℕ) {before : List U8} (after : List U8)
    {start : ℕ} (count : ℕ) (hstart : before.length ≤ start) :
    wordAt w (before ++ after) start count =
      wordAt w after (start - before.length) count := by
  simp only [wordAt, List.drop_append, List.drop_eq_nil_of_le hstart,
    List.nil_append]

theorem wordAt_leBytes {w : ℕ} (count : ℕ) (hw : w = 8 * count)
    (word : BitVec w) (after : List U8) :
    wordAt w (leBytes count word.toNat ++ after) 0 count = word := by
  have htake : (leBytes count word.toNat ++ after).take count =
      leBytes count word.toNat :=
    List.take_left' (leBytes_length count word.toNat)
  simp only [wordAt, List.drop_zero, htake]
  exact ofNat_leValue_leBytes count hw word

/-- A word inside the first bytes does not depend on the others. -/
theorem wordAt_take (w : ℕ) (rest : List U8) {start count length : ℕ}
    (hinside : start + count ≤ length) :
    wordAt w (rest.take length) start count = wordAt w rest start count := by
  have htake : ((rest.take length).drop start).take count =
      (rest.drop start).take count := by
    rw [List.drop_take, List.take_take, Nat.min_eq_left (by omega)]
  simp only [wordAt, htake]

/-! ## Tags and payload lengths -/

/-- The payload lengths of the tags 0 to 14. -/
def payloadLengths : List ℕ :=
  [16, 8, 8, 8, 18, 0, 32, 16, 16, 0, 8, 50, 0, 16, 3]

def payloadLength (tag : U8) : Option ℕ := payloadLengths[tag.toNat]?

namespace StakeInstruction

variable (pubkeyFromBytes : List U8 → Pubkey)

theorem unpack_cons_isOk_iff (tag : U8) (rest : List U8) :
    (∃ instruction,
        unpack pubkeyFromBytes (tag :: rest) = .ok instruction) ↔
      ∃ length, payloadLength tag = some length ∧ length ≤ rest.length := by
  simp only [unpack, payloadLength]
  split
  case h_16 =>
    have htag : 15 ≤ tag.toNat := by grind
    simp [payloadLengths, htag]
  all_goals
    rename_i htag
    simp [htag, payloadLengths]

/-- Decoding succeeds exactly on a known tag with enough bytes behind it. -/
theorem unpack_isOk_iff (data : List U8) :
    (∃ instruction, unpack pubkeyFromBytes data = .ok instruction) ↔
      ∃ tag rest length, data = tag :: rest ∧
        payloadLength tag = some length ∧ length ≤ rest.length := by
  cases data with
  | nil =>
      constructor
      · rintro ⟨instruction, h⟩
        cases h
      · rintro ⟨tag, rest, length, h, _⟩
        cases h
  | cons tag rest =>
      rw [unpack_cons_isOk_iff]
      constructor
      · rintro ⟨length, hlength⟩
        exact ⟨tag, rest, length, rfl, hlength⟩
      · rintro ⟨_, _, length, h, hlength⟩
        cases h
        exact ⟨length, hlength⟩

theorem unpack_take (tag : U8) (rest : List U8) {length : ℕ}
    (htag : payloadLength tag = some length) (hlength : length ≤ rest.length) :
    unpack pubkeyFromBytes (tag :: rest.take length) =
      unpack pubkeyFromBytes (tag :: rest) := by
  have htake : (rest.take length).length = length :=
    List.length_take_of_le hlength
  simp only [unpack, payloadLength] at htag ⊢
  split
  case h_16 => rfl
  all_goals
    rename_i hcase
    simp [hcase, payloadLengths] at htag
    subst htag
    simp [htake, hlength, wordAt_take, List.take_take]

end StakeInstruction

/-! ## Slices that may panic -/

/-- `bytes[start..stop]`; a range outside the bytes is a panic, `none`. -/
def slice (bytes : List U8) (start stop : ℕ) : Option (List U8) :=
  if start ≤ stop ∧ stop ≤ bytes.length then
    some ((bytes.drop start).take (stop - start))
  else none

/-- `from_le_bytes(bytes[start..stop].try_into().unwrap())`: the slice must
also have exactly the length of the word. -/
def fromLeBytes (w : ℕ) (bytes : List U8) (start stop : ℕ) :
    Option (BitVec w) := do
  let word ← slice bytes start stop
  if 8 * word.length = w then some (BitVec.ofNat w (leValue word)) else none

theorem slice_of_le {bytes : List U8} {start stop : ℕ}
    (hrange : start ≤ stop) (hstop : stop ≤ bytes.length) :
    slice bytes start stop = some ((bytes.drop start).take (stop - start)) :=
  if_pos ⟨hrange, hstop⟩

theorem fromLeBytes_of_le {w : ℕ} {bytes : List U8} {start stop : ℕ}
    (hrange : start ≤ stop) (hstop : stop ≤ bytes.length)
    (hw : 8 * (stop - start) = w) :
    fromLeBytes w bytes start stop =
      some (wordAt w bytes start (stop - start)) := by
  have hlength : ((bytes.drop start).take (stop - start)).length =
      stop - start := by
    rw [List.length_take, List.length_drop]
    omega
  simp only [fromLeBytes, slice_of_le hrange hstop, Option.bind_eq_bind,
    Option.bind_some, hlength, if_pos hw]
  rfl

theorem wordAt_byte {bytes : List U8} {index : ℕ}
    (hindex : index < bytes.length) :
    wordAt 8 bytes index 1 = bytes[index] := by
  have htake : (bytes.drop index).take 1 = [bytes[index]] := by
    rw [List.drop_eq_getElem_cons hindex]
    rfl
  simp [wordAt, htake, leValue]

namespace StakeInstruction

/-- `unpack` with every index, slice and conversion of the source as a step
that may panic; `none` is a panic.  `Pubkey::try_from` is the parameter
`pubkeyTryFrom`, its failure the error the source maps it to. -/
def unpackOrPanic (pubkeyTryFrom : List U8 → Option Pubkey)
    (data : List U8) :
    Option (Except ProgramError (StakeInstruction Pubkey)) :=
  match data with
  | [] => some (.error .invalidInstructionData)
  | tag :: rest =>
      match tag.toNat with
      | 0 =>
          if rest.length < 16 then some (.error .invalidInstructionData)
          else do
            let cooldownSlots ← fromLeBytes 64 rest 0 8
            let depositCap ← fromLeBytes 64 rest 8 16
            some (.ok (.initPool cooldownSlots depositCap))
      | 1 =>
          if rest.length < 8 then some (.error .invalidInstructionData)
          else do
            let amount ← fromLeBytes 64 rest 0 8
            some (.ok (.deposit amount))
      | 2 =>
          if rest.length < 8 then some (.error .invalidInstructionData)
          else do
            let lpAmount ← fromLeBytes 64 rest 0 8
            some (.ok (.withdraw lpAmount))
      | 3 =>
          if rest.length < 8 then some (.error .invalidInstructionData)
          else do
            let amount ← fromLeBytes 64 rest 0 8
            some (.ok (.flushToInsurance amount))
      | 4 =>
          if rest.length < 18 then some (.error .invalidInstructionData)
          else do
            let hasCooldown ← rest[0]?
            let cooldown ← fromLeBytes 64 rest 1 9
            let hasCap ← rest[9]?
            let cap ← fromLeBytes 64 rest 10 18
            some (.ok (.updateConfig
              (if hasCooldown ≠ 0 then some cooldown else none)
              (if hasCap ≠ 0 then some cap else none)))
      | 5 => some (.ok .transferAdmin)
      | 6 =>
          if rest.length < 32 then some (.error .invalidInstructionData)
          else do
            let bytes ← slice rest 0 32
            match pubkeyTryFrom bytes with
            | none => some (.error .invalidInstructionData)
            | some newAuthority =>
                some (.ok (.adminSetOracleAuthority newAuthority))
      | 7 =>
          if rest.length < 16 then some (.error .invalidInstructionData)
          else do
            let newThreshold ← fromLeBytes 128 rest 0 16
            some (.ok (.adminSetRiskThreshold newThreshold))
      | 8 =>
          if rest.length < 16 then some (.error .invalidInstructionData)
          else do
            let newFee ← fromLeBytes 128 rest 0 16
            some (.ok (.adminSetMaintenanceFee newFee))
      | 9 => some (.ok .adminResolveMarket)
      | 10 =>
          if rest.length < 8 then some (.error .invalidInstructionData)
          else do
            let amount ← fromLeBytes 64 rest 0 8
            some (.ok (.adminWithdrawInsurance amount))
      | 11 =>
          if rest.length < 50 then some (.error .invalidInstructionData)
          else do
            let bytes ← slice rest 0 32
            match pubkeyTryFrom bytes with
            | none => some (.error .invalidInstructionData)
            | some authority => do
                let minWithdrawBase ← fromLeBytes 64 rest 32 40
                let maxWithdrawBps ← fromLeBytes 16 rest 40 42
                let cooldownSlots ← fromLeBytes 64 rest 42 50
                some (.ok (.adminSetInsurancePolicy authority minWithdrawBase
                  maxWithdrawBps cooldownSlots))
      | 12 => some (.ok .accrueFees)
      | 13 =>
          if rest.length < 16 then some (.error .invalidInstructionData)
          else do
            let cooldownSlots ← fromLeBytes 64 rest 0 8
            let depositCap ← fromLeBytes 64 rest 8 16
            some (.ok (.initTradingPool cooldownSlots depositCap))
      | 14 =>
          if rest.length < 3 then some (.error .invalidInstructionData)
          else do
            let enabled ← rest[0]?
            let hwmFloorBps ← fromLeBytes 16 rest 1 3
            some (.ok (.adminSetHwmConfig (decide (enabled ≠ 0)) hwmFloorBps))
      | _ => some (.error .invalidInstructionData)

/-- A length guard followed by steps that do not panic behind it. -/
private theorem guarded_eq {value : Type} {actual needed : ℕ}
    {error : ProgramError} {steps : Option (Except ProgramError value)}
    {result : value}
    (h : needed ≤ actual → steps = some (.ok result)) :
    (if actual < needed then some (.error error) else steps) =
      some (do
        require (needed ≤ actual) error
        .ok result) := by
  by_cases hlength : needed ≤ actual
  · rw [if_neg (Nat.not_lt.mpr hlength), h hlength, require, if_pos hlength]
    rfl
  · rw [if_pos (Nat.lt_of_not_le hlength), require, if_neg hlength]
    rfl

/-- No index, slice or conversion of the decoder panics. -/
theorem unpackOrPanic_eq {pubkeyTryFrom : List U8 → Option Pubkey}
    {pubkeyFromBytes : List U8 → Pubkey}
    (htry : ∀ bytes : List U8, bytes.length = 32 →
      pubkeyTryFrom bytes = some (pubkeyFromBytes bytes))
    (data : List U8) :
    unpackOrPanic pubkeyTryFrom data = some (unpack pubkeyFromBytes data) := by
  cases data with
  | nil => rfl
  | cons tag rest =>
      simp only [unpackOrPanic, unpack]
      generalize tag.toNat = code
      split
      case h_16 => simp [*]
      case h_7 | h_12 =>
        apply guarded_eq
        intro hlength
        have hbytes : (rest.take 32).length = 32 :=
          List.length_take_of_le (by omega)
        simp (disch := omega) [slice_of_le, fromLeBytes_of_le,
          htry _ hbytes]
      all_goals
        first
        | rfl
        | apply guarded_eq
          intro hlength
          simp (disch := omega) [fromLeBytes_of_le, wordAt_byte]

/-! ## Layouts -/

/-- The tag and the payload of an instruction, words little-endian.  A flag
byte is set when it is not zero; behind a zero flag any word may stand. -/
inductive Layout (pubkeyToBytes : Pubkey → List U8) :
    StakeInstruction Pubkey → U8 → List U8 → Prop
  | initPool (cooldownSlots depositCap : U64) :
      Layout pubkeyToBytes (.initPool cooldownSlots depositCap) 0
        (leBytes 8 cooldownSlots.toNat ++ leBytes 8 depositCap.toNat)
  | deposit (amount : U64) :
      Layout pubkeyToBytes (.deposit amount) 1 (leBytes 8 amount.toNat)
  | withdraw (lpAmount : U64) :
      Layout pubkeyToBytes (.withdraw lpAmount) 2 (leBytes 8 lpAmount.toNat)
  | flushToInsurance (amount : U64) :
      Layout pubkeyToBytes (.flushToInsurance amount) 3
        (leBytes 8 amount.toNat)
  | updateConfig (hasCooldown hasCap : U8) (cooldown cap : U64) :
      Layout pubkeyToBytes
        (.updateConfig (if hasCooldown ≠ 0 then some cooldown else none)
          (if hasCap ≠ 0 then some cap else none)) 4
        (hasCooldown :: leBytes 8 cooldown.toNat ++
          hasCap :: leBytes 8 cap.toNat)
  | transferAdmin : Layout pubkeyToBytes .transferAdmin 5 []
  | adminSetOracleAuthority (newAuthority : Pubkey) :
      Layout pubkeyToBytes (.adminSetOracleAuthority newAuthority) 6
        (pubkeyToBytes newAuthority)
  | adminSetRiskThreshold (newThreshold : U128) :
      Layout pubkeyToBytes (.adminSetRiskThreshold newThreshold) 7
        (leBytes 16 newThreshold.toNat)
  | adminSetMaintenanceFee (newFee : U128) :
      Layout pubkeyToBytes (.adminSetMaintenanceFee newFee) 8
        (leBytes 16 newFee.toNat)
  | adminResolveMarket : Layout pubkeyToBytes .adminResolveMarket 9 []
  | adminWithdrawInsurance (amount : U64) :
      Layout pubkeyToBytes (.adminWithdrawInsurance amount) 10
        (leBytes 8 amount.toNat)
  | adminSetInsurancePolicy (authority : Pubkey) (minWithdrawBase : U64)
      (maxWithdrawBps : U16) (cooldownSlots : U64) :
      Layout pubkeyToBytes
        (.adminSetInsurancePolicy authority minWithdrawBase maxWithdrawBps
          cooldownSlots) 11
        (pubkeyToBytes authority ++ leBytes 8 minWithdrawBase.toNat ++
          leBytes 2 maxWithdrawBps.toNat ++ leBytes 8 cooldownSlots.toNat)
  | accrueFees : Layout pubkeyToBytes .accrueFees 12 []
  | initTradingPool (cooldownSlots depositCap : U64) :
      Layout pubkeyToBytes (.initTradingPool cooldownSlots depositCap) 13
        (leBytes 8 cooldownSlots.toNat ++ leBytes 8 depositCap.toNat)
  | adminSetHwmConfig (enabled : U8) (hwmFloorBps : U16) :
      Layout pubkeyToBytes
        (.adminSetHwmConfig (decide (enabled ≠ 0)) hwmFloorBps) 14
        (enabled :: leBytes 2 hwmFloorBps.toNat)

variable {pubkeyToBytes : Pubkey → List U8}

/-- An optional word has a flag byte and a word that stand for it. -/
private theorem exists_flag (value : Option U64) :
    ∃ (flag : U8) (word : U64),
      (if flag ≠ 0 then some word else none) = value := by
  cases value with
  | none => exact ⟨0, 0, rfl⟩
  | some word => exact ⟨1, word, rfl⟩

theorem exists_layout (instruction : StakeInstruction Pubkey) :
    ∃ tag payload, Layout pubkeyToBytes instruction tag payload := by
  cases instruction with
  | updateConfig newCooldownSlots newDepositCap =>
      obtain ⟨hasCooldown, cooldown, hcooldown⟩ :=
        exists_flag newCooldownSlots
      obtain ⟨hasCap, cap, hcap⟩ := exists_flag newDepositCap
      rw [← hcooldown, ← hcap]
      exact ⟨_, _, .updateConfig hasCooldown hasCap cooldown cap⟩
  | adminSetHwmConfig enabled hwmFloorBps =>
      cases enabled with
      | true => exact ⟨_, _, .adminSetHwmConfig 1 hwmFloorBps⟩
      | false => exact ⟨_, _, .adminSetHwmConfig 0 hwmFloorBps⟩
  | _ => exact ⟨_, _, by constructor⟩

theorem unpack_of_layout {pubkeyFromBytes : List U8 → Pubkey}
    (hlength : ∀ key, (pubkeyToBytes key).length = 32)
    (hinverse : ∀ key, pubkeyFromBytes (pubkeyToBytes key) = key)
    {instruction : StakeInstruction Pubkey} {tag : U8} {payload : List U8}
    (hlayout : Layout pubkeyToBytes instruction tag payload)
    (trailing : List U8) :
    unpack pubkeyFromBytes (tag :: (payload ++ trailing)) =
      .ok instruction := by
  cases hlayout
  all_goals
    simp [unpack, require, ok_bind, wordAt_append, wordAt_leBytes, hlength,
      hinverse]
  all_goals omega

theorem Layout.payloadLength_eq
    (hlength : ∀ key, (pubkeyToBytes key).length = 32)
    {instruction : StakeInstruction Pubkey} {tag : U8} {payload : List U8}
    (hlayout : Layout pubkeyToBytes instruction tag payload) :
    payloadLength tag = some payload.length := by
  cases hlayout <;> simp [payloadLength, payloadLengths, hlength]

/-- Decoding accepts exactly a tag from 0 to 14 with its payload, never panics,
ignores trailing bytes, and returns every instruction from its layout. -/
theorem unpack_grammar {pubkeyTryFrom : List U8 → Option Pubkey}
    {pubkeyFromBytes : List U8 → Pubkey}
    (htry : ∀ bytes : List U8, bytes.length = 32 →
      pubkeyTryFrom bytes = some (pubkeyFromBytes bytes))
    (hlength : ∀ key, (pubkeyToBytes key).length = 32)
    (hinverse : ∀ key, pubkeyFromBytes (pubkeyToBytes key) = key) :
    (∀ data,
      unpackOrPanic pubkeyTryFrom data = some (unpack pubkeyFromBytes data) ∧
      ((∃ instruction, unpack pubkeyFromBytes data = .ok instruction) ↔
        ∃ tag rest length, data = tag :: rest ∧
          payloadLength tag = some length ∧ length ≤ rest.length)) ∧
    (∀ tag payload trailing, payloadLength tag = some payload.length →
      unpack pubkeyFromBytes (tag :: (payload ++ trailing)) =
        unpack pubkeyFromBytes (tag :: payload)) ∧
    ∀ instruction : StakeInstruction Pubkey,
      (∃ tag payload, Layout pubkeyToBytes instruction tag payload) ∧
      ∀ tag payload, Layout pubkeyToBytes instruction tag payload →
        payloadLength tag = some payload.length ∧
        ∀ trailing, unpack pubkeyFromBytes (tag :: (payload ++ trailing)) =
          .ok instruction := by
  refine ⟨fun data => ⟨unpackOrPanic_eq htry data,
    unpack_isOk_iff pubkeyFromBytes data⟩, ?_, ?_⟩
  · intro tag payload trailing htag
    have htake := unpack_take pubkeyFromBytes tag (payload ++ trailing) htag
      (by simp)
    rw [List.take_left] at htake
    exact htake.symm
  · intro instruction
    refine ⟨exists_layout instruction, ?_⟩
    intro tag payload hlayout
    exact ⟨hlayout.payloadLength_eq hlength,
      unpack_of_layout hlength hinverse hlayout⟩

end StakeInstruction

/-! ## Addresses as byte arrays -/

def keyFromBytes (bytes : List U8) : Vector U8 32 :=
  Vector.ofFn fun i => (bytes[i.val]?).getD 0

def keyTryFrom (bytes : List U8) : Option (Vector U8 32) :=
  if bytes.length = 32 then some (keyFromBytes bytes) else none

theorem keyFromBytes_toList (key : Vector U8 32) :
    keyFromBytes key.toList = key := by
  apply Vector.ext
  intro i hi
  simp [keyFromBytes]

/-- A flush followed by a stray byte, and data that is too short. -/
theorem StakeInstruction.unpack_grammar_flush :
    unpack keyFromBytes (3 :: (leBytes 8 500 ++ [7])) =
        .ok (.flushToInsurance 500) ∧
      unpackOrPanic keyTryFrom [0, 1, 2, 3] =
        some (unpack keyFromBytes [0, 1, 2, 3]) := by
  have hgrammar := @unpack_grammar (Vector U8 32) Vector.toList keyTryFrom
    keyFromBytes (fun _ hbytes => if_pos hbytes)
    (fun key => Vector.length_toList) keyFromBytes_toList
  exact ⟨((hgrammar.2.2 (.flushToInsurance 500)).2 3 _
    (.flushToInsurance 500)).2 [7], (hgrammar.1 [0, 1, 2, 3]).1⟩

end PercolatorVault
