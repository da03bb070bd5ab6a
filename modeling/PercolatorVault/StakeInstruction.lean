import PercolatorVault.FallibleSteps
import PercolatorVault.LittleEndian

/-!
# Errors and instructions

The error codes of the program, its fifteen instructions, and the decoding of
instruction data.
-/

namespace PercolatorVault

open CheckedArithmetic
open FallibleSteps
open LittleEndian

inductive StakeError where
  | alreadyInitialized
  | notInitialized
  | unauthorized
  | cooldownNotElapsed
  | insufficientLpTokens
  | zeroAmount
  | overflow
  | invalidMint
  | marketResolved
  | depositCapExceeded
  | invalidPda
  | adminAlreadyTransferred
  | adminNotTransferred
  | insufficientVaultBalance
  | invalidPercolatorProgram
  | cpiFailed
  | invalidAccount
  | invalidPoolMode
  | withdrawalBelowHwmFloor
deriving DecidableEq

def StakeError.code : StakeError → ℕ
  | .alreadyInitialized => 0
  | .notInitialized => 1
  | .unauthorized => 2
  | .cooldownNotElapsed => 3
  | .insufficientLpTokens => 4
  | .zeroAmount => 5
  | .overflow => 6
  | .invalidMint => 7
  | .marketResolved => 8
  | .depositCapExceeded => 9
  | .invalidPda => 10
  | .adminAlreadyTransferred => 11
  | .adminNotTransferred => 12
  | .insufficientVaultBalance => 13
  | .invalidPercolatorProgram => 14
  | .cpiFailed => 15
  | .invalidAccount => 16
  | .invalidPoolMode => 17
  | .withdrawalBelowHwmFloor => 18

/-- Errors of one instruction.  The last four are raised by the runtime: a
write to an account that is not the program's or not writable, a panic, and a
failure reported by another program. -/
inductive ProgramError where
  | custom (code : ℕ)
  | invalidArgument
  | invalidInstructionData
  | invalidAccountData
  | insufficientFunds
  | incorrectProgramId
  | missingRequiredSignature
  | uninitializedAccount
  | notEnoughAccountKeys
  | externalAccountDataModified
  | readonlyDataModified
  | programFailedToComplete
  | calledProgramFailed (code : ℕ)
deriving DecidableEq

instance : Coe StakeError ProgramError := ⟨fun error => .custom error.code⟩

inductive StakeInstruction (Pubkey : Type) where
  | initPool (cooldownSlots depositCap : U64)
  | deposit (amount : U64)
  | withdraw (lpAmount : U64)
  | flushToInsurance (amount : U64)
  | updateConfig (newCooldownSlots newDepositCap : Option U64)
  | transferAdmin
  | adminSetOracleAuthority (newAuthority : Pubkey)
  | adminSetRiskThreshold (newThreshold : U128)
  | adminSetMaintenanceFee (newFee : U128)
  | adminResolveMarket
  | adminWithdrawInsurance (amount : U64)
  | adminSetInsurancePolicy (authority : Pubkey) (minWithdrawBase : U64)
      (maxWithdrawBps : U16) (cooldownSlots : U64)
  | accrueFees
  | initTradingPool (cooldownSlots depositCap : U64)
  | adminSetHwmConfig (enabled : Bool) (hwmFloorBps : U16)
deriving DecidableEq

/-- The little-endian word in `rest[start..start + count]`. -/
def wordAt (w : ℕ) (rest : List U8) (start count : ℕ) : BitVec w :=
  BitVec.ofNat w (leValue ((rest.drop start).take count))

/-- Decode instruction data; `pubkeyFromBytes` reads an address from its 32
bytes. -/
def StakeInstruction.unpack {Pubkey : Type}
    (pubkeyFromBytes : List U8 → Pubkey) (data : List U8) :
    Except ProgramError (StakeInstruction Pubkey) :=
  match data with
  | [] => .error .invalidInstructionData
  | tag :: rest =>
      match tag.toNat with
      | 0 => do
          require (16 ≤ rest.length) .invalidInstructionData
          .ok (.initPool (wordAt 64 rest 0 8) (wordAt 64 rest 8 8))
      | 1 => do
          require (8 ≤ rest.length) .invalidInstructionData
          .ok (.deposit (wordAt 64 rest 0 8))
      | 2 => do
          require (8 ≤ rest.length) .invalidInstructionData
          .ok (.withdraw (wordAt 64 rest 0 8))
      | 3 => do
          require (8 ≤ rest.length) .invalidInstructionData
          .ok (.flushToInsurance (wordAt 64 rest 0 8))
      | 4 => do
          require (18 ≤ rest.length) .invalidInstructionData
          let hasCooldown := wordAt 8 rest 0 1 ≠ 0
          let cooldown := wordAt 64 rest 1 8
          let hasCap := wordAt 8 rest 9 1 ≠ 0
          let cap := wordAt 64 rest 10 8
          .ok (.updateConfig
            (if hasCooldown then some cooldown else none)
            (if hasCap then some cap else none))
      | 5 => .ok .transferAdmin
      | 6 => do
          require (32 ≤ rest.length) .invalidInstructionData
          .ok (.adminSetOracleAuthority (pubkeyFromBytes (rest.take 32)))
      | 7 => do
          require (16 ≤ rest.length) .invalidInstructionData
          .ok (.adminSetRiskThreshold (wordAt 128 rest 0 16))
      | 8 => do
          require (16 ≤ rest.length) .invalidInstructionData
          .ok (.adminSetMaintenanceFee (wordAt 128 rest 0 16))
      | 9 => .ok .adminResolveMarket
      | 10 => do
          require (8 ≤ rest.length) .invalidInstructionData
          .ok (.adminWithdrawInsurance (wordAt 64 rest 0 8))
      | 11 => do
          require (50 ≤ rest.length) .invalidInstructionData
          .ok (.adminSetInsurancePolicy (pubkeyFromBytes (rest.take 32))
            (wordAt 64 rest 32 8) (wordAt 16 rest 40 2)
            (wordAt 64 rest 42 8))
      | 12 => .ok .accrueFees
      | 13 => do
          require (16 ≤ rest.length) .invalidInstructionData
          .ok (.initTradingPool (wordAt 64 rest 0 8) (wordAt 64 rest 8 8))
      | 14 => do
          require (3 ≤ rest.length) .invalidInstructionData
          .ok (.adminSetHwmConfig (decide (wordAt 8 rest 0 1 ≠ 0))
            (wordAt 16 rest 1 2))
      | _ => .error .invalidInstructionData

end PercolatorVault
