import Mathlib.Tactic

/-!
# Checked and saturating arithmetic on fixed-width words

Unsigned machine words are `BitVec w`.  The operations below are the ones a
systems language offers next to its wrapping arithmetic: they report or clamp
an overflow instead of wrapping.  Every lemma translates one operation into a
statement about natural numbers, which is where the proofs that use this file
do their reasoning.
-/

namespace CheckedArithmetic

abbrev U8 := BitVec 8
abbrev U16 := BitVec 16
abbrev U32 := BitVec 32
abbrev U64 := BitVec 64
abbrev U128 := BitVec 128

variable {w : ℕ}

def checkedAdd (x y : BitVec w) : Option (BitVec w) :=
  if x.toNat + y.toNat < 2 ^ w then some (x + y) else none

def checkedSub (x y : BitVec w) : Option (BitVec w) :=
  if y.toNat ≤ x.toNat then some (x - y) else none

def checkedMul (x y : BitVec w) : Option (BitVec w) :=
  if x.toNat * y.toNat < 2 ^ w then some (x * y) else none

def checkedDiv (x y : BitVec w) : Option (BitVec w) :=
  if y = 0 then none else some (x / y)

def saturatingAdd (x y : BitVec w) : BitVec w :=
  if x.toNat + y.toNat < 2 ^ w then x + y else BitVec.allOnes w

def saturatingSub (x y : BitVec w) : BitVec w :=
  if y.toNat ≤ x.toNat then x - y else 0

def wordMin (x y : BitVec w) : BitVec w :=
  if x.toNat ≤ y.toNat then x else y

def wordMax (x y : BitVec w) : BitVec w :=
  if x.toNat ≤ y.toNat then y else x

theorem toNat_add_of_lt {x y : BitVec w}
    (h : x.toNat + y.toNat < 2 ^ w) :
    (x + y).toNat = x.toNat + y.toNat := by
  rw [BitVec.toNat_add, Nat.mod_eq_of_lt h]

theorem toNat_mul_of_lt {x y : BitVec w}
    (h : x.toNat * y.toNat < 2 ^ w) :
    (x * y).toNat = x.toNat * y.toNat := by
  rw [BitVec.toNat_mul, Nat.mod_eq_of_lt h]

theorem toNat_sub_of_le {x y : BitVec w} (h : y.toNat ≤ x.toNat) :
    (x - y).toNat = x.toNat - y.toNat :=
  BitVec.toNat_sub_of_le (BitVec.le_def.mpr h)

theorem checkedAdd_eq_some {x y z : BitVec w} :
    checkedAdd x y = some z ↔ x.toNat + y.toNat = z.toNat := by
  unfold checkedAdd
  constructor
  · intro h
    split at h
    · next hlt =>
        cases h
        exact (toNat_add_of_lt hlt).symm
    · cases h
  · intro h
    have hlt : x.toNat + y.toNat < 2 ^ w := h ▸ z.isLt
    rw [if_pos hlt]
    congr 1
    apply BitVec.eq_of_toNat_eq
    rw [toNat_add_of_lt hlt, h]

theorem checkedSub_eq_some {x y z : BitVec w} :
    checkedSub x y = some z ↔ x.toNat = z.toNat + y.toNat := by
  unfold checkedSub
  constructor
  · intro h
    split at h
    · next hle =>
        cases h
        rw [toNat_sub_of_le hle]
        omega
    · cases h
  · intro h
    have hle : y.toNat ≤ x.toNat := by omega
    rw [if_pos hle]
    congr 1
    apply BitVec.eq_of_toNat_eq
    rw [toNat_sub_of_le hle]
    omega

theorem checkedMul_eq_some {x y z : BitVec w} :
    checkedMul x y = some z ↔ x.toNat * y.toNat = z.toNat := by
  unfold checkedMul
  constructor
  · intro h
    split at h
    · next hlt =>
        cases h
        exact (toNat_mul_of_lt hlt).symm
    · cases h
  · intro h
    have hlt : x.toNat * y.toNat < 2 ^ w := h ▸ z.isLt
    rw [if_pos hlt]
    congr 1
    apply BitVec.eq_of_toNat_eq
    rw [toNat_mul_of_lt hlt, h]

theorem checkedDiv_eq_some {x y z : BitVec w} :
    checkedDiv x y = some z ↔
      0 < y.toNat ∧ z.toNat = x.toNat / y.toNat := by
  unfold checkedDiv
  by_cases hy : y = 0
  · simp [hy]
  · have hpos : 0 < y.toNat := by
      rw [Nat.pos_iff_ne_zero]
      intro h
      exact hy (BitVec.eq_of_toNat_eq (by simpa using h))
    rw [if_neg hy]
    simp only [Option.some.injEq, hpos, true_and]
    rw [← BitVec.toNat_udiv, BitVec.toNat_inj]
    exact eq_comm

theorem toNat_saturatingSub (x y : BitVec w) :
    (saturatingSub x y).toNat = x.toNat - y.toNat := by
  unfold saturatingSub
  split
  · next hle => exact toNat_sub_of_le hle
  · next hgt =>
      simp only [BitVec.ofNat_eq_ofNat, BitVec.toNat_ofNat, Nat.zero_mod]
      omega

theorem toNat_saturatingAdd (x y : BitVec w) :
    (saturatingAdd x y).toNat =
      min (x.toNat + y.toNat) (2 ^ w - 1) := by
  unfold saturatingAdd
  split
  · next hlt =>
      rw [toNat_add_of_lt hlt]
      omega
  · next hge =>
      rw [BitVec.toNat_allOnes]
      omega

@[simp] theorem toNat_wordMin (x y : BitVec w) :
    (wordMin x y).toNat = min x.toNat y.toNat := by
  unfold wordMin
  split <;> omega

@[simp] theorem toNat_wordMax (x y : BitVec w) :
    (wordMax x y).toNat = max x.toNat y.toNat := by
  unfold wordMax
  split <;> omega

/-- Widening a word keeps its value. -/
@[simp] theorem toNat_widen_u64 (x : U64) :
    (x.setWidth 128).toNat = x.toNat := by
  rw [BitVec.toNat_setWidth]
  omega

/-- Two 64-bit factors never overflow a 128-bit product. -/
theorem mul_lt_u128 (x y : U64) : x.toNat * y.toNat < 2 ^ 128 := by
  calc
    x.toNat * y.toNat < 2 ^ 64 * 2 ^ 64 :=
      Nat.mul_lt_mul'' x.isLt y.isLt
    _ = 2 ^ 128 := by norm_num

/-- The checked conversion to a word of another width. -/
def checkedResize (v : ℕ) (x : BitVec w) : Option (BitVec v) :=
  if x.toNat < 2 ^ v then some (x.setWidth v) else none

theorem checkedResize_eq_some {v : ℕ} {x : BitVec w} {z : BitVec v} :
    checkedResize v x = some z ↔ x.toNat = z.toNat := by
  unfold checkedResize
  constructor
  · intro h
    split at h
    · next hlt =>
        cases h
        rw [BitVec.toNat_setWidth, Nat.mod_eq_of_lt hlt]
    · cases h
  · intro h
    have hlt : x.toNat < 2 ^ v := h ▸ z.isLt
    rw [if_pos hlt]
    congr 1
    apply BitVec.eq_of_toNat_eq
    rw [BitVec.toNat_setWidth, Nat.mod_eq_of_lt hlt, h]

/-- Widening a word keeps its value. -/
theorem toNat_setWidth_of_le {v : ℕ} (h : w ≤ v) (x : BitVec w) :
    (x.setWidth v).toNat = x.toNat := by
  rw [BitVec.toNat_setWidth, Nat.mod_eq_of_lt]
  exact x.isLt.trans_le (Nat.pow_le_pow_right (by decide) h)

/-- A product taken in words of twice the width does not overflow, and its
quotient is exact whenever it fits in the narrow word again. -/
theorem wideMulDiv_eq_some {v : ℕ} (h : 2 * w ≤ v)
    {x y divisor z : BitVec w} :
    (do
      let product ← checkedMul (x.setWidth v) (y.setWidth v)
      let quotient ← checkedDiv product (divisor.setWidth v)
      checkedResize w quotient) = some z ↔
    0 < divisor.toNat ∧ z.toNat = x.toNat * y.toNat / divisor.toNat := by
  have hle : w ≤ v := by omega
  have hbound : x.toNat * y.toNat < 2 ^ v := by
    calc
      x.toNat * y.toNat < 2 ^ w * 2 ^ w := Nat.mul_lt_mul'' x.isLt y.isLt
      _ = 2 ^ (2 * w) := by rw [← pow_add, two_mul]
      _ ≤ 2 ^ v := Nat.pow_le_pow_right (by decide) h
  have hproduct : checkedMul (x.setWidth v) (y.setWidth v) =
      some (x.setWidth v * y.setWidth v) := by
    unfold checkedMul
    rw [toNat_setWidth_of_le hle, toNat_setWidth_of_le hle, if_pos hbound]
  have hvalue : (x.setWidth v * y.setWidth v).toNat = x.toNat * y.toNat := by
    rw [BitVec.toNat_mul, toNat_setWidth_of_le hle, toNat_setWidth_of_le hle,
      Nat.mod_eq_of_lt hbound]
  rw [hproduct]
  simp only [Option.bind_eq_bind, Option.bind_some,
    Option.bind_eq_some_iff, checkedDiv_eq_some, checkedResize_eq_some,
    hvalue, toNat_setWidth_of_le hle]
  constructor
  · rintro ⟨quotient, ⟨hpos, hquotient⟩, hz⟩
    exact ⟨hpos, hz.symm.trans hquotient⟩
  · rintro ⟨hpos, hz⟩
    exact ⟨z.setWidth v, ⟨hpos, by rw [toNat_setWidth_of_le hle, hz]⟩,
      toNat_setWidth_of_le hle z⟩

theorem exists_toNat_eq {n : ℕ} (h : n < 2 ^ w) :
    ∃ x : BitVec w, x.toNat = n :=
  ⟨BitVec.ofNat w n, by rw [BitVec.toNat_ofNat, Nat.mod_eq_of_lt h]⟩

theorem toNat_eq_zero {x : BitVec w} : x.toNat = 0 ↔ x = 0 := by
  constructor
  · intro h
    exact BitVec.eq_of_toNat_eq (by simpa using h)
  · rintro rfl
    simp

theorem toNat_pos {x : BitVec w} : 0 < x.toNat ↔ x ≠ 0 := by
  rw [Nat.pos_iff_ne_zero, Ne, toNat_eq_zero]

end CheckedArithmetic
