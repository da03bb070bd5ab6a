import PercolatorVault.CheckedArithmetic

/-!
# Little-endian words inside byte arrays

Numbers are read from and written to byte strings least significant byte
first.  A fixed array of bytes is a `Vector`; `readSlice` and `copyFromSlice`
are the two ways a record packed into such an array is accessed, and the
lemmas say that writing one range is seen by a later read of that range and by
no read of a disjoint one.
-/

namespace LittleEndian

open CheckedArithmetic

/-! ## Numbers as byte strings -/

def leValue : List U8 → ℕ
  | [] => 0
  | byte :: rest => byte.toNat + 256 * leValue rest

def leBytes : ℕ → ℕ → List U8
  | 0, _ => []
  | count + 1, value =>
      BitVec.ofNat 8 value :: leBytes count (value / 256)

@[simp] theorem leBytes_length (count value : ℕ) :
    (leBytes count value).length = count := by
  induction count generalizing value with
  | zero => rfl
  | succ count ih => simp [leBytes, ih]

theorem leValue_leBytes (count value : ℕ) :
    leValue (leBytes count value) = value % 256 ^ count := by
  induction count generalizing value with
  | zero => simp [leBytes, leValue, Nat.mod_one]
  | succ count ih =>
      have hsplit := Nat.mod_mul (a := 256) (b := 256 ^ count) (x := value)
      simp only [leBytes, leValue, BitVec.toNat_ofNat, ih]
      rw [show 256 ^ (count + 1) = 256 * 256 ^ count by ring, hsplit]

theorem leValue_lt (bytes : List U8) : leValue bytes < 256 ^ bytes.length := by
  induction bytes with
  | nil => exact Nat.one_pos
  | cons byte rest ih =>
      have hbyte : byte.toNat < 256 := byte.isLt
      simp only [leValue, List.length_cons, Nat.pow_succ]
      omega

/-- Reading bytes as a number and writing it with as many bytes returns
them. -/
theorem leBytes_leValue (bytes : List U8) :
    leBytes bytes.length (leValue bytes) = bytes := by
  induction bytes with
  | nil => rfl
  | cons byte rest ih =>
      have hbyte : byte.toNat < 256 := byte.isLt
      have hlow : BitVec.ofNat 8 (byte.toNat + 256 * leValue rest) = byte := by
        apply BitVec.eq_of_toNat_eq
        rw [BitVec.toNat_ofNat]
        omega
      have hhigh : (byte.toNat + 256 * leValue rest) / 256 = leValue rest := by
        omega
      simp only [leValue, List.length_cons, leBytes, hlow, hhigh, ih]

/-- Writing a word of `8 * count` bits and reading it back returns it. -/
theorem ofNat_leValue_leBytes {w : ℕ} (count : ℕ) (hw : w = 8 * count)
    (word : BitVec w) :
    BitVec.ofNat w (leValue (leBytes count word.toNat)) = word := by
  have hpow : (256 : ℕ) ^ count = 2 ^ w := by
    rw [hw, Nat.pow_mul]
  have hlt := word.isLt
  apply BitVec.eq_of_toNat_eq
  rw [BitVec.toNat_ofNat, leValue_leBytes, hpow, Nat.mod_mod,
    Nat.mod_eq_of_lt hlt]

/-! ## Ranges of a byte array -/

variable {size : ℕ}

def readSlice (array : Vector U8 size) (start count : ℕ) : List U8 :=
  (array.toList.drop start).take count

def copyFromSlice (array : Vector U8 size) (start : ℕ)
    (bytes : List U8) : Vector U8 size :=
  Vector.ofFn fun i =>
    if start ≤ i.val then
      (bytes[i.val - start]?).getD array[i]
    else array[i]

theorem readSlice_getElem? (array : Vector U8 size)
    (start count index : ℕ) :
    (readSlice array start count)[index]? =
      if index < count then array.toList[start + index]? else none := by
  simp only [readSlice, List.getElem?_take, List.getElem?_drop]

theorem readSlice_one (array : Vector U8 size) {start : ℕ}
    (h : start < size) : readSlice array start 1 = [array[start]] := by
  have hlength : start < array.toList.length := by simpa using h
  simp [readSlice, List.drop_eq_getElem_cons hlength]

theorem readSlice_two (array : Vector U8 size) {start : ℕ}
    (h : start < size) (hnext : start + 1 < size) :
    readSlice array start 2 = [array[start], array[start + 1]] := by
  have hlength : start < array.toList.length := by simpa using h
  have hlength' : start + 1 < array.toList.length := by simpa using hnext
  simp [readSlice, List.drop_eq_getElem_cons hlength,
    List.drop_eq_getElem_cons hlength']

theorem readSlice_congr {left right : Vector U8 size} {start count : ℕ}
    (h : ∀ i (hi : i < size), start ≤ i → i < start + count →
      left[i] = right[i]) :
    readSlice left start count = readSlice right start count := by
  apply List.ext_getElem?
  intro index
  rw [readSlice_getElem?, readSlice_getElem?]
  by_cases hindex : index < count
  · rw [if_pos hindex, if_pos hindex]
    by_cases hsize : start + index < size
    · have hleft : start + index < left.toList.length := by simpa using hsize
      have hright : start + index < right.toList.length := by simpa using hsize
      rw [List.getElem?_eq_getElem hleft, List.getElem?_eq_getElem hright]
      simp only [Vector.getElem_toList]
      rw [h (start + index) hsize (by omega) (by omega)]
    · rw [List.getElem?_eq_none (by simpa using Nat.le_of_not_lt hsize),
        List.getElem?_eq_none (by simpa using Nat.le_of_not_lt hsize)]
  · rw [if_neg hindex, if_neg hindex]

theorem getElem_copyFromSlice (array : Vector U8 size) (start : ℕ)
    (bytes : List U8) (i : ℕ) (hi : i < size) :
    (copyFromSlice array start bytes)[i] =
      if start ≤ i then (bytes[i - start]?).getD array[i] else array[i] := by
  simp [copyFromSlice]

theorem copyFromSlice_one (array : Vector U8 size) {start : ℕ}
    (h : start < size) (byte : U8) :
    copyFromSlice array start [byte] = array.set start byte := by
  apply Vector.ext
  intro i hi
  rw [getElem_copyFromSlice, Vector.getElem_set]
  by_cases hsame : start = i
  · subst hsame
    simp
  · rw [if_neg hsame]
    split
    · rw [List.getElem?_eq_none (by simp only [List.length_singleton]; omega),
        Option.getD_none]
    · rfl

theorem readSlice_copyFromSlice (array : Vector U8 size) (start : ℕ)
    (bytes : List U8) (hfit : start + bytes.length ≤ size) :
    readSlice (copyFromSlice array start bytes) start bytes.length =
      bytes := by
  apply List.ext_getElem?
  intro index
  rw [readSlice_getElem?]
  by_cases hindex : index < bytes.length
  · have hsize : start + index < size := by omega
    have hlength :
        start + index < (copyFromSlice array start bytes).toList.length := by
      simpa using hsize
    rw [if_pos hindex, List.getElem?_eq_getElem hlength,
      Vector.getElem_toList, getElem_copyFromSlice _ _ _ _ hsize,
      if_pos (Nat.le_add_right _ _), Nat.add_sub_cancel_left,
      List.getElem?_eq_getElem hindex]
    rfl
  · rw [if_neg hindex, List.getElem?_eq_none (Nat.le_of_not_lt hindex)]

theorem readSlice_copyFromSlice_of_disjoint (array : Vector U8 size)
    {start : ℕ} {bytes : List U8} {offset count : ℕ}
    (hdisjoint : offset + count ≤ start ∨ start + bytes.length ≤ offset) :
    readSlice (copyFromSlice array start bytes) offset count =
      readSlice array offset count := by
  apply readSlice_congr
  intro i hi hlow hhigh
  rw [getElem_copyFromSlice]
  split
  · next hstart =>
      rw [List.getElem?_eq_none (by omega)]
      rfl
  · rfl

theorem getElem_copyFromSlice_of_disjoint (array : Vector U8 size)
    {start : ℕ} {bytes : List U8} {i : ℕ} (hi : i < size)
    (hdisjoint : i < start ∨ start + bytes.length ≤ i) :
    (copyFromSlice array start bytes)[i] = array[i] := by
  rw [getElem_copyFromSlice]
  split
  · next hstart =>
      rw [List.getElem?_eq_none (by omega)]
      rfl
  · rfl

theorem readSlice_set_of_disjoint (array : Vector U8 size)
    {i : ℕ} (hi : i < size) (byte : U8) {offset count : ℕ}
    (hdisjoint : offset + count ≤ i ∨ i < offset) :
    readSlice (array.set i byte) offset count =
      readSlice array offset count := by
  apply readSlice_congr
  intro j hj hlow hhigh
  rw [Vector.getElem_set_ne]
  omega

end LittleEndian
