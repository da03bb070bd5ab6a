import PercolatorVault.LittleEndian
import Mathlib.Logic.Equiv.Basic

/-!
# Records that are their bytes

A plain type has a fixed size, and its values are the byte strings of that
size.  Plain types are words, byte arrays, and pairs of plain types.  A
`Field` is a part of a record together with its place in the bytes: reading
the field is reading these bytes, and writing it is overwriting them.  From
this follows what fields owe to each other, whatever the record is.
-/

namespace PlainRecords

open CheckedArithmetic
open LittleEndian

variable {α β γ : Type}

/-! ## Parts of a byte string -/

def slice (bytes : List U8) (start count : ℕ) : List U8 :=
  (bytes.drop start).take count

def overwrite (bytes : List U8) (start : ℕ) (new : List U8) : List U8 :=
  bytes.take start ++ new ++ bytes.drop (start + new.length)

theorem length_slice {bytes : List U8} {start count : ℕ}
    (h : start + count ≤ bytes.length) :
    (slice bytes start count).length = count := by
  simp only [slice, List.length_take, List.length_drop]
  omega

theorem length_overwrite {bytes new : List U8} {start : ℕ}
    (h : start + new.length ≤ bytes.length) :
    (overwrite bytes start new).length = bytes.length := by
  simp only [overwrite, List.length_append, List.length_take,
    List.length_drop]
  omega

theorem getElem?_slice (bytes : List U8) (start count index : ℕ) :
    (slice bytes start count)[index]? =
      if index < count then bytes[start + index]? else none := by
  simp only [slice, List.getElem?_take, List.getElem?_drop]

theorem getElem?_overwrite {bytes new : List U8} {start : ℕ}
    (h : start + new.length ≤ bytes.length) (index : ℕ) :
    (overwrite bytes start new)[index]? =
      if start ≤ index ∧ index < start + new.length then new[index - start]?
      else bytes[index]? := by
  have htake : (bytes.take start).length = start := by
    simp only [List.length_take]
    omega
  unfold overwrite
  rw [List.append_assoc]
  rcases Nat.lt_or_ge index start with hbefore | hfrom
  · rw [List.getElem?_append_left (by omega),
      List.getElem?_take_of_lt hbefore, if_neg (by omega)]
  · rw [List.getElem?_append_right (by omega), htake]
    rcases Nat.lt_or_ge index (start + new.length) with hinside | hafter
    · rw [List.getElem?_append_left (by omega), if_pos ⟨hfrom, hinside⟩]
    · rw [List.getElem?_append_right (by omega), List.getElem?_drop,
        if_neg (by omega)]
      congr 1
      omega

theorem slice_overwrite_of_disjoint {bytes new : List U8} {start : ℕ}
    (h : start + new.length ≤ bytes.length) {offset count : ℕ}
    (hdisjoint : offset + count ≤ start ∨ start + new.length ≤ offset) :
    slice (overwrite bytes start new) offset count =
      slice bytes offset count := by
  apply List.ext_getElem?
  intro index
  rw [getElem?_slice, getElem?_slice, getElem?_overwrite h]
  by_cases hindex : index < count
  · rw [if_pos hindex, if_pos hindex, if_neg (by omega)]
  · rw [if_neg hindex, if_neg hindex]

theorem slice_slice {bytes : List U8} {start count offset size : ℕ}
    (h : offset + size ≤ count) :
    slice (slice bytes start count) offset size =
      slice bytes (start + offset) size := by
  apply List.ext_getElem?
  intro index
  rw [getElem?_slice, getElem?_slice, getElem?_slice]
  by_cases hindex : index < size
  · rw [if_pos hindex, if_pos hindex, if_pos (by omega), Nat.add_assoc]
  · rw [if_neg hindex, if_neg hindex]

/-- Overwriting a part and putting it back is overwriting the whole. -/
theorem overwrite_overwrite_slice {bytes new : List U8}
    {start count offset : ℕ} (h : start + count ≤ bytes.length)
    (hnew : offset + new.length ≤ count) :
    overwrite bytes start (overwrite (slice bytes start count) offset new) =
      overwrite bytes (start + offset) new := by
  have hslice := length_slice h
  have hinner : (overwrite (slice bytes start count) offset new).length =
      count := by
    rw [length_overwrite (by omega), hslice]
  apply List.ext_getElem?
  intro index
  rw [getElem?_overwrite (by omega), getElem?_overwrite (by omega), hinner,
    getElem?_overwrite (by omega), getElem?_slice]
  by_cases hpart : start ≤ index ∧ index < start + count
  · rw [if_pos hpart, if_pos (show index - start < count by omega)]
    by_cases hinside : start + offset ≤ index ∧
        index < start + offset + new.length
    · rw [if_pos hinside, if_pos (by omega)]
      congr 1
      omega
    · rw [if_neg hinside, if_neg (by omega)]
      congr 1
      omega
  · rw [if_neg hpart, if_neg (by omega)]

/-! ## Plain types -/

structure Plain (α : Type) where
  size : ℕ
  toBytes : α → List U8
  fromBytes : List U8 → α
  length_toBytes : ∀ value, (toBytes value).length = size
  fromBytes_toBytes : ∀ value, fromBytes (toBytes value) = value
  toBytes_fromBytes : ∀ bytes, bytes.length = size →
    toBytes (fromBytes bytes) = bytes

namespace Plain

/-- A word of `count` bytes, least significant byte first. -/
def word {w : ℕ} (count : ℕ) (hw : w = 8 * count) : Plain (BitVec w) where
  size := count
  toBytes value := leBytes count value.toNat
  fromBytes bytes := BitVec.ofNat w (leValue bytes)
  length_toBytes _ := leBytes_length _ _
  fromBytes_toBytes value := ofNat_leValue_leBytes count hw value
  toBytes_fromBytes bytes hlength := by
    have hlt := leValue_lt bytes
    have hpow : (256 : ℕ) ^ count = 2 ^ w := by
      rw [hw, Nat.pow_mul]
    rw [hlength, hpow] at hlt
    rw [BitVec.toNat_ofNat, Nat.mod_eq_of_lt hlt, ← hlength]
    exact leBytes_leValue bytes

def array (count : ℕ) : Plain (Vector U8 count) where
  size := count
  toBytes value := value.toList
  fromBytes bytes := Vector.ofFn fun i => bytes[i.val]?.getD 0
  length_toBytes value := by simp
  fromBytes_toBytes value := by
    apply Vector.ext
    intro i hi
    simp
  toBytes_fromBytes bytes hlength := by
    apply List.ext_getElem?
    intro index
    by_cases hindex : index < count
    · rw [List.getElem?_eq_getElem (by simpa using hindex),
        List.getElem?_eq_getElem (by omega)]
      simp [List.getElem?_eq_getElem (show index < bytes.length by omega)]
    · rw [List.getElem?_eq_none (by simpa using Nat.le_of_not_lt hindex),
        List.getElem?_eq_none (by omega)]

/-- One record after the other. -/
def pair (left : Plain α) (right : Plain β) : Plain (α × β) where
  size := left.size + right.size
  toBytes value := left.toBytes value.1 ++ right.toBytes value.2
  fromBytes bytes :=
    (left.fromBytes (bytes.take left.size),
      right.fromBytes (bytes.drop left.size))
  length_toBytes value := by
    rw [List.length_append, left.length_toBytes, right.length_toBytes]
  fromBytes_toBytes value := by
    rw [List.take_left' (left.length_toBytes _),
      List.drop_left' (left.length_toBytes _), left.fromBytes_toBytes,
      right.fromBytes_toBytes]
  toBytes_fromBytes bytes hlength := by
    rw [left.toBytes_fromBytes _ (by simp [hlength]),
      right.toBytes_fromBytes _ (by simp [hlength]), List.take_append_drop]

/-- The same bytes, read as another type. -/
def map (plain : Plain α) (e : α ≃ β) : Plain β where
  size := plain.size
  toBytes value := plain.toBytes (e.symm value)
  fromBytes bytes := e (plain.fromBytes bytes)
  length_toBytes value := plain.length_toBytes _
  fromBytes_toBytes value := by
    rw [plain.fromBytes_toBytes, Equiv.apply_symm_apply]
  toBytes_fromBytes bytes hlength := by
    rw [Equiv.symm_apply_apply, plain.toBytes_fromBytes bytes hlength]

/-- The value is all zero bytes. -/
def IsZero (plain : Plain α) (value : α) : Prop :=
  plain.toBytes value = List.replicate plain.size 0

theorem isZero_word {w : ℕ} (count : ℕ) (hw : w = 8 * count) :
    (word count hw).IsZero 0 := by
  change leBytes count (0 : BitVec w).toNat = List.replicate count 0
  rw [show (0 : BitVec w).toNat = 0 from BitVec.toNat_zero]
  clear hw
  induction count with
  | zero => rfl
  | succ count ih =>
      rw [leBytes, List.replicate_succ]
      exact congrArg (List.cons 0) ih

theorem isZero_array (count : ℕ) :
    (array count).IsZero (Vector.replicate count 0) :=
  Vector.toList_replicate

theorem IsZero.pair {left : Plain α} {right : Plain β} {value : α}
    {value' : β} (h : left.IsZero value) (h' : right.IsZero value') :
    (left.pair right).IsZero (value, value') := by
  unfold IsZero at h h' ⊢
  simp only [Plain.pair, h, h', List.replicate_append_replicate]

theorem IsZero.map {plain : Plain α} {value : α} (h : plain.IsZero value)
    (e : α ≃ β) : (plain.map e).IsZero (e value) := by
  unfold IsZero at h ⊢
  change plain.toBytes (e.symm (e value)) = _
  rw [Equiv.symm_apply_apply]
  exact h

theorem IsZero.fromBytes {plain : Plain α} {value : α}
    (h : plain.IsZero value) :
    plain.fromBytes (List.replicate plain.size 0) = value := by
  rw [← h, plain.fromBytes_toBytes]

theorem toBytes_injective (plain : Plain α) :
    Function.Injective plain.toBytes := by
  intro value value' h
  rw [← plain.fromBytes_toBytes value, h, plain.fromBytes_toBytes]

/-- The record at the beginning of `data`, if there is enough of it. -/
def readPrefix (plain : Plain α) (data : List U8) : Option α :=
  if plain.size ≤ data.length then
    some (plain.fromBytes (data.take plain.size))
  else none

theorem readPrefix_zeroes {plain : Plain α} {value : α}
    (h : plain.IsZero value) (length : ℕ) :
    plain.readPrefix (List.replicate length 0) =
      if plain.size ≤ length then some value else none := by
  unfold readPrefix
  rw [List.length_replicate]
  split
  · next hlength =>
      rw [List.take_replicate, min_eq_left hlength, h.fromBytes]
  · rfl

/-- Writing the beginning leaves what comes after it. -/
theorem readPrefix_overwrite {plain : Plain α} {data : List U8} {old : α}
    (h : plain.readPrefix data = some old) (value : α) :
    plain.readPrefix (overwrite data 0 (plain.toBytes value)) = some value ∧
      (overwrite data 0 (plain.toBytes value)).length = data.length ∧
      (overwrite data 0 (plain.toBytes value)).drop plain.size =
        data.drop plain.size := by
  have hbytes := plain.length_toBytes value
  have hlength : plain.size ≤ data.length := by
    by_contra hshort
    unfold readPrefix at h
    rw [if_neg hshort] at h
    cases h
  have hwritten : overwrite data 0 (plain.toBytes value) =
      plain.toBytes value ++ data.drop plain.size := by
    simp only [overwrite, List.take_zero, List.nil_append, Nat.zero_add,
      hbytes]
  rw [hwritten]
  refine ⟨?_, ?_, List.drop_left' hbytes⟩
  · unfold readPrefix
    rw [if_pos (by rw [List.length_append, hbytes]; omega),
      List.take_left' hbytes, plain.fromBytes_toBytes]
  · rw [List.length_append, hbytes, List.length_drop]
    omega

end Plain

/-! ## Fields -/

structure Field (record : Plain α) (part : Plain β) where
  offset : ℕ
  get : α → β
  set : α → β → α
  fits : offset + part.size ≤ record.size
  read : ∀ value,
    slice (record.toBytes value) offset part.size = part.toBytes (get value)
  write : ∀ value new, record.toBytes (set value new) =
    overwrite (record.toBytes value) offset (part.toBytes new)

namespace Field

variable {record : Plain α} {part : Plain β} {piece : Plain γ}

theorem fits_toBytes (field : Field record part) (value : α) (new : β) :
    field.offset + (part.toBytes new).length ≤
      (record.toBytes value).length := by
  rw [part.length_toBytes, record.length_toBytes]
  exact field.fits

def whole (record : Plain α) : Field record record where
  offset := 0
  get value := value
  set _ new := new
  fits := by omega
  read value := by
    unfold slice
    rw [List.drop_zero, ← record.length_toBytes value, List.take_length]
  write value new := by
    unfold overwrite
    rw [List.take_zero, List.nil_append, Nat.zero_add,
      record.length_toBytes new, ← record.length_toBytes value,
      List.drop_length, List.append_nil]

/-- The same field of a record read as another type. -/
def ofMap (field : Field record part) {δ : Type} (e : α ≃ δ) :
    Field (record.map e) part where
  offset := field.offset
  get value := field.get (e.symm value)
  set value new := e (field.set (e.symm value) new)
  fits := field.fits
  read value := field.read (e.symm value)
  write value new := by
    change record.toBytes (e.symm (e _)) = _
    rw [Equiv.symm_apply_apply]
    exact field.write (e.symm value) new

def head (left : Plain α) (right : Plain β) :
    Field (left.pair right) left where
  offset := 0
  get value := value.1
  set value new := (new, value.2)
  fits := by
    rw [Nat.zero_add]
    exact Nat.le_add_right _ _
  read value := by
    unfold slice
    rw [List.drop_zero]
    exact List.take_left' (left.length_toBytes _)
  write value new := by
    unfold overwrite
    rw [List.take_zero, List.nil_append, Nat.zero_add, left.length_toBytes]
    exact congrArg (left.toBytes new ++ ·)
      (List.drop_left' (left.length_toBytes _)).symm

def tail (left : Plain α) (right : Plain β) :
    Field (left.pair right) right where
  offset := left.size
  get value := value.2
  set value new := (value.1, new)
  fits := le_rfl
  read value := by
    have hdrop : ((left.pair right).toBytes value).drop left.size =
        right.toBytes value.2 := List.drop_left' (left.length_toBytes _)
    unfold slice
    rw [hdrop, ← right.length_toBytes value.2, List.take_length]
  write value new := by
    have htake : ((left.pair right).toBytes value).take left.size =
        left.toBytes value.1 := List.take_left' (left.length_toBytes _)
    have hdrop : ((left.pair right).toBytes value).drop
        (left.size + (right.toBytes new).length) = [] := by
      apply List.drop_eq_nil_of_le
      rw [(left.pair right).length_toBytes, right.length_toBytes]
      exact le_rfl
    unfold overwrite
    rw [htake, hdrop, List.append_nil]
    rfl

/-- A field of a field. -/
def comp (outer : Field record part) (inner : Field part piece) :
    Field record piece where
  offset := outer.offset + inner.offset
  get value := inner.get (outer.get value)
  set value new := outer.set value (inner.set (outer.get value) new)
  fits := by
    have houter := outer.fits
    have hinner := inner.fits
    omega
  read value := by
    rw [← inner.read, ← outer.read, slice_slice inner.fits]
  write value new := by
    have hfits := outer.fits_toBytes value (outer.get value)
    rw [part.length_toBytes] at hfits
    rw [outer.write, inner.write, ← outer.read]
    apply overwrite_overwrite_slice hfits
    rw [piece.length_toBytes]
    exact inner.fits

/-- Bytes of an array that are a record of their own. -/
def within {count : ℕ} (part : Plain β) (offset : ℕ)
    (hfits : offset + part.size ≤ count) :
    Field (Plain.array count) part where
  offset := offset
  get value := part.fromBytes (readSlice value offset part.size)
  set value new := copyFromSlice value offset (part.toBytes new)
  fits := hfits
  read value := by
    have hlength : (readSlice value offset part.size).length = part.size :=
      length_slice (by simpa using hfits)
    exact (part.toBytes_fromBytes _ hlength).symm
  write value new := by
    have hlength := part.length_toBytes new
    apply List.ext_getElem?
    intro index
    rw [getElem?_overwrite (by simpa [Plain.array, hlength] using hfits)]
    by_cases hindex : index < count
    · have hleft : index <
          (copyFromSlice value offset (part.toBytes new)).toList.length := by
        simpa using hindex
      have hright : index < value.toList.length := by simpa using hindex
      simp only [Plain.array]
      rw [List.getElem?_eq_getElem hleft, List.getElem?_eq_getElem hright,
        Vector.getElem_toList, Vector.getElem_toList, getElem_copyFromSlice]
      by_cases hstart : offset ≤ index
      · rw [if_pos hstart]
        by_cases hinside : index < offset + (part.toBytes new).length
        · rw [if_pos ⟨hstart, hinside⟩,
            List.getElem?_eq_getElem (by omega), Option.getD_some]
        · rw [if_neg (by omega), List.getElem?_eq_none (by omega),
            Option.getD_none]
      · rw [if_neg hstart, if_neg (by omega)]
    · rw [if_neg (by omega), List.getElem?_eq_none, List.getElem?_eq_none]
      · simpa [Plain.array] using hindex
      · simpa [Plain.array] using hindex

/-! ## What fields owe to each other -/

theorem get_set_of_disjoint (field : Field record part)
    (other : Field record piece)
    (hdisjoint : other.offset + piece.size ≤ field.offset ∨
      field.offset + part.size ≤ other.offset) (value : α) (new : β) :
    other.get (field.set value new) = other.get value := by
  apply piece.toBytes_injective
  rw [← other.read, ← other.read, field.write]
  apply slice_overwrite_of_disjoint (field.fits_toBytes value new)
  rwa [part.length_toBytes]

end Field

/-! ## Formats -/

/-- Values of the record are the strings of `size` bytes; the named parts tile
them, and each part is read and written where it lies. -/
structure HasFormat (record : Plain α) (size : ℕ) {Name : Type}
    {Value : Name → Type} (plain : ∀ name, Plain (Value name))
    (offset : Name → ℕ) (get : ∀ name, α → Value name)
    (set : ∀ name, α → Value name → α) : Prop where
  size_eq : record.size = size
  fromBytes_toBytes : ∀ value, record.fromBytes (record.toBytes value) = value
  toBytes_fromBytes : ∀ bytes, bytes.length = size →
    record.toBytes (record.fromBytes bytes) = bytes
  tiled : ∀ index < size, ∃! name,
    offset name ≤ index ∧ index < offset name + (plain name).size
  read : ∀ name value,
    slice (record.toBytes value) (offset name) (plain name).size =
      (plain name).toBytes (get name value)
  write : ∀ name value new, record.toBytes (set name value new) =
    overwrite (record.toBytes value) (offset name) ((plain name).toBytes new)
  frame : ∀ name other, name ≠ other → ∀ value new,
    get other (set name value new) = get other value

section Formats

variable {record : Plain α} {size : ℕ} {Name : Type} {Value : Name → Type}
  {plain : ∀ name, Plain (Value name)} {offset : Name → ℕ}
  {get : ∀ name, α → Value name} {set : ∀ name, α → Value name → α}

/-- A format from the place of each part. -/
theorem hasFormat_of_places (place : ∀ name, Field record (plain name))
    (hsize : record.size = size)
    (hoffset : ∀ name, (place name).offset = offset name)
    (hget : ∀ name value, (place name).get value = get name value)
    (hset : ∀ name value new,
      (place name).set value new = set name value new)
    (hcovered : ∀ index < size, ∃ name,
      offset name ≤ index ∧ index < offset name + (plain name).size)
    (hdisjoint : ∀ name other, name ≠ other →
      offset other + (plain other).size ≤ offset name ∨
        offset name + (plain name).size ≤ offset other) :
    HasFormat record size plain offset get set where
  size_eq := hsize
  fromBytes_toBytes := record.fromBytes_toBytes
  toBytes_fromBytes bytes hlength :=
    record.toBytes_fromBytes bytes (hlength.trans hsize.symm)
  tiled index hindex := by
    obtain ⟨name, hlow, hhigh⟩ := hcovered index hindex
    refine ⟨name, ⟨hlow, hhigh⟩, ?_⟩
    rintro other ⟨hlow', hhigh'⟩
    by_contra hne
    have hapart := hdisjoint other name hne
    omega
  read name value := by
    have hread := (place name).read value
    rwa [hoffset, hget] at hread
  write name value new := by
    rw [← hset, ← hoffset]
    exact (place name).write value new
  frame name other hne value new := by
    rw [← hset, ← hget, ← hget]
    apply Field.get_set_of_disjoint
    rw [hoffset, hoffset]
    exact hdisjoint name other hne

end Formats

end PlainRecords
