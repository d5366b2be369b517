import Mathlib.Algebra.Group.Nat.Defs
import Mathlib.Algebra.GroupWithZero.Nat
import Mathlib.Data.List.Basic
import Mathlib.Tactic.Common

/-! # Little-endian fields of a byte buffer

A buffer is a list of bytes. Fields are read by offset, as packed C structures are; a byte past the
end of the buffer reads as zero. -/

namespace ByteFields

abbrev Bytes := List (BitVec 8)

def byteAt (bytes : Bytes) (offset : Nat) : BitVec 8 :=
  bytes.getD offset 0

def sliceAt (bytes : Bytes) (offset size : Nat) : Bytes :=
  (bytes.drop offset).take size

/-- The unsigned number in the `width` bytes from `offset` on, least significant byte first. -/
def fieldAt (bytes : Bytes) (offset : Nat) : Nat → Nat
  | 0 => 0
  | width + 1 => (byteAt bytes offset).toNat + 256 * fieldAt bytes (offset + 1) width

/-- The `width` low bytes of a number, least significant byte first. -/
def littleEndian : Nat → Nat → Bytes
  | 0, _ => []
  | width + 1, value => BitVec.ofNat 8 value :: littleEndian width (value / 256)

@[simp] theorem length_littleEndian (width value : Nat) : (littleEndian width value).length = width := by
  induction width generalizing value with
  | zero => rfl
  | succ width ih => simp [littleEndian, ih]

theorem byteAt_append_right {before : Bytes} {offset : Nat} (skipped : before.length ≤ offset) (after : Bytes) :
    byteAt (before ++ after) offset = byteAt after (offset - before.length) := by
  simp [byteAt, List.getD_eq_getElem?_getD, List.getElem?_append_right skipped]

theorem byteAt_append_left {before : Bytes} {offset : Nat} (inside : offset < before.length) (after : Bytes) :
    byteAt (before ++ after) offset = byteAt before offset := by
  simp [byteAt, List.getD_eq_getElem?_getD, List.getElem?_append_left inside]

@[simp] theorem byteAt_cons_zero (byte : BitVec 8) (bytes : Bytes) : byteAt (byte :: bytes) 0 = byte := rfl

@[simp] theorem byteAt_cons_succ (byte : BitVec 8) (bytes : Bytes) (offset : Nat) :
    byteAt (byte :: bytes) (offset + 1) = byteAt bytes offset := by
  simp [byteAt]

theorem fieldAt_append_right {before : Bytes} {offset : Nat} (skipped : before.length ≤ offset)
    (after : Bytes) (width : Nat) :
    fieldAt (before ++ after) offset width = fieldAt after (offset - before.length) width := by
  induction width generalizing offset with
  | zero => rfl
  | succ width ih =>
    rw [fieldAt, fieldAt, byteAt_append_right skipped, ih (by omega),
      show offset + 1 - before.length = offset - before.length + 1 by omega]

theorem fieldAt_cons_succ (byte : BitVec 8) (bytes : Bytes) (offset width : Nat) :
    fieldAt (byte :: bytes) (offset + 1) width = fieldAt bytes offset width := by
  have skipped : [byte].length ≤ offset + 1 := by simp
  exact fieldAt_append_right skipped bytes width

/-- Reading a field back where it was written. -/
theorem fieldAt_littleEndian {width value : Nat} (fits : value < 256 ^ width) (after : Bytes) :
    fieldAt (littleEndian width value ++ after) 0 width = value := by
  induction width generalizing value with
  | zero => simp [fieldAt] at fits ⊢; omega
  | succ width ih =>
    have rest : value / 256 < 256 ^ width := by
      rw [Nat.pow_succ] at fits
      exact Nat.div_lt_of_lt_mul (by omega)
    rw [littleEndian, fieldAt, List.cons_append, byteAt_cons_zero, fieldAt_cons_succ, ih rest, BitVec.toNat_ofNat]
    omega

theorem fieldAt_lt (bytes : Bytes) (offset width : Nat) : fieldAt bytes offset width < 256 ^ width := by
  induction width generalizing offset with
  | zero => simp [fieldAt]
  | succ width ih =>
    have low := (byteAt bytes offset).isLt
    have high := ih (offset + 1)
    rw [fieldAt, Nat.pow_succ]
    omega

theorem sliceAt_append_right {before : Bytes} {offset : Nat} (skipped : before.length ≤ offset)
    (after : Bytes) (size : Nat) :
    sliceAt (before ++ after) offset size = sliceAt after (offset - before.length) size := by
  simp [sliceAt, List.drop_append, List.drop_eq_nil_of_le skipped]

theorem sliceAt_zero_append {bytes : Bytes} {size : Nat} (sized : bytes.length = size) (after : Bytes) :
    sliceAt (bytes ++ after) 0 size = bytes := by
  simp [sliceAt, ← sized]

/-- Data in the middle of a buffer. -/
theorem sliceAt_middle {before bytes : Bytes} {offset size : Nat} (starts : before.length = offset)
    (sized : bytes.length = size) (after : Bytes) : sliceAt (before ++ (bytes ++ after)) offset size = bytes := by
  rw [sliceAt_append_right (Nat.le_of_eq starts), starts, Nat.sub_self, sliceAt_zero_append sized]

theorem length_sliceAt_le (bytes : Bytes) (offset size : Nat) : (sliceAt bytes offset size).length ≤ size :=
  List.length_take_le size (bytes.drop offset)

theorem length_sliceAt {bytes : Bytes} {offset size : Nat} (inside : offset + size ≤ bytes.length) :
    (sliceAt bytes offset size).length = size := by
  simp [sliceAt]
  omega

/-! ## Checked accesses

What the plain reads above leave open: whether the bytes are in the buffer. -/

def loadField (bytes : Bytes) (offset width : Nat) : Option Nat :=
  if offset + width ≤ bytes.length then some (fieldAt bytes offset width) else none

def load (bytes : Bytes) (offset size : Nat) : Option Bytes :=
  if offset + size ≤ bytes.length then some (sliceAt bytes offset size) else none

def store (bytes : Bytes) (offset : Nat) (data : Bytes) : Option Bytes :=
  if offset + data.length ≤ bytes.length then
    some (bytes.take offset ++ (data ++ bytes.drop (offset + data.length)))
  else
    none

section

variable {bytes : Bytes} {offset : Nat}

theorem loadField_inside {width : Nat} (inside : offset + width ≤ bytes.length) :
    loadField bytes offset width = some (fieldAt bytes offset width) :=
  if_pos inside

theorem loadField_outside {width : Nat} (outside : ¬ offset + width ≤ bytes.length) : loadField bytes offset width = none :=
  if_neg outside

theorem loadField_eq_some {width value : Nat} :
    loadField bytes offset width = some value ↔ offset + width ≤ bytes.length ∧ fieldAt bytes offset width = value := by
  simp [loadField]

theorem load_inside {size : Nat} (inside : offset + size ≤ bytes.length) :
    load bytes offset size = some (sliceAt bytes offset size) :=
  if_pos inside

theorem load_outside {size : Nat} (outside : ¬ offset + size ≤ bytes.length) : load bytes offset size = none :=
  if_neg outside

theorem load_eq_some {size : Nat} {slice : Bytes} :
    load bytes offset size = some slice ↔ offset + size ≤ bytes.length ∧ sliceAt bytes offset size = slice := by
  simp [load]

theorem store_inside {data : Bytes} (inside : offset + data.length ≤ bytes.length) :
    store bytes offset data = some (bytes.take offset ++ (data ++ bytes.drop (offset + data.length))) :=
  if_pos inside

theorem byteAt_sliceAt {size : Nat} (some : 0 < size) : byteAt (sliceAt bytes offset size) 0 = byteAt bytes offset := by
  obtain ⟨less, rfl⟩ : ∃ less, size = less + 1 := ⟨size - 1, by omega⟩
  simp [byteAt, sliceAt, List.getD_eq_getElem?_getD]

end

end ByteFields
