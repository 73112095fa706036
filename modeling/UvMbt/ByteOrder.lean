/-
Fixed-width numbers and fields in byte strings.
-/
import Mathlib.Data.List.Basic
import Mathlib.Tactic.Ring

set_option autoImplicit false

namespace ByteOrder

/-- The lowest bytes of a number, the lowest one first. -/
def littleEndian : Nat → Nat → List UInt8
  | 0, _ => []
  | width + 1, value =>
      UInt8.ofNat value :: littleEndian width (value / 256)

/-- The number whose lowest byte comes first. -/
def ofLittleEndian : List UInt8 → Nat
  | [] => 0
  | byte :: rest => byte.toNat + 256 * ofLittleEndian rest

/-- The lowest bytes of a number, the lowest one last. -/
def bigEndian (width value : Nat) : List UInt8 :=
  (littleEndian width value).reverse

/-- The field of a length at a distance, when it lies inside. -/
def field (bytes : List UInt8) (offset length : Nat) : Option (List UInt8) :=
  if offset + length ≤ bytes.length then
    some ((bytes.drop offset).take length)
  else none

/-- The bytes with some of them replaced from a distance on. -/
def splice (bytes : List UInt8) (offset : Nat) (data : List UInt8) :
    List UInt8 :=
  bytes.take offset ++ data ++ bytes.drop (offset + data.length)

@[simp] theorem length_littleEndian (width value : Nat) :
    (littleEndian width value).length = width := by
  induction width generalizing value with
  | zero => rfl
  | succ width ih => simp [littleEndian, ih]

@[simp] theorem length_bigEndian (width value : Nat) :
    (bigEndian width value).length = width := by
  simp [bigEndian]

theorem ofLittleEndian_littleEndian (width value : Nat) :
    ofLittleEndian (littleEndian width value) = value % 256 ^ width := by
  induction width generalizing value with
  | zero => simp [littleEndian, ofLittleEndian, Nat.mod_one]
  | succ width ih =>
      have hpow : 256 ^ (width + 1) = 256 * 256 ^ width := by ring
      rw [littleEndian, ofLittleEndian, ih, hpow, Nat.mod_mul]
      simp

/-- A number that fits its width is read back. -/
theorem ofLittleEndian_littleEndian_of_lt {width value : Nat}
    (hvalue : value < 256 ^ width) :
    ofLittleEndian (littleEndian width value) = value := by
  rw [ofLittleEndian_littleEndian, Nat.mod_eq_of_lt hvalue]

theorem ofLittleEndian_lt (bytes : List UInt8) :
    ofLittleEndian bytes < 256 ^ bytes.length := by
  induction bytes with
  | nil => exact Nat.one_pos
  | cons byte rest ih =>
      have hpow : 256 ^ (rest.length + 1) = 256 * 256 ^ rest.length := by ring
      have hbyte : byte.toNat < 256 := byte.toNat_lt
      rw [ofLittleEndian, List.length_cons, hpow]
      omega

/-- Bytes are those of the number that they are read as. -/
theorem littleEndian_ofLittleEndian (bytes : List UInt8) :
    littleEndian bytes.length (ofLittleEndian bytes) = bytes := by
  induction bytes with
  | nil => rfl
  | cons byte rest ih =>
      have hbyte : byte.toNat < 256 := byte.toNat_lt
      have hlow : UInt8.ofNat (byte.toNat + 256 * ofLittleEndian rest) =
          byte := by
        apply UInt8.toNat_inj.mp
        rw [UInt8.toNat_ofNat']
        omega
      have hhigh : (byte.toNat + 256 * ofLittleEndian rest) / 256 =
          ofLittleEndian rest := by
        omega
      rw [List.length_cons, littleEndian, ofLittleEndian, hlow, hhigh, ih]

/-- The field between two parts of known lengths. -/
theorem field_append (before middle after : List UInt8) {offset length : Nat}
    (hoffset : before.length = offset) (hlength : middle.length = length) :
    field (before ++ middle ++ after) offset length = some middle := by
  subst hoffset
  subst hlength
  rw [field, if_pos (by simp), List.append_assoc, List.drop_left,
    List.take_left]

theorem length_splice {bytes data : List UInt8} {offset : Nat}
    (hinside : offset + data.length ≤ bytes.length) :
    (splice bytes offset data).length = bytes.length := by
  simp only [splice, List.length_append, List.length_take, List.length_drop]
  omega

/-- What is replaced between two parts leaves both of them. -/
theorem splice_append (before middle after : List UInt8) {offset : Nat}
    {data : List UInt8} (hoffset : before.length = offset)
    (hlength : middle.length = data.length) :
    splice (before ++ middle ++ after) offset data =
      before ++ data ++ after := by
  subst hoffset
  have hend : before.length + data.length = (before ++ middle).length := by
    rw [List.length_append, hlength]
  rw [splice, hend, List.drop_left, List.append_assoc before middle after,
    List.take_left]

end ByteOrder
