import Mathlib.Algebra.Group.Nat.Defs
import Mathlib.Data.List.Induction

/-!
# Fixed-width big-endian integers

`bigEndian width value` writes the low `width` base-256 digits of `value`, most
significant first, and `fromBigEndian` reads a byte sequence back. The two are
inverse on values that fit the width and on sequences of that length, so a
fixed-width field is determined by its bytes and conversely.
-/

namespace Framing

/-- The `width` low base-256 digits of a value, most significant first. -/
def bigEndian : Nat → Nat → List UInt8
  | 0, _ => []
  | width + 1, value => bigEndian width (value / 256) ++ [UInt8.ofNat (value % 256)]

/-- The value denoted by a sequence of base-256 digits, most significant first. -/
def fromBigEndian (bytes : List UInt8) : Nat :=
  bytes.foldl (fun value byte => value * 256 + byte.toNat) 0

@[simp] theorem bigEndian_length (width value : Nat) :
    (bigEndian width value).length = width := by
  induction width generalizing value with
  | zero => rfl
  | succ width ih => simp [bigEndian, ih]

@[simp] theorem fromBigEndian_nil : fromBigEndian [] = 0 := rfl

@[simp] theorem fromBigEndian_concat (bytes : List UInt8) (byte : UInt8) :
    fromBigEndian (bytes ++ [byte]) = fromBigEndian bytes * 256 + byte.toNat := by
  simp [fromBigEndian]

/-- A sequence denotes a value below the capacity of its length. -/
theorem fromBigEndian_lt (bytes : List UInt8) :
    fromBigEndian bytes < 256 ^ bytes.length := by
  induction bytes using List.reverseRecOn with
  | nil => simp
  | append_singleton bytes byte ih =>
      have digit := byte.toNat_lt
      rw [fromBigEndian_concat, List.length_append, List.length_singleton, Nat.pow_succ]
      omega

/-- Reading back a written value that fits its width recovers it. -/
theorem fromBigEndian_bigEndian {width value : Nat} (fits : value < 256 ^ width) :
    fromBigEndian (bigEndian width value) = value := by
  induction width generalizing value with
  | zero =>
      have zero : value = 0 := by simpa using fits
      simp [bigEndian, zero]
  | succ width ih =>
      have quotientFits : value / 256 < 256 ^ width := by
        rw [Nat.pow_succ] at fits
        omega
      rw [bigEndian, fromBigEndian_concat, ih quotientFits, UInt8.toNat_ofNat']
      omega

/-- Writing the value of a sequence at its own length recovers the sequence. -/
theorem bigEndian_fromBigEndian (bytes : List UInt8) :
    bigEndian bytes.length (fromBigEndian bytes) = bytes := by
  induction bytes using List.reverseRecOn with
  | nil => rfl
  | append_singleton bytes byte ih =>
      have digit := byte.toNat_lt
      have quotient : (fromBigEndian bytes * 256 + byte.toNat) / 256 = fromBigEndian bytes := by
        omega
      have remainder : (fromBigEndian bytes * 256 + byte.toNat) % 256 = byte.toNat := by
        omega
      rw [List.length_append, List.length_singleton, bigEndian, fromBigEndian_concat,
        quotient, remainder, ih, UInt8.ofNat_toNat]

/-- The value of the first `count` bytes of a sequence. -/
def leading (byte : Nat → UInt8) (count : Nat) : Nat :=
  fromBigEndian ((List.range count).map byte)

theorem leading_one (byte : Nat → UInt8) : leading byte 1 = (byte 0).toNat := by
  simp [leading, fromBigEndian]

theorem leading_succ (byte : Nat → UInt8) (count : Nat) :
    leading byte (count + 1) = leading byte count * 256 + (byte count).toNat := by
  rw [leading, List.range_succ, List.map_append, List.map_singleton, fromBigEndian_concat, leading]

theorem leading_lt (byte : Nat → UInt8) (count : Nat) : leading byte count < 256 ^ count := by
  have bounded := fromBigEndian_lt ((List.range count).map byte)
  rwa [List.length_map, List.length_range] at bounded

/-- A byte joined below a shifted value extends it by one base-256 digit. -/
theorem shiftLeft_or_byte {high byte : Nat} (shift : Nat) (digit : byte < 256) :
    high <<< (shift + 8) ||| byte <<< shift = (high * 256 + byte) <<< shift := by
  have joined : high <<< 8 ||| byte = high * 256 + byte := by
    rw [← Nat.shiftLeft_add_eq_or_of_lt (show byte < 2 ^ 8 from digit), Nat.shiftLeft_eq]
  rw [Nat.add_comm shift 8, Nat.shiftLeft_add, ← Nat.shiftLeft_or_distrib, joined]

theorem leading_or (byte : Nat → UInt8) (count shift : Nat) :
    leading byte count <<< (shift + 8) ||| (byte count).toNat <<< shift =
      leading byte (count + 1) <<< shift := by
  rw [shiftLeft_or_byte shift (byte count).toNat_lt, leading_succ]

/-- A shifted byte that fits a word is not truncated by it. -/
theorem byte_shiftLeft_mod {byte shift capacity : Nat} (digit : byte < 256)
    (fits : 256 <<< shift ≤ capacity) : byte <<< shift % capacity = byte <<< shift := by
  apply Nat.mod_eq_of_lt
  refine Nat.lt_of_lt_of_le ?_ fits
  rw [Nat.shiftLeft_eq, Nat.shiftLeft_eq]
  exact Nat.mul_lt_mul_of_pos_right digit (Nat.two_pow_pos shift)

/-- The high part of a byte shifted up and joined with a short low part. -/
theorem shiftLeft_mod_or {high low shift : Nat} (inByte : shift ≤ 8) (short : low < 2 ^ shift) :
    high <<< shift % 256 ||| low = high % 2 ^ (8 - shift) * 2 ^ shift + low := by
  have capacity : (256 : Nat) = 2 ^ (8 - shift) * 2 ^ shift := by
    rw [← Nat.pow_add, Nat.sub_add_cancel inByte]
  rw [Nat.shiftLeft_eq, capacity, Nat.mul_mod_mul_right, ← Nat.shiftLeft_eq,
    ← Nat.shiftLeft_add_eq_or_of_lt short, Nat.shiftLeft_eq]

/-- Masking with 255 keeps the lowest base-256 digit. -/
theorem and_255 (value : Nat) : value &&& 255 = value % 256 :=
  Nat.and_two_pow_sub_one_eq_mod value 8

end Framing
