import Mathlib.Algebra.Group.Nat.Defs
import PqcLedger.Hashing.Blocks

/-!
# Writing octets in another base

Octets are read as one string of bits, which is cut into digits of a fixed width,
zeros filling the last one. Each digit is written as a character, and padding
fills the last group of characters. Octets that fill their groups are written on
their own, whatever follows.
-/

namespace Radix

open Hashing

variable {γ : Type}

/-! ## Bits -/

/-- The low bits of a number, most significant first. -/
def bits : Nat → Nat → List Bool
  | 0, _ => []
  | width + 1, value => decide (value / 2 ^ width % 2 = 1) :: bits width value

/-- The number that the bits stand for. -/
def ofBits (bits : List Bool) : Nat :=
  bits.foldl (fun value bit => 2 * value + bit.toNat) 0

@[simp] theorem bits_length (width value : Nat) : (bits width value).length = width := by
  induction width with
  | zero => rfl
  | succ width ih => rw [bits, List.length_cons, ih]

/-- Only the low bits matter. -/
theorem bits_mod (width value : Nat) : bits width (value % 2 ^ width) = bits width value := by
  suffices lower : ∀ low, low ≤ width → bits low (value % 2 ^ width) = bits low value from
    lower width (Nat.le_refl _)
  intro low within
  induction low with
  | zero => rfl
  | succ low ih =>
      have bit : value % 2 ^ width / 2 ^ low % 2 = value / 2 ^ low % 2 := by
        obtain ⟨more, rfl⟩ := Nat.exists_eq_add_of_lt within
        rw [Nat.add_assoc, Nat.pow_add, Nat.mod_mul_right_div_self, Nat.pow_succ,
          Nat.mod_mul_left_mod]
      rw [bits, bits, bit, ih (Nat.le_of_succ_le within)]

/-- The high bits come before the low ones. -/
theorem bits_add (high low value : Nat) :
    bits (high + low) value = bits high (value / 2 ^ low) ++ bits low value := by
  induction high with
  | zero =>
      rw [Nat.zero_add]
      rfl
  | succ high ih =>
      rw [Nat.succ_add, bits, bits, ih, Nat.div_div_eq_div_mul, ← Nat.pow_add,
        Nat.add_comm low high, List.cons_append]

theorem flatMap_bits_length (width : Nat) (values : List Nat) :
    (values.flatMap (bits width)).length = width * values.length := by
  induction values with
  | nil => rfl
  | cons value rest ih =>
      rw [List.flatMap_cons, List.length_append, bits_length, ih, List.length_cons,
        Nat.mul_succ, Nat.add_comm]

/-- Two numbers side by side are one. -/
theorem bits_append {low : Nat} (high front : Nat) {back : Nat} (fits : back < 2 ^ low) :
    bits high front ++ bits low back = bits (high + low) (front * 2 ^ low + back) := by
  have above : (front * 2 ^ low + back) / 2 ^ low = front := by
    rw [Nat.add_comm, Nat.add_mul_div_right _ _ (Nat.two_pow_pos low), Nat.div_eq_of_lt fits,
      Nat.zero_add]
  have below : (front * 2 ^ low + back) % 2 ^ low = back := by
    rw [Nat.add_comm, Nat.add_mul_mod_self_right, Nat.mod_eq_of_lt fits]
  rw [bits_add, above, ← bits_mod low (front * 2 ^ low + back), below]

theorem bits_zero (width : Nat) : bits width 0 = List.replicate width false := by
  induction width with
  | zero => rfl
  | succ width ih => rw [bits, ih, Nat.zero_div, List.replicate_succ]; rfl

theorem ofBits_append (front : List Bool) (bit : Bool) :
    ofBits (front ++ [bit]) = 2 * ofBits front + bit.toNat := by
  rw [ofBits, List.foldl_append]
  rfl

theorem ofBits_bits (width value : Nat) : ofBits (bits width value) = value % 2 ^ width := by
  induction width generalizing value with
  | zero => rw [Nat.pow_zero, Nat.mod_one]; rfl
  | succ width ih =>
      have last : bits 1 value = [decide (value % 2 = 1)] := by
        rw [bits, Nat.pow_zero, Nat.div_one]
        rfl
      rw [bits_add, last, ofBits_append, ih, Nat.pow_one, Nat.pow_succ', Nat.mod_mul]
      rcases Nat.mod_two_eq_zero_or_one value with even | odd
      · simp [even]
      · simp [odd, Nat.add_comm]

/-! ## Digits -/

/-- How much is missing to the next multiple of a size. -/
def missing (size length : Nat) : Nat := (size - length % size) % size

theorem missing_add {size front : Nat} (whole : front % size = 0) (rest : Nat) :
    missing size (front + rest) = missing size rest := by
  rw [missing, missing, Nat.add_mod, whole, Nat.zero_add, Nat.mod_mod]

/-- With what is missing the multiple is reached. -/
theorem add_missing {size : Nat} (positive : 0 < size) (length : Nat) :
    (length + missing size length) % size = 0 := by
  have remainder := Nat.mod_lt length positive
  rw [missing, Nat.add_mod, Nat.mod_mod]
  by_cases whole : length % size = 0
  · simp [whole]
  · rw [Nat.mod_eq_of_lt (by omega : size - length % size < size),
      Nat.add_sub_of_le (Nat.le_of_lt remainder), Nat.mod_self]

theorem missing_whole {size length : Nat} (whole : length % size = 0) :
    missing size length = 0 := by
  rw [missing, whole, Nat.sub_zero, Nat.mod_self]

/-- The digits of a width that a string of bits is cut into. -/
def digits (width : Nat) (string : List Bool) : List Nat :=
  (blocks width (string ++ List.replicate (missing width string.length) false)).map ofBits

theorem digits_append {width : Nat} {front : List Bool} (positive : 0 < width)
    (whole : front.length % width = 0) (rest : List Bool) :
    digits width (front ++ rest) = digits width front ++ digits width rest := by
  rw [digits, digits, digits, List.length_append, missing_add whole, missing_whole whole,
    List.replicate_zero, List.append_nil, List.append_assoc, blocks_append positive whole,
    List.map_append]

/-- Filling the last digit beforehand makes no difference. -/
theorem digits_filled {width : Nat} (positive : 0 < width) (string : List Bool) :
    digits width (string ++ List.replicate (missing width string.length) false) =
      digits width string := by
  have whole : (string ++ List.replicate (missing width string.length) false).length % width =
      0 := by
    rw [List.length_append, List.length_replicate, add_missing positive]
  rw [digits, missing_whole whole, List.replicate_zero, List.append_nil, digits]

/-- The digits of a number are those in the base of their width, from the left. -/
theorem digits_bits {width : Nat} (positive : 0 < width) (count value : Nat) :
    digits width (bits (width * count) value) =
      (List.range count).reverse.map fun place => value / 2 ^ (width * place) % 2 ^ width := by
  induction count with
  | zero =>
      rw [Nat.mul_zero, bits, digits, List.length_nil, missing_whole (Nat.zero_mod width),
        blocks_of_lt positive]
      rfl
  | succ count ih =>
      have cut : (bits width (value / 2 ^ (width * count))).length % width = 0 := by
        rw [bits_length, Nat.mod_self]
      have first : digits width (bits width (value / 2 ^ (width * count))) =
          [value / 2 ^ (width * count) % 2 ^ width] := by
        rw [digits, missing_whole cut, List.replicate_zero, List.append_nil,
          blocks_singleton positive (bits_length _ _), List.map_singleton, ofBits_bits]
      rw [Nat.mul_succ, Nat.add_comm, bits_add, digits_append positive cut, first, ih,
        List.range_succ, List.reverse_append, List.reverse_singleton, List.map_append,
        List.map_singleton]

theorem digits_length {width : Nat} {string : List Bool}
    (whole : string.length % width = 0) :
    (digits width string).length = string.length / width := by
  rw [digits, missing_whole whole, List.replicate_zero, List.append_nil, List.length_map, blocks,
    List.length_map, List.length_range]

/-! ## Encodings -/

/-- A base: the width of a digit, the characters for its digits, the number of
characters in a group, and the padding of a group. -/
structure Encoding (γ : Type) where
  width : Nat
  group : Nat
  char : Nat → γ
  pad : γ
  widthPositive : 0 < width

namespace Encoding

/-- The characters for a string of octets, without padding. -/
def chars (encoding : Encoding γ) (octets : List Nat) : List γ :=
  (digits encoding.width (octets.flatMap (bits 8))).map encoding.char

/-- The text for a string of octets. -/
def write (encoding : Encoding γ) (octets : List Nat) : List γ :=
  encoding.chars octets ++
    List.replicate (missing encoding.group (encoding.chars octets).length) encoding.pad

variable (encoding : Encoding γ)

/-- Octets whose bits, filled to whole digits, are those of a number are written as its
digits, and filled to whole groups. -/
theorem write_of_bits (count : Nat) {number : Nat} {octets : List Nat}
    (joined : octets.flatMap (bits 8) ++
      List.replicate (missing encoding.width (8 * octets.length)) false =
        bits (encoding.width * count) number) :
    encoding.write octets =
      ((List.range count).reverse.map fun place =>
        encoding.char (number / 2 ^ (encoding.width * place) % 2 ^ encoding.width)) ++
        List.replicate (missing encoding.group count) encoding.pad := by
  have written : encoding.chars octets = (List.range count).reverse.map fun place =>
      encoding.char (number / 2 ^ (encoding.width * place) % 2 ^ encoding.width) := by
    rw [chars, ← digits_filled encoding.widthPositive, flatMap_bits_length, joined,
      digits_bits encoding.widthPositive, List.map_map]
    rfl
  rw [write, written, List.length_map, List.length_reverse, List.length_range]

/-- Octets that fill their groups of characters are written on their own. -/
theorem write_append (count : Nat) {front : List Nat}
    (whole : 8 * front.length = encoding.width * (encoding.group * count)) (rest : List Nat) :
    encoding.write (front ++ rest) = encoding.write front ++ encoding.write rest := by
  have length : (front.flatMap (bits 8)).length = encoding.width * (encoding.group * count) := by
    rw [flatMap_bits_length, whole]
  have cut : (front.flatMap (bits 8)).length % encoding.width = 0 := by
    rw [length, Nat.mul_mod_right]
  have filled : (encoding.chars front).length % encoding.group = 0 := by
    rw [chars, List.length_map, digits_length cut, length,
      Nat.mul_div_cancel_left _ encoding.widthPositive, Nat.mul_mod_right]
  have appended : encoding.chars (front ++ rest) = encoding.chars front ++ encoding.chars rest := by
    rw [chars, List.flatMap_append, digits_append encoding.widthPositive cut, List.map_append]
    rfl
  rw [write, write, write, appended, List.length_append, missing_add filled,
    missing_whole filled, List.replicate_zero, List.append_nil, List.append_assoc]

end Encoding

end Radix
