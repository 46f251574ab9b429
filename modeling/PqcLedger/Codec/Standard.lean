import PqcLedger.Codec.TextRoundTrip
import PqcLedger.Framing.Radix

/-!
# The text encodings are the standard ones

A round trip says nothing of the alphabet, nor of the order of the digits. What
the encoders write is the base 16 and the base 64 encoding of the bytes, as they
are defined over their bits.
-/

namespace PqcLedger.Codec

open PqcLedger.Cxx

/-- Base 16 in lower case: a digit for four bits. No group is incomplete. -/
def base16 : Radix.Encoding UInt8 where
  width := 4
  group := 1
  char := fun digit => if digit < 10 then UInt8.ofNat (48 + digit) else UInt8.ofNat (87 + digit)
  pad := 61
  widthPositive := by decide

/-- Base 64: a character for six bits, in groups of four filled with '='. The
characters are the capitals, the small letters, the digits, '+' and '/'. -/
def base64 : Radix.Encoding UInt8 where
  width := 6
  group := 4
  char := fun digit =>
    if digit < 26 then UInt8.ofNat (65 + digit)
    else if digit < 52 then UInt8.ofNat (97 + (digit - 26))
    else if digit < 62 then UInt8.ofNat (48 + (digit - 52))
    else if digit = 62 then 43
    else 47
  pad := 61
  widthPositive := by decide

/-! ## Base 16 -/

theorem hexDigit_eq_char : ∀ digit : Fin 16, hexDigit (UInt8.ofNat digit) = base16.char digit := by
  decide

theorem base16_write_singleton (byte : UInt8) :
    base16.write [byte.toNat] =
      [hexDigit (UInt8.ofNat (byte.toNat / 16)), hexDigit (UInt8.ofNat (byte.toNat % 16))] := by
  have bounded := byte.toNat_lt
  have high := hexDigit_eq_char ⟨byte.toNat / 16, by omega⟩
  have low := hexDigit_eq_char ⟨byte.toNat % 16, by omega⟩
  have joined : [byte.toNat].flatMap (Radix.bits 8) ++
      List.replicate (Radix.missing 4 (8 * 1)) false = Radix.bits (4 * 2) byte.toNat := by
    rw [List.flatMap_singleton]
    exact List.append_nil _
  have top : byte.toNat / 16 % 16 = byte.toNat / 16 := by omega
  calc
    base16.write [byte.toNat] =
        [base16.char (byte.toNat / 16 % 16), base16.char (byte.toNat / 1 % 16)] :=
      base16.write_of_bits 2 joined
    _ = _ := by rw [high, low, top, Nat.div_one]

/-- The hexadecimal text of bytes is their base 16 encoding. -/
theorem encodeToHex_standard (bytes : Bytes) :
    encodeToHex bytes = base16.write (bytes.map UInt8.toNat) := by
  induction bytes with
  | nil => rfl
  | cons byte rest ih =>
      have front : base16.write ([byte.toNat] ++ rest.map UInt8.toNat) = _ :=
        base16.write_append 2 rfl _
      rw [encodeToHex_cons, ih, List.map_cons]
      exact (front.trans (congrArg (· ++ _) (base16_write_singleton byte))).symm

/-! ## Base 64 -/

theorem charOf_eq_char : ∀ digit : Fin 64, charOf digit = base64.char digit := by
  decide +kernel

/-- The bits of two bytes side by side. -/
theorem bits_pair (b0 b1 : UInt8) :
    Radix.bits 8 b0.toNat ++ Radix.bits 8 b1.toNat =
      Radix.bits 16 (b0.toNat * 256 + b1.toNat) :=
  Radix.bits_append 8 _ b1.toNat_lt

/-- A place of three bytes is a digit of their number. -/
theorem char_sextet {b0 b1 b2 : UInt8} {place digit : Nat} (same : sextet b0 b1 b2 place = digit) :
    charOf (sextet b0 b1 b2 place) = base64.char digit := by
  subst same
  exact charOf_eq_char ⟨_, sextet_lt b0 b1 b2 place⟩

theorem base64_write_three (b0 b1 b2 : UInt8) :
    base64.write [b0.toNat, b1.toNat, b2.toNat] =
      [charOf (sextet b0 b1 b2 3), charOf (sextet b0 b1 b2 2), charOf (sextet b0 b1 b2 1),
        charOf (sextet b0 b1 b2 0)] := by
  have joined : [b0.toNat, b1.toNat, b2.toNat].flatMap (Radix.bits 8) ++
      List.replicate (Radix.missing 6 (8 * 3)) false =
        Radix.bits (6 * 4) ((b0.toNat * 256 + b1.toNat) * 256 + b2.toNat) :=
    calc
      _ = (Radix.bits 8 b0.toNat ++ Radix.bits 8 b1.toNat) ++ Radix.bits 8 b2.toNat := by
        simp [Radix.missing]
      _ = _ := by
        rw [bits_pair]
        exact Radix.bits_append 16 _ b2.toNat_lt
  rw [base64.write_of_bits 4 joined, char_sextet rfl, char_sextet rfl, char_sextet rfl,
    char_sextet rfl]
  rfl

/-- Two bytes leave two bits of the third digit to be filled. -/
theorem base64_write_two (b0 b1 : UInt8) :
    base64.write [b0.toNat, b1.toNat] =
      [charOf (sextet b0 b1 0 3), charOf (sextet b0 b1 0 2), charOf (sextet b0 b1 0 1),
        padChar] := by
  have joined : [b0.toNat, b1.toNat].flatMap (Radix.bits 8) ++
      List.replicate (Radix.missing 6 (8 * 2)) false =
        Radix.bits (6 * 3) ((b0.toNat * 256 + b1.toNat) * 4) :=
    calc
      _ = (Radix.bits 8 b0.toNat ++ Radix.bits 8 b1.toNat) ++ Radix.bits 2 0 := by
        simp [Radix.missing, Radix.bits_zero]
      _ = _ := by
        rw [bits_pair]
        exact Radix.bits_append 16 _ (by decide)
  have shifted : ∀ place, sextet b0 b1 0 (place + 1) =
      (b0.toNat * 256 + b1.toNat) * 4 / 64 ^ place % 64 := by
    intro place
    have whole : ((b0.toNat * 256 + b1.toNat) * 256 + (0 : UInt8).toNat) / 64 =
        (b0.toNat * 256 + b1.toNat) * 4 := by
      change (_ + 0) / 64 = _
      omega
    rw [sextet, Nat.pow_succ', ← Nat.div_div_eq_div_mul, whole]
  rw [base64.write_of_bits 3 joined, char_sextet (shifted 2), char_sextet (shifted 1),
    char_sextet (shifted 0)]
  rfl

/-- One byte leaves four bits of the second digit to be filled. -/
theorem base64_write_one (b0 : UInt8) :
    base64.write [b0.toNat] =
      [charOf (sextet b0 0 0 3), charOf (sextet b0 0 0 2), padChar, padChar] := by
  have joined : [b0.toNat].flatMap (Radix.bits 8) ++
      List.replicate (Radix.missing 6 (8 * 1)) false = Radix.bits (6 * 2) (b0.toNat * 16) :=
    calc
      _ = Radix.bits 8 b0.toNat ++ Radix.bits 4 0 := by
        simp [Radix.missing, Radix.bits_zero]
      _ = _ := Radix.bits_append 8 _ (by decide)
  have shifted : ∀ place, sextet b0 0 0 (place + 2) = b0.toNat * 16 / 64 ^ place % 64 := by
    intro place
    have whole : ((b0.toNat * 256 + (0 : UInt8).toNat) * 256 + (0 : UInt8).toNat) / 64 / 64 =
        b0.toNat * 16 := by
      change ((_ + 0) * 256 + 0) / 64 / 64 = _
      omega
    rw [sextet, Nat.pow_succ', Nat.pow_succ', ← Nat.div_div_eq_div_mul, ← Nat.div_div_eq_div_mul,
      whole]
  rw [base64.write_of_bits 2 joined, char_sextet (shifted 1), char_sextet (shifted 0)]
  rfl

/-- The base64 text of bytes is their base 64 encoding. -/
theorem encodeToBase64_standard (bytes : Bytes) :
    encodeToBase64 bytes = base64.write (bytes.map UInt8.toNat) := by
  induction bytes using encodeToBase64.induct with
  | case1 => rfl
  | case2 b0 => exact (encodeToBase64_one b0).trans (base64_write_one b0).symm
  | case3 b0 b1 => exact (encodeToBase64_two b0 b1).trans (base64_write_two b0 b1).symm
  | case4 b0 b1 b2 rest ih =>
      have front : base64.write ([b0.toNat, b1.toNat, b2.toNat] ++ rest.map UInt8.toNat) = _ :=
        base64.write_append 1 rfl _
      rw [encodeToBase64_group, ih]
      exact (front.trans (congrArg (· ++ _) (base64_write_three b0 b1 b2))).symm

/-- The text encoders are the standard encodings of the bits of their bytes: base 16 in
lower case, and base 64 with padding. -/
theorem texts_standard (bytes : Bytes) :
    encodeToHex bytes = base16.write (bytes.map UInt8.toNat) ∧
      encodeToBase64 bytes = base64.write (bytes.map UInt8.toNat) :=
  ⟨encodeToHex_standard bytes, encodeToBase64_standard bytes⟩

end PqcLedger.Codec
