import PqcLedger.Codec.Transport
import PqcLedger.Cxx.Numbers
import PqcLedger.Framing.BigEndian

/-!
# The text transports return what they were given

Hexadecimal digits and base64 characters are read back as the values they were
written for, so each text decoder undoes its encoder.
-/

namespace PqcLedger.Codec

open PqcLedger.Cxx PqcLedger.Crypto Framing

/-! ## Hexadecimal -/

/-- Every digit is read back as its value and survives the whitespace filter. -/
theorem hexDigit_facts : ∀ value : Fin 16,
    hexCharToValue (hexDigit (UInt8.ofNat value)) = .ok (UInt8.ofNat value) ∧
      isspace (hexDigit (UInt8.ofNat value)) = false := by
  decide +kernel

/-- The digit written for the value of a digit is the same one, in lower case. -/
theorem hexDigit_xdigitValue : ∀ c : UInt8, isxdigit c = true →
    hexDigit (UInt8.ofNat (xdigitValue c)) = tolower c :=
  byte_forall (by decide +kernel)

theorem byte_high (byte : UInt8) : byte >>> 4 = UInt8.ofNat (byte.toNat / 16) := by
  have bounded := byte.toNat_lt
  simp [← UInt8.toNat_inj, Nat.shiftRight_eq_div_pow]
  omega

theorem byte_low (byte : UInt8) : byte &&& 0xF = UInt8.ofNat (byte.toNat % 16) := by
  have masked := Nat.and_two_pow_sub_one_eq_mod byte.toNat 4
  simp [← UInt8.toNat_inj] at masked ⊢
  omega

/-- The two halves of a byte rejoin to it. -/
theorem nibbles_join (byte : UInt8) :
    (UInt8.ofNat (byte.toNat / 16) <<< 4) ||| UInt8.ofNat (byte.toNat % 16) = byte := by
  have bounded := byte.toNat_lt
  have highKept : (UInt8.ofNat (byte.toNat / 16)).toNat = byte.toNat / 16 :=
    UInt8.toNat_ofNat_of_lt' (by change _ < 256; omega)
  have lowKept : (UInt8.ofNat (byte.toNat % 16)).toNat = byte.toNat % 16 :=
    UInt8.toNat_ofNat_of_lt' (by change _ < 256; omega)
  have joined : (byte.toNat / 16) <<< 4 % 256 ||| byte.toNat % 16 =
      (byte.toNat / 16) % 2 ^ (8 - 4) * 2 ^ 4 + byte.toNat % 16 :=
    shiftLeft_mod_or (by decide) (by omega)
  rw [← UInt8.toNat_inj, UInt8.toNat_or, UInt8.toNat_shiftLeft, highKept, lowKept]
  change (byte.toNat / 16) <<< 4 % 256 ||| byte.toNat % 16 = byte.toNat
  omega

theorem removeWhitespace_of_none {text : Text} (none : ∀ c ∈ text, isspace c = false) :
    removeWhitespace text = text := by
  rw [removeWhitespace, List.filter_eq_self]
  intro c member
  rw [none c member]
  rfl

theorem encodeToHex_cons (byte : UInt8) (rest : Bytes) :
    encodeToHex (byte :: rest) =
      hexDigit (UInt8.ofNat (byte.toNat / 16)) :: hexDigit (UInt8.ofNat (byte.toNat % 16)) ::
        encodeToHex rest := by
  rw [encodeToHex, List.flatMap_cons, byte_high, byte_low]
  rfl

theorem pairValue_toNat {high low : Nat} (highShort : high < 16) (lowShort : low < 16) :
    (UInt8.ofNat (high * 16 + low)).toNat = high * 16 + low :=
  UInt8.toNat_ofNat_of_lt' (by change _ < 256; omega)

/-- The halves of such a byte are the values it was made of. -/
theorem pairValue_halves {high low : Nat} (highShort : high < 16) (lowShort : low < 16) :
    (UInt8.ofNat (high * 16 + low)).toNat / 16 = high ∧
      (UInt8.ofNat (high * 16 + low)).toNat % 16 = low := by
  rw [pairValue_toNat highShort lowShort]
  omega

/-- A byte made of the values of two digits is written as these, in lower case. -/
theorem encodeToHex_pair {first second : UInt8} (firstDigit : isxdigit first = true)
    (secondDigit : isxdigit second = true) (bytes : Bytes) :
    encodeToHex (UInt8.ofNat (xdigitValue first * 16 + xdigitValue second) :: bytes) =
      tolower first :: tolower second :: encodeToHex bytes := by
  have firstShort := xdigitValue_lt first firstDigit
  have secondShort := xdigitValue_lt second secondDigit
  obtain ⟨highIs, lowIs⟩ := pairValue_halves firstShort secondShort
  rw [encodeToHex_cons, highIs, lowIs, hexDigit_xdigitValue first firstDigit,
    hexDigit_xdigitValue second secondDigit]

theorem encodeToHex_not_isspace (bytes : Bytes) : ∀ c ∈ encodeToHex bytes, isspace c = false := by
  induction bytes with
  | nil => simp [encodeToHex]
  | cons byte rest ih =>
      have bounded := byte.toNat_lt
      have high := (hexDigit_facts ⟨byte.toNat / 16, by omega⟩).2
      have low := (hexDigit_facts ⟨byte.toNat % 16, by omega⟩).2
      rw [encodeToHex_cons]
      simp only [List.forall_mem_cons]
      exact ⟨high, low, ih⟩

theorem encodeToHex_length (bytes : Bytes) : (encodeToHex bytes).length = 2 * bytes.length := by
  induction bytes with
  | nil => rfl
  | cons byte rest ih =>
      rw [encodeToHex_cons, List.length_cons, List.length_cons, ih, List.length_cons]
      omega

theorem hexLoop_encodeToHex (bytes : Bytes) : hexLoop (encodeToHex bytes) = .ok bytes := by
  induction bytes with
  | nil => rfl
  | cons byte rest ih =>
      have bounded := byte.toNat_lt
      have high := (hexDigit_facts ⟨byte.toNat / 16, by omega⟩).1
      have low := (hexDigit_facts ⟨byte.toNat % 16, by omega⟩).1
      rw [encodeToHex_cons, hexLoop, high, Throws.bind_ok, low, Throws.bind_ok, ih,
        Throws.bind_ok, nibbles_join]
      rfl

/-- Hexadecimal text written for bytes is read back as them. -/
theorem hexToBytes_encodeToHex (bytes : Bytes) : hexToBytes (encodeToHex bytes) = .ok bytes := by
  have clean := removeWhitespace_of_none (encodeToHex_not_isspace bytes)
  have even : (encodeToHex bytes).length % 2 = 0 := by
    rw [encodeToHex_length]
    omega
  rw [hexToBytes, clean, if_neg (not_not_intro even), hexLoop_encodeToHex]

/-! ## Base64 -/

/-- The character that stands for a six-bit value. -/
def charOf (value : Nat) : UInt8 := base64Chars.getD value 0

/-- The six-bit value that a character stands for: its place in the alphabet. -/
def sextetOf (c : UInt8) : Nat := base64Chars.idxOf c

/-- Every character of the alphabet is read back as its value; none is padding or space. -/
theorem charOf_facts : ∀ value : Fin 64,
    base64CharToValue (charOf value) = .ok (UInt8.ofNat value) ∧ charOf value ≠ padChar ∧
      isspace (charOf value) = false ∧ sextetOf (charOf value) = value := by
  decide +kernel

theorem base64CharToValue_charOf {value : Nat} (short : value < 64) :
    base64CharToValue (charOf value) = .ok (UInt8.ofNat value) :=
  (charOf_facts ⟨value, short⟩).1

theorem charOf_ne_padChar {value : Nat} (short : value < 64) : charOf value ≠ padChar :=
  (charOf_facts ⟨value, short⟩).2.1

theorem sextetOf_charOf {value : Nat} (short : value < 64) : sextetOf (charOf value) = value :=
  (charOf_facts ⟨value, short⟩).2.2.2

/-- Three bytes as one number, cut into six-bit places counted from the right. -/
def sextet (b0 b1 b2 : UInt8) (place : Nat) : Nat :=
  ((b0.toNat * 256 + b1.toNat) * 256 + b2.toNat) / 64 ^ place % 64

theorem sextet_lt (b0 b1 b2 : UInt8) (place : Nat) : sextet b0 b1 b2 place < 64 :=
  Nat.mod_lt _ (by decide)

theorem combined_toNat (b0 b1 b2 : UInt8) :
    ((b0.toUInt32 <<< 16) ||| (b1.toUInt32 <<< 8) ||| b2.toUInt32).toNat =
      (b0.toNat * 256 + b1.toNat) * 256 + b2.toNat := by
  have second := b1.toNat_lt
  have third := b2.toNat_lt
  simp only [UInt32.toNat_or, UInt32.toNat_shiftLeft, UInt8.toNat_toUInt32, UInt32.reduceToNat,
    Nat.reduceMod, Nat.reducePow]
  rw [byte_shiftLeft_mod b0.toNat_lt (by decide), byte_shiftLeft_mod second (by decide),
    shiftLeft_or_byte 8 second]
  exact shiftLeft_or_byte 0 third

theorem base64CharAt_eq (value : UInt32) : base64CharAt value = charOf (value.toNat % 64) := by
  have masked := Nat.and_two_pow_sub_one_eq_mod value.toNat 6
  rw [base64CharAt, charOf, UInt32.toNat_and]
  exact congrArg (base64Chars.getD · 0) masked

/-- A group of three bytes is written as its four places, from the left. -/
theorem encodeToBase64_group (b0 b1 b2 : UInt8) (rest : Bytes) :
    encodeToBase64 (b0 :: b1 :: b2 :: rest) =
      charOf (sextet b0 b1 b2 3) :: charOf (sextet b0 b1 b2 2) :: charOf (sextet b0 b1 b2 1) ::
        charOf (sextet b0 b1 b2 0) :: encodeToBase64 rest := by
  have combined := combined_toNat b0 b1 b2
  simp at combined
  simp [encodeToBase64, base64CharAt_eq, sextet, combined, Nat.shiftRight_eq_div_pow]

/-- The last two bytes, or the last one, are written as if zeros followed. -/
theorem encodeToBase64_two (b0 b1 : UInt8) :
    encodeToBase64 [b0, b1] =
      [charOf (sextet b0 b1 0 3), charOf (sextet b0 b1 0 2), charOf (sextet b0 b1 0 1),
        padChar] := by
  have combined := combined_toNat b0 b1 0
  simp at combined
  simp [encodeToBase64, base64CharAt_eq, sextet, combined, Nat.shiftRight_eq_div_pow]

theorem encodeToBase64_one (b0 : UInt8) :
    encodeToBase64 [b0] =
      [charOf (sextet b0 0 0 3), charOf (sextet b0 0 0 2), padChar, padChar] := by
  have combined := combined_toNat b0 0 0
  simp at combined
  simp [encodeToBase64, base64CharAt_eq, sextet, combined, Nat.shiftRight_eq_div_pow]

/-- The first byte of a group of four six-bit values. -/
def octetFirst (v0 v1 : Nat) : UInt8 := UInt8.ofNat (v0 * 4 + v1 / 16)

/-- The second byte of a group. -/
def octetSecond (v1 v2 : Nat) : UInt8 := UInt8.ofNat (v1 % 16 * 16 + v2 / 4)

/-- The third byte of a group. -/
def octetThird (v2 v3 : Nat) : UInt8 := UInt8.ofNat (v2 % 4 * 64 + v3)

theorem toNat_short {value : Nat} (short : value < 64) : (UInt8.ofNat value).toNat = value :=
  UInt8.toNat_ofNat_of_lt' (by change _ < 256; omega)

/-- The decoder's shifts assemble them. -/
theorem octetFirst_eq {v0 v1 : Nat} (short0 : v0 < 64) (short1 : v1 < 64) :
    (UInt8.ofNat v0 <<< 2) ||| (UInt8.ofNat v1 >>> 4) = octetFirst v0 v1 := by
  have joined : v0 <<< 2 % 256 ||| v1 / 16 = v0 % 2 ^ (8 - 2) * 2 ^ 2 + v1 / 16 :=
    shiftLeft_mod_or (by decide) (by omega)
  rw [octetFirst, ← UInt8.toNat_inj, UInt8.toNat_or, UInt8.toNat_shiftLeft,
    UInt8.toNat_shiftRight, toNat_short short0, toNat_short short1, Nat.shiftRight_eq_div_pow]
  simp
  omega

theorem octetSecond_eq {v1 v2 : Nat} (short1 : v1 < 64) (short2 : v2 < 64) :
    (UInt8.ofNat v1 <<< 4) ||| (UInt8.ofNat v2 >>> 2) = octetSecond v1 v2 := by
  have joined : v1 <<< 4 % 256 ||| v2 / 4 = v1 % 2 ^ (8 - 4) * 2 ^ 4 + v2 / 4 :=
    shiftLeft_mod_or (by decide) (by omega)
  rw [octetSecond, ← UInt8.toNat_inj, UInt8.toNat_or, UInt8.toNat_shiftLeft,
    UInt8.toNat_shiftRight, toNat_short short1, toNat_short short2, Nat.shiftRight_eq_div_pow]
  simp
  omega

theorem octetThird_eq {v2 v3 : Nat} (short2 : v2 < 64) (short3 : v3 < 64) :
    (UInt8.ofNat v2 <<< 6) ||| UInt8.ofNat v3 = octetThird v2 v3 := by
  have joined : v2 <<< 6 % 256 ||| v3 = v2 % 2 ^ (8 - 6) * 2 ^ 6 + v3 :=
    shiftLeft_mod_or (by decide) (by omega)
  rw [octetThird, ← UInt8.toNat_inj, UInt8.toNat_or, UInt8.toNat_shiftLeft,
    toNat_short short2, toNat_short short3]
  simp
  omega

/-- A full group is read as three bytes. -/
theorem base64Loop_group {v0 v1 v2 v3 : Nat} (short0 : v0 < 64) (short1 : v1 < 64)
    (short2 : v2 < 64) (short3 : v3 < 64) (rest : Text) :
    base64Loop (charOf v0 :: charOf v1 :: charOf v2 :: charOf v3 :: rest) =
      (fun tail => octetFirst v0 v1 :: octetSecond v1 v2 :: octetThird v2 v3 :: tail) <$>
        base64Loop rest := by
  have notPad2 := charOf_ne_padChar short2
  have notPad3 := charOf_ne_padChar short3
  simp only [base64Loop, base64CharOrPad, if_pos notPad2, if_pos notPad3,
    base64CharToValue_charOf short0, base64CharToValue_charOf short1,
    base64CharToValue_charOf short2, base64CharToValue_charOf short3, Throws.bind_ok,
    octetFirst_eq short0 short1, octetSecond_eq short1 short2, octetThird_eq short2 short3]
  rfl

/-- A group closed by one padding character is read as two bytes. -/
theorem base64Loop_two {v0 v1 v2 : Nat} (short0 : v0 < 64) (short1 : v1 < 64)
    (short2 : v2 < 64) (rest : Text) :
    base64Loop (charOf v0 :: charOf v1 :: charOf v2 :: padChar :: rest) =
      (fun tail => octetFirst v0 v1 :: octetSecond v1 v2 :: tail) <$> base64Loop rest := by
  have notPad2 := charOf_ne_padChar short2
  simp only [base64Loop, base64CharOrPad, if_pos notPad2, ne_eq, not_true_eq_false, if_false,
    base64CharToValue_charOf short0, base64CharToValue_charOf short1,
    base64CharToValue_charOf short2, Throws.bind_ok, Throws.pure_eq,
    octetFirst_eq short0 short1, octetSecond_eq short1 short2]
  rfl

/-- A group closed by two padding characters is read as one byte. -/
theorem base64Loop_one {v0 v1 : Nat} (short0 : v0 < 64) (short1 : v1 < 64) (rest : Text) :
    base64Loop (charOf v0 :: charOf v1 :: padChar :: padChar :: rest) =
      (fun tail => octetFirst v0 v1 :: tail) <$> base64Loop rest := by
  simp only [base64Loop, base64CharOrPad, ne_eq, not_true_eq_false, if_false,
    base64CharToValue_charOf short0, base64CharToValue_charOf short1,
    Throws.bind_ok, Throws.pure_eq, octetFirst_eq short0 short1]
  rfl

/-- The bytes of a group are read back from its places. -/
theorem octets_of_sextets (b0 b1 b2 : UInt8) :
    octetFirst (sextet b0 b1 b2 3) (sextet b0 b1 b2 2) = b0 ∧
      octetSecond (sextet b0 b1 b2 2) (sextet b0 b1 b2 1) = b1 ∧
        octetThird (sextet b0 b1 b2 1) (sextet b0 b1 b2 0) = b2 := by
  have first := b0.toNat_lt
  have second := b1.toNat_lt
  have third := b2.toNat_lt
  simp only [octetFirst, octetSecond, octetThird, sextet, ← UInt8.toNat_inj, UInt8.toNat_ofNat']
  omega

/-- The group loop reads back the text written for bytes. -/
theorem base64Loop_encodeToBase64 (bytes : Bytes) :
    base64Loop (encodeToBase64 bytes) = .ok bytes := by
  induction bytes using encodeToBase64.induct with
  | case1 => rfl
  | case2 b0 =>
      obtain ⟨first, -, -⟩ := octets_of_sextets b0 0 0
      rw [encodeToBase64_one, base64Loop_one (sextet_lt ..) (sextet_lt ..), first]
      rfl
  | case3 b0 b1 =>
      obtain ⟨first, second, -⟩ := octets_of_sextets b0 b1 0
      rw [encodeToBase64_two, base64Loop_two (sextet_lt ..) (sextet_lt ..) (sextet_lt ..), first,
        second]
      rfl
  | case4 b0 b1 b2 rest ih =>
      obtain ⟨first, second, third⟩ := octets_of_sextets b0 b1 b2
      rw [encodeToBase64_group, base64Loop_group (sextet_lt ..) (sextet_lt ..) (sextet_lt ..)
        (sextet_lt ..), first, second, third, ih]
      rfl

theorem padChar_not_isspace : isspace padChar = false := by decide

theorem charOf_not_isspace {value : Nat} (short : value < 64) : isspace (charOf value) = false :=
  (charOf_facts ⟨value, short⟩).2.2.1

theorem encodeToBase64_not_isspace (bytes : Bytes) :
    ∀ c ∈ encodeToBase64 bytes, isspace c = false := by
  have space := fun b0 b1 b2 place => charOf_not_isspace (sextet_lt b0 b1 b2 place)
  induction bytes using encodeToBase64.induct with
  | case1 => simp [encodeToBase64]
  | case2 b0 =>
      rw [encodeToBase64_one]
      simp [space, padChar_not_isspace]
  | case3 b0 b1 =>
      rw [encodeToBase64_two]
      simp [space, padChar_not_isspace]
  | case4 b0 b1 b2 rest ih =>
      rw [encodeToBase64_group]
      simpa [space] using ih

theorem encodeToBase64_length (bytes : Bytes) :
    (encodeToBase64 bytes).length = 4 * ((bytes.length + 2) / 3) := by
  induction bytes using encodeToBase64.induct with
  | case1 => rfl
  | case2 b0 => simp [encodeToBase64_one]
  | case3 b0 b1 => simp [encodeToBase64_two]
  | case4 b0 b1 b2 rest ih =>
      rw [encodeToBase64_group]
      simp only [List.length_cons, ih]
      omega

theorem paddingCount_le (text : Text) : paddingCount text ≤ 2 := by
  unfold paddingCount
  repeat' split
  all_goals decide

/-- Texts of whole groups pass the decoder's reservation, whatever their size: where
the product wraps, it leaves more than the padding. -/
theorem reserve_outputSize {text : Text} (nonempty : text ≠ []) (whole : text.length % 4 = 0)
    (isString : text.IsString) : reserve (outputSize text) = .ok () := by
  have padding := paddingCount_le text
  have positive := List.length_pos_iff.mpr nonempty
  rw [Text.IsString] at isString
  have enough : paddingCount text ≤ sizeMul text.length 3 / 4 := by
    rw [sizeMul, sizeModulus]
    -- Three times a multiple of four is no power of two and at most seven more.
    have wraps : text.length * 3 / 2 ^ 64 = 0 ∨ text.length * 3 / 2 ^ 64 = 1 := by omega
    rcases wraps with unwrapped | wrapped
    · omega
    · omega
  apply reserve_of_le
  rw [outputSize, sizeSub_of_le enough, sizeMul, sizeModulus]
  omega

theorem removeWhitespace_isString {text : Text} (isString : text.IsString) :
    (removeWhitespace text).IsString :=
  Nat.lt_of_le_of_lt (List.length_filter_le ..) isString

/-- A text of whole groups is decoded by the group loop alone. -/
theorem base64ToBytes_of_groups {text : Text} (whole : (removeWhitespace text).length % 4 = 0)
    (isString : text.IsString) : base64ToBytes text = base64Loop (removeWhitespace text) := by
  rw [base64ToBytes]
  by_cases empty : removeWhitespace text = []
  · rw [if_pos empty, empty]
    rfl
  · rw [if_neg empty, reserve_outputSize empty whole (removeWhitespace_isString isString),
      Throws.bind_ok]

/-- Likewise when it has no whitespace. -/
theorem base64ToBytes_of_clean {text : Text} (clean : ∀ c ∈ text, isspace c = false)
    (whole : text.length % 4 = 0) (isString : text.IsString) :
    base64ToBytes text = base64Loop text := by
  have same := removeWhitespace_of_none clean
  rw [base64ToBytes_of_groups (by rwa [same]) isString, same]

/-- Base64 text written for bytes is read back as them. -/
theorem base64ToBytes_encodeToBase64 {bytes : Bytes}
    (isString : (encodeToBase64 bytes).IsString) :
    base64ToBytes (encodeToBase64 bytes) = .ok bytes := by
  have whole : (encodeToBase64 bytes).length % 4 = 0 := by
    rw [encodeToBase64_length]
    exact Nat.mul_mod_right 4 _
  rw [base64ToBytes_of_clean (encodeToBase64_not_isspace bytes) whole isString,
    base64Loop_encodeToBase64]

theorem encodeToBase64_isString {bytes : Bytes} (short : bytes.length < 2 ^ 61) :
    (encodeToBase64 bytes).IsString := by
  rw [Text.IsString, encodeToBase64_length]
  omega

/-! ## Transactions -/

theorem decodeFromHex_encodeToHex (oqs : Oqs) (data : Bytes) :
    decodeFromHex oqs (encodeToHex data) = decode oqs data := by
  rw [decodeFromHex, hexToBytes_encodeToHex, decodeFromText]

theorem decodeFromBase64_encodeToBase64 (oqs : Oqs) {data : Bytes}
    (isString : (encodeToBase64 data).IsString) :
    decodeFromBase64 oqs (encodeToBase64 data) = decode oqs data := by
  rw [decodeFromBase64, base64ToBytes_encodeToBase64 isString, decodeFromText]

/-- Both transports return the bytes that they are given, so decoding from either
text is decoding the bytes: the same transaction, or the same error. The text has
to be a string: past that, there is none to decode. -/
theorem text_transports_lossless (oqs : Oqs) :
    (∀ bytes, hexToBytes (encodeToHex bytes) = .ok bytes ∧
        decodeFromHex oqs (encodeToHex bytes) = decode oqs bytes) ∧
      ∀ bytes, (encodeToBase64 bytes).IsString →
        base64ToBytes (encodeToBase64 bytes) = .ok bytes ∧
          decodeFromBase64 oqs (encodeToBase64 bytes) = decode oqs bytes ∧
            decodeFromBase64 oqs (encodeToBase64 bytes) =
              decodeFromHex oqs (encodeToHex bytes) := by
  refine ⟨fun bytes => ⟨hexToBytes_encodeToHex bytes, decodeFromHex_encodeToHex oqs bytes⟩, ?_⟩
  intro bytes isString
  have read := decodeFromBase64_encodeToBase64 oqs isString
  exact ⟨base64ToBytes_encodeToBase64 isString, read,
    read.trans (decodeFromHex_encodeToHex oqs bytes).symm⟩

/-- Two bytes, of which the base64 text ends in padding. -/
theorem text_transports_lossless_two :
    base64ToBytes (encodeToBase64 [0xFF, 0x00]) = .ok [0xFF, 0x00] ∧
      decodeFromBase64 noOqs (encodeToBase64 [0xFF, 0x00]) =
        decodeFromHex noOqs (encodeToHex [0xFF, 0x00]) := by
  have isString : (encodeToBase64 [0xFF, 0x00]).IsString := encodeToBase64_isString (by decide)
  obtain ⟨read, -, same⟩ := (text_transports_lossless noOqs).2 _ isString
  exact ⟨read, same⟩

end PqcLedger.Codec
