import PqcLedger.Codec.Encode
import PqcLedger.Codec.Decode

/-!
# Text transports

The hexadecimal and base64 codecs of `codec/encode.cpp` and `codec/decode.cpp`,
and the transaction codecs over them. Characters are bytes.
-/

namespace PqcLedger.Codec

open PqcLedger.Cxx PqcLedger.Crypto

/-- The digit written by `std::hex` for a value below sixteen. -/
def hexDigit (value : UInt8) : UInt8 := if value < 10 then 48 + value else 87 + value

/-- `encode_to_hex` on bytes: two lower-case digits, zero filled, for each byte. -/
def encodeToHex (bytes : Bytes) : Text :=
  bytes.flatMap fun (byte : UInt8) => [hexDigit (byte >>> 4), hexDigit (byte &&& 0xF)]

/-- The whitespace filter that opens both text decoders. -/
def removeWhitespace (text : Text) : Text := text.filter fun c => !isspace c

/-- The value of a hexadecimal digit; another character is quoted. -/
def hexCharToValue (c : UInt8) : Throws UInt8 :=
  if 48 ≤ c ∧ c ≤ 57 then .ok (c - 48)
  else if 97 ≤ c ∧ c ≤ 102 then .ok (c - 97 + 10)
  else if 65 ≤ c ∧ c ≤ 70 then .ok (c - 65 + 10)
  else .error (.runtimeError ("Invalid hex character: " ++ Text.message [c]))

/-- The pairwise loop of `hex_to_bytes`, on a string of even length. -/
def hexLoop : Text → Throws Bytes
  | first :: second :: rest => do
      let high ← hexCharToValue first
      let low ← hexCharToValue second
      let tail ← hexLoop rest
      pure (((high <<< 4) ||| low) :: tail)
  | _ => pure []

/-- Read the bytes of a hexadecimal text, whitespace apart. -/
def hexToBytes (hex : Text) : Throws Bytes :=
  let cleanHex := removeWhitespace hex
  if cleanHex.length % 2 ≠ 0 then .error (.runtimeError "Hex string must have even length")
  else hexLoop cleanHex

/-- The character '='. -/
def padChar : UInt8 := 61

/-- `base64_chars`: A-Z, a-z, 0-9, + and /. -/
def base64Chars : Text :=
  Text.ofString "ABCDEFGHIJKLMNOPQRSTUVWXYZabcdefghijklmnopqrstuvwxyz0123456789+/"

/-- The value of a base64 character; another character is quoted. -/
def base64CharToValue (c : UInt8) : Throws UInt8 :=
  if 65 ≤ c ∧ c ≤ 90 then .ok (c - 65)
  else if 97 ≤ c ∧ c ≤ 122 then .ok (c - 97 + 26)
  else if 48 ≤ c ∧ c ≤ 57 then .ok (c - 48 + 52)
  else if c = 43 then .ok 62
  else if c = 47 then .ok 63
  else if c = padChar then .ok 0
  else .error (.runtimeError ("Invalid base64 character: " ++ Text.message [c]))

/-- The value of a third or fourth group character, zero when it is padding. -/
def base64CharOrPad (c : UInt8) : Throws UInt8 :=
  if c ≠ padChar then base64CharToValue c else pure 0

/-- The group loop of `base64_to_bytes`, on a cleaned string. -/
def base64Loop : Text → Throws Bytes
  | [] => pure []
  | c0 :: c1 :: c2 :: c3 :: rest => do
      let b0 ← base64CharToValue c0
      let b1 ← base64CharToValue c1
      let b2 ← base64CharOrPad c2
      let b3 ← base64CharOrPad c3
      let tail ← base64Loop rest
      pure ([(b0 <<< 2) ||| (b1 >>> 4)] ++
        (if c2 ≠ padChar then [(b1 <<< 4) ||| (b2 >>> 2)] else []) ++
        (if c3 ≠ padChar then [(b2 <<< 6) ||| b3] else []) ++ tail)
  | _ => .error (.runtimeError "Invalid base64 string: incomplete group")

/-- `padding_count`: the '=' signs among the last two characters, counted from the end. -/
def paddingCount (text : Text) : Nat :=
  match text.reverse with
  | last :: next :: _ => if last = padChar then if next = padChar then 2 else 1 else 0
  | [last] => if last = padChar then 1 else 0
  | [] => 0

/-- The estimate passed to `reserve`. -/
def outputSize (text : Text) : Nat :=
  sizeSub (sizeMul text.length 3 / 4) (paddingCount text)

/-- Read the bytes of a base64 text, whitespace apart. -/
def base64ToBytes (base64 : Text) : Throws Bytes :=
  let cleanBase64 := removeWhitespace base64
  if cleanBase64 = [] then pure []
  else do
    reserve (outputSize cleanBase64)
    base64Loop cleanBase64

/-- The character for a six-bit group. -/
def base64CharAt (value : UInt32) : UInt8 := base64Chars.getD (value &&& 0x3F).toNat 0

/-- The group loop of `encode_to_base64`: three bytes, or the last one or two. -/
def encodeToBase64 : Bytes → Text
  | [] => []
  | [b0] =>
      let combined := b0.toUInt32 <<< 16
      [base64CharAt (combined >>> 18), base64CharAt (combined >>> 12), padChar, padChar]
  | [b0, b1] =>
      let combined := (b0.toUInt32 <<< 16) ||| (b1.toUInt32 <<< 8)
      [base64CharAt (combined >>> 18), base64CharAt (combined >>> 12),
        base64CharAt (combined >>> 6), padChar]
  | b0 :: b1 :: b2 :: rest =>
      let combined := (b0.toUInt32 <<< 16) ||| (b1.toUInt32 <<< 8) ||| b2.toUInt32
      [base64CharAt (combined >>> 18), base64CharAt (combined >>> 12),
        base64CharAt (combined >>> 6), base64CharAt combined] ++ encodeToBase64 rest

/-- `encode_to_hex` and `encode_to_base64` on a transaction: encode, then write the text. -/
def encodeToText (text : Bytes → Text) (tx : Transaction) : Throws (Result Text) := do
  match ← encode tx with
  | .err error => pure (.err error)
  | .ok bytes => pure (.ok (text bytes))

/-- Encode a transaction to hexadecimal text. -/
def encodeTxToHex (tx : Transaction) : Throws (Result Text) := encodeToText encodeToHex tx

/-- Encode a transaction to base64 text. -/
def encodeTxToBase64 (tx : Transaction) : Throws (Result Text) := encodeToText encodeToBase64 tx

/-- Decode the bytes of a text, under a catch block that reports its own code. -/
def decodeFromText (oqs : Oqs) (code : ErrorCode) (bytes : Throws Bytes) : Result Transaction :=
  match bytes with
  | .ok data => decode oqs data
  | .error thrown => .err ⟨code, thrown.what⟩

/-- Decode a transaction from hexadecimal text. -/
def decodeFromHex (oqs : Oqs) (hex : Text) : Result Transaction :=
  decodeFromText oqs .InvalidHexEncoding (hexToBytes hex)

/-- Decode a transaction from base64 text. -/
def decodeFromBase64 (oqs : Oqs) (base64 : Text) : Result Transaction :=
  decodeFromText oqs .InvalidBase64Encoding (base64ToBytes base64)

end PqcLedger.Codec
