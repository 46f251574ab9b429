import PqcLedger.Types

/-!
# Canonical binary encoding

`codec/encode.cpp`: the byte writers, `encode` and `encode_for_signing`. A
writer appends to the bytes written so far.
-/

namespace PqcLedger.Codec

open PqcLedger.Cxx

/-- Append a byte. -/
def writeU8 (out : Bytes) (value : UInt8) : Bytes := out ++ [value]

/-- Append the two bytes of a word, the most significant first. -/
def writeU16Be (out : Bytes) (value : UInt16) : Bytes :=
  out ++ [((value >>> 8) &&& 0xFF).toUInt8, (value &&& 0xFF).toUInt8]

/-- Append the four bytes of a word, the most significant first. -/
def writeU32Be (out : Bytes) (value : UInt32) : Bytes :=
  out ++ [((value >>> 24) &&& 0xFF).toUInt8, ((value >>> 16) &&& 0xFF).toUInt8,
    ((value >>> 8) &&& 0xFF).toUInt8, (value &&& 0xFF).toUInt8]

/-- Append the eight bytes of a word, the most significant first. -/
def writeU64Be (out : Bytes) (value : UInt64) : Bytes :=
  out ++ [((value >>> 56) &&& 0xFF).toUInt8, ((value >>> 48) &&& 0xFF).toUInt8,
    ((value >>> 40) &&& 0xFF).toUInt8, ((value >>> 32) &&& 0xFF).toUInt8,
    ((value >>> 24) &&& 0xFF).toUInt8, ((value >>> 16) &&& 0xFF).toUInt8,
    ((value >>> 8) &&& 0xFF).toUInt8, (value &&& 0xFF).toUInt8]

/-- What is thrown for a byte string that no length prefix can announce. -/
def lengthExceedsU16 : Exception := .runtimeError "Bytes length exceeds u16 max"

/-- Append a byte string behind its length in two bytes. -/
def writeBytesWithLen (out bytes : Bytes) : Throws Bytes :=
  if bytes.length > 65535 then .error lengthExceedsU16
  else .ok (writeU16Be out (UInt16.ofNat bytes.length) ++ bytes)

/-- Canonically encode a transaction to binary format. -/
def encode (tx : Transaction) : Throws (Result Bytes) := do
  let out := writeU8 [] tx.version
  let out := writeU32Be out tx.chainId
  let out := writeU64Be out tx.nonce
  let out ← writeBytesWithLen out tx.fromPubkey
  let out := out ++ tx.toAddr.val
  let out := writeU64Be out tx.amount
  let out := writeU64Be out tx.fee
  let out := writeU8 out tx.authMode.byte
  if tx.authMode = .PqOnly then
    let pqSig ← tx.auth.getPq
    let out ← writeBytesWithLen out pqSig.sig
    pure (.ok out)
  else if tx.authMode = .Hybrid then
    let hybridSig ← tx.auth.getHybrid
    let out ← writeBytesWithLen out hybridSig.classicalSig
    let out ← writeBytesWithLen out hybridSig.pqSig
    pure (.ok out)
  else
    -- Neither branch of the source runs: the tag is written without a payload.
    pure (.ok out)

/-- Encode a transaction without its authentication field. -/
def encodeForSigning (tx : Transaction) : Throws (Result Bytes) := do
  let out := writeU8 [] tx.version
  let out := writeU32Be out tx.chainId
  let out := writeU64Be out tx.nonce
  let out ← writeBytesWithLen out tx.fromPubkey
  let out := out ++ tx.toAddr.val
  let out := writeU64Be out tx.amount
  let out := writeU64Be out tx.fee
  pure (.ok out)

end PqcLedger.Codec
