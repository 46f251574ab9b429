import PqcLedger.Types
import PqcLedger.Crypto.Picosha2

/-!
# Hashing and the signing message

`crypto/hash.cpp`. The signing message is the digest of the domain prefix, the
chain id and the transaction encoding, concatenated without separators.
-/

namespace PqcLedger.Crypto

open PqcLedger.Cxx

/-- The digest of a byte string. It reports no error. -/
def sha256 (data : Bytes) : Result Bytes := .ok (Picosha2.hash256 data)

/-- The digest of byte strings joined without separators. -/
def sha256Concat (parts : List Bytes) : Result Bytes :=
  .ok (Picosha2.hash256 parts.flatten)

/-- The characters of "TXv1". -/
def domainPrefix : Bytes := [0x54, 0x58, 0x76, 0x31]

/-- `chain_id_be`: the four bytes of the chain id, the most significant first. -/
def chainIdBe (chainId : UInt32) : Bytes :=
  [((chainId >>> 24) &&& 0xFF).toUInt8, ((chainId >>> 16) &&& 0xFF).toUInt8,
    ((chainId >>> 8) &&& 0xFF).toUInt8, (chainId &&& 0xFF).toUInt8]

/-- The message that is signed: the digest of the domain prefix, the chain id and the
encoding of the transaction. -/
def createSigningMessage (chainId : UInt32) (txData : Bytes) : Result Bytes :=
  sha256Concat [domainPrefix, chainIdBe chainId, txData]

/-- The byte string whose digest is the signing message. -/
def signingPreimage (chainId : UInt32) (txData : Bytes) : Bytes :=
  domainPrefix ++ chainIdBe chainId ++ txData

theorem createSigningMessage_eq (chainId : UInt32) (txData : Bytes) :
    createSigningMessage chainId txData =
      .ok (Picosha2.hash256 (signingPreimage chainId txData)) := by
  simp [createSigningMessage, sha256Concat, signingPreimage]

end PqcLedger.Crypto
