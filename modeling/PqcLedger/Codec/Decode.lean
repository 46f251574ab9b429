import PqcLedger.Codec.Reader
import PqcLedger.Crypto.Pq

/-!
# Strict binary decoding

`codec::decode`. The early returns of the source are error results of the
body; the reads may also throw, and the catch block recovers an error code from
the exception's text.
-/

namespace PqcLedger.Codec

open PqcLedger.Cxx PqcLedger.Crypto

/-- The public key size in force: liboqs' answer, or 1952 without one. -/
def expectedPubkeySize (oqs : Oqs) : Nat :=
  match getPubkeySize oqs "ML-DSA-65" with
  | .ok size => size
  | .err _ => 1952

/-- The signature size in force: liboqs' answer, or 3309 without one. -/
def expectedSigSize (oqs : Oqs) : Nat :=
  match getSignatureSize oqs "ML-DSA-65" with
  | .ok size => size
  | .err _ => 3309

/-- The message on a field of the wrong length. -/
def sizeMismatch (subject : String) (expected got : Nat) : String :=
  subject ++ " size mismatch: expected " ++ toString expected ++ ", got " ++ toString got

/-- The authentication payload selected by the tag. -/
def decodeAuth (oqs : Oqs) (authTag : UInt8) : ReaderM (Result (AuthMode × Auth)) :=
  if authTag = 0 then do
    let sigBytes ← readBytesWithLen
    -- An empty signature marks an unsigned transaction.
    if sigBytes.length > 0 ∧ sigBytes.length ≠ expectedSigSize oqs then
      pure (.err ⟨.InvalidSignature,
        sizeMismatch "PQ signature" (expectedSigSize oqs) sigBytes.length⟩)
    else pure (.ok (.PqOnly, .pq ⟨sigBytes⟩))
  else if authTag = 1 then do
    let classicalSig ← readBytesWithLen
    let pqSig ← readBytesWithLen
    if classicalSig.length ≠ 64 then
      pure (.err ⟨.InvalidSignature, sizeMismatch "Ed25519 signature" 64 classicalSig.length⟩)
    else if pqSig.length ≠ expectedSigSize oqs then
      pure (.err ⟨.InvalidSignature,
        sizeMismatch "PQ signature" (expectedSigSize oqs) pqSig.length⟩)
    else pure (.ok (.Hybrid, .hybrid ⟨classicalSig, pqSig⟩))
  else pure (.err ⟨.InvalidAuthTag, "Invalid auth tag: " ++ toString authTag.toNat⟩)

/-- The trailing-bytes check that closes the try block. -/
def decodeEnd (tx : Transaction) : ReaderM (Result Transaction) := fun reader =>
  if reader.atEnd then (.ok (.ok tx), reader)
  else (.ok (.err ⟨.TrailingBytes,
    "Trailing bytes found: " ++ toString reader.remaining ++ " bytes"⟩), reader)

/-- The try block of `decode`. -/
def decodeBody (oqs : Oqs) : ReaderM (Result Transaction) := do
  let version ← readU8
  if version ≠ 1 then
    pure (.err ⟨.InvalidVersion, "Version must be 1, got " ++ toString version.toNat⟩)
  else
    let chainId ← readU32Be
    let nonce ← readU64Be
    let fromPubkey ← readBytesWithLen
    if fromPubkey.length ≠ expectedPubkeySize oqs then
      pure (.err ⟨.InvalidPublicKey,
        sizeMismatch "Public key" (expectedPubkeySize oqs) fromPubkey.length⟩)
    else
      let toBytes ← readBytes 32
      let amount ← readU64Be
      let fee ← readU64Be
      let authTag ← readU8
      let decoded ← decodeAuth oqs authTag
      match decoded with
      | .err error => pure (.err error)
      | .ok (authMode, auth) =>
          decodeEnd ⟨version, chainId, nonce, fromPubkey, copyInto 32 toBytes, amount, fee,
            authMode, auth⟩

/-- The catch block of `decode`. -/
def decodeCatch (thrown : Exception) : Error :=
  let errorMsg := thrown.what
  if findsAtStart errorMsg "LENGTH_PREFIX_MISMATCH:" then
    ⟨.MismatchedLength, "Length prefix exceeds remaining buffer: " ++ substr errorMsg 23⟩
  else if findsAnywhere errorMsg "Unexpected end of data" then
    ⟨.InvalidLengthPrefix, "Unexpected end of data while reading"⟩
  else ⟨.InvalidTransaction, errorMsg⟩

/-- Run a try block under the catch block. -/
def settle {α : Type} : Throws (Result α) → Result α
  | .ok result => result
  | .error thrown => .err (decodeCatch thrown)

/-- Strictly decode a transaction from binary format. -/
def decode (oqs : Oqs) (data : Bytes) : Result Transaction :=
  if data = [] then .err ⟨.InvalidTransaction, "Empty transaction data"⟩
  else settle (decodeBody oqs (Reader.ofData data)).1

/-- With ML-DSA-65 at its standard lengths, the sizes in force are the fallbacks. -/
theorem getSize_or_fallback {oqs : Oqs} {code : ErrorCode} {length : OqsSig → Nat} {fallback : Nat}
    (sized : ∀ sig, oqs.sigNew "ML-DSA-65" = some sig → length sig = fallback) :
    (match getSize oqs code length "ML-DSA-65" with
      | .ok size => size
      | .err _ => fallback) = fallback := by
  cases opened : oqs.sigNew "ML-DSA-65" with
  | none => rw [getSize_of_missing getOqsAlgName_mlDsa65 opened]
  | some sig =>
      rw [getSize_of_enabled getOqsAlgName_mlDsa65 opened]
      exact sized sig opened

/-- With ML-DSA-65 enabled, the sizes in force are its own. -/
theorem expectedPubkeySize_of_enabled {oqs : Oqs} {scheme : OqsSig}
    (enabled : oqs.sigNew "ML-DSA-65" = some scheme) :
    expectedPubkeySize oqs = scheme.lengthPublicKey := by
  rw [expectedPubkeySize, getPubkeySize, getSize_of_enabled getOqsAlgName_mlDsa65 enabled]

theorem expectedSigSize_of_enabled {oqs : Oqs} {scheme : OqsSig}
    (enabled : oqs.sigNew "ML-DSA-65" = some scheme) :
    expectedSigSize oqs = scheme.lengthSignature := by
  rw [expectedSigSize, getSignatureSize, getSize_of_enabled getOqsAlgName_mlDsa65 enabled]

theorem expectedPubkeySize_of_sized {oqs : Oqs} (sized : oqs.MlDsa65Sized) :
    expectedPubkeySize oqs = 1952 :=
  getSize_or_fallback fun sig opened => (sized sig opened).1

theorem expectedSigSize_of_sized {oqs : Oqs} (sized : oqs.MlDsa65Sized) :
    expectedSigSize oqs = 3309 :=
  getSize_or_fallback fun sig opened => (sized sig opened).2

/-- A read past the end is reported as an invalid length prefix. -/
@[simp] theorem decodeCatch_unexpectedEnd :
    (decodeCatch unexpectedEnd).code = .InvalidLengthPrefix := by
  have notPrefix : findsAtStart "Unexpected end of data" "LENGTH_PREFIX_MISMATCH:" = false := by
    decide
  simp [decodeCatch, unexpectedEnd, Exception.what, notPrefix, findsAnywhere_self]

/-- An oversized length prefix is reported as a mismatched length. -/
@[simp] theorem decodeCatch_lengthPrefixMismatch (len remaining : Nat) :
    (decodeCatch (lengthPrefixMismatch len remaining)).code = .MismatchedLength := by
  simp [decodeCatch, lengthPrefixMismatch, Exception.what, findsAtStart_append]

end PqcLedger.Codec
