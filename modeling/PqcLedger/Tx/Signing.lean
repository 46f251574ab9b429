import PqcLedger.Codec.EncodeLayout
import PqcLedger.Crypto.Classical
import PqcLedger.Crypto.Hash
import PqcLedger.Crypto.Pq

/-!
# Signing and verification

`tx/signing.cpp`. A signer receives the transaction by reference, so it returns
the transaction as it leaves it together with its result.
-/

namespace PqcLedger.Tx

open PqcLedger.Cxx PqcLedger.Codec PqcLedger.Crypto

/-- The libraries linked into a build. -/
structure Backend where
  oqs : Oqs
  openssl : Option OpenSsl

/-- The algorithm named where the caller names none. -/
def defaultAlgorithm : String := "Dilithium3"

/-- Sign with a post-quantum key alone. The transaction is changed only if that succeeds. -/
def signTransaction (backend : Backend) (tx : Transaction) (privkey : Bytes)
    (algorithm : String) (coins : Bytes) : Throws (Result Unit × Transaction) := do
  match ← encodeForSigning tx with
  | .err error => pure (.err error, tx)
  | .ok encoded =>
      match createSigningMessage tx.chainId encoded with
      | .err error => pure (.err error, tx)
      | .ok message =>
          match sign backend.oqs message privkey algorithm coins with
          | .err error => pure (.err error, tx)
          | .ok signature =>
              pure (.ok (), { tx with authMode := .PqOnly, auth := .pq ⟨signature⟩ })

/-- Sign with both keys. The transaction is changed only if both signatures are made. -/
def signTransactionHybrid (backend : Backend) (tx : Transaction) (pqPrivkey ed25519Privkey : Bytes)
    (pqAlgorithm : String) (coins : Bytes) : Throws (Result Unit × Transaction) := do
  match ← encodeForSigning tx with
  | .err error => pure (.err error, tx)
  | .ok encoded =>
      match createSigningMessage tx.chainId encoded with
      | .err error => pure (.err error, tx)
      | .ok message =>
          match sign backend.oqs message pqPrivkey pqAlgorithm coins with
          | .err error => pure (.err error, tx)
          | .ok pqSig =>
              match ed25519Sign backend.openssl message ed25519Privkey with
              | .err error => pure (.err error, tx)
              | .ok ed25519Sig =>
                  pure (.ok (), { tx with
                    authMode := .Hybrid, auth := .hybrid ⟨ed25519Sig, pqSig⟩ })

/-- Verify the signatures of a transaction on a chain, both under the one public key. -/
def verifyTransaction (backend : Backend) (tx : Transaction) (chainId : UInt32) :
    Throws (Result Bool) := do
  match ← encodeForSigning tx with
  | .err error => pure (.err error)
  | .ok encoded =>
      match createSigningMessage chainId encoded with
      | .err error => pure (.err error)
      | .ok message =>
          if tx.authMode = .PqOnly then
            let pqSig ← tx.auth.getPq
            match verify backend.oqs message pqSig.sig tx.fromPubkey "Dilithium3" with
            | .err error => pure (.err error)
            | .ok valid => pure (.ok valid)
          else if tx.authMode = .Hybrid then
            let hybridSig ← tx.auth.getHybrid
            match ed25519Verify backend.openssl message hybridSig.classicalSig tx.fromPubkey with
            | .err error => pure (.err error)
            | .ok ed25519Valid =>
                if !ed25519Valid then pure (.ok false)
                else
                  match verify backend.oqs message hybridSig.pqSig tx.fromPubkey "Dilithium3" with
                  | .err error => pure (.err error)
                  | .ok valid => pure (.ok valid)
          else pure (.err ⟨.InvalidAuthTag, "Unknown auth mode"⟩)

/-! ## What the signers and the verifier do -/

/-- The bytes hashed for a transaction on a chain. -/
def preimage (chainId : UInt32) (tx : Transaction) : Bytes :=
  signingPreimage chainId (bodyLayout tx)

/-- The message that is signed and verified. -/
def signingMessage (chainId : UInt32) (tx : Transaction) : Bytes :=
  Picosha2.hash256 (preimage chainId tx)

@[simp] theorem signingMessage_length (chainId : UInt32) (tx : Transaction) :
    (signingMessage chainId tx).length = 32 :=
  Picosha2.hash256_length _

theorem createSigningMessage_bodyLayout (chainId : UInt32) (tx : Transaction) :
    createSigningMessage chainId (bodyLayout tx) = .ok (signingMessage chainId tx) :=
  createSigningMessage_eq chainId (bodyLayout tx)

/-- `sign_transaction` signs the message of the transaction's own chain, and on
success attaches the signature. -/
theorem signTransaction_of_fits {tx : Transaction} (fits : tx.fromPubkey.length ≤ maxPrefixed)
    (backend : Backend) (privkey : Bytes) (algorithm : String) (coins : Bytes) :
    signTransaction backend tx privkey algorithm coins =
      .ok (match sign backend.oqs (signingMessage tx.chainId tx) privkey algorithm coins with
        | .err error => (.err error, tx)
        | .ok signature => (.ok (), { tx with authMode := .PqOnly, auth := .pq ⟨signature⟩ })) := by
  rw [signTransaction, encodeForSigning_of_fits fits, Throws.bind_ok]
  simp only [createSigningMessage_bodyLayout]
  cases sign backend.oqs (signingMessage tx.chainId tx) privkey algorithm coins <;> rfl

theorem signTransaction_of_exceeds {tx : Transaction}
    (exceeds : ¬ tx.fromPubkey.length ≤ maxPrefixed) (backend : Backend) (privkey : Bytes)
    (algorithm : String) (coins : Bytes) :
    signTransaction backend tx privkey algorithm coins = .error lengthExceedsU16 := by
  rw [signTransaction, encodeForSigning_of_exceeds exceeds, Throws.bind_error]

theorem signTransaction_ok_iff {backend : Backend} {tx signed : Transaction} {privkey : Bytes}
    {algorithm : String} {coins : Bytes} :
    signTransaction backend tx privkey algorithm coins = .ok (.ok (), signed) ↔
      tx.fromPubkey.length ≤ maxPrefixed ∧ ∃ signature,
        sign backend.oqs (signingMessage tx.chainId tx) privkey algorithm coins = .ok signature ∧
          signed = { tx with authMode := .PqOnly, auth := .pq ⟨signature⟩ } := by
  by_cases fits : tx.fromPubkey.length ≤ maxPrefixed
  · rw [signTransaction_of_fits fits]
    cases sign backend.oqs (signingMessage tx.chainId tx) privkey algorithm coins with
    | err error => simp
    | ok signature => simp [fits, eq_comm]
  · rw [signTransaction_of_exceeds fits]
    simp [fits]

/-- `sign_transaction_hybrid` makes both signatures of that message before it
attaches either. -/
theorem signTransactionHybrid_of_fits {tx : Transaction}
    (fits : tx.fromPubkey.length ≤ maxPrefixed) (backend : Backend)
    (pqPrivkey ed25519Privkey : Bytes) (pqAlgorithm : String) (coins : Bytes) :
    signTransactionHybrid backend tx pqPrivkey ed25519Privkey pqAlgorithm coins =
      .ok (match sign backend.oqs (signingMessage tx.chainId tx) pqPrivkey pqAlgorithm coins with
        | .err error => (.err error, tx)
        | .ok pqSig =>
            match ed25519Sign backend.openssl (signingMessage tx.chainId tx) ed25519Privkey with
            | .err error => (.err error, tx)
            | .ok classicalSig => (.ok (), { tx with
                authMode := .Hybrid, auth := .hybrid ⟨classicalSig, pqSig⟩ })) := by
  rw [signTransactionHybrid, encodeForSigning_of_fits fits, Throws.bind_ok]
  simp only [createSigningMessage_bodyLayout]
  cases sign backend.oqs (signingMessage tx.chainId tx) pqPrivkey pqAlgorithm coins with
  | err error => rfl
  | ok pqSig =>
      cases ed25519Sign backend.openssl (signingMessage tx.chainId tx) ed25519Privkey <;> rfl

theorem signTransactionHybrid_of_exceeds {tx : Transaction}
    (exceeds : ¬ tx.fromPubkey.length ≤ maxPrefixed) (backend : Backend)
    (pqPrivkey ed25519Privkey : Bytes) (pqAlgorithm : String) (coins : Bytes) :
    signTransactionHybrid backend tx pqPrivkey ed25519Privkey pqAlgorithm coins =
      .error lengthExceedsU16 := by
  rw [signTransactionHybrid, encodeForSigning_of_exceeds exceeds, Throws.bind_error]

theorem signTransactionHybrid_ok_iff {backend : Backend} {tx signed : Transaction}
    {pqPrivkey ed25519Privkey : Bytes} {pqAlgorithm : String} {coins : Bytes} :
    signTransactionHybrid backend tx pqPrivkey ed25519Privkey pqAlgorithm coins =
        .ok (.ok (), signed) ↔
      tx.fromPubkey.length ≤ maxPrefixed ∧ ∃ classicalSig pqSig,
        sign backend.oqs (signingMessage tx.chainId tx) pqPrivkey pqAlgorithm coins = .ok pqSig ∧
          ed25519Sign backend.openssl (signingMessage tx.chainId tx) ed25519Privkey =
            .ok classicalSig ∧
          signed = { tx with authMode := .Hybrid, auth := .hybrid ⟨classicalSig, pqSig⟩ } := by
  by_cases fits : tx.fromPubkey.length ≤ maxPrefixed
  · rw [signTransactionHybrid_of_fits fits]
    cases sign backend.oqs (signingMessage tx.chainId tx) pqPrivkey pqAlgorithm coins with
    | err error => simp
    | ok pqSig =>
        cases ed25519Sign backend.openssl (signingMessage tx.chainId tx) ed25519Privkey with
        | err error => simp
        | ok classicalSig => simp [fits, eq_comm]
  · rw [signTransactionHybrid_of_exceeds fits]
    simp [fits]

theorem verifyTransaction_of_exceeds {backend : Backend} {tx : Transaction} {chainId : UInt32}
    (exceeds : ¬ tx.fromPubkey.length ≤ maxPrefixed) :
    verifyTransaction backend tx chainId = .error lengthExceedsU16 := by
  rw [verifyTransaction, encodeForSigning_of_exceeds exceeds, Throws.bind_error]

/-- A PqOnly transaction is verified by the PQ scheme alone. -/
theorem verifyTransaction_pqOnly {backend : Backend} {tx : Transaction} {chainId : UInt32}
    {signature : PqSignature} (fits : tx.fromPubkey.length ≤ maxPrefixed)
    (mode : tx.authMode = .PqOnly) (auth : tx.auth = .pq signature) :
    verifyTransaction backend tx chainId =
      .ok (verify backend.oqs (signingMessage chainId tx) signature.sig tx.fromPubkey
        "Dilithium3") := by
  rw [verifyTransaction, encodeForSigning_of_fits fits, Throws.bind_ok]
  simp only [createSigningMessage_bodyLayout, mode, if_true, auth, Auth.getPq_pq, Throws.bind_ok]
  cases verify backend.oqs (signingMessage chainId tx) signature.sig tx.fromPubkey
    "Dilithium3" <;> rfl

/-- A hybrid transaction is verified by Ed25519 first, then by the PQ scheme. -/
theorem verifyTransaction_hybrid {backend : Backend} {tx : Transaction} {chainId : UInt32}
    {signature : HybridSignature} (fits : tx.fromPubkey.length ≤ maxPrefixed)
    (mode : tx.authMode = .Hybrid) (auth : tx.auth = .hybrid signature) :
    verifyTransaction backend tx chainId =
      .ok (match ed25519Verify backend.openssl (signingMessage chainId tx)
          signature.classicalSig tx.fromPubkey with
        | .err error => .err error
        | .ok false => .ok false
        | .ok true => verify backend.oqs (signingMessage chainId tx) signature.pqSig
            tx.fromPubkey "Dilithium3") := by
  rw [verifyTransaction, encodeForSigning_of_fits fits, Throws.bind_ok]
  simp only [createSigningMessage_bodyLayout, mode, AuthMode.Hybrid_ne_PqOnly, if_false, if_true,
    auth, Auth.getHybrid_hybrid, Throws.bind_ok]
  cases ed25519Verify backend.openssl (signingMessage chainId tx) signature.classicalSig
      tx.fromPubkey with
  | err error => rfl
  | ok classicalValid =>
      cases classicalValid with
      | false => rfl
      | true =>
          cases verify backend.oqs (signingMessage chainId tx) signature.pqSig tx.fromPubkey
            "Dilithium3" <;> rfl

/-- Under a named mode, the other alternative of the variant is thrown out. -/
theorem verifyTransaction_mismatched {backend : Backend} {tx : Transaction} {chainId : UInt32}
    (fits : tx.fromPubkey.length ≤ maxPrefixed)
    (named : tx.authMode = .PqOnly ∨ tx.authMode = .Hybrid)
    (mismatched : ¬ AuthMatches tx.authMode tx.auth) :
    verifyTransaction backend tx chainId = .error .badVariantAccess := by
  rw [verifyTransaction, encodeForSigning_of_fits fits, Throws.bind_ok]
  simp only [createSigningMessage_bodyLayout]
  rcases named with pqOnly | hybrid
  · cases auth : tx.auth with
    | pq signature => exact absurd (by rw [auth]; exact pqOnly) mismatched
    | hybrid signature =>
        rw [if_pos pqOnly]
        rfl
  · cases auth : tx.auth with
    | hybrid signature => exact absurd (by rw [auth]; exact hybrid) mismatched
    | pq signature =>
        rw [if_neg (by rw [hybrid]; exact AuthMode.Hybrid_ne_PqOnly), if_pos hybrid]
        rfl

theorem verifyTransaction_unnamed {backend : Backend} {tx : Transaction} {chainId : UInt32}
    (fits : tx.fromPubkey.length ≤ maxPrefixed) (notPqOnly : tx.authMode ≠ .PqOnly)
    (notHybrid : tx.authMode ≠ .Hybrid) :
    verifyTransaction backend tx chainId =
      .ok (.err ⟨.InvalidAuthTag, "Unknown auth mode"⟩) := by
  rw [verifyTransaction, encodeForSigning_of_fits fits, Throws.bind_ok]
  simp only [createSigningMessage_bodyLayout]
  rw [if_neg notPqOnly, if_neg notHybrid]
  rfl

/-- The signatures that the verifier demands of a transaction were accepted. -/
def SignaturesAccepted (backend : Backend) (message : Bytes) (fromPubkey : PublicKey) : Auth → Prop
  | .pq signature =>
      verify backend.oqs message signature.sig fromPubkey "Dilithium3" = .ok true
  | .hybrid signature =>
      ed25519Verify backend.openssl message signature.classicalSig fromPubkey = .ok true ∧
        verify backend.oqs message signature.pqSig fromPubkey "Dilithium3" = .ok true

/-- Acceptance: the transaction can be laid out and its signatures are accepted. -/
theorem verifyTransaction_true_iff {backend : Backend} {tx : Transaction} {chainId : UInt32} :
    verifyTransaction backend tx chainId = .ok (.ok true) ↔
      tx.fromPubkey.length ≤ maxPrefixed ∧ AuthMatches tx.authMode tx.auth ∧
        SignaturesAccepted backend (signingMessage chainId tx) tx.fromPubkey tx.auth := by
  by_cases fits : tx.fromPubkey.length ≤ maxPrefixed
  · by_cases matched : AuthMatches tx.authMode tx.auth
    · cases auth : tx.auth with
      | pq signature =>
          rw [auth] at matched
          rw [verifyTransaction_pqOnly fits matched auth]
          simp only [Except.ok.injEq, fits, matched, SignaturesAccepted, true_and]
      | hybrid signature =>
          rw [auth] at matched
          rw [verifyTransaction_hybrid fits matched auth]
          simp only [Except.ok.injEq, fits, matched, SignaturesAccepted, true_and]
          cases ed25519Verify backend.openssl (signingMessage chainId tx) signature.classicalSig
              tx.fromPubkey with
          | err error => simp
          | ok classicalValid => cases classicalValid <;> simp
    · by_cases named : tx.authMode = .PqOnly ∨ tx.authMode = .Hybrid
      · rw [verifyTransaction_mismatched fits named matched]
        simp [matched]
      · obtain ⟨notPqOnly, notHybrid⟩ := not_or.mp named
        rw [verifyTransaction_unnamed fits notPqOnly notHybrid]
        simp [matched]
  · rw [verifyTransaction_of_exceeds fits]
    simp [fits]

end PqcLedger.Tx
