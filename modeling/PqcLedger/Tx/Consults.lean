import PqcLedger.Tx.Authenticity
import PqcLedger.Tx.Validation

/-!
# When the primitives are asked

Two builds whose ML-DSA-65 has the same sizes are told apart by the pipeline only
through what their primitives answer, and they are asked late: nothing while the
bytes are decoded or the cheap checks fail, Ed25519 at one point after that, and
the PQ scheme at one point once Ed25519 has accepted.
-/

namespace PqcLedger.Tx

open PqcLedger.Cxx PqcLedger.Codec PqcLedger.Crypto

/-- The sizes by which a scheme shows before it is used. -/
def publicSizes (scheme : OqsSig) : Nat × Nat := (scheme.lengthPublicKey, scheme.lengthSignature)

/-- ML-DSA-65 is enabled in both builds or in neither, with the same sizes. -/
def SameSizes (left right : Oqs) : Prop :=
  (left.sigNew "ML-DSA-65").map publicSizes = (right.sigNew "ML-DSA-65").map publicSizes

/-- Ed25519 accepts the classical signature, where there is one. -/
def ClassicalAccepted (backend : Backend) (tx : Transaction) (chainId : UInt32) : Prop :=
  ∀ signature, tx.auth = .hybrid signature →
    ed25519Verify backend.openssl (signingMessage chainId tx) signature.classicalSig
      tx.fromPubkey = .ok true

/-- Two builds answer alike where the verifier of a transaction asks them. -/
structure AnswerAlike (left right : Backend) (tx : Transaction) (chainId : UInt32) : Prop where
  classical : ∀ signature, tx.auth = .hybrid signature →
    ed25519Verify left.openssl (signingMessage chainId tx) signature.classicalSig tx.fromPubkey =
      ed25519Verify right.openssl (signingMessage chainId tx) signature.classicalSig tx.fromPubkey
  postQuantum : ClassicalAccepted left tx chainId → ∀ leftScheme rightScheme,
    left.oqs.sigNew "ML-DSA-65" = some leftScheme →
      right.oqs.sigNew "ML-DSA-65" = some rightScheme →
        leftScheme.verify (signingMessage chainId tx) (attachedPqSig tx.auth) tx.fromPubkey =
          rightScheme.verify (signingMessage chainId tx) (attachedPqSig tx.auth) tx.fromPubkey

variable {left right : Backend} {tx : Transaction} {chainId : UInt32}

/-! ## Sizes -/

/-- A size that `sizes` tells is looked up alike under any name of ML-DSA-65. -/
theorem getSize_congr (same : SameSizes left.oqs right.oqs) (code : ErrorCode)
    (size : Nat × Nat → Nat) {algorithm : String}
    (named : getOqsAlgName algorithm = some "ML-DSA-65") :
    getSize left.oqs code (fun scheme => size (publicSizes scheme)) algorithm =
      getSize right.oqs code (fun scheme => size (publicSizes scheme)) algorithm := by
  rw [SameSizes] at same
  simp only [getSize, named]
  cases leftOpened : left.oqs.sigNew "ML-DSA-65" with
  | none =>
      cases rightOpened : right.oqs.sigNew "ML-DSA-65" with
      | none => rfl
      | some rightScheme => simp [leftOpened, rightOpened] at same
  | some leftScheme =>
      cases rightOpened : right.oqs.sigNew "ML-DSA-65" with
      | none => simp [leftOpened, rightOpened] at same
      | some rightScheme =>
          have sizes : publicSizes leftScheme = publicSizes rightScheme := by
            simpa [leftOpened, rightOpened] using same
          simp only [sizes]

theorem getPubkeySize_congr (same : SameSizes left.oqs right.oqs) {algorithm : String}
    (named : getOqsAlgName algorithm = some "ML-DSA-65") :
    getPubkeySize left.oqs algorithm = getPubkeySize right.oqs algorithm :=
  getSize_congr same _ Prod.fst named

theorem getSignatureSize_congr (same : SameSizes left.oqs right.oqs) {algorithm : String}
    (named : getOqsAlgName algorithm = some "ML-DSA-65") :
    getSignatureSize left.oqs algorithm = getSignatureSize right.oqs algorithm :=
  getSize_congr same _ Prod.snd named

/-- Decoding asks for sizes only. -/
theorem decode_congr (same : SameSizes left.oqs right.oqs) (data : Bytes) :
    decode left.oqs data = decode right.oqs data := by
  have pubkeySize : expectedPubkeySize left.oqs = expectedPubkeySize right.oqs := by
    rw [expectedPubkeySize, expectedPubkeySize, getPubkeySize_congr same getOqsAlgName_mlDsa65]
  have sigSize : expectedSigSize left.oqs = expectedSigSize right.oqs := by
    rw [expectedSigSize, expectedSigSize, getSignatureSize_congr same getOqsAlgName_mlDsa65]
  have auth : decodeAuth left.oqs = decodeAuth right.oqs := by
    unfold decodeAuth
    rw [sigSize]
  have body : decodeBody left.oqs = decodeBody right.oqs := by
    unfold decodeBody
    rw [pubkeySize, auth]
  rw [decode, decode, body]

/-- So do the cheap checks. -/
theorem validateCheapChecks_congr (same : SameSizes left.oqs right.oqs) (tx : Transaction)
    (chainId : UInt32) :
    validateCheapChecks left.oqs tx chainId = validateCheapChecks right.oqs tx chainId := by
  have pubkeySize := getPubkeySize_congr same getOqsAlgName_dilithium3
  have sigSize := getSignatureSize_congr same getOqsAlgName_dilithium3
  simp only [validateCheapChecks, checkPubkeySize, checkAuth, checkPqSigSize, pubkeySize, sigSize]

/-! ## Answers -/

/-- The PQ verification of two builds that answer alike. -/
theorem verify_congr {leftScheme rightScheme : OqsSig} {message signature pubkey : Bytes}
    (leftOpened : left.oqs.sigNew "ML-DSA-65" = some leftScheme)
    (rightOpened : right.oqs.sigNew "ML-DSA-65" = some rightScheme)
    (sizes : publicSizes leftScheme = publicSizes rightScheme)
    (alike : leftScheme.verify message signature pubkey =
      rightScheme.verify message signature pubkey) :
    verify left.oqs message signature pubkey "Dilithium3" =
      verify right.oqs message signature pubkey "Dilithium3" := by
  obtain ⟨keySizes, sigSizes⟩ := Prod.mk.inj sizes
  simp only [verify, getOqsAlgName_dilithium3, openSig_of_enabled leftOpened,
    openSig_of_enabled rightOpened, keySizes, sigSizes, alike]

/-- Behind checks that pass, the verification of two builds that answer alike. -/
theorem verifyTransaction_congr (same : SameSizes left.oqs right.oqs)
    (checked : validateCheapChecks left.oqs tx chainId = .ok (.ok ()))
    (alike : AnswerAlike left right tx chainId) :
    verifyTransaction left tx chainId = verifyTransaction right tx chainId := by
  by_cases fits : tx.fromPubkey.length ≤ maxPrefixed
  case neg => rw [verifyTransaction_of_exceeds fits, verifyTransaction_of_exceeds fits]
  case pos =>
      obtain ⟨-, -, -, matched, -⟩ := validateCheapChecks_ok_iff.mp checked
      -- the checks know a key size, so both builds have the scheme
      obtain ⟨leftScheme, leftOpened⟩ : ∃ scheme, left.oqs.sigNew "ML-DSA-65" = some scheme := by
        rw [← Option.ne_none_iff_exists']
        exact fun missing => validateCheapChecks_of_missing missing checked
      obtain ⟨rightScheme, rightOpened, sizes⟩ : ∃ scheme,
          right.oqs.sigNew "ML-DSA-65" = some scheme ∧
            publicSizes scheme = publicSizes leftScheme := by
        rw [SameSizes, leftOpened] at same
        exact Option.map_eq_some_iff.mp same.symm
      have asked := fun accepted =>
        verify_congr leftOpened rightOpened sizes.symm
          (alike.postQuantum accepted leftScheme rightScheme leftOpened rightOpened)
      cases auth : tx.auth with
      | pq signature =>
          have accepted : ClassicalAccepted left tx chainId := by
            rintro other isHybrid
            rw [auth] at isHybrid
            cases isHybrid
          rw [auth] at matched asked
          rw [verifyTransaction_pqOnly fits matched auth,
            verifyTransaction_pqOnly fits matched auth]
          exact congrArg Except.ok (asked accepted)
      | hybrid signature =>
          have classical := alike.classical signature auth
          rw [auth] at matched asked
          rw [verifyTransaction_hybrid fits matched auth,
            verifyTransaction_hybrid fits matched auth, ← classical]
          cases answered : ed25519Verify left.openssl (signingMessage chainId tx)
              signature.classicalSig tx.fromPubkey with
          | err error => rfl
          | ok classicalValid =>
              cases classicalValid with
              | false => rfl
              | true =>
                  have accepted : ClassicalAccepted left tx chainId := by
                    intro other isHybrid
                    rw [auth] at isHybrid
                    cases isHybrid
                    exact answered
                  exact congrArg Except.ok (asked accepted)

/-- Two builds in which ML-DSA-65 has the same sizes decode alike. They validate a
transaction alike as well if it fails the cheap checks, and else if Ed25519 answers alike
on its classical signature and, where that is accepted, ML-DSA-65 on its PQ signature. -/
theorem pipeline_consults (same : SameSizes left.oqs right.oqs) :
    (∀ data, decode left.oqs data = decode right.oqs data) ∧
      ∀ tx chainId, (validateCheapChecks left.oqs tx chainId = .ok (.ok ()) →
          AnswerAlike left right tx chainId) →
        validateTransaction left tx chainId = validateTransaction right tx chainId := by
  refine ⟨decode_congr same, fun tx chainId alike => ?_⟩
  have sameChecks := validateCheapChecks_congr same tx chainId
  rcases checks : validateCheapChecks left.oqs tx chainId with thrown | ⟨⟨⟩⟩ | error
  · rw [validateTransaction, validateTransaction, ← sameChecks, checks]
    rfl
  · rw [validateTransaction_of_checked checks,
      validateTransaction_of_checked (sameChecks.symm.trans checks),
      verifyTransaction_congr same checks (alike checks)]
  · rw [validateTransaction_of_refused checks,
      validateTransaction_of_refused (sameChecks.symm.trans checks)]

/-- A build that verifies every signature and one that verifies none agree on a transaction
of nonce zero. -/
theorem pipeline_consults_zeroNonce :
    validateTransaction (referenceBackend fun _ => true) { zeroKeyTx with nonce := 0 } 1 =
      validateTransaction (referenceBackend fun _ => false) { zeroKeyTx with nonce := 0 } 1 := by
  have same : SameSizes (referenceBackend fun _ => true).oqs
      (referenceBackend fun _ => false).oqs := rfl
  refine (pipeline_consults same).2 _ 1 fun checked => ?_
  obtain ⟨-, fields, -⟩ := validateCheapChecks_ok_iff.mp checked
  exact absurd rfl fields.nonce

end PqcLedger.Tx
