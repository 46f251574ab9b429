import PqcLedger.Tx.Authenticity

/-!
# The mode is not bound

The signing message leaves the mode out, so the PQ signature of a hybrid call
stands on its own: stripped of the classical signature, the transaction is
accepted as a PqOnly one. What acceptance does prove is collected here.
-/

namespace PqcLedger.Tx

open PqcLedger.Cxx PqcLedger.Codec PqcLedger.Crypto

variable {backend : Backend}

/-- A signed transaction, repackaged with its PQ signature alone. -/
def asPqOnly (tx : Transaction) : Transaction :=
  { tx with authMode := .PqOnly, auth := .pq ⟨attachedPqSig tx.auth⟩ }

theorem asPqOnly_sameBody (tx : Transaction) : SameBody (asPqOnly tx) tx :=
  ⟨rfl, rfl, rfl, rfl, rfl, rfl, rfl⟩

/-- The PQ signature of a logged call verifies under the sender's key. -/
theorem LoggedCall.attached_verifies (logged : LoggedCall backend) {scheme : OqsSig}
    (enabled : backend.oqs.sigNew "ML-DSA-65" = some scheme) (correct : scheme.Correct)
    (keyPair : scheme.KeyPair logged.signed.fromPubkey logged.call.pqPrivkey) :
    (attachedPqSig logged.signed.auth).length = scheme.lengthSignature ∧
      verify backend.oqs (signingMessage logged.signed.chainId logged.signed)
        (attachedPqSig logged.signed.auth) logged.signed.fromPubkey "Dilithium3" = .ok true := by
  have spec := logged.spec
  have verified := verify_of_sign getOqsAlgName_dilithium3 (openSig_of_enabled enabled) correct
    keyPair spec.sign
  rw [SigningCall.message, ← spec.body.chainId, ← signingMessage_of_sameBody spec.body] at verified
  exact verified

/-- Stripped of its classical signature, a logged transaction is accepted as PqOnly. -/
theorem LoggedCall.asPqOnly_accepted (logged : LoggedCall backend) {scheme : OqsSig}
    (enabled : backend.oqs.sigNew "ML-DSA-65" = some scheme) (correct : scheme.Correct)
    (keyPair : scheme.KeyPair logged.signed.fromPubkey logged.call.pqPrivkey) :
    verifyTransaction backend (asPqOnly logged.signed) logged.signed.chainId =
      .ok (.ok true) := by
  have fits : (asPqOnly logged.signed).fromPubkey.length ≤ maxPrefixed := by
    rw [(asPqOnly_sameBody logged.signed).fromPubkey, logged.spec.body.fromPubkey]
    exact logged.spec.fits
  rw [verifyTransaction_pqOnly fits rfl rfl, signingMessage_of_sameBody (asPqOnly_sameBody _)]
  exact congrArg Except.ok (logged.attached_verifies enabled correct keyPair).2

/-- With ML-DSA-65 at its standard lengths it is decoded as well. -/
theorem LoggedCall.asPqOnly_decoded (logged : LoggedCall backend) {scheme : OqsSig}
    (enabled : backend.oqs.sigNew "ML-DSA-65" = some scheme) (correct : scheme.Correct)
    (sized : backend.oqs.MlDsa65Sized)
    (keyPair : scheme.KeyPair logged.signed.fromPubkey logged.call.pqPrivkey)
    (version : logged.signed.version = 1) :
    decode backend.oqs (txLayout (asPqOnly logged.signed)) = .ok (asPqOnly logged.signed) := by
  obtain ⟨pubkeySize, sigSize⟩ := sized scheme enabled
  refine decode_txLayout sized ⟨version, keyPair.pubkey_length.trans pubkeySize, rfl, .inr ?_⟩
  exact (logged.attached_verifies enabled correct keyPair).1.trans sigSize

/-- Relative to an unforgeable log, an accepted transaction was signed by some
logged call, whose mode may be the other one; a hybrid transaction has moreover
passed Ed25519 under its sender's key, which at the standard sizes none does: a key
that is decoded has 1952 bytes, and Ed25519 takes 32. And every logged transaction, in
whichever mode it was signed, is accepted in PqOnly mode with its PQ signature alone. -/
theorem accepted_mode_unbound (log : List (LoggedCall backend)) :
    (Unforgeable log → ∀ data tx chainId, CollisionFree log chainId tx →
      decode backend.oqs data = .ok tx →
        verifyTransaction backend tx chainId = .ok (.ok true) →
          (∃ logged ∈ log, SignedBy logged chainId tx) ∧
            ∀ signature, tx.auth = .hybrid signature →
              ed25519Verify backend.openssl (signingMessage chainId tx) signature.classicalSig
                tx.fromPubkey = .ok true) ∧
    ∀ scheme, backend.oqs.sigNew "ML-DSA-65" = some scheme → scheme.Correct →
      backend.oqs.MlDsa65Sized → ∀ logged ∈ log,
        scheme.KeyPair logged.signed.fromPubkey logged.call.pqPrivkey →
          logged.signed.version = 1 →
            decode backend.oqs (txLayout (asPqOnly logged.signed)) =
                .ok (asPqOnly logged.signed) ∧
              verifyTransaction backend (asPqOnly logged.signed) logged.signed.chainId =
                .ok (.ok true) := by
  constructor
  · intro unforgeable data tx chainId collisionFree _ accepted
    refine ⟨accepted_was_signed unforgeable collisionFree accepted, ?_⟩
    intro signature hybrid
    obtain ⟨-, -, signatures⟩ := verifyTransaction_true_iff.mp accepted
    rw [hybrid] at signatures
    exact signatures.1
  · intro scheme enabled correct sized logged _ keyPair version
    exact ⟨logged.asPqOnly_decoded enabled correct sized keyPair version,
      logged.asPqOnly_accepted enabled correct keyPair⟩

/-! ## A downgraded hybrid transaction -/

/-- The Ed25519 signature that the reference backend makes for `zeroKeyTx`. -/
def zeroKeyClassicalSig : Signature :=
  (copyInto 64 ((zeroKey 32).val ++ signingMessage 1 zeroKeyTx)).val

/-- `zeroKeyTx` with both signatures. -/
def zeroKeyHybridSignedTx : Transaction :=
  { zeroKeyTx with
    authMode := .Hybrid, auth := .hybrid ⟨zeroKeyClassicalSig, referenceTxSig zeroKeyTx⟩ }

theorem signTransactionHybrid_zeroKeyTx (signed : Bytes → Bool) :
    signTransactionHybrid (referenceBackend signed) zeroKeyTx (zeroKey 4032).val (zeroKey 32).val
      defaultAlgorithm [] = .ok (.ok (), zeroKeyHybridSignedTx) := by
  rw [signTransactionHybrid_ok_iff]
  exact ⟨zeroKeyTx_fits, zeroKeyClassicalSig, referenceTxSig zeroKeyTx, sign_referenceOqs _ _,
    ed25519Sign_referenceSsl List.length_replicate (signingMessage_length _ _), rfl⟩

/-- `sign_transaction_hybrid` run on `zeroKeyTx`. -/
def zeroKeyHybridCall (signed : Bytes → Bool) : LoggedCall (referenceBackend signed) where
  call := .signTransactionHybrid zeroKeyTx (zeroKey 4032).val (zeroKey 32).val []
  signed := zeroKeyHybridSignedTx
  returned := signTransactionHybrid_zeroKeyTx signed

theorem accepted_mode_unbound_zeroKey :
    (∃ logged ∈ [zeroKeyHybridCall onlyZeroKeyTx], SignedBy logged 1 (referenceSigned zeroKeyTx)) ∧
      verifyTransaction (referenceBackend fun _ => true) (asPqOnly zeroKeyHybridSignedTx) 1 =
        .ok (.ok true) := by
  have unforgeable : Unforgeable [zeroKeyHybridCall onlyZeroKeyTx] :=
    onlyZeroKeyTx_unforgeable (List.mem_singleton.mpr rfl) rfl rfl rfl
  have collisionFree :
      CollisionFree [zeroKeyHybridCall onlyZeroKeyTx] 1 (referenceSigned zeroKeyTx) :=
    collisionFree_of_sameBody (zeroKeyCall onlyZeroKeyTx).spec.body.symm rfl
  constructor
  · exact ((accepted_mode_unbound [zeroKeyHybridCall onlyZeroKeyTx]).1 unforgeable
      (txLayout (referenceSigned zeroKeyTx)) (referenceSigned zeroKeyTx) 1 collisionFree
      decode_zeroKeySigned verifyTransaction_zeroKeySigned).1
  · exact ((accepted_mode_unbound [zeroKeyHybridCall fun _ => true]).2 _ referenceOqs_enabled
      referenceSig_correct referenceOqs_mlDsa65Sized _ (List.mem_singleton.mpr rfl)
      referenceSig_keyPair rfl).2

/-- These fields were only ever signed in hybrid mode, yet a PqOnly transaction
with them is decoded and accepted. -/
theorem mode_downgrade_counterexample :
    Unforgeable [zeroKeyHybridCall onlyZeroKeyTx] ∧
      CollisionFree [zeroKeyHybridCall onlyZeroKeyTx] 1 (referenceSigned zeroKeyTx) ∧
        decode (referenceBackend onlyZeroKeyTx).oqs (txLayout (referenceSigned zeroKeyTx)) =
          .ok (referenceSigned zeroKeyTx) ∧
        verifyTransaction (referenceBackend onlyZeroKeyTx) (referenceSigned zeroKeyTx) 1 =
          .ok (.ok true) ∧
          ¬ ∃ logged ∈ [zeroKeyHybridCall onlyZeroKeyTx],
            SameBody logged.call.tx (referenceSigned zeroKeyTx) ∧
              logged.call.mode = (referenceSigned zeroKeyTx).authMode := by
  refine ⟨onlyZeroKeyTx_unforgeable (List.mem_singleton.mpr rfl) rfl rfl rfl,
    collisionFree_of_sameBody (zeroKeyCall onlyZeroKeyTx).spec.body.symm rfl,
    decode_zeroKeySigned, verifyTransaction_zeroKeySigned, ?_⟩
  rintro ⟨logged, member, -, mode⟩
  rw [List.mem_singleton.mp member] at mode
  exact AuthMode.Hybrid_ne_PqOnly mode

end PqcLedger.Tx
