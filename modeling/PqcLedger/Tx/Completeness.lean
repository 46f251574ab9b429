import PqcLedger.Codec.Base64Canonical
import PqcLedger.Tx.ModeBinding
import PqcLedger.Tx.Validation

/-!
# What a signer's transaction is answered with

In PqOnly mode every stage takes what the stage before it made: the codecs, the
signer, the verifier and the cheap checks agree on one layout and one message.
In hybrid mode the verifier hands the PQ public key to Ed25519, which refuses it.
-/

namespace PqcLedger.Tx

open PqcLedger.Cxx PqcLedger.Codec PqcLedger.Crypto

variable {backend : Backend}

/-! ## Text round trips -/

/-- A well-formed transaction is written as text and read back, in either transport. -/
theorem hex_roundTrip {oqs : Oqs} {tx : Transaction} (sized : oqs.MlDsa65Sized)
    (wellFormed : WellFormed 1952 3309 tx) :
    ∃ hex, encodeTxToHex tx = .ok (.ok hex) ∧ decodeFromHex oqs hex = .ok tx := by
  have representable := wellFormed.representable_mlDsa65
  refine ⟨encodeToHex (txLayout tx), ?_, ?_⟩
  · rw [encodeTxToHex, encodeToText, encode_of_representable representable]
    rfl
  · rw [decodeFromHex_encodeToHex, decode_txLayout sized wellFormed]

theorem base64_roundTrip {oqs : Oqs} {tx : Transaction} (sized : oqs.MlDsa65Sized)
    (wellFormed : WellFormed 1952 3309 tx) :
    ∃ base64, encodeTxToBase64 tx = .ok (.ok base64) ∧ decodeFromBase64 oqs base64 = .ok tx := by
  have representable := wellFormed.representable_mlDsa65
  refine ⟨encodeToBase64 (txLayout tx), ?_, ?_⟩
  · rw [encodeTxToBase64, encodeToText, encode_of_representable representable]
    rfl
  · have isString := encodeToBase64_isString (txLayout_short representable)
    rw [decodeFromBase64_encodeToBase64 oqs isString, decode_txLayout sized wellFormed]

/-! ## PqOnly mode -/

/-- The signature of a correct scheme fills the transaction's place for it, and
is accepted on the transaction's chain. -/
theorem signTransaction_accepted {scheme : OqsSig} {tx signed : Transaction}
    {privkey coins : Bytes} (opened : DefaultScheme backend scheme) (correct : scheme.Correct)
    (keyPair : scheme.KeyPair tx.fromPubkey privkey)
    (signOk : signTransaction backend tx privkey defaultAlgorithm coins = .ok (.ok (), signed)) :
    SameBody signed tx ∧ AuthMatches signed.authMode signed.auth ∧
      AuthSigned scheme.lengthSignature signed.auth ∧
        verifyTransaction backend signed tx.chainId = .ok (.ok true) := by
  obtain ⟨fits, signature, made, rfl⟩ := signTransaction_ok_iff.mp signOk
  obtain ⟨filled, verified⟩ := verify_of_sign getOqsAlgName_dilithium3 opened correct keyPair made
  exact ⟨⟨rfl, rfl, rfl, rfl, rfl, rfl, rfl⟩, rfl, filled,
    verifyTransaction_true_iff.mpr ⟨fits, rfl, verified⟩⟩

/-- The checked fields are part of the body. -/
theorem fieldsChecked_of_sameBody {left right : Transaction} {chainId : UInt32}
    (same : SameBody left right) : FieldsChecked left chainId ↔ FieldsChecked right chainId := by
  have half : ∀ {left right : Transaction}, SameBody left right →
      FieldsChecked left chainId → FieldsChecked right chainId := by
    intro left right same fields
    refine ⟨same.chainId ▸ fields.chainId, ?_, ?_, ?_⟩
    · exact same.nonce ▸ fields.nonce
    · exact same.amount ▸ fields.amount
    · exact same.fee ▸ fields.fee
  exact ⟨half same, half same.symm⟩

/-- A transaction made from generated keys survives both transports, before and
after signing; once signed it verifies on its chain, and is valid there exactly
when its nonce, amount and fee are non-zero. -/
theorem pqOnly_pipeline {scheme : OqsSig} {keyCoins : Bytes} {pubkey : PublicKey} {privkey : Bytes}
    (enabled : backend.oqs.sigNew "ML-DSA-65" = some scheme) (sized : backend.oqs.MlDsa65Sized)
    (correct : scheme.Correct)
    (generated : generateKeypair backend.oqs "Dilithium3" keyCoins = .ok (pubkey, privkey))
    (chainId : UInt32) (nonce : UInt64) (toAddr : Address) (amount fee : UInt64) :
    ∃ hex, encodeTxToHex (unsignedTx chainId nonce pubkey toAddr amount fee) = .ok (.ok hex) ∧
      decodeFromHex backend.oqs hex = .ok (unsignedTx chainId nonce pubkey toAddr amount fee) ∧
      ∀ coins signed,
        signTransaction backend (unsignedTx chainId nonce pubkey toAddr amount fee) privkey
            defaultAlgorithm coins = .ok (.ok (), signed) →
          (∃ hex, encodeTxToHex signed = .ok (.ok hex) ∧
              decodeFromHex backend.oqs hex = .ok signed) ∧
            (∃ base64, encodeTxToBase64 signed = .ok (.ok base64) ∧
              decodeFromBase64 backend.oqs base64 = .ok signed) ∧
            SameBody signed (unsignedTx chainId nonce pubkey toAddr amount fee) ∧
            verifyTransaction backend signed chainId = .ok (.ok true) ∧
            (validateTransaction backend signed chainId = .ok (.ok true) ↔
              nonce ≠ 0 ∧ amount ≠ 0 ∧ fee ≠ 0) := by
  have keyPair : scheme.KeyPair pubkey privkey :=
    generateKeypair_ok getOqsAlgName_dilithium3 (openSig_of_enabled enabled) generated
  obtain ⟨pubkeySize, sigSize⟩ := sized scheme enabled
  have pubkeySized : pubkey.length = 1952 := keyPair.pubkey_length.trans pubkeySize
  obtain ⟨hex, written, read⟩ := hex_roundTrip sized
    (unsignedTx_wellFormed 3309 pubkeySized chainId nonce toAddr amount fee)
  refine ⟨hex, written, read, ?_⟩
  intro coins signed signOk
  obtain ⟨body, matched, filled, accepted⟩ :=
    signTransaction_accepted (openSig_of_enabled enabled) correct keyPair signOk
  have wellFormed : WellFormed 1952 3309 signed :=
    ⟨body.version, by rw [body.fromPubkey]; exact pubkeySized, matched, by
      rw [← sigSize]
      exact filled.sized⟩
  have fields : FieldsChecked signed chainId ↔ nonce ≠ 0 ∧ amount ≠ 0 ∧ fee ≠ 0 := by
    rw [fieldsChecked_of_sameBody body]
    exact unsignedTx_fieldsChecked
  refine ⟨hex_roundTrip sized wellFormed, base64_roundTrip sized wellFormed, body, accepted, ?_⟩
  have cheap : validateCheapChecks backend.oqs signed chainId = .ok (.ok ()) ↔
      FieldsChecked signed chainId :=
    validateCheapChecks_of_signed enabled wellFormed.version
      (wellFormed.pubkeySized.trans pubkeySize.symm) matched filled
  rw [validateTransaction_true_iff, cheap, fields]
  exact ⟨fun both => both.1, fun nonzero => ⟨nonzero, accepted⟩⟩

theorem pqOnly_pipeline_zeroKey :
    validateTransaction (referenceBackend fun _ => true) (referenceSigned zeroKeyTx) 1 =
      .ok (.ok true) := by
  have generated : generateKeypair (referenceBackend fun _ => true).oqs "Dilithium3" [] =
      .ok ((zeroKey 1952).val, (zeroKey 4032).val) := generateKeypair_referenceOqs _
  obtain ⟨hex, written, read, afterSigning⟩ := pqOnly_pipeline referenceOqs_enabled
    referenceOqs_mlDsa65Sized referenceSig_correct generated 1 1 (zeroKey 32) 1000 10
  obtain ⟨-, -, -, -, valid⟩ := afterSigning [] (referenceSigned zeroKeyTx)
    (signTransaction_reference _ zeroKeyTx_fits)
  exact valid.mpr (by decide)

/-! ## Hybrid mode -/

/-- Ed25519 refuses any sender's key that is not of its own size. -/
theorem verifyTransaction_hybrid_refused {ssl : OpenSsl} {tx : Transaction} {chainId : UInt32}
    {signature : HybridSignature} (built : backend.openssl = some ssl)
    (fits : tx.fromPubkey.length ≤ maxPrefixed) (wrongSize : tx.fromPubkey.length ≠ 32)
    (mode : tx.authMode = .Hybrid) (auth : tx.auth = .hybrid signature) :
    verifyTransaction backend tx chainId =
      .ok (.err ⟨.InvalidPublicKey, "Invalid Ed25519 public key size"⟩) := by
  rw [verifyTransaction_hybrid fits mode auth, built, ed25519Verify_wrong_size wrongSize]

/-- Whatever the hybrid signer returns for an ML-DSA-65 sender is answered with
an error about the size of the Ed25519 key, never with acceptance. -/
theorem hybrid_never_accepted {ssl : OpenSsl} {scheme : OqsSig} {tx signed : Transaction}
    {pqPrivkey ed25519Privkey coins : Bytes} (built : backend.openssl = some ssl)
    (enabled : backend.oqs.sigNew "ML-DSA-65" = some scheme) (sized : backend.oqs.MlDsa65Sized)
    (keyPair : scheme.KeyPair tx.fromPubkey pqPrivkey)
    (signOk : signTransactionHybrid backend tx pqPrivkey ed25519Privkey defaultAlgorithm coins =
      .ok (.ok (), signed)) :
    verifyTransaction backend signed tx.chainId =
        .ok (.err ⟨.InvalidPublicKey, "Invalid Ed25519 public key size"⟩) ∧
      verifyTransaction backend signed tx.chainId ≠ .ok (.ok true) := by
  obtain ⟨fits, classicalSig, pqSig, -, -, signedIs⟩ := signTransactionHybrid_ok_iff.mp signOk
  have sameKey : signed.fromPubkey = tx.fromPubkey := by rw [signedIs]
  have wrongSize : signed.fromPubkey.length ≠ 32 := by
    rw [sameKey, keyPair.pubkey_length, (sized scheme enabled).1]
    decide
  have signedFits : signed.fromPubkey.length ≤ maxPrefixed := by rw [sameKey]; exact fits
  have mode : signed.authMode = .Hybrid := by rw [signedIs]
  have auth : signed.auth = .hybrid ⟨classicalSig, pqSig⟩ := by rw [signedIs]
  have refused : verifyTransaction backend signed tx.chainId =
      .ok (.err ⟨.InvalidPublicKey, "Invalid Ed25519 public key size"⟩) :=
    verifyTransaction_hybrid_refused built signedFits wrongSize mode auth
  refine ⟨refused, ?_⟩
  rw [refused]
  intro accepted
  cases accepted

theorem hybrid_never_accepted_zeroKey :
    verifyTransaction (referenceBackend fun _ => true) zeroKeyHybridSignedTx zeroKeyTx.chainId =
        .ok (.err ⟨.InvalidPublicKey, "Invalid Ed25519 public key size"⟩) ∧
      verifyTransaction (referenceBackend fun _ => true) zeroKeyHybridSignedTx
        zeroKeyTx.chainId ≠ .ok (.ok true) :=
  hybrid_never_accepted rfl referenceOqs_enabled referenceOqs_mlDsa65Sized referenceSig_keyPair
    (signTransactionHybrid_zeroKeyTx fun _ => true)

theorem zeroKeyHybridSignedTx_fits : zeroKeyHybridSignedTx.fromPubkey.length ≤ maxPrefixed :=
  zeroKeyTx_fits

/-- With both primitives correct and both key pairs genuine, the hybrid signer
succeeds and its transaction is not accepted. -/
theorem hybrid_completeness_counterexample :
    (referenceSig fun _ => true).Correct ∧ Ed25519Correct (some referenceSsl) ∧
      (referenceSig fun _ => true).KeyPair zeroKeyTx.fromPubkey (zeroKey 4032).val ∧
        generateEd25519Keypair (some referenceSsl) [] =
          .ok ((copyInto 32 []).val, (copyInto 32 []).val) ∧
        signTransactionHybrid (referenceBackend fun _ => true) zeroKeyTx (zeroKey 4032).val
          (copyInto 32 []).val defaultAlgorithm [] = .ok (.ok (), zeroKeyHybridSignedTx) ∧
          verifyTransaction (referenceBackend fun _ => true) zeroKeyHybridSignedTx 1 ≠
            .ok (.ok true) := by
  have wrongSize : zeroKeyHybridSignedTx.fromPubkey.length ≠ 32 := by
    have sized : zeroKeyHybridSignedTx.fromPubkey.length = 1952 := List.length_replicate
    rw [sized]
    decide
  refine ⟨referenceSig_correct, referenceSsl_correct, referenceSig_keyPair,
    generateEd25519Keypair_referenceSsl [], signTransactionHybrid_zeroKeyTx fun _ => true, ?_⟩
  rw [verifyTransaction_hybrid_refused rfl zeroKeyHybridSignedTx_fits wrongSize rfl rfl]
  intro accepted
  cases accepted

end PqcLedger.Tx
