import PqcLedger.Tx.Completeness

/-!
# The choice of algorithm

Key generation and the signers take an algorithm name and replace an unavailable
algorithm by another. The verifier, the decoder and the cheap checks have one
name of their own, and the sizes have no replacement.
-/

namespace PqcLedger.Tx

open PqcLedger.Cxx PqcLedger.Codec PqcLedger.Crypto

variable {backend : Backend} {keyCoins coins : Bytes} {pubkey : PublicKey} {privkey : Bytes}
  {tx signed : Transaction}

/-! ## Any offered algorithm -/

/-- A parameter set is enabled and correct, with a public key of this length. -/
def Offered (oqs : Oqs) (algName : String) (pubkeySize : Nat) : Prop :=
  ∃ scheme, oqs.sigNew algName = some scheme ∧ scheme.Correct ∧
    scheme.lengthPublicKey = pubkeySize

/-- The three parameter sets, with the key lengths of the standard. -/
structure AllOffered (oqs : Oqs) : Prop where
  mlDsa44 : Offered oqs "ML-DSA-44" 1312
  mlDsa65 : Offered oqs "ML-DSA-65" 1952
  mlDsa87 : Offered oqs "ML-DSA-87" 2592

/-- A known name other than those of ML-DSA-65 makes keys of another length. -/
theorem AllOffered.other {oqs : Oqs} {algorithm algName : String} (offered : AllOffered oqs)
    (named : getOqsAlgName algorithm = some algName) (other : algorithm ∉ mlDsa65Names) :
    ∃ scheme, oqs.sigNew algName = some scheme ∧ scheme.lengthPublicKey ≠ 1952 := by
  rcases getOqsAlgName_cases named with rfl | rfl | rfl
  · exact absurd (getOqsAlgName_mlDsa65_iff.mp named) other
  · obtain ⟨scheme, enabled, -, sized⟩ := offered.mlDsa44
    exact ⟨scheme, enabled, by rw [sized]; decide⟩
  · obtain ⟨scheme, enabled, -, sized⟩ := offered.mlDsa87
    exact ⟨scheme, enabled, by rw [sized]; decide⟩

/-- With all three parameter sets enabled, what is signed with generated keys of a
known name is accepted exactly for the names of ML-DSA-65, and answered with false
for the others. -/
theorem offered_algorithms_iff {algorithm algName : String} (offered : AllOffered backend.oqs)
    (named : getOqsAlgName algorithm = some algName)
    (generated : generateKeypair backend.oqs algorithm keyCoins = .ok (pubkey, privkey))
    (sender : tx.fromPubkey = pubkey)
    (signOk : signTransaction backend tx privkey algorithm coins = .ok (.ok (), signed)) :
    (verifyTransaction backend signed signed.chainId = .ok (.ok true) ↔
        algorithm ∈ mlDsa65Names) ∧
      (algorithm ∉ mlDsa65Names →
        verifyTransaction backend signed signed.chainId = .ok (.ok false)) := by
  obtain ⟨fits, signature, made, signedIs⟩ := signTransaction_ok_iff.mp signOk
  obtain ⟨scheme65, enabled65, correct65, sized65⟩ := offered.mlDsa65
  have refused : algorithm ∉ mlDsa65Names →
      verify backend.oqs (signingMessage tx.chainId tx) signature tx.fromPubkey "Dilithium3" =
        .ok false := by
    intro other
    obtain ⟨scheme, enabled, otherSize⟩ := offered.other named other
    have keyPair := generateKeypair_ok named (openSig_of_enabled enabled) generated
    refine verify_wrong_pubkey getOqsAlgName_dilithium3 (openSig_of_enabled enabled65) ?_ _ _
    rw [sender, keyPair.pubkey_length, sized65]
    exact otherSize
  have accepted : algorithm ∈ mlDsa65Names →
      verify backend.oqs (signingMessage tx.chainId tx) signature tx.fromPubkey "Dilithium3" =
        .ok true := by
    intro member
    have named65 := getOqsAlgName_mlDsa65_iff.mpr member
    have keyPair := generateKeypair_ok named65 (openSig_of_enabled enabled65) generated
    rw [← sender] at keyPair
    obtain ⟨-, verified⟩ := verify_of_sign named65 (openSig_of_enabled enabled65) correct65 keyPair
      made
    rw [verify_renamed getOqsAlgName_dilithium3 named65 enabled65]
    exact verified
  have verifies : verifyTransaction backend signed signed.chainId =
      .ok (verify backend.oqs (signingMessage tx.chainId tx) signature tx.fromPubkey
        "Dilithium3") := by
    rw [signedIs]
    exact verifyTransaction_pqOnly fits rfl rfl
  rw [verifies]
  by_cases member : algorithm ∈ mlDsa65Names
  · rw [accepted member]
    exact ⟨iff_of_true rfl member, fun other => absurd member other⟩
  · rw [refused member]
    exact ⟨iff_of_false (fun same => by cases same) member, fun _ => rfl⟩

/-- A liboqs with the three parameter sets. -/
def offeredOqs : Oqs where
  sigNew := fun name =>
    if name = "ML-DSA-44" then some (sizedSig 1312 2560 2420)
    else if name = "ML-DSA-65" then some (sizedSig 1952 4032 3309)
    else if name = "ML-DSA-87" then some (sizedSig 2592 4896 4627)
    else none

theorem offeredOqs_mlDsa44 : offeredOqs.sigNew "ML-DSA-44" = some (sizedSig 1312 2560 2420) := rfl

theorem offeredOqs_allOffered : AllOffered offeredOqs where
  mlDsa44 := ⟨_, offeredOqs_mlDsa44, sizedSig_correct, rfl⟩
  mlDsa65 := ⟨sizedSig 1952 4032 3309, rfl, sizedSig_correct, rfl⟩
  mlDsa87 := ⟨sizedSig 2592 4896 4627, rfl, sizedSig_correct, rfl⟩

/-- The backend linked with it. -/
def offeredBackend : Backend := ⟨offeredOqs, some referenceSsl⟩

/-- A transfer under the ML-DSA-44 key of 1312 zero bytes. -/
def mlDsa44Tx : Transaction := unsignedTx 1 1 (zeroKey 1312).val (zeroKey 32) 1000 10

/-- The transfer as it is signed under its own algorithm. -/
def mlDsa44SignedTx : Transaction :=
  { mlDsa44Tx with auth := .pq ⟨(copyInto 2420 (signingMessage 1 mlDsa44Tx)).val⟩ }

theorem mlDsa44Tx_fits : mlDsa44Tx.fromPubkey.length ≤ maxPrefixed := by
  have sized : mlDsa44Tx.fromPubkey.length = 1312 := (zeroKey 1312).property
  rw [sized]
  decide

theorem generateKeypair_dilithium2 :
    generateKeypair offeredBackend.oqs "Dilithium2" [] =
      .ok ((zeroKey 1312).val, (zeroKey 2560).val) :=
  generateKeypair_sizedSig getOqsAlgName_dilithium2 (openSig_of_enabled offeredOqs_mlDsa44) []

theorem signTransaction_dilithium2 :
    signTransaction offeredBackend mlDsa44Tx (zeroKey 2560).val "Dilithium2" [] =
      .ok (.ok (), mlDsa44SignedTx) := by
  rw [signTransaction_ok_iff]
  exact ⟨mlDsa44Tx_fits, _, sign_sizedSig getOqsAlgName_dilithium2
    (openSig_of_enabled offeredOqs_mlDsa44) _ [], rfl⟩

theorem offered_algorithms_iff_dilithium2 :
    verifyTransaction offeredBackend mlDsa44SignedTx 1 = .ok (.ok false) :=
  (offered_algorithms_iff offeredOqs_allOffered getOqsAlgName_dilithium2 generateKeypair_dilithium2
    rfl signTransaction_dilithium2).2 (by decide)

/-- A transaction signed under a generated ML-DSA-44 key is not accepted. -/
theorem offered_algorithms_counterexample :
    AllOffered offeredBackend.oqs ∧ getOqsAlgName "Dilithium2" = some "ML-DSA-44" ∧
      generateKeypair offeredBackend.oqs "Dilithium2" [] =
        .ok (mlDsa44Tx.fromPubkey, (zeroKey 2560).val) ∧
      signTransaction offeredBackend mlDsa44Tx (zeroKey 2560).val "Dilithium2" [] =
        .ok (.ok (), mlDsa44SignedTx) ∧
      verifyTransaction offeredBackend mlDsa44SignedTx mlDsa44SignedTx.chainId ≠
        .ok (.ok true) := by
  refine ⟨offeredOqs_allOffered, getOqsAlgName_dilithium2, generateKeypair_dilithium2,
    signTransaction_dilithium2, ?_⟩
  intro accepted
  obtain ⟨-, -, verified⟩ := verifyTransaction_true_iff.mp accepted
  have enabled : offeredBackend.oqs.sigNew "ML-DSA-65" = some (sizedSig 1952 4032 3309) := rfl
  obtain ⟨keySized, -⟩ := verify_true_sizes getOqsAlgName_dilithium3 enabled verified
  have actual : mlDsa44SignedTx.fromPubkey.length = 1312 := (zeroKey 1312).property
  rw [actual] at keySized
  exact absurd keySized (by decide)

/-! ## Any enabled algorithm -/

/-- Every enabled algorithm is correct. -/
def EnabledCorrect (oqs : Oqs) : Prop :=
  ∀ name scheme, oqs.sigNew name = some scheme → scheme.Correct

/-- A signed version-1 transaction of the sizes of the enabled ML-DSA-65 is decoded
from its encoding exactly when its signature fits a length prefix. -/
theorem decode_encode_signed_iff {scheme : OqsSig}
    (enabled : backend.oqs.sigNew "ML-DSA-65" = some scheme)
    (fits : signed.fromPubkey.length ≤ maxPrefixed) (version : signed.version = 1)
    (pubkeySized : signed.fromPubkey.length = scheme.lengthPublicKey)
    {signature : Signature} (mode : signed.authMode = .PqOnly) (auth : signed.auth = .pq ⟨signature⟩)
    (sigSized : signature.length = scheme.lengthSignature) :
    (∃ data, encode signed = .ok (.ok data) ∧ decode backend.oqs data = .ok signed) ↔
      scheme.lengthSignature ≤ maxPrefixed := by
  rw [← sigSized]
  constructor
  · rintro ⟨data, -, decoded⟩
    have authFits := (decode_ok_iff.mp decoded).2.1.authFits
    rw [auth] at authFits
    exact authFits
  · intro sigFits
    have matched : AuthMatches signed.authMode signed.auth := by
      rw [auth]
      exact mode
    have representable : Representable signed := ⟨fits, matched, by rw [auth]; exact sigFits⟩
    have authSized : AuthSized scheme.lengthSignature signed.auth := by
      rw [auth]
      exact .inr sigSized
    refine ⟨txLayout signed, encode_of_representable representable, decode_ok_iff.mpr ?_⟩
    rw [expectedPubkeySize_of_enabled enabled, expectedSigSize_of_enabled enabled]
    exact ⟨⟨version, pubkeySized, matched, authSized⟩, representable, rfl⟩

/-- What is signed with keys generated under the default name is decoded from its
encoding and valid exactly when ML-DSA-65 itself is enabled, and its signatures
fit a length prefix. No replacement of it carries through. -/
theorem fallback_consistent_iff (correct : EnabledCorrect backend.oqs)
    (generated : generateKeypair backend.oqs "Dilithium3" keyCoins = .ok (pubkey, privkey))
    (version : tx.version = 1) (sender : tx.fromPubkey = pubkey)
    (nonzero : tx.nonce ≠ 0 ∧ tx.amount ≠ 0 ∧ tx.fee ≠ 0)
    (signOk : signTransaction backend tx privkey defaultAlgorithm coins = .ok (.ok (), signed)) :
    (∃ data, encode signed = .ok (.ok data) ∧ decode backend.oqs data = .ok signed) ∧
        validateTransaction backend signed tx.chainId = .ok (.ok true) ↔
      ∃ scheme, backend.oqs.sigNew "ML-DSA-65" = some scheme ∧
        scheme.lengthSignature ≤ 65535 := by
  cases enabled : backend.oqs.sigNew "ML-DSA-65" with
  | none =>
      refine iff_of_false ?_ (by simp)
      rintro ⟨-, valid⟩
      obtain ⟨cheap, -⟩ := validateTransaction_true_iff.mp valid
      exact validateCheapChecks_of_missing enabled cheap
  | some scheme =>
      have opened : DefaultScheme backend scheme := openSig_of_enabled enabled
      have keyPair := generateKeypair_ok getOqsAlgName_dilithium3 opened generated
      rw [← sender] at keyPair
      obtain ⟨body, matched, filled, accepted⟩ :=
        signTransaction_accepted opened (correct _ scheme enabled) keyPair signOk
      obtain ⟨fits, signature, -, signedIs⟩ := signTransaction_ok_iff.mp signOk
      have pubkeySized : signed.fromPubkey.length = scheme.lengthPublicKey := by
        rw [body.fromPubkey, keyPair.pubkey_length]
      have fields : FieldsChecked signed tx.chainId :=
        (fieldsChecked_of_sameBody body).mpr ⟨rfl, nonzero.1, nonzero.2.1, nonzero.2.2⟩
      have valid : validateTransaction backend signed tx.chainId = .ok (.ok true) :=
        validateTransaction_true_iff.mpr ⟨(validateCheapChecks_of_signed enabled
          (body.version.trans version) pubkeySized matched filled).mpr fields, accepted⟩
      have mode : signed.authMode = .PqOnly := by rw [signedIs]
      have auth : signed.auth = .pq ⟨signature⟩ := by rw [signedIs]
      have signedFits : signed.fromPubkey.length ≤ maxPrefixed := by
        rw [body.fromPubkey]
        exact fits
      have sigSized : signature.length = scheme.lengthSignature := by
        rw [auth] at filled
        exact filled
      rw [decode_encode_signed_iff enabled signedFits (body.version.trans version) pubkeySized mode
        auth sigSized]
      simp [valid, maxPrefixed]

theorem fallback_consistent_iff_zeroKey :
    (∃ data, encode (referenceSigned zeroKeyTx) = .ok (.ok data) ∧
        decode (referenceBackend fun _ => true).oqs data = .ok (referenceSigned zeroKeyTx)) ∧
      validateTransaction (referenceBackend fun _ => true) (referenceSigned zeroKeyTx) 1 =
        .ok (.ok true) := by
  have correct : EnabledCorrect (referenceBackend fun _ => true).oqs := by
    intro name scheme opened
    rw [referenceOqs_only opened]
    exact referenceSig_correct
  exact (fallback_consistent_iff correct (generateKeypair_referenceOqs []) rfl rfl
    ⟨by decide, by decide, by decide⟩ (signTransaction_reference _ zeroKeyTx_fits)).mpr
    ⟨_, referenceOqs_enabled, by decide⟩

/-- A build of liboqs with ML-DSA-44 alone. -/
def fallbackOqs : Oqs where
  sigNew := fun name => if name = "ML-DSA-44" then some (sizedSig 1312 2560 2420) else none

/-- The backend linked with it. -/
def fallbackBackend : Backend := ⟨fallbackOqs, some referenceSsl⟩

theorem fallbackBackend_missing : fallbackBackend.oqs.sigNew "ML-DSA-65" = none := rfl

/-- The default name opens the one algorithm there is. -/
theorem openSig_fallbackOqs :
    openSig fallbackOqs "Dilithium3" "ML-DSA-65" = some (sizedSig 1312 2560 2420) := rfl

theorem fallbackOqs_correct : EnabledCorrect fallbackOqs := by
  intro name scheme opened
  change (if name = "ML-DSA-44" then _ else none) = some scheme at opened
  by_cases mlDsa44 : name = "ML-DSA-44"
  · rw [if_pos mlDsa44] at opened
    cases opened
    exact sizedSig_correct
  · rw [if_neg mlDsa44] at opened
    cases opened

theorem generateKeypair_fallback :
    generateKeypair fallbackBackend.oqs "Dilithium3" [] =
      .ok ((zeroKey 1312).val, (zeroKey 2560).val) :=
  generateKeypair_sizedSig getOqsAlgName_dilithium3 openSig_fallbackOqs []

theorem signTransaction_fallback :
    signTransaction fallbackBackend mlDsa44Tx (zeroKey 2560).val defaultAlgorithm [] =
      .ok (.ok (), mlDsa44SignedTx) := by
  rw [signTransaction_ok_iff]
  exact ⟨mlDsa44Tx_fits, _, sign_sizedSig getOqsAlgName_dilithium3 openSig_fallbackOqs _ [], rfl⟩

/-- Under a replaced algorithm the signed transaction verifies, yet it is neither
decoded nor valid. -/
theorem fallback_counterexample :
    EnabledCorrect fallbackBackend.oqs ∧
      generateKeypair fallbackBackend.oqs "Dilithium3" [] =
        .ok (mlDsa44Tx.fromPubkey, (zeroKey 2560).val) ∧
      signTransaction fallbackBackend mlDsa44Tx (zeroKey 2560).val defaultAlgorithm [] =
        .ok (.ok (), mlDsa44SignedTx) ∧
      verifyTransaction fallbackBackend mlDsa44SignedTx 1 = .ok (.ok true) ∧
      (∀ data, decode fallbackBackend.oqs data ≠ .ok mlDsa44SignedTx) ∧
      validateTransaction fallbackBackend mlDsa44SignedTx 1 ≠ .ok (.ok true) := by
  have keyPair : (sizedSig 1312 2560 2420).KeyPair mlDsa44Tx.fromPubkey (zeroKey 2560).val :=
    generateKeypair_ok getOqsAlgName_dilithium3 openSig_fallbackOqs generateKeypair_fallback
  have opened : DefaultScheme fallbackBackend (sizedSig 1312 2560 2420) := openSig_fallbackOqs
  obtain ⟨-, -, -, accepted⟩ :=
    signTransaction_accepted opened sizedSig_correct keyPair signTransaction_fallback
  refine ⟨fallbackOqs_correct, generateKeypair_fallback, signTransaction_fallback, accepted, ?_, ?_⟩
  · intro data decoded
    obtain ⟨wellFormed, -, -⟩ := decode_ok_iff.mp decoded
    have expected : expectedPubkeySize fallbackBackend.oqs = 1952 := rfl
    have actual : mlDsa44SignedTx.fromPubkey.length = 1312 := (zeroKey 1312).property
    have sized := wellFormed.pubkeySized
    rw [expected, actual] at sized
    exact absurd sized (by decide)
  · intro valid
    obtain ⟨cheap, -⟩ := validateTransaction_true_iff.mp valid
    exact validateCheapChecks_of_missing fallbackBackend_missing cheap

end PqcLedger.Tx
