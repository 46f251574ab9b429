import PqcLedger.Crypto.Classical
import PqcLedger.Crypto.Pq

/-!
# A reference backend

A signature scheme and an Ed25519 implementation that meet the assumptions made
of liboqs and OpenSSL, with the lengths of the real ones, so that results under
these assumptions apply somewhere. A signature here spells out what it signs.
-/

namespace PqcLedger.Crypto

open PqcLedger.Cxx

/-- A key of zero bytes. -/
def zeroKey (count : Nat) : SizedBytes count := ⟨List.replicate count 0, List.length_replicate⟩

/-- The scheme of one key pair: a message is its own signature, zero filled, and
is accepted if it is known to have been signed. -/
def referenceSig (signed : Bytes → Bool) : OqsSig where
  lengthPublicKey := 1952
  lengthSecretKey := 4032
  lengthSignature := 3309
  keypair := fun _ => .ok (zeroKey 1952, zeroKey 4032)
  sign := fun _ message _ => .ok (copyInto 3309 message, 3309)
  verify := fun message signature pubkey =>
    signed message && signature == (copyInto 3309 message).val && pubkey == (zeroKey 1952).val
  freedLengthSecretKey := fun _ => 4032

/-- A liboqs that enables only ML-DSA-65, as the reference scheme. -/
def referenceOqs (signed : Bytes → Bool) : Oqs where
  sigNew := fun name => if name = "ML-DSA-65" then some (referenceSig signed) else none

/-- The same scheme with other lengths, where every message may be signed. -/
def sizedSig (pubkeySize privkeySize sigSize : Nat) : OqsSig where
  lengthPublicKey := pubkeySize
  lengthSecretKey := privkeySize
  lengthSignature := sigSize
  keypair := fun _ => .ok (zeroKey pubkeySize, zeroKey privkeySize)
  sign := fun _ message _ => .ok (copyInto sigSize message, sigSize)
  verify := fun message signature pubkey =>
    signature == (copyInto sigSize message).val && pubkey == (zeroKey pubkeySize).val
  freedLengthSecretKey := fun _ => privkeySize

/-- An OpenSSL whose keys are their own public halves. -/
def referenceSsl : OpenSsl where
  PKey := SizedBytes 32
  ctxNewId := true
  keygenInit := true
  keygen := fun coins => some (copyInto 32 coins)
  getRawPublicKey := some
  getRawPrivateKey := some
  newRawPrivateKey := fun bytes => if sized : bytes.length = 32 then some ⟨bytes, sized⟩ else none
  newRawPublicKey := fun bytes => if sized : bytes.length = 32 then some ⟨bytes, sized⟩ else none
  mdCtxNew := true
  digestSign := fun pkey message => some (copyInto 64 (pkey.val ++ message))
  digestVerify := fun pkey signature message =>
    signature == (copyInto 64 (pkey.val ++ message)).val

section Oqs

variable {signed : Bytes → Bool}

theorem referenceOqs_enabled :
    (referenceOqs signed).sigNew "ML-DSA-65" = some (referenceSig signed) := by
  simp [referenceOqs]

/-- Whatever is enabled is the reference scheme. -/
theorem referenceOqs_only {name : String} {scheme : OqsSig}
    (opened : (referenceOqs signed).sigNew name = some scheme) : scheme = referenceSig signed := by
  by_cases mlDsa65 : name = "ML-DSA-65"
  · rw [mlDsa65, referenceOqs_enabled] at opened
    exact (Option.some.inj opened).symm
  · have missing : (referenceOqs signed).sigNew name = none := if_neg mlDsa65
    rw [missing] at opened
    cases opened

theorem referenceOqs_mlDsa65Sized : (referenceOqs signed).MlDsa65Sized := by
  intro sig opened
  rw [referenceOqs_only opened]
  exact ⟨rfl, rfl⟩

theorem referenceSig_keyPair :
    (referenceSig signed).KeyPair (zeroKey 1952).val (zeroKey 4032).val :=
  ⟨[], zeroKey 1952, zeroKey 4032, rfl, rfl, rfl⟩

theorem referenceSig_verify_iff {message signature pubkey : Bytes} :
    (referenceSig signed).verify message signature pubkey = true ↔
      signed message = true ∧ signature = (copyInto 3309 message).val ∧
        pubkey = (zeroKey 1952).val := by
  simp [referenceSig, and_assoc]

/-- Where every message may be signed, the reference scheme is correct. -/
theorem referenceSig_correct : (referenceSig fun _ => true).Correct := by
  rintro pubkey privkey ⟨coins, pubBuffer, privBuffer, made, rfl, rfl⟩ signCoins message buffer
    length signedOk
  cases made
  cases signedOk
  exact ⟨rfl, referenceSig_verify_iff.mpr ⟨rfl, rfl, rfl⟩⟩

theorem generateKeypair_referenceOqs (coins : Bytes) :
    generateKeypair (referenceOqs signed) "Dilithium3" coins =
      .ok ((zeroKey 1952).val, (zeroKey 4032).val) :=
  generateKeypair_of_opened getOqsAlgName_dilithium3 (openSig_of_enabled referenceOqs_enabled) rfl

theorem sign_referenceOqs (message coins : Bytes) :
    sign (referenceOqs signed) message (zeroKey 4032).val "Dilithium3" coins =
      .ok (copyInto 3309 message).val :=
  sign_of_opened getOqsAlgName_dilithium3 (openSig_of_enabled referenceOqs_enabled)
    List.length_replicate rfl

end Oqs

section Sized

variable {oqs : Oqs} {algorithm algName : String} {pubkeySize privkeySize sigSize : Nat}

theorem sizedSig_correct : (sizedSig pubkeySize privkeySize sigSize).Correct := by
  rintro pubkey privkey ⟨coins, pubBuffer, privBuffer, made, rfl, rfl⟩ signCoins message buffer
    length signedOk
  cases made
  cases signedOk
  simp [sizedSig]

/-- Where the scheme is opened, its one key pair is generated and signs. -/
theorem generateKeypair_sizedSig (named : getOqsAlgName algorithm = some algName)
    (opened : openSig oqs algorithm algName = some (sizedSig pubkeySize privkeySize sigSize))
    (coins : Bytes) :
    generateKeypair oqs algorithm coins =
      .ok ((zeroKey pubkeySize).val, (zeroKey privkeySize).val) :=
  generateKeypair_of_opened named opened rfl

theorem sign_sizedSig (named : getOqsAlgName algorithm = some algName)
    (opened : openSig oqs algorithm algName = some (sizedSig pubkeySize privkeySize sigSize))
    (message coins : Bytes) :
    sign oqs message (zeroKey privkeySize).val algorithm coins =
      .ok (copyInto sigSize message).val :=
  sign_of_opened named opened List.length_replicate rfl

end Sized

/-- Signing prepends the key to the message. -/
theorem ed25519Sign_referenceSsl {message privkey : Bytes} (keySized : privkey.length = 32)
    (hashed : message.length = 32) :
    ed25519Sign (some referenceSsl) message privkey =
      .ok (copyInto 64 (privkey ++ message)).val := by
  simp [ed25519Sign, referenceSsl, ed25519PrivateKeyLen, keySized, hashed]

theorem ed25519Verify_referenceSsl {message pubkey : Bytes} (keySized : pubkey.length = 32)
    (hashed : message.length = 32) :
    ed25519Verify (some referenceSsl) message (copyInto 64 (pubkey ++ message)).val pubkey =
      .ok true := by
  have sigSized := (copyInto 64 (pubkey ++ message)).property
  simp [ed25519Verify, referenceSsl, ed25519PubkeySize, ed25519SigSize, keySized, hashed, sigSized]

theorem generateEd25519Keypair_referenceSsl (coins : Bytes) :
    generateEd25519Keypair (some referenceSsl) coins =
      .ok ((copyInto 32 coins).val, (copyInto 32 coins).val) := rfl

/-- The reference Ed25519 is correct. -/
theorem referenceSsl_correct : Ed25519Correct (some referenceSsl) := by
  intro coins pubkey privkey generated message signature signedOk
  rw [generateEd25519Keypair_referenceSsl] at generated
  cases generated
  have keySized := (copyInto 32 coins).property
  by_cases hashed : message.length = 32
  · rw [ed25519Sign_referenceSsl keySized hashed] at signedOk
    cases signedOk
    exact ed25519Verify_referenceSsl keySized hashed
  · simp [ed25519Sign, ed25519PrivateKeyLen, keySized, hashed] at signedOk

end PqcLedger.Crypto
