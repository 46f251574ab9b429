import PqcLedger.Types

/-!
# Post-quantum signatures

`crypto/pq.cpp` over liboqs. liboqs itself is a parameter: which algorithms it
enables, and for each the three lengths and the three operations. The random
bytes an operation draws are its `coins`.
-/

namespace PqcLedger.Crypto

open PqcLedger.Cxx

/-- An `OQS_SIG` object. A failing operation reports its `OQS_STATUS`. -/
structure OqsSig where
  lengthPublicKey : Nat
  lengthSecretKey : Nat
  lengthSignature : Nat
  /-- `OQS_SIG_keypair`, filling two buffers of the announced lengths. -/
  keypair : (coins : Bytes) →
    Except Int (SizedBytes lengthPublicKey × SizedBytes lengthSecretKey)
  /-- `OQS_SIG_sign`: the signature buffer and the reported signature length. -/
  sign : (coins message privkey : Bytes) → Except Int (SizedBytes lengthSignature × Nat)
  /-- Whether `OQS_SIG_verify` reports success. -/
  verify : (message signature pubkey : Bytes) → Bool
  /-- What is left in `length_secret_key` when the object is freed: anything, and not
  the same in every call. -/
  freedLengthSecretKey : (coins : Bytes) → Nat

/-- The linked liboqs: `OQS_SIG_new`, null for an algorithm that is not enabled. -/
structure Oqs where
  sigNew : String → Option OqsSig

/-- The two keys are what key generation can return together. -/
def OqsSig.KeyPair (sig : OqsSig) (pubkey privkey : Bytes) : Prop :=
  ∃ coins pubBuffer privBuffer, sig.keypair coins = .ok (pubBuffer, privBuffer) ∧
    pubBuffer.val = pubkey ∧ privBuffer.val = privkey

theorem OqsSig.KeyPair.pubkey_length {sig : OqsSig} {pubkey privkey : Bytes}
    (pair : sig.KeyPair pubkey privkey) : pubkey.length = sig.lengthPublicKey := by
  obtain ⟨_, pubBuffer, _, _, rfl, _⟩ := pair
  exact pubBuffer.property

/-- The scheme is correct: signatures fill their announced length and verify
under the public key of the private key that made them. -/
def OqsSig.Correct (sig : OqsSig) : Prop :=
  ∀ pubkey privkey, sig.KeyPair pubkey privkey →
    ∀ coins message buffer length, sig.sign coins message privkey = .ok (buffer, length) →
      length = sig.lengthSignature ∧ sig.verify message buffer.val pubkey = true

/-- ML-DSA-65, where it is enabled, has the lengths of its standard. -/
def Oqs.MlDsa65Sized (oqs : Oqs) : Prop :=
  ∀ sig, oqs.sigNew "ML-DSA-65" = some sig →
    sig.lengthPublicKey = 1952 ∧ sig.lengthSignature = 3309

/-- A liboqs with no signature algorithm enabled. -/
def noOqs : Oqs := ⟨fun _ => none⟩

theorem noOqs_mlDsa65Sized : noOqs.MlDsa65Sized := by
  intro sig opened
  cases opened

/-- The liboqs name of an algorithm, under any of its names. -/
def getOqsAlgName (algorithm : String) : Option String :=
  if algorithm = "Dilithium3" ∨ algorithm = "Dilithium-3" ∨ algorithm = "ML-DSA-65" then
    some "ML-DSA-65"
  else if algorithm = "Dilithium2" ∨ algorithm = "Dilithium-2" ∨ algorithm = "ML-DSA-44" then
    some "ML-DSA-44"
  else if algorithm = "Dilithium5" ∨ algorithm = "Dilithium-5" ∨ algorithm = "ML-DSA-87" then
    some "ML-DSA-87"
  else none

/-- The names tried in turn by `find_available_ml_dsa`. -/
def availableCandidates : List String :=
  ["ML-DSA-65", "ML-DSA-44", "ML-DSA-87", "Dilithium3", "Dilithium-3", "Dilithium2",
    "Dilithium-2", "Dilithium5", "Dilithium-5"]

/-- The first candidate that is enabled. -/
def findAvailableMlDsa (oqs : Oqs) : Option String :=
  availableCandidates.find? fun name => (oqs.sigNew name).isSome

/-- The requested names for which an unavailable algorithm is replaced. -/
def fallbackNames : List String :=
  ["Dilithium3", "Dilithium2", "Dilithium5", "ML-DSA-65", "ML-DSA-44", "ML-DSA-87"]

/-- The opening that `generate_keypair`, `sign` and `verify` repeat: the mapped
algorithm, or the first available one when the mapped one is not enabled. -/
def openSig (oqs : Oqs) (algorithm algName : String) : Option OqsSig :=
  match oqs.sigNew algName with
  | some sig => some sig
  | none =>
      if algorithm ∈ fallbackNames then
        match findAvailableMlDsa oqs with
        | some fallback => oqs.sigNew fallback
        | none => none
      else none

/-- Generate a key pair of the algorithm of that name. -/
def generateKeypair (oqs : Oqs) (algorithm : String) (coins : Bytes) :
    Result (PublicKey × Bytes) :=
  match getOqsAlgName algorithm with
  | none => .err ⟨.KeyGenerationFailed, "Unknown algorithm: " ++ algorithm⟩
  | some algName =>
      match openSig oqs algorithm algName with
      | none => .err ⟨.KeyGenerationFailed, "Algorithm " ++ algorithm ++
          " not enabled at compile-time or not available. " ++
          "Please ensure liboqs is built with ML-DSA (or Dilithium) algorithms enabled."⟩
      | some sig =>
          match sig.keypair coins with
          | .error status => .err ⟨.KeyGenerationFailed,
              "Key generation failed with status: " ++ toString status⟩
          | .ok (pubkey, privkey) => .ok (pubkey.val, privkey.val)

/-- Sign under the algorithm of that name. A private key of the wrong length is reported
with the length expected, which the source reads from the object it has just freed. -/
def sign (oqs : Oqs) (message privkey : Bytes) (algorithm : String) (coins : Bytes) :
    Result Signature :=
  match getOqsAlgName algorithm with
  | none => .err ⟨.SignatureVerificationFailed, "Unknown algorithm: " ++ algorithm⟩
  | some algName =>
      match openSig oqs algorithm algName with
      | none => .err ⟨.SignatureVerificationFailed, "Algorithm " ++ algorithm ++
          " not enabled at compile-time or not available"⟩
      | some sig =>
          if privkey.length ≠ sig.lengthSecretKey then
            .err ⟨.InvalidPublicKey, "Private key size mismatch: expected " ++
              toString (sig.freedLengthSecretKey coins) ++ ", got " ++ toString privkey.length⟩
          else
            match sig.sign coins message privkey with
            | .error status => .err ⟨.SignatureVerificationFailed,
                "Signing failed with status: " ++ toString status⟩
            | .ok (signature, signatureLen) => .ok (resize signature.val signatureLen)

/-- Verify a signature. Keys and signatures of other lengths are answered with false. -/
def verify (oqs : Oqs) (message : Bytes) (signature : Signature) (pubkey : PublicKey)
    (algorithm : String) : Result Bool :=
  match getOqsAlgName algorithm with
  | none => .err ⟨.SignatureVerificationFailed, "Unknown algorithm: " ++ algorithm⟩
  | some algName =>
      match openSig oqs algorithm algName with
      | none => .err ⟨.SignatureVerificationFailed, "Algorithm " ++ algorithm ++
          " not enabled at compile-time or not available"⟩
      | some sig =>
          if pubkey.length ≠ sig.lengthPublicKey then .ok false
          else if signature.length ≠ sig.lengthSignature then .ok false
          else .ok (sig.verify message signature pubkey)

/-- The lookup shared by `get_pubkey_size` and `get_signature_size`, which
differ in the length they read and in their error code. No fallback is tried. -/
def getSize (oqs : Oqs) (code : ErrorCode) (length : OqsSig → Nat) (algorithm : String) :
    Result Nat :=
  match getOqsAlgName algorithm with
  | none => .err ⟨code, "Unknown algorithm: " ++ algorithm⟩
  | some algName =>
      match oqs.sigNew algName with
      | none => .err ⟨code, "Algorithm " ++ algorithm ++ " not available"⟩
      | some sig => .ok (length sig)

/-- The public key length of an algorithm. -/
def getPubkeySize (oqs : Oqs) (algorithm : String) : Result Nat :=
  getSize oqs .InvalidPublicKey OqsSig.lengthPublicKey algorithm

/-- The signature length of an algorithm. -/
def getSignatureSize (oqs : Oqs) (algorithm : String) : Result Nat :=
  getSize oqs .InvalidSignature OqsSig.lengthSignature algorithm

@[simp] theorem getOqsAlgName_dilithium3 : getOqsAlgName "Dilithium3" = some "ML-DSA-65" := by
  simp [getOqsAlgName]

@[simp] theorem getOqsAlgName_dilithium2 : getOqsAlgName "Dilithium2" = some "ML-DSA-44" := by
  simp [getOqsAlgName]

@[simp] theorem getOqsAlgName_mlDsa65 : getOqsAlgName "ML-DSA-65" = some "ML-DSA-65" := by
  simp [getOqsAlgName]

/-- The names of the default parameter set. -/
def mlDsa65Names : List String := ["Dilithium3", "Dilithium-3", "ML-DSA-65"]

theorem getOqsAlgName_mlDsa65_iff {algorithm : String} :
    getOqsAlgName algorithm = some "ML-DSA-65" ↔ algorithm ∈ mlDsa65Names := by
  have members : algorithm ∈ mlDsa65Names ↔
      algorithm = "Dilithium3" ∨ algorithm = "Dilithium-3" ∨ algorithm = "ML-DSA-65" := by
    simp [mlDsa65Names]
  rw [members, getOqsAlgName]
  by_cases default : algorithm = "Dilithium3" ∨ algorithm = "Dilithium-3" ∨ algorithm = "ML-DSA-65"
  · rw [if_pos default]
    exact iff_of_true rfl default
  · rw [if_neg default]
    refine iff_of_false ?_ default
    split
    · decide
    · split <;> decide

/-- Every known name stands for one of three parameter sets. -/
theorem getOqsAlgName_cases {algorithm algName : String}
    (named : getOqsAlgName algorithm = some algName) :
    algName = "ML-DSA-65" ∨ algName = "ML-DSA-44" ∨ algName = "ML-DSA-87" := by
  unfold getOqsAlgName at named
  split at named
  · exact .inl (Option.some.inj named).symm
  · split at named
    · exact .inr (.inl (Option.some.inj named).symm)
    · split at named
      · exact .inr (.inr (Option.some.inj named).symm)
      · cases named

/-- A size is the length of the named algorithm where it is enabled, and an error elsewhere. -/
theorem getSize_of_enabled {oqs : Oqs} {algorithm algName : String} {sig : OqsSig}
    (named : getOqsAlgName algorithm = some algName) (enabled : oqs.sigNew algName = some sig)
    (code : ErrorCode) (length : OqsSig → Nat) :
    getSize oqs code length algorithm = .ok (length sig) := by
  simp [getSize, named, enabled]

theorem getSize_of_missing {oqs : Oqs} {algorithm algName : String}
    (named : getOqsAlgName algorithm = some algName) (missing : oqs.sigNew algName = none)
    (code : ErrorCode) (length : OqsSig → Nat) :
    getSize oqs code length algorithm =
      .err ⟨code, "Algorithm " ++ algorithm ++ " not available"⟩ := by
  simp [getSize, named, missing]

/-- An enabled algorithm is opened as itself. -/
theorem openSig_of_enabled {oqs : Oqs} {algorithm algName : String} {sig : OqsSig}
    (enabled : oqs.sigNew algName = some sig) : openSig oqs algorithm algName = some sig := by
  simp [openSig, enabled]

/-- Whatever is opened is enabled, under some name. -/
theorem openSig_enabled {oqs : Oqs} {algorithm algName : String} {sig : OqsSig}
    (opened : openSig oqs algorithm algName = some sig) : ∃ name, oqs.sigNew name = some sig := by
  unfold openSig at opened
  cases enabled : oqs.sigNew algName with
  | some mapped =>
      rw [enabled] at opened
      cases opened
      exact ⟨algName, enabled⟩
  | none =>
      rw [enabled] at opened
      by_cases known : algorithm ∈ fallbackNames
      · rw [if_pos known] at opened
        cases found : findAvailableMlDsa oqs with
        | none =>
            rw [found] at opened
            cases opened
        | some fallback =>
            rw [found] at opened
            exact ⟨fallback, opened⟩
      · rw [if_neg known] at opened
        cases opened

/-- Acceptance by `verify` is acceptance by the opened scheme at its own lengths. -/
theorem verify_eq_true_iff {oqs : Oqs} {message : Bytes} {signature : Signature}
    {pubkey : PublicKey} {algorithm : String} :
    verify oqs message signature pubkey algorithm = .ok true ↔
      ∃ algName sig, getOqsAlgName algorithm = some algName ∧
        openSig oqs algorithm algName = some sig ∧ pubkey.length = sig.lengthPublicKey ∧
        signature.length = sig.lengthSignature ∧ sig.verify message signature pubkey = true := by
  unfold verify
  cases named : getOqsAlgName algorithm with
  | none => simp
  | some algName =>
      cases opened : openSig oqs algorithm algName with
      | none => simp [opened]
      | some sig =>
          simp only [ne_eq, Option.some.injEq, exists_and_left, exists_eq_left', opened]
          split
          · simp [*]
          · split
            · simp [*]
            · simp_all

/-- A key of another length is answered with false. -/
theorem verify_wrong_pubkey {oqs : Oqs} {algorithm algName : String} {sig : OqsSig}
    {pubkey : PublicKey} (named : getOqsAlgName algorithm = some algName)
    (opened : openSig oqs algorithm algName = some sig)
    (wrongSize : pubkey.length ≠ sig.lengthPublicKey) (message : Bytes) (signature : Signature) :
    verify oqs message signature pubkey algorithm = .ok false := by
  simp only [verify, named, opened]
  rw [if_pos wrongSize]

/-- What an enabled algorithm accepts has its lengths. -/
theorem verify_true_sizes {oqs : Oqs} {algorithm algName : String} {scheme : OqsSig}
    {message : Bytes} {signature : Signature} {pubkey : PublicKey}
    (named : getOqsAlgName algorithm = some algName) (enabled : oqs.sigNew algName = some scheme)
    (accepted : verify oqs message signature pubkey algorithm = .ok true) :
    pubkey.length = scheme.lengthPublicKey ∧ signature.length = scheme.lengthSignature := by
  obtain ⟨otherName, other, otherNamed, opened, keySized, sigSized, -⟩ :=
    verify_eq_true_iff.mp accepted
  rw [named] at otherNamed
  cases otherNamed
  rw [openSig_of_enabled enabled] at opened
  cases opened
  exact ⟨keySized, sigSized⟩

/-- Success of `sign` exposes the opened scheme's signature. -/
theorem sign_eq_ok_iff {oqs : Oqs} {message privkey : Bytes} {algorithm : String}
    {coins : Bytes} {signature : Signature} :
    sign oqs message privkey algorithm coins = .ok signature ↔
      ∃ algName sig buffer length, getOqsAlgName algorithm = some algName ∧
        openSig oqs algorithm algName = some sig ∧ privkey.length = sig.lengthSecretKey ∧
        sig.sign coins message privkey = .ok (buffer, length) ∧
        signature = resize buffer.val length := by
  unfold sign
  cases named : getOqsAlgName algorithm with
  | none => simp
  | some algName =>
      cases opened : openSig oqs algorithm algName with
      | none => simp [opened]
      | some sig =>
          by_cases sized : privkey.length = sig.lengthSecretKey
          · cases signed : sig.sign coins message privkey with
            | error status => simp [opened, sized, signed]
            | ok made =>
                obtain ⟨buffer, length⟩ := made
                simp only [opened, sized, signed, Option.some.injEq, exists_and_left,
                  exists_eq_left', ne_eq, not_true_eq_false, if_false, Result.ok.injEq,
                  Except.ok.injEq, Prod.mk.injEq, true_and]
                constructor
                · rintro rfl
                  exact ⟨buffer, length, ⟨rfl, rfl⟩, rfl⟩
                · rintro ⟨_, _, ⟨rfl, rfl⟩, rfl⟩
                  rfl
          · simp [opened, sized]

/-- A correct scheme's signatures fill its signature length and verify. -/
theorem verify_of_sign {oqs : Oqs} {algorithm algName : String} {scheme : OqsSig}
    {message pubkey privkey coins : Bytes} {signature : Signature}
    (named : getOqsAlgName algorithm = some algName)
    (opened : openSig oqs algorithm algName = some scheme) (correct : scheme.Correct)
    (keyPair : scheme.KeyPair pubkey privkey)
    (signed : sign oqs message privkey algorithm coins = .ok signature) :
    signature.length = scheme.lengthSignature ∧
      verify oqs message signature pubkey algorithm = .ok true := by
  obtain ⟨otherName, other, buffer, length, otherNamed, otherOpened, -, made, rfl⟩ :=
    sign_eq_ok_iff.mp signed
  rw [named] at otherNamed
  cases otherNamed
  rw [opened] at otherOpened
  cases otherOpened
  obtain ⟨rfl, verified⟩ := correct pubkey privkey keyPair coins message buffer length made
  have whole : resize buffer.val scheme.lengthSignature = buffer.val := by
    have self := resize_self buffer.val
    rwa [buffer.property] at self
  rw [whole]
  exact ⟨buffer.property, verify_eq_true_iff.mpr
    ⟨algName, scheme, named, opened, keyPair.pubkey_length, buffer.property, verified⟩⟩

/-- What the opened scheme generates and signs is what the library returns. -/
theorem generateKeypair_of_opened {oqs : Oqs} {algorithm algName : String} {sig : OqsSig}
    {coins : Bytes} {pubBuffer : SizedBytes sig.lengthPublicKey}
    {privBuffer : SizedBytes sig.lengthSecretKey}
    (named : getOqsAlgName algorithm = some algName)
    (opened : openSig oqs algorithm algName = some sig)
    (made : sig.keypair coins = .ok (pubBuffer, privBuffer)) :
    generateKeypair oqs algorithm coins = .ok (pubBuffer.val, privBuffer.val) := by
  simp only [generateKeypair, named, opened, made]

theorem sign_of_opened {oqs : Oqs} {algorithm algName : String} {sig : OqsSig}
    {message privkey coins : Bytes} {buffer : SizedBytes sig.lengthSignature}
    (named : getOqsAlgName algorithm = some algName)
    (opened : openSig oqs algorithm algName = some sig)
    (sized : privkey.length = sig.lengthSecretKey)
    (made : sig.sign coins message privkey = .ok (buffer, sig.lengthSignature)) :
    sign oqs message privkey algorithm coins = .ok buffer.val := by
  have whole := resize_self buffer.val
  rw [buffer.property] at whole
  exact sign_eq_ok_iff.mpr ⟨algName, sig, buffer, sig.lengthSignature, named, opened, sized, made,
    whole.symm⟩

/-- The key pairs returned by `generate_keypair` are those of the opened scheme. -/
theorem generateKeypair_ok {oqs : Oqs} {algorithm algName : String} {coins : Bytes}
    {sig : OqsSig} {pubkey : PublicKey} {privkey : Bytes}
    (named : getOqsAlgName algorithm = some algName)
    (opened : openSig oqs algorithm algName = some sig)
    (generated : generateKeypair oqs algorithm coins = .ok (pubkey, privkey)) :
    sig.KeyPair pubkey privkey := by
  simp only [generateKeypair, named, opened] at generated
  cases made : sig.keypair coins with
  | error status => simp [made] at generated
  | ok pair =>
      obtain ⟨pubBuffer, privBuffer⟩ := pair
      simp only [made, Result.ok.injEq, Prod.mk.injEq] at generated
      exact ⟨coins, pubBuffer, privBuffer, made, generated⟩

/-- Two names of one enabled algorithm verify alike. -/
theorem verify_renamed {oqs : Oqs} {left right algName : String} {sig : OqsSig}
    (leftNamed : getOqsAlgName left = some algName)
    (rightNamed : getOqsAlgName right = some algName) (enabled : oqs.sigNew algName = some sig)
    (message : Bytes) (signature : Signature) (pubkey : PublicKey) :
    verify oqs message signature pubkey left = verify oqs message signature pubkey right := by
  simp only [verify, leftNamed, rightNamed, openSig_of_enabled enabled]

/-- Verification reports failures as answers once the algorithm is enabled. -/
theorem verify_of_enabled {oqs : Oqs} {algorithm algName : String} {sig : OqsSig}
    (named : getOqsAlgName algorithm = some algName) (enabled : oqs.sigNew algName = some sig)
    (message : Bytes) (signature : Signature) (pubkey : PublicKey) :
    ∃ valid, verify oqs message signature pubkey algorithm = .ok valid := by
  simp only [verify, named, openSig_of_enabled enabled]
  split
  · exact ⟨false, rfl⟩
  · split
    · exact ⟨false, rfl⟩
    · exact ⟨_, rfl⟩

end PqcLedger.Crypto
