import PqcLedger.Types

/-!
# Ed25519

`crypto/classical.cpp` over OpenSSL, which is a parameter. A build without
`HAVE_OPENSSL` has no OpenSSL and every operation reports so.
-/

namespace PqcLedger.Crypto

open PqcLedger.Cxx

/-- The OpenSSL calls made on Ed25519 keys; a null pointer is `none` and a
failing initialisation is `false`. -/
structure OpenSsl where
  PKey : Type
  ctxNewId : Bool
  keygenInit : Bool
  keygen : (coins : Bytes) → Option PKey
  getRawPublicKey : PKey → Option (SizedBytes 32)
  getRawPrivateKey : PKey → Option (SizedBytes 32)
  newRawPrivateKey : Bytes → Option PKey
  newRawPublicKey : Bytes → Option PKey
  mdCtxNew : Bool
  /-- `EVP_DigestSignInit` and `EVP_DigestSign` into a buffer of 64 bytes. -/
  digestSign : PKey → (message : Bytes) → Option (SizedBytes 64)
  /-- `EVP_DigestVerifyInit` and `EVP_DigestVerify` both report success. -/
  digestVerify : PKey → (signature message : Bytes) → Bool

/-- `ED25519_PRIVATE_KEY_LEN`, which OpenSSL's headers define. The source defines it as 32
where OpenSSL is missing, and notes that length where it generates a key. -/
def ed25519PrivateKeyLen : Nat := 32

/-- The message of every operation in a build without OpenSSL. -/
def opensslMissing : String := "OpenSSL not available. Ed25519 requires OpenSSL."

/-- Generate an Ed25519 key pair. -/
def generateEd25519Keypair (openssl : Option OpenSsl) (coins : Bytes) :
    Result (PublicKey × Bytes) :=
  match openssl with
  | none => .err ⟨.KeyGenerationFailed, opensslMissing⟩
  | some ssl =>
      if !ssl.ctxNewId then
        .err ⟨.KeyGenerationFailed, "Failed to create Ed25519 context"⟩
      else if !ssl.keygenInit then
        .err ⟨.KeyGenerationFailed, "Failed to initialize Ed25519 keygen"⟩
      else
        match ssl.keygen coins with
        | none => .err ⟨.KeyGenerationFailed, "Failed to generate Ed25519 keypair"⟩
        | some pkey =>
            match ssl.getRawPublicKey pkey with
            | none => .err ⟨.KeyGenerationFailed, "Failed to extract Ed25519 public key"⟩
            | some pubkey =>
                match ssl.getRawPrivateKey pkey with
                | none => .err ⟨.KeyGenerationFailed, "Failed to extract Ed25519 private key"⟩
                | some privkey => .ok (pubkey.val, privkey.val)

/-- Sign the hash of a message with Ed25519. -/
def ed25519Sign (openssl : Option OpenSsl) (message privkey : Bytes) : Result Signature :=
  match openssl with
  | none => .err ⟨.SignatureVerificationFailed, opensslMissing⟩
  | some ssl =>
      if privkey.length ≠ ed25519PrivateKeyLen then
        .err ⟨.InvalidPublicKey, "Invalid Ed25519 private key size"⟩
      else if message.length ≠ 32 then
        .err ⟨.HashError, "Message must be 32 bytes (hash)"⟩
      else
        match ssl.newRawPrivateKey privkey with
        | none => .err ⟨.SignatureVerificationFailed, "Failed to create Ed25519 key"⟩
        | some pkey =>
            if !ssl.mdCtxNew then
              .err ⟨.SignatureVerificationFailed, "Failed to create context"⟩
            else
              match ssl.digestSign pkey message with
              | none => .err ⟨.SignatureVerificationFailed, "Ed25519 signing failed"⟩
              | some signature => .ok signature.val

/-- Verify an Ed25519 signature of the hash of a message. Only a signature of the wrong
length is answered with false. -/
def ed25519Verify (openssl : Option OpenSsl) (message : Bytes) (signature : Signature)
    (pubkey : PublicKey) : Result Bool :=
  match openssl with
  | none => .err ⟨.SignatureVerificationFailed, opensslMissing⟩
  | some ssl =>
      if pubkey.length ≠ ed25519PubkeySize then
        .err ⟨.InvalidPublicKey, "Invalid Ed25519 public key size"⟩
      else if signature.length ≠ ed25519SigSize then .ok false
      else if message.length ≠ 32 then
        .err ⟨.HashError, "Message must be 32 bytes (hash)"⟩
      else
        match ssl.newRawPublicKey pubkey with
        | none => .err ⟨.InvalidPublicKey, "Failed to create Ed25519 key"⟩
        | some pkey =>
            if !ssl.mdCtxNew then
              .err ⟨.SignatureVerificationFailed, "Failed to create context"⟩
            else .ok (ssl.digestVerify pkey signature message)

/-- Both halves of a generated pair fill their buffers. -/
theorem generateEd25519Keypair_lengths {openssl : Option OpenSsl} {coins : Bytes}
    {pubkey : PublicKey} {privkey : Bytes}
    (generated : generateEd25519Keypair openssl coins = .ok (pubkey, privkey)) :
    pubkey.length = 32 ∧ privkey.length = 32 := by
  revert generated
  fun_cases generateEd25519Keypair openssl coins with
  | case7 ssl context initialised pkey made pubBuffer pubRead privBuffer privRead =>
      intro generated
      cases generated
      exact ⟨pubBuffer.property, privBuffer.property⟩
  | _ => exact fun generated => nomatch generated

/-- Ed25519 signatures fill their buffer. -/
theorem ed25519Sign_length {openssl : Option OpenSsl} {message privkey : Bytes}
    {signature : Signature} (signed : ed25519Sign openssl message privkey = .ok signature) :
    signature.length = 64 := by
  revert signed
  fun_cases ed25519Sign openssl message privkey with
  | case7 ssl keySized hashed pkey created context made signs =>
      intro signed
      cases signed
      exact made.property
  | _ => exact fun signed => nomatch signed

/-- The primitive is correct: a generated private key's signatures are accepted
under the public key generated with it. -/
def Ed25519Correct (openssl : Option OpenSsl) : Prop :=
  ∀ coins pubkey privkey, generateEd25519Keypair openssl coins = .ok (pubkey, privkey) →
    ∀ message signature, ed25519Sign openssl message privkey = .ok signature →
      ed25519Verify openssl message signature pubkey = .ok true

/-- Ed25519 verification accepts only keys and signatures of its own sizes. -/
theorem ed25519Verify_true_sizes {openssl : Option OpenSsl} {message : Bytes}
    {signature : Signature} {pubkey : PublicKey}
    (accepted : ed25519Verify openssl message signature pubkey = .ok true) :
    pubkey.length = 32 ∧ signature.length = 64 := by
  unfold ed25519Verify at accepted
  cases openssl with
  | none => simp at accepted
  | some ssl =>
      by_cases keySized : pubkey.length = ed25519PubkeySize
      · by_cases sigSized : signature.length = ed25519SigSize
        · exact ⟨keySized, sigSized⟩
        · simp [keySized, sigSized] at accepted
      · simp [keySized] at accepted

/-- Any other key size is an error, whatever the message and signature. -/
theorem ed25519Verify_wrong_size {ssl : OpenSsl} {message : Bytes}
    {signature : Signature} {pubkey : PublicKey} (wrong : pubkey.length ≠ 32) :
    ed25519Verify (some ssl) message signature pubkey =
      .err ⟨.InvalidPublicKey, "Invalid Ed25519 public key size"⟩ := by
  simp [ed25519Verify, ed25519PubkeySize, wrong]

end PqcLedger.Crypto
