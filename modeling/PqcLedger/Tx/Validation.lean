import PqcLedger.Codec.Decode
import PqcLedger.Tx.Signing

/-!
# The validation pipeline

`tx/validation.cpp`: the cheap structural checks, the pipeline that runs them
before signature verification, and the basic structure test.
-/

namespace PqcLedger.Tx

open PqcLedger.Cxx PqcLedger.Codec PqcLedger.Crypto

/-- The check of a field against a size that liboqs reports. -/
def checkSize (reported : Result Nat) (code : ErrorCode) (subject : String) (bytes : Bytes) :
    Result Unit :=
  match reported with
  | .err error => .err error
  | .ok size =>
      if bytes.length ≠ size then .err ⟨code, sizeMismatch subject size bytes.length⟩
      else .ok ()

/-- The check of the public key. -/
def checkPubkeySize (oqs : Oqs) (fromPubkey : PublicKey) : Result Unit :=
  checkSize (getPubkeySize oqs "Dilithium3") .InvalidPublicKey "Public key" fromPubkey

/-- The check of the PQ signature. -/
def checkPqSigSize (oqs : Oqs) (sig : Signature) : Result Unit :=
  checkSize (getSignatureSize oqs "Dilithium3") .InvalidSignature "PQ signature" sig

/-- The closing checks of `validate_cheap_checks`, on the mode and the signatures. -/
def checkAuth (oqs : Oqs) (tx : Transaction) : Throws (Result Unit) :=
  if tx.authMode = .PqOnly then do
    let pqSig ← tx.auth.getPq
    pure (checkPqSigSize oqs pqSig.sig)
  else if tx.authMode = .Hybrid then do
    let hybridSig ← tx.auth.getHybrid
    if hybridSig.classicalSig.length ≠ 64 then
      pure (.err ⟨.InvalidSignature,
        sizeMismatch "Ed25519 signature" 64 hybridSig.classicalSig.length⟩)
    else pure (checkPqSigSize oqs hybridSig.pqSig)
  else pure (.err ⟨.InvalidAuthTag, "Unknown auth mode"⟩)

/-- The checks that need no cryptography, in their order. -/
def validateCheapChecks (oqs : Oqs) (tx : Transaction) (expectedChainId : UInt32) :
    Throws (Result Unit) :=
  if tx.version ≠ 1 then
    pure (.err ⟨.InvalidVersion, "Version must be 1, got " ++ toString tx.version.toNat⟩)
  else if tx.chainId ≠ expectedChainId then
    pure (.err ⟨.InvalidChainId, "Chain ID mismatch: expected " ++
      toString expectedChainId.toNat ++ ", got " ++ toString tx.chainId.toNat⟩)
  else if tx.nonce = 0 then pure (.err ⟨.InvalidTransaction, "Nonce cannot be zero"⟩)
  else if tx.amount = 0 then pure (.err ⟨.InvalidAmount, "Amount cannot be zero"⟩)
  else if tx.fee = 0 then pure (.err ⟨.InvalidFee, "Fee cannot be zero"⟩)
  else
    match checkPubkeySize oqs tx.fromPubkey with
    | .err error => pure (.err error)
    | .ok () => checkAuth oqs tx

/-- The cheap checks, then the signatures. -/
def validateTransaction (backend : Backend) (tx : Transaction) (chainId : UInt32) :
    Throws (Result Bool) := do
  match ← validateCheapChecks backend.oqs tx chainId with
  -- A failed check is an answer, not an error.
  | .err _ => pure (.ok false)
  | .ok () =>
      match ← verifyTransaction backend tx chainId with
      | .err error => pure (.err error)
      | .ok valid => pure (.ok valid)

/-- Whether the fields are there at all. -/
def isValidStructure (tx : Transaction) : Throws Bool :=
  if tx.version ≠ 1 then pure false
  else if tx.fromPubkey = [] then pure false
  else if tx.authMode = .PqOnly then do
    let pqSig ← tx.auth.getPq
    pure (pqSig.sig ≠ [])
  else if tx.authMode = .Hybrid then do
    let hybridSig ← tx.auth.getHybrid
    pure (hybridSig.classicalSig ≠ [] ∧ hybridSig.pqSig ≠ [])
  else pure false

/-! ## What the checks establish -/

/-- The signature lengths that the cheap checks demand; no signature may be absent. -/
def AuthSigned (sigSize : Nat) : Auth → Prop
  | .pq signature => signature.sig.length = sigSize
  | .hybrid signature =>
      signature.classicalSig.length = 64 ∧ signature.pqSig.length = sigSize

theorem AuthSigned.sized {sigSize : Nat} {auth : Auth} (signed : AuthSigned sigSize auth) :
    AuthSized sigSize auth := by
  cases auth with
  | pq signature => exact .inr signed
  | hybrid signature => exact signed

/-- The fields that the decoder leaves open and the cheap checks do not. -/
structure FieldsChecked (tx : Transaction) (chainId : UInt32) : Prop where
  chainId : tx.chainId = chainId
  nonce : tx.nonce ≠ 0
  amount : tx.amount ≠ 0
  fee : tx.fee ≠ 0

/-- The checked fields of an unsigned transaction, for its own chain, are its amounts. -/
theorem unsignedTx_fieldsChecked {chainId : UInt32} {nonce : UInt64} {fromPubkey : PublicKey}
    {toAddr : Address} {amount fee : UInt64} :
    FieldsChecked (unsignedTx chainId nonce fromPubkey toAddr amount fee) chainId ↔
      nonce ≠ 0 ∧ amount ≠ 0 ∧ fee ≠ 0 := by
  constructor
  · rintro ⟨-, nonceNonzero, amountNonzero, feeNonzero⟩
    exact ⟨nonceNonzero, amountNonzero, feeNonzero⟩
  · rintro ⟨nonceNonzero, amountNonzero, feeNonzero⟩
    exact ⟨rfl, nonceNonzero, amountNonzero, feeNonzero⟩

theorem checkSize_ok_iff {reported : Result Nat} {code : ErrorCode} {subject : String}
    {bytes : Bytes} :
    checkSize reported code subject bytes = .ok () ↔ reported = .ok bytes.length := by
  unfold checkSize
  cases reported with
  | err error => simp
  | ok size =>
      by_cases sized : bytes.length = size
      · simp [sized]
      · simp [sized, Ne.symm sized]

/-- Mode and signatures pass exactly when they match and have the sizes in force. -/
theorem checkAuth_ok_iff {oqs : Oqs} {tx : Transaction} :
    checkAuth oqs tx = .ok (.ok ()) ↔
      AuthMatches tx.authMode tx.auth ∧
        ∃ size, getSignatureSize oqs "Dilithium3" = .ok size ∧ AuthSigned size tx.auth := by
  unfold checkAuth
  by_cases pqOnly : tx.authMode = .PqOnly
  · rw [if_pos pqOnly, pqOnly]
    cases auth : tx.auth with
    | pq signature =>
        simp [checkPqSigSize, checkSize_ok_iff, AuthMatches, AuthSigned]
    | hybrid signature =>
        simp [Auth.getPq, AuthMatches, AuthMode.Hybrid_ne_PqOnly.symm]
  · rw [if_neg pqOnly]
    by_cases hybrid : tx.authMode = .Hybrid
    · rw [if_pos hybrid, hybrid]
      cases auth : tx.auth with
      | pq signature => simp [Auth.getHybrid, AuthMatches]
      | hybrid signature =>
          by_cases classicalSized : signature.classicalSig.length = 64
          · simp [checkPqSigSize, checkSize_ok_iff, AuthMatches, AuthSigned, classicalSized]
          · simp [AuthSigned, classicalSized]
    · rw [if_neg hybrid]
      cases tx.auth <;> simp [AuthMatches, pqOnly, hybrid]

/-- An early error return passes exactly when its condition fails. -/
theorem check_ok_iff {refuse : Prop} [Decidable refuse] {error : Error}
    {next : Throws (Result Unit)} :
    (if refuse then pure (.err error) else next) = .ok (.ok ()) ↔
      ¬ refuse ∧ next = .ok (.ok ()) := by
  by_cases refused : refuse
  · simp [refused]
  · simp [refused]

/-- The cheap checks pass exactly on signed version-1 transactions for the
expected chain, with non-zero amounts and the sizes that liboqs reports. -/
theorem validateCheapChecks_ok_iff {oqs : Oqs} {tx : Transaction} {chainId : UInt32} :
    validateCheapChecks oqs tx chainId = .ok (.ok ()) ↔
      tx.version = 1 ∧ FieldsChecked tx chainId ∧
        getPubkeySize oqs "Dilithium3" = .ok tx.fromPubkey.length ∧
          AuthMatches tx.authMode tx.auth ∧
            ∃ size, getSignatureSize oqs "Dilithium3" = .ok size ∧ AuthSigned size tx.auth := by
  rw [validateCheapChecks, check_ok_iff, check_ok_iff, check_ok_iff, check_ok_iff, check_ok_iff,
    not_not, not_not]
  have sized : checkPubkeySize oqs tx.fromPubkey = .ok () ↔
      getPubkeySize oqs "Dilithium3" = .ok tx.fromPubkey.length := checkSize_ok_iff
  rw [← sized, ← checkAuth_ok_iff]
  cases outcome : checkPubkeySize oqs tx.fromPubkey with
  | err error => simp
  | ok done =>
      constructor
      · rintro ⟨version, chain, nonce, amount, fee, rest⟩
        exact ⟨version, ⟨chain, nonce, amount, fee⟩, rfl, rest⟩
      · rintro ⟨version, fields, -, rest⟩
        exact ⟨version, fields.chainId, fields.nonce, fields.amount, fields.fee, rest⟩

/-- With ML-DSA-65 enabled, the cheap checks of a well-formed signed transaction
come down to the fields that the decoder leaves open. -/
theorem validateCheapChecks_of_signed {oqs : Oqs} {scheme : OqsSig} {tx : Transaction}
    {chainId : UInt32} (enabled : oqs.sigNew "ML-DSA-65" = some scheme)
    (version : tx.version = 1) (pubkeySized : tx.fromPubkey.length = scheme.lengthPublicKey)
    (matched : AuthMatches tx.authMode tx.auth)
    (signed : AuthSigned scheme.lengthSignature tx.auth) :
    validateCheapChecks oqs tx chainId = .ok (.ok ()) ↔ FieldsChecked tx chainId := by
  rw [validateCheapChecks_ok_iff]
  constructor
  · rintro ⟨-, fields, -⟩
    exact fields
  · intro fields
    have pubkeySize : getPubkeySize oqs "Dilithium3" = .ok tx.fromPubkey.length := by
      rw [getPubkeySize, getSize_of_enabled getOqsAlgName_dilithium3 enabled, pubkeySized]
    exact ⟨version, fields, pubkeySize, matched, scheme.lengthSignature,
      getSize_of_enabled getOqsAlgName_dilithium3 enabled _ _, signed⟩

/-- Without ML-DSA-65 there is no size to check against, and nothing passes. -/
theorem validateCheapChecks_of_missing {oqs : Oqs} {tx : Transaction} {chainId : UInt32}
    (missing : oqs.sigNew "ML-DSA-65" = none) :
    validateCheapChecks oqs tx chainId ≠ .ok (.ok ()) := by
  intro passed
  obtain ⟨-, -, known, -⟩ := validateCheapChecks_ok_iff.mp passed
  rw [getPubkeySize, getSize_of_missing getOqsAlgName_dilithium3 missing] at known
  cases known

/-- A transaction that verifies has the sizes that liboqs reports, so its cheap
checks come down to its fields and to ML-DSA-65 being enabled. -/
theorem validateCheapChecks_of_verified {backend : Backend} {tx : Transaction} {chainId : UInt32}
    (version : tx.version = 1)
    (accepted : verifyTransaction backend tx chainId = .ok (.ok true)) :
    validateCheapChecks backend.oqs tx chainId = .ok (.ok ()) ↔
      FieldsChecked tx chainId ∧ (backend.oqs.sigNew "ML-DSA-65").isSome = true := by
  obtain ⟨-, matched, signatures⟩ := verifyTransaction_true_iff.mp accepted
  cases enabled : backend.oqs.sigNew "ML-DSA-65" with
  | none =>
      exact iff_of_false (validateCheapChecks_of_missing enabled) (by simp)
  | some scheme =>
      have sizes : tx.fromPubkey.length = scheme.lengthPublicKey ∧
          AuthSigned scheme.lengthSignature tx.auth := by
        cases auth : tx.auth with
        | pq signature =>
            rw [auth] at signatures
            exact verify_true_sizes getOqsAlgName_dilithium3 enabled signatures
        | hybrid signature =>
            rw [auth] at signatures
            obtain ⟨keySized, sigSized⟩ :=
              verify_true_sizes getOqsAlgName_dilithium3 enabled signatures.2
            exact ⟨keySized, (ed25519Verify_true_sizes signatures.1).2, sigSized⟩
      rw [validateCheapChecks_of_signed enabled version sizes.1 matched sizes.2]
      simp

/-- Behind a check that passes, the pipeline is signature verification. -/
theorem validateTransaction_of_checked {backend : Backend} {tx : Transaction} {chainId : UInt32}
    (checked : validateCheapChecks backend.oqs tx chainId = .ok (.ok ())) :
    validateTransaction backend tx chainId = verifyTransaction backend tx chainId := by
  rw [validateTransaction, checked, Throws.bind_ok]
  rcases verifyTransaction backend tx chainId with thrown | valid | error <;> rfl

/-- A check that fails is answered with false. -/
theorem validateTransaction_of_refused {backend : Backend} {tx : Transaction} {chainId : UInt32}
    {error : Error} (refused : validateCheapChecks backend.oqs tx chainId = .ok (.err error)) :
    validateTransaction backend tx chainId = .ok (.ok false) := by
  rw [validateTransaction, refused, Throws.bind_ok]
  rfl

/-- The pipeline accepts exactly what both of its stages accept. -/
theorem validateTransaction_true_iff {backend : Backend} {tx : Transaction} {chainId : UInt32} :
    validateTransaction backend tx chainId = .ok (.ok true) ↔
      validateCheapChecks backend.oqs tx chainId = .ok (.ok ()) ∧
        verifyTransaction backend tx chainId = .ok (.ok true) := by
  rcases cheap : validateCheapChecks backend.oqs tx chainId with thrown | done | error
  · rw [validateTransaction, cheap, Throws.bind_error]
    simp
  · rw [validateTransaction_of_checked cheap]
    simp
  · rw [validateTransaction_of_refused cheap]
    simp

end PqcLedger.Tx
