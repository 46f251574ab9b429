import PqcLedger.Codec.Canonical
import PqcLedger.Tx.Authenticity
import PqcLedger.Tx.Validation

/-!
# The decoder and the cheap checks agree

The structural rules are written twice: the decoder enforces them on bytes, the
cheap checks on a transaction, each with the sizes it asks liboqs for. With
ML-DSA-65 enabled at its standard lengths they are the same rules, except that
the decoder lets an unsigned transaction through and leaves the amounts open.
-/

namespace PqcLedger.Tx

open PqcLedger.Cxx PqcLedger.Codec PqcLedger.Crypto

/-- A PqOnly transaction with an empty signature. -/
def Unsigned (tx : Transaction) : Prop := tx.authMode = .PqOnly ∧ tx.auth = .pq ⟨[]⟩

/-- Signatures of the sizes in force are present, or the transaction is unsigned. -/
theorem authSigned_iff {sigSize : Nat} {tx : Transaction} (nonzero : sigSize ≠ 0)
    (matched : AuthMatches tx.authMode tx.auth) (sized : AuthSized sigSize tx.auth) :
    AuthSigned sigSize tx.auth ↔ ¬ Unsigned tx := by
  unfold Unsigned
  cases auth : tx.auth with
  | pq signature =>
      rw [auth] at matched sized
      have mode : tx.authMode = .PqOnly := matched
      obtain ⟨sig⟩ := signature
      simp only [AuthSigned, mode, true_and, Auth.pq.injEq, PqSignature.mk.injEq]
      constructor
      · rintro filled rfl
        exact nonzero filled.symm
      · intro present
        exact sized.resolve_left fun empty => present (List.eq_nil_of_length_eq_zero empty)
  | hybrid signature =>
      rw [auth] at sized
      exact iff_of_true sized (by simp)

section Enabled

variable {oqs : Oqs} {scheme : OqsSig}

/-- What passes the cheap checks is well formed and signed. -/
theorem wellFormed_of_cheapChecks {tx : Transaction} {chainId : UInt32}
    (enabled : oqs.sigNew "ML-DSA-65" = some scheme)
    (checked : validateCheapChecks oqs tx chainId = .ok (.ok ())) :
    WellFormed scheme.lengthPublicKey scheme.lengthSignature tx ∧
      AuthSigned scheme.lengthSignature tx.auth := by
  obtain ⟨version, -, pubkeySize, matched, size, sigSize, signed⟩ :=
    validateCheapChecks_ok_iff.mp checked
  rw [getPubkeySize, getSize_of_enabled getOqsAlgName_dilithium3 enabled] at pubkeySize
  rw [getSignatureSize, getSize_of_enabled getOqsAlgName_dilithium3 enabled] at sigSize
  have pubkeySized : scheme.lengthPublicKey = tx.fromPubkey.length := Result.ok.inj pubkeySize
  have sigSized : scheme.lengthSignature = size := Result.ok.inj sigSize
  subst sigSized
  exact ⟨⟨version, pubkeySized.symm, matched, signed.sized⟩, signed⟩

/-- A well-formed transaction passes the cheap checks exactly when its fields do
and it is not unsigned. -/
theorem validateCheapChecks_of_wellFormed {tx : Transaction} {chainId : UInt32}
    (enabled : oqs.sigNew "ML-DSA-65" = some scheme) (sized : oqs.MlDsa65Sized)
    (wellFormed : WellFormed 1952 3309 tx) :
    validateCheapChecks oqs tx chainId = .ok (.ok ()) ↔
      FieldsChecked tx chainId ∧ ¬ Unsigned tx := by
  obtain ⟨pubkeySize, sigSize⟩ := sized scheme enabled
  rw [← authSigned_iff (by decide) wellFormed.authMatches wellFormed.authSized, ← sigSize]
  constructor
  · intro checked
    obtain ⟨-, fields, -⟩ := validateCheapChecks_ok_iff.mp checked
    exact ⟨fields, (wellFormed_of_cheapChecks enabled checked).2⟩
  · rintro ⟨fields, signed⟩
    have pubkeySized : tx.fromPubkey.length = scheme.lengthPublicKey :=
      wellFormed.pubkeySized.trans pubkeySize.symm
    exact (validateCheapChecks_of_signed enabled wellFormed.version pubkeySized
      wellFormed.authMatches signed).mpr fields

/-- A signed well-formed transaction passes the basic structure test. -/
theorem isValidStructure_of_signed {pubkeySize sigSize : Nat} {tx : Transaction}
    (wellFormed : WellFormed pubkeySize sigSize tx) (signed : AuthSigned sigSize tx.auth)
    (pubkeyNonzero : pubkeySize ≠ 0) (sigNonzero : sigSize ≠ 0) :
    isValidStructure tx = .ok true := by
  have nonempty : ∀ {bytes : Bytes}, bytes.length ≠ 0 → bytes ≠ [] := by
    rintro bytes sized rfl
    exact sized rfl
  have keyPresent : tx.fromPubkey ≠ [] := nonempty (by rw [wellFormed.pubkeySized]; exact
    pubkeyNonzero)
  have matched := wellFormed.authMatches
  rw [isValidStructure, if_neg (not_not_intro wellFormed.version), if_neg keyPresent]
  cases auth : tx.auth with
  | pq signature =>
      rw [auth] at matched signed
      have mode : tx.authMode = .PqOnly := matched
      have present : signature.sig ≠ [] := nonempty (by rw [signed]; exact sigNonzero)
      rw [if_pos mode, Auth.getPq_pq]
      simp [present]
  | hybrid signature =>
      rw [auth] at matched signed
      have mode : tx.authMode = .Hybrid := matched
      have classicalPresent : signature.classicalSig ≠ [] := nonempty (by rw [signed.1]; decide)
      have pqPresent : signature.pqSig ≠ [] := nonempty (by rw [signed.2]; exact sigNonzero)
      rw [mode, if_neg AuthMode.Hybrid_ne_PqOnly, if_pos rfl, Auth.getHybrid_hybrid]
      simp [classicalPresent, pqPresent]

/-- With ML-DSA-65 enabled at its standard lengths: what passes the cheap checks
is encoded, is decoded from its encoding, and has a valid structure; and what is
decoded passes the cheap checks of a chain exactly when its chain id and amounts
do and it is not unsigned. -/
theorem cheapChecks_decoder_agree (enabled : oqs.sigNew "ML-DSA-65" = some scheme)
    (sized : oqs.MlDsa65Sized) :
    (∀ tx chainId, validateCheapChecks oqs tx chainId = .ok (.ok ()) →
      ∃ data, encode tx = .ok (.ok data) ∧ decode oqs data = .ok tx ∧
        isValidStructure tx = .ok true) ∧
    ∀ data tx, decode oqs data = .ok tx → ∀ chainId,
      (validateCheapChecks oqs tx chainId = .ok (.ok ()) ↔
        (tx.chainId = chainId ∧ tx.nonce ≠ 0 ∧ tx.amount ≠ 0 ∧ tx.fee ≠ 0) ∧ ¬ Unsigned tx) := by
  obtain ⟨pubkeySize, sigSize⟩ := sized scheme enabled
  constructor
  · intro tx chainId checked
    obtain ⟨wellFormed, signed⟩ := wellFormed_of_cheapChecks enabled checked
    rw [pubkeySize, sigSize] at wellFormed
    rw [sigSize] at signed
    exact ⟨txLayout tx, encode_of_representable wellFormed.representable_mlDsa65,
      decode_txLayout sized wellFormed,
      isValidStructure_of_signed wellFormed signed (by decide) (by decide)⟩
  · intro data tx decoded chainId
    obtain ⟨wellFormed, -⟩ := (decode_ok_iff_of_sized sized).mp decoded
    have fields : FieldsChecked tx chainId ↔
        tx.chainId = chainId ∧ tx.nonce ≠ 0 ∧ tx.amount ≠ 0 ∧ tx.fee ≠ 0 :=
      ⟨fun ⟨chain, nonce, amount, fee⟩ => ⟨chain, nonce, amount, fee⟩,
        fun ⟨chain, nonce, amount, fee⟩ => ⟨chain, nonce, amount, fee⟩⟩
    rw [validateCheapChecks_of_wellFormed enabled sized wellFormed, fields]

theorem cheapChecks_decoder_agree_zeroKey :
    isValidStructure (referenceSigned zeroKeyTx) = .ok true ∧
      validateCheapChecks (referenceOqs onlyZeroKeyTx) zeroKeyTx 1 ≠ .ok (.ok ()) := by
  obtain ⟨checkedDecodes, decodedChecks⟩ :=
    cheapChecks_decoder_agree (@referenceOqs_enabled onlyZeroKeyTx) referenceOqs_mlDsa65Sized
  have signed : AuthSigned 3309 (referenceSigned zeroKeyTx).auth := (copyInto 3309 _).property
  have notUnsigned : ¬ Unsigned (referenceSigned zeroKeyTx) :=
    (authSigned_iff (by decide) zeroKeySigned_wellFormed.authMatches
      zeroKeySigned_wellFormed.authSized).mp signed
  constructor
  · have fields : (referenceSigned zeroKeyTx).chainId = 1 ∧ (referenceSigned zeroKeyTx).nonce ≠ 0 ∧
        (referenceSigned zeroKeyTx).amount ≠ 0 ∧ (referenceSigned zeroKeyTx).fee ≠ 0 :=
      ⟨rfl, by decide, by decide, by decide⟩
    have checked := (decodedChecks _ _ decode_zeroKeySigned 1).mpr ⟨fields, notUnsigned⟩
    obtain ⟨data, -, -, valid⟩ := checkedDecodes _ _ checked
    exact valid
  · intro checked
    have decoded := decode_txLayout (@referenceOqs_mlDsa65Sized onlyZeroKeyTx) zeroKeyTx_wellFormed
    exact ((decodedChecks _ _ decoded 1).mp checked).2 ⟨rfl, rfl⟩

end Enabled

end PqcLedger.Tx
