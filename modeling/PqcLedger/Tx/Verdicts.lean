import PqcLedger.Codec.Readme
import PqcLedger.Tx.Agreement
import PqcLedger.Tx.Completeness
import PqcLedger.Tx.StructuredErrors

/-!
# Verdicts on decoded transactions

A verifier answers a decoded PqOnly transaction with true or false, whatever its
signature. It answers no hybrid one: Ed25519 is handed a key that is not its own
and reports that as an error, which the pipeline passes on.
-/

namespace PqcLedger.Tx

open PqcLedger.Cxx PqcLedger.Codec PqcLedger.Crypto

/-- The call answers true or false, without an error. -/
def Answers (call : Throws (Result Bool)) : Prop := ∃ valid, call = .ok (.ok valid)

theorem not_answers_err (error : Error) : ¬ Answers (.ok (.err error)) := by
  rintro ⟨valid, answered⟩
  cases answered

section Build

variable {backend : Backend} {ssl : OpenSsl} {scheme : OqsSig} {data : Bytes} {tx : Transaction}

/-- Verification answers the PqOnly transactions and no others. -/
theorem verifyTransaction_answers_iff (built : backend.openssl = some ssl)
    (enabled : backend.oqs.sigNew "ML-DSA-65" = some scheme)
    (wellFormed : WellFormed 1952 3309 tx) (chainId : UInt32) :
    Answers (verifyTransaction backend tx chainId) ↔ tx.authMode = .PqOnly := by
  have fits := wellFormed.representable_mlDsa65.pubkeyFits
  have matched := wellFormed.authMatches
  cases auth : tx.auth with
  | pq signature =>
      rw [auth] at matched
      rw [verifyTransaction_pqOnly fits matched auth]
      obtain ⟨valid, answered⟩ := verify_of_enabled getOqsAlgName_dilithium3 enabled
        (signingMessage chainId tx) signature.sig tx.fromPubkey
      rw [answered]
      exact iff_of_true ⟨valid, rfl⟩ matched
  | hybrid signature =>
      rw [auth] at matched
      have mode : tx.authMode = .Hybrid := matched
      have wrongSize : tx.fromPubkey.length ≠ 32 := by
        rw [wellFormed.pubkeySized]
        decide
      rw [verifyTransaction_hybrid_refused built fits wrongSize mode auth, mode]
      exact iff_of_false (not_answers_err _) AuthMode.Hybrid_ne_PqOnly

/-- A hybrid transaction has the signatures that the cheap checks demand. -/
theorem validateCheapChecks_of_hybrid {chainId : UInt32} (sized : backend.oqs.MlDsa65Sized)
    (enabled : backend.oqs.sigNew "ML-DSA-65" = some scheme)
    (wellFormed : WellFormed 1952 3309 tx) (notPqOnly : tx.authMode ≠ .PqOnly) :
    validateCheapChecks backend.oqs tx chainId = .ok (.ok ()) ↔ FieldsChecked tx chainId := by
  have notUnsigned : ¬ Unsigned tx := fun unsigned => notPqOnly unsigned.1
  rw [validateCheapChecks_of_wellFormed enabled sized wellFormed]
  exact and_iff_left notUnsigned

/-- The pipeline moreover answers whatever fails the checks in front of verification. -/
theorem validateTransaction_answers_iff (built : backend.openssl = some ssl)
    (sized : backend.oqs.MlDsa65Sized) (enabled : backend.oqs.sigNew "ML-DSA-65" = some scheme)
    (wellFormed : WellFormed 1952 3309 tx) (chainId : UInt32) :
    Answers (validateTransaction backend tx chainId) ↔
      tx.authMode = .PqOnly ∨ ¬ FieldsChecked tx chainId := by
  rcases cheap : validateCheapChecks backend.oqs tx chainId with thrown | done | error
  · have returned : Returns (validateCheapChecks backend.oqs tx chainId) :=
      validateCheapChecks_returns_iff.mpr fun _ _ _ _ => wellFormed.authMatches
    rw [cheap] at returned
    exact absurd returned (not_returns_error thrown)
  · obtain ⟨-, fields, -⟩ := validateCheapChecks_ok_iff.mp cheap
    rw [validateTransaction_of_checked cheap,
      verifyTransaction_answers_iff built enabled wellFormed]
    exact ⟨.inl, fun either => either.resolve_right (not_not_intro fields)⟩
  · rw [validateTransaction_of_refused cheap]
    refine iff_of_true ⟨false, rfl⟩ ?_
    by_cases pqOnly : tx.authMode = .PqOnly
    · exact .inl pqOnly
    · right
      intro fields
      have passed :=
        (validateCheapChecks_of_hybrid sized enabled wellFormed pqOnly).mpr fields
      rw [cheap] at passed
      cases passed

/-- In a build with OpenSSL and ML-DSA-65, a decoded transaction is answered by
verification and by the pipeline exactly when it is a PqOnly one; the pipeline
alone also answers a hybrid one whose chain id or amounts fail. -/
theorem verdicts_iff (built : backend.openssl = some ssl)
    (enabled : backend.oqs.sigNew "ML-DSA-65" = some scheme) (sized : backend.oqs.MlDsa65Sized)
    (decoded : decode backend.oqs data = .ok tx) (chainId : UInt32) :
    (Answers (verifyTransaction backend tx chainId) ∧
        Answers (validateTransaction backend tx chainId) ↔ tx.authMode = .PqOnly) ∧
      (Answers (validateTransaction backend tx chainId) ↔
        tx.authMode = .PqOnly ∨ ¬ FieldsChecked tx chainId) := by
  obtain ⟨wellFormed, -⟩ := (decode_ok_iff_of_sized sized).mp decoded
  have validated := validateTransaction_answers_iff built sized enabled wellFormed chainId
  refine ⟨?_, validated⟩
  rw [validated, verifyTransaction_answers_iff built enabled wellFormed]
  exact ⟨fun both => both.1, fun pqOnly => ⟨pqOnly, .inl pqOnly⟩⟩

end Build

theorem verdicts_iff_zeroKeyTx :
    Answers (verifyTransaction (referenceBackend fun _ => true) zeroKeyTx 7) ∧
      Answers (validateTransaction (referenceBackend fun _ => true) zeroKeyTx 7) := by
  have decoded : decode (referenceBackend fun _ => true).oqs (txLayout zeroKeyTx) =
      .ok zeroKeyTx := decode_txLayout referenceOqs_mlDsa65Sized zeroKeyTx_wellFormed
  exact (verdicts_iff rfl referenceOqs_enabled referenceOqs_mlDsa65Sized decoded 7).1.mpr rfl

/-- A hybrid transaction is decoded, and both answers to it are errors. -/
theorem verdicts_hybrid_counterexample :
    (referenceBackend fun _ => true).openssl = some referenceSsl ∧
      (referenceBackend fun _ => true).oqs.sigNew "ML-DSA-65" = some (referenceSig fun _ => true) ∧
      decode (referenceBackend fun _ => true).oqs (txLayout zeroKeyHybridTx) = .ok zeroKeyHybridTx ∧
      ¬ Answers (verifyTransaction (referenceBackend fun _ => true) zeroKeyHybridTx 1) ∧
      ¬ Answers (validateTransaction (referenceBackend fun _ => true) zeroKeyHybridTx 1) := by
  refine ⟨rfl, referenceOqs_enabled,
    decode_txLayout referenceOqs_mlDsa65Sized zeroKeyHybridTx_wellFormed, ?_, ?_⟩
  · rw [verifyTransaction_answers_iff rfl referenceOqs_enabled zeroKeyHybridTx_wellFormed]
    decide
  · rw [validateTransaction_answers_iff rfl referenceOqs_mlDsa65Sized referenceOqs_enabled
      zeroKeyHybridTx_wellFormed]
    rintro (pqOnly | unchecked)
    · exact AuthMode.Hybrid_ne_PqOnly pqOnly
    · exact unchecked ⟨rfl, by decide, by decide, by decide⟩

end PqcLedger.Tx
