import PqcLedger.Codec.Canonical
import PqcLedger.Tx.Validation

/-!
# Where exceptions escape

`decode` settles its exceptions; the functions that take a `Transaction` do not.
For each of them this module says on which transactions an exception escapes:
behind every such escape is a field that the wire format cannot represent.
-/

namespace PqcLedger.Tx

open PqcLedger.Cxx PqcLedger.Codec PqcLedger.Crypto

/-- The call returns: no exception escapes from it. -/
def Returns {α : Type} (call : Throws α) : Prop := ∃ value, call = .ok value

/-- The authentication mode is one of the two that have a name. -/
def Named (tx : Transaction) : Prop := tx.authMode = .PqOnly ∨ tx.authMode = .Hybrid

theorem returns_ok {α : Type} (value : α) : Returns (.ok value : Throws α) := ⟨value, rfl⟩

theorem not_returns_error {α : Type} (thrown : Exception) :
    ¬ Returns (.error thrown : Throws α) := by
  rintro ⟨value, returned⟩
  cases returned

/-- `encode_for_signing` throws exactly on a public key that overflows its prefix. -/
theorem encodeForSigning_returns_iff {tx : Transaction} :
    Returns (encodeForSigning tx) ↔ tx.fromPubkey.length ≤ maxPrefixed := by
  by_cases fits : tx.fromPubkey.length ≤ maxPrefixed
  · rw [encodeForSigning_of_fits fits]
    exact iff_of_true (returns_ok _) fits
  · rw [encodeForSigning_of_exceeds fits]
    exact iff_of_false (not_returns_error _) fits

/-- `encode` throws on such a key, and under a named mode on whatever else the
wire format cannot represent. -/
theorem encode_returns_iff {tx : Transaction} :
    Returns (encode tx) ↔
      tx.fromPubkey.length ≤ maxPrefixed ∧ (Named tx → Representable tx) := by
  by_cases fits : tx.fromPubkey.length ≤ maxPrefixed
  · by_cases representable : Representable tx
    · rw [encode_of_representable representable]
      exact iff_of_true (returns_ok _) ⟨fits, fun _ => representable⟩
    · by_cases named : Named tx
      · obtain ⟨thrown, threw⟩ := encode_throws named representable
        rw [threw]
        exact iff_of_false (not_returns_error _) fun both => representable (both.2 named)
      · obtain ⟨notPqOnly, notHybrid⟩ := not_or.mp named
        rw [encode_of_unnamed fits notPqOnly notHybrid]
        exact iff_of_true (returns_ok _) ⟨fits, fun isNamed => absurd isNamed named⟩
  · rw [encode_of_exceeds fits]
    exact iff_of_false (not_returns_error _) fun both => fits both.1

/-- `verify_transaction` throws on such a key, and under a named mode on the
other alternative of the variant. -/
theorem verifyTransaction_returns_iff {backend : Backend} {tx : Transaction} {chainId : UInt32} :
    Returns (verifyTransaction backend tx chainId) ↔
      tx.fromPubkey.length ≤ maxPrefixed ∧
        (Named tx → AuthMatches tx.authMode tx.auth) := by
  by_cases fits : tx.fromPubkey.length ≤ maxPrefixed
  · by_cases matched : AuthMatches tx.authMode tx.auth
    · refine iff_of_true ?_ ⟨fits, fun _ => matched⟩
      cases auth : tx.auth with
      | pq signature =>
          rw [auth] at matched
          rw [verifyTransaction_pqOnly fits matched auth]
          exact returns_ok _
      | hybrid signature =>
          rw [auth] at matched
          rw [verifyTransaction_hybrid fits matched auth]
          exact returns_ok _
    · by_cases named : Named tx
      · rw [verifyTransaction_mismatched fits named matched]
        exact iff_of_false (not_returns_error _) fun both => matched (both.2 named)
      · obtain ⟨notPqOnly, notHybrid⟩ := not_or.mp named
        rw [verifyTransaction_unnamed fits notPqOnly notHybrid]
        exact iff_of_true (returns_ok _) ⟨fits, fun isNamed => absurd isNamed named⟩
  · rw [verifyTransaction_of_exceeds fits]
    exact iff_of_false (not_returns_error _) fun both => fits both.1

/-- A selection by mode that reads the alternative of the mode throws exactly on
the other one, where its branches return. -/
theorem byMode_returns_iff {α : Type} {tx : Transaction} {onPqOnly : PqSignature → Throws α}
    {onHybrid : HybridSignature → Throws α} {otherwise : Throws α}
    (pqOnlyReturns : ∀ signature, Returns (onPqOnly signature))
    (hybridReturns : ∀ signature, Returns (onHybrid signature))
    (otherwiseReturns : Returns otherwise) :
    Returns (if tx.authMode = .PqOnly then tx.auth.getPq >>= onPqOnly
      else if tx.authMode = .Hybrid then tx.auth.getHybrid >>= onHybrid else otherwise) ↔
      (Named tx → AuthMatches tx.authMode tx.auth) := by
  by_cases pqOnly : tx.authMode = .PqOnly
  · rw [if_pos pqOnly, pqOnly]
    cases auth : tx.auth with
    | pq signature => exact iff_of_true (pqOnlyReturns signature) fun _ => rfl
    | hybrid signature =>
        refine iff_of_false (not_returns_error .badVariantAccess) fun agree => ?_
        exact AuthMode.Hybrid_ne_PqOnly (agree (.inl pqOnly)).symm
  · rw [if_neg pqOnly]
    by_cases hybrid : tx.authMode = .Hybrid
    · rw [if_pos hybrid, hybrid]
      cases auth : tx.auth with
      | pq signature =>
          refine iff_of_false (not_returns_error .badVariantAccess) fun agree => ?_
          exact AuthMode.Hybrid_ne_PqOnly (agree (.inr hybrid))
      | hybrid signature => exact iff_of_true (hybridReturns signature) fun _ => rfl
    · rw [if_neg hybrid]
      exact iff_of_true otherwiseReturns fun named => absurd named (not_or.mpr ⟨pqOnly, hybrid⟩)

theorem checkAuth_returns_iff {oqs : Oqs} {tx : Transaction} :
    Returns (checkAuth oqs tx) ↔ (Named tx → AuthMatches tx.authMode tx.auth) := by
  refine byMode_returns_iff (fun _ => returns_ok _) (fun signature => ?_) (returns_ok _)
  split <;> exact returns_ok _

/-- An early error return is passed by, or is itself a return. -/
theorem check_returns_iff {refuse : Prop} [Decidable refuse] {error : Error}
    {next : Throws (Result Unit)} :
    Returns (if refuse then pure (.err error) else next) ↔ (¬ refuse → Returns next) := by
  by_cases refused : refuse
  · rw [if_pos refused]
    exact iff_of_true (returns_ok _) fun passed => absurd refused passed
  · rw [if_neg refused]
    exact ⟨fun returned _ => returned, fun returned => returned refused⟩

/-- `validate_cheap_checks` throws exactly when every earlier check passes and a
named mode meets the other alternative of the variant. -/
theorem validateCheapChecks_returns_iff {oqs : Oqs} {tx : Transaction} {chainId : UInt32} :
    Returns (validateCheapChecks oqs tx chainId) ↔
      (tx.version = 1 → FieldsChecked tx chainId →
        getPubkeySize oqs "Dilithium3" = .ok tx.fromPubkey.length →
          Named tx → AuthMatches tx.authMode tx.auth) := by
  rw [validateCheapChecks, check_returns_iff, check_returns_iff, check_returns_iff,
    check_returns_iff, check_returns_iff, not_not, not_not]
  have sized : checkPubkeySize oqs tx.fromPubkey = .ok () ↔
      getPubkeySize oqs "Dilithium3" = .ok tx.fromPubkey.length := checkSize_ok_iff
  rw [← sized, ← checkAuth_returns_iff]
  cases outcome : checkPubkeySize oqs tx.fromPubkey with
  | err error =>
      refine iff_of_true (fun _ _ _ _ _ => returns_ok _) ?_
      intro _ _ passed
      cases passed
  | ok done =>
      constructor
      · intro returned version fields _
        exact returned version fields.chainId fields.nonce fields.amount fields.fee
      · intro returned version chain nonce amount fee
        exact returned version ⟨chain, nonce, amount, fee⟩ rfl

/-- `is_valid_structure` throws on the other alternative of the variant, once the
version and the key have passed. -/
theorem isValidStructure_returns_iff {tx : Transaction} :
    Returns (isValidStructure tx) ↔
      (tx.version = 1 → tx.fromPubkey ≠ [] → Named tx → AuthMatches tx.authMode tx.auth) := by
  unfold isValidStructure
  by_cases version : tx.version = 1
  · rw [if_neg (not_not_intro version)]
    by_cases empty : tx.fromPubkey = []
    · rw [if_pos empty]
      exact iff_of_true (returns_ok _) fun _ nonempty => absurd empty nonempty
    · rw [if_neg empty]
      have reached : (tx.version = 1 → tx.fromPubkey ≠ [] → Named tx →
          AuthMatches tx.authMode tx.auth) ↔ (Named tx → AuthMatches tx.authMode tx.auth) :=
        ⟨fun agree => agree version empty, fun agree _ _ => agree⟩
      rw [reached]
      exact byMode_returns_iff (fun _ => returns_ok _) (fun _ => returns_ok _) (returns_ok _)
  · rw [if_pos version]
    exact iff_of_true (returns_ok _) fun one => absurd one version

/-- The pipeline throws where its stages do. -/
theorem validateTransaction_returns_iff {backend : Backend} {tx : Transaction}
    {chainId : UInt32} :
    Returns (validateTransaction backend tx chainId) ↔
      Returns (validateCheapChecks backend.oqs tx chainId) ∧
        (validateCheapChecks backend.oqs tx chainId = .ok (.ok ()) →
          Returns (verifyTransaction backend tx chainId)) := by
  rcases cheap : validateCheapChecks backend.oqs tx chainId with thrown | done | error
  · rw [validateTransaction, cheap, Throws.bind_error]
    exact iff_of_false (not_returns_error _) fun both => not_returns_error _ both.1
  · rw [validateTransaction_of_checked cheap]
    exact ⟨fun verified => ⟨returns_ok _, fun _ => verified⟩, fun both => both.2 rfl⟩
  · rw [validateTransaction_of_refused cheap]
    refine iff_of_true (returns_ok _) ⟨returns_ok _, ?_⟩
    intro passed
    cases passed

/-- No exception escapes from any of the functions that take a transaction. -/
def AllReturn (backend : Backend) (tx : Transaction) (chainId : UInt32) : Prop :=
  Returns (encode tx) ∧ Returns (encodeForSigning tx) ∧
    Returns (validateCheapChecks backend.oqs tx chainId) ∧
      Returns (validateTransaction backend tx chainId) ∧
        Returns (verifyTransaction backend tx chainId)

/-- The functions all return exactly on the transactions that `encode` returns on. -/
theorem allReturn_iff {backend : Backend} {tx : Transaction} {chainId : UInt32} :
    AllReturn backend tx chainId ↔
      tx.fromPubkey.length ≤ maxPrefixed ∧ (Named tx → Representable tx) := by
  constructor
  · rintro ⟨encoded, -⟩
    exact encode_returns_iff.mp encoded
  · rintro ⟨fits, representable⟩
    have matched : Named tx → AuthMatches tx.authMode tx.auth := fun named =>
      (representable named).authMatches
    have cheap : Returns (validateCheapChecks backend.oqs tx chainId) :=
      validateCheapChecks_returns_iff.mpr fun _ _ _ => matched
    have verified : Returns (verifyTransaction backend tx chainId) :=
      verifyTransaction_returns_iff.mpr ⟨fits, matched⟩
    exact ⟨encode_returns_iff.mpr ⟨fits, representable⟩, encodeForSigning_returns_iff.mpr fits,
      cheap, validateTransaction_returns_iff.mpr ⟨cheap, fun _ => verified⟩, verified⟩

/-- All five functions return, with an error from `encode` wherever the wire
format cannot represent the transaction, exactly where it can. -/
theorem structured_errors_iff (backend : Backend) (tx : Transaction) (chainId : UInt32) :
    AllReturn backend tx chainId ∧
        (¬ Representable tx → ∃ error, encode tx = .ok (.err error)) ↔
      Representable tx := by
  rw [allReturn_iff]
  constructor
  · rintro ⟨-, reported⟩
    by_cases representable : Representable tx
    · exact representable
    · obtain ⟨error, failed⟩ := reported representable
      exact absurd failed (encode_ne_err tx error)
  · intro representable
    exact ⟨⟨representable.pubkeyFits, fun _ => representable⟩,
      fun unrepresentable => absurd representable unrepresentable⟩

/-- A PqOnly transaction that carries the hybrid alternative makes `encode` and
`verify_transaction` throw; one of mode 2 is encoded without an error. -/
theorem structured_errors_counterexample :
    encode { zeroKeyTx with auth := .hybrid ⟨[], []⟩ } = .error .badVariantAccess ∧
      verifyTransaction ⟨noOqs, none⟩ { zeroKeyTx with auth := .hybrid ⟨[], []⟩ } 1 =
        .error .badVariantAccess ∧
      ¬ Representable { zeroKeyTx with authMode := ⟨2⟩ } ∧
        ¬ ∃ error, encode { zeroKeyTx with authMode := ⟨2⟩ } = .ok (.err error) := by
  have fits := zeroKeyTx_wellFormed.representable_mlDsa65.pubkeyFits
  have unnamed : ¬ Named { zeroKeyTx with authMode := ⟨2⟩ } := by
    unfold Named
    decide
  have otherPayload : ¬ AuthMatches AuthMode.PqOnly (.hybrid ⟨[], []⟩) := by decide
  refine ⟨?_, ?_, fun representable => unnamed representable.authMatches.named, ?_⟩
  · exact encode_of_fits fits
  · exact verifyTransaction_mismatched fits (.inl rfl) otherPayload
  · rintro ⟨error, failed⟩
    exact encode_ne_err _ error failed

end PqcLedger.Tx
