import PqcLedger.Semantics.Runs
import PqcLedger.Tx.Authenticity
import PqcLedger.Tx.StructuredErrors

/-!
# Runs of the signers

Any sequence of signing calls on a decoded transaction, with any keys and
algorithm names. A call changes the mode and the signatures together or nothing
at all, so the transaction stays representable and its signed part stays put.
-/

namespace PqcLedger.Tx

open PqcLedger.Cxx PqcLedger.Codec PqcLedger.Crypto Semantics

/-- The arguments of a signing call on a given transaction. -/
inductive SignRequest where
  | signTransaction (privkey : Bytes) (algorithm : String) (coins : Bytes)
  | signTransactionHybrid (pqPrivkey ed25519Privkey : Bytes) (pqAlgorithm : String) (coins : Bytes)

/-- Make the call on a transaction. -/
def SignRequest.apply (backend : Backend) (tx : Transaction) :
    SignRequest → Throws (Result Unit × Transaction)
  | .signTransaction privkey algorithm coins =>
      Tx.signTransaction backend tx privkey algorithm coins
  | .signTransactionHybrid pqPrivkey ed25519Privkey pqAlgorithm coins =>
      Tx.signTransactionHybrid backend tx pqPrivkey ed25519Privkey pqAlgorithm coins

/-- A call that returns, with whatever result, leaves this transaction behind. -/
def Signs (backend : Backend) (tx : Transaction) (request : SignRequest) (after : Transaction) :
    Prop :=
  ∃ result, request.apply backend tx = .ok (result, after)

/-- The signatures of every enabled algorithm fit a length prefix. -/
def SignaturesFit (oqs : Oqs) : Prop :=
  ∀ name scheme, oqs.sigNew name = some scheme → ∀ coins message privkey buffer length,
    scheme.sign coins message privkey = .ok (buffer, length) → length ≤ 65535

theorem sign_fits {oqs : Oqs} {message privkey : Bytes} {algorithm : String} {coins : Bytes}
    {signature : Signature} (fit : SignaturesFit oqs)
    (signed : sign oqs message privkey algorithm coins = .ok signature) :
    signature.length ≤ maxPrefixed := by
  obtain ⟨algName, scheme, buffer, length, -, opened, -, made, rfl⟩ := sign_eq_ok_iff.mp signed
  obtain ⟨name, enabled⟩ := openSig_enabled opened
  rw [resize_length]
  exact fit name scheme enabled coins message privkey buffer length made

variable {backend : Backend} {tx : Transaction}

/-- A call on a transaction that can be laid out returns. It reports an error and
leaves the transaction alone, or it replaces the mode together with signatures
that match the mode and fit. -/
theorem SignRequest.apply_cases (fit : SignaturesFit backend.oqs)
    (pubkeyFits : tx.fromPubkey.length ≤ maxPrefixed) (request : SignRequest) :
    (∃ error, request.apply backend tx = .ok (.err error, tx)) ∨
      ∃ mode auth, AuthMatches mode auth ∧ AuthFits auth ∧
        request.apply backend tx = .ok (.ok (), { tx with authMode := mode, auth := auth }) := by
  cases request with
  | signTransaction privkey algorithm coins =>
      rw [SignRequest.apply, signTransaction_of_fits pubkeyFits]
      cases made : sign backend.oqs (signingMessage tx.chainId tx) privkey algorithm coins with
      | err error => exact .inl ⟨error, rfl⟩
      | ok signature => exact .inr ⟨.PqOnly, .pq ⟨signature⟩, rfl, sign_fits fit made, rfl⟩
  | signTransactionHybrid pqPrivkey ed25519Privkey pqAlgorithm coins =>
      rw [SignRequest.apply, signTransactionHybrid_of_fits pubkeyFits]
      cases made : sign backend.oqs (signingMessage tx.chainId tx) pqPrivkey pqAlgorithm coins with
      | err error => exact .inl ⟨error, rfl⟩
      | ok pqSig =>
          cases classicalMade : ed25519Sign backend.openssl (signingMessage tx.chainId tx)
              ed25519Privkey with
          -- The PQ signature that was already made is dropped.
          | err error => exact .inl ⟨error, rfl⟩
          | ok classicalSig =>
              have classicalFits : classicalSig.length ≤ maxPrefixed := by
                rw [ed25519Sign_length classicalMade]
                decide
              exact .inr ⟨.Hybrid, .hybrid ⟨classicalSig, pqSig⟩, rfl,
                ⟨classicalFits, sign_fits fit made⟩, rfl⟩

/-- What every call leaves intact: the fields that are signed, and that the wire
format has a place for the transaction. -/
structure Kept (start tx : Transaction) : Prop where
  body : SameBody tx start
  representable : Representable tx

/-- One call: its result, and what it did to the transaction. -/
theorem Kept.step {start : Transaction} (kept : Kept start tx) (fit : SignaturesFit backend.oqs)
    (request : SignRequest) :
    ∃ result after, request.apply backend tx = .ok (result, after) ∧
      (∀ error, result = .err error → after = tx) ∧
      (result = .ok () → SameBody after tx) ∧ Kept start after := by
  rcases request.apply_cases fit kept.representable.pubkeyFits with
    ⟨error, refused⟩ | ⟨mode, auth, matched, fits, signed⟩
  · exact ⟨.err error, tx, refused, fun _ _ => rfl, nofun, kept⟩
  · have body : SameBody { tx with authMode := mode, auth := auth } tx :=
      ⟨rfl, rfl, rfl, rfl, rfl, rfl, rfl⟩
    exact ⟨.ok (), _, signed, nofun, fun _ => body, body.trans kept.body,
      ⟨kept.representable.pubkeyFits, matched, fits⟩⟩

theorem kept_invariant {start : Transaction} (fit : SignaturesFit backend.oqs)
    (representable : Representable start) :
    Invariant (Signs backend) start (Kept start) where
  initial := ⟨SameBody.refl start, representable⟩
  preserved := by
    rintro tx request next kept ⟨result, returned⟩
    obtain ⟨_, after, applied, -, -, keptAfter⟩ := kept.step fit request
    rw [returned] at applied
    cases applied
    exact keptAfter

/-- A transaction that every consumer can take: its alternative is that of its
mode, its fields fit their prefixes, and no exception escapes. -/
structure Sound (backend : Backend) (tx : Transaction) : Prop where
  representable : Representable tx
  returns : ∀ chainId, AllReturn backend tx chainId
  structureReturns : Returns (isValidStructure tx)

theorem Sound.of_representable (representable : Representable tx) : Sound backend tx where
  representable := representable
  returns := fun _ => allReturn_iff.mpr ⟨representable.pubkeyFits, fun _ => representable⟩
  structureReturns :=
    isValidStructure_returns_iff.mpr fun _ _ _ => representable.authMatches

/-- On a decoded transaction any sequence of signing calls can be made. After
every one of them the transaction is sound and encoded for signing as at the
start. The next call returns; if it reports an error it changes nothing, if it
succeeds it changes the mode and the signatures only, and it keeps all of this. -/
theorem signing_runs_sound {data : Bytes} {start : Transaction} (fit : SignaturesFit backend.oqs)
    (decoded : decode backend.oqs data = .ok start) :
    ∃ signed, encodeForSigning start = .ok (.ok signed) ∧
      (∀ requests, ∃ tx, Run (Signs backend) start requests tx) ∧
      ∀ requests tx, Run (Signs backend) start requests tx →
        encodeForSigning tx = .ok (.ok signed) ∧ Sound backend tx ∧
        ∀ request : SignRequest, ∃ result after, request.apply backend tx = .ok (result, after) ∧
          (∀ error, result = .err error → after = tx) ∧
          (result = .ok () → SameBody after tx) ∧
          encodeForSigning after = .ok (.ok signed) ∧ Sound backend after := by
  obtain ⟨-, representable, -⟩ := decode_ok_iff.mp decoded
  have invariant := kept_invariant fit representable
  have enabled : ∀ tx, Kept start tx → ∀ request, ∃ after, Signs backend tx request after := by
    intro tx kept request
    obtain ⟨result, after, applied, -⟩ := kept.step fit request
    exact ⟨after, result, applied⟩
  have encoded : ∀ {tx}, Kept start tx → encodeForSigning tx = .ok (.ok (bodyLayout start)) := by
    intro tx kept
    rw [encodeForSigning_of_fits kept.representable.pubkeyFits, kept.body.bodyLayout_eq]
  refine ⟨bodyLayout start, encoded invariant.initial, invariant.run_exists enabled, ?_⟩
  intro requests tx run
  have kept := invariant.of_run run
  refine ⟨encoded kept, Sound.of_representable kept.representable, fun request => ?_⟩
  obtain ⟨result, after, applied, unchanged, changed, keptAfter⟩ := kept.step fit request
  exact ⟨result, after, applied, unchanged, changed, encoded keptAfter,
    Sound.of_representable keptAfter.representable⟩

/-- The reference scheme's signatures fit their prefix. -/
theorem referenceOqs_signaturesFit (signed : Bytes → Bool) :
    SignaturesFit (referenceOqs signed) := by
  intro name scheme opened coins message privkey buffer length made
  have same := referenceOqs_only opened
  subst same
  cases made
  decide

/-- A hybrid call and then a PqOnly one, on an unsigned transfer. -/
theorem signing_runs_sound_zeroKeyTx :
    ∃ tx, Run (Signs (referenceBackend fun _ => true)) zeroKeyTx
        [.signTransactionHybrid (zeroKey 4032).val (zeroKey 32).val defaultAlgorithm [],
          .signTransaction (zeroKey 4032).val defaultAlgorithm []] tx ∧
      Sound (referenceBackend fun _ => true) tx := by
  have decoded : decode (referenceBackend fun _ => true).oqs (txLayout zeroKeyTx) =
      .ok zeroKeyTx := decode_txLayout referenceOqs_mlDsa65Sized zeroKeyTx_wellFormed
  obtain ⟨signed, -, runs, sound⟩ :=
    signing_runs_sound (referenceOqs_signaturesFit fun _ => true) decoded
  obtain ⟨tx, run⟩ := runs _
  exact ⟨tx, run, (sound _ tx run).2.1⟩

end PqcLedger.Tx
