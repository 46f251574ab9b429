import PqcLedger.Codec.Canonical
import PqcLedger.Crypto.Reference
import PqcLedger.Tx.Signing
import Mathlib.Data.Set.Function

/-!
# What an accepted transaction proves

The primitives are idealised relative to a log of signing calls: SHA-256 has no
collision among the byte strings that the log and a verification hash, and the
PQ scheme accepts only signatures that a logged call attached. Acceptance then
leads back to a logged call on the same fields, key and chain. It does not lead
back to the mode of that call, which is not signed.
-/

namespace PqcLedger.Tx

open PqcLedger.Cxx PqcLedger.Codec PqcLedger.Crypto

/-! ## The signing preimage -/

theorem chainIdBe_eq (chainId : UInt32) : chainIdBe chainId = u32Layout chainId :=
  writeU32Be_eq [] chainId

/-- The hashed bytes determine the chain and the signed fields. -/
theorem preimage_inj {leftChain rightChain : UInt32} {left right : Transaction}
    (leftFits : left.fromPubkey.length ≤ maxPrefixed)
    (rightFits : right.fromPubkey.length ≤ maxPrefixed) :
    preimage leftChain left = preimage rightChain right ↔
      leftChain = rightChain ∧ SameBody left right := by
  have bodies : bodyLayout left ++ ([] : Bytes) = bodyLayout right ++ [] ↔
      SameBody left right ∧ ([] : Bytes) = [] := bodyLayout_append_inj leftFits rightFits
  simp only [List.append_nil, and_true] at bodies
  rw [preimage, preimage, signingPreimage, signingPreimage, List.append_assoc, List.append_assoc,
    List.append_cancel_left_eq, chainIdBe_eq, chainIdBe_eq,
    u32_recognizes.append_inj trivial trivial, bodies]

/-- The byte strings hashed for two transactions, each made of the domain, a chain
id and the signing encoding, are equal exactly when the chains and all fields but
the mode and the signatures are. -/
theorem signing_preimage_injective {leftChain rightChain : UInt32} {left right : Transaction}
    (leftFits : left.fromPubkey.length ≤ 65535) (rightFits : right.fromPubkey.length ≤ 65535) :
    ∃ leftData rightData, encodeForSigning left = .ok (.ok leftData) ∧
      encodeForSigning right = .ok (.ok rightData) ∧
      createSigningMessage leftChain leftData =
        .ok (Picosha2.hash256 (domainPrefix ++ chainIdBe leftChain ++ leftData)) ∧
      createSigningMessage rightChain rightData =
        .ok (Picosha2.hash256 (domainPrefix ++ chainIdBe rightChain ++ rightData)) ∧
      (domainPrefix ++ chainIdBe leftChain ++ leftData =
          domainPrefix ++ chainIdBe rightChain ++ rightData ↔
        leftChain = rightChain ∧ SameBody left right) :=
  ⟨bodyLayout left, bodyLayout right, encodeForSigning_of_fits leftFits,
    encodeForSigning_of_fits rightFits, createSigningMessage_eq _ _, createSigningMessage_eq _ _,
    preimage_inj leftFits rightFits⟩

/-- The preimages of one transaction on two chains differ. -/
theorem signing_preimage_injective_zeroKeyTx :
    ∃ data, encodeForSigning zeroKeyTx = .ok (.ok data) ∧
      domainPrefix ++ chainIdBe 1 ++ data ≠ domainPrefix ++ chainIdBe 2 ++ data := by
  have fits := zeroKeyTx_wellFormed.representable_mlDsa65.pubkeyFits
  obtain ⟨data, other, encoded, otherEncoded, -, -, same⟩ :=
    @signing_preimage_injective 1 2 _ _ fits fits
  rw [encoded] at otherEncoded
  cases otherEncoded
  refine ⟨data, encoded, fun equal => ?_⟩
  exact absurd (same.mp equal).1 (by decide)

/-- The signatures and the mode have no part in the message. -/
theorem signingMessage_of_sameBody {left right : Transaction} (same : SameBody left right)
    (chainId : UInt32) : signingMessage chainId left = signingMessage chainId right := by
  rw [signingMessage, preimage, same.bodyLayout_eq]
  rfl

/-! ## Signing logs -/

/-- A call of one of the two signers, with the default algorithm. -/
inductive SigningCall where
  | signTransaction (tx : Transaction) (privkey coins : Bytes)
  | signTransactionHybrid (tx : Transaction) (pqPrivkey ed25519Privkey coins : Bytes)

namespace SigningCall

/-- The transaction as it was passed. -/
def tx : SigningCall → Transaction
  | .signTransaction tx _ _ => tx
  | .signTransactionHybrid tx _ _ _ => tx

/-- The private key of the PQ signature. -/
def pqPrivkey : SigningCall → Bytes
  | .signTransaction _ privkey _ => privkey
  | .signTransactionHybrid _ pqPrivkey _ _ => pqPrivkey

/-- The bytes that the call draws. -/
def coins : SigningCall → Bytes
  | .signTransaction _ _ coins => coins
  | .signTransactionHybrid _ _ _ coins => coins

/-- The mode in which the call signs. -/
def mode : SigningCall → AuthMode
  | .signTransaction .. => .PqOnly
  | .signTransactionHybrid .. => .Hybrid

/-- The call, under the default algorithm. -/
def run (backend : Backend) : SigningCall → Throws (Result Unit × Transaction)
  | .signTransaction tx privkey coins =>
      Tx.signTransaction backend tx privkey defaultAlgorithm coins
  | .signTransactionHybrid tx pqPrivkey ed25519Privkey coins =>
      Tx.signTransactionHybrid backend tx pqPrivkey ed25519Privkey defaultAlgorithm coins

/-- The message signed by the call. -/
def message (call : SigningCall) : Bytes := signingMessage call.tx.chainId call.tx

end SigningCall

/-- The PQ signature attached to a transaction. -/
def attachedPqSig : Auth → Signature
  | .pq signature => signature.sig
  | .hybrid signature => signature.pqSig

/-- A signing call that returned Ok, and the transaction it left behind. -/
structure LoggedCall (backend : Backend) where
  call : SigningCall
  signed : Transaction
  returned : call.run backend = .ok (.ok (), signed)

variable {backend : Backend}

/-- What a logged call did: it signed its message, attached the signature and
changed nothing but the mode and the signatures. -/
structure LoggedCall.Signed (logged : LoggedCall backend) : Prop where
  fits : logged.call.tx.fromPubkey.length ≤ maxPrefixed
  sign : Crypto.sign backend.oqs logged.call.message logged.call.pqPrivkey defaultAlgorithm
    logged.call.coins = .ok (attachedPqSig logged.signed.auth)
  body : SameBody logged.signed logged.call.tx
  mode : logged.signed.authMode = logged.call.mode
  matched : AuthMatches logged.signed.authMode logged.signed.auth

theorem LoggedCall.spec (logged : LoggedCall backend) : logged.Signed := by
  obtain ⟨call, signed, returned⟩ := logged
  cases call with
  | signTransaction tx privkey coins =>
      obtain ⟨fits, signature, signOk, rfl⟩ := signTransaction_ok_iff.mp returned
      exact ⟨fits, signOk, ⟨rfl, rfl, rfl, rfl, rfl, rfl, rfl⟩, rfl, rfl⟩
  | signTransactionHybrid tx pqPrivkey ed25519Privkey coins =>
      obtain ⟨fits, classicalSig, pqSig, signOk, -, rfl⟩ := signTransactionHybrid_ok_iff.mp returned
      exact ⟨fits, signOk, ⟨rfl, rfl, rfl, rfl, rfl, rfl, rfl⟩, rfl, rfl⟩

/-- The scheme that the default algorithm opens. -/
def DefaultScheme (backend : Backend) (scheme : OqsSig) : Prop :=
  openSig backend.oqs defaultAlgorithm "ML-DSA-65" = some scheme

/-- The default scheme accepts a signature only if a logged call attached it to
that message, under the private key of that public key. -/
def Unforgeable (log : List (LoggedCall backend)) : Prop :=
  ∀ scheme, DefaultScheme backend scheme → ∀ pubkey message signature,
    scheme.verify message signature pubkey = true →
      ∃ logged ∈ log, scheme.KeyPair pubkey logged.call.pqPrivkey ∧
        logged.call.message = message ∧ attachedPqSig logged.signed.auth = signature

/-- The byte strings hashed by the logged calls and by one verification. -/
def hashedPreimages (log : List (LoggedCall backend)) (chainId : UInt32) (tx : Transaction) :
    Set Bytes :=
  {bytes | bytes = preimage chainId tx ∨
    ∃ logged ∈ log, bytes = preimage logged.call.tx.chainId logged.call.tx}

/-- SHA-256 is injective on these byte strings. -/
def CollisionFree (log : List (LoggedCall backend)) (chainId : UInt32) (tx : Transaction) : Prop :=
  Set.InjOn Picosha2.hash256 (hashedPreimages log chainId tx)

/-- The logged call signed these fields for this chain, under the private key of
the sender, and attached the PQ signature that the transaction carries. -/
structure SignedBy (logged : LoggedCall backend) (chainId : UInt32) (tx : Transaction) : Prop where
  keyPair : ∃ scheme, DefaultScheme backend scheme ∧
    scheme.KeyPair tx.fromPubkey logged.call.pqPrivkey
  body : SameBody logged.call.tx tx
  chain : logged.call.tx.chainId = chainId
  attached : attachedPqSig logged.signed.auth = attachedPqSig tx.auth

/-- Either mode demands acceptance of the attached PQ signature by the default scheme. -/
theorem accepted_pqSig {tx : Transaction} {chainId : UInt32}
    (accepted : verifyTransaction backend tx chainId = .ok (.ok true)) :
    ∃ scheme, DefaultScheme backend scheme ∧
      scheme.verify (signingMessage chainId tx) (attachedPqSig tx.auth) tx.fromPubkey = true := by
  obtain ⟨-, -, signatures⟩ := verifyTransaction_true_iff.mp accepted
  have pqAccepted : verify backend.oqs (signingMessage chainId tx) (attachedPqSig tx.auth)
      tx.fromPubkey "Dilithium3" = .ok true := by
    cases auth : tx.auth with
    | pq signature =>
        rw [auth] at signatures
        exact signatures
    | hybrid signature =>
        rw [auth] at signatures
        exact signatures.2
  obtain ⟨algName, scheme, named, opened, -, -, verified⟩ := verify_eq_true_iff.mp pqAccepted
  rw [getOqsAlgName_dilithium3] at named
  cases named
  exact ⟨scheme, opened, verified⟩

/-- An accepted transaction was signed by a logged call. -/
theorem accepted_was_signed {log : List (LoggedCall backend)} {tx : Transaction}
    {chainId : UInt32} (unforgeable : Unforgeable log)
    (collisionFree : CollisionFree log chainId tx)
    (accepted : verifyTransaction backend tx chainId = .ok (.ok true)) :
    ∃ logged ∈ log, SignedBy logged chainId tx := by
  obtain ⟨fits, -, -⟩ := verifyTransaction_true_iff.mp accepted
  obtain ⟨scheme, opened, verified⟩ := accepted_pqSig accepted
  obtain ⟨logged, member, keyPair, sameMessage, attached⟩ :=
    unforgeable scheme opened _ _ _ verified
  have samePreimage : preimage logged.call.tx.chainId logged.call.tx = preimage chainId tx :=
    collisionFree (.inr ⟨logged, member, rfl⟩) (.inl rfl) sameMessage
  obtain ⟨chain, body⟩ := (preimage_inj logged.spec.fits fits).mp samePreimage
  exact ⟨logged, member, ⟨scheme, opened, keyPair⟩, body, chain, attached⟩

/-! ## Authenticity -/

/-- A decoded transaction that is accepted on a chain is for that chain, and some
logged call signed its fields, under the private key of its sender, with the PQ
signature it carries. -/
theorem accepted_authentic {log : List (LoggedCall backend)} {data : Bytes} {tx : Transaction}
    {chainId : UInt32} (unforgeable : Unforgeable log)
    (collisionFree : CollisionFree log chainId tx)
    (_decoded : decode backend.oqs data = .ok tx)
    (accepted : verifyTransaction backend tx chainId = .ok (.ok true)) :
    tx.chainId = chainId ∧ ∃ logged ∈ log, SignedBy logged chainId tx := by
  obtain ⟨logged, member, signedBy⟩ := accepted_was_signed unforgeable collisionFree accepted
  have sameChain : tx.chainId = chainId := by
    rw [← signedBy.body.chainId]
    exact signedBy.chain
  exact ⟨sameChain, logged, member, signedBy⟩

/-! ## Logs of the reference backend -/

/-- The reference scheme beside the reference Ed25519. -/
def referenceBackend (signed : Bytes → Bool) : Backend := ⟨referenceOqs signed, some referenceSsl⟩

theorem referenceBackend_scheme {signed : Bytes → Bool} {scheme : OqsSig}
    (opened : DefaultScheme (referenceBackend signed) scheme) : scheme = referenceSig signed := by
  have enabled : openSig (referenceBackend signed).oqs defaultAlgorithm "ML-DSA-65" = _ :=
    openSig_of_enabled referenceOqs_enabled
  rw [DefaultScheme, enabled] at opened
  exact (Option.some.inj opened).symm

/-- The signature that the reference backend makes for a transaction. -/
def referenceTxSig (tx : Transaction) : Signature :=
  (copyInto 3309 (signingMessage tx.chainId tx)).val

/-- The transaction as `sign_transaction` leaves it. -/
def referenceSigned (tx : Transaction) : Transaction :=
  { tx with authMode := .PqOnly, auth := .pq ⟨referenceTxSig tx⟩ }

theorem signTransaction_reference (signed : Bytes → Bool) {tx : Transaction}
    (fits : tx.fromPubkey.length ≤ maxPrefixed) :
    signTransaction (referenceBackend signed) tx (zeroKey 4032).val defaultAlgorithm [] =
      .ok (.ok (), referenceSigned tx) := by
  rw [signTransaction_ok_iff]
  exact ⟨fits, referenceTxSig tx, sign_referenceOqs _ _, rfl⟩

theorem zeroKeyTx_fits : zeroKeyTx.fromPubkey.length ≤ maxPrefixed :=
  zeroKeyTx_wellFormed.representable_mlDsa65.pubkeyFits

theorem zeroKeySigned_wellFormed : WellFormed 1952 3309 (referenceSigned zeroKeyTx) :=
  ⟨rfl, List.length_replicate, rfl, .inr (copyInto 3309 _).property⟩

/-- `sign_transaction` run on `zeroKeyTx`. -/
def zeroKeyCall (signed : Bytes → Bool) : LoggedCall (referenceBackend signed) where
  call := .signTransaction zeroKeyTx (zeroKey 4032).val []
  signed := referenceSigned zeroKeyTx
  returned := signTransaction_reference signed zeroKeyTx_fits

/-- Only the message of `zeroKeyTx` on its own chain. -/
def onlyZeroKeyTx (message : Bytes) : Bool := message == signingMessage 1 zeroKeyTx

/-- A reference backend that accepts one message is unforgeable once it is logged. -/
theorem onlyZeroKeyTx_unforgeable {log : List (LoggedCall (referenceBackend onlyZeroKeyTx))}
    {logged : LoggedCall (referenceBackend onlyZeroKeyTx)} (member : logged ∈ log)
    (tx : logged.call.tx = zeroKeyTx) (privkey : logged.call.pqPrivkey = (zeroKey 4032).val)
    (attached : attachedPqSig logged.signed.auth = referenceTxSig zeroKeyTx) : Unforgeable log := by
  intro scheme opened pubkey message signature verified
  rw [referenceBackend_scheme opened] at verified ⊢
  obtain ⟨signed, rfl, rfl⟩ := referenceSig_verify_iff.mp verified
  have sameMessage : message = signingMessage 1 zeroKeyTx := by simpa [onlyZeroKeyTx] using signed
  refine ⟨logged, member, ?_, ?_, ?_⟩
  · rw [privkey]
    exact referenceSig_keyPair
  · rw [SigningCall.message, tx, sameMessage]
    rfl
  · rw [attached, sameMessage]
    rfl

/-- One logged call and a verification of its fields hash one byte string. -/
theorem collisionFree_of_sameBody {logged : LoggedCall backend} {tx : Transaction}
    {chainId : UInt32} (same : SameBody logged.call.tx tx) (chain : tx.chainId = chainId) :
    CollisionFree [logged] chainId tx := by
  subst chain
  have single : ∀ {bytes}, bytes ∈ hashedPreimages [logged] tx.chainId tx →
      bytes = preimage tx.chainId tx := by
    rintro bytes (rfl | ⟨other, member, rfl⟩)
    · rfl
    · rw [List.mem_singleton.mp member, preimage, same.bodyLayout_eq, same.chainId]
      rfl
  intro left leftMember right rightMember _
  rw [single leftMember, single rightMember]

theorem verify_zeroKeySig {tx : Transaction} (same : SameBody tx zeroKeyTx) :
    verify (referenceBackend onlyZeroKeyTx).oqs (signingMessage 1 tx) (referenceTxSig zeroKeyTx)
      tx.fromPubkey "Dilithium3" = .ok true := by
  rw [signingMessage_of_sameBody same, same.fromPubkey, verify_eq_true_iff]
  refine ⟨"ML-DSA-65", _, getOqsAlgName_dilithium3, openSig_of_enabled referenceOqs_enabled,
    List.length_replicate, (copyInto 3309 _).property, referenceSig_verify_iff.mpr ⟨?_, rfl, rfl⟩⟩
  exact beq_self_eq_true _

theorem verifyTransaction_zeroKeySigned :
    verifyTransaction (referenceBackend onlyZeroKeyTx) (referenceSigned zeroKeyTx) 1 =
      .ok (.ok true) :=
  verifyTransaction_true_iff.mpr
    ⟨zeroKeyTx_fits, rfl, verify_zeroKeySig (zeroKeyCall onlyZeroKeyTx).spec.body⟩

theorem decode_zeroKeySigned :
    decode (referenceBackend onlyZeroKeyTx).oqs (txLayout (referenceSigned zeroKeyTx)) =
      .ok (referenceSigned zeroKeyTx) :=
  decode_txLayout referenceOqs_mlDsa65Sized zeroKeySigned_wellFormed

theorem accepted_authentic_zeroKey :
    (referenceSigned zeroKeyTx).chainId = 1 ∧
      ∃ logged ∈ [zeroKeyCall onlyZeroKeyTx], SignedBy logged 1 (referenceSigned zeroKeyTx) := by
  have unforgeable : Unforgeable [zeroKeyCall onlyZeroKeyTx] :=
    onlyZeroKeyTx_unforgeable (List.mem_singleton.mpr rfl) rfl rfl rfl
  have collisionFree : CollisionFree [zeroKeyCall onlyZeroKeyTx] 1 (referenceSigned zeroKeyTx) :=
    collisionFree_of_sameBody (zeroKeyCall onlyZeroKeyTx).spec.body.symm rfl
  exact accepted_authentic unforgeable collisionFree decode_zeroKeySigned
    verifyTransaction_zeroKeySigned

end PqcLedger.Tx
