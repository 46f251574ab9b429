import PqcLedger.Codec.DecodeParse
import PqcLedger.Codec.EncodeLayout

/-!
# The wire format is canonical

The layout of a transaction determines it, and its body is self-delimiting, so
neither can be re-framed. With the decoder and the encoder tied to the layout,
an accepted byte string is the encoding of what it decodes to, and an encoding
is decoded to its own transaction or not at all.
-/

namespace PqcLedger.Codec

open PqcLedger.Cxx PqcLedger.Crypto Framing

/-- The two transactions agree on every field but the mode and the signatures. -/
structure SameBody (left right : Transaction) : Prop where
  version : left.version = right.version
  chainId : left.chainId = right.chainId
  nonce : left.nonce = right.nonce
  fromPubkey : left.fromPubkey = right.fromPubkey
  toAddr : left.toAddr = right.toAddr
  amount : left.amount = right.amount
  fee : left.fee = right.fee

theorem SameBody.symm {left right : Transaction} (same : SameBody left right) :
    SameBody right left :=
  ⟨same.version.symm, same.chainId.symm, same.nonce.symm, same.fromPubkey.symm, same.toAddr.symm,
    same.amount.symm, same.fee.symm⟩

theorem SameBody.refl (tx : Transaction) : SameBody tx tx :=
  ⟨rfl, rfl, rfl, rfl, rfl, rfl, rfl⟩

theorem SameBody.trans {first second third : Transaction} (left : SameBody first second)
    (right : SameBody second third) : SameBody first third :=
  ⟨left.version.trans right.version, left.chainId.trans right.chainId,
    left.nonce.trans right.nonce, left.fromPubkey.trans right.fromPubkey,
    left.toAddr.trans right.toAddr, left.amount.trans right.amount, left.fee.trans right.fee⟩

theorem SameBody.bodyLayout_eq {left right : Transaction} (same : SameBody left right) :
    bodyLayout left = bodyLayout right := by
  simp only [bodyLayout, same.version, same.chainId, same.nonce, same.fromPubkey, same.toAddr,
    same.amount, same.fee]

/-- A body is self-delimiting: its bytes determine the fields, whatever follows. -/
theorem bodyLayout_append_inj {left right : Transaction} {leftRest rightRest : Bytes}
    (leftFits : left.fromPubkey.length ≤ maxPrefixed)
    (rightFits : right.fromPubkey.length ≤ maxPrefixed) :
    bodyLayout left ++ leftRest = bodyLayout right ++ rightRest ↔
      SameBody left right ∧ leftRest = rightRest := by
  constructor
  · intro same
    simp only [bodyLayout, List.cons_append, List.append_assoc, List.cons.injEq] at same
    obtain ⟨version, same⟩ := same
    obtain ⟨chainId, same⟩ := (u32_recognizes.append_inj trivial trivial).mp same
    obtain ⟨nonce, same⟩ := (u64_recognizes.append_inj trivial trivial).mp same
    obtain ⟨fromPubkey, same⟩ := (prefixed_recognizes.append_inj leftFits rightFits).mp same
    have sized : left.toAddr.val.length = right.toAddr.val.length := by
      rw [left.toAddr.property, right.toAddr.property]
    obtain ⟨toAddr, same⟩ := List.append_inj same sized
    obtain ⟨amount, same⟩ := (u64_recognizes.append_inj trivial trivial).mp same
    obtain ⟨fee, same⟩ := (u64_recognizes.append_inj trivial trivial).mp same
    exact ⟨⟨version, chainId, nonce, fromPubkey, Subtype.ext toAddr, amount, fee⟩, same⟩
  · rintro ⟨same, rfl⟩
    rw [same.bodyLayout_eq]

/-- Under one mode, matching signatures are determined by their layout. -/
theorem authLayout_inj {mode : AuthMode} {left right : Auth} (leftMatches : AuthMatches mode left)
    (rightMatches : AuthMatches mode right) (leftFits : AuthFits left) (rightFits : AuthFits right)
    (same : authLayout left = authLayout right) : left = right := by
  cases left with
  | pq leftSig =>
      cases right with
      | hybrid rightSig =>
          exact absurd (rightMatches.symm.trans leftMatches) AuthMode.Hybrid_ne_PqOnly
      | pq rightSig =>
          have framed : prefixedLayout leftSig.sig ++ [] = prefixedLayout rightSig.sig ++ [] := by
            simpa [authLayout] using same
          obtain ⟨sig, -⟩ := (prefixed_recognizes.append_inj leftFits rightFits).mp framed
          cases leftSig
          cases rightSig
          simpa using sig
  | hybrid leftSig =>
      cases right with
      | pq rightSig => exact absurd (leftMatches.symm.trans rightMatches) AuthMode.Hybrid_ne_PqOnly
      | hybrid rightSig =>
          obtain ⟨classicalSig, same⟩ :=
            (prefixed_recognizes.append_inj leftFits.1 rightFits.1).mp same
          have framed :
              prefixedLayout leftSig.pqSig ++ [] = prefixedLayout rightSig.pqSig ++ [] := by
            simpa using same
          obtain ⟨pqSig, -⟩ := (prefixed_recognizes.append_inj leftFits.2 rightFits.2).mp framed
          cases leftSig
          cases rightSig
          simp_all

/-- A representable transaction is determined by its layout. -/
theorem txLayout_inj {left right : Transaction} (leftFits : Representable left)
    (rightFits : Representable right) (same : txLayout left = txLayout right) : left = right := by
  obtain ⟨body, tail⟩ :=
    (bodyLayout_append_inj leftFits.pubkeyFits rightFits.pubkeyFits).mp same
  simp only [List.cons.injEq] at tail
  obtain ⟨byte, signatures⟩ := tail
  have mode : left.authMode = right.authMode := by
    cases leftMode : left.authMode
    cases rightMode : right.authMode
    rw [leftMode, rightMode] at byte
    exact congrArg AuthMode.mk byte
  have matched := leftFits.authMatches
  rw [mode] at matched
  have auth := authLayout_inj matched rightFits.authMatches leftFits.authFits rightFits.authFits
    signatures
  exact Transaction.ext body.version body.chainId body.nonce body.fromPubkey body.toAddr
    body.amount body.fee mode auth

/-! ## Decode, then encode -/

/-- An unsigned transfer under the key of 1952 zero bytes. -/
def zeroKeyTx : Transaction :=
  unsignedTx 1 1 (List.replicate 1952 0) ⟨List.replicate 32 0, List.length_replicate⟩ 1000 10

theorem zeroKeyTx_wellFormed : WellFormed 1952 3309 zeroKeyTx :=
  unsignedTx_wellFormed 3309 List.length_replicate _ _ _ _ _

/-- With ML-DSA-65 at its standard lengths, `decode` accepts exactly the layouts of
well-formed transactions. -/
theorem decode_ok_iff_of_sized {oqs : Oqs} {data : Bytes} {tx : Transaction}
    (sized : oqs.MlDsa65Sized) :
    decode oqs data = .ok tx ↔ WellFormed 1952 3309 tx ∧ data = txLayout tx := by
  rw [decode_ok_iff, expectedPubkeySize_of_sized sized, expectedSigSize_of_sized sized]
  constructor
  · rintro ⟨wellFormed, -, laidOut⟩
    exact ⟨wellFormed, laidOut⟩
  · rintro ⟨wellFormed, laidOut⟩
    exact ⟨wellFormed, wellFormed.representable_mlDsa65, laidOut⟩

/-- A well-formed transaction is decoded from its layout. -/
theorem decode_txLayout {oqs : Oqs} {tx : Transaction} (sized : oqs.MlDsa65Sized)
    (wellFormed : WellFormed 1952 3309 tx) : decode oqs (txLayout tx) = .ok tx :=
  (decode_ok_iff_of_sized sized).mpr ⟨wellFormed, rfl⟩

/-- Whatever `decode` accepts is the encoding of the transaction it returns, and
no other byte string decodes to that transaction. -/
theorem decode_canonical {oqs : Oqs} {data : Bytes} {tx : Transaction}
    (decoded : decode oqs data = .ok tx) :
    encode tx = .ok (.ok data) ∧ ∀ other, decode oqs other = .ok tx → other = data := by
  obtain ⟨-, representable, rfl⟩ := decode_ok_iff.mp decoded
  refine ⟨encode_of_representable representable, ?_⟩
  intro other otherDecoded
  exact (decode_ok_iff.mp otherDecoded).2.2

/-- The one byte string that is decoded to `zeroKeyTx`. -/
theorem decode_canonical_zeroKeyTx :
    decode noOqs (txLayout zeroKeyTx) = .ok zeroKeyTx ∧
      encode zeroKeyTx = .ok (.ok (txLayout zeroKeyTx)) ∧
        ∀ other, decode noOqs other = .ok zeroKeyTx → other = txLayout zeroKeyTx := by
  have decoded := decode_txLayout noOqs_mlDsa65Sized zeroKeyTx_wellFormed
  exact ⟨decoded, decode_canonical decoded⟩

/-! ## Encode, then decode -/

/-- With ML-DSA-65 at its standard lengths, an encoding is decoded to its own
transaction when that is well formed, and rejected when it is not. -/
theorem decode_encode {oqs : Oqs} {tx : Transaction} {data : Bytes} (sized : oqs.MlDsa65Sized)
    (encoded : encode tx = .ok (.ok data)) :
    (WellFormed 1952 3309 tx → decode oqs data = .ok tx) ∧
      (¬ WellFormed 1952 3309 tx → ∃ error, decode oqs data = .err error) := by
  constructor
  · intro wellFormed
    have representable := wellFormed.representable_mlDsa65
    rw [encode_of_representable representable] at encoded
    simp only [Except.ok.injEq, Result.ok.injEq] at encoded
    rw [← encoded]
    exact decode_txLayout sized wellFormed
  · intro illFormed
    cases outcome : decode oqs data with
    | err error => exact ⟨error, rfl⟩
    | ok accepted =>
        -- An accepted transaction would have the layout of an ill-formed one.
        obtain ⟨wellFormed, laidOut⟩ := (decode_ok_iff_of_sized sized).mp outcome
        have representable := wellFormed.representable_mlDsa65
        rcases encode_ok_iff.mp encoded with
          ⟨txFits, written⟩ | ⟨fits, notPqOnly, notHybrid, written⟩
        · have same : tx = accepted :=
            txLayout_inj txFits representable (written.symm.trans laidOut)
          exact absurd (same ▸ wellFormed) illFormed
        · have framed := written.symm.trans laidOut
          obtain ⟨-, tail⟩ := (bodyLayout_append_inj fits representable.pubkeyFits).mp framed
          simp only [List.cons.injEq] at tail
          rcases representable.authMatches.named with pqOnly | hybrid
          · rw [pqOnly] at tail
            exact absurd ((AuthMode.eq_PqOnly_iff _).mpr tail.1) notPqOnly
          · rw [hybrid] at tail
            exact absurd ((AuthMode.eq_Hybrid_iff _).mpr tail.1) notHybrid

theorem decode_encode_zeroKeyTx :
    decode noOqs (txLayout zeroKeyTx) = .ok zeroKeyTx ∧
      ∃ error, decode noOqs (txLayout { zeroKeyTx with version := 2 }) = .err error := by
  have representable := zeroKeyTx_wellFormed.representable_mlDsa65
  have versionTwo : Representable { zeroKeyTx with version := 2 } :=
    ⟨representable.pubkeyFits, representable.authMatches, representable.authFits⟩
  refine ⟨(decode_encode noOqs_mlDsa65Sized (encode_of_representable representable)).1
    zeroKeyTx_wellFormed, ?_⟩
  refine (decode_encode noOqs_mlDsa65Sized (encode_of_representable versionTwo)).2 ?_
  intro wellFormed
  exact absurd wellFormed.version (by decide)

/-! ## What is signed is what is sent -/

/-- A representable transaction is signed as the part of its layout in front of the tag. -/
theorem encodeForSigning_of_representable {tx : Transaction} (representable : Representable tx) :
    encodeForSigning tx =
      .ok (.ok ((txLayout tx).take (63 + tx.fromPubkey.length))) := by
  rw [encodeForSigning_of_fits representable.pubkeyFits, txLayout, ← bodyLayout_length tx,
    List.take_left]

/-- Under a named mode what `encode` returns is the signing encoding, the tag and
the length-prefixed signatures of the mode; and the signing encoding of a decoded
transaction is the first 2015 bytes that were received. -/
theorem signed_is_sent {oqs : Oqs} (sized : oqs.MlDsa65Sized) :
    (∀ tx data, tx.authMode = .PqOnly ∨ tx.authMode = .Hybrid → encode tx = .ok (.ok data) →
      ∃ signed, encodeForSigning tx = .ok (.ok signed) ∧
        data = signed ++ tx.authMode.byte :: authLayout tx.auth ∧
          AuthMatches tx.authMode tx.auth ∧ AuthFits tx.auth) ∧
    ∀ data tx, decode oqs data = .ok tx →
      encodeForSigning tx = .ok (.ok (data.take 2015)) ∧ 2015 < data.length := by
  constructor
  · intro tx data named encoded
    rcases encode_ok_iff.mp encoded with
      ⟨representable, laidOut⟩ | ⟨-, notPqOnly, notHybrid, -⟩
    · exact ⟨bodyLayout tx, encodeForSigning_of_fits representable.pubkeyFits, laidOut,
        representable.authMatches, representable.authFits⟩
    · exact (named.elim notPqOnly notHybrid).elim
  · intro data tx decoded
    obtain ⟨wellFormed, rfl⟩ := (decode_ok_iff_of_sized sized).mp decoded
    have body : 63 + tx.fromPubkey.length = 2015 := by rw [wellFormed.pubkeySized]
    constructor
    · rw [encodeForSigning_of_representable wellFormed.representable_mlDsa65, body]
    · rw [txLayout, List.length_append, bodyLayout_length, body, List.length_cons]
      omega

theorem signed_is_sent_zeroKeyTx :
    (∃ signed, encodeForSigning zeroKeyTx = .ok (.ok signed) ∧
        txLayout zeroKeyTx = signed ++ zeroKeyTx.authMode.byte :: authLayout zeroKeyTx.auth) ∧
      encodeForSigning zeroKeyTx = .ok (.ok ((txLayout zeroKeyTx).take 2015)) := by
  obtain ⟨sent, received⟩ := signed_is_sent noOqs_mlDsa65Sized
  have encoded := encode_of_representable zeroKeyTx_wellFormed.representable_mlDsa65
  obtain ⟨signed, signedIs, laidOut, -⟩ := sent zeroKeyTx _ (.inl rfl) encoded
  exact ⟨⟨signed, signedIs, laidOut⟩,
    (received _ _ (decode_txLayout noOqs_mlDsa65Sized zeroKeyTx_wellFormed)).1⟩

end PqcLedger.Codec
