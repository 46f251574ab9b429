import PqcLedger.Codec.Canonical

/-!
# The published encoding

The README specifies the wire format for other implementations. Its grammar is
stated here on its own and compared with the codec: the two agree field by field
up to the hybrid payload, whose signatures the README puts in the other order.
-/

namespace PqcLedger.Codec

open PqcLedger.Cxx PqcLedger.Crypto Framing

/-- The README's `auth_payload`: the PQ signature, then the classical one. -/
def readmeAuthPayload : Auth → Bytes
  | .pq signature => prefixedLayout signature.sig
  | .hybrid signature => prefixedLayout signature.pqSig ++ prefixedLayout signature.classicalSig

/-- The README's fields, in its order. -/
def readmeLayout (tx : Transaction) : Bytes :=
  [tx.version] ++ bigEndian 4 tx.chainId.toNat ++ bigEndian 8 tx.nonce.toNat ++
    prefixedLayout tx.fromPubkey ++ tx.toAddr.val ++ bigEndian 8 tx.amount.toNat ++
    bigEndian 8 tx.fee.toNat ++ [tx.authMode.byte] ++ readmeAuthPayload tx.auth

/-- A byte string parses under the README grammar, with these field values. -/
structure ReadmeGrammar (data : Bytes) (tx : Transaction) : Prop where
  version : tx.version = 1
  pubkeySize : tx.fromPubkey.length = 1952
  payload : (tx.authMode.byte = 0 ∧ ∃ sig : Signature,
      tx.auth = .pq ⟨sig⟩ ∧ (sig.length = 3309 ∨ sig.length = 0)) ∨
    (tx.authMode.byte = 1 ∧ ∃ classicalSig pqSig : Signature,
      tx.auth = .hybrid ⟨classicalSig, pqSig⟩ ∧ pqSig.length = 3309 ∧ classicalSig.length = 64)
  fields : data = readmeLayout tx

/-- The README imposes the sizes and the version that the decoder enforces. -/
theorem readmeGrammar_iff {data : Bytes} {tx : Transaction} :
    ReadmeGrammar data tx ↔ WellFormed 1952 3309 tx ∧ data = readmeLayout tx := by
  constructor
  · rintro ⟨version, pubkeySize, payload, fields⟩
    refine ⟨?_, fields⟩
    rcases payload with ⟨tagged, sig, auth, sized⟩ | ⟨tagged, classicalSig, pqSig, auth, sized⟩
    · refine ⟨version, pubkeySize, ?_, ?_⟩
      · rw [auth]
        exact (AuthMode.eq_PqOnly_iff _).mpr tagged
      · rw [auth]
        exact sized.symm
    · refine ⟨version, pubkeySize, ?_, ?_⟩
      · rw [auth]
        exact (AuthMode.eq_Hybrid_iff _).mpr tagged
      · rw [auth]
        exact sized.symm
  · rintro ⟨⟨version, pubkeySize, matched, sized⟩, fields⟩
    refine ⟨version, pubkeySize, ?_, fields⟩
    cases auth : tx.auth with
    | pq signature =>
        rw [auth] at matched sized
        exact .inl ⟨(AuthMode.eq_PqOnly_iff _).mp matched, signature.sig, rfl, sized.symm⟩
    | hybrid signature =>
        rw [auth] at matched sized
        exact .inr ⟨(AuthMode.eq_Hybrid_iff _).mp matched, signature.classicalSig, signature.pqSig,
          rfl, sized.symm⟩

theorem readmeLayout_eq (tx : Transaction) :
    readmeLayout tx = bodyLayout tx ++ tx.authMode.byte :: readmeAuthPayload tx.auth := by
  simp [readmeLayout, bodyLayout, u32Layout, u64Layout]

/-- The two layouts agree exactly where no two distinct signatures are sent. -/
theorem readmeLayout_eq_txLayout_iff {tx : Transaction} (fits : AuthFits tx.auth) :
    txLayout tx = readmeLayout tx ↔
      ∀ signature, tx.auth = .hybrid signature → signature.classicalSig = signature.pqSig := by
  rw [readmeLayout_eq, txLayout, List.append_cancel_left_eq, List.cons.injEq, eq_self_iff_true,
    true_and]
  cases auth : tx.auth with
  | pq signature => simp [authLayout, readmeAuthPayload]
  | hybrid signature =>
      rw [auth] at fits
      rw [authLayout, readmeAuthPayload, prefixed_recognizes.append_inj fits.1 fits.2]
      constructor
      · rintro ⟨same, -⟩ other named
        cases named
        exact same
      · intro same
        rw [same signature rfl]
        exact ⟨rfl, rfl⟩

/-- A hybrid transaction in either order of its signatures. -/
def HybridFramed (data : Bytes) : Prop :=
  ∃ tx, WellFormed 1952 3309 tx ∧ tx.authMode = .Hybrid ∧
    (data = txLayout tx ∨ data = readmeLayout tx)

/-- The signatures of a well-formed hybrid transaction differ in length, so its
two layouts differ. -/
theorem hybrid_layouts_ne {tx : Transaction} (wellFormed : WellFormed 1952 3309 tx)
    (hybrid : tx.authMode = .Hybrid) : txLayout tx ≠ readmeLayout tx := by
  have representable := wellFormed.representable_mlDsa65
  intro same
  have equalSigs := (readmeLayout_eq_txLayout_iff representable.authFits).mp same
  have matched := wellFormed.authMatches
  have sized := wellFormed.authSized
  cases auth : tx.auth with
  | pq signature =>
      rw [auth] at matched
      exact AuthMode.Hybrid_ne_PqOnly (hybrid.symm.trans matched)
  | hybrid signature =>
      rw [auth, AuthSized, equalSigs signature auth] at sized
      omega

/-- Outside hybrid mode the two layouts are one. -/
theorem pqOnly_layouts_eq {tx : Transaction} (wellFormed : WellFormed 1952 3309 tx)
    (notHybrid : tx.authMode ≠ .Hybrid) : txLayout tx = readmeLayout tx := by
  have representable := wellFormed.representable_mlDsa65
  rw [readmeLayout_eq_txLayout_iff representable.authFits]
  intro signature auth
  have matched := wellFormed.authMatches
  rw [auth] at matched
  exact absurd matched notHybrid

/-- The README's signature order is refused on a hybrid transaction, and the
codec's is no README transaction. -/
theorem decode_differs_of_hybridFramed {oqs : Oqs} (sized : oqs.MlDsa65Sized) {data : Bytes}
    (framed : HybridFramed data) :
    ¬ ∀ tx, decode oqs data = .ok tx ↔ ReadmeGrammar data tx := by
  obtain ⟨tx, wellFormed, hybrid, laidOut⟩ := framed
  have differ := hybrid_layouts_ne wellFormed hybrid
  intro agree
  rcases laidOut with rfl | rfl
  · have parsed := (agree tx).mp (decode_txLayout sized wellFormed)
    exact differ parsed.fields
  · have decoded := (agree tx).mpr (readmeGrammar_iff.mpr ⟨wellFormed, rfl⟩)
    exact differ (decode_ok_iff.mp decoded).2.2.symm

/-- On every other byte string decoding is parsing under the README grammar. -/
theorem decode_ok_iff_readme {oqs : Oqs} (sized : oqs.MlDsa65Sized) {data : Bytes}
    (unframed : ¬ HybridFramed data) (tx : Transaction) :
    decode oqs data = .ok tx ↔ ReadmeGrammar data tx := by
  rw [readmeGrammar_iff, decode_ok_iff_of_sized sized]
  constructor
  · rintro ⟨wellFormed, rfl⟩
    have notHybrid : tx.authMode ≠ .Hybrid := fun hybrid =>
      unframed ⟨tx, wellFormed, hybrid, .inl rfl⟩
    exact ⟨wellFormed, pqOnly_layouts_eq wellFormed notHybrid⟩
  · rintro ⟨wellFormed, rfl⟩
    have notHybrid : tx.authMode ≠ .Hybrid := fun hybrid =>
      unframed ⟨tx, wellFormed, hybrid, .inr rfl⟩
    exact ⟨wellFormed, (pqOnly_layouts_eq wellFormed notHybrid).symm⟩

/-- An encoding has the README's layout exactly in a documented mode and with no
two distinct signatures. -/
theorem encode_eq_readmeLayout_iff {tx : Transaction} {data : Bytes}
    (encoded : encode tx = .ok (.ok data)) :
    data = readmeLayout tx ↔
      (tx.authMode = .PqOnly ∨ tx.authMode = .Hybrid) ∧
        ∀ signature, tx.auth = .hybrid signature → signature.classicalSig = signature.pqSig := by
  rcases encode_ok_iff.mp encoded with ⟨representable, rfl⟩ | ⟨fits, notPqOnly, notHybrid, rfl⟩
  · rw [readmeLayout_eq_txLayout_iff representable.authFits]
    exact ⟨fun same => ⟨representable.authMatches.named, same⟩, fun both => both.2⟩
  · -- A bare tag is no README payload: every payload opens with a length.
    have nonempty : readmeAuthPayload tx.auth ≠ [] := by
      cases tx.auth <;> simp [readmeAuthPayload, prefixedLayout, bigEndian]
    rw [readmeLayout_eq, List.append_cancel_left_eq, List.cons.injEq]
    constructor
    · rintro ⟨-, bare⟩
      exact absurd bare.symm nonempty
    · rintro ⟨pqOnly | hybrid, -⟩
      · exact absurd pqOnly notPqOnly
      · exact absurd hybrid notHybrid

/-- `decode` follows the README on a byte string exactly when that is not a
hybrid transaction; `encode` follows it exactly in a documented mode and with no
two distinct signatures. -/
theorem codec_readme_iff {oqs : Oqs} (sized : oqs.MlDsa65Sized) :
    (∀ data, (∀ tx, decode oqs data = .ok tx ↔ ReadmeGrammar data tx) ↔ ¬ HybridFramed data) ∧
      ∀ tx data, encode tx = .ok (.ok data) →
        (data = readmeLayout tx ↔
          (tx.authMode = .PqOnly ∨ tx.authMode = .Hybrid) ∧
            ∀ signature, tx.auth = .hybrid signature →
              signature.classicalSig = signature.pqSig) := by
  constructor
  · intro data
    constructor
    · intro agree framed
      exact decode_differs_of_hybridFramed sized framed agree
    · exact decode_ok_iff_readme sized
  · intro tx data encoded
    exact encode_eq_readmeLayout_iff encoded

/-- A hybrid transfer under the key of 1952 zero bytes, with zero signatures. -/
def zeroKeyHybridTx : Transaction :=
  { zeroKeyTx with
    authMode := .Hybrid, auth := .hybrid ⟨List.replicate 64 0, List.replicate 3309 0⟩ }

theorem zeroKeyHybridTx_wellFormed : WellFormed 1952 3309 zeroKeyHybridTx :=
  ⟨rfl, List.length_replicate, rfl, List.length_replicate, List.length_replicate⟩

/-- The decoder takes a hybrid transaction that the README does not. -/
theorem readme_order_counterexample :
    noOqs.MlDsa65Sized ∧
      ¬ ∀ data tx, decode noOqs data = .ok tx ↔ ReadmeGrammar data tx := by
  refine ⟨noOqs_mlDsa65Sized, ?_⟩
  intro agree
  have parsed := (agree (txLayout zeroKeyHybridTx) zeroKeyHybridTx).mp
    (decode_txLayout noOqs_mlDsa65Sized zeroKeyHybridTx_wellFormed)
  exact hybrid_layouts_ne zeroKeyHybridTx_wellFormed rfl parsed.fields

theorem codec_readme_iff_noOqs :
    (¬ ∀ tx, decode noOqs (txLayout zeroKeyHybridTx) = .ok tx ↔
        ReadmeGrammar (txLayout zeroKeyHybridTx) tx) ∧
      txLayout zeroKeyTx = readmeLayout zeroKeyTx := by
  have representable := zeroKeyTx_wellFormed.representable_mlDsa65
  constructor
  · rw [(codec_readme_iff noOqs_mlDsa65Sized).1]
    exact not_not_intro ⟨zeroKeyHybridTx, zeroKeyHybridTx_wellFormed, rfl, .inl rfl⟩
  · rw [(codec_readme_iff noOqs_mlDsa65Sized).2 zeroKeyTx _ (encode_of_representable representable)]
    exact ⟨.inl rfl, fun _ auth => by cases auth⟩

end PqcLedger.Codec
