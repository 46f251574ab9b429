import PqcLedger.Codec.Canonical
import PqcLedger.Framing.Frames
import PqcLedger.Framing.Incremental

/-!
# Accepted byte strings cannot be re-framed

The stages before the end of the input read on when bytes are added and run
short when bytes are removed, so no accepted byte string has an accepted proper
front part or continuation. Those of one length are laid out in one frame, and
agree on the version, the length prefixes and the tag.
-/

namespace PqcLedger.Codec

open PqcLedger.Cxx PqcLedger.Crypto Framing

/-! ## Cut and continued inputs -/

/-- The violations that report an input cut short. -/
def Short (violation : Violation) : Prop := violation = .truncated ∨ violation = .lengthExceeds

theorem fixed_incremental {α : Type} (count : Nat) (read : Bytes → α) :
    Incremental Short (Parse.fixed count read) :=
  (Incremental.take (.inl rfl) count).bind fun _ => .pure _

theorem prefixed_incremental : Incremental Short Parse.prefixed :=
  (fixed_incremental 2 _).bind fun length => .take (.inr rfl) length.toNat

theorem auth_incremental (sigSize : Nat) (tag : UInt8) :
    Incremental Short (Parse.auth sigSize tag) := by
  unfold Parse.auth
  split
  · exact prefixed_incremental.bind fun sig => (Incremental.guard _ _).bind fun _ => .pure _
  · split
    · exact prefixed_incremental.bind fun classicalSig => prefixed_incremental.bind fun pqSig =>
        (Incremental.guard _ _).bind fun _ => .pure _
    · exact .reject _

/-- The parser of whole transactions, short of the end of the input. -/
def Parse.fields (pubkeySize sigSize : Nat) : WireParser Transaction :=
  u8 >>= fun version => Parser.guard (version = 1) .version >>= fun _ =>
    u32 >>= fun chainId => u64 >>= fun nonce => prefixed >>= fun fromPubkey =>
      Parser.guard (fromPubkey.length = pubkeySize) .pubkeySize >>= fun _ =>
        Parser.take .truncated 32 >>= fun toBytes => u64 >>= fun amount => u64 >>= fun fee =>
          u8 >>= fun tag => auth sigSize tag >>= fun signed =>
            pure ⟨version, chainId, nonce, fromPubkey, copyInto 32 toBytes, amount, fee,
              signed.1, signed.2⟩

theorem Parse.transaction_eq_fields (pubkeySize sigSize : Nat) :
    Parse.transaction pubkeySize sigSize =
      Parse.fields pubkeySize sigSize >>= fun tx =>
        Parser.finish .trailing >>= fun _ => pure tx := by
  simp only [Parse.transaction, Parse.fields, Parser.bind_assoc, Parser.pure_bind]

theorem fields_incremental (pubkeySize sigSize : Nat) :
    Incremental Short (Parse.fields pubkeySize sigSize) := by
  refine (fixed_incremental 1 _).bind fun version => (Incremental.guard _ _).bind fun _ => ?_
  refine (fixed_incremental 4 _).bind fun chainId => (fixed_incremental 8 _).bind fun nonce =>
    prefixed_incremental.bind fun fromPubkey => (Incremental.guard _ _).bind fun _ => ?_
  refine (Incremental.take (.inl rfl) 32).bind fun toBytes =>
    (fixed_incremental 8 _).bind fun amount => (fixed_incremental 8 _).bind fun fee =>
      (fixed_incremental 1 _).bind fun tag => (auth_incremental sigSize tag).bind fun _ => .pure _

variable {oqs : Oqs} {data : Bytes} {tx : Transaction}

/-- An accepted byte string is used up by the fields. -/
theorem fields_of_decoded (decoded : decode oqs data = .ok tx) :
    Parse.fields (expectedPubkeySize oqs) (expectedSigSize oqs) data = .ok (tx, []) := by
  obtain ⟨wellFormed, representable, laidOut⟩ := decode_ok_iff.mp decoded
  have parsed := transaction_ok_iff.mpr ⟨wellFormed, representable, laidOut, rfl⟩
  rw [Parse.transaction_eq_fields] at parsed
  obtain ⟨read, rest, fieldsRead, ended⟩ := Parser.bind_ok_iff.mp parsed
  obtain ⟨_, after, finished, returned⟩ := Parser.bind_ok_iff.mp ended
  obtain ⟨rfl, -⟩ := Parser.finish_ok_iff.mp finished
  obtain ⟨rfl, -⟩ := Parser.pure_ok_iff.mp returned
  exact fieldsRead

theorem decode_of_violation {violation : Violation} (nonempty : data ≠ [])
    (rejected : Parse.transaction (expectedPubkeySize oqs) (expectedSigSize oqs) data =
      .error violation) : ∃ error, decode oqs data = .err error ∧ error.code = violation.code := by
  have ran := decode_settles oqs data
  rw [rejected] at ran
  obtain ⟨error, failed, coded⟩ := ran
  exact ⟨error, failed, coded nonempty⟩

/-- A proper front part of an accepted byte string is rejected as empty or cut short. -/
theorem decode_front_rejected {front back : Bytes} (decoded : decode oqs data = .ok tx)
    (split : data = front ++ back) (proper : back ≠ []) :
    ∃ error, decode oqs front = .err error ∧
      (front = [] → error.code = .InvalidTransaction) ∧
      (front ≠ [] → error.code = .InvalidLengthPrefix ∨ error.code = .MismatchedLength) := by
  by_cases empty : front = []
  · subst empty
    exact ⟨_, rfl, fun _ => rfl, fun nonempty => absurd rfl nonempty⟩
  · have taken := fields_of_decoded decoded
    rw [split] at taken
    obtain ⟨violation, rejected, short⟩ := (fields_incremental _ _).front_rejected taken proper
    have rejectedWhole : Parse.transaction (expectedPubkeySize oqs) (expectedSigSize oqs) front =
        .error violation := by
      rw [Parse.transaction_eq_fields, Parser.bind_eq, rejected]
    obtain ⟨error, failed, coded⟩ := decode_of_violation empty rejectedWhole
    refine ⟨error, failed, fun isEmpty => absurd isEmpty empty, fun _ => ?_⟩
    rw [coded]
    rcases short with rfl | rfl
    · exact .inl rfl
    · exact .inr rfl

/-- A proper continuation of an accepted byte string has trailing bytes. -/
theorem decode_continuation_rejected {more : Bytes} (decoded : decode oqs data = .ok tx)
    (proper : more ≠ []) :
    ∃ error, decode oqs (data ++ more) = .err error ∧ error.code = .TrailingBytes := by
  have continued := (fields_incremental _ _).extend (fields_of_decoded decoded) more
  have rejected : Parse.transaction (expectedPubkeySize oqs) (expectedSigSize oqs) (data ++ more) =
      .error .trailing := by
    rw [Parse.transaction_eq_fields, Parser.bind_eq, continued]
    dsimp only
    rw [List.nil_append, Parser.bind_eq, Parser.finish, if_neg proper]
  exact decode_of_violation (fun empty => proper (List.append_eq_nil_iff.mp empty).2) rejected

/-! ## The frame of a transaction -/

/-- A length prefix and the bytes behind it. -/
def prefixedFrame (bytes : Bytes) : List (Slot UInt8) :=
  [.structural (bigEndian 2 bytes.length), .payload bytes.length]

/-- The frame of the signatures. -/
def authFrame : Auth → List (Slot UInt8)
  | .pq signature => prefixedFrame signature.sig
  | .hybrid signature => prefixedFrame signature.classicalSig ++ prefixedFrame signature.pqSig

/-- Version, length prefixes and tag are structural: the rest is payload, which
between the key and the tag is recipient, amount and fee. -/
def txFrame (tx : Transaction) : List (Slot UInt8) :=
  [.structural [tx.version], .payload 12] ++ prefixedFrame tx.fromPubkey ++
    [.payload 48, .structural [tx.authMode.byte]] ++ authFrame tx.auth

theorem prefixedLayout_inFrame {bytes rest : Bytes} {frame : List (Slot UInt8)}
    (restIn : InFrame frame rest) :
    InFrame (prefixedFrame bytes ++ frame) (prefixedLayout bytes ++ rest) := by
  rw [prefixedLayout, List.append_assoc]
  exact .structural _ (.payload rfl restIn)

theorem authLayout_inFrame (auth : Auth) : InFrame (authFrame auth) (authLayout auth) := by
  have single : ∀ bytes : Bytes, InFrame (prefixedFrame bytes) (prefixedLayout bytes) := by
    intro bytes
    have framed : InFrame (prefixedFrame bytes ++ []) (prefixedLayout bytes ++ []) :=
      prefixedLayout_inFrame .nil
    rwa [List.append_nil, List.append_nil] at framed
  cases auth with
  | pq signature => exact single signature.sig
  | hybrid signature => exact prefixedLayout_inFrame (single signature.pqSig)

theorem txLayout_inFrame (tx : Transaction) : InFrame (txFrame tx) (txLayout tx) := by
  have words : txLayout tx = [tx.version] ++ ((u32Layout tx.chainId ++ u64Layout tx.nonce) ++
      (prefixedLayout tx.fromPubkey ++
        ((tx.toAddr.val ++ u64Layout tx.amount ++ u64Layout tx.fee) ++
          ([tx.authMode.byte] ++ authLayout tx.auth)))) := by
    simp [txLayout, bodyLayout]
  have idsSized : (u32Layout tx.chainId ++ u64Layout tx.nonce).length = 12 := by
    simp [u32Layout, u64Layout, bigEndian_length]
  have valuesSized : (tx.toAddr.val ++ u64Layout tx.amount ++ u64Layout tx.fee).length = 48 := by
    simp [u64Layout, bigEndian_length, tx.toAddr.property]
  rw [words, txFrame, List.append_assoc, List.append_assoc]
  exact .structural _ (.payload idsSized (prefixedLayout_inFrame (.payload valuesSized
    (.structural _ (authLayout_inFrame tx.auth)))))

/-- The offsets of the version, of both bytes of each length prefix, and of the tag. -/
def structuralBytes (tx : Transaction) : List Nat :=
  let keyEnd := 15 + tx.fromPubkey.length
  [0, 13, 14, keyEnd + 48, keyEnd + 49, keyEnd + 50] ++
    match tx.auth with
    | .pq _ => []
    | .hybrid signature =>
        let second := keyEnd + 51 + signature.classicalSig.length
        [second, second + 1]

theorem structuralOffsets_txFrame (tx : Transaction) :
    structuralOffsets (txFrame tx) = structuralBytes tx := by
  have two : List.range 2 = [0, 1] := rfl
  unfold structuralBytes txFrame
  cases tx.auth with
  | pq signature =>
      simp [authFrame, prefixedFrame, structuralOffsets, Slot.offsets, Slot.length,
        bigEndian_length, two]
      omega
  | hybrid signature =>
      simp [authFrame, prefixedFrame, structuralOffsets, Slot.offsets, Slot.length,
        bigEndian_length, two]
      omega

theorem authLayout_length_pq (signature : PqSignature) :
    (authLayout (.pq signature)).length = 2 + signature.sig.length :=
  prefixedLayout_length _

theorem authLayout_length_hybrid (signature : HybridSignature) :
    (authLayout (.hybrid signature)).length =
      4 + signature.classicalSig.length + signature.pqSig.length := by
  rw [authLayout, List.length_append, prefixedLayout_length, prefixedLayout_length]
  omega

/-- Signatures of one layout length, of the sizes in force, are framed alike. -/
theorem authFrame_of_length {sigSize : Nat} {left right : Auth}
    (leftSized : AuthSized sigSize left) (rightSized : AuthSized sigSize right)
    (same : (authLayout left).length = (authLayout right).length) :
    authFrame left = authFrame right ∧
      ∀ mode other, AuthMatches mode left → AuthMatches other right → mode = other := by
  cases left with
  | pq leftSig =>
      rw [authLayout_length_pq] at same
      cases right with
      | pq rightSig =>
          rw [authLayout_length_pq] at same
          have sameSize : leftSig.sig.length = rightSig.sig.length := by omega
          exact ⟨by rw [authFrame, authFrame, prefixedFrame, prefixedFrame, sameSize],
            fun _ _ matched otherMatched => matched.trans otherMatched.symm⟩
      | hybrid rightSig =>
          -- A lone signature is too short to fill the place of two.
          rw [authLayout_length_hybrid] at same
          simp only [AuthSized] at leftSized rightSized
          omega
  | hybrid leftSig =>
      rw [authLayout_length_hybrid] at same
      cases right with
      | pq rightSig =>
          rw [authLayout_length_pq] at same
          simp only [AuthSized] at leftSized rightSized
          omega
      | hybrid rightSig =>
          refine ⟨?_, fun _ _ matched otherMatched => matched.trans otherMatched.symm⟩
          rw [authFrame, authFrame, prefixedFrame, prefixedFrame, prefixedFrame, prefixedFrame,
            leftSized.1, leftSized.2, rightSized.1, rightSized.2]

/-- Well-formed transactions whose layouts have one length are in one frame. -/
theorem txFrame_of_length {pubkeySize sigSize : Nat} {left right : Transaction}
    (leftFormed : WellFormed pubkeySize sigSize left)
    (rightFormed : WellFormed pubkeySize sigSize right)
    (same : (txLayout left).length = (txLayout right).length) : txFrame left = txFrame right := by
  have sameKey : left.fromPubkey.length = right.fromPubkey.length :=
    leftFormed.pubkeySized.trans rightFormed.pubkeySized.symm
  have sameAuth : (authLayout left.auth).length = (authLayout right.auth).length := by
    simp only [txLayout, List.length_append, List.length_cons, bodyLayout_length, sameKey] at same
    omega
  obtain ⟨frames, modes⟩ :=
    authFrame_of_length leftFormed.authSized rightFormed.authSized sameAuth
  rw [txFrame, txFrame, prefixedFrame, prefixedFrame, leftFormed.version, rightFormed.version,
    sameKey, frames, modes _ _ leftFormed.authMatches rightFormed.authMatches]

/-- Accepted byte strings of one length agree on the structural bytes. -/
theorem decode_structural_agree {other : Bytes} {otherTx : Transaction}
    (decoded : decode oqs data = .ok tx) (otherDecoded : decode oqs other = .ok otherTx)
    (sameLength : other.length = data.length) :
    ∀ offset ∈ structuralBytes tx, other[offset]? = data[offset]? := by
  obtain ⟨wellFormed, -, rfl⟩ := decode_ok_iff.mp decoded
  obtain ⟨otherFormed, -, rfl⟩ := decode_ok_iff.mp otherDecoded
  have framed := txLayout_inFrame otherTx
  rw [txFrame_of_length otherFormed wellFormed sameLength] at framed
  rw [← structuralOffsets_txFrame]
  exact framed.agree (txLayout_inFrame tx)

/-! ## No re-framing -/

/-- Of an accepted byte string, every proper front part is rejected as empty or
cut short, every proper continuation for its trailing bytes, and every byte
string of the same length that differs in a structural byte, whatever else it
changes. -/
theorem framing_rigid (decoded : decode oqs data = .ok tx) :
    (∀ front back, data = front ++ back → back ≠ [] →
      ∃ error, decode oqs front = .err error ∧
        (front = [] → error.code = .InvalidTransaction) ∧
        (front ≠ [] → error.code = .InvalidLengthPrefix ∨ error.code = .MismatchedLength)) ∧
    (∀ more, more ≠ [] →
      ∃ error, decode oqs (data ++ more) = .err error ∧ error.code = .TrailingBytes) ∧
    (∀ other otherTx, decode oqs other = .ok otherTx → other.length = data.length →
      ∀ offset ∈ structuralBytes tx, other[offset]? = data[offset]?) ∧
    ∀ other, other.length = data.length →
      (∃ offset ∈ structuralBytes tx, other[offset]? ≠ data[offset]?) →
        ∃ error, decode oqs other = .err error := by
  refine ⟨fun front back => decode_front_rejected decoded,
    fun more => decode_continuation_rejected decoded,
    fun other otherTx => decode_structural_agree decoded, ?_⟩
  rintro other sameLength ⟨offset, structural, changed⟩
  cases outcome : decode oqs other with
  | err error => exact ⟨error, rfl⟩
  | ok otherTx =>
      exact absurd (decode_structural_agree decoded outcome sameLength offset structural) changed

/-- The unsigned transaction, which is accepted, cut short, continued and reframed. -/
theorem framing_rigid_zeroKeyTx :
    decode noOqs (txLayout zeroKeyTx) = .ok zeroKeyTx ∧
      (∀ front back, txLayout zeroKeyTx = front ++ back → back ≠ [] →
        ∃ error, decode noOqs front = .err error ∧
          (front = [] → error.code = .InvalidTransaction) ∧
          (front ≠ [] → error.code = .InvalidLengthPrefix ∨ error.code = .MismatchedLength)) ∧
      (∀ more, more ≠ [] →
        ∃ error, decode noOqs (txLayout zeroKeyTx ++ more) = .err error ∧
          error.code = .TrailingBytes) ∧
      (∀ other otherTx, decode noOqs other = .ok otherTx →
        other.length = (txLayout zeroKeyTx).length →
          ∀ offset ∈ structuralBytes zeroKeyTx, other[offset]? = (txLayout zeroKeyTx)[offset]?) ∧
      ∀ other, other.length = (txLayout zeroKeyTx).length →
        (∃ offset ∈ structuralBytes zeroKeyTx, other[offset]? ≠ (txLayout zeroKeyTx)[offset]?) →
          ∃ error, decode noOqs other = .err error := by
  have decoded := decode_txLayout noOqs_mlDsa65Sized zeroKeyTx_wellFormed
  exact ⟨decoded, framing_rigid decoded⟩

end PqcLedger.Codec
