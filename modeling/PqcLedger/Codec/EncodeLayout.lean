import PqcLedger.Codec.Encode
import PqcLedger.Codec.Layout

/-!
# The encoder writes the layout

Each writer appends the layout of its field, so `encode` and `encode_for_signing`
produce the layout of the whole transaction and of its body wherever they return.
-/

namespace PqcLedger.Codec

open PqcLedger.Cxx Framing

theorem writeU16Be_eq (out : Bytes) (value : UInt16) :
    writeU16Be out value = out ++ u16Layout value := by
  simp [writeU16Be, u16Layout, bigEndian, ← UInt8.toNat_inj, Nat.shiftRight_eq_div_pow, and_255]

theorem writeU32Be_eq (out : Bytes) (value : UInt32) :
    writeU32Be out value = out ++ u32Layout value := by
  simp [writeU32Be, u32Layout, bigEndian, ← UInt8.toNat_inj, Nat.shiftRight_eq_div_pow, and_255,
    Nat.div_div_eq_div_mul]

theorem writeU64Be_eq (out : Bytes) (value : UInt64) :
    writeU64Be out value = out ++ u64Layout value := by
  simp [writeU64Be, u64Layout, bigEndian, ← UInt8.toNat_inj, Nat.shiftRight_eq_div_pow, and_255,
    Nat.div_div_eq_div_mul]

theorem writeBytesWithLen_of_fits (out : Bytes) {bytes : Bytes}
    (fits : bytes.length ≤ maxPrefixed) :
    writeBytesWithLen out bytes = .ok (out ++ prefixedLayout bytes) := by
  rw [maxPrefixed] at fits
  have lengthKept : (UInt16.ofNat bytes.length).toNat = bytes.length :=
    UInt16.toNat_ofNat_of_lt' (by change _ < 65536; omega)
  rw [writeBytesWithLen, if_neg (by omega), writeU16Be_eq, u16Layout, lengthKept, prefixedLayout,
    List.append_assoc]

theorem writeBytesWithLen_of_exceeds (out : Bytes) {bytes : Bytes}
    (exceeds : ¬ bytes.length ≤ maxPrefixed) :
    writeBytesWithLen out bytes = .error lengthExceedsU16 := by
  rw [maxPrefixed] at exceeds
  rw [writeBytesWithLen, if_pos (Nat.lt_of_not_le exceeds)]

/-- The signing encoding is the body, unless the public key overflows its prefix. -/
theorem encodeForSigning_of_fits {tx : Transaction} (fits : tx.fromPubkey.length ≤ maxPrefixed) :
    encodeForSigning tx = .ok (.ok (bodyLayout tx)) := by
  simp [encodeForSigning, writeU8, writeU32Be_eq, writeU64Be_eq, writeBytesWithLen_of_fits _ fits,
    bodyLayout]

theorem encodeForSigning_of_exceeds {tx : Transaction}
    (exceeds : ¬ tx.fromPubkey.length ≤ maxPrefixed) :
    encodeForSigning tx = .error lengthExceedsU16 := by
  rw [encodeForSigning, writeBytesWithLen_of_exceeds _ exceeds]
  rfl

/-- The payload branches of `encode`, with the bytes written before them. -/
def encodePayload (out : Bytes) (tx : Transaction) : Throws (Result Bytes) :=
  if tx.authMode = .PqOnly then do
    let pqSig ← tx.auth.getPq
    let out ← writeBytesWithLen out pqSig.sig
    pure (.ok out)
  else if tx.authMode = .Hybrid then do
    let hybridSig ← tx.auth.getHybrid
    let out ← writeBytesWithLen out hybridSig.classicalSig
    let out ← writeBytesWithLen out hybridSig.pqSig
    pure (.ok out)
  else pure (.ok out)

theorem encode_of_fits {tx : Transaction} (fits : tx.fromPubkey.length ≤ maxPrefixed) :
    encode tx = encodePayload (bodyLayout tx ++ [tx.authMode.byte]) tx := by
  have written : ∀ out, writeBytesWithLen out tx.fromPubkey =
      pure (out ++ prefixedLayout tx.fromPubkey) := fun out => writeBytesWithLen_of_fits out fits
  simp [encode, encodePayload, writeU8, writeU32Be_eq, writeU64Be_eq, written, bodyLayout]

theorem encode_of_exceeds {tx : Transaction} (exceeds : ¬ tx.fromPubkey.length ≤ maxPrefixed) :
    encode tx = .error lengthExceedsU16 := by
  rw [encode, writeBytesWithLen_of_exceeds _ exceeds]
  rfl

/-- A representable transaction is encoded, as its layout. -/
theorem encode_of_representable {tx : Transaction} (representable : Representable tx) :
    encode tx = .ok (.ok (txLayout tx)) := by
  rw [encode_of_fits representable.pubkeyFits, encodePayload]
  have matched := representable.authMatches
  have fits := representable.authFits
  cases same : tx.auth with
  | pq signature =>
      simp only [same, AuthMatches] at matched
      simp only [same, AuthFits] at fits
      rw [if_pos matched, Auth.getPq_pq]
      simp [txLayout, authLayout, same, writeBytesWithLen_of_fits _ fits]
  | hybrid signature =>
      simp only [same, AuthMatches] at matched
      simp only [same, AuthFits] at fits
      have notPqOnly : tx.authMode ≠ .PqOnly := by
        rw [matched]
        exact AuthMode.Hybrid_ne_PqOnly
      rw [if_neg notPqOnly, if_pos matched, Auth.getHybrid_hybrid]
      simp [txLayout, authLayout, same, writeBytesWithLen_of_fits _ fits.1,
        writeBytesWithLen_of_fits _ fits.2]

/-- An unnamed mode is written as a bare tag, whatever the authentication field holds. -/
theorem encode_of_unnamed {tx : Transaction} (fits : tx.fromPubkey.length ≤ maxPrefixed)
    (notPqOnly : tx.authMode ≠ .PqOnly) (notHybrid : tx.authMode ≠ .Hybrid) :
    encode tx = .ok (.ok (bodyLayout tx ++ [tx.authMode.byte])) := by
  rw [encode_of_fits fits, encodePayload, if_neg notPqOnly, if_neg notHybrid]
  rfl

/-- Under a named mode, whatever the wire format cannot represent is thrown out. -/
theorem encode_throws {tx : Transaction} (named : tx.authMode = .PqOnly ∨ tx.authMode = .Hybrid)
    (unrepresentable : ¬ Representable tx) : ∃ thrown, encode tx = .error thrown := by
  by_cases fits : tx.fromPubkey.length ≤ maxPrefixed
  · rw [encode_of_fits fits, encodePayload]
    rcases named with pqOnly | hybrid
    · rw [if_pos pqOnly]
      cases same : tx.auth with
      | hybrid signature => exact ⟨.badVariantAccess, rfl⟩
      | pq signature =>
          have exceeds : ¬ signature.sig.length ≤ maxPrefixed := fun sigFits =>
            unrepresentable ⟨fits, by rw [same]; exact pqOnly, by rw [same]; exact sigFits⟩
          refine ⟨lengthExceedsU16, ?_⟩
          rw [Auth.getPq_pq]
          simp [writeBytesWithLen_of_exceeds _ exceeds]
    · rw [if_neg (by rw [hybrid]; exact AuthMode.Hybrid_ne_PqOnly), if_pos hybrid]
      cases same : tx.auth with
      | pq signature => exact ⟨.badVariantAccess, rfl⟩
      | hybrid signature =>
          refine ⟨lengthExceedsU16, ?_⟩
          rw [Auth.getHybrid_hybrid]
          by_cases classicalFits : signature.classicalSig.length ≤ maxPrefixed
          · have exceeds : ¬ signature.pqSig.length ≤ maxPrefixed := fun pqFits =>
              unrepresentable
                ⟨fits, by rw [same]; exact hybrid, by rw [same]; exact ⟨classicalFits, pqFits⟩⟩
            simp [writeBytesWithLen_of_fits _ classicalFits, writeBytesWithLen_of_exceeds _ exceeds]
          · simp [writeBytesWithLen_of_exceeds _ classicalFits]
  · exact ⟨lengthExceedsU16, encode_of_exceeds fits⟩

/-- `encode` writes the layout, or a bare tag under an unnamed mode, or throws. -/
theorem encode_cases (tx : Transaction) :
    (Representable tx ∧ encode tx = .ok (.ok (txLayout tx))) ∨
      (tx.fromPubkey.length ≤ maxPrefixed ∧ tx.authMode ≠ .PqOnly ∧ tx.authMode ≠ .Hybrid ∧
        encode tx = .ok (.ok (bodyLayout tx ++ [tx.authMode.byte]))) ∨
      ∃ thrown, encode tx = .error thrown := by
  by_cases representable : Representable tx
  · exact .inl ⟨representable, encode_of_representable representable⟩
  · by_cases named : tx.authMode = .PqOnly ∨ tx.authMode = .Hybrid
    · exact .inr (.inr (encode_throws named representable))
    · obtain ⟨notPqOnly, notHybrid⟩ := not_or.mp named
      by_cases fits : tx.fromPubkey.length ≤ maxPrefixed
      · have written := encode_of_unnamed fits notPqOnly notHybrid
        exact .inr (.inl ⟨fits, notPqOnly, notHybrid, written⟩)
      · exact .inr (.inr ⟨lengthExceedsU16, encode_of_exceeds fits⟩)

/-- What `encode` returns, and for which transactions. -/
theorem encode_ok_iff {tx : Transaction} {data : Bytes} :
    encode tx = .ok (.ok data) ↔
      (Representable tx ∧ data = txLayout tx) ∨
        (tx.fromPubkey.length ≤ maxPrefixed ∧ tx.authMode ≠ .PqOnly ∧ tx.authMode ≠ .Hybrid ∧
          data = bodyLayout tx ++ [tx.authMode.byte]) := by
  constructor
  · intro encoded
    rcases encode_cases tx with ⟨representable, written⟩ |
      ⟨fits, notPqOnly, notHybrid, written⟩ | ⟨thrown, threw⟩
    · rw [written] at encoded
      simp only [Except.ok.injEq, Result.ok.injEq] at encoded
      exact .inl ⟨representable, encoded.symm⟩
    · rw [written] at encoded
      simp only [Except.ok.injEq, Result.ok.injEq] at encoded
      exact .inr ⟨fits, notPqOnly, notHybrid, encoded.symm⟩
    · rw [threw] at encoded
      cases encoded
  · rintro (⟨representable, rfl⟩ | ⟨fits, notPqOnly, notHybrid, rfl⟩)
    · exact encode_of_representable representable
    · exact encode_of_unnamed fits notPqOnly notHybrid

/-- `encode` has no error result: it returns bytes or throws. -/
theorem encode_ne_err (tx : Transaction) (error : Error) : encode tx ≠ .ok (.err error) := by
  intro encoded
  rcases encode_cases tx with ⟨-, written⟩ | ⟨-, -, -, written⟩ | ⟨thrown, threw⟩
  · rw [written] at encoded
    cases encoded
  · rw [written] at encoded
    cases encoded
  · rw [threw] at encoded
    cases encoded

end PqcLedger.Codec
