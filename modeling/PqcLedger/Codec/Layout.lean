import PqcLedger.Framing.Parser
import PqcLedger.Types

/-!
# The wire layout

The abstract side of the codec: the byte layout of a transaction, the rules a
byte string can violate, and the parser that checks them in wire order. Nothing
here is read off the source; the encoder and the decoder are related to it in
the modules that follow.
-/

namespace PqcLedger.Codec

open PqcLedger.Cxx Framing

/-- The longest byte string that a u16 length prefix can announce. -/
def maxPrefixed : Nat := 65535

/-- A word of two bytes. -/
def u16Layout (value : UInt16) : Bytes := bigEndian 2 value.toNat

/-- A word of four bytes. -/
def u32Layout (value : UInt32) : Bytes := bigEndian 4 value.toNat

/-- A word of eight bytes. -/
def u64Layout (value : UInt64) : Bytes := bigEndian 8 value.toNat

/-- A byte string behind its two-byte length. -/
def prefixedLayout (bytes : Bytes) : Bytes := bigEndian 2 bytes.length ++ bytes

/-- The signed part of a transaction. -/
def bodyLayout (tx : Transaction) : Bytes :=
  tx.version :: (u32Layout tx.chainId ++ (u64Layout tx.nonce ++ (prefixedLayout tx.fromPubkey ++
    (tx.toAddr.val ++ (u64Layout tx.amount ++ u64Layout tx.fee)))))

/-- The signatures, in the order in which they are sent. -/
def authLayout : Auth → Bytes
  | .pq signature => prefixedLayout signature.sig
  | .hybrid signature => prefixedLayout signature.classicalSig ++ prefixedLayout signature.pqSig

/-- A whole transaction: the body, the tag and the signatures. -/
def txLayout (tx : Transaction) : Bytes :=
  bodyLayout tx ++ tx.authMode.byte :: authLayout tx.auth

/-- The signatures present are those that the mode announces. -/
def AuthMatches (mode : AuthMode) : Auth → Prop
  | .pq _ => mode = .PqOnly
  | .hybrid _ => mode = .Hybrid

/-- Every signature fits its length prefix. -/
def AuthFits : Auth → Prop
  | .pq signature => signature.sig.length ≤ maxPrefixed
  | .hybrid signature =>
      signature.classicalSig.length ≤ maxPrefixed ∧ signature.pqSig.length ≤ maxPrefixed

/-- Signature lengths are those of the algorithms; a lone signature may be absent. -/
def AuthSized (sigSize : Nat) : Auth → Prop
  | .pq signature => signature.sig.length = 0 ∨ signature.sig.length = sigSize
  | .hybrid signature =>
      signature.classicalSig.length = 64 ∧ signature.pqSig.length = sigSize

/-- The wire format has a place for every field of the transaction. -/
structure Representable (tx : Transaction) : Prop where
  pubkeyFits : tx.fromPubkey.length ≤ maxPrefixed
  authMatches : AuthMatches tx.authMode tx.auth
  authFits : AuthFits tx.auth

/-- The transaction obeys the rules that the decoder enforces. -/
structure WellFormed (pubkeySize sigSize : Nat) (tx : Transaction) : Prop where
  version : tx.version = 1
  pubkeySized : tx.fromPubkey.length = pubkeySize
  authMatches : AuthMatches tx.authMode tx.auth
  authSized : AuthSized sigSize tx.auth

instance : (mode : AuthMode) → (auth : Auth) → Decidable (AuthMatches mode auth)
  | mode, .pq _ => inferInstanceAs (Decidable (mode = .PqOnly))
  | mode, .hybrid _ => inferInstanceAs (Decidable (mode = .Hybrid))

/-- Signatures match a named mode only. -/
theorem AuthMatches.named {mode : AuthMode} {auth : Auth} (matched : AuthMatches mode auth) :
    mode = .PqOnly ∨ mode = .Hybrid := by
  cases auth with
  | pq signature => exact .inl matched
  | hybrid signature => exact .inr matched

/-- With sizes that fit a length prefix, well-formed transactions are representable. -/
theorem WellFormed.representable {pubkeySize sigSize : Nat} {tx : Transaction}
    (wellFormed : WellFormed pubkeySize sigSize tx) (pubkeyFits : pubkeySize ≤ maxPrefixed)
    (sigFits : sigSize ≤ maxPrefixed) : Representable tx where
  pubkeyFits := by
    rw [wellFormed.pubkeySized]
    exact pubkeyFits
  authMatches := wellFormed.authMatches
  authFits := by
    have sized := wellFormed.authSized
    cases same : tx.auth with
    | pq signature =>
        rw [same] at sized
        simp only [AuthSized] at sized
        simp only [AuthFits]
        omega
    | hybrid signature =>
        rw [same] at sized
        simp only [AuthSized] at sized
        simp only [AuthFits, maxPrefixed] at sigFits ⊢
        omega

/-- The sizes of ML-DSA-65 fit a length prefix. -/
theorem WellFormed.representable_mlDsa65 {tx : Transaction} (wellFormed : WellFormed 1952 3309 tx) :
    Representable tx :=
  wellFormed.representable (by decide) (by decide)

/-- An unsigned transaction is well formed under any signature size. -/
theorem unsignedTx_wellFormed {pubkeySize : Nat} (sigSize : Nat) {fromPubkey : PublicKey}
    (sized : fromPubkey.length = pubkeySize) (chainId : UInt32) (nonce : UInt64)
    (toAddr : Address) (amount fee : UInt64) :
    WellFormed pubkeySize sigSize (unsignedTx chainId nonce fromPubkey toAddr amount fee) :=
  ⟨rfl, sized, rfl, .inl rfl⟩

theorem prefixedLayout_length (bytes : Bytes) :
    (prefixedLayout bytes).length = 2 + bytes.length := by
  rw [prefixedLayout, List.length_append, bigEndian_length]

theorem bodyLayout_length (tx : Transaction) :
    (bodyLayout tx).length = 63 + tx.fromPubkey.length := by
  simp only [bodyLayout, u32Layout, u64Layout, List.length_cons, List.length_append,
    bigEndian_length, prefixedLayout_length, tx.toAddr.property]
  omega

/-! ## Rules and their parser -/

/-- The ways in which a byte string can break the format. -/
inductive Violation where
  | version
  | truncated
  | lengthExceeds
  | pubkeySize
  | authTag
  | signatureSize
  | trailing
  deriving DecidableEq, Repr

/-- The error code that reports a violation. -/
def Violation.code : Violation → ErrorCode
  | .version => .InvalidVersion
  | .truncated => .InvalidLengthPrefix
  | .lengthExceeds => .MismatchedLength
  | .pubkeySize => .InvalidPublicKey
  | .authTag => .InvalidAuthTag
  | .signatureSize => .InvalidSignature
  | .trailing => .TrailingBytes

/-- Parsers of the wire format. -/
abbrev WireParser := Parser Violation UInt8

namespace Parse

/-- A field of `count` bytes, read as a value. -/
def fixed {α : Type} (count : Nat) (read : Bytes → α) : WireParser α :=
  Parser.take .truncated count >>= fun raw => pure (read raw)

/-- Take a byte. -/
def u8 : WireParser UInt8 := fixed 1 fun raw => UInt8.ofNat (fromBigEndian raw)

/-- Take a word of two bytes. -/
def u16 : WireParser UInt16 := fixed 2 fun raw => UInt16.ofNat (fromBigEndian raw)

/-- Take a word of four bytes. -/
def u32 : WireParser UInt32 := fixed 4 fun raw => UInt32.ofNat (fromBigEndian raw)

/-- Take a word of eight bytes. -/
def u64 : WireParser UInt64 := fixed 8 fun raw => UInt64.ofNat (fromBigEndian raw)

/-- Take a byte string behind its length. -/
def prefixed : WireParser Bytes :=
  u16 >>= fun length => Parser.take .lengthExceeds length.toNat

/-- The signatures that a tag announces. -/
def auth (sigSize : Nat) (tag : UInt8) : WireParser (AuthMode × Auth) :=
  if tag = 0 then
    prefixed >>= fun sig =>
      Parser.guard (sig.length = 0 ∨ sig.length = sigSize) .signatureSize >>= fun _ =>
        pure (.PqOnly, .pq ⟨sig⟩)
  else if tag = 1 then
    prefixed >>= fun classicalSig => prefixed >>= fun pqSig =>
      Parser.guard (classicalSig.length = 64 ∧ pqSig.length = sigSize) .signatureSize >>= fun _ =>
        pure (.Hybrid, .hybrid ⟨classicalSig, pqSig⟩)
  else Parser.reject .authTag

/-- A whole transaction, its rules checked in wire order. -/
def transaction (pubkeySize sigSize : Nat) : WireParser Transaction :=
  u8 >>= fun version => Parser.guard (version = 1) .version >>= fun _ =>
    u32 >>= fun chainId => u64 >>= fun nonce => prefixed >>= fun fromPubkey =>
      Parser.guard (fromPubkey.length = pubkeySize) .pubkeySize >>= fun _ =>
        Parser.take .truncated 32 >>= fun toBytes => u64 >>= fun amount => u64 >>= fun fee =>
          u8 >>= fun tag => auth sigSize tag >>= fun signed =>
            Parser.finish .trailing >>= fun _ =>
              pure ⟨version, chainId, nonce, fromPubkey, copyInto 32 toBytes, amount, fee,
                signed.1, signed.2⟩

end Parse

/-! ## What the parsers accept -/

theorem u8_recognizes : Recognizes Parse.u8 (fun _ => True) (fun value => [value]) := by
  refine (recognizes_take Violation.truncated 1).map
    (fun raw => UInt8.ofNat (fromBigEndian raw)) (fun value => [value]) ?_ ?_ ?_
  · intro value
    simp [fromBigEndian]
  · intro raw single
    obtain ⟨byte, rfl⟩ := List.length_eq_one_iff.mp single
    simp [fromBigEndian]
  · intro value
    rfl

/-- A big-endian field of a machine word is recognised, given that the word's
conversions to and from natural numbers respect its width. -/
theorem word_recognizes {α : Type} (width : Nat) (toNat : α → Nat) (ofNat : Nat → α)
    (bounded : ∀ value, toNat value < 256 ^ width)
    (ofNat_toNat : ∀ value, ofNat (toNat value) = value)
    (toNat_ofNat : ∀ value < 256 ^ width, toNat (ofNat value) = value) :
    Recognizes (Parse.fixed width fun raw => ofNat (fromBigEndian raw)) (fun _ => True)
      (fun value => bigEndian width (toNat value)) := by
  refine (recognizes_take Violation.truncated width).map
    (fun raw => ofNat (fromBigEndian raw)) (fun value => bigEndian width (toNat value)) ?_ ?_ ?_
  · intro value
    rw [fromBigEndian_bigEndian (bounded value), ofNat_toNat]
  · rintro raw rfl
    rw [toNat_ofNat _ (fromBigEndian_lt raw), bigEndian_fromBigEndian]
  · intro value
    exact bigEndian_length width _

theorem u16_recognizes : Recognizes Parse.u16 (fun _ => True) u16Layout :=
  word_recognizes 2 UInt16.toNat UInt16.ofNat UInt16.toNat_lt (fun _ => UInt16.ofNat_toNat)
    (fun _ bounded => UInt16.toNat_ofNat_of_lt' bounded)

theorem u32_recognizes : Recognizes Parse.u32 (fun _ => True) u32Layout :=
  word_recognizes 4 UInt32.toNat UInt32.ofNat UInt32.toNat_lt (fun _ => UInt32.ofNat_toNat)
    (fun _ bounded => UInt32.toNat_ofNat_of_lt' bounded)

theorem u64_recognizes : Recognizes Parse.u64 (fun _ => True) u64Layout :=
  word_recognizes 8 UInt64.toNat UInt64.ofNat UInt64.toNat_lt (fun _ => UInt64.ofNat_toNat)
    (fun _ bounded => UInt64.toNat_ofNat_of_lt' bounded)

/-- A prefixed field is recognised exactly when its length fits the prefix. -/
theorem prefixed_recognizes :
    Recognizes Parse.prefixed (fun bytes => bytes.length ≤ maxPrefixed) prefixedLayout where
  ok_iff := by
    intro input bytes rest
    simp only [Parse.prefixed, Parser.bind_ok_iff, u16_recognizes.ok_iff, Parser.take_ok_iff,
      true_and]
    constructor
    · rintro ⟨length, middle, rfl, sized, rfl⟩
      refine ⟨?_, ?_⟩
      · have bounded := length.toNat_lt
        rw [sized, maxPrefixed]
        omega
      · simp [u16Layout, prefixedLayout, sized]
    · rintro ⟨fits, rfl⟩
      have roundTrip : (UInt16.ofNat bytes.length).toNat = bytes.length :=
        UInt16.toNat_ofNat_of_lt' (by rw [maxPrefixed] at fits; change _ < 65536; omega)
      exact ⟨UInt16.ofNat bytes.length, bytes ++ rest,
        by simp [u16Layout, prefixedLayout, roundTrip], roundTrip.symm, rfl⟩

/-- The tag and signatures are accepted exactly in their layout. -/
theorem auth_ok_iff {sigSize : Nat} {tag : UInt8} {input rest : Bytes}
    {mode : AuthMode} {auth : Auth} :
    Parse.auth sigSize tag input = .ok ((mode, auth), rest) ↔
      mode.byte = tag ∧ AuthMatches mode auth ∧ AuthSized sigSize auth ∧ AuthFits auth ∧
        input = authLayout auth ++ rest := by
  unfold Parse.auth
  split
  · rename_i zero
    simp only [Parser.bind_ok_iff, prefixed_recognizes.ok_iff, Parser.guard_ok_iff,
      Parser.pure_ok_iff, Prod.mk.injEq]
    constructor
    · rintro ⟨sig, _, ⟨fits, rfl⟩, _, _, ⟨sized, rfl⟩, ⟨rfl, rfl⟩, rfl⟩
      exact ⟨zero.symm, rfl, sized, fits, rfl⟩
    · rintro ⟨tagged, matched, sized, fits, rfl⟩
      cases auth with
      | pq signature =>
          exact ⟨signature.sig, rest, ⟨fits, rfl⟩, (), rest, ⟨sized, rfl⟩, ⟨matched.symm, rfl⟩, rfl⟩
      | hybrid signature =>
          rw [AuthMatches] at matched
          simp [matched, zero] at tagged
  · split
    · rename_i one
      simp only [Parser.bind_ok_iff, prefixed_recognizes.ok_iff, Parser.guard_ok_iff,
        Parser.pure_ok_iff, Prod.mk.injEq]
      constructor
      · rintro ⟨classicalSig, _, ⟨classicalFits, rfl⟩, pqSig, _, ⟨pqFits, rfl⟩, _, _,
          ⟨sized, rfl⟩, ⟨rfl, rfl⟩, rfl⟩
        exact ⟨one.symm, rfl, sized, ⟨classicalFits, pqFits⟩, by simp [authLayout]⟩
      · rintro ⟨tagged, matched, sized, fits, rfl⟩
        cases auth with
        | pq signature =>
            rw [AuthMatches] at matched
            simp [matched, one] at tagged
        | hybrid signature =>
            exact ⟨signature.classicalSig, prefixedLayout signature.pqSig ++ rest,
              ⟨fits.1, by simp [authLayout]⟩, signature.pqSig, rest, ⟨fits.2, rfl⟩, (), rest,
              ⟨sized, rfl⟩, ⟨matched.symm, rfl⟩, rfl⟩
    · rename_i notZero notOne
      simp only [Parser.reject_ok_iff, false_iff]
      rintro ⟨tagged, matched, -⟩
      cases auth with
      | pq signature => exact notZero (by rw [← tagged, show mode = .PqOnly from matched]; rfl)
      | hybrid signature => exact notOne (by rw [← tagged, show mode = .Hybrid from matched]; rfl)

/-- The fields of a transaction in wire order, associated as they are parsed. -/
theorem txLayout_fields (tx : Transaction) :
    txLayout tx = [tx.version] ++ (u32Layout tx.chainId ++ (u64Layout tx.nonce ++
      (prefixedLayout tx.fromPubkey ++ (tx.toAddr.val ++ (u64Layout tx.amount ++
        (u64Layout tx.fee ++ ([tx.authMode.byte] ++ authLayout tx.auth))))))) := by
  simp [txLayout, bodyLayout]

/-- Whole transactions are accepted exactly when well formed, in their layout,
with nothing after them. -/
theorem transaction_ok_iff {pubkeySize sigSize : Nat} {input rest : Bytes} {tx : Transaction} :
    Parse.transaction pubkeySize sigSize input = .ok (tx, rest) ↔
      WellFormed pubkeySize sigSize tx ∧ Representable tx ∧ input = txLayout tx ∧ rest = [] := by
  simp only [Parse.transaction, Parser.bind_ok_iff, Parser.guard_ok_iff, Parser.take_ok_iff,
    Parser.finish_ok_iff, Parser.pure_ok_iff, u8_recognizes.ok_iff, u32_recognizes.ok_iff,
    u64_recognizes.ok_iff, prefixed_recognizes.ok_iff, true_and]
  constructor
  · rintro ⟨version, _, rfl, _, _, ⟨versionOne, rfl⟩, chainId, _, rfl, nonce, _, rfl,
      fromPubkey, _, ⟨pubkeyFits, rfl⟩, _, _, ⟨pubkeySized, rfl⟩, toBytes, _, ⟨toSized, rfl⟩,
      amount, _, rfl, fee, _, rfl, tag, afterTag, rfl, ⟨mode, auth⟩, _, signed, _, _,
      ⟨rfl, rfl⟩, rfl, rfl⟩
    obtain ⟨tagged, matched, sized, fits, rfl⟩ := auth_ok_iff.mp signed
    refine ⟨⟨versionOne, pubkeySized, matched, sized⟩, ⟨pubkeyFits, matched, fits⟩, ?_, rfl⟩
    rw [txLayout_fields]
    simp [copyInto_val toSized, tagged]
  · rintro ⟨wellFormed, representable, rfl, rfl⟩
    have signed : Parse.auth sigSize tx.authMode.byte (authLayout tx.auth) =
        .ok ((tx.authMode, tx.auth), []) :=
      auth_ok_iff.mpr ⟨rfl, wellFormed.authMatches, wellFormed.authSized,
        representable.authFits, by simp⟩
    rw [txLayout_fields]
    refine ⟨tx.version, _, rfl, (), _, ⟨wellFormed.version, rfl⟩, tx.chainId, _, rfl,
      tx.nonce, _, rfl, tx.fromPubkey, _, ⟨representable.pubkeyFits, rfl⟩, (), _,
      ⟨wellFormed.pubkeySized, rfl⟩, tx.toAddr.val, _, ⟨tx.toAddr.property, rfl⟩,
      tx.amount, _, rfl, tx.fee, _, rfl, tx.authMode.byte, _, rfl, (tx.authMode, tx.auth), _,
      signed, (), [], ⟨rfl, rfl⟩, ?_, rfl⟩
    have sameTo : copyInto 32 tx.toAddr.val = tx.toAddr :=
      Subtype.ext (copyInto_val tx.toAddr.property)
    rw [sameTo]

end PqcLedger.Codec
