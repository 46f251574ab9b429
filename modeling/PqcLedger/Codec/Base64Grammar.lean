import PqcLedger.Codec.Base64Size
import PqcLedger.Codec.FirstViolation
import PqcLedger.Codec.Standard

/-!
# The base64 transport

Which texts the base64 decoder takes, what it reads, and where the transaction
decoder over it reports its own code. It takes more than the encoder writes:
padding may close any group, so that texts may simply be joined.
-/

namespace PqcLedger.Codec

open PqcLedger.Cxx PqcLedger.Crypto

/-- What the loop has read in front of a text stays. -/
theorem base64Loop_concat {front : Text} {bytes : Bytes} (read : base64Loop front = .ok bytes)
    (text : Text) : base64Loop (front ++ text) = (bytes ++ ·) <$> base64Loop text := by
  induction front using base64Loop.induct generalizing bytes with
  | case1 =>
      cases read
      cases same : base64Loop text <;> simp [same]
  | case2 c0 c1 c2 c3 rest ih =>
      rw [base64Loop] at read
      obtain ⟨b0, first, read⟩ := Throws.bind_ok_iff.mp read
      obtain ⟨b1, second, read⟩ := Throws.bind_ok_iff.mp read
      obtain ⟨b2, third, read⟩ := Throws.bind_ok_iff.mp read
      obtain ⟨b3, fourth, read⟩ := Throws.bind_ok_iff.mp read
      obtain ⟨tail, after, read⟩ := Throws.bind_ok_iff.mp read
      cases read
      simp only [List.cons_append]
      rw [base64Loop, first, second, third, fourth, ih after]
      simp only [Throws.bind_ok]
      cases base64Loop text with
      | error thrown => rfl
      | ok more => simp [Functor.map, Except.map]
  | case3 text notEmpty notGroup => exact absurd read (base64Loop_incomplete notEmpty notGroup _)

/-- Texts that are read one by one are read together. -/
theorem base64ToBytes_append {left right : Text} {leftBytes rightBytes : Bytes}
    (isString : (left ++ right).IsString) (leftRead : base64ToBytes left = .ok leftBytes)
    (rightRead : base64ToBytes right = .ok rightBytes) :
    base64ToBytes (left ++ right) = .ok (leftBytes ++ rightBytes) := by
  have leftLoop := base64Loop_of_base64ToBytes leftRead
  have rightLoop := base64Loop_of_base64ToBytes rightRead
  rw [base64ToBytes_ok_iff isString, removeWhitespace, List.filter_append]
  change base64Loop (removeWhitespace left ++ removeWhitespace right) = _
  rw [base64Loop_concat leftLoop, rightLoop]
  rfl

/-- A code that is none of the decoder's is reported exactly where the conversion throws. -/
theorem decodeFromText_code_iff {oqs : Oqs} {code : ErrorCode} {bytes : Throws Bytes}
    (own : code ∉ decodeCodes) :
    (∃ error, decodeFromText oqs code bytes = .err error ∧ error.code = code) ↔
      ∃ thrown, bytes = .error thrown := by
  cases bytes with
  | error thrown => exact iff_of_true ⟨_, rfl, rfl⟩ ⟨thrown, rfl⟩
  | ok data =>
      refine iff_of_false ?_ ?_
      · rintro ⟨error, rejected, coded⟩
        have reported := decode_firstViolated oqs data
        rw [decodeFromText] at rejected
        rw [rejected] at reported
        exact own (coded ▸ (firstViolated_code reported).2.2)
      · rintro ⟨thrown, ⟨⟩⟩

/-- The base64 transport reads whole groups of the alphabet and of padding between
whitespace, and nothing else: the standard text of bytes is read as them, and texts
that are read are read as one when they are joined. It reports its own code exactly
where it reads nothing, and decodes what it reads; whitespace makes no difference. -/
theorem base64_grammar (oqs : Oqs) :
    (∀ text : Text, text.IsString →
      ((∃ bytes, base64ToBytes text = .ok bytes) ↔ WholeGroups (removeWhitespace text))) ∧
    (∀ bytes : Bytes, (base64.write (bytes.map UInt8.toNat)).length < 2 ^ 63 →
      base64ToBytes (base64.write (bytes.map UInt8.toNat)) = .ok bytes) ∧
    (∀ (left right : Text) leftBytes rightBytes, (left ++ right).IsString →
      base64ToBytes left = .ok leftBytes → base64ToBytes right = .ok rightBytes →
        decodeFromBase64 oqs (left ++ right) = decode oqs (leftBytes ++ rightBytes)) ∧
    (∀ text, (∃ error, decodeFromBase64 oqs text = .err error ∧
        error.code = .InvalidBase64Encoding) ↔
      ∃ thrown, base64ToBytes text = .error thrown) ∧
    ∀ left right, removeWhitespace left = removeWhitespace right →
      decodeFromBase64 oqs left = decodeFromBase64 oqs right := by
  refine ⟨?_, ?_, ?_, fun text => decodeFromText_code_iff (by decide), ?_⟩
  · intro text isString
    simp only [base64ToBytes_ok_iff isString]
    exact base64Loop_returns_iff
  · intro bytes isString
    rw [← encodeToBase64_standard] at isString ⊢
    exact base64ToBytes_encodeToBase64 isString
  · intro left right leftBytes rightBytes isString leftRead rightRead
    rw [decodeFromBase64, base64ToBytes_append isString leftRead rightRead, decodeFromText]
  · intro left right same
    rw [decodeFromBase64, decodeFromBase64, base64ToBytes, base64ToBytes, same]

/-- One letter and one letter, each with its padding, are two. -/
theorem base64_grammar_joined :
    decodeFromBase64 noOqs (Text.ofString "Zg==" ++ Text.ofString "bw==") =
      decode noOqs [102, 111] := by
  obtain ⟨-, -, joined, -⟩ := base64_grammar noOqs
  have isString : (Text.ofString "Zg==" ++ Text.ofString "bw==").length < 2 ^ 63 := by decide
  exact joined _ _ [102] [111] isString (by decide) (by decide)

end PqcLedger.Codec
