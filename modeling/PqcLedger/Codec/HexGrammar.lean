import PqcLedger.Codec.FirstViolation
import PqcLedger.Codec.TextRoundTrip

/-!
# The hexadecimal texts

Once the whitespace is gone, pairs of digits are read as the bytes that they
write, and nothing else is read. The letter case is lost in the bytes and shows
in the error alone, which quotes the first character that is no digit.
-/

namespace PqcLedger.Codec

open PqcLedger.Cxx PqcLedger.Crypto

/-- Hexadecimal digits, two for each byte. -/
structure HexText (text : Text) : Prop where
  even : text.length % 2 = 0
  digits : ∀ c ∈ text, isxdigit c = true

/-- The exception that quotes a character. -/
def invalidHexCharacter (c : UInt8) : Exception :=
  .runtimeError ("Invalid hex character: " ++ Text.message [c])

/-! ## Single characters -/

theorem hexCharToValue_digit : ∀ c : UInt8, isxdigit c = true →
    hexCharToValue c = .ok (UInt8.ofNat (xdigitValue c)) :=
  byte_forall (by decide +kernel)

theorem hexCharToValue_other {c : UInt8} (other : isxdigit c = false) :
    hexCharToValue c = .error (invalidHexCharacter c) := by
  simp only [isxdigit, isdigit, Bool.or_eq_false_iff, Bool.and_eq_false_iff,
    decide_eq_false_iff_not] at other
  obtain ⟨⟨decimal, lower⟩, upper⟩ := other
  rw [hexCharToValue, if_neg (not_and_or.mpr decimal), if_neg (not_and_or.mpr lower),
    if_neg (not_and_or.mpr upper)]
  rfl

/-- What is left after the pairs is not read. -/
theorem hexLoop_short {text : Text} (fewer : text.length < 2) : hexLoop text = .ok [] := by
  unfold hexLoop
  split
  · simp only [List.length_cons] at fewer
    omega
  · rfl

/-- Two digits are read as the byte that has their values for its halves. -/
theorem hexLoop_pair {first second : UInt8} (firstDigit : isxdigit first = true)
    (secondDigit : isxdigit second = true) (rest : Text) :
    hexLoop (first :: second :: rest) =
      (UInt8.ofNat (xdigitValue first * 16 + xdigitValue second) :: ·) <$> hexLoop rest := by
  have firstShort := xdigitValue_lt first firstDigit
  have secondShort := xdigitValue_lt second secondDigit
  have joined := nibbles_join (UInt8.ofNat (xdigitValue first * 16 + xdigitValue second))
  obtain ⟨highIs, lowIs⟩ := pairValue_halves firstShort secondShort
  rw [highIs, lowIs] at joined
  rw [hexLoop, hexCharToValue_digit first firstDigit, Throws.bind_ok,
    hexCharToValue_digit second secondDigit, Throws.bind_ok, joined]
  rfl

/-- Digits are read as bytes that are written with them. -/
theorem hexLoop_digits {text : Text} (hex : HexText text) :
    ∃ bytes, hexLoop text = .ok bytes ∧ encodeToHex bytes = text.map tolower := by
  induction text using hexLoop.induct with
  | case1 first second rest ih =>
      obtain ⟨even, digits⟩ := hex
      rw [List.forall_mem_cons, List.forall_mem_cons] at digits
      obtain ⟨firstDigit, secondDigit, restDigits⟩ := digits
      have restEven : rest.length % 2 = 0 := by
        simp only [List.length_cons] at even
        omega
      obtain ⟨tail, read, written⟩ := ih ⟨restEven, restDigits⟩
      refine ⟨UInt8.ofNat (xdigitValue first * 16 + xdigitValue second) :: tail, ?_, ?_⟩
      · rw [hexLoop_pair firstDigit secondDigit, read]
        rfl
      · rw [encodeToHex_pair firstDigit secondDigit, written]
        rfl
  | case2 text noPair =>
      obtain rfl : text = [] := Text.eq_nil_of_noPair hex.even noPair
      exact ⟨[], rfl, rfl⟩

/-- Whatever is read in pairs is digits. -/
theorem hexLoop_ok {text : Text} {bytes : Bytes} (even : text.length % 2 = 0)
    (read : hexLoop text = .ok bytes) : ∀ c ∈ text, isxdigit c = true := by
  have digit : ∀ {c value}, hexCharToValue c = .ok value → isxdigit c = true := by
    intro c value taken
    by_contra other
    rw [hexCharToValue_other (Bool.eq_false_iff.mpr other)] at taken
    cases taken
  induction text using hexLoop.induct generalizing bytes with
  | case1 first second rest ih =>
      have restEven : rest.length % 2 = 0 := by
        simp only [List.length_cons] at even
        omega
      simp only [hexLoop, Throws.bind_ok_iff] at read
      obtain ⟨high, highRead, low, lowRead, tail, tailRead, -⟩ := read
      rw [List.forall_mem_cons, List.forall_mem_cons]
      exact ⟨digit highRead, digit lowRead, ih restEven tailRead⟩
  | case2 text noPair =>
      obtain rfl : text = [] := Text.eq_nil_of_noPair even noPair
      exact List.forall_mem_nil _

/-- A text is read exactly when it is digits in pairs, whitespace apart. -/
theorem hexToBytes_ok_iff {text : Text} :
    (∃ bytes, hexToBytes text = .ok bytes) ↔ HexText (removeWhitespace text) := by
  rw [hexToBytes]
  by_cases even : (removeWhitespace text).length % 2 = 0
  · rw [if_neg (not_not_intro even)]
    constructor
    · rintro ⟨bytes, read⟩
      exact ⟨even, hexLoop_ok even read⟩
    · intro hex
      obtain ⟨bytes, read, -⟩ := hexLoop_digits hex
      exact ⟨bytes, read⟩
  · rw [if_pos even]
    refine iff_of_false ?_ fun hex => even hex.even
    rintro ⟨bytes, read⟩
    cases read

/-- The bytes that are read are written as the digits, in lower case. -/
theorem encodeToHex_of_hexToBytes {text : Text} {bytes : Bytes}
    (read : hexToBytes text = .ok bytes) :
    encodeToHex bytes = (removeWhitespace text).map tolower := by
  have hex : HexText (removeWhitespace text) := hexToBytes_ok_iff.mp ⟨bytes, read⟩
  obtain ⟨written, loopRead, written_eq⟩ := hexLoop_digits hex
  rw [hexToBytes, if_neg (not_not_intro hex.even), loopRead] at read
  cases read
  exact written_eq

end PqcLedger.Codec
