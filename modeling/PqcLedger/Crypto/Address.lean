import PqcLedger.Codec.TextRoundTrip
import PqcLedger.Crypto.Hash
import PqcLedger.Cxx.Numbers

/-!
# Addresses

`crypto/address.cpp`: an address is the start of the digest of a public key. It is
written as hexadecimal digits, and read two characters at a time by `std::stoul`,
which takes more than digits.
-/

namespace PqcLedger.Crypto

open PqcLedger.Cxx

/-- Derive the address of a public key: its digest. -/
def deriveAddress (pubkey : PublicKey) : Result Address :=
  match sha256 pubkey with
  | .err error => .err error
  | .ok hash =>
      if hash.length < 32 then .err ⟨.HashError, "Hash too short"⟩
      else .ok (copyInto 32 (hash.take 32))

/-- `address_to_hex` writes the digits that `encode_to_hex` writes. -/
def addressToHex (addr : Address) : Text := Codec.encodeToHex addr.val

/-- The loop of `address_from_hex`, on a string of even length: each slice of two
characters is converted in base sixteen and cast to a byte. -/
def addressLoop (position : Nat) : Text → Result Bytes
  | first :: second :: rest =>
      match stoulHex [first, second] with
      | .error _ => .err ⟨.InvalidHexEncoding,
          "Invalid hex character at position " ++ toString position⟩
      | .ok value =>
          match addressLoop (position + 2) rest with
          | .err error => .err error
          | .ok tail => .ok (value.toUInt8 :: tail)
  | _ => .ok []

/-- Read an address from 64 characters. -/
def addressFromHex (hex : Text) : Result Address :=
  if hex.length ≠ 64 then
    .err ⟨.InvalidHexEncoding, "Hex string must be 64 characters (32 bytes)"⟩
  else
    match addressLoop 0 hex with
    | .err error => .err error
    | .ok addr => .ok (copyInto 32 addr)

/-- Every public key has an address: the digest fills it. -/
theorem deriveAddress_ok (pubkey : PublicKey) :
    ∃ addr : Address, deriveAddress pubkey = .ok addr ∧ addr.val = Picosha2.hash256 pubkey := by
  have width := Picosha2.hash256_length pubkey
  have whole : (Picosha2.hash256 pubkey).take 32 = Picosha2.hash256 pubkey := by
    rw [← width, List.take_length]
  refine ⟨copyInto 32 ((Picosha2.hash256 pubkey).take 32), ?_, ?_⟩
  · simp [deriveAddress, sha256, width]
  · rw [whole, copyInto_val width]

/-! ## Reading an address -/

/-- Every slice of two characters holds a hexadecimal number. -/
def ReadablePairs : Text → Prop
  | first :: second :: rest => ReadablePair first second ∧ ReadablePairs rest
  | _ => True

instance : (text : Text) → Decidable (ReadablePairs text)
  | first :: second :: rest =>
      have : Decidable (ReadablePairs rest) := instDecidableReadablePairs rest
      inferInstanceAs (Decidable (ReadablePair first second ∧ ReadablePairs rest))
  | [] => inferInstanceAs (Decidable True)
  | [_] => inferInstanceAs (Decidable True)

theorem addressLoop_ok_iff (position : Nat) (text : Text) :
    (∃ bytes, addressLoop position text = .ok bytes) ↔ ReadablePairs text := by
  induction text using ReadablePairs.induct generalizing position with
  | case1 first second rest ih =>
      rw [addressLoop, ReadablePairs, ← ih (position + 2)]
      cases converted : stoulHex [first, second] with
      | error thrown =>
          have unread : ¬ ReadablePair first second := by
            rw [← stoulHex_ok_iff, converted]
            rintro ⟨value, taken⟩
            cases taken
          simp [unread]
      | ok value =>
          have read : ReadablePair first second := stoulHex_ok_iff.mp ⟨value, converted⟩
          cases addressLoop (position + 2) rest with
          | err error => simp
          | ok tail => simp [read]
  | case2 text short =>
      have ended : addressLoop position text = .ok [] := by
        unfold addressLoop
        split
        · exact absurd rfl (short _ _ _)
        · rfl
      have readable : ReadablePairs text := by
        unfold ReadablePairs
        split
        · exact absurd rfl (short _ _ _)
        · trivial
      exact iff_of_true ⟨[], ended⟩ readable

theorem addressLoop_digits (position : Nat) {text : Text} (even : text.length % 2 = 0)
    (digits : ∀ c ∈ text, isxdigit c = true) :
    ∃ bytes, addressLoop position text = .ok bytes ∧ text.length = 2 * bytes.length ∧
      Codec.encodeToHex bytes = text.map tolower := by
  induction text using ReadablePairs.induct generalizing position with
  | case1 first second rest ih =>
      rw [List.forall_mem_cons, List.forall_mem_cons] at digits
      obtain ⟨firstDigit, secondDigit, restDigits⟩ := digits
      have restEven : rest.length % 2 = 0 := by
        simp only [List.length_cons] at even
        omega
      obtain ⟨tail, read, sized, written⟩ := ih (position + 2) restEven restDigits
      have cast : (UInt64.ofNat (xdigitValue first * 16 + xdigitValue second)).toUInt8 =
          UInt8.ofNat (xdigitValue first * 16 + xdigitValue second) := by
        simp
      refine ⟨UInt8.ofNat (xdigitValue first * 16 + xdigitValue second) :: tail, ?_, ?_, ?_⟩
      · rw [addressLoop, stoulHex_digits firstDigit secondDigit, read, ← cast]
      · simp only [List.length_cons]
        omega
      · rw [Codec.encodeToHex_pair firstDigit secondDigit, written]
        rfl
  | case2 text noPair =>
      obtain rfl : text = [] := Text.eq_nil_of_noPair even noPair
      exact ⟨[], rfl, rfl, rfl⟩

/-- Exactly 64 hexadecimal digits. -/
structure PlainHex (hex : Text) : Prop where
  length : hex.length = 64
  digits : ∀ c ∈ hex, isxdigit c = true

/-- The string is read as an address exactly when it is 64 digits, and then as the
address that they write. -/
def ReadExactly (hex : Text) : Prop :=
  ((∃ addr, addressFromHex hex = .ok addr) ↔ PlainHex hex) ∧
    ∀ addr, addressFromHex hex = .ok addr → addressToHex addr = hex.map tolower

theorem addressFromHex_ok_iff {hex : Text} :
    (∃ addr, addressFromHex hex = .ok addr) ↔ hex.length = 64 ∧ ReadablePairs hex := by
  rw [addressFromHex]
  by_cases sized : hex.length = 64
  · rw [if_neg (not_not_intro sized), ← addressLoop_ok_iff 0]
    cases addressLoop 0 hex with
    | err error => simp
    | ok bytes => simp [sized]
  · rw [if_pos sized]
    simp [sized]

/-- Digits are an address, written back in lower case. -/
theorem addressFromHex_of_plain {hex : Text} (plain : PlainHex hex) :
    ∃ addr, addressFromHex hex = .ok addr ∧ addressToHex addr = hex.map tolower := by
  have even : hex.length % 2 = 0 := by rw [plain.length]
  obtain ⟨bytes, read, sized, written⟩ := addressLoop_digits 0 even plain.digits
  have fills : bytes.length = 32 := by
    have length := plain.length
    omega
  refine ⟨copyInto 32 bytes, ?_, ?_⟩
  · rw [addressFromHex, if_neg (not_not_intro plain.length), read]
  · rw [addressToHex, copyInto_val fills, written]

/-- Reading is exact for a string of another length, for one of digits only, and
where some slice of two characters holds no number. Any other string is read as
an address that it does not spell. -/
theorem readExactly_iff (hex : Text) :
    ReadExactly hex ↔
      hex.length ≠ 64 ∨ (∀ c ∈ hex, isxdigit c = true) ∨ ¬ ReadablePairs hex := by
  rw [ReadExactly, addressFromHex_ok_iff]
  constructor
  · rintro ⟨exactly, -⟩
    by_cases accepted : hex.length = 64 ∧ ReadablePairs hex
    · exact .inr (.inl (exactly.mp accepted).digits)
    · by_cases sized : hex.length = 64
      · exact .inr (.inr fun readable => accepted ⟨sized, readable⟩)
      · exact .inl sized
  · intro condition
    have plainOf : hex.length = 64 ∧ ReadablePairs hex → PlainHex hex := by
      rintro ⟨sized, readable⟩
      rcases condition with otherSize | digits | unreadable
      · exact absurd sized otherSize
      · exact ⟨sized, digits⟩
      · exact absurd readable unreadable
    refine ⟨⟨plainOf, fun plain => ?_⟩, fun addr read => ?_⟩
    · obtain ⟨addr, read, -⟩ := addressFromHex_of_plain plain
      exact addressFromHex_ok_iff.mp ⟨addr, read⟩
    · obtain ⟨other, otherRead, written⟩ :=
        addressFromHex_of_plain (plainOf (addressFromHex_ok_iff.mp ⟨addr, read⟩))
      have same : addr = other := Result.ok.inj (read.symm.trans otherRead)
      rw [same]
      exact written

/-- A plus sign, a five and 62 zeros. -/
def signedHex : Text := 43 :: 53 :: List.replicate 62 48

/-- A sign is no digit, yet the string is read as an address. -/
theorem address_sign_counterexample :
    signedHex.length = 64 ∧ ¬ PlainHex signedHex ∧
      (∃ addr, addressFromHex signedHex = .ok addr) ∧ ¬ ReadExactly signedHex := by
  have notPlain : ¬ PlainHex signedHex := fun plain =>
    absurd (plain.digits 43 List.mem_cons_self) (by decide)
  have read : ∃ addr, addressFromHex signedHex = .ok addr :=
    addressFromHex_ok_iff.mpr ⟨by decide, by decide⟩
  exact ⟨by decide, notPlain, read, fun exactly => notPlain (exactly.1.mp read)⟩

end PqcLedger.Crypto
