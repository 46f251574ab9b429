import PqcLedger.Cxx.Basic
import Mathlib.Data.List.TakeWhile

/-!
# Numeric strings

`std::stoul` and `std::stoull` in base ten and `std::stoul` in base sixteen, on a
platform whose `unsigned long` has 64 bits: blanks and a sign are skipped, the
longest run of digits is read, and what follows it is ignored. A minus sign negates
the value modulo 2^64.
-/

namespace PqcLedger.Cxx

/-- `std::isdigit`. -/
def isdigit (c : UInt8) : Bool := 48 ≤ c && c ≤ 57

/-- The value of a run of decimal digits. -/
def decimalValue (digits : Text) : Nat :=
  digits.foldl (fun value c => value * 10 + (c.toNat - 48)) 0

/-- The sign that `strtoul` accepts in front of the digits: whether it negates. -/
def takeSign : Text → Bool × Text
  | c :: rest =>
      if c = 45 then (true, rest) else if c = 43 then (false, rest) else (false, c :: rest)
  | [] => (false, [])

/-- The conversion behind `std::stoul` and `std::stoull`, which throws in their name. -/
def stringToUnsigned (name : String) (text : Text) : Throws UInt64 :=
  -- The C string ends at the first null character.
  let (negative, unsigned) := takeSign ((text.takeWhile (· ≠ 0)).dropWhile isspace)
  let digits := unsigned.takeWhile isdigit
  if digits = [] then .error (.invalidArgument name)
  else if decimalValue digits ≥ 2 ^ 64 then .error (.outOfRange name)
  else if negative then .ok (0 - UInt64.ofNat (decimalValue digits))
  else .ok (UInt64.ofNat (decimalValue digits))

/-- `std::stoul` in base ten, with an `unsigned long` of 64 bits. -/
def stoul (text : Text) : Throws UInt64 := stringToUnsigned "stoul" text

/-- `std::stoull` in base ten. -/
def stoull (text : Text) : Throws UInt64 := stringToUnsigned "stoull" text

/-- `std::isxdigit`. -/
def isxdigit (c : UInt8) : Bool := isdigit c || (97 ≤ c && c ≤ 102) || (65 ≤ c && c ≤ 70)

/-- `std::tolower` in the "C" locale. -/
def tolower (c : UInt8) : UInt8 := if 65 ≤ c ∧ c ≤ 90 then c + 32 else c

/-- The value of a hexadecimal digit. -/
def xdigitValue (c : UInt8) : Nat :=
  if isdigit c then c.toNat - 48 else if 97 ≤ c then c.toNat - 87 else c.toNat - 55

/-- The value of a run of hexadecimal digits. -/
def hexValue (digits : Text) : Nat :=
  digits.foldl (fun value c => value * 16 + xdigitValue c) 0

/-- The prefix `0x` is accepted in front of a digit. -/
def dropHexMark : Text → Text
  | zero :: mark :: digit :: rest =>
      if zero = 48 ∧ (mark = 120 ∨ mark = 88) ∧ isxdigit digit then digit :: rest
      else zero :: mark :: digit :: rest
  | text => text

/-- The sign and the digits that a conversion in base sixteen reads. -/
def hexNumeral (text : Text) : Bool × Text :=
  let (negative, unsigned) := takeSign ((text.takeWhile (· ≠ 0)).dropWhile isspace)
  (negative, (dropHexMark unsigned).takeWhile isxdigit)

/-- `std::stoul(text, nullptr, 16)`. -/
def stoulHex (text : Text) : Throws UInt64 :=
  let (negative, digits) := hexNumeral text
  if digits = [] then .error (.invalidArgument "stoul")
  else if hexValue digits ≥ 2 ^ 64 then .error (.outOfRange "stoul")
  else if negative then .ok (0 - UInt64.ofNat (hexValue digits))
  else .ok (UInt64.ofNat (hexValue digits))

/-- The digits that a conversion in base ten reads. -/
def decimalDigits (text : Text) : Text :=
  (takeSign ((text.takeWhile (· ≠ 0)).dropWhile isspace)).2.takeWhile isdigit

/-- A conversion in base ten takes the text: it finds digits, whose value fits. -/
def Readable (text : Text) : Prop :=
  decimalDigits text ≠ [] ∧ decimalValue (decimalDigits text) < 2 ^ 64

instance (text : Text) : Decidable (Readable text) :=
  inferInstanceAs (Decidable (decimalDigits text ≠ [] ∧ _))

/-- A plain decimal numeral: digits only, at least one. -/
structure PlainDecimal (text : Text) (value : Nat) : Prop where
  nonempty : text ≠ []
  digits : ∀ c ∈ text, isdigit c = true
  value : decimalValue text = value

instance (text : Text) (value : Nat) : Decidable (PlainDecimal text value) :=
  decidable_of_iff (text ≠ [] ∧ text.all isdigit = true ∧ decimalValue text = value) <| by
    constructor
    · rintro ⟨nonempty, digits, value⟩
      exact ⟨nonempty, List.all_eq_true.mp digits, value⟩
    · intro plain
      exact ⟨plain.nonempty, List.all_eq_true.mpr plain.digits, plain.value⟩

theorem isdigit_iff (c : UInt8) : isdigit c = true ↔ 48 ≤ c.toNat ∧ c.toNat ≤ 57 := by
  simp [isdigit, UInt8.le_iff_toNat_le]

/-- A digit is neither a null character, nor a blank, nor a sign. -/
theorem isdigit_ordinary {c : UInt8} (digit : isdigit c = true) :
    c ≠ 0 ∧ isspace c = false ∧ c ≠ 45 ∧ c ≠ 43 := by
  obtain ⟨low, high⟩ := (isdigit_iff c).mp digit
  refine ⟨?_, ?_, ?_, ?_⟩
  · rintro rfl
    exact absurd low (by decide)
  · simp [isspace, UInt8.le_iff_toNat_le, ← UInt8.toNat_inj]
    omega
  · rintro rfl
    exact absurd low (by decide)
  · rintro rfl
    exact absurd low (by decide)

/-- A plain numeral that fits is read whole, as its value. -/
theorem stringToUnsigned_of_plain {name : String} {text : Text} {value : Nat}
    (plain : PlainDecimal text value) (fits : value < 2 ^ 64) :
    stringToUnsigned name text = .ok (UInt64.ofNat value) := by
  have terminated : text.takeWhile (· ≠ 0) = text := by
    rw [List.takeWhile_eq_self_iff]
    intro c member
    simpa using (isdigit_ordinary (plain.digits c member)).1
  have wholeRun : text.takeWhile isdigit = text := by
    rw [List.takeWhile_eq_self_iff]
    exact plain.digits
  have unsigned : takeSign (text.dropWhile isspace) = (false, text) := by
    cases text with
    | nil => exact absurd rfl plain.nonempty
    | cons c rest =>
        obtain ⟨-, blank, minus, plus⟩ := isdigit_ordinary (plain.digits c List.mem_cons_self)
        simp [takeSign, blank, minus, plus]
  have short : ¬ decimalValue text ≥ 2 ^ 64 := by
    rw [plain.value]
    omega
  simp only [stringToUnsigned, terminated, unsigned, wholeRun]
  rw [if_neg plain.nonempty, if_neg short, plain.value]
  rfl

/-- A conversion returns exactly on the texts that it can take. -/
theorem stringToUnsigned_ok_iff {name : String} {text : Text} :
    (∃ value, stringToUnsigned name text = .ok value) ↔ Readable text := by
  have digitsIs : decimalDigits text =
      (takeSign ((text.takeWhile (· ≠ 0)).dropWhile isspace)).2.takeWhile isdigit := rfl
  simp only [stringToUnsigned, Readable, ← digitsIs]
  have thrown : ∀ exception : Exception,
      ¬ ∃ value, (Except.error exception : Throws UInt64) = .ok value := by
    rintro exception ⟨value, taken⟩
    cases taken
  by_cases empty : decimalDigits text = []
  · rw [if_pos empty]
    exact iff_of_false (thrown _) fun readable => readable.1 empty
  · rw [if_neg empty]
    by_cases large : decimalValue (decimalDigits text) ≥ 2 ^ 64
    · rw [if_pos large]
      exact iff_of_false (thrown _) fun readable => Nat.not_lt_of_le large readable.2
    · rw [if_neg large]
      refine iff_of_true ?_ ⟨empty, Nat.lt_of_not_le large⟩
      split
      · exact ⟨_, rfl⟩
      · exact ⟨_, rfl⟩

/-- A conversion takes no empty text. -/
theorem Readable.nonempty {text : Text} (readable : Readable text) : text ≠ [] := by
  rintro rfl
  exact readable.1 rfl

/-- The text is a plain numeral of a value below the bound. -/
def PlainBelow (bound : Nat) (text : Text) : Prop := ∃ value < bound, PlainDecimal text value

/-- What is read from a plain numeral is its value. -/
theorem PlainBelow.decimal_of_read {name : String} {bound : Nat} {text : Text} {read : UInt64}
    (plain : PlainBelow bound text) (fits : bound ≤ 2 ^ 64)
    (taken : stringToUnsigned name text = .ok read) :
    read.toNat < bound ∧ PlainDecimal text read.toNat := by
  obtain ⟨value, bounded, decimal⟩ := plain
  have short : value < 2 ^ 64 := bounded.trans_le fits
  rw [stringToUnsigned_of_plain decimal short] at taken
  cases taken
  rw [UInt64.toNat_ofNat_of_lt' short]
  exact ⟨bounded, decimal⟩

/-! ## Pairs of characters in base sixteen -/

/-- A digit is neither a null character, nor a blank, nor a sign. -/
theorem isxdigit_ordinary : ∀ c : UInt8, isxdigit c = true →
    c ≠ 0 ∧ isspace c = false ∧ c ≠ 45 ∧ c ≠ 43 :=
  byte_forall (by decide +kernel)

/-- A blank is no null character. -/
theorem isspace_ne_null : ∀ c : UInt8, isspace c = true → c ≠ 0 :=
  byte_forall (by decide +kernel)

/-- A character that a conversion skips in front of the digits. -/
def Skipped (c : UInt8) : Prop := isspace c = true ∨ c = 45 ∨ c = 43

instance (c : UInt8) : Decidable (Skipped c) := inferInstanceAs (Decidable (_ ∨ _))

theorem hexNumeral_blank {blank : UInt8} (skipped : isspace blank = true) (rest : Text) :
    hexNumeral (blank :: rest) = hexNumeral rest := by
  simp [hexNumeral, isspace_ne_null blank skipped, skipped]

/-- Behind a blank or a sign one digit is read, if it is one. -/
theorem hexNumeral_single : ∀ c : UInt8,
    (hexNumeral [c]).2 = (if isxdigit c then [c] else []) ∧
      (hexNumeral [45, c]).2 = (if isxdigit c then [c] else []) ∧
      (hexNumeral [43, c]).2 = if isxdigit c then [c] else [] :=
  byte_forall (by decide +kernel)

theorem hexNumeral_of_skipped {first : UInt8} (skipped : Skipped first) (second : UInt8) :
    (hexNumeral [first, second]).2 = if isxdigit second then [second] else [] := by
  obtain ⟨single, minus, plus⟩ := hexNumeral_single second
  rcases skipped with blank | rfl | rfl
  · rw [hexNumeral_blank blank]
    exact single
  · exact minus
  · exact plus

/-- A leading digit is read, and the second with it if it is one. -/
theorem hexNumeral_of_digit {first : UInt8} (digit : isxdigit first = true) (second : UInt8) :
    hexNumeral [first, second] =
      (false, if isxdigit second then [first, second] else [first]) := by
  obtain ⟨notNull, notBlank, notMinus, notPlus⟩ := isxdigit_ordinary first digit
  by_cases null : second = 0
  · have notDigit : isxdigit 0 = false := by decide
    subst null
    simp [hexNumeral, takeSign, dropHexMark, *]
  · by_cases secondDigit : isxdigit second = true
    · simp [hexNumeral, takeSign, dropHexMark, *]
    · simp [hexNumeral, takeSign, dropHexMark, *]

/-- Nothing is read behind any other character. -/
theorem hexNumeral_of_other {first : UInt8} (notDigit : isxdigit first = false)
    (notSkipped : ¬ Skipped first) (second : UInt8) : (hexNumeral [first, second]).2 = [] := by
  obtain ⟨notBlank, notMinus, notPlus⟩ : ¬ isspace first = true ∧ first ≠ 45 ∧ first ≠ 43 := by
    simpa [Skipped] using notSkipped
  by_cases null : first = 0
  · subst null
    rfl
  · by_cases secondNull : second = 0
    · simp [hexNumeral, takeSign, dropHexMark, *]
    · simp [hexNumeral, takeSign, dropHexMark, *]

/-- The two characters hold a hexadecimal number, though not only its digits. -/
def ReadablePair (first second : UInt8) : Prop :=
  isxdigit first = true ∨ (Skipped first ∧ isxdigit second = true)

instance (first second : UInt8) : Decidable (ReadablePair first second) :=
  inferInstanceAs (Decidable (_ ∨ _))

theorem xdigitValue_lt : ∀ c : UInt8, isxdigit c = true → xdigitValue c < 16 :=
  byte_forall (by decide +kernel)

/-- What is read from two characters: both digits, the first, the second, or none. -/
theorem hexNumeral_pair (first second : UInt8) :
    (hexNumeral [first, second]).2 =
      if isxdigit first then if isxdigit second then [first, second] else [first]
      else if Skipped first ∧ isxdigit second = true then [second] else [] := by
  by_cases digit : isxdigit first = true
  · rw [hexNumeral_of_digit digit, if_pos digit]
  · rw [if_neg digit]
    by_cases skipped : Skipped first
    · rw [hexNumeral_of_skipped skipped]
      simp [skipped]
    · have notDigit : isxdigit first = false := by simpa using digit
      rw [hexNumeral_of_other notDigit skipped]
      simp [skipped]

theorem hexNumeral_pair_iff {first second : UInt8} :
    (hexNumeral [first, second]).2 ≠ [] ↔ ReadablePair first second := by
  rw [hexNumeral_pair, ReadablePair]
  by_cases digit : isxdigit first = true
  · rw [if_pos digit]
    refine iff_of_true ?_ (.inl digit)
    split <;> simp
  · rw [if_neg digit]
    by_cases behind : Skipped first ∧ isxdigit second = true
    · rw [if_pos behind]
      exact iff_of_true (by simp) (.inr behind)
    · rw [if_neg behind]
      exact iff_of_false (by simp) (not_or.mpr ⟨digit, behind⟩)

/-- Two characters hold no number that overflows. -/
theorem hexValue_pair_lt (first second : UInt8) :
    hexValue (hexNumeral [first, second]).2 < 2 ^ 64 := by
  have small : ∀ c : UInt8, xdigitValue c < 256 := byte_forall (by decide +kernel)
  have firstSmall := small first
  have secondSmall := small second
  have two : hexValue [first, second] = xdigitValue first * 16 + xdigitValue second := by
    simp [hexValue]
  have one : ∀ c : UInt8, hexValue [c] = xdigitValue c := fun c => by simp [hexValue]
  have none : hexValue [] = 0 := rfl
  rw [hexNumeral_pair]
  split
  · split
    · rw [two]
      omega
    · rw [one]
      omega
  · split
    · rw [one]
      omega
    · rw [none]
      decide

/-- A conversion takes exactly the readable pairs. -/
theorem stoulHex_ok_iff {first second : UInt8} :
    (∃ value, stoulHex [first, second] = .ok value) ↔ ReadablePair first second := by
  have fits := hexValue_pair_lt first second
  rw [← hexNumeral_pair_iff]
  unfold stoulHex
  generalize hexNumeral [first, second] = numeral at fits ⊢
  obtain ⟨negative, digits⟩ := numeral
  dsimp only at fits ⊢
  by_cases empty : digits = []
  · simp [empty]
  · rw [if_neg empty, if_neg (Nat.not_le_of_lt fits)]
    refine iff_of_true ?_ empty
    split
    · exact ⟨_, rfl⟩
    · exact ⟨_, rfl⟩

/-- Two digits are read as the byte that they write. -/
theorem stoulHex_digits {first second : UInt8} (firstDigit : isxdigit first = true)
    (secondDigit : isxdigit second = true) :
    stoulHex [first, second] =
      .ok (UInt64.ofNat (xdigitValue first * 16 + xdigitValue second)) := by
  have fits := hexValue_pair_lt first second
  rw [hexNumeral_of_digit firstDigit, if_pos secondDigit] at fits
  have valueIs : hexValue [first, second] = xdigitValue first * 16 + xdigitValue second := by
    simp [hexValue]
  simp only [stoulHex, hexNumeral_of_digit firstDigit, if_pos secondDigit]
  rw [if_neg (by simp), if_neg (Nat.not_le_of_lt fits), valueIs]
  rfl

end PqcLedger.Cxx
