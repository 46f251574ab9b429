import Mathlib.Algebra.Group.Nat.Defs
import Mathlib.Data.List.Infix

/-!
# The C++ runtime beneath the library

Byte vectors and strings are lists of bytes, `size_t` arithmetic is taken modulo
2^64, and a function that may throw returns an `Except` value. Messages and
`what()` texts are Lean strings, one character for each byte.
-/

namespace PqcLedger.Cxx

/-- `std::vector<uint8_t>`. -/
abbrev Bytes := List UInt8

/-- `std::string` holding arbitrary input, as its sequence of `char` units. -/
abbrev Text := List UInt8

/-- The text is no longer than a `std::string` can be. -/
def Text.IsString (text : Text) : Prop := text.length < 2 ^ 63

/-- A byte container of a fixed size, such as `std::array<uint8_t, N>`. -/
abbrev SizedBytes (count : Nat) := {bytes : Bytes // bytes.length = count}

/-- The exceptions that the library raises or lets through. -/
inductive Exception where
  | runtimeError (what : String)
  | badVariantAccess
  | lengthError (what : String)
  | invalidArgument (what : String)
  | outOfRange (what : String)
  deriving DecidableEq, Repr

/-- `std::exception::what`; the standard library's own texts are libstdc++'s. -/
def Exception.what : Exception → String
  | .runtimeError what => what
  | .badVariantAccess => "std::get: wrong index for variant"
  | .lengthError what => what
  | .invalidArgument what => what
  | .outOfRange what => what

/-- The outcome of a call that either returns or throws. -/
abbrev Throws (α : Type) := Except Exception α

@[simp] theorem Throws.bind_ok {α β : Type} (value : α) (next : α → Throws β) :
    (Except.ok value : Throws α) >>= next = next value := rfl

@[simp] theorem Throws.bind_error {α β : Type} (thrown : Exception) (next : α → Throws β) :
    (Except.error thrown : Throws α) >>= next = .error thrown := rfl

/-- A sequence returns exactly when both calls return in turn. -/
theorem Throws.bind_ok_iff {α β : Type} {first : Throws α} {next : α → Throws β} {value : β} :
    first >>= next = .ok value ↔ ∃ middle, first = .ok middle ∧ next middle = .ok value := by
  cases first with
  | error thrown => simp
  | ok middle => simp

@[simp] theorem Throws.pure_eq {α : Type} (value : α) : (pure value : Throws α) = .ok value := rfl

/-- One more than the largest `size_t`. -/
def sizeModulus : Nat := 2 ^ 64

/-- `size_t` addition. -/
def sizeAdd (left right : Nat) : Nat := (left + right) % sizeModulus

/-- `size_t` subtraction. -/
def sizeSub (left right : Nat) : Nat :=
  if right ≤ left then left - right else left + sizeModulus - right

/-- `size_t` multiplication. -/
def sizeMul (left right : Nat) : Nat := (left * right) % sizeModulus

theorem sizeAdd_of_lt {left right : Nat} (fits : left + right < sizeModulus) :
    sizeAdd left right = left + right :=
  Nat.mod_eq_of_lt fits

theorem sizeSub_of_le {left right : Nat} (ordered : right ≤ left) :
    sizeSub left right = left - right :=
  if_pos ordered

/-- `std::vector<uint8_t>::reserve`, short of running out of memory. -/
def reserve (count : Nat) : Throws Unit :=
  if count > 2 ^ 63 - 1 then .error (.lengthError "vector::reserve") else .ok ()

/-- `std::vector<uint8_t>::resize`. -/
def resize (bytes : Bytes) (count : Nat) : Bytes :=
  bytes.take count ++ List.replicate (count - bytes.length) 0

/-- `std::copy` of a byte vector into a zeroed array. -/
def copyInto (count : Nat) (bytes : Bytes) : SizedBytes count :=
  ⟨(bytes ++ List.replicate count 0).take count, by simp⟩

/-- `std::isspace` in the "C" locale. -/
def isspace (c : UInt8) : Bool := c == 32 || (9 ≤ c && c ≤ 13)

/-- The bytes of an ASCII literal. -/
def Text.ofString (literal : String) : Text := literal.toList.map Char.toUInt8

/-- A text embedded in a message. -/
def Text.message (text : Text) : String :=
  String.ofList (text.map fun c => Char.ofNat c.toNat)

/-- `text.find(needle) == 0`. -/
def findsAtStart (text needle : String) : Bool :=
  needle.toList.isPrefixOf text.toList

/-- `text.find(needle) != std::string::npos`. -/
def findsAnywhere (text needle : String) : Bool :=
  decide (needle.toList <:+: text.toList)

/-- `text.substr(start)`, for a start within the text. -/
def substr (text : String) (start : Nat) : String :=
  String.ofList (text.toList.drop start)

/-- What holds of the 256 values of a byte holds of every byte. -/
theorem byte_forall {holds : UInt8 → Prop} (all : ∀ value : Fin 256, holds (UInt8.ofNat value))
    (c : UInt8) : holds c := by
  have here := all ⟨c.toNat, c.toNat_lt⟩
  rwa [UInt8.ofNat_toNat] at here

/-- A text that does not start with a pair of characters has at most one. -/
theorem Text.length_of_noPair {text : Text}
    (noPair : ∀ first second rest, text = first :: second :: rest → False) : text.length < 2 := by
  cases text with
  | nil => decide
  | cons first rest =>
      cases rest with
      | nil => simp
      | cons second rest => exact absurd rfl (noPair first second rest)

theorem Text.eq_nil_of_noPair {text : Text} (even : text.length % 2 = 0)
    (noPair : ∀ first second rest, text = first :: second :: rest → False) : text = [] := by
  have fewer := Text.length_of_noPair noPair
  exact List.eq_nil_of_length_eq_zero (by omega)

/-- Resizing to the present size changes nothing. -/
theorem resize_self (bytes : Bytes) : resize bytes bytes.length = bytes := by
  simp [resize]

theorem resize_length (bytes : Bytes) (count : Nat) : (resize bytes count).length = count := by
  rw [resize, List.length_append, List.length_take, List.length_replicate]
  omega

/-- A source that fills the array exactly becomes its contents. -/
theorem copyInto_val {count : Nat} {bytes : Bytes} (fills : bytes.length = count) :
    (copyInto count bytes).val = bytes := by
  subst fills
  simp [copyInto]

theorem reserve_of_le {count : Nat} (short : count ≤ 2 ^ 63 - 1) : reserve count = .ok () :=
  if_neg (Nat.not_lt_of_le short)

theorem findsAtStart_append (needle tail : String) :
    findsAtStart (needle ++ tail) needle = true := by
  rw [findsAtStart, List.isPrefixOf_iff_prefix, String.toList_append]
  exact List.prefix_append _ _

theorem findsAnywhere_self (text : String) : findsAnywhere text text = true := by
  simp [findsAnywhere]

end PqcLedger.Cxx
