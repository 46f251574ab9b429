import PqcLedger.Cxx.Basic

/-!
# Transactions, errors and results

The data of `types.hpp` and `error.hpp`.
-/

namespace PqcLedger

open PqcLedger.Cxx

/-- Error codes. -/
inductive ErrorCode where
  | InvalidVersion
  | TrailingBytes
  | InvalidLengthPrefix
  | MismatchedLength
  | InvalidAuthTag
  | InvalidPublicKey
  | InvalidSignature
  | SignatureVerificationFailed
  | KeyGenerationFailed
  | HashError
  | InvalidTransaction
  | InvalidChainId
  | InvalidAddress
  | InvalidAmount
  | InvalidFee
  | FileReadError
  | FileWriteError
  | InvalidHexEncoding
  | InvalidBase64Encoding
  | UnknownError
  deriving DecidableEq, Repr

/-- An error: its code, and the message that is shown. -/
structure Error where
  code : ErrorCode
  message : String
  deriving DecidableEq, Repr

/-- `Result<T>`: the library reads a value or an error only after checking
which one is present, so the two are the constructors. -/
inductive Result (α : Type) where
  | ok (value : α)
  | err (error : Error)
  deriving DecidableEq, Repr

/-- `std::array<uint8_t, 32>`. -/
abbrev Address := SizedBytes 32

/-- A public key of any length. -/
abbrev PublicKey := Bytes

/-- A signature of any length. -/
abbrev Signature := Bytes

/-- `ED25519_PUBKEY_SIZE`. -/
def ed25519PubkeySize : Nat := 32

/-- `ED25519_SIG_SIZE`. -/
def ed25519SigSize : Nat := 64

/-- `enum class AuthMode : uint8_t`. The fixed underlying type makes every byte
a value; two of them are named. -/
structure AuthMode where
  byte : UInt8
  deriving DecidableEq, Repr

/-- One post-quantum signature. -/
def AuthMode.PqOnly : AuthMode := ⟨0⟩

/-- A classical signature beside the post-quantum one. -/
def AuthMode.Hybrid : AuthMode := ⟨1⟩

/-- The payload of `PqOnly`. -/
structure PqSignature where
  sig : Signature
  deriving DecidableEq, Repr

/-- The payload of `Hybrid`. -/
structure HybridSignature where
  classicalSig : Signature
  pqSig : Signature
  deriving DecidableEq, Repr

/-- `std::variant<PqSignature, HybridSignature>`. -/
inductive Auth where
  | pq (signature : PqSignature)
  | hybrid (signature : HybridSignature)
  deriving DecidableEq, Repr

/-- `std::get<PqSignature>`. -/
def Auth.getPq : Auth → Throws PqSignature
  | .pq signature => .ok signature
  | .hybrid _ => .error .badVariantAccess

/-- `std::get<HybridSignature>`. -/
def Auth.getHybrid : Auth → Throws HybridSignature
  | .pq _ => .error .badVariantAccess
  | .hybrid signature => .ok signature

@[ext] structure Transaction where
  version : UInt8
  chainId : UInt32
  nonce : UInt64
  fromPubkey : PublicKey
  toAddr : Address
  amount : UInt64
  fee : UInt64
  authMode : AuthMode
  auth : Auth
  deriving DecidableEq, Repr

/-- The unsigned transaction that `cmd_make_tx` builds from its arguments. -/
def unsignedTx (chainId : UInt32) (nonce : UInt64) (fromPubkey : PublicKey) (toAddr : Address)
    (amount fee : UInt64) : Transaction :=
  { version := 1, chainId, nonce, fromPubkey, toAddr, amount, fee
    authMode := .PqOnly, auth := .pq ⟨[]⟩ }

@[simp] theorem Auth.getPq_pq (signature : PqSignature) :
    Auth.getPq (.pq signature) = .ok signature := rfl

@[simp] theorem Auth.getHybrid_hybrid (signature : HybridSignature) :
    Auth.getHybrid (.hybrid signature) = .ok signature := rfl

@[simp] theorem AuthMode.PqOnly_byte : AuthMode.PqOnly.byte = 0 := rfl

@[simp] theorem AuthMode.Hybrid_byte : AuthMode.Hybrid.byte = 1 := rfl

@[simp] theorem AuthMode.Hybrid_ne_PqOnly : AuthMode.Hybrid ≠ AuthMode.PqOnly := by decide

/-- A mode is named exactly when its byte is. -/
theorem AuthMode.eq_PqOnly_iff (mode : AuthMode) : mode = .PqOnly ↔ mode.byte = 0 := by
  cases mode
  simp [AuthMode.PqOnly]

theorem AuthMode.eq_Hybrid_iff (mode : AuthMode) : mode = .Hybrid ↔ mode.byte = 1 := by
  cases mode
  simp [AuthMode.Hybrid]

end PqcLedger
