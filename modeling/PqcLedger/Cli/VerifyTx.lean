import PqcLedger.Codec.Transport
import PqcLedger.Crypto.Address
import PqcLedger.Cxx.Numbers
import PqcLedger.Tx.Completeness

/-!
# The command-line verifier

`ArgParser` and `cmd_verify_tx` of `cli/main.cpp`. A run is what the command
prints and the code it exits with. It decodes and verifies; it does not run the
cheap checks of the validation pipeline, and the difference is exactly these.
-/

namespace PqcLedger.Cli

open PqcLedger.Cxx PqcLedger.Codec PqcLedger.Crypto PqcLedger.Tx

/-- The arguments after the program's name. -/
structure ArgParser where
  args : List Text

/-- The argument after the first occurrence of a flag, or the default. -/
def ArgParser.get (parser : ArgParser) (flag : Text) (defaultVal : Text) : Text :=
  match parser.args.dropWhile (· ≠ flag) with
  | _ :: value :: _ => value
  | _ => defaultVal

/-- The pieces written to the output, in order and without the line ends behind them, and
the exit code. A piece that echoes an argument may hold line ends itself. -/
structure Run where
  stdout : List String
  exitCode : Nat
  deriving DecidableEq, Repr

/-- The report of a transaction that is not valid. -/
def invalid (reason : String) : Run := ⟨["valid: false", "error: " ++ reason], 1⟩

/-- The line on the sender, which comes before the verdict. -/
def fromAddressLine (pubkey : PublicKey) : String :=
  match deriveAddress pubkey with
  | .err error => "from_address: <error deriving address: " ++ error.message ++ ">"
  | .ok addr => "from_address: " ++ (addressToHex addr).message

/-- `cmd_verify_tx`: decode, then verify on the chain id cut down to 32 bits. -/
def cmdVerifyTx (backend : Backend) (parser : ArgParser) : Run :=
  let txHex := parser.get (Text.ofString "--tx") []
  let chainStr := parser.get (Text.ofString "--chain") []
  if txHex = [] ∨ chainStr = [] then invalid "--tx and --chain are required"
  else
    match stoul chainStr with
    | .error _ => invalid ("Invalid chain ID: " ++ chainStr.message)
    | .ok chain =>
        match decodeFromHex backend.oqs txHex with
        | .err error => invalid error.message
        | .ok tx =>
            match verifyTransaction backend tx chain.toUInt32 with
            | .error thrown => invalid ("Unexpected exception: " ++ thrown.what)
            | .ok (.err error) => invalid error.message
            | .ok (.ok valid) =>
                if valid then ⟨[fromAddressLine tx.fromPubkey, "valid: true"], 0⟩
                else ⟨[fromAddressLine tx.fromPubkey, "valid: false",
                  "error: signature verification failed"], 1⟩

/-- The run says that the transaction is valid, in print and by its exit code. -/
def ReportsValid (run : Run) : Prop := "valid: true" ∈ run.stdout ∧ run.exitCode = 0

theorem invalid_not_valid (reason : String) : ¬ ReportsValid (invalid reason) := by
  rintro ⟨-, exitCode⟩
  cases exitCode

variable {backend : Backend} {parser : ArgParser} {chainId : UInt32}

/-- A chain id given as a plain numeral is the one verified under. -/
theorem stoul_of_plain {text : Text} (plain : PlainDecimal text chainId.toNat) :
    ∃ chain : UInt64, stoul text = .ok chain ∧ chain.toUInt32 = chainId := by
  have bounded := chainId.toNat_lt
  refine ⟨UInt64.ofNat chainId.toNat, stringToUnsigned_of_plain plain (by omega), ?_⟩
  simp

/-- The empty text holds no transaction. -/
theorem decodeFromHex_nil (oqs : Oqs) :
    decodeFromHex oqs [] = .err ⟨.InvalidTransaction, "Empty transaction data"⟩ := rfl

/-- A transaction accepted from a text was decoded from the bytes of its layout. -/
theorem hexToBytes_of_accepted {oqs : Oqs} {hex : Text} {tx : Transaction}
    (accepted : decodeFromHex oqs hex = .ok tx) :
    Codec.hexToBytes hex = .ok (txLayout tx) ∧ decode oqs (txLayout tx) = .ok tx := by
  rw [decodeFromHex] at accepted
  cases read : Codec.hexToBytes hex with
  | error thrown =>
      rw [read] at accepted
      cases accepted
  | ok data =>
      rw [read] at accepted
      change decode oqs data = .ok tx at accepted
      obtain ⟨-, -, rfl⟩ := decode_ok_iff.mp accepted
      exact ⟨rfl, accepted⟩

/-- A transaction read from hexadecimal text has version 1. -/
theorem version_of_decodeFromHex {oqs : Oqs} {hex : Text} {tx : Transaction}
    (decoded : decodeFromHex oqs hex = .ok tx) : tx.version = 1 :=
  (decode_ok_iff.mp (hexToBytes_of_accepted decoded).2).1.version

/-- The empty text is no chain id. -/
theorem stoul_nil : stoul [] = .error (.invalidArgument "stoul") := rfl

/-- The command reports a transaction as valid exactly when it decodes and its
signatures verify on the chain that is read, cut down to 32 bits. -/
theorem reportsValid_as_read :
    ReportsValid (cmdVerifyTx backend parser) ↔
      ∃ chain tx, stoul (parser.get (Text.ofString "--chain") []) = .ok chain ∧
        decodeFromHex backend.oqs (parser.get (Text.ofString "--tx") []) = .ok tx ∧
          verifyTransaction backend tx chain.toUInt32 = .ok (.ok true) := by
  rw [cmdVerifyTx]
  generalize parser.get (Text.ofString "--tx") [] = txHex
  generalize parser.get (Text.ofString "--chain") [] = chainStr
  by_cases missing : txHex = [] ∨ chainStr = []
  · rw [if_pos missing]
    refine iff_of_false (invalid_not_valid _) ?_
    rintro ⟨chain, tx, parsed, decoded, -⟩
    rcases missing with rfl | rfl
    · cases (decodeFromHex_nil backend.oqs).symm.trans decoded
    · cases stoul_nil.symm.trans parsed
  · rw [if_neg missing]
    cases parsed : stoul chainStr with
    | error thrown => exact iff_of_false (invalid_not_valid _) (by simp)
    | ok chain =>
        dsimp only
        cases decoded : decodeFromHex backend.oqs txHex with
        | err error => exact iff_of_false (invalid_not_valid _) (by simp)
        | ok tx =>
            have only : (∃ other read, Except.ok chain = (.ok other : Throws UInt64) ∧
                Result.ok tx = .ok read ∧
                  verifyTransaction backend read other.toUInt32 = .ok (.ok true)) ↔
                verifyTransaction backend tx chain.toUInt32 = .ok (.ok true) := by simp
            rw [only]
            dsimp only
            rcases verified : verifyTransaction backend tx chain.toUInt32 with thrown | valid | error
            · exact iff_of_false (invalid_not_valid _) (by simp)
            · cases valid with
              | false => exact iff_of_false (by rintro ⟨-, exitCode⟩; cases exitCode) (by simp)
              | true => exact iff_of_true ⟨by simp, rfl⟩ rfl
            · exact iff_of_false (invalid_not_valid _) (by simp)

/-- A plain chain id is read as itself. -/
theorem reportsValid_iff
    (plain : PlainDecimal (parser.get (Text.ofString "--chain") []) chainId.toNat) :
    ReportsValid (cmdVerifyTx backend parser) ↔
      ∃ tx, decodeFromHex backend.oqs (parser.get (Text.ofString "--tx") []) = .ok tx ∧
        verifyTransaction backend tx chainId = .ok (.ok true) := by
  obtain ⟨chain, parsed, sameChain⟩ := stoul_of_plain plain
  rw [reportsValid_as_read]
  constructor
  · rintro ⟨other, tx, otherParsed, decoded, verified⟩
    have same : chain = other := Except.ok.inj (parsed.symm.trans otherParsed)
    rw [← same, sameChain] at verified
    exact ⟨tx, decoded, verified⟩
  · rintro ⟨tx, decoded, verified⟩
    rw [← sameChain] at verified
    exact ⟨chain, tx, parsed, decoded, verified⟩

/-- The command line checks signatures and the pipeline checks more: a text is
valid to the pipeline exactly when the command reports it valid and its chain id,
nonce, amount and fee pass, ML-DSA-65 being enabled. -/
theorem cmdVerifyTx_agrees
    (plain : PlainDecimal (parser.get (Text.ofString "--chain") []) chainId.toNat) :
    (ReportsValid (cmdVerifyTx backend parser) ↔
      ∃ tx, decodeFromHex backend.oqs (parser.get (Text.ofString "--tx") []) = .ok tx ∧
        verifyTransaction backend tx chainId = .ok (.ok true)) ∧
    ((∃ tx, decodeFromHex backend.oqs (parser.get (Text.ofString "--tx") []) = .ok tx ∧
        validateTransaction backend tx chainId = .ok (.ok true)) ↔
      ReportsValid (cmdVerifyTx backend parser) ∧
        (∃ tx, decodeFromHex backend.oqs (parser.get (Text.ofString "--tx") []) = .ok tx ∧
          FieldsChecked tx chainId) ∧
            (backend.oqs.sigNew "ML-DSA-65").isSome = true) := by
  refine ⟨reportsValid_iff plain, ?_⟩
  rw [reportsValid_iff plain]
  constructor
  · rintro ⟨tx, decoded, valid⟩
    obtain ⟨cheap, verified⟩ := validateTransaction_true_iff.mp valid
    obtain ⟨fields, enabled⟩ :=
      (validateCheapChecks_of_verified (version_of_decodeFromHex decoded) verified).mp cheap
    exact ⟨⟨tx, decoded, verified⟩, ⟨tx, decoded, fields⟩, enabled⟩
  · rintro ⟨⟨tx, decoded, verified⟩, ⟨other, otherDecoded, fields⟩, enabled⟩
    have same : tx = other := Result.ok.inj (decoded.symm.trans otherDecoded)
    subst same
    exact ⟨tx, decoded, validateTransaction_true_iff.mpr
      ⟨(validateCheapChecks_of_verified (version_of_decodeFromHex decoded) verified).mpr
        ⟨fields, enabled⟩, verified⟩⟩

/-! ## A signed transaction of nonce zero -/

/-- The command line `verify-tx --chain 1 --tx <hex>`. -/
def verifyTxArgs (txHex : Text) : ArgParser :=
  ⟨[Text.ofString "verify-tx", Text.ofString "--chain", Text.ofString "1",
    Text.ofString "--tx", txHex]⟩

theorem verifyTxArgs_tx (txHex : Text) :
    (verifyTxArgs txHex).get (Text.ofString "--tx") [] = txHex := rfl

theorem verifyTxArgs_chain (txHex : Text) :
    PlainDecimal ((verifyTxArgs txHex).get (Text.ofString "--chain") []) (1 : UInt32).toNat := by
  change PlainDecimal (Text.ofString "1") 1
  decide

/-- The reference backend's transfer on a chain. -/
def referenceTransfer (chainId : UInt32) (nonce : UInt64) : Transaction :=
  referenceSigned (unsignedTx chainId nonce (zeroKey 1952).val (zeroKey 32) 1000 10)

theorem referenceTransfer_accepted (chainId : UInt32) (nonce : UInt64) :
    verifyTransaction (referenceBackend fun _ => true) (referenceTransfer chainId nonce) chainId =
      .ok (.ok true) := by
  have fits : (unsignedTx chainId nonce (zeroKey 1952).val (zeroKey 32) 1000 10).fromPubkey.length ≤
      maxPrefixed := by
    change (zeroKey 1952).val.length ≤ maxPrefixed
    rw [(zeroKey 1952).property]
    decide
  obtain ⟨-, -, -, accepted⟩ := signTransaction_accepted
    (openSig_of_enabled referenceOqs_enabled) referenceSig_correct referenceSig_keyPair
    (signTransaction_reference (fun _ => true) fits)
  exact accepted

theorem decodeFromHex_referenceTransfer (chainId : UInt32) (nonce : UInt64) :
    decodeFromHex (referenceBackend fun _ => true).oqs
        (encodeToHex (txLayout (referenceTransfer chainId nonce))) =
      .ok (referenceTransfer chainId nonce) := by
  have wellFormed : WellFormed 1952 3309 (referenceTransfer chainId nonce) :=
    ⟨rfl, List.length_replicate, rfl, .inr (copyInto 3309 _).property⟩
  rw [decodeFromHex_encodeToHex]
  exact decode_txLayout referenceOqs_mlDsa65Sized wellFormed

/-- The transfer of nonce zero. -/
def zeroNonceTx : Transaction :=
  referenceSigned (unsignedTx 1 0 (zeroKey 1952).val (zeroKey 32) 1000 10)

/-- Its encoding in hexadecimal. -/
def zeroNonceHex : Text := encodeToHex (txLayout zeroNonceTx)

theorem zeroNonceTx_accepted :
    verifyTransaction (referenceBackend fun _ => true) zeroNonceTx 1 = .ok (.ok true) :=
  referenceTransfer_accepted 1 0

theorem decodeFromHex_zeroNonceHex :
    decodeFromHex (referenceBackend fun _ => true).oqs zeroNonceHex = .ok zeroNonceTx :=
  decodeFromHex_referenceTransfer 1 0

theorem cmdVerifyTx_agrees_zeroNonce :
    ReportsValid (cmdVerifyTx (referenceBackend fun _ => true) (verifyTxArgs zeroNonceHex)) :=
  (cmdVerifyTx_agrees (verifyTxArgs_chain zeroNonceHex)).1.mpr
    ⟨zeroNonceTx, decodeFromHex_zeroNonceHex, zeroNonceTx_accepted⟩

/-- The command reports a transaction of nonce zero as valid; the pipeline does not. -/
theorem cmdVerifyTx_nonce_counterexample :
    PlainDecimal ((verifyTxArgs zeroNonceHex).get (Text.ofString "--chain") [])
        (1 : UInt32).toNat ∧
      ReportsValid (cmdVerifyTx (referenceBackend fun _ => true) (verifyTxArgs zeroNonceHex)) ∧
      ¬ ∃ tx, decodeFromHex (referenceBackend fun _ => true).oqs
            ((verifyTxArgs zeroNonceHex).get (Text.ofString "--tx") []) = .ok tx ∧
          validateTransaction (referenceBackend fun _ => true) tx 1 = .ok (.ok true) := by
  have plain := verifyTxArgs_chain zeroNonceHex
  refine ⟨plain, (reportsValid_iff plain).mpr
    ⟨zeroNonceTx, decodeFromHex_zeroNonceHex, zeroNonceTx_accepted⟩, ?_⟩
  rintro ⟨tx, decoded, valid⟩
  rw [verifyTxArgs_tx, decodeFromHex_zeroNonceHex] at decoded
  cases decoded
  obtain ⟨cheap, -⟩ := validateTransaction_true_iff.mp valid
  obtain ⟨-, fields, -⟩ := validateCheapChecks_ok_iff.mp cheap
  exact fields.nonce rfl

end PqcLedger.Cli
