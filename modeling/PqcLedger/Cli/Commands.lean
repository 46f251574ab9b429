import PqcLedger.Cli.Files
import PqcLedger.Semantics.Runs

/-!
# The program

`cmd_gen_key`, `cmd_sign_tx` and `main` of `cli/main.cpp`. A command is a command
line together with the random bytes drawn while it runs; it prints, exits with a
code, and may leave another disk behind.
-/

namespace PqcLedger.Cli

open PqcLedger.Cxx PqcLedger.Codec PqcLedger.Crypto PqcLedger.Tx

/-- What the program is linked with and runs on. -/
structure Host where
  backend : Backend
  fs : FileSystem

/-- The files of a disk, to be read. -/
def Host.files (host : Host) (disk : host.fs.Disk) : Files := host.fs.read disk

/-- A command line, the program's name first, and the bytes of its random draws. -/
structure Command where
  argv : List Text
  draws : Nat → Bytes

/-- The arguments behind the program's name. -/
def Command.parser (command : Command) : ArgParser := ⟨command.argv.tail⟩

/-! ## Key generation -/

/-- Dilithium3 is tried first, then Dilithium2. -/
def generateWithFallback (oqs : Oqs) (draws : Nat → Bytes) : Result (PublicKey × Bytes) :=
  match generateKeypair oqs "Dilithium3" (draws 0) with
  | .ok pair => .ok pair
  | .err _ => generateKeypair oqs "Dilithium2" (draws 1)

/-- The file of the public key in a directory. -/
def pubkeyPath (outDir : Text) : Text := outDir ++ Text.ofString "/pubkey.bin"

/-- The file of the private key in a directory. -/
def privkeyPath (outDir : Text) : Text := outDir ++ Text.ofString "/privkey.bin"

/-- `cmd_gen_key`: a pair is generated, its public key saved and then its private key. -/
def cmdGenKey (host : Host) (parser : ArgParser) (draws : Nat → Bytes) (disk : host.fs.Disk) :
    MakeTxRun × host.fs.Disk :=
  let algo := parser.get (Text.ofString "--algo") (Text.ofString "pq")
  let outDir := parser.get (Text.ofString "--out") []
  if outDir = [] then (failed "Error: --out is required", disk)
  else if algo ≠ Text.ofString "pq" then
    (failed "Error: Only 'pq' algorithm is supported", disk)
  else
    match generateWithFallback host.backend.oqs draws with
    | .err error => (⟨[], ["Error generating keypair: " ++ error.message,
        "Note: liboqs must be built with Dilithium2 or Dilithium3 enabled."], 1⟩, disk)
    | .ok (pubkey, privkey) =>
        match savePublicKey host.fs disk pubkey (pubkeyPath outDir) with
        | (.err error, after) => (failed ("Error saving public key: " ++ error.message), after)
        | (.ok (), after) =>
            match savePrivateKey host.fs after privkey (privkeyPath outDir) with
            | (.err error, last) =>
                (failed ("Error saving private key: " ++ error.message), last)
            | (.ok (), last) => (⟨[Text.ofString "Keypair generated successfully:",
                Text.ofString "  Public key: " ++ pubkeyPath outDir,
                Text.ofString "  Private key: " ++ privkeyPath outDir], [], 0⟩, last)

/-! ## Signing -/

/-- The end of `cmd_sign_tx`: report what the signer returned, or print the transaction. -/
def reportSigned (returned : Throws (Result Unit × Transaction)) : MakeTxRun :=
  match returned with
  | .error thrown => failed ("Error: Unexpected exception: " ++ thrown.what)
  | .ok (.err error, _) => failed ("Error signing transaction: " ++ error.message)
  | .ok (.ok (), tx) =>
      match encode tx with
      | .error thrown => failed ("Error: Unexpected exception: " ++ thrown.what)
      | .ok (.err error) => failed ("Error encoding signed transaction: " ++ error.message)
      | .ok (.ok encoded) => printed (encodeToHex encoded)

/-- The arguments of `sign-tx`. -/
structure SignTxArgs where
  txHex : Text
  pqKeyPath : Text
  ed25519KeyPath : Text

/-- The arguments of `sign-tx`, looked up with their defaults. -/
def SignTxArgs.ofParser (parser : ArgParser) : SignTxArgs where
  txHex := parser.get (Text.ofString "--tx") []
  pqKeyPath := parser.get (Text.ofString "--pq-key") []
  ed25519KeyPath := parser.get (Text.ofString "--ed25519-key") []

/-- `cmd_sign_tx`, once its arguments are looked up. -/
def signTx (backend : Backend) (files : Files) (args : SignTxArgs) (coins : Bytes) : MakeTxRun :=
  if args.txHex = [] ∨ args.pqKeyPath = [] then failed "Error: --tx and --pq-key are required"
  else
    match decodeFromHex backend.oqs args.txHex with
    | .err error => failed ("Error decoding transaction: " ++ error.message)
    | .ok tx =>
        match loadPrivateKey files args.pqKeyPath with
        | .err error => failed ("Error loading PQ private key: " ++ error.message)
        | .ok pqPrivkey =>
            if args.ed25519KeyPath ≠ [] then
              match loadEd25519PrivateKey backend.openssl files args.ed25519KeyPath with
              | .err error => failed ("Error loading Ed25519 private key: " ++ error.message)
              | .ok ed25519Privkey => reportSigned
                  (signTransactionHybrid backend tx pqPrivkey ed25519Privkey defaultAlgorithm coins)
            else reportSigned (signTransaction backend tx pqPrivkey defaultAlgorithm coins)

/-- `cmd_sign_tx`. -/
def cmdSignTx (backend : Backend) (files : Files) (parser : ArgParser) (coins : Bytes) :
    MakeTxRun :=
  signTx backend files (.ofParser parser) coins

/-! ## Dispatch -/

/-- The lines of `print_usage`. -/
def usage : List Text :=
  ["Usage: pqc-ledger-cli <command> [options]", "", "Commands:",
    "  gen-key --algo <pq> --out <dir>",
    "  make-tx --to <hex32> --amount <u64> --fee <u64> --nonce <u64> --chain <u32> " ++
      "--pubkey <path> [--format <hex|base64>]",
    "  sign-tx --tx <hex> --pq-key <path> [--ed25519-key <path>]",
    "  verify-tx --tx <hex> --chain <u32>", "", "Options:",
    "  --format: Output format for make-tx (hex or base64, default: hex)"].map Text.ofString

/-- A run of `verify-tx` prints on the first stream only. -/
def Run.streams (run : Run) : MakeTxRun := ⟨run.stdout.map Text.ofString, [], run.exitCode⟩

/-- `main`. -/
def main (host : Host) (command : Command) (disk : host.fs.Disk) : MakeTxRun × host.fs.Disk :=
  match command.argv with
  | _ :: name :: _ =>
      if name = Text.ofString "gen-key" then
        cmdGenKey host command.parser command.draws disk
      else if name = Text.ofString "make-tx" then
        (cmdMakeTx (host.files disk) command.parser, disk)
      else if name = Text.ofString "sign-tx" then
        (cmdSignTx host.backend (host.files disk) command.parser (command.draws 0), disk)
      else if name = Text.ofString "verify-tx" then
        ((cmdVerifyTx host.backend command.parser).streams, disk)
      else (⟨usage, ["Unknown command: " ++ name.message], 1⟩, disk)
  | _ => (⟨usage, [], 1⟩, disk)

end PqcLedger.Cli
