import PqcLedger.Framing.Parser
import PqcLedger.Framing.Checks
import PqcLedger.Framing.Incremental
import PqcLedger.Framing.Frames
import PqcLedger.Framing.Radix
import PqcLedger.Hashing.Blocks
import PqcLedger.Hashing.Sha256
import PqcLedger.Semantics.Runs
import PqcLedger.Cxx.Checked
import PqcLedger.Cxx.Loops
import PqcLedger.Codec.Transport
import PqcLedger.Codec.EncodeLayout
import PqcLedger.Crypto.Hash
import PqcLedger.Crypto.Classical
import PqcLedger.Codec.DecodeParse
import PqcLedger.Codec.ReaderSafety
import PqcLedger.Codec.Canonical
import PqcLedger.Codec.Readme
import PqcLedger.Codec.FirstViolation
import PqcLedger.Codec.Reframing
import PqcLedger.Codec.TextRoundTrip
import PqcLedger.Codec.HexGrammar
import PqcLedger.Codec.Base64Canonical
import PqcLedger.Codec.Base64Size
import PqcLedger.Codec.Standard
import PqcLedger.Codec.Base64Grammar
import PqcLedger.Codec.TextLoops
import PqcLedger.Crypto.Address
import PqcLedger.Crypto.AddressLoop
import PqcLedger.Crypto.Reference
import PqcLedger.Crypto.Sha256
import PqcLedger.Crypto.Hasher
import PqcLedger.Crypto.HasherSafety
import PqcLedger.Tx.Signing
import PqcLedger.Tx.Validation
import PqcLedger.Tx.StructuredErrors
import PqcLedger.Tx.Authenticity
import PqcLedger.Tx.ModeBinding
import PqcLedger.Tx.Agreement
import PqcLedger.Tx.SigningRuns
import PqcLedger.Tx.Completeness
import PqcLedger.Tx.Verdicts
import PqcLedger.Tx.Algorithms
import PqcLedger.Tx.Consults
import PqcLedger.Cli.VerifyTx
import PqcLedger.Cli.MakeTx
import PqcLedger.Cli.Files
import PqcLedger.Cli.Commands
import PqcLedger.Cli.System
import PqcLedger.Cli.Options
import PqcLedger.Cli.Pipeline
import PqcLedger.Cli.Resigning
import PqcLedger.Cli.Verdicts
import PqcLedger.Cli.Texts
