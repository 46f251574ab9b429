import PqcLedger.Cli.VerifyTx

/-!
# The command-line maker, and numbers on the command line

`cmd_make_tx` of `cli/main.cpp`. Its numbers go through `std::stoull` and
`std::stoul`, which take more texts than plain numerals, and the chain id is cut
down to 32 bits here and in `cmd_verify_tx`. Both commands read numbers exactly
where the conversions refuse a text, or where the numerals are plain and fit, or
where the maker refuses another argument.
-/

namespace PqcLedger.Cli

open PqcLedger.Cxx PqcLedger.Codec PqcLedger.Crypto PqcLedger.Tx

/-- The files that can be opened, with their bytes. -/
abbrev Files := Text → Option Bytes

/-- Load a public key: whatever the file holds, to its end. -/
def loadPublicKey (files : Files) (path : Text) : Result PublicKey :=
  match files path with
  | none => .err ⟨.FileReadError, "Cannot open file: " ++ path.message⟩
  | some key => .ok key

/-- What the command writes to its two streams, and the exit code. -/
structure MakeTxRun where
  stdout : List Text
  stderr : List String
  exitCode : Nat
  deriving DecidableEq, Repr

/-- A run that fails with a report. -/
def failed (report : String) : MakeTxRun := ⟨[], [report], 1⟩

/-- A run that prints a text and succeeds. -/
def printed (text : Text) : MakeTxRun := ⟨[text], [], 0⟩

/-- The arguments of `make-tx`. -/
structure MakeTxArgs where
  toHex : Text
  amountStr : Text
  feeStr : Text
  nonceStr : Text
  chainStr : Text
  pubkeyPath : Text
  format : Text

/-- The arguments of `make-tx`, looked up with their defaults. -/
def MakeTxArgs.ofParser (parser : ArgParser) : MakeTxArgs where
  toHex := parser.get (Text.ofString "--to") []
  amountStr := parser.get (Text.ofString "--amount") []
  feeStr := parser.get (Text.ofString "--fee") []
  nonceStr := parser.get (Text.ofString "--nonce") []
  chainStr := parser.get (Text.ofString "--chain") []
  pubkeyPath := parser.get (Text.ofString "--pubkey") []
  format := parser.get (Text.ofString "--format") (Text.ofString "hex")

/-- The numbers that the transaction is made of. -/
structure MakeTxNumbers where
  amount : UInt64
  fee : UInt64
  nonce : UInt64
  chainId : UInt32

/-- The block of conversions, of which the last is cut down to 32 bits. -/
def parseNumbers (args : MakeTxArgs) : Throws MakeTxNumbers := do
  let amount ← stoull args.amountStr
  let fee ← stoull args.feeStr
  let nonce ← stoull args.nonceStr
  let chain ← stoul args.chainStr
  pure ⟨amount, fee, nonce, chain.toUInt32⟩

/-- The text printed for an encoding; `bytes_to_hex` writes what `encode_to_hex` does. -/
def outputText (format : Text) (encoded : Bytes) : Text :=
  if format = Text.ofString "base64" then encodeToBase64 encoded else encodeToHex encoded

/-- `cmd_make_tx`, once its arguments are looked up. -/
def makeTx (files : Files) (args : MakeTxArgs) : MakeTxRun :=
  if args.toHex = [] ∨ args.amountStr = [] ∨ args.feeStr = [] ∨ args.nonceStr = [] ∨
      args.chainStr = [] ∨ args.pubkeyPath = [] then
    failed "Error: All arguments are required"
  else if args.format ≠ Text.ofString "hex" ∧ args.format ≠ Text.ofString "base64" then
    failed "Error: --format must be 'hex' or 'base64'"
  else
    match parseNumbers args with
    | .error thrown => failed ("Error: Invalid numeric argument: " ++ thrown.what)
    | .ok numbers =>
        match addressFromHex args.toHex with
        | .err error => failed ("Error: Invalid 'to' address: " ++ error.message)
        | .ok toAddr =>
            match loadPublicKey files args.pubkeyPath with
            | .err error => failed ("Error loading public key: " ++ error.message)
            | .ok pubkey =>
                match encode (unsignedTx numbers.chainId numbers.nonce pubkey toAddr
                    numbers.amount numbers.fee) with
                | .error thrown => failed ("Error: Unexpected exception: " ++ thrown.what)
                | .ok (.err error) => failed ("Error encoding transaction: " ++ error.message)
                | .ok (.ok encoded) => printed (outputText args.format encoded)

/-- `cmd_make_tx`. -/
def cmdMakeTx (files : Files) (parser : ArgParser) : MakeTxRun :=
  makeTx files (.ofParser parser)

/-! ## When the command succeeds -/

/-- The arguments that are no numbers pass: an address that can be read, a known
format, and a file whose bytes fit a length prefix. -/
structure OthersPass (files : Files) (args : MakeTxArgs) : Prop where
  toSized : args.toHex.length = 64
  toReadable : ReadablePairs args.toHex
  pathGiven : args.pubkeyPath ≠ []
  formatKnown : args.format = Text.ofString "hex" ∨ args.format = Text.ofString "base64"
  pubkeyFits : ∃ pubkey, files args.pubkeyPath = some pubkey ∧ pubkey.length ≤ 65535

/-- The conversions take all four numbers. -/
structure NumbersReadable (args : MakeTxArgs) : Prop where
  amount : Readable args.amountStr
  fee : Readable args.feeStr
  nonce : Readable args.nonceStr
  chain : Readable args.chainStr

theorem parseNumbers_ok_iff {args : MakeTxArgs} {numbers : MakeTxNumbers} :
    parseNumbers args = .ok numbers ↔
      stoull args.amountStr = .ok numbers.amount ∧ stoull args.feeStr = .ok numbers.fee ∧
        stoull args.nonceStr = .ok numbers.nonce ∧
          ∃ chain, stoul args.chainStr = .ok chain ∧ chain.toUInt32 = numbers.chainId := by
  simp only [parseNumbers, Throws.bind_ok_iff, Throws.pure_eq, Except.ok.injEq]
  constructor
  · rintro ⟨amount, amountRead, fee, feeRead, nonce, nonceRead, chain, chainRead, rfl⟩
    exact ⟨amountRead, feeRead, nonceRead, chain, chainRead, rfl⟩
  · rintro ⟨amountRead, feeRead, nonceRead, chain, chainRead, cut⟩
    exact ⟨_, amountRead, _, feeRead, _, nonceRead, chain, chainRead, by rw [cut]⟩

theorem parseNumbers_returns_iff {args : MakeTxArgs} :
    (∃ numbers, parseNumbers args = .ok numbers) ↔ NumbersReadable args := by
  constructor
  · rintro ⟨numbers, parsed⟩
    obtain ⟨amountRead, feeRead, nonceRead, chain, chainRead, -⟩ := parseNumbers_ok_iff.mp parsed
    exact ⟨stringToUnsigned_ok_iff.mp ⟨_, amountRead⟩, stringToUnsigned_ok_iff.mp ⟨_, feeRead⟩,
      stringToUnsigned_ok_iff.mp ⟨_, nonceRead⟩, stringToUnsigned_ok_iff.mp ⟨_, chainRead⟩⟩
  · rintro ⟨amount, fee, nonce, chain⟩
    obtain ⟨amountValue, amountRead⟩ := stringToUnsigned_ok_iff.mpr amount
    obtain ⟨feeValue, feeRead⟩ := stringToUnsigned_ok_iff.mpr fee
    obtain ⟨nonceValue, nonceRead⟩ := stringToUnsigned_ok_iff.mpr nonce
    obtain ⟨chainValue, chainRead⟩ := stringToUnsigned_ok_iff.mpr chain
    exact ⟨⟨amountValue, feeValue, nonceValue, chainValue.toUInt32⟩,
      parseNumbers_ok_iff.mpr ⟨amountRead, feeRead, nonceRead, chainValue, chainRead, rfl⟩⟩

/-- An unsigned transaction is encoded when its key fits. -/
theorem encode_unsignedTx {pubkey : PublicKey} (fits : pubkey.length ≤ maxPrefixed)
    (chainId : UInt32) (nonce : UInt64) (toAddr : Address) (amount fee : UInt64) :
    encode (unsignedTx chainId nonce pubkey toAddr amount fee) =
      .ok (.ok (txLayout (unsignedTx chainId nonce pubkey toAddr amount fee))) :=
  encode_of_representable ⟨fits, rfl, Nat.zero_le _⟩

/-- Arguments that pass are printed as the encoding of the transaction that carries
the numbers parsed. -/
theorem makeTx_of_passed {files : Files} {args : MakeTxArgs} {numbers : MakeTxNumbers}
    (others : OthersPass files args) (readable : NumbersReadable args)
    (parsed : parseNumbers args = .ok numbers) :
    ∃ pubkey toAddr data,
      encode (unsignedTx numbers.chainId numbers.nonce pubkey toAddr numbers.amount numbers.fee) =
        .ok (.ok data) ∧ makeTx files args = printed (outputText args.format data) := by
  obtain ⟨toAddr, toRead⟩ := addressFromHex_ok_iff.mpr ⟨others.toSized, others.toReadable⟩
  obtain ⟨pubkey, loaded, fits⟩ := others.pubkeyFits
  have toGiven : args.toHex ≠ [] := by
    intro empty
    have sized := others.toSized
    rw [empty] at sized
    cases sized
  have given : ¬ (args.toHex = [] ∨ args.amountStr = [] ∨ args.feeStr = [] ∨ args.nonceStr = [] ∨
      args.chainStr = [] ∨ args.pubkeyPath = []) := by
    simp [toGiven, readable.amount.nonempty, readable.fee.nonempty, readable.nonce.nonempty,
      readable.chain.nonempty, others.pathGiven]
  have known : ¬ (args.format ≠ Text.ofString "hex" ∧ args.format ≠ Text.ofString "base64") :=
    fun unknown => others.formatKnown.elim unknown.1 unknown.2
  have encoded := encode_unsignedTx fits numbers.chainId numbers.nonce toAddr numbers.amount
    numbers.fee
  refine ⟨pubkey, toAddr, _, encoded, ?_⟩
  simp only [makeTx, if_neg given, if_neg known, parsed, toRead, loadPublicKey, loaded, encoded]

/-- The command exits with zero only if all arguments pass. -/
theorem makeTx_exitCode {files : Files} {args : MakeTxArgs}
    (succeeded : (makeTx files args).exitCode = 0) :
    OthersPass files args ∧ NumbersReadable args := by
  have notFailed : ∀ {report}, (failed report).exitCode ≠ 0 := nofun
  rw [makeTx] at succeeded
  split at succeeded
  · exact absurd succeeded notFailed
  · rename_i given
    split at succeeded
    · exact absurd succeeded notFailed
    · rename_i known
      cases parsed : parseNumbers args with
      | error thrown =>
          rw [parsed] at succeeded
          exact absurd succeeded notFailed
      | ok numbers =>
          cases toRead : addressFromHex args.toHex with
          | err error =>
              rw [parsed, toRead] at succeeded
              exact absurd succeeded notFailed
          | ok toAddr =>
              cases opened : files args.pubkeyPath with
              | none =>
                  simp only [parsed, toRead, loadPublicKey, opened] at succeeded
                  exact absurd succeeded notFailed
              | some pubkey =>
                  have fits : pubkey.length ≤ maxPrefixed := by
                    by_cases fits : pubkey.length ≤ maxPrefixed
                    · exact fits
                    · have threw : encode (unsignedTx numbers.chainId numbers.nonce pubkey toAddr
                          numbers.amount numbers.fee) = .error lengthExceedsU16 :=
                        encode_of_exceeds fits
                      simp only [parsed, toRead, loadPublicKey, opened, threw] at succeeded
                      exact absurd succeeded notFailed
                  obtain ⟨toSized, toReadable⟩ := addressFromHex_ok_iff.mp ⟨toAddr, toRead⟩
                  have pathGiven : args.pubkeyPath ≠ [] := fun empty => given (by simp [empty])
                  have formatKnown : args.format = Text.ofString "hex" ∨
                      args.format = Text.ofString "base64" := by
                    rw [not_and_or, not_not, not_not] at known
                    exact known
                  exact ⟨⟨toSized, toReadable, pathGiven, formatKnown, pubkey, opened, fits⟩,
                    parseNumbers_returns_iff.mp ⟨numbers, parsed⟩⟩

/-! ## Numbers read exactly -/

/-- The transaction carries the numbers that the arguments write in plain digits. -/
structure Carries (args : MakeTxArgs) (tx : Transaction) : Prop where
  amount : PlainDecimal args.amountStr tx.amount.toNat
  fee : PlainDecimal args.feeStr tx.fee.toNat
  nonce : PlainDecimal args.nonceStr tx.nonce.toNat
  chain : PlainDecimal args.chainStr tx.chainId.toNat

/-- If `make-tx` succeeds, its numbers are plain numerals in range, and the
transaction printed carries them. -/
def MakesExactly (files : Files) (parser : ArgParser) : Prop :=
  (cmdMakeTx files parser).exitCode = 0 →
    ∃ tx data, encode tx = .ok (.ok data) ∧
      (cmdMakeTx files parser).stdout = [outputText (MakeTxArgs.ofParser parser).format data] ∧
        Carries (.ofParser parser) tx

/-- The four numbers are plain numerals in range. -/
structure NumbersPlain (args : MakeTxArgs) : Prop where
  amount : PlainBelow (2 ^ 64) args.amountStr
  fee : PlainBelow (2 ^ 64) args.feeStr
  nonce : PlainBelow (2 ^ 64) args.nonceStr
  chain : PlainBelow (2 ^ 32) args.chainStr

theorem Carries.plain {args : MakeTxArgs} {tx : Transaction} (carries : Carries args tx) :
    NumbersPlain args where
  amount := ⟨_, tx.amount.toNat_lt, carries.amount⟩
  fee := ⟨_, tx.fee.toNat_lt, carries.fee⟩
  nonce := ⟨_, tx.nonce.toNat_lt, carries.nonce⟩
  chain := ⟨_, tx.chainId.toNat_lt, carries.chain⟩

/-- Below 2^32 nothing is cut off a chain id. -/
theorem toUInt32_toNat {chain : UInt64} (fits : chain.toNat < 2 ^ 32) :
    chain.toUInt32.toNat = chain.toNat := by
  rw [UInt64.toNat_toUInt32]
  exact Nat.mod_eq_of_lt fits

/-- Plain numerals in range are carried by the transaction made of the numbers parsed. -/
theorem carries_of_plain {args : MakeTxArgs} {numbers : MakeTxNumbers}
    (plain : NumbersPlain args) (parsed : parseNumbers args = .ok numbers)
    (pubkey : PublicKey) (toAddr : Address) :
    Carries args
      (unsignedTx numbers.chainId numbers.nonce pubkey toAddr numbers.amount numbers.fee) := by
  obtain ⟨amountRead, feeRead, nonceRead, chain, chainRead, cut⟩ := parseNumbers_ok_iff.mp parsed
  obtain ⟨chainFits, chainIs⟩ := plain.chain.decimal_of_read (by decide) chainRead
  refine ⟨(plain.amount.decimal_of_read (Nat.le_refl _) amountRead).2,
    (plain.fee.decimal_of_read (Nat.le_refl _) feeRead).2,
    (plain.nonce.decimal_of_read (Nat.le_refl _) nonceRead).2, ?_⟩
  change PlainDecimal args.chainStr numbers.chainId.toNat
  rw [← cut, toUInt32_toNat chainFits]
  exact chainIs

theorem makesExactly_iff (files : Files) (parser : ArgParser) :
    MakesExactly files parser ↔
      ¬ OthersPass files (.ofParser parser) ∨ ¬ NumbersReadable (.ofParser parser) ∨
        NumbersPlain (.ofParser parser) := by
  rw [MakesExactly, cmdMakeTx]
  generalize MakeTxArgs.ofParser parser = args
  constructor
  · intro makes
    by_cases others : OthersPass files args
    · by_cases readable : NumbersReadable args
      · obtain ⟨numbers, parsed⟩ := parseNumbers_returns_iff.mpr readable
        obtain ⟨-, -, data, -, prints⟩ := makeTx_of_passed others readable parsed
        obtain ⟨tx, -, -, -, carries⟩ := makes (by rw [prints]; rfl)
        exact .inr (.inr carries.plain)
      · exact .inr (.inl readable)
    · exact .inl others
  · intro condition succeeded
    obtain ⟨others, readable⟩ := makeTx_exitCode succeeded
    have plain : NumbersPlain args := by
      rcases condition with refused | unreadable | plain
      · exact absurd others refused
      · exact absurd readable unreadable
      · exact plain
    obtain ⟨numbers, parsed⟩ := parseNumbers_returns_iff.mpr readable
    obtain ⟨pubkey, toAddr, data, encoded, prints⟩ := makeTx_of_passed others readable parsed
    exact ⟨_, data, encoded, by rw [prints]; rfl, carries_of_plain plain parsed pubkey toAddr⟩

/-- If `verify-tx` reports a transaction as valid, the chain id is a plain numeral
in range and the transaction is accepted on that chain. -/
def VerifiesExactly (backend : Backend) (parser : ArgParser) : Prop :=
  ReportsValid (cmdVerifyTx backend parser) →
    ∃ chainId : UInt32,
      PlainDecimal (parser.get (Text.ofString "--chain") []) chainId.toNat ∧
        ∃ tx, decodeFromHex backend.oqs (parser.get (Text.ofString "--tx") []) = .ok tx ∧
          verifyTransaction backend tx chainId = .ok (.ok true)

/-- On every backend and for every transaction given with it, `verify-tx` verifies the
chain text exactly. -/
def ChainVerifiedExactly (chainStr : Text) : Prop :=
  ∀ backend parser, parser.get (Text.ofString "--chain") [] = chainStr →
    VerifiesExactly backend parser

/-- The command line `verify-tx --chain <chain> --tx <hex>`. -/
def chainArgs (chainStr txHex : Text) : ArgParser :=
  ⟨[Text.ofString "verify-tx", Text.ofString "--chain", chainStr, Text.ofString "--tx", txHex]⟩

theorem chainArgs_tx {chainStr : Text} (readable : Readable chainStr) (txHex : Text) :
    (chainArgs chainStr txHex).get (Text.ofString "--tx") [] = txHex := by
  have notFlag : chainStr ≠ Text.ofString "--tx" := by
    rintro rfl
    exact absurd readable (by decide)
  have notCommand : Text.ofString "verify-tx" ≠ Text.ofString "--tx" := by decide
  have notChain : Text.ofString "--chain" ≠ Text.ofString "--tx" := by decide
  simp [chainArgs, ArgParser.get, notFlag, notCommand, notChain]

/-- Whatever chain a text is read as, there is a transaction for it, which is reported as
valid. -/
theorem readable_reportsValid {chainStr : Text} (readable : Readable chainStr) :
    ∃ backend parser, parser.get (Text.ofString "--chain") [] = chainStr ∧
      ReportsValid (cmdVerifyTx backend parser) := by
  obtain ⟨chain, chainRead⟩ : ∃ chain, stoul chainStr = .ok chain :=
    stringToUnsigned_ok_iff.mpr readable
  refine ⟨referenceBackend fun _ => true,
    chainArgs chainStr (encodeToHex (txLayout (referenceTransfer chain.toUInt32 1))), rfl, ?_⟩
  refine reportsValid_as_read.mpr ⟨chain, _, chainRead, ?_, referenceTransfer_accepted _ 1⟩
  rw [chainArgs_tx readable]
  exact decodeFromHex_referenceTransfer _ 1

/-- A chain text is verified exactly when it is a plain numeral in range, or is refused. -/
theorem chainVerifiedExactly_iff (chainStr : Text) :
    ChainVerifiedExactly chainStr ↔ PlainBelow (2 ^ 32) chainStr ∨ ¬ Readable chainStr := by
  constructor
  · intro verifies
    by_cases readable : Readable chainStr
    · obtain ⟨backend, parser, rfl, reported⟩ := readable_reportsValid readable
      obtain ⟨chainId, plain, -⟩ := verifies backend parser rfl reported
      exact .inl ⟨_, chainId.toNat_lt, plain⟩
    · exact .inr readable
  · rintro condition backend parser rfl reported
    obtain ⟨chain, tx, chainRead, decoded, verified⟩ := reportsValid_as_read.mp reported
    have readable := stringToUnsigned_ok_iff.mp ⟨chain, chainRead⟩
    have plain := condition.resolve_right (not_not_intro readable)
    obtain ⟨fits, decimal⟩ := plain.decimal_of_read (by decide) chainRead
    rw [← toUInt32_toNat fits] at decimal
    exact ⟨chain.toUInt32, decimal, tx, decoded, verified⟩

/-- `make-tx` reads its numbers exactly when it refuses another argument, when its
conversions refuse a number, or when all four are plain numerals in range. A chain
text is verified exactly, over all transactions given with it, when it is such a
numeral or the conversion refuses it. -/
theorem cli_numbers_iff (files : Files) (parser : ArgParser) (chainStr : Text) :
    (MakesExactly files parser ↔
      ¬ OthersPass files (.ofParser parser) ∨ ¬ NumbersReadable (.ofParser parser) ∨
        NumbersPlain (.ofParser parser)) ∧
    (ChainVerifiedExactly chainStr ↔ PlainBelow (2 ^ 32) chainStr ∨ ¬ Readable chainStr) :=
  ⟨makesExactly_iff files parser, chainVerifiedExactly_iff chainStr⟩

/-! ## A negative amount and an oversized chain id -/

/-- The command line `make-tx` with an amount of minus one. -/
def negativeAmountArgs : ArgParser :=
  ⟨[Text.ofString "make-tx", Text.ofString "--to", List.replicate 64 48,
    Text.ofString "--amount", Text.ofString "-1", Text.ofString "--fee", Text.ofString "10",
    Text.ofString "--nonce", Text.ofString "1", Text.ofString "--chain", Text.ofString "1",
    Text.ofString "--pubkey", Text.ofString "pubkey.bin"]⟩

/-- Every file holds the key of 1952 zero bytes. -/
def zeroKeyFiles : Files := fun _ => some (zeroKey 1952).val

theorem negativeAmount_others : OthersPass zeroKeyFiles (.ofParser negativeAmountArgs) where
  toSized := rfl
  toReadable := by
    change ReadablePairs (List.replicate 64 48)
    decide
  pathGiven := by
    change Text.ofString "pubkey.bin" ≠ []
    decide
  formatKnown := .inl rfl
  pubkeyFits := ⟨_, rfl, by rw [(zeroKey 1952).property]; decide⟩

theorem negativeAmount_readable : NumbersReadable (.ofParser negativeAmountArgs) where
  amount := by
    change Readable (Text.ofString "-1")
    decide
  fee := by
    change Readable (Text.ofString "10")
    decide
  nonce := by
    change Readable (Text.ofString "1")
    decide
  chain := by
    change Readable (Text.ofString "1")
    decide

theorem negativeAmount_not_plain : ¬ NumbersPlain (.ofParser negativeAmountArgs) := by
  rintro ⟨⟨value, -, decimal⟩, -⟩
  have minus : (45 : UInt8) ∈ Text.ofString "-1" := by decide
  exact absurd (decimal.digits 45 minus) (by decide)

/-- The command line `verify-tx --chain 4294967297 --tx <hex>`. -/
def largeChainArgs (txHex : Text) : ArgParser :=
  ⟨[Text.ofString "verify-tx", Text.ofString "--chain", Text.ofString "4294967297",
    Text.ofString "--tx", txHex]⟩

theorem largeChain_reported :
    ReportsValid (cmdVerifyTx (referenceBackend fun _ => true) (largeChainArgs zeroNonceHex)) := by
  have parsed : stoul (Text.ofString "4294967297") = .ok 4294967297 := by decide
  exact reportsValid_as_read.mpr
    ⟨4294967297, zeroNonceTx, parsed, decodeFromHex_zeroNonceHex, zeroNonceTx_accepted⟩

theorem largeChain_not_plain :
    ¬ PlainBelow (2 ^ 32) ((largeChainArgs zeroNonceHex).get (Text.ofString "--chain") []) := by
  rintro ⟨value, bounded, decimal⟩
  have valueIs : decimalValue (Text.ofString "4294967297") = 4294967297 := by decide
  have same : decimalValue (Text.ofString "4294967297") = value := decimal.value
  omega

/-- An amount of minus one is encoded, and a transaction of chain 1 is reported as
valid on chain 2^32 + 1. -/
theorem cli_numbers_counterexample :
    (cmdMakeTx zeroKeyFiles negativeAmountArgs).exitCode = 0 ∧
      ¬ MakesExactly zeroKeyFiles negativeAmountArgs ∧
      ReportsValid (cmdVerifyTx (referenceBackend fun _ => true) (largeChainArgs zeroNonceHex)) ∧
      ¬ VerifiesExactly (referenceBackend fun _ => true) (largeChainArgs zeroNonceHex) := by
  refine ⟨?_, ?_, largeChain_reported, ?_⟩
  · obtain ⟨numbers, parsed⟩ := parseNumbers_returns_iff.mpr negativeAmount_readable
    obtain ⟨-, -, data, -, prints⟩ :=
      makeTx_of_passed negativeAmount_others negativeAmount_readable parsed
    rw [cmdMakeTx, prints]
    rfl
  · rw [makesExactly_iff]
    rintro (refused | unreadable | plain)
    · exact refused negativeAmount_others
    · exact unreadable negativeAmount_readable
    · exact negativeAmount_not_plain plain
  · intro verifies
    obtain ⟨chainId, plain, -⟩ := verifies largeChain_reported
    exact largeChain_not_plain ⟨_, chainId.toNat_lt, plain⟩

end PqcLedger.Cli
