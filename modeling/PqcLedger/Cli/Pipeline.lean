import PqcLedger.Cli.System

/-!
# From a key to a valid transaction

What `make-tx` and `sign-tx` print when they succeed, and what a whole session
comes to: keys are generated, a transaction is made and signed with them, and it
is verified, with any other commands in between.
-/

namespace PqcLedger.Cli

open PqcLedger.Cxx PqcLedger.Codec PqcLedger.Crypto PqcLedger.Tx

/-! ## What the commands print -/

/-- A run of `make-tx` that succeeds: what it parsed, loaded and printed. -/
structure MadeRun (files : Files) (args : MakeTxArgs) (numbers : MakeTxNumbers)
    (tx : Transaction) : Prop where
  parsed : parseNumbers args = .ok numbers
  carries : ∃ pubkey toAddr, files args.pubkeyPath = some pubkey ∧
    addressFromHex args.toHex = .ok toAddr ∧
      tx = unsignedTx numbers.chainId numbers.nonce pubkey toAddr numbers.amount numbers.fee
  representable : Representable tx
  prints : makeTx files args = printed (outputText args.format (txLayout tx))

/-- Arguments that pass one by one are printed as the encoding of their transaction. -/
theorem makeTx_prints {files : Files} {args : MakeTxArgs} {numbers : MakeTxNumbers}
    {toAddr : Address} {pubkey : PublicKey} (others : OthersPass files args)
    (parsed : parseNumbers args = .ok numbers) (toRead : addressFromHex args.toHex = .ok toAddr)
    (loaded : files args.pubkeyPath = some pubkey) (fits : pubkey.length ≤ maxPrefixed) :
    MadeRun files args numbers (unsignedTx numbers.chainId numbers.nonce pubkey toAddr
      numbers.amount numbers.fee) := by
  have representable : Representable (unsignedTx numbers.chainId numbers.nonce pubkey toAddr
      numbers.amount numbers.fee) := ⟨fits, rfl, Nat.zero_le _⟩
  refine ⟨parsed, ⟨pubkey, toAddr, loaded, toRead, rfl⟩, representable, ?_⟩
  obtain ⟨otherKey, otherAddr, data, encoded, prints⟩ :=
    makeTx_of_passed others (parseNumbers_returns_iff.mp ⟨numbers, parsed⟩) parsed
  revert prints
  unfold makeTx
  split
  case isTrue => exact fun prints => absurd (congrArg MakeTxRun.exitCode prints) Nat.one_ne_zero
  case isFalse =>
      split
      case isTrue => exact fun prints => absurd (congrArg MakeTxRun.exitCode prints) Nat.one_ne_zero
      case isFalse =>
          simp only [parsed, toRead, loadPublicKey, loaded, encode_of_representable representable]
          exact fun _ => trivial

theorem makeTx_succeeded {files : Files} {args : MakeTxArgs}
    (succeeded : (makeTx files args).exitCode = 0) :
    ∃ numbers tx, MadeRun files args numbers tx := by
  obtain ⟨others, readable⟩ := makeTx_exitCode succeeded
  obtain ⟨numbers, parsed⟩ := parseNumbers_returns_iff.mpr readable
  obtain ⟨toAddr, toRead⟩ := addressFromHex_ok_iff.mpr ⟨others.toSized, others.toReadable⟩
  obtain ⟨pubkey, loaded, fits⟩ := others.pubkeyFits
  exact ⟨numbers, _, makeTx_prints others parsed toRead loaded fits⟩

/-- In hexadecimal the encoding of the transaction made is all that is printed. -/
theorem main_makeTx_hex {host : Host} {makeTx : Command} {disk : host.fs.Disk}
    (isMakeTx : makeTx.Names "make-tx")
    (asHex : (MakeTxArgs.ofParser makeTx.parser).format = Text.ofString "hex")
    (made : (main host makeTx disk).1.exitCode = 0) :
    ∃ numbers tx, MadeRun (host.files disk) (.ofParser makeTx.parser) numbers tx ∧
      (main host makeTx disk).1.stdout = [encodeToHex (txLayout tx)] := by
  rw [main_makeTx isMakeTx] at made ⊢
  obtain ⟨numbers, tx, run⟩ := makeTx_succeeded made
  refine ⟨numbers, tx, run, ?_⟩
  have prints := run.prints
  rw [outputText, if_neg (by rw [asHex]; decide)] at prints
  rw [cmdMakeTx, prints]
  rfl

/-- A run of `sign-tx` that succeeds: what it decoded, loaded, signed and printed. -/
structure SignedRun {backend : Backend} (files : Files) (args : SignTxArgs) (coins : Bytes)
    (logged : LoggedCall backend) : Prop where
  decoded : decodeFromHex backend.oqs args.txHex = .ok logged.call.tx
  loaded : files args.pqKeyPath = some logged.call.pqPrivkey
  drawn : logged.call.coins = coins
  mode : logged.call.mode = if args.ed25519KeyPath = [] then .PqOnly else .Hybrid
  representable : Representable logged.signed
  prints : signTx backend files args coins = printed (encodeToHex (txLayout logged.signed))

/-- What a signer returns without an error is printed if it can be encoded. -/
theorem reportSigned_of_returned {tx : Transaction} (representable : Representable tx) :
    reportSigned (.ok (.ok (), tx)) = printed (encodeToHex (txLayout tx)) := by
  simp only [reportSigned, encode_of_representable representable]

/-- The report of a call succeeds only if the call did, and printed what it returned. -/
theorem reportSigned_succeeded {backend : Backend} (call : SigningCall)
    (succeeded : (reportSigned (call.run backend)).exitCode = 0) :
    ∃ logged : LoggedCall backend, logged.call = call ∧ Representable logged.signed ∧
      reportSigned (call.run backend) = printed (encodeToHex (txLayout logged.signed)) := by
  rcases returned : call.run backend with thrown | ⟨⟨⟨⟩⟩ | error, signed⟩
  · rw [returned] at succeeded
    cases succeeded
  · have matched := (LoggedCall.spec ⟨call, signed, returned⟩).matched
    have representable : Representable signed := by
      by_contra unrepresentable
      obtain ⟨thrown, threw⟩ := encode_throws matched.named unrepresentable
      rw [returned] at succeeded
      simp only [reportSigned, threw] at succeeded
      cases succeeded
    exact ⟨⟨call, signed, returned⟩, rfl, representable, reportSigned_of_returned representable⟩
  · rw [returned] at succeeded
    cases succeeded

/-- A call whose report is the run of `sign-tx` is what that run signed. -/
theorem signedRun_of_reported {backend : Backend} {files : Files} {args : SignTxArgs}
    (call : SigningCall) (decoded : decodeFromHex backend.oqs args.txHex = .ok call.tx)
    (loaded : files args.pqKeyPath = some call.pqPrivkey)
    (mode : call.mode = if args.ed25519KeyPath = [] then .PqOnly else .Hybrid)
    (reported : signTx backend files args call.coins = reportSigned (call.run backend))
    (succeeded : (signTx backend files args call.coins).exitCode = 0) :
    ∃ logged : LoggedCall backend, SignedRun files args call.coins logged := by
  rw [reported] at succeeded
  obtain ⟨logged, rfl, representable, prints⟩ := reportSigned_succeeded call succeeded
  exact ⟨logged, decoded, loaded, rfl, mode, representable, reported.trans prints⟩

/-- What is left of the command once the transaction and the private key are there. -/
def signLoaded (backend : Backend) (files : Files) (tx : Transaction) (pqPrivkey : Bytes)
    (secondPath : Text) (coins : Bytes) : MakeTxRun :=
  if secondPath = [] then
    reportSigned (signTransaction backend tx pqPrivkey defaultAlgorithm coins)
  else
    match loadEd25519PrivateKey backend.openssl files secondPath with
    | .err error => failed ("Error loading Ed25519 private key: " ++ error.message)
    | .ok ed25519Privkey => reportSigned
        (signTransactionHybrid backend tx pqPrivkey ed25519Privkey defaultAlgorithm coins)

theorem signTx_of_loaded {backend : Backend} {files : Files} {txHex keyPath secondPath : Text}
    {coins : Bytes} {tx : Transaction} {pqPrivkey : Bytes} (keyGiven : keyPath ≠ [])
    (decoded : decodeFromHex backend.oqs txHex = .ok tx) (loaded : files keyPath = some pqPrivkey) :
    signTx backend files ⟨txHex, keyPath, secondPath⟩ coins =
      signLoaded backend files tx pqPrivkey secondPath coins := by
  have given : ¬ (txHex = [] ∨ keyPath = []) := by
    rintro (rfl | missing)
    · cases decoded
    · exact keyGiven missing
  have keyLoaded : loadPrivateKey files keyPath = .ok pqPrivkey := loadPublicKey_ok_iff.mpr loaded
  rw [signTx, if_neg given]
  simp only [decoded, keyLoaded]
  exact ite_not _ _ _

/-- The command fails before it comes to that, or it comes to that. -/
theorem signTx_cases (backend : Backend) (files : Files) (args : SignTxArgs) (coins : Bytes) :
    (∃ report, signTx backend files args coins = failed report) ∨
      ∃ tx pqPrivkey, args.pqKeyPath ≠ [] ∧ decodeFromHex backend.oqs args.txHex = .ok tx ∧
        files args.pqKeyPath = some pqPrivkey ∧
          signTx backend files args coins =
            signLoaded backend files tx pqPrivkey args.ed25519KeyPath coins := by
  by_cases missing : args.txHex = [] ∨ args.pqKeyPath = []
  · exact .inl ⟨_, if_pos missing⟩
  · cases decoded : decodeFromHex backend.oqs args.txHex with
    | err error =>
        rw [signTx, if_neg missing, decoded]
        exact .inl ⟨_, rfl⟩
    | ok tx =>
        cases loaded : loadPrivateKey files args.pqKeyPath with
        | err error =>
            rw [signTx, if_neg missing, decoded]
            simp only [loaded]
            exact .inl ⟨_, rfl⟩
        | ok pqPrivkey =>
            have keyGiven : args.pqKeyPath ≠ [] := fun empty => missing (.inr empty)
            have keyRead := loadPublicKey_ok_iff.mp loaded
            exact .inr ⟨tx, pqPrivkey, keyGiven, rfl, keyRead,
              signTx_of_loaded keyGiven decoded keyRead⟩

theorem signTx_succeeded {backend : Backend} {files : Files} {args : SignTxArgs} {coins : Bytes}
    (succeeded : (signTx backend files args coins).exitCode = 0) :
    ∃ logged : LoggedCall backend, SignedRun files args coins logged := by
  rcases signTx_cases backend files args coins with
    ⟨report, stopped⟩ | ⟨tx, pqPrivkey, -, decoded, keyRead, signs⟩
  · rw [stopped] at succeeded
    cases succeeded
  · rw [signLoaded] at signs
    by_cases pqOnly : args.ed25519KeyPath = []
    · rw [if_pos pqOnly] at signs
      exact signedRun_of_reported (.signTransaction tx pqPrivkey coins) decoded keyRead
        (if_pos pqOnly).symm signs succeeded
    · rw [if_neg pqOnly] at signs
      cases second : loadEd25519PrivateKey backend.openssl files args.ed25519KeyPath with
      | err error =>
          rw [second] at signs
          rw [signs] at succeeded
          cases succeeded
      | ok ed25519Privkey =>
          rw [second] at signs
          exact signedRun_of_reported
            (.signTransactionHybrid tx pqPrivkey ed25519Privkey coins) decoded keyRead
            (if_neg pqOnly).symm signs succeeded

/-- What `verify-tx` prints of a transaction that it accepts. -/
theorem cmdVerifyTx_of_accepted {backend : Backend} {parser : ArgParser} {chain : UInt64}
    {tx : Transaction} (parsed : stoul (parser.get (Text.ofString "--chain") []) = .ok chain)
    (decoded : decodeFromHex backend.oqs (parser.get (Text.ofString "--tx") []) = .ok tx)
    (verified : verifyTransaction backend tx chain.toUInt32 = .ok (.ok true)) :
    cmdVerifyTx backend parser = ⟨[fromAddressLine tx.fromPubkey, "valid: true"], 0⟩ := by
  have given : ¬ (parser.get (Text.ofString "--tx") [] = [] ∨
      parser.get (Text.ofString "--chain") [] = []) := by
    rintro (missing | missing)
    · rw [missing] at decoded
      cases decoded
    · rw [missing] at parsed
      cases parsed
  simp only [cmdVerifyTx, if_neg given, parsed, decoded, verified, if_true]

/-- What a PqOnly call leaves is packaged with its PQ signature alone. -/
theorem asPqOnly_signed {backend : Backend} {logged : LoggedCall backend}
    (pqOnly : logged.call.mode = .PqOnly) : asPqOnly logged.signed = logged.signed := by
  have mode : logged.signed.authMode = .PqOnly := logged.spec.mode.trans pqOnly
  have matched := logged.spec.matched
  rw [mode] at matched
  obtain ⟨call, signed, returned⟩ := logged
  obtain ⟨version, chainId, nonce, fromPubkey, toAddr, amount, fee, authMode, auth⟩ := signed
  change authMode = .PqOnly at mode
  subst mode
  cases auth with
  | pq signature => rfl
  | hybrid signature => cases matched

/-- A generated pair is read back after any run that spares it. -/
theorem savedKeys_read {host : Host} {dir : Text} {genKey : Command} {commands : List Command}
    {found later : host.fs.Disk} (isGenKey : genKey.Names "gen-key")
    (intoDir : genKey.outDir = dir) (generated : (main host genKey found).1.exitCode = 0)
    (run : Semantics.Run (Step host) (main host genKey found).2 commands later)
    (spared : ∀ command ∈ commands, SparesKeys host.fs command dir)
    (reliable : host.fs.Reliable) (apart : host.fs.Apart (privkeyPath dir) (pubkeyPath dir)) :
    ∃ pubkey privkey, generateWithFallback host.backend.oqs genKey.draws = .ok (pubkey, privkey) ∧
      host.files later (pubkeyPath dir) = some pubkey ∧
        host.files later (privkeyPath dir) = some privkey := by
  subst intoDir
  obtain ⟨pubkey, privkey, pair, pubkeyRead, privkeyRead⟩ :=
    ((keysSaved_of_succeeded isGenKey generated).held reliable apart).held
  have pubkeyKept := read_of_run run fun command inRun => (spared command inRun).1
  have privkeyKept := read_of_run run fun command inRun => (spared command inRun).2
  exact ⟨pubkey, privkey, pair, pubkeyKept.trans pubkeyRead, privkeyKept.trans privkeyRead⟩

/-! ## A session -/

/-- Keys are generated into a directory, a transaction is made with the public key
and signed with the private key, each command succeeding; any commands that spare
the two files run in between. -/
structure Session (host : Host) (dir : Text) where
  genKey : Command
  makeTx : Command
  signTx : Command
  afterGenKey : List Command
  afterMakeTx : List Command
  found : host.fs.Disk
  making : host.fs.Disk
  signing : host.fs.Disk
  isGenKey : genKey.Names "gen-key"
  intoDir : genKey.outDir = dir
  generated : (main host genKey found).1.exitCode = 0
  toMaking : Semantics.Run (Step host) (main host genKey found).2 afterGenKey making
  sparedToMaking : ∀ command ∈ afterGenKey, SparesKeys host.fs command dir
  isMakeTx : makeTx.Names "make-tx"
  pubkeyGiven : (MakeTxArgs.ofParser makeTx.parser).pubkeyPath = pubkeyPath dir
  asHex : (MakeTxArgs.ofParser makeTx.parser).format = Text.ofString "hex"
  made : (main host makeTx making).1.exitCode = 0
  toSigning : Semantics.Run (Step host) making afterMakeTx signing
  sparedToSigning : ∀ command ∈ afterMakeTx, SparesKeys host.fs command dir
  isSignTx : signTx.Names "sign-tx"
  txGiven : (main host makeTx making).1.stdout = [(SignTxArgs.ofParser signTx.parser).txHex]
  privkeyGiven : (SignTxArgs.ofParser signTx.parser).pqKeyPath = privkeyPath dir
  pqOnly : (SignTxArgs.ofParser signTx.parser).ed25519KeyPath = []
  signed : (main host signTx signing).1.exitCode = 0

namespace Session

variable {host : Host} {dir : Text} {session : Session host dir}

/-- The pair that `gen-key` wrote is what the later commands read. -/
theorem keys_read (session : Session host dir) (reliable : host.fs.Reliable)
    (apart : host.fs.Apart (privkeyPath dir) (pubkeyPath dir)) :
    ∃ pubkey privkey, generateWithFallback host.backend.oqs session.genKey.draws =
        .ok (pubkey, privkey) ∧
      host.files session.making (pubkeyPath dir) = some pubkey ∧
        host.files session.signing (privkeyPath dir) = some privkey := by
  obtain ⟨pubkey, privkey, pair, pubkeyRead, privkeyRead⟩ :=
    savedKeys_read session.isGenKey session.intoDir session.generated session.toMaking
      session.sparedToMaking reliable apart
  have kept := read_of_run session.toSigning fun command inRun =>
    (session.sparedToSigning command inRun).2
  exact ⟨pubkey, privkey, pair, pubkeyRead, kept.trans privkeyRead⟩

end Session

/-- ML-DSA-44, where it is enabled, has a public key of the length of its standard. -/
def MlDsa44Sized (oqs : Oqs) : Prop :=
  ∀ sig, oqs.sigNew "ML-DSA-44" = some sig → sig.lengthPublicKey = 1312

/-- A generated pair whose public key has the length of ML-DSA-65 is one of ML-DSA-65. -/
theorem generateWithFallback_mlDsa65 {oqs : Oqs} {scheme : OqsSig} {draws : Nat → Bytes}
    {pubkey : PublicKey} {privkey : Bytes} (enabled : oqs.sigNew "ML-DSA-65" = some scheme)
    (smallSized : MlDsa44Sized oqs) (sized : pubkey.length = 1952)
    (generated : generateWithFallback oqs draws = .ok (pubkey, privkey)) :
    scheme.KeyPair pubkey privkey := by
  obtain ⟨sig, opened | opened, keyPair⟩ := generateWithFallback_scheme generated
  · rw [openSig_of_enabled enabled] at opened
    cases opened
    exact keyPair
  · cases small : oqs.sigNew "ML-DSA-44" with
    | some other =>
        rw [openSig_of_enabled small] at opened
        cases opened
        have length := keyPair.pubkey_length
        rw [sized, smallSized _ small] at length
        cases length
    | none =>
        have found : findAvailableMlDsa oqs = some "ML-DSA-65" := by
          rw [findAvailableMlDsa, availableCandidates, List.find?_cons_of_pos]
          rw [enabled]
          rfl
        have listed : "Dilithium2" ∈ fallbackNames := by decide
        simp only [openSig, small, if_pos listed, found, enabled] at opened
        cases opened
        exact keyPair

namespace Session

variable {host : Host} {dir : Text} {session : Session host dir}

/-- `make-tx` made a transaction, and printed it for `sign-tx`. -/
theorem madeRun (session : Session host dir) : ∃ numbers tx,
    MadeRun (host.files session.making) (.ofParser session.makeTx.parser) numbers tx ∧
      (SignTxArgs.ofParser session.signTx.parser).txHex = encodeToHex (txLayout tx) := by
  obtain ⟨numbers, tx, run, prints⟩ :=
    main_makeTx_hex session.isMakeTx session.asHex session.made
  have given := session.txGiven
  rw [prints] at given
  exact ⟨numbers, tx, run, (List.singleton_inj.mp given).symm⟩

/-- `sign-tx` signed that transaction. -/
theorem signedRun (session : Session host dir) : ∃ logged : LoggedCall host.backend,
    SignedRun (host.files session.signing) (.ofParser session.signTx.parser)
      (session.signTx.draws 0) logged := by
  have signed := session.signed
  rw [main_signTx session.isSignTx] at signed
  exact signTx_succeeded signed

end Session

/-- Whatever ran in between, the transaction that a session signed is valid: any
`verify-tx` of what was printed, on the chain that was asked for, says so and prints
the address of the key. -/
theorem session_valid {host : Host} {dir : Text} (session : Session host dir) {scheme : OqsSig}
    (enabled : host.backend.oqs.sigNew "ML-DSA-65" = some scheme)
    (sized : host.backend.oqs.MlDsa65Sized) (smallSized : MlDsa44Sized host.backend.oqs)
    (correct : scheme.Correct) (reliable : host.fs.Reliable)
    (apart : host.fs.Apart (privkeyPath dir) (pubkeyPath dir)) {verifyTx : Command}
    (isVerifyTx : verifyTx.Names "verify-tx")
    (txGiven : (main host session.signTx session.signing).1.stdout =
      [verifyTx.parser.get (Text.ofString "--tx") []])
    (chainGiven : verifyTx.parser.get (Text.ofString "--chain") [] =
      (MakeTxArgs.ofParser session.makeTx.parser).chainStr) (disk : host.fs.Disk) :
    ∃ pubkey, host.files session.making (pubkeyPath dir) = some pubkey ∧
      (main host verifyTx disk).1 =
        ⟨[Text.ofString (fromAddressLine pubkey), Text.ofString "valid: true"], [], 0⟩ := by
  obtain ⟨pubkey, privkey, generated, pubkeyRead, privkeyRead⟩ :=
    session.keys_read reliable apart
  obtain ⟨numbers, tx, made, printedTx⟩ := session.madeRun
  obtain ⟨logged, signed⟩ := session.signedRun
  refine ⟨pubkey, pubkeyRead, ?_⟩
  -- the transaction made, signed with the generated pair
  obtain ⟨wellFormed, representable, sameLayout⟩ : WellFormed 1952 3309 logged.call.tx ∧
      Representable logged.call.tx ∧ txLayout tx = txLayout logged.call.tx := by
    have decoded := signed.decoded
    rw [printedTx, decodeFromHex_encodeToHex] at decoded
    obtain ⟨wellFormed, laidOut⟩ := (decode_ok_iff_of_sized sized).mp decoded
    exact ⟨wellFormed, wellFormed.representable_mlDsa65, laidOut⟩
  have sameTx : logged.call.tx = tx :=
    (txLayout_inj made.representable representable sameLayout).symm
  obtain ⟨loadedKey, toAddr, pubkeyLoaded, -, txIs⟩ := made.carries
  rw [session.pubkeyGiven, pubkeyRead] at pubkeyLoaded
  cases pubkeyLoaded
  have privkeyLoaded := signed.loaded
  rw [session.privkeyGiven, privkeyRead] at privkeyLoaded
  cases privkeyLoaded
  have spec := logged.spec
  have sender : logged.signed.fromPubkey = pubkey := by
    rw [spec.body.fromPubkey, sameTx, txIs]
    rfl
  have keyPair : scheme.KeyPair logged.signed.fromPubkey logged.call.pqPrivkey := by
    rw [sender]
    refine generateWithFallback_mlDsa65 enabled smallSized ?_ generated
    rw [← sender, spec.body.fromPubkey]
    exact wellFormed.pubkeySized
  -- the text printed decodes to it, and it is accepted on its chain
  have mode : logged.call.mode = .PqOnly := by
    rw [signed.mode, if_pos session.pqOnly]
  have accepted := logged.asPqOnly_accepted enabled correct keyPair
  have decoded := logged.asPqOnly_decoded enabled correct sized keyPair
    (spec.body.version.trans wellFormed.version)
  rw [asPqOnly_signed mode] at accepted decoded
  obtain ⟨-, -, -, chain, chainRead, chainIs⟩ := parseNumbers_ok_iff.mp made.parsed
  have sameChain : chain.toUInt32 = logged.signed.chainId := by
    rw [chainIs, spec.body.chainId, sameTx, txIs]
    rfl
  rw [main_signTx session.isSignTx, cmdSignTx, signed.prints] at txGiven
  have verifiedText : decodeFromHex host.backend.oqs
      (verifyTx.parser.get (Text.ofString "--tx") []) = .ok logged.signed := by
    rw [← List.singleton_inj.mp txGiven, decodeFromHex_encodeToHex, decoded]
  rw [main_verifyTx isVerifyTx, cmdVerifyTx_of_accepted (by rw [chainGiven]; exact chainRead)
    verifiedText (by rw [sameChain]; exact accepted), sender]
  rfl

/-! ## A session in memory -/

/-- The command line `make-tx` of a transfer under the generated key. -/
def makeTxLine (toHex format : Text) : Command where
  argv := [Text.ofString "pqc-ledger-cli", Text.ofString "make-tx", Text.ofString "--amount",
    Text.ofString "1000", Text.ofString "--fee", Text.ofString "10", Text.ofString "--nonce",
    Text.ofString "1", Text.ofString "--chain", Text.ofString "1", Text.ofString "--pubkey",
    pubkeyPath (Text.ofString "keys"), Text.ofString "--format", format, Text.ofString "--to",
    toHex]
  draws := fun _ => []

/-- It succeeds whatever key the file holds, if its length fits the prefix. -/
theorem makeTxLine_made {host : Host} {disk : host.fs.Disk} {toHex format : Text} {toAddr : Address}
    {pubkey : PublicKey} (toRead : addressFromHex toHex = .ok toAddr)
    (formatKnown : format = Text.ofString "hex" ∨ format = Text.ofString "base64")
    (loaded : host.files disk (pubkeyPath (Text.ofString "keys")) = some pubkey)
    (fits : pubkey.length ≤ maxPrefixed) :
    main host (makeTxLine toHex format) disk =
      (printed (outputText format (txLayout (unsignedTx 1 1 pubkey toAddr 1000 10))), disk) := by
  have args : MakeTxArgs.ofParser (makeTxLine toHex format).parser =
      ⟨toHex, Text.ofString "1000", Text.ofString "10", Text.ofString "1", Text.ofString "1",
        pubkeyPath (Text.ofString "keys"), format⟩ := by
    rcases formatKnown with rfl | rfl <;> rfl
  obtain ⟨toSized, toReadable⟩ := addressFromHex_ok_iff.mp ⟨_, toRead⟩
  have named : pubkeyPath (Text.ofString "keys") ≠ [] := by decide
  have others : OthersPass (host.files disk) (.ofParser (makeTxLine toHex format).parser) := by
    rw [args]
    exact ⟨toSized, toReadable, named, formatKnown, _, loaded, fits⟩
  have parsed : parseNumbers (.ofParser (makeTxLine toHex format).parser) =
      .ok ⟨1000, 10, 1, 1⟩ := by
    rw [args]
    rfl
  rw [args] at others parsed
  rw [main_makeTx ⟨_, _, rfl⟩, cmdMakeTx, args,
    (makeTx_prints others parsed toRead loaded fits).prints]

/-- The command line `sign-tx` of a transaction under the generated key. -/
def signTxLine (txHex : Text) : Command where
  argv := [Text.ofString "pqc-ledger-cli", Text.ofString "sign-tx", Text.ofString "--pq-key",
    privkeyPath (Text.ofString "keys"), Text.ofString "--tx", txHex]
  draws := fun _ => []

/-- The recipient of `zeroKeyTx`. -/
def zeroAddress : Text := List.replicate 64 48

theorem makeTxLine_prints :
    main referenceHost (makeTxLine zeroAddress (Text.ofString "hex")) (keysDisk _) =
      (printed (encodeToHex (txLayout zeroKeyTx)), keysDisk _) := by
  have toRead : addressFromHex zeroAddress = .ok (zeroKey 32) := rfl
  exact makeTxLine_made toRead (.inl rfl) rfl zeroKeyTx_fits

theorem referenceSigned_wellFormed {tx : Transaction} (wellFormed : WellFormed 1952 3309 tx) :
    WellFormed 1952 3309 (referenceSigned tx) :=
  ⟨wellFormed.version, wellFormed.pubkeySized, rfl, .inr (copyInto 3309 _).property⟩

theorem decodeFromHex_txLayout (signed : Bytes → Bool) {tx : Transaction}
    (wellFormed : WellFormed 1952 3309 tx) :
    decodeFromHex (memoryHost signed).backend.oqs (encodeToHex (txLayout tx)) = .ok tx := by
  rw [decodeFromHex_encodeToHex]
  exact decode_txLayout referenceOqs_mlDsa65Sized wellFormed

/-- `sign-tx` under the generated key, once its arguments are looked up. -/
theorem signTxLine_prints (signed : Bytes → Bool) {tx : Transaction}
    (wellFormed : WellFormed 1952 3309 tx)
    (args : SignTxArgs.ofParser (signTxLine (encodeToHex (txLayout tx))).parser =
      ⟨encodeToHex (txLayout tx), privkeyPath (Text.ofString "keys"), []⟩) :
    main (memoryHost signed) (signTxLine (encodeToHex (txLayout tx))) (keysDisk signed) =
      (printed (encodeToHex (txLayout (referenceSigned tx))), keysDisk signed) := by
  have keyGiven : privkeyPath (Text.ofString "keys") ≠ [] := by decide
  have decoded := decodeFromHex_txLayout signed wellFormed
  have loaded : (memoryHost signed).files (keysDisk signed) (privkeyPath (Text.ofString "keys")) =
      some (zeroKey 4032).val := rfl
  have returned : signTransaction (memoryHost signed).backend tx (zeroKey 4032).val
      defaultAlgorithm [] = .ok (.ok (), referenceSigned tx) :=
    signTransaction_reference _ wellFormed.representable_mlDsa65.pubkeyFits
  rw [main_signTx ⟨_, _, rfl⟩, cmdSignTx, args, signTx_of_loaded keyGiven decoded loaded,
    signLoaded, if_pos rfl]
  change (reportSigned (signTransaction (memoryHost signed).backend tx (zeroKey 4032).val
    defaultAlgorithm []), keysDisk signed) = _
  have signedFits := (referenceSigned_wellFormed wellFormed).representable_mlDsa65
  rw [returned, reportSigned_of_returned signedFits]

/-- The pair is generated, and used at once. -/
def keysSession : Session referenceHost (Text.ofString "keys") where
  genKey := genKeyLine
  makeTx := makeTxLine zeroAddress (Text.ofString "hex")
  signTx := signTxLine (encodeToHex (txLayout zeroKeyTx))
  afterGenKey := []
  afterMakeTx := []
  found := fun _ => none
  making := keysDisk _
  signing := keysDisk _
  isGenKey := ⟨_, _, rfl⟩
  intoDir := rfl
  generated := genKeyLine_succeeds _
  toMaking := .nil
  sparedToMaking := List.forall_mem_nil _
  isMakeTx := ⟨_, _, rfl⟩
  pubkeyGiven := rfl
  asHex := rfl
  made := by
    rw [makeTxLine_prints]
    rfl
  toSigning := .nil
  sparedToSigning := List.forall_mem_nil _
  isSignTx := ⟨_, _, rfl⟩
  txGiven := by
    rw [makeTxLine_prints]
    rfl
  privkeyGiven := rfl
  pqOnly := rfl
  signed := by
    rw [signTxLine_prints _ zeroKeyTx_wellFormed rfl]
    rfl

/-- The command line `verify-tx --chain 1` of what the session printed. -/
def verifyTxLine : Command where
  argv := Text.ofString "pqc-ledger-cli" ::
    (verifyTxArgs (encodeToHex (txLayout (referenceSigned zeroKeyTx)))).args
  draws := fun _ => []

theorem session_valid_keys :
    ∃ pubkey, referenceHost.files (keysDisk _) (pubkeyPath (Text.ofString "keys")) = some pubkey ∧
      (main referenceHost verifyTxLine (keysDisk _)).1 =
        ⟨[Text.ofString (fromAddressLine pubkey), Text.ofString "valid: true"], [], 0⟩ := by
  have smallSized : MlDsa44Sized referenceHost.backend.oqs := by
    intro sig opened
    cases opened
  have txGiven : (main referenceHost keysSession.signTx keysSession.signing).1.stdout =
      [verifyTxLine.parser.get (Text.ofString "--tx") []] := by
    change (main (memoryHost _) (signTxLine _) (keysDisk _)).1.stdout = _
    rw [signTxLine_prints _ zeroKeyTx_wellFormed rfl]
    rfl
  exact session_valid keysSession referenceOqs_enabled referenceOqs_mlDsa65Sized smallSized
    referenceSig_correct memoryFs_reliable keys_apart ⟨_, _, rfl⟩ txGiven rfl (keysDisk _)

end PqcLedger.Cli
