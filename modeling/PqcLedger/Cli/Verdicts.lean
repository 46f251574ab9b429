import PqcLedger.Cli.Pipeline

/-!
# What the commands make of each other's output

The exit code of `verify-tx` is its verdict. A transaction it calls valid was
signed by a `sign-tx` of the same run; what `sign-tx` prints under two keys it
never calls valid; and what `make-tx` prints for a key of another size neither of
the two commands takes.
-/

namespace PqcLedger.Cli

open PqcLedger.Cxx PqcLedger.Codec PqcLedger.Crypto PqcLedger.Tx

variable {host : Host} {command signTx verifyTx : Command} {disk : host.fs.Disk}

/-! ## Verdicts -/

/-- The command exits with zero only when it calls a transaction valid. -/
theorem cmdVerifyTx_succeeded {backend : Backend} {parser : ArgParser}
    (succeeded : (cmdVerifyTx backend parser).exitCode = 0) :
    ReportsValid (cmdVerifyTx backend parser) := by
  refine ⟨?_, succeeded⟩
  rcases cmdVerifyTx_cases backend parser with ⟨reason, same⟩ | ⟨-, tx, valid, -, -, -, same⟩
  · rw [same] at succeeded
    cases succeeded
  · rw [same] at succeeded ⊢
    cases valid with
    | true => exact List.mem_cons_of_mem _ List.mem_cons_self
    | false => cases succeeded

/-- The verdict of `verify-tx` is acceptance of the transaction it decodes, on the
chain it parses. -/
theorem verifyTx_succeeded_iff (named : verifyTx.Names "verify-tx") :
    (main host verifyTx disk).1.exitCode = 0 ↔
      ∃ chain tx, stoul (verifyTx.parser.get (Text.ofString "--chain") []) = .ok chain ∧
        decodeFromHex host.backend.oqs (verifyTx.parser.get (Text.ofString "--tx") []) = .ok tx ∧
          verifyTransaction host.backend tx chain.toUInt32 = .ok (.ok true) := by
  rw [main_verifyTx named, ← reportsValid_as_read]
  exact ⟨cmdVerifyTx_succeeded, And.right⟩

/-- Any other run of it exits with one and complains. -/
theorem exitCode_one_of_ne_zero (notZero : (main host command disk).1.exitCode ≠ 0) :
    (main host command disk).1.exitCode = 1 ∧ Complains (main host command disk).1 := by
  rcases main_answered host command disk with ⟨zero, -⟩ | answered
  · exact absurd zero notZero
  · exact answered

/-! ## Who signed it -/

/-- The command is a `sign-tx` that succeeds on the disk, and the logged call is the one
it made, under the private key that its file held. -/
structure Signs (host : Host) (command : Command) (disk : host.fs.Disk)
    (logged : LoggedCall host.backend) : Prop where
  isSignTx : command.Names "sign-tx"
  signed : SignedRun (host.files disk) (.ofParser command.parser) (command.draws 0) logged

/-- The call was made by a `sign-tx` of the run. -/
def SignedIn (host : Host) (start : host.fs.Disk) (commands : List Command)
    (logged : LoggedCall host.backend) : Prop :=
  ∃ command disk, Semantics.TakenIn (Step host) start commands command disk ∧
    Signs host command disk logged

/-- A transaction that `verify-tx` calls valid after a run is for the chain it was
verified on, and a `sign-tx` of the run signed its fields: with a file that held the
private key of its sender, and with the PQ signature that it carries. The scheme is
taken to accept nothing that was not signed in the run, and SHA-256 not to collide. -/
theorem verifyTx_authentic {start : host.fs.Disk} {commands : List Command}
    {log : List (LoggedCall host.backend)}
    (signedInRun : ∀ logged ∈ log, SignedIn host start commands logged)
    (unforgeable : Unforgeable log) (isVerifyTx : verifyTx.Names "verify-tx")
    (collisionFree : ∀ chain tx,
      stoul (verifyTx.parser.get (Text.ofString "--chain") []) = .ok chain →
        decodeFromHex host.backend.oqs (verifyTx.parser.get (Text.ofString "--tx") []) = .ok tx →
          CollisionFree log chain.toUInt32 tx)
    (valid : (main host verifyTx disk).1.exitCode = 0) :
    ∃ tx, decodeFromHex host.backend.oqs (verifyTx.parser.get (Text.ofString "--tx") []) = .ok tx ∧
      ∃ chain, stoul (verifyTx.parser.get (Text.ofString "--chain") []) = .ok chain ∧
        tx.chainId = chain.toUInt32 ∧
          ∃ logged, SignedIn host start commands logged ∧ SignedBy logged tx.chainId tx := by
  obtain ⟨chain, tx, parsed, decoded, accepted⟩ := (verifyTx_succeeded_iff isVerifyTx).mp valid
  obtain ⟨logged, inLog, signedBy⟩ :=
    accepted_was_signed unforgeable (collisionFree chain tx parsed decoded) accepted
  have sameChain : tx.chainId = chain.toUInt32 := by
    rw [← signedBy.body.chainId]
    exact signedBy.chain
  refine ⟨tx, decoded, chain, parsed, sameChain, logged, signedInRun logged inLog, ?_⟩
  rw [sameChain]
  exact signedBy

/-- The one `sign-tx` command of the run. -/
abbrev signTxZeroKey : Command := signTxLine (encodeToHex (txLayout zeroKeyTx))

/-- The log of a run of it. -/
abbrev zeroKeyLog : List (LoggedCall (memoryHost onlyZeroKeyTx).backend) :=
  [zeroKeyCall onlyZeroKeyTx]

theorem signTxZeroKey_signs :
    Signs (memoryHost onlyZeroKeyTx) signTxZeroKey (keysDisk _) (zeroKeyCall onlyZeroKeyTx) where
  isSignTx := ⟨_, _, rfl⟩
  signed :=
    { decoded := decodeFromHex_txLayout onlyZeroKeyTx zeroKeyTx_wellFormed
      loaded := rfl
      drawn := rfl
      mode := rfl
      representable := zeroKeySigned_wellFormed.representable_mlDsa65
      prints := by
        have prints := signTxLine_prints onlyZeroKeyTx zeroKeyTx_wellFormed rfl
        rw [main_signTx ⟨_, _, rfl⟩] at prints
        exact (Prod.mk.inj prints).1 }

theorem verifyTxLine_decoded :
    decodeFromHex (memoryHost onlyZeroKeyTx).backend.oqs
      (verifyTxLine.parser.get (Text.ofString "--tx") []) = .ok (referenceSigned zeroKeyTx) := by
  change decodeFromHex _ (encodeToHex (txLayout (referenceSigned zeroKeyTx))) = _
  rw [decodeFromHex_encodeToHex]
  exact decode_zeroKeySigned

/-- The one `sign-tx` of the run signed the one message that can be verified. -/
theorem verifyTx_authentic_keys :
    ∃ tx, decodeFromHex (memoryHost onlyZeroKeyTx).backend.oqs
        (verifyTxLine.parser.get (Text.ofString "--tx") []) = .ok tx ∧
      ∃ chain, stoul (verifyTxLine.parser.get (Text.ofString "--chain") []) = .ok chain ∧
        tx.chainId = chain.toUInt32 ∧
          ∃ logged, SignedIn (memoryHost onlyZeroKeyTx) (keysDisk _) [signTxZeroKey] logged ∧
            SignedBy logged tx.chainId tx := by
  have signedInRun : ∀ logged ∈ zeroKeyLog,
      SignedIn (memoryHost onlyZeroKeyTx) (keysDisk _) [signTxZeroKey] logged := by
    rintro logged member
    rw [List.mem_singleton.mp member]
    exact ⟨_, _, ⟨[], [], rfl, .nil⟩, signTxZeroKey_signs⟩
  have unforgeable : Unforgeable zeroKeyLog :=
    onlyZeroKeyTx_unforgeable (List.mem_singleton.mpr rfl) rfl rfl rfl
  have parsed : stoul (verifyTxLine.parser.get (Text.ofString "--chain") []) = .ok 1 := rfl
  have decoded := verifyTxLine_decoded
  have valid : (main (memoryHost onlyZeroKeyTx) verifyTxLine (keysDisk _)).1.exitCode = 0 :=
    (verifyTx_succeeded_iff ⟨_, _, rfl⟩).mpr
      ⟨1, _, parsed, decoded, verifyTransaction_zeroKeySigned⟩
  refine verifyTx_authentic signedInRun unforgeable ⟨_, _, rfl⟩ ?_ valid
  intro chain tx chainRead read
  rw [parsed] at chainRead
  rw [decoded] at read
  cases chainRead
  cases read
  exact collisionFree_of_sameBody (zeroKeyCall onlyZeroKeyTx).spec.body.symm rfl

/-! ## Two keys -/

/-- A transaction in hybrid mode whose key has the size of ML-DSA-65 is not accepted
on any chain. -/
theorem verifyTransaction_hybrid_ne_true {backend : Backend} {tx : Transaction}
    {chainId : UInt32} (hybrid : tx.authMode = .Hybrid) (sized : tx.fromPubkey.length = 1952) :
    verifyTransaction backend tx chainId ≠ .ok (.ok true) := by
  intro accepted
  obtain ⟨-, matched, signatures⟩ := verifyTransaction_true_iff.mp accepted
  cases auth : tx.auth with
  | pq signature =>
      rw [auth, hybrid] at matched
      cases matched
  | hybrid signature =>
      rw [auth] at signatures
      have keySize := (ed25519Verify_true_sizes signatures.1).1
      rw [sized] at keySize
      cases keySize

/-- Whatever `sign-tx` prints under an Ed25519 key is refused by `verify-tx`, whatever
the keys, the chain and the disks are. -/
theorem hybrid_signTx_refused (sized : host.backend.oqs.MlDsa65Sized)
    (isSignTx : signTx.Names "sign-tx")
    (twoKeys : signTx.parser.get (Text.ofString "--ed25519-key") [] ≠ [])
    (signed : (main host signTx disk).1.exitCode = 0) (isVerifyTx : verifyTx.Names "verify-tx")
    (txGiven : (main host signTx disk).1.stdout =
      [verifyTx.parser.get (Text.ofString "--tx") []]) (later : host.fs.Disk) :
    (main host verifyTx later).1.exitCode = 1 ∧ Complains (main host verifyTx later).1 := by
  refine exitCode_one_of_ne_zero fun accepted => ?_
  obtain ⟨chain, tx, -, decoded, verified⟩ := (verifyTx_succeeded_iff isVerifyTx).mp accepted
  rw [main_signTx isSignTx] at signed txGiven
  obtain ⟨logged, run⟩ := signTx_succeeded signed
  rw [cmdSignTx, run.prints] at txGiven
  rw [← List.singleton_inj.mp txGiven, decodeFromHex_encodeToHex] at decoded
  obtain ⟨wellFormed, sameLayout⟩ := (decode_ok_iff_of_sized sized).mp decoded
  have same : logged.signed = tx :=
    txLayout_inj run.representable wellFormed.representable_mlDsa65 sameLayout
  have hybrid : tx.authMode = .Hybrid := by
    rw [← same, logged.spec.mode, run.mode]
    exact if_neg twoKeys
  exact verifyTransaction_hybrid_ne_true hybrid wellFormed.pubkeySized verified

/-- The command line `sign-tx` under both keys, the first 32 bytes of the PQ public key
serving as the Ed25519 key. -/
def twoKeysLine : Command where
  argv := [Text.ofString "pqc-ledger-cli", Text.ofString "sign-tx", Text.ofString "--pq-key",
    privkeyPath (Text.ofString "keys"), Text.ofString "--ed25519-key",
    pubkeyPath (Text.ofString "keys"), Text.ofString "--tx", encodeToHex (txLayout zeroKeyTx)]
  draws := fun _ => []

theorem twoKeysLine_prints :
    main referenceHost twoKeysLine (keysDisk _) =
      (printed (encodeToHex (txLayout zeroKeyHybridSignedTx)), keysDisk _) := by
  have keyGiven : privkeyPath (Text.ofString "keys") ≠ [] := by decide
  have second : pubkeyPath (Text.ofString "keys") ≠ [] := by decide
  have loaded : referenceHost.files (keysDisk _) (privkeyPath (Text.ofString "keys")) =
      some (zeroKey 4032).val := rfl
  have secondLoaded : loadEd25519PrivateKey referenceHost.backend.openssl
      (referenceHost.files (keysDisk _)) (pubkeyPath (Text.ofString "keys")) =
        .ok (zeroKey 32).val := rfl
  have signed : signTransactionHybrid referenceHost.backend zeroKeyTx (zeroKey 4032).val
      (zeroKey 32).val defaultAlgorithm [] = .ok (.ok (), zeroKeyHybridSignedTx) :=
    signTransactionHybrid_zeroKeyTx _
  have wellFormed : WellFormed 1952 3309 zeroKeyHybridSignedTx :=
    ⟨rfl, List.length_replicate, rfl, (copyInto 64 _).property, (copyInto 3309 _).property⟩
  have args : SignTxArgs.ofParser twoKeysLine.parser =
      ⟨encodeToHex (txLayout zeroKeyTx), privkeyPath (Text.ofString "keys"),
        pubkeyPath (Text.ofString "keys")⟩ := rfl
  rw [main_signTx ⟨_, _, rfl⟩, cmdSignTx, args,
    signTx_of_loaded keyGiven (decodeFromHex_txLayout _ zeroKeyTx_wellFormed) loaded,
    signLoaded, if_neg second]
  simp only [secondLoaded]
  change (reportSigned (signTransactionHybrid referenceHost.backend zeroKeyTx (zeroKey 4032).val
    (zeroKey 32).val defaultAlgorithm []), keysDisk _) = _
  rw [signed, reportSigned_of_returned wellFormed.representable_mlDsa65]

/-- The command line `verify-tx --chain 1` of what it prints. -/
def twoKeysVerifyLine : Command where
  argv := Text.ofString "pqc-ledger-cli" ::
    (verifyTxArgs (encodeToHex (txLayout zeroKeyHybridSignedTx))).args
  draws := fun _ => []

/-- Signed with both keys, `zeroKeyTx` is printed and then refused. -/
theorem hybrid_signTx_refused_keys :
    (main referenceHost twoKeysLine (keysDisk _)).1 =
        printed (encodeToHex (txLayout zeroKeyHybridSignedTx)) ∧
      twoKeysVerifyLine.parser.get (Text.ofString "--tx") [] =
          encodeToHex (txLayout zeroKeyHybridSignedTx) ∧
        (main referenceHost twoKeysVerifyLine (keysDisk _)).1.exitCode = 1 ∧
          Complains (main referenceHost twoKeysVerifyLine (keysDisk _)).1 := by
  have prints : (main referenceHost twoKeysLine (keysDisk _)).1 =
      printed (encodeToHex (txLayout zeroKeyHybridSignedTx)) := by
    rw [twoKeysLine_prints]
  have signed : (main referenceHost twoKeysLine (keysDisk _)).1.exitCode = 0 := by
    rw [prints]
    rfl
  have twoKeys : twoKeysLine.parser.get (Text.ofString "--ed25519-key") [] ≠ [] := by
    rintro ⟨⟩
  have txGiven : (main referenceHost twoKeysLine (keysDisk _)).1.stdout =
      [twoKeysVerifyLine.parser.get (Text.ofString "--tx") []] := by
    rw [prints]
    rfl
  exact ⟨prints, rfl, hybrid_signTx_refused referenceOqs_mlDsa65Sized ⟨_, _, rfl⟩ twoKeys signed
    ⟨_, _, rfl⟩ txGiven (keysDisk _)⟩

/-! ## Keys of another size -/

/-- What `make-tx` prints in hexadecimal is decoded exactly for a key of 1952 bytes,
and then as the transaction made. -/
theorem MadeRun.decoded_iff {oqs : Oqs} {files : Files} {args : MakeTxArgs}
    {numbers : MakeTxNumbers} {tx : Transaction} (made : MadeRun files args numbers tx)
    (sized : oqs.MlDsa65Sized) (decoded : Transaction) :
    decodeFromHex oqs (encodeToHex (txLayout tx)) = .ok decoded ↔
      tx.fromPubkey.length = 1952 ∧ decoded = tx := by
  rw [decodeFromHex_encodeToHex, decode_ok_iff_of_sized sized]
  constructor
  · rintro ⟨wellFormed, sameLayout⟩
    have same := txLayout_inj made.representable wellFormed.representable_mlDsa65 sameLayout
    exact ⟨same ▸ wellFormed.pubkeySized, same.symm⟩
  · rintro ⟨keySized, rfl⟩
    obtain ⟨pubkey, toAddr, -, -, rfl⟩ := made.carries
    exact ⟨unsignedTx_wellFormed 3309 keySized _ _ _ _ _, rfl⟩

/-- `sign-tx` fails on a text that is not decoded. -/
theorem signTx_undecoded (isSignTx : signTx.Names "sign-tx")
    (undecoded : ∀ tx, decodeFromHex host.backend.oqs
      (signTx.parser.get (Text.ofString "--tx") []) ≠ .ok tx) (disk : host.fs.Disk) :
    (main host signTx disk).1.exitCode = 1 ∧ Complains (main host signTx disk).1 := by
  refine exitCode_one_of_ne_zero fun signed => ?_
  rw [main_signTx isSignTx] at signed
  obtain ⟨logged, run⟩ := signTx_succeeded signed
  exact undecoded _ run.decoded

theorem verifyTx_undecoded (isVerifyTx : verifyTx.Names "verify-tx")
    (undecoded : ∀ tx, decodeFromHex host.backend.oqs
      (verifyTx.parser.get (Text.ofString "--tx") []) ≠ .ok tx) (disk : host.fs.Disk) :
    (main host verifyTx disk).1.exitCode = 1 ∧ Complains (main host verifyTx disk).1 := by
  refine exitCode_one_of_ne_zero fun accepted => ?_
  obtain ⟨chain, tx, -, decoded, -⟩ := (verifyTx_succeeded_iff isVerifyTx).mp accepted
  exact undecoded tx decoded

/-- A command that is given the text fails, on any disk. -/
def Refused (host : Host) (text : Text) : Prop :=
  ∀ command disk, command.Names "sign-tx" ∨ command.Names "verify-tx" →
    command.parser.get (Text.ofString "--tx") [] = text →
      (main host command disk).1.exitCode = 1 ∧ Complains (main host command disk).1

theorem refused_of_undecoded {text : Text}
    (undecoded : ∀ tx, decodeFromHex host.backend.oqs text ≠ .ok tx) : Refused host text := by
  rintro command disk (isSignTx | isVerifyTx) rfl
  · exact signTx_undecoded isSignTx undecoded disk
  · exact verifyTx_undecoded isVerifyTx undecoded disk

/-- `make-tx` succeeds exactly when its arguments pass one by one: in particular with a key
file of any size that fits a length prefix. -/
theorem makeTx_succeeded_iff {makeTx : Command} (isMakeTx : makeTx.Names "make-tx") :
    (main host makeTx disk).1.exitCode = 0 ↔
      OthersPass (host.files disk) (.ofParser makeTx.parser) ∧
        NumbersReadable (.ofParser makeTx.parser) := by
  rw [main_makeTx isMakeTx]
  constructor
  · exact makeTx_exitCode
  · rintro ⟨others, readable⟩
    obtain ⟨numbers, parsed⟩ := parseNumbers_returns_iff.mpr readable
    obtain ⟨-, -, data, -, prints⟩ := makeTx_of_passed others readable parsed
    rw [cmdMakeTx, prints]
    rfl

/-- `make-tx` succeeds exactly when its arguments pass, whatever the size of a key file
that fits a length prefix. What it prints is decoded as the transaction asked for if the
key has 1952 bytes, and otherwise refused by every `sign-tx` and `verify-tx`. -/
theorem makeTx_output_usable {makeTx : Command} (sized : host.backend.oqs.MlDsa65Sized)
    (isMakeTx : makeTx.Names "make-tx")
    (asHex : (MakeTxArgs.ofParser makeTx.parser).format = Text.ofString "hex") :
    ((main host makeTx disk).1.exitCode = 0 ↔
      OthersPass (host.files disk) (.ofParser makeTx.parser) ∧
        NumbersReadable (.ofParser makeTx.parser)) ∧
    ((main host makeTx disk).1.exitCode = 0 →
      ∃ pubkey text,
        host.files disk (MakeTxArgs.ofParser makeTx.parser).pubkeyPath = some pubkey ∧
          (main host makeTx disk).1.stdout = [text] ∧
            (pubkey.length = 1952 → ∃ numbers toAddr,
              parseNumbers (.ofParser makeTx.parser) = .ok numbers ∧
                addressFromHex (MakeTxArgs.ofParser makeTx.parser).toHex = .ok toAddr ∧
                  decodeFromHex host.backend.oqs text = .ok (unsignedTx numbers.chainId
                    numbers.nonce pubkey toAddr numbers.amount numbers.fee)) ∧
            (pubkey.length ≠ 1952 → Refused host text)) := by
  refine ⟨makeTx_succeeded_iff isMakeTx, fun made => ?_⟩
  obtain ⟨numbers, tx, run, prints⟩ := main_makeTx_hex isMakeTx asHex made
  obtain ⟨pubkey, toAddr, loaded, toRead, txIs⟩ := run.carries
  have sender : tx.fromPubkey = pubkey := by
    rw [txIs]
    rfl
  refine ⟨pubkey, _, loaded, prints, fun keySized => ?_, fun wrongSize => ?_⟩
  · refine ⟨numbers, toAddr, run.parsed, toRead, (run.decoded_iff sized _).mpr ⟨?_, txIs.symm⟩⟩
    rw [sender, keySized]
  · refine refused_of_undecoded fun decoded read => wrongSize ?_
    rw [← sender]
    exact ((run.decoded_iff sized decoded).mp read).1

/-- The disk on which a key file of another size lies where `gen-key` puts the public key. -/
def otherKeyDisk (size : Nat) : referenceHost.fs.Disk := fun path =>
  if path = pubkeyPath (Text.ofString "keys") then some (zeroKey size).val else none

/-- The generated key makes a transaction that is decoded; a key of five bytes makes one
that every command refuses. -/
theorem makeTx_output_usable_keys :
    (∃ pubkey text, referenceHost.files (keysDisk _) (pubkeyPath (Text.ofString "keys")) =
        some pubkey ∧
      (main referenceHost (makeTxLine zeroAddress (Text.ofString "hex")) (keysDisk _)).1.stdout =
          [text] ∧
        ∃ numbers toAddr,
          parseNumbers (.ofParser (makeTxLine zeroAddress (Text.ofString "hex")).parser) =
              .ok numbers ∧
            addressFromHex zeroAddress = .ok toAddr ∧
              decodeFromHex referenceHost.backend.oqs text = .ok (unsignedTx numbers.chainId
                numbers.nonce pubkey toAddr numbers.amount numbers.fee)) ∧
    ∃ text, (main referenceHost (makeTxLine zeroAddress (Text.ofString "hex"))
        (otherKeyDisk 5)).1.stdout = [text] ∧ Refused referenceHost text := by
  have sized : referenceHost.backend.oqs.MlDsa65Sized := referenceOqs_mlDsa65Sized
  have toRead : addressFromHex zeroAddress = .ok (zeroKey 32) := rfl
  constructor
  · have made : (main referenceHost (makeTxLine zeroAddress (Text.ofString "hex"))
        (keysDisk _)).1.exitCode = 0 := by
      rw [makeTxLine_prints]
      rfl
    obtain ⟨pubkey, text, loaded, prints, decoded, -⟩ :=
      (makeTx_output_usable sized ⟨_, _, rfl⟩ rfl).2 made
    have generated : referenceHost.files (keysDisk _) (pubkeyPath (Text.ofString "keys")) =
        some (zeroKey 1952).val := rfl
    have keySized : pubkey.length = 1952 := by
      rw [Option.some.inj (loaded.symm.trans generated)]
      exact (zeroKey 1952).property
    exact ⟨pubkey, text, loaded, prints, decoded keySized⟩
  · have loaded : referenceHost.files (otherKeyDisk 5) (pubkeyPath (Text.ofString "keys")) =
        some (zeroKey 5).val := rfl
    have made : (main referenceHost (makeTxLine zeroAddress (Text.ofString "hex"))
        (otherKeyDisk 5)).1.exitCode = 0 := by
      rw [makeTxLine_made toRead (.inl rfl) loaded (by decide)]
      rfl
    obtain ⟨pubkey, text, otherLoaded, prints, -, refused⟩ :=
      (makeTx_output_usable sized ⟨_, _, rfl⟩ rfl).2 made
    refine ⟨text, prints, refused ?_⟩
    rw [Option.some.inj (otherLoaded.symm.trans loaded)]
    decide

/-- A pair that `gen-key` fell back to Dilithium2 for is of no use: the command succeeds
and so does `make-tx`, but what it prints is refused by every `sign-tx` and `verify-tx`. -/
theorem fallback_pair_refused {dir : Text} {genKey makeTx : Command} {commands : List Command}
    {found making : host.fs.Disk} {error : Error} (sized : host.backend.oqs.MlDsa65Sized)
    (smallSized : MlDsa44Sized host.backend.oqs)
    (smallEnabled : (host.backend.oqs.sigNew "ML-DSA-44").isSome)
    (reliable : host.fs.Reliable) (apart : host.fs.Apart (privkeyPath dir) (pubkeyPath dir))
    (isGenKey : genKey.Names "gen-key") (intoDir : genKey.outDir = dir)
    (fellBack : generateKeypair host.backend.oqs "Dilithium3" (genKey.draws 0) = .err error)
    (generated : (main host genKey found).1.exitCode = 0)
    (run : Semantics.Run (Step host) (main host genKey found).2 commands making)
    (spared : ∀ command ∈ commands, SparesKeys host.fs command dir)
    (isMakeTx : makeTx.Names "make-tx")
    (pubkeyGiven : (MakeTxArgs.ofParser makeTx.parser).pubkeyPath = pubkeyPath dir)
    (asHex : (MakeTxArgs.ofParser makeTx.parser).format = Text.ofString "hex")
    (made : (main host makeTx making).1.exitCode = 0) :
    ∃ text, (main host makeTx making).1.stdout = [text] ∧ Refused host text := by
  obtain ⟨pubkey, privkey, pair, pubkeyRead, -⟩ :=
    savedKeys_read isGenKey intoDir generated run spared reliable apart
  obtain ⟨numbers, tx, madeRun, prints⟩ := main_makeTx_hex isMakeTx asHex made
  obtain ⟨loadedKey, toAddr, loaded, -, txIs⟩ := madeRun.carries
  rw [pubkeyGiven, pubkeyRead] at loaded
  cases loaded
  have keySize : pubkey.length = 1312 := by
    rw [generateWithFallback, fellBack] at pair
    obtain ⟨small, enabled⟩ := Option.isSome_iff_exists.mp smallEnabled
    obtain ⟨sig, opened, keyPair⟩ := generateKeypair_scheme getOqsAlgName_dilithium2 pair
    rw [openSig_of_enabled enabled] at opened
    cases opened
    rw [keyPair.pubkey_length, smallSized _ enabled]
  refine ⟨_, prints, refused_of_undecoded fun decoded read => ?_⟩
  have taken := ((madeRun.decoded_iff sized decoded).mp read).1
  rw [txIs] at taken
  cases keySize.symm.trans taken

/-- A liboqs whose ML-DSA-65 fails to generate keys, beside a working ML-DSA-44. -/
def brokenOqs : Oqs where
  sigNew := fun name =>
    if name = "ML-DSA-65" then some { sizedSig 1952 4032 3309 with keypair := fun _ => .error (-1) }
    else if name = "ML-DSA-44" then some (sizedSig 1312 2560 2420) else none

/-- The host linked with it. -/
def brokenHost : Host := ⟨⟨brokenOqs, none⟩, memoryFs⟩

/-- The disk that holds the pair of the fallback. -/
def smallKeysDisk : brokenHost.fs.Disk := (main brokenHost genKeyLine fun _ => none).2

theorem fallback_pair_refused_keys :
    ∃ text, (main brokenHost (makeTxLine zeroAddress (Text.ofString "hex"))
        smallKeysDisk).1.stdout = [text] ∧ Refused brokenHost text := by
  have sized : brokenHost.backend.oqs.MlDsa65Sized := by
    intro sig opened
    cases opened
    exact ⟨rfl, rfl⟩
  have smallSized : MlDsa44Sized brokenHost.backend.oqs := by
    intro sig opened
    cases opened
    rfl
  have loaded : brokenHost.files smallKeysDisk (pubkeyPath (Text.ofString "keys")) =
      some (zeroKey 1312).val := rfl
  have fits : (zeroKey 1312).val.length ≤ maxPrefixed := by
    rw [(zeroKey 1312).property]
    decide
  have toRead : addressFromHex zeroAddress = .ok (zeroKey 32) := rfl
  have made : (main brokenHost (makeTxLine zeroAddress (Text.ofString "hex"))
      smallKeysDisk).1.exitCode = 0 := by
    rw [makeTxLine_made toRead (.inl rfl) loaded fits]
    rfl
  exact fallback_pair_refused sized smallSized rfl memoryFs_reliable keys_apart ⟨_, _, rfl⟩ rfl rfl
    rfl .nil (List.forall_mem_nil _) ⟨_, _, rfl⟩ rfl rfl made

end PqcLedger.Cli
