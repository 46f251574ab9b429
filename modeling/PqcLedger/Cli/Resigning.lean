import PqcLedger.Cli.Pipeline

/-!
# Signing again

`sign-tx` takes what it prints. In a chain of such commands, each given the text of
the one before, every text holds the fields of the first, and the signatures made on
the way leave no trace: the last command prints what it would have printed for the
first text.
-/

namespace PqcLedger.Cli

open PqcLedger.Cxx PqcLedger.Codec PqcLedger.Crypto PqcLedger.Tx

variable {backend : Backend} {left right signed : Transaction}

/-! ## Only the signed fields matter -/

/-- A signature attached to one of two transactions with the same fields makes them one. -/
theorem attach_of_sameBody (same : SameBody left right) (mode : AuthMode) (auth : Auth) :
    { left with authMode := mode, auth := auth } =
      { right with authMode := mode, auth := auth } := by
  obtain ⟨version, chainId, nonce, fromPubkey, toAddr, amount, fee, leftMode, leftAuth⟩ := left
  obtain ⟨rfl, rfl, rfl, rfl, rfl, rfl, rfl⟩ := same
  rfl

theorem signTransaction_of_sameBody (same : SameBody left right) {privkey coins : Bytes}
    {algorithm : String}
    (returned : signTransaction backend left privkey algorithm coins = .ok (.ok (), signed)) :
    signTransaction backend right privkey algorithm coins = .ok (.ok (), signed) := by
  obtain ⟨fits, signature, made, rfl⟩ := signTransaction_ok_iff.mp returned
  rw [same.fromPubkey] at fits
  rw [signingMessage_of_sameBody same, same.chainId] at made
  exact signTransaction_ok_iff.mpr ⟨fits, signature, made, attach_of_sameBody same _ _⟩

theorem signTransactionHybrid_of_sameBody (same : SameBody left right)
    {pqPrivkey ed25519Privkey coins : Bytes} {algorithm : String}
    (returned : signTransactionHybrid backend left pqPrivkey ed25519Privkey algorithm coins =
      .ok (.ok (), signed)) :
    signTransactionHybrid backend right pqPrivkey ed25519Privkey algorithm coins =
      .ok (.ok (), signed) := by
  obtain ⟨fits, classicalSig, pqSig, made, classicalMade, rfl⟩ :=
    signTransactionHybrid_ok_iff.mp returned
  rw [same.fromPubkey] at fits
  rw [signingMessage_of_sameBody same, same.chainId] at made classicalMade
  exact signTransactionHybrid_ok_iff.mpr
    ⟨fits, classicalSig, pqSig, made, classicalMade, attach_of_sameBody same _ _⟩

/-- A report that succeeds is that of any call that returns the same transaction. -/
theorem reportSigned_congr {first second : Throws (Result Unit × Transaction)}
    (same : ∀ signed, first = .ok (.ok (), signed) → second = .ok (.ok (), signed))
    (succeeded : (reportSigned first).exitCode = 0) : reportSigned second = reportSigned first := by
  rcases first with thrown | ⟨⟨⟨⟩⟩ | error, signed⟩
  · cases succeeded
  · rw [same signed rfl]
  · cases succeeded

/-- The same signature is printed for any text that holds the same fields. -/
theorem signTx_of_sameBody {files : Files} {args : SignTxArgs} {coins : Bytes} {text : Text}
    (same : SameBody left right) (decoded : decodeFromHex backend.oqs args.txHex = .ok left)
    (textDecoded : decodeFromHex backend.oqs text = .ok right)
    (succeeded : (signTx backend files args coins).exitCode = 0) :
    signTx backend files { args with txHex := text } coins = signTx backend files args coins := by
  rcases signTx_cases backend files args coins with
    ⟨report, stopped⟩ | ⟨tx, pqPrivkey, keyGiven, read, loaded, signs⟩
  · rw [stopped] at succeeded
    cases succeeded
  · cases decoded.symm.trans read
    rw [signs, signLoaded] at succeeded
    rw [signs, signTx_of_loaded keyGiven textDecoded loaded, signLoaded, signLoaded]
    by_cases pqOnly : args.ed25519KeyPath = []
    · rw [if_pos pqOnly] at succeeded
      rw [if_pos pqOnly, if_pos pqOnly]
      exact reportSigned_congr (fun _ => signTransaction_of_sameBody same) succeeded
    · rw [if_neg pqOnly] at succeeded
      rw [if_neg pqOnly, if_neg pqOnly]
      cases second : loadEd25519PrivateKey backend.openssl files args.ed25519KeyPath with
      | err error => rfl
      | ok ed25519Privkey =>
          rw [second] at succeeded
          exact reportSigned_congr (fun _ => signTransactionHybrid_of_sameBody same) succeeded

/-! ## Chains -/

/-- A `sign-tx` on the disk is given the one text and prints the other. -/
structure Signing (host : Host) (text : Text) (link : Command × host.fs.Disk) (next : Text) :
    Prop where
  isSignTx : link.1.Names "sign-tx"
  txGiven : (SignTxArgs.ofParser link.1.parser).txHex = text
  prints : (main host link.1 link.2).1 = printed next

variable {host : Host}

/-- The text is the encoding, in hexadecimal, of a transaction with the fields of this
one: all but the mode and the signatures. -/
structure HoldsFields (text : Text) (tx : Transaction) : Prop where
  held : ∃ other, Codec.hexToBytes text = .ok (txLayout other) ∧ Representable other ∧
    SameBody other tx

/-- A text holds the fields of the transaction it is decoded as. -/
theorem holdsFields_of_decoded {oqs : Oqs} {text : Text} {tx : Transaction}
    (decoded : decodeFromHex oqs text = .ok tx) : HoldsFields text tx := by
  obtain ⟨read, accepted⟩ := hexToBytes_of_accepted decoded
  exact ⟨tx, read, (decode_ok_iff.mp accepted).2.1, SameBody.refl tx⟩

/-- Whatever it is decoded as has these fields. -/
theorem HoldsFields.sameBody {oqs : Oqs} {text : Text} {tx decoded : Transaction}
    (fields : HoldsFields text tx) (read : decodeFromHex oqs text = .ok decoded) :
    SameBody decoded tx := by
  obtain ⟨other, bytesRead, representable, same⟩ := fields.held
  obtain ⟨decodedRead, accepted⟩ := hexToBytes_of_accepted read
  have sameLayout : txLayout other = txLayout decoded :=
    Except.ok.inj (bytesRead.symm.trans decodedRead)
  rwa [← txLayout_inj representable (decode_ok_iff.mp accepted).2.1 sameLayout]

/-- What is printed holds the fields of what was given, which is decoded. -/
theorem Signing.holdsFields {text next : Text} {link : Command × host.fs.Disk}
    (signing : Signing host text link next) :
    ∃ given, decodeFromHex host.backend.oqs text = .ok given ∧ HoldsFields next given := by
  have prints := signing.prints
  rw [main_signTx signing.isSignTx] at prints
  change cmdSignTx _ _ _ _ = _ at prints
  have succeeded : (cmdSignTx host.backend (host.files link.2) link.1.parser
      (link.1.draws 0)).exitCode = 0 := by
    rw [prints]
    rfl
  obtain ⟨logged, run⟩ := signTx_succeeded succeeded
  have nextIs : next = encodeToHex (txLayout logged.signed) := by
    rw [cmdSignTx, run.prints] at prints
    exact (List.singleton_inj.mp (congrArg MakeTxRun.stdout prints)).symm
  refine ⟨logged.call.tx, ?_, logged.signed, ?_, run.representable, logged.spec.body⟩
  · rw [← signing.txGiven]
    exact run.decoded
  · rw [nextIs, hexToBytes_encodeToHex]

/-- Along a chain every text holds the fields of the first. -/
theorem signings_keep_body {start : Text} {tx : Transaction}
    (decoded : decodeFromHex host.backend.oqs start = .ok tx) :
    Semantics.Invariant (Signing host) start fun text => HoldsFields text tx := by
  refine ⟨holdsFields_of_decoded decoded, ?_⟩
  intro text link next holds signing
  obtain ⟨given, givenRead, fields⟩ := signing.holdsFields
  obtain ⟨other, read, representable, same⟩ := fields.held
  exact ⟨other, read, representable, same.trans (holds.sameBody givenRead)⟩

/-- However often a transaction is signed, with whatever keys and in whatever modes, every
text on the way holds its fields, and the last `sign-tx` prints what it would print if
it were given the first text. -/
theorem last_signature_wins {start : Text} {tx : Transaction}
    (decoded : decodeFromHex host.backend.oqs start = .ok tx) :
    (∀ chain text, Semantics.Run (Signing host) start chain text → HoldsFields text tx) ∧
    ∀ earlier last final, Semantics.Run (Signing host) start (earlier ++ [last]) final →
      signTx host.backend (host.files last.2)
          { SignTxArgs.ofParser last.1.parser with txHex := start } (last.1.draws 0) =
        printed final := by
  refine ⟨fun chain text run => (signings_keep_body decoded).of_run run, ?_⟩
  intro earlier last final run
  obtain ⟨text, before, signing⟩ := run.last
  obtain ⟨given, givenRead, -⟩ := signing.holdsFields
  have same := ((signings_keep_body decoded).of_run before).sameBody givenRead
  have prints := signing.prints
  rw [main_signTx signing.isSignTx] at prints
  change signTx _ _ _ _ = _ at prints
  rw [← signing.txGiven] at givenRead
  rw [← prints]
  refine signTx_of_sameBody same givenRead decoded ?_
  rw [prints]
  rfl

/-- The command line `sign-tx` of a transaction on the disk that holds the generated pair. -/
def signKeys (tx : Transaction) : Command × referenceHost.fs.Disk :=
  (signTxLine (encodeToHex (txLayout tx)), keysDisk _)

/-- Signed twice, the transaction is signed once, and its fields are those it had. -/
theorem last_signature_wins_keys :
    HoldsFields (encodeToHex (txLayout (referenceSigned (referenceSigned zeroKeyTx)))) zeroKeyTx ∧
      signTx referenceHost.backend (referenceHost.files (keysDisk _))
          { SignTxArgs.ofParser (signKeys (referenceSigned zeroKeyTx)).1.parser with
            txHex := encodeToHex (txLayout zeroKeyTx) } [] =
        printed (encodeToHex (txLayout (referenceSigned (referenceSigned zeroKeyTx)))) := by
  have wellFormed := referenceSigned_wellFormed zeroKeyTx_wellFormed
  have first : Signing referenceHost (encodeToHex (txLayout zeroKeyTx)) (signKeys zeroKeyTx)
      (encodeToHex (txLayout (referenceSigned zeroKeyTx))) :=
    ⟨⟨_, _, rfl⟩, rfl, congrArg Prod.fst (signTxLine_prints _ zeroKeyTx_wellFormed rfl)⟩
  have second : Signing referenceHost (encodeToHex (txLayout (referenceSigned zeroKeyTx)))
      (signKeys (referenceSigned zeroKeyTx))
      (encodeToHex (txLayout (referenceSigned (referenceSigned zeroKeyTx)))) :=
    ⟨⟨_, _, rfl⟩, rfl, congrArg Prod.fst (signTxLine_prints _ wellFormed rfl)⟩
  have run : Semantics.Run (Signing referenceHost) (encodeToHex (txLayout zeroKeyTx))
      ([signKeys zeroKeyTx] ++ [signKeys (referenceSigned zeroKeyTx)])
      (encodeToHex (txLayout (referenceSigned (referenceSigned zeroKeyTx)))) :=
    .snoc (.snoc .nil first) second
  have decoded : decodeFromHex referenceHost.backend.oqs (encodeToHex (txLayout zeroKeyTx)) =
      .ok zeroKeyTx := decodeFromHex_txLayout _ zeroKeyTx_wellFormed
  obtain ⟨keepsFields, wins⟩ := last_signature_wins decoded
  have sameText := wins [signKeys zeroKeyTx] (signKeys (referenceSigned zeroKeyTx)) _ run
  exact ⟨keepsFields _ _ run, sameText⟩

end PqcLedger.Cli
