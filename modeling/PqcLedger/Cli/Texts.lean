import PqcLedger.Cli.Verdicts
import PqcLedger.Codec.HexGrammar
import PqcLedger.Crypto.Sha256

/-!
# The texts that the commands print and take

The hexadecimal reader of `cli/main.cpp`, beside the one of the decoder that the
commands call instead; what `make-tx` prints in base64, which no other command
takes; and the address that `verify-tx` prints of a sender, which `make-tx` takes
as a recipient.
-/

namespace PqcLedger.Cli

open PqcLedger.Cxx PqcLedger.Codec PqcLedger.Crypto PqcLedger.Tx

/-! ## The hexadecimal reader of the command line -/

/-- The loop of `hex_to_bytes` of `cli/main.cpp`, on a string of even length: the slice
of two characters is checked one by one, then converted in base sixteen. -/
def hexLoop : Text → Throws Bytes
  | first :: second :: rest =>
      match [first, second].find? fun c => !isxdigit c with
      | some c => .error (.runtimeError ("Invalid hex character: " ++ Text.message [c]))
      | none =>
          match stoulHex [first, second] with
          | .error _ => .error (.runtimeError ("Invalid hex byte: " ++
              Text.message [first, second]))
          | .ok value => do
              let tail ← hexLoop rest
              pure (value.toUInt8 :: tail)
  | _ => pure []

/-- `hex_to_bytes` of `cli/main.cpp`. -/
def hexToBytes (hex : Text) : Throws Bytes :=
  let cleanHex := removeWhitespace hex
  if cleanHex.length % 2 ≠ 0 then .error (.runtimeError "Hex string must have even length")
  else hexLoop cleanHex

/-- A slice with another character is refused for the first one, as in the decoder. -/
theorem hexLoop_refused {first second c : UInt8}
    (refused : ([first, second].find? fun c => !isxdigit c) = some c) (rest : Text) :
    hexLoop (first :: second :: rest) = .error (invalidHexCharacter c) ∧
      Codec.hexLoop (first :: second :: rest) = .error (invalidHexCharacter c) := by
  refine ⟨by rw [hexLoop, refused]; rfl, ?_⟩
  by_cases firstDigit : isxdigit first = true
  · have quoted : isxdigit second = false ∧ second = c := by
      simpa [firstDigit] using refused
    rw [Codec.hexLoop, hexCharToValue_digit first firstDigit, Throws.bind_ok,
      hexCharToValue_other quoted.1, Throws.bind_error, quoted.2]
  · have firstOther : isxdigit first = false := Bool.eq_false_of_not_eq_true firstDigit
    have quoted : first = c := by simpa [firstOther] using refused
    rw [Codec.hexLoop, hexCharToValue_other firstOther, Throws.bind_error, quoted]

theorem hexLoop_eq_codec (text : Text) : hexLoop text = Codec.hexLoop text := by
  induction text using Codec.hexLoop.induct with
  | case1 first second rest ih =>
      cases checked : [first, second].find? fun c => !isxdigit c with
      | some c =>
          obtain ⟨own, codec⟩ := hexLoop_refused checked rest
          rw [own, codec]
      | none =>
          have digits : isxdigit first = true ∧ isxdigit second = true := by
            simpa using checked
          have cast : (UInt64.ofNat (xdigitValue first * 16 + xdigitValue second)).toUInt8 =
              UInt8.ofNat (xdigitValue first * 16 + xdigitValue second) := by
            simp
          rw [Codec.hexLoop_pair digits.1 digits.2, hexLoop, checked,
            stoulHex_digits digits.1 digits.2, ih, ← cast]
          rfl
  | case2 text noPair =>
      have own : hexLoop text = .ok [] := by
        unfold hexLoop
        split
        · exact absurd rfl (noPair _ _ _)
        · rfl
      rw [own, hexLoop_short (Text.length_of_noPair noPair)]

/-- The command line's reader and the decoder's take the same texts, read the same
bytes, and refuse any other text in the same words. -/
theorem hexToBytes_eq_codec (hex : Text) : hexToBytes hex = Codec.hexToBytes hex := by
  rw [hexToBytes, Codec.hexToBytes, hexLoop_eq_codec]

/-! ## Base64 -/

/-- A text that starts with the letter A holds no transaction in hexadecimal: one
starts with the digits of the version. -/
theorem decodeFromHex_letterA {oqs : Oqs} (rest : Text) (tx : Transaction) :
    decodeFromHex oqs (65 :: rest) ≠ .ok tx := by
  intro decoded
  rw [decodeFromHex] at decoded
  cases read : Codec.hexToBytes (65 :: rest) with
  | error thrown =>
      rw [read] at decoded
      cases decoded
  | ok data =>
      rw [read] at decoded
      obtain ⟨wellFormed, -, rfl⟩ := decode_ok_iff.mp decoded
      have written := encodeToHex_of_hexToBytes read
      have clean : removeWhitespace (65 :: rest) = 65 :: removeWhitespace rest := rfl
      rw [clean, txLayout, bodyLayout, wellFormed.version, List.cons_append, encodeToHex_cons]
        at written
      cases (List.cons.inj written).1

/-- The base64 text of bytes that start with a one starts with that letter. -/
theorem encodeToBase64_letterA (rest : Bytes) :
    ∃ text, encodeToBase64 (1 :: rest) = 65 :: text := by
  have first : ∀ b1 b2, charOf (sextet 1 b1 b2 3) = 65 := by
    intro b1 b2
    have zero : sextet 1 b1 b2 3 = 0 := by
      have second := b1.toNat_lt
      have third := b2.toNat_lt
      change ((1 * 256 + b1.toNat) * 256 + b2.toNat) / 64 ^ 3 % 64 = 0
      omega
    rw [zero]
    decide
  match rest with
  | [] => exact ⟨_, by rw [encodeToBase64_one, first]⟩
  | [b1] => exact ⟨_, by rw [encodeToBase64_two, first]⟩
  | b1 :: b2 :: more => exact ⟨_, by rw [encodeToBase64_group, first]⟩

theorem txLayout_version {tx : Transaction} (version : tx.version = 1) :
    ∃ rest, txLayout tx = 1 :: rest := by
  rw [txLayout, bodyLayout, version]
  exact ⟨_, rfl⟩

variable {host : Host} {makeTx verifyTx : Command} {disk : host.fs.Disk}

/-- What `make-tx` prints in base64 is a text that the library decodes, for a key of the
right size, but that every `sign-tx` and `verify-tx` refuses. -/
theorem base64_output_refused (isMakeTx : makeTx.Names "make-tx")
    (asBase64 : (MakeTxArgs.ofParser makeTx.parser).format = Text.ofString "base64")
    (made : (main host makeTx disk).1.exitCode = 0) :
    ∃ numbers tx, MadeRun (host.files disk) (.ofParser makeTx.parser) numbers tx ∧
      (main host makeTx disk).1.stdout = [encodeToBase64 (txLayout tx)] ∧
        Refused host (encodeToBase64 (txLayout tx)) ∧
          (host.backend.oqs.MlDsa65Sized → tx.fromPubkey.length = 1952 →
            decodeFromBase64 host.backend.oqs (encodeToBase64 (txLayout tx)) = .ok tx) := by
  rw [main_makeTx isMakeTx] at made ⊢
  obtain ⟨numbers, tx, run⟩ := makeTx_succeeded made
  have prints := run.prints
  rw [outputText, if_pos asBase64] at prints
  refine ⟨numbers, tx, run, by rw [cmdMakeTx, prints]; rfl, ?_, fun sized keySized => ?_⟩
  · obtain ⟨pubkey, toAddr, -, -, txIs⟩ := run.carries
    have version : tx.version = 1 := by
      rw [txIs]
      rfl
    obtain ⟨rest, laidOut⟩ := txLayout_version version
    obtain ⟨text, starts⟩ := encodeToBase64_letterA rest
    rw [laidOut, starts]
    exact refused_of_undecoded (decodeFromHex_letterA text)
  · obtain ⟨pubkey, toAddr, -, -, rfl⟩ := run.carries
    have isString := encodeToBase64_isString (txLayout_short run.representable)
    rw [decodeFromBase64_encodeToBase64 _ isString]
    exact decode_txLayout sized (unsignedTx_wellFormed 3309 keySized _ _ _ _ _)

theorem base64_output_refused_keys :
    ∃ numbers tx, MadeRun (referenceHost.files (keysDisk _))
        (.ofParser (makeTxLine zeroAddress (Text.ofString "base64")).parser) numbers tx ∧
      Refused referenceHost (encodeToBase64 (txLayout tx)) := by
  have toRead : addressFromHex zeroAddress = .ok (zeroKey 32) := rfl
  have made : (main referenceHost (makeTxLine zeroAddress (Text.ofString "base64"))
      (keysDisk _)).1.exitCode = 0 := by
    rw [makeTxLine_made toRead (.inr rfl) rfl zeroKeyTx_fits]
    rfl
  obtain ⟨numbers, tx, run, -, refused, -⟩ := base64_output_refused ⟨_, _, rfl⟩ rfl made
  exact ⟨numbers, tx, run, refused⟩

/-! ## Addresses -/

theorem toUInt8_ofNat : ∀ c : UInt8, (Char.ofNat c.toNat).toUInt8 = c :=
  byte_forall (by decide +kernel)

/-- A text embedded in a message is read off it again. -/
theorem ofString_message (text : Text) : Text.ofString text.message = text := by
  rw [Text.ofString, Text.message, String.toList_ofList, List.map_map]
  exact List.map_id'' toUInt8_ofNat text

theorem ofString_append (front back : String) :
    Text.ofString (front ++ back) = Text.ofString front ++ Text.ofString back := by
  rw [Text.ofString, String.toList_append, List.map_append]
  rfl

/-- What is printed of a sender is the address of its key. -/
theorem fromAddressLine_eq (pubkey : PublicKey) :
    ∃ addr : Address, addr.val = Hashing.Sha256.hash pubkey ∧
      Text.ofString (fromAddressLine pubkey) =
        Text.ofString "from_address: " ++ addressToHex addr := by
  obtain ⟨addr, derived, digest⟩ := deriveAddress_ok pubkey
  refine ⟨addr, digest.trans (Picosha2.hash256_eq pubkey), ?_⟩
  rw [fromAddressLine, derived, ofString_append, ofString_message]

/-- An address is read back from its digits. -/
theorem addressFromHex_addressToHex (addr : Address) :
    addressFromHex (addressToHex addr) = .ok addr := by
  have read := hexToBytes_encodeToHex addr.val
  have clean := removeWhitespace_of_none (encodeToHex_not_isspace addr.val)
  have hex : HexText (removeWhitespace (encodeToHex addr.val)) := hexToBytes_ok_iff.mp ⟨_, read⟩
  rw [clean] at hex
  have plain : PlainHex (addressToHex addr) := by
    refine ⟨?_, hex.digits⟩
    rw [addressToHex, encodeToHex_length, addr.property]
  have lower := encodeToHex_of_hexToBytes read
  rw [clean] at lower
  obtain ⟨other, otherRead, written⟩ := addressFromHex_of_plain plain
  have same : encodeToHex other.val = encodeToHex addr.val := written.trans lower.symm
  have otherBytes := hexToBytes_encodeToHex other.val
  rw [same, read] at otherBytes
  rw [otherRead, Subtype.ext (Except.ok.inj otherBytes)]

/-- A line that starts otherwise names no address. -/
theorem line_ne_fromAddress {line : Text} (other : line.head? ≠ some 102) (hex : Text) :
    Text.ofString "from_address: " ++ hex ≠ line := by
  rintro rfl
  exact other rfl

/-- A line that names a sender's address names that of the transaction decoded. -/
theorem cmdVerifyTx_fromAddress {backend : Backend} {parser : ArgParser} {hex : Text}
    (named : Text.ofString "from_address: " ++ hex ∈ (cmdVerifyTx backend parser).streams.stdout) :
    ∃ tx, decodeFromHex backend.oqs (parser.get (Text.ofString "--tx") []) = .ok tx ∧
      Text.ofString "from_address: " ++ hex = Text.ofString (fromAddressLine tx.fromPubkey) := by
  have lines : ∀ {line : Text} {rest : List Text}, line.head? ≠ some 102 →
      Text.ofString "from_address: " ++ hex ∈ line :: rest →
        Text.ofString "from_address: " ++ hex ∈ rest := by
    intro line rest other member
    exact (List.mem_cons.mp member).resolve_left (line_ne_fromAddress other hex)
  rcases cmdVerifyTx_cases backend parser with
    ⟨reason, same⟩ | ⟨-, tx, valid, -, decoded, -, same⟩
  · rw [same] at named
    have errorLine : (Text.ofString ("error: " ++ reason)).head? ≠ some 102 := by
      rw [ofString_append]
      rintro ⟨⟩
    exact absurd (lines errorLine (lines (by decide) named)) List.not_mem_nil
  · refine ⟨tx, decoded, ?_⟩
    rw [same] at named
    cases valid with
    | true =>
        refine (List.mem_cons.mp named).resolve_right fun later => ?_
        exact absurd (lines (by decide) later) List.not_mem_nil
    | false =>
        refine (List.mem_cons.mp named).resolve_right fun later => ?_
        exact absurd (lines (by decide) (lines (by decide) later)) List.not_mem_nil

/-- The address that `verify-tx` prints of a sender, whether it calls the transaction valid
or not, is what `make-tx` takes for a recipient: what is made with it pays to the SHA-256
of the sender's key. -/
theorem reply_reaches_sender {hex : Text} {found : host.fs.Disk}
    (isVerifyTx : verifyTx.Names "verify-tx")
    (named : Text.ofString "from_address: " ++ hex ∈ (main host verifyTx found).1.stdout)
    (isMakeTx : makeTx.Names "make-tx")
    (toGiven : (MakeTxArgs.ofParser makeTx.parser).toHex = hex)
    (made : (main host makeTx disk).1.exitCode = 0) :
    ∃ tx numbers reply,
      decodeFromHex host.backend.oqs (verifyTx.parser.get (Text.ofString "--tx") []) = .ok tx ∧
        MadeRun (host.files disk) (.ofParser makeTx.parser) numbers reply ∧
          reply.toAddr.val = Hashing.Sha256.hash tx.fromPubkey := by
  rw [main_verifyTx isVerifyTx] at named
  rw [main_makeTx isMakeTx] at made
  obtain ⟨tx, decoded, line⟩ := cmdVerifyTx_fromAddress named
  obtain ⟨addr, digest, printedAddr⟩ := fromAddressLine_eq tx.fromPubkey
  obtain ⟨numbers, reply, run⟩ := makeTx_succeeded made
  refine ⟨tx, numbers, reply, decoded, run, ?_⟩
  obtain ⟨pubkey, toAddr, -, toRead, rfl⟩ := run.carries
  rw [printedAddr] at line
  rw [toGiven, List.append_cancel_left line, addressFromHex_addressToHex] at toRead
  rw [← digest, Result.ok.inj toRead]
  rfl

/-- A reply to the one sender. -/
theorem reply_reaches_sender_keys :
    ∃ addr : Address, ∃ tx numbers reply,
      decodeFromHex (memoryHost onlyZeroKeyTx).backend.oqs
          (verifyTxLine.parser.get (Text.ofString "--tx") []) = .ok tx ∧
        MadeRun ((memoryHost onlyZeroKeyTx).files (keysDisk _))
            (.ofParser (makeTxLine (addressToHex addr) (Text.ofString "hex")).parser)
            numbers reply ∧
          reply.toAddr.val = Hashing.Sha256.hash tx.fromPubkey := by
  obtain ⟨addr, -, printedAddr⟩ := fromAddressLine_eq (referenceSigned zeroKeyTx).fromPubkey
  have named : Text.ofString "from_address: " ++ addressToHex addr ∈
      (main (memoryHost onlyZeroKeyTx) verifyTxLine (keysDisk _)).1.stdout := by
    have parsed : stoul (verifyTxLine.parser.get (Text.ofString "--chain") []) = .ok 1 := rfl
    rw [main_verifyTx ⟨_, _, rfl⟩,
      cmdVerifyTx_of_accepted parsed verifyTxLine_decoded verifyTransaction_zeroKeySigned,
      ← printedAddr]
    exact List.mem_cons_self
  have made : (main (memoryHost onlyZeroKeyTx)
      (makeTxLine (addressToHex addr) (Text.ofString "hex")) (keysDisk _)).1.exitCode = 0 := by
    rw [makeTxLine_made (addressFromHex_addressToHex addr) (.inl rfl) rfl zeroKeyTx_fits]
    rfl
  exact ⟨addr, reply_reaches_sender ⟨_, _, rfl⟩ named ⟨_, _, rfl⟩ rfl made⟩

end PqcLedger.Cli
