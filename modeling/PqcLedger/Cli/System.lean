import PqcLedger.Cli.Commands

/-!
# Runs of the program

Commands follow each other on one disk. Only `gen-key` writes, and only the two
key files of its directory, so everything else on the disk is kept by any run. It
reports files that do not open and nothing else; where writes are read back, a
directory keeps a matching pair of keys as long as no `gen-key` fails between its
two files.
-/

namespace PqcLedger.Cli

open PqcLedger.Cxx PqcLedger.Codec PqcLedger.Crypto PqcLedger.Tx

variable {host : Host} {disk after : host.fs.Disk} {command : Command} {path : Text}

/-- One command, as a step on the disk. -/
def Step (host : Host) (disk : host.fs.Disk) (command : Command) (after : host.fs.Disk) : Prop :=
  ∃ run, main host command disk = (run, after)

/-- The first argument names the command. -/
def Command.Names (command : Command) (name : String) : Prop :=
  ∃ program rest, command.argv = program :: Text.ofString name :: rest

/-- The directory that a command line asks to fill with keys. -/
def Command.outDir (command : Command) : Text := command.parser.get (Text.ofString "--out") []

/-- The files that the command can write. -/
def Command.Writes (command : Command) (path : Text) : Prop :=
  command.Names "gen-key" ∧
    (path = pubkeyPath command.outDir ∨ path = privkeyPath command.outDir)

/-- The command writes no file that the path reads. -/
def Spares (fs : FileSystem) (command : Command) (path : Text) : Prop :=
  ∀ written, command.Writes written → fs.Apart written path

/-! ## Dispatch -/

theorem main_makeTx (named : command.Names "make-tx") :
    main host command disk = (cmdMakeTx (host.files disk) command.parser, disk) := by
  obtain ⟨program, rest, line⟩ := named
  simp only [main, line]
  rw [if_neg (by decide), if_pos trivial]

theorem main_signTx (named : command.Names "sign-tx") :
    main host command disk =
      (cmdSignTx host.backend (host.files disk) command.parser (command.draws 0), disk) := by
  obtain ⟨program, rest, line⟩ := named
  simp only [main, line]
  rw [if_neg (by decide), if_neg (by decide), if_pos trivial]

theorem main_verifyTx (named : command.Names "verify-tx") :
    main host command disk = ((cmdVerifyTx host.backend command.parser).streams, disk) := by
  obtain ⟨program, rest, line⟩ := named
  simp only [main, line]
  rw [if_neg (by decide), if_neg (by decide), if_neg (by decide), if_pos trivial]

/-! ## What a command does to the disk -/

/-- A key pair was generated and both of its files were opened for writing. What they then
hold is up to the file system. -/
structure KeysSaved (host : Host) (command : Command) (disk after : host.fs.Disk) : Prop where
  saved : ∃ pubkey privkey middle,
    generateWithFallback host.backend.oqs command.draws = .ok (pubkey, privkey) ∧
      host.fs.write disk (pubkeyPath command.outDir) pubkey = some middle ∧
        host.fs.write middle (privkeyPath command.outDir) privkey = some after

/-- A key pair was generated and only the file of its public key was opened. -/
structure HalfSaved (host : Host) (command : Command) (disk after : host.fs.Disk) : Prop where
  saved : ∃ pubkey privkey,
    generateWithFallback host.backend.oqs command.draws = .ok (pubkey, privkey) ∧
      host.fs.write disk (pubkeyPath command.outDir) pubkey = some after ∧
        host.fs.write after (privkeyPath command.outDir) privkey = none

/-- `gen-key` leaves the disk alone and fails, or opens one file and fails, or opens
both and succeeds. -/
theorem cmdGenKey_cases {run : MakeTxRun}
    (ran : cmdGenKey host command.parser command.draws disk = (run, after)) :
    (after = disk ∧ run.exitCode = 1) ∨ (HalfSaved host command disk after ∧ run.exitCode = 1) ∨
      KeysSaved host command disk after ∧ run.exitCode = 0 := by
  have dirIs : command.parser.get (Text.ofString "--out") [] = command.outDir := rfl
  simp only [cmdGenKey, savePublicKey, savePrivateKey, saveKey, dirIs] at ran
  split at ran
  case isTrue missing =>
      cases ran
      exact .inl ⟨rfl, rfl⟩
  case isFalse given =>
      split at ran
      case isTrue unsupported =>
          cases ran
          exact .inl ⟨rfl, rfl⟩
      case isFalse supported =>
          cases generated : generateWithFallback host.backend.oqs command.draws with
          | err error =>
              rw [generated] at ran
              cases ran
              exact .inl ⟨rfl, rfl⟩
          | ok pair =>
              obtain ⟨pubkey, privkey⟩ := pair
              rw [generated] at ran
              cases first : host.fs.write disk (pubkeyPath command.outDir) pubkey with
              | none =>
                  simp only [first] at ran
                  cases ran
                  exact .inl ⟨rfl, rfl⟩
              | some middle =>
                  cases second : host.fs.write middle (privkeyPath command.outDir) privkey with
                  | none =>
                      simp only [first, second] at ran
                      cases ran
                      exact .inr (.inl ⟨⟨pubkey, privkey, generated, first, second⟩, rfl⟩)
                  | some last =>
                      simp only [first, second] at ran
                      cases ran
                      exact .inr (.inr ⟨⟨pubkey, privkey, middle, generated, first, second⟩, rfl⟩)

/-- A command leaves the disk alone, which `gen-key` does only when it fails, or is a
`gen-key` that opens one file and fails, or both and succeeds. -/
theorem main_cases {run : MakeTxRun} (ran : main host command disk = (run, after)) :
    after = disk ∧ (command.Names "gen-key" → run.exitCode = 1) ∨
      command.Names "gen-key" ∧
        (HalfSaved host command disk after ∧ run.exitCode = 1 ∨
          KeysSaved host command disk after ∧ run.exitCode = 0) := by
  unfold main at ran
  split at ran
  case h_1 program name rest line =>
      split at ran
      case isTrue isGenKey =>
          subst isGenKey
          rcases cmdGenKey_cases ran with ⟨unchanged, failed⟩ | half | both
          · exact .inl ⟨unchanged, fun _ => failed⟩
          · exact .inr ⟨⟨program, rest, line⟩, .inl half⟩
          · exact .inr ⟨⟨program, rest, line⟩, .inr both⟩
      case isFalse notGenKey =>
          have otherName : ¬ command.Names "gen-key" := by
            rintro ⟨otherProgram, others, otherLine⟩
            rw [line] at otherLine
            cases otherLine
            exact notGenKey rfl
          refine .inl ⟨?_, fun named => absurd named otherName⟩
          repeat' split at ran
          all_goals
            cases ran
            rfl
  case h_2 noName =>
      refine .inl ⟨?_, ?_⟩
      · cases ran
        rfl
      · rintro ⟨program, rest, line⟩
        exact absurd line (noName program _ rest)

/-- A `gen-key` that succeeds has opened both files. -/
theorem keysSaved_of_succeeded (isGenKey : command.Names "gen-key")
    (succeeded : (main host command disk).1.exitCode = 0) :
    KeysSaved host command disk (main host command disk).2 := by
  rcases main_cases rfl with ⟨-, failed⟩ | ⟨-, ⟨-, failed⟩ | ⟨saved, -⟩⟩
  · cases succeeded.symm.trans (failed isGenKey)
  · cases succeeded.symm.trans failed
  · exact saved

/-! ## What is kept -/

/-- A path that the command spares reads what it read before. -/
theorem Step.read_eq (step : Step host disk command after) (spared : Spares host.fs command path) :
    host.fs.read after path = host.fs.read disk path := by
  obtain ⟨run, ran⟩ := step
  rcases main_cases ran with ⟨rfl, -⟩ | ⟨isGenKey, half | both⟩
  · rfl
  · obtain ⟨⟨pubkey, privkey, -, first, -⟩, -⟩ := half
    exact spared _ ⟨isGenKey, .inl rfl⟩ disk pubkey after first
  · obtain ⟨⟨pubkey, privkey, middle, -, first, second⟩, -⟩ := both
    rw [spared _ ⟨isGenKey, .inr rfl⟩ middle privkey after second,
      spared _ ⟨isGenKey, .inl rfl⟩ disk pubkey middle first]

/-- A file that no command of a run writes is kept by the run. -/
theorem read_of_run {start : host.fs.Disk} {commands : List Command}
    (run : Semantics.Run (Step host) start commands disk)
    (spared : ∀ command ∈ commands, Spares host.fs command path) :
    host.fs.read disk path = host.fs.read start path := by
  have kept : Semantics.Invariant (fun disk command after =>
      Spares host.fs command path ∧ Step host disk command after) start
      (fun disk => host.fs.read disk path = host.fs.read start path) := by
    refine ⟨rfl, ?_⟩
    rintro disk command after kept ⟨spares, step⟩
    rw [step.read_eq spares, kept]
  exact kept.of_run (Semantics.Run.restrict run spared)

/-! ## Matching pairs -/

/-- The key files of the directory hold a pair that an enabled algorithm generates. -/
def Paired (host : Host) (disk : host.fs.Disk) (dir : Text) : Prop :=
  ∃ pubkey privkey name sig, host.fs.read disk (pubkeyPath dir) = some pubkey ∧
    host.fs.read disk (privkeyPath dir) = some privkey ∧
      host.backend.oqs.sigNew name = some sig ∧ sig.KeyPair pubkey privkey

/-- What is generated is a pair of the scheme that was opened. -/
theorem generateKeypair_scheme {oqs : Oqs} {algorithm algName : String} {coins : Bytes}
    {pubkey : PublicKey} {privkey : Bytes} (named : getOqsAlgName algorithm = some algName)
    (generated : generateKeypair oqs algorithm coins = .ok (pubkey, privkey)) :
    ∃ sig, openSig oqs algorithm algName = some sig ∧ sig.KeyPair pubkey privkey := by
  cases opened : openSig oqs algorithm algName with
  | none =>
      simp only [generateKeypair, named, opened] at generated
      cases generated
  | some sig => exact ⟨sig, rfl, generateKeypair_ok named opened generated⟩

/-- A pair comes from the scheme opened for Dilithium3, or from the fallback. -/
theorem generateWithFallback_scheme {oqs : Oqs} {draws : Nat → Bytes} {pubkey : PublicKey}
    {privkey : Bytes} (generated : generateWithFallback oqs draws = .ok (pubkey, privkey)) :
    ∃ sig, (openSig oqs "Dilithium3" "ML-DSA-65" = some sig ∨
      openSig oqs "Dilithium2" "ML-DSA-44" = some sig) ∧ sig.KeyPair pubkey privkey := by
  rw [generateWithFallback] at generated
  cases first : generateKeypair oqs "Dilithium3" (draws 0) with
  | ok pair =>
      rw [first] at generated
      cases generated
      obtain ⟨sig, opened, keyPair⟩ := generateKeypair_scheme getOqsAlgName_dilithium3 first
      exact ⟨sig, .inl opened, keyPair⟩
  | err error =>
      rw [first] at generated
      obtain ⟨sig, opened, keyPair⟩ := generateKeypair_scheme getOqsAlgName_dilithium2 generated
      exact ⟨sig, .inr opened, keyPair⟩

/-- The key files of the command's directory hold the pair that the command generated. -/
structure KeysHeld (host : Host) (command : Command) (disk : host.fs.Disk) : Prop where
  held : ∃ pubkey privkey,
    generateWithFallback host.backend.oqs command.draws = .ok (pubkey, privkey) ∧
      host.fs.read disk (pubkeyPath command.outDir) = some pubkey ∧
        host.fs.read disk (privkeyPath command.outDir) = some privkey

/-- Where writes are read back, both files hold what was written to them. -/
theorem KeysSaved.held (saved : KeysSaved host command disk after)
    (reliable : host.fs.Reliable)
    (apart : host.fs.Apart (privkeyPath command.outDir) (pubkeyPath command.outDir)) :
    KeysHeld host command after := by
  obtain ⟨pubkey, privkey, middle, generated, first, second⟩ := saved.saved
  exact ⟨pubkey, privkey, generated, reliable.pair_read apart first second⟩

theorem KeysHeld.paired (keys : KeysHeld host command disk) :
    Paired host disk command.outDir := by
  obtain ⟨pubkey, privkey, generated, pubkeyRead, privkeyRead⟩ := keys.held
  obtain ⟨sig, opened, keyPair⟩ := generateWithFallback_scheme generated
  obtain ⟨name, enabled⟩ : ∃ name, host.backend.oqs.sigNew name = some sig :=
    opened.elim openSig_enabled openSig_enabled
  exact ⟨pubkey, privkey, name, sig, pubkeyRead, privkeyRead, enabled, keyPair⟩

/-- The two key files of the directory read the same on both disks. -/
structure SameKeys (fs : FileSystem) (dir : Text) (left right : fs.Disk) : Prop where
  pubkey : fs.read left (pubkeyPath dir) = fs.read right (pubkeyPath dir)
  privkey : fs.read left (privkeyPath dir) = fs.read right (privkeyPath dir)

/-- The command writes neither key file of the directory. -/
def SparesKeys (fs : FileSystem) (command : Command) (dir : Text) : Prop :=
  Spares fs command (pubkeyPath dir) ∧ Spares fs command (privkeyPath dir)

/-- A step that spares the directory's keys, or is not cut short between them. -/
structure WholeStep (host : Host) (dir : Text) (disk : host.fs.Disk) (command : Command)
    (after : host.fs.Disk) : Prop where
  step : Step host disk command after
  whole : SparesKeys host.fs command dir ∨
    command.outDir = dir ∧ ¬ HalfSaved host command disk after

/-- A directory holds a matching pair, or still what it held at the start. -/
theorem wholeSteps_keep (reliable : host.fs.Reliable) {dir : Text}
    (apart : host.fs.Apart (privkeyPath dir) (pubkeyPath dir)) (start : host.fs.Disk) :
    Semantics.Invariant (WholeStep host dir) start
      (fun disk => Paired host disk dir ∨ SameKeys host.fs dir disk start) := by
  refine ⟨.inr ⟨rfl, rfl⟩, ?_⟩
  rintro disk command after holds ⟨step, whole⟩
  have kept : SameKeys host.fs dir after disk →
      Paired host after dir ∨ SameKeys host.fs dir after start := by
    rintro ⟨pubkeyKept, privkeyKept⟩
    rcases holds with ⟨pubkey, privkey, name, sig, pubkeyRead, privkeyRead, pair⟩ | same
    · exact .inl ⟨pubkey, privkey, name, sig, pubkeyKept.trans pubkeyRead,
        privkeyKept.trans privkeyRead, pair⟩
    · exact .inr ⟨pubkeyKept.trans same.pubkey, privkeyKept.trans same.privkey⟩
  rcases whole with spares | ⟨rfl, notHalf⟩
  · exact kept ⟨step.read_eq spares.1, step.read_eq spares.2⟩
  · obtain ⟨run, ran⟩ := step
    rcases main_cases ran with ⟨rfl, -⟩ | ⟨-, half | both⟩
    · exact kept ⟨rfl, rfl⟩
    · exact absurd half.1 notHalf
    · exact .inl (both.1.held reliable apart).paired

/-! ## Exit codes -/

/-- The run says on one of its streams that something is wrong. -/
def Complains (run : MakeTxRun) : Prop :=
  run.stderr ≠ [] ∨ Text.ofString "valid: false" ∈ run.stdout ∨ run.stdout = usage

/-- The exit code is zero without a complaint on the error stream, or one with a complaint. -/
def Answered (run : MakeTxRun) : Prop :=
  (run.exitCode = 0 ∧ run.stderr = []) ∨ (run.exitCode = 1 ∧ Complains run)

theorem failed_answered (report : String) : Answered (failed report) :=
  .inr ⟨rfl, .inl (List.cons_ne_nil _ _)⟩

theorem printed_answered (text : Text) : Answered (printed text) := .inl ⟨rfl, rfl⟩

theorem makeTx_answered (files : Files) (args : MakeTxArgs) : Answered (makeTx files args) := by
  unfold makeTx
  repeat' split
  all_goals first | exact failed_answered _ | exact printed_answered _

theorem reportSigned_answered (returned : Throws (Result Unit × Transaction)) :
    Answered (reportSigned returned) := by
  unfold reportSigned
  repeat' split
  all_goals first | exact failed_answered _ | exact printed_answered _

theorem signTx_answered (backend : Backend) (files : Files) (args : SignTxArgs) (coins : Bytes) :
    Answered (signTx backend files args coins) := by
  unfold signTx
  repeat' split
  all_goals first | exact failed_answered _ | exact reportSigned_answered _

theorem invalid_answered (reason : String) : Answered (invalid reason).streams :=
  .inr ⟨rfl, .inr (.inl List.mem_cons_self)⟩

/-- The report of a verification that came to a verdict. -/
def verdict (fromPubkey : PublicKey) (valid : Bool) : Run :=
  if valid then ⟨[fromAddressLine fromPubkey, "valid: true"], 0⟩
  else ⟨[fromAddressLine fromPubkey, "valid: false", "error: signature verification failed"], 1⟩

/-- `verify-tx` gives a reason why it cannot verify, or the verdict of the verifier. -/
theorem cmdVerifyTx_cases (backend : Backend) (parser : ArgParser) :
    (∃ reason, cmdVerifyTx backend parser = invalid reason) ∨
      ∃ chain tx valid, stoul (parser.get (Text.ofString "--chain") []) = .ok chain ∧
        decodeFromHex backend.oqs (parser.get (Text.ofString "--tx") []) = .ok tx ∧
          verifyTransaction backend tx chain.toUInt32 = .ok (.ok valid) ∧
            cmdVerifyTx backend parser = verdict tx.fromPubkey valid := by
  rw [cmdVerifyTx]
  generalize parser.get (Text.ofString "--tx") [] = txHex
  generalize parser.get (Text.ofString "--chain") [] = chainStr
  by_cases missing : txHex = [] ∨ chainStr = []
  · exact .inl ⟨_, if_pos missing⟩
  · rw [if_neg missing]
    cases stoul chainStr with
    | error thrown => exact .inl ⟨_, rfl⟩
    | ok chain =>
        cases decodeFromHex backend.oqs txHex with
        | err error => exact .inl ⟨_, rfl⟩
        | ok tx =>
            rcases verified : verifyTransaction backend tx chain.toUInt32 with
              thrown | valid | error
            · simp only [verified]
              exact .inl ⟨_, rfl⟩
            · simp only [verified]
              exact .inr ⟨chain, tx, valid, rfl, rfl, verified, rfl⟩
            · simp only [verified]
              exact .inl ⟨_, rfl⟩

theorem cmdVerifyTx_answered (backend : Backend) (parser : ArgParser) :
    Answered (cmdVerifyTx backend parser).streams := by
  rcases cmdVerifyTx_cases backend parser with ⟨reason, same⟩ | ⟨-, tx, valid, -, -, -, same⟩
  · rw [same]
    exact invalid_answered reason
  · rw [same]
    cases valid with
    | true => exact .inl ⟨rfl, rfl⟩
    | false => exact .inr ⟨rfl, .inr (.inl (List.mem_cons_of_mem _ List.mem_cons_self))⟩

theorem cmdGenKey_answered (parser : ArgParser) (draws : Nat → Bytes) :
    Answered (cmdGenKey host parser draws disk).1 := by
  unfold cmdGenKey
  dsimp only
  repeat' split
  all_goals first
    | exact failed_answered _
    | exact .inl ⟨rfl, rfl⟩
    | exact .inr ⟨rfl, .inl (List.cons_ne_nil _ _)⟩

/-- Whatever the command line, the program answers. -/
theorem main_answered (host : Host) (command : Command) (disk : host.fs.Disk) :
    Answered (main host command disk).1 := by
  unfold main
  split
  · repeat' split
    · exact cmdGenKey_answered _ _
    · exact makeTx_answered _ _
    · exact signTx_answered _ _ _ _
    · exact cmdVerifyTx_answered _ _
    · exact .inr ⟨rfl, .inl (List.cons_ne_nil _ _)⟩
  · exact .inr ⟨rfl, .inr (.inr rfl)⟩

/-! ## Runs -/

/-- Any run keeps every file that its commands do not write, and a run without
`gen-key` keeps the disk. -/
theorem run_writes_keys_only {start : host.fs.Disk} {commands : List Command}
    (run : Semantics.Run (Step host) start commands disk) :
    (∀ path, (∀ command ∈ commands, Spares host.fs command path) →
      host.fs.read disk path = host.fs.read start path) ∧
    ((∀ command ∈ commands, ¬ command.Names "gen-key") → disk = start) := by
  refine ⟨fun path spared => read_of_run run spared, fun noGenKey => ?_⟩
  have kept : Semantics.Invariant
      (fun disk command after => ¬ command.Names "gen-key" ∧ Step host disk command after) start
      (fun disk => disk = start) := by
    refine ⟨rfl, ?_⟩
    rintro disk command after rfl ⟨notGenKey, result, ran⟩
    rcases main_cases ran with ⟨rfl, -⟩ | ⟨isGenKey, -⟩
    · rfl
    · exact absurd isGenKey notGenKey
  exact kept.of_run (Semantics.Run.restrict run noGenKey)

/-- Exit code zero: nothing on the error stream, and `gen-key` has opened both files of
a generated pair, which they hold where writes are read back and the two paths are two
files. Exit code one: a complaint, and the disk as it was, unless only the first of the
two files opened. No other exit code, and no other writer. -/
theorem exitCode_tells (host : Host) (command : Command) (disk : host.fs.Disk) :
    ∃ run after, main host command disk = (run, after) ∧
      ((run.exitCode = 0 ∧ run.stderr = [] ∧
          (command.Names "gen-key" → KeysSaved host command disk after ∧
            (host.fs.Reliable →
              host.fs.Apart (privkeyPath command.outDir) (pubkeyPath command.outDir) →
                KeysHeld host command after)) ∧
          (¬ command.Names "gen-key" → after = disk)) ∨
        (run.exitCode = 1 ∧ Complains run ∧
          (after = disk ∨ command.Names "gen-key" ∧ HalfSaved host command disk after))) := by
  refine ⟨_, _, rfl, ?_⟩
  have answered := main_answered host command disk
  rcases answered with ⟨succeeded, silent⟩ | ⟨failed, complains⟩
  · refine .inl ⟨succeeded, silent, ?_, ?_⟩
    · intro isGenKey
      have saved := keysSaved_of_succeeded isGenKey succeeded
      exact ⟨saved, fun reliable apart => saved.held reliable apart⟩
    · intro notGenKey
      rcases main_cases rfl with ⟨unchanged, -⟩ | ⟨isGenKey, -⟩
      · exact unchanged
      · exact absurd isGenKey notGenKey
  · refine .inr ⟨failed, complains, ?_⟩
    rcases main_cases rfl with ⟨unchanged, -⟩ | ⟨isGenKey, ⟨half, -⟩ | ⟨-, succeeded⟩⟩
    · exact .inl unchanged
    · exact .inr ⟨isGenKey, half⟩
    · cases succeeded.symm.trans failed

/-- A run of commands that spare the directory's keys, or are not cut short between
them, leaves there a matching pair or what it found; after a `gen-key` for the
directory has succeeded, a matching pair. -/
theorem run_keeps_pair {dir : Text} (reliable : host.fs.Reliable)
    (apart : host.fs.Apart (privkeyPath dir) (pubkeyPath dir)) {start : host.fs.Disk}
    {commands : List Command}
    (run : Semantics.Run (WholeStep host dir) start commands disk) :
    (Paired host disk dir ∨ SameKeys host.fs dir disk start) ∧
      ∀ genKey found, genKey.Names "gen-key" → genKey.outDir = dir →
        (main host genKey found).1.exitCode = 0 → (main host genKey found).2 = start →
          Paired host disk dir := by
  have kept := (wholeSteps_keep reliable apart start).of_run run
  refine ⟨kept, ?_⟩
  rintro genKey found isGenKey rfl succeeded rfl
  have saved := keysSaved_of_succeeded isGenKey succeeded
  rcases kept with paired | same
  · exact paired
  · obtain ⟨pubkey, privkey, name, sig, pubkeyRead, privkeyRead, pair⟩ :=
      (saved.held reliable apart).paired
    exact ⟨pubkey, privkey, name, sig, same.pubkey.trans pubkeyRead,
      same.privkey.trans privkeyRead, pair⟩

/-! ## Keys generated twice -/

/-- The reference primitives on a file system in memory. -/
def memoryHost (signed : Bytes → Bool) : Host := ⟨referenceBackend signed, memoryFs⟩

/-- The host on which every message may be signed. -/
abbrev referenceHost : Host := memoryHost fun _ => true

/-- The command line `gen-key --out keys`. -/
def genKeyLine : Command where
  argv := [Text.ofString "pqc-ledger-cli", Text.ofString "gen-key", Text.ofString "--out",
    Text.ofString "keys"]
  draws := fun _ => []

theorem genKeyLine_succeeds {signed : Bytes → Bool} (disk : (memoryHost signed).fs.Disk) :
    (main (memoryHost signed) genKeyLine disk).1.exitCode = 0 := rfl

/-- No write fails, so no command is cut short. -/
theorem referenceHost_notHalf (command : Command) (disk after : referenceHost.fs.Disk) :
    ¬ HalfSaved referenceHost command disk after := by
  rintro ⟨pubkey, privkey, -, -, refused⟩
  cases refused

theorem keys_apart : memoryFs.Apart (privkeyPath (Text.ofString "keys"))
    (pubkeyPath (Text.ofString "keys")) :=
  memoryFs_apart (by decide)

/-- The disk that holds the generated pair and nothing else. -/
def keysDisk (signed : Bytes → Bool) : (memoryHost signed).fs.Disk :=
  (main (memoryHost signed) genKeyLine fun _ => none).2

/-- In memory `gen-key` succeeds, and the directory holds what it generated. -/
theorem exitCode_tells_keys :
    (main referenceHost genKeyLine fun _ => none).1.exitCode = 0 ∧
      KeysHeld referenceHost genKeyLine (keysDisk _) := by
  obtain ⟨run, after, ran, told⟩ := exitCode_tells referenceHost genKeyLine fun _ => none
  have succeeded : (main referenceHost genKeyLine fun _ => none).1.exitCode = 0 :=
    genKeyLine_succeeds _
  refine ⟨succeeded, ?_⟩
  rw [ran] at succeeded
  rw [keysDisk, ran]
  rcases told with ⟨-, -, saved, -⟩ | ⟨failed, -⟩
  · exact (saved ⟨_, _, rfl⟩).2 memoryFs_reliable keys_apart
  · cases succeeded.symm.trans failed

theorem run_keeps_pair_keys :
    Paired referenceHost (main referenceHost genKeyLine (keysDisk _)).2 (Text.ofString "keys") := by
  have again : Semantics.Run (WholeStep referenceHost (Text.ofString "keys")) (keysDisk _)
      [genKeyLine] (main referenceHost genKeyLine (keysDisk _)).2 :=
    .snoc .nil ⟨⟨_, rfl⟩, .inr ⟨rfl, referenceHost_notHalf _ _ _⟩⟩
  exact (run_keeps_pair memoryFs_reliable keys_apart again).2 genKeyLine _ ⟨_, _, rfl⟩ rfl
    (genKeyLine_succeeds _) rfl

theorem genKeyLine_spares {path : Text}
    (other : path ≠ privkeyPath (Text.ofString "keys") ∧ path ≠ pubkeyPath (Text.ofString "keys")) :
    Spares memoryFs genKeyLine path := by
  rintro written ⟨-, rfl | rfl⟩
  · exact memoryFs_apart other.2.symm
  · exact memoryFs_apart other.1.symm

/-- A file outside the directory is not touched. -/
theorem run_writes_keys_only_notes :
    referenceHost.fs.read (keysDisk _) (Text.ofString "notes") = none := by
  have run : Semantics.Run (Step referenceHost) (fun _ => none) [genKeyLine] (keysDisk _) :=
    .snoc .nil ⟨_, rfl⟩
  refine (run_writes_keys_only run).1 (Text.ofString "notes") ?_
  intro command inRun
  rw [List.mem_singleton.mp inRun]
  exact genKeyLine_spares (by decide)

/-! ## Ed25519 key files -/

/-- A saver succeeds exactly when the key has 32 bytes and the file opens. -/
theorem saveEd25519Key_ok_iff {wrongSize : String} {ssl : OpenSsl} {after : host.fs.Disk}
    {key : Bytes} :
    saveEd25519Key wrongSize (some ssl) host.fs disk key path = (.ok (), after) ↔
      key.length = 32 ∧ host.fs.write disk path key = some after := by
  rw [saveEd25519Key]
  by_cases sized : key.length = 32
  · rw [if_neg (not_not_intro sized), saveKey]
    cases host.fs.write disk path key <;> simp [sized]
  · rw [if_pos sized]
    simp [sized]

/-- A loader returns the first 32 bytes of a file that has them. -/
theorem loadEd25519Key_ok_iff {wrongSize : String} {ssl : OpenSsl} {files : Files} {key : Bytes} :
    loadEd25519Key wrongSize (some ssl) files path = .ok key ↔
      ∃ contents, files path = some contents ∧ 32 ≤ contents.length ∧ contents.take 32 = key := by
  rw [loadEd25519Key]
  cases files path with
  | none => simp
  | some contents =>
      by_cases enough : 32 ≤ contents.length
      · simp [enough]
      · simp [enough]

/-- Both halves of a generated Ed25519 pair have 32 bytes, so the savers take them, and
where writes are read back the loaders return them after any run of commands that spare
the two files. -/
theorem ed25519_pair_survives {openssl : Option OpenSsl} {coins : Bytes} {pubkey : PublicKey}
    {privkey : Bytes} {pubPath privPath : Text} {found middle saved : host.fs.Disk}
    {commands : List Command} (reliable : host.fs.Reliable) (apart : host.fs.Apart privPath pubPath)
    (generated : generateEd25519Keypair openssl coins = .ok (pubkey, privkey))
    (pubOpened : host.fs.write found pubPath pubkey = some middle)
    (privOpened : host.fs.write middle privPath privkey = some saved)
    (run : Semantics.Run (Step host) saved commands disk)
    (spared : ∀ command ∈ commands,
      Spares host.fs command pubPath ∧ Spares host.fs command privPath) :
    (pubkey.length = 32 ∧ privkey.length = 32) ∧
      saveEd25519PublicKey openssl host.fs found pubkey pubPath = (.ok (), middle) ∧
        saveEd25519PrivateKey openssl host.fs middle privkey privPath = (.ok (), saved) ∧
          loadEd25519PublicKey openssl (host.files disk) pubPath = .ok pubkey ∧
            loadEd25519PrivateKey openssl (host.files disk) privPath = .ok privkey := by
  obtain ⟨pubSized, privSized⟩ := generateEd25519Keypair_lengths generated
  cases openssl with
  | none => cases generated
  | some ssl =>
      obtain ⟨pubHeld, privHeld⟩ := reliable.pair_read apart pubOpened privOpened
      have pubRead : host.files disk pubPath = some pubkey :=
        (read_of_run run fun command inRun => (spared command inRun).1).trans pubHeld
      have privRead : host.files disk privPath = some privkey :=
        (read_of_run run fun command inRun => (spared command inRun).2).trans privHeld
      refine ⟨⟨pubSized, privSized⟩, saveEd25519Key_ok_iff.mpr ⟨pubSized, pubOpened⟩,
        saveEd25519Key_ok_iff.mpr ⟨privSized, privOpened⟩,
        loadEd25519Key_ok_iff.mpr ⟨pubkey, pubRead, Nat.le_of_eq pubSized.symm, ?_⟩,
        loadEd25519Key_ok_iff.mpr ⟨privkey, privRead, Nat.le_of_eq privSized.symm, ?_⟩⟩
      · rw [← pubSized, List.take_length]
      · rw [← privSized, List.take_length]

/-- The disk with the reference pair's one key in a file. -/
def withKey (path : Text) (disk : referenceHost.fs.Disk) : referenceHost.fs.Disk :=
  fun other => if other = path then some (copyInto 32 []).val else disk other

/-- The disk with the reference pair. -/
def pairDisk : referenceHost.fs.Disk :=
  withKey (Text.ofString "id") (withKey (Text.ofString "id.pub") fun _ => none)

/-- A pair beside the directory into which `gen-key` then writes. -/
theorem ed25519_pair_survives_beside :
    saveEd25519PublicKey (some referenceSsl) referenceHost.fs (fun _ => none)
        (copyInto 32 []).val (Text.ofString "id.pub") =
          (.ok (), withKey (Text.ofString "id.pub") fun _ => none) ∧
      saveEd25519PrivateKey (some referenceSsl) referenceHost.fs
          (withKey (Text.ofString "id.pub") fun _ => none) (copyInto 32 []).val
          (Text.ofString "id") = (.ok (), pairDisk) ∧
        loadEd25519PublicKey (some referenceSsl)
            (referenceHost.files (main referenceHost genKeyLine pairDisk).2)
            (Text.ofString "id.pub") = .ok (copyInto 32 []).val ∧
          loadEd25519PrivateKey (some referenceSsl)
            (referenceHost.files (main referenceHost genKeyLine pairDisk).2) (Text.ofString "id") =
              .ok (copyInto 32 []).val := by
  have apart : memoryFs.Apart (Text.ofString "id") (Text.ofString "id.pub") :=
    memoryFs_apart (by decide)
  have pubOpened : referenceHost.fs.write (fun _ => none) (Text.ofString "id.pub")
      (copyInto 32 []).val = some (withKey (Text.ofString "id.pub") fun _ => none) := rfl
  have privOpened : referenceHost.fs.write (withKey (Text.ofString "id.pub") fun _ => none)
      (Text.ofString "id") (copyInto 32 []).val = some pairDisk := rfl
  have run : Semantics.Run (Step referenceHost) pairDisk [genKeyLine]
      (main referenceHost genKeyLine pairDisk).2 := .snoc .nil ⟨_, rfl⟩
  refine (ed25519_pair_survives memoryFs_reliable apart (generateEd25519Keypair_referenceSsl [])
    pubOpened privOpened run ?_).2
  intro command inRun
  rw [List.mem_singleton.mp inRun]
  exact ⟨genKeyLine_spares (by decide), genKeyLine_spares (by decide)⟩

end PqcLedger.Cli
