import PqcLedger.Cli.System

/-!
# The order of the options

`ArgParser::get` takes the argument after the first occurrence of a flag, wherever
it stands. On a command line of distinct options, none of whose values is itself a
flag, the order of the options does not matter to any command.
-/

namespace PqcLedger.Cli

open PqcLedger.Cxx PqcLedger.Tx

/-- An option: a flag and its value. -/
abbrev CliOption := Text × Text

/-- Options as they stand on a command line. -/
def optionArgs (options : List CliOption) : List Text :=
  options.flatMap fun option => [option.1, option.2]

/-- The flags that the commands look up. -/
def optionFlags : List Text :=
  ["--algo", "--out", "--to", "--amount", "--fee", "--nonce", "--chain", "--pubkey", "--format",
    "--tx", "--pq-key", "--ed25519-key"].map Text.ofString

variable {options others : List CliOption} {flag value defaultVal : Text}

/-! ## Looking an option up -/

theorem get_cons_of_ne {first : Text} {rest : List Text} (other : first ≠ flag) :
    (ArgParser.mk (first :: rest)).get flag defaultVal =
      (ArgParser.mk rest).get flag defaultVal := by
  simp only [ArgParser.get]
  rw [List.dropWhile_cons_of_pos (by simpa using other)]

theorem get_cons_self {rest : List Text} :
    (ArgParser.mk (flag :: value :: rest)).get flag defaultVal = value := by
  simp only [ArgParser.get]
  rw [List.dropWhile_cons_of_neg (by simp)]

/-- No value is the flag. -/
def ValuesAvoid (options : List CliOption) (flag : Text) : Prop :=
  ∀ option ∈ options, option.2 ≠ flag

/-- An option given once is found. -/
theorem get_of_mem (distinct : (options.map Prod.fst).Nodup) (avoid : ValuesAvoid options flag)
    (given : (flag, value) ∈ options) :
    (ArgParser.mk (optionArgs options)).get flag defaultVal = value := by
  induction options with
  | nil => exact absurd given List.not_mem_nil
  | cons first rest ih =>
      obtain ⟨firstFlag, firstValue⟩ := first
      rw [List.map_cons, List.nodup_cons] at distinct
      change (ArgParser.mk (firstFlag :: firstValue :: optionArgs rest)).get flag defaultVal = value
      obtain found | later := List.mem_cons.mp given
      · cases found
        exact get_cons_self
      · have otherFlag : firstFlag ≠ flag := by
          rintro rfl
          exact distinct.1 (List.mem_map.mpr ⟨_, later, rfl⟩)
        rw [get_cons_of_ne otherFlag, get_cons_of_ne (avoid _ List.mem_cons_self)]
        have avoidRest := fun option inRest => avoid option (List.mem_cons_of_mem _ inRest)
        exact ih distinct.2 avoidRest later

/-- An option that is not given has its default. -/
theorem get_of_not_mem (avoid : ValuesAvoid options flag) (missing : flag ∉ options.map Prod.fst) :
    (ArgParser.mk (optionArgs options)).get flag defaultVal = defaultVal := by
  induction options with
  | nil => rfl
  | cons first rest ih =>
      obtain ⟨firstFlag, firstValue⟩ := first
      rw [List.map_cons, List.mem_cons, not_or] at missing
      change (ArgParser.mk (firstFlag :: firstValue :: optionArgs rest)).get flag defaultVal = _
      rw [get_cons_of_ne (Ne.symm missing.1), get_cons_of_ne (avoid _ List.mem_cons_self)]
      exact ih (fun option inRest => avoid option (List.mem_cons_of_mem _ inRest)) missing.2

/-- Whatever the order, the same value is found. -/
theorem get_perm (perm : options.Perm others) (distinct : (options.map Prod.fst).Nodup)
    (avoid : ValuesAvoid options flag) :
    (ArgParser.mk (optionArgs options)).get flag defaultVal =
      (ArgParser.mk (optionArgs others)).get flag defaultVal := by
  have samekeys : (options.map Prod.fst).Perm (others.map Prod.fst) := perm.map Prod.fst
  have othersAvoid : ValuesAvoid others flag := fun option given =>
    avoid option (perm.mem_iff.mpr given)
  by_cases given : flag ∈ options.map Prod.fst
  · obtain ⟨⟨_, value⟩, isOption, rfl⟩ := List.mem_map.mp given
    rw [get_of_mem distinct avoid isOption,
      get_of_mem (samekeys.nodup_iff.mp distinct) othersAvoid (perm.mem_iff.mp isOption)]
  · rw [get_of_not_mem avoid given,
      get_of_not_mem othersAvoid (fun inOthers => given (samekeys.mem_iff.mpr inOthers))]

/-! ## Commands -/

/-- A command line of options. -/
def optionsLine (program name : Text) (options : List CliOption) (draws : Nat → Bytes) :
    Command where
  argv := program :: name :: optionArgs options
  draws := draws

/-- No command depends on the order of its options, if they are distinct and no value
is one of the flags that the commands look up. -/
theorem main_options_perm (perm : options.Perm others)
    (distinct : (options.map Prod.fst).Nodup)
    (plain : ∀ option ∈ options, option.2 ∉ optionFlags) (host : Host) (program name : Text)
    (draws : Nat → Bytes) (disk : host.fs.Disk) :
    main host (optionsLine program name options draws) disk =
      main host (optionsLine program name others draws) disk := by
  have same : name ∉ optionFlags → ∀ flag ∈ optionFlags, ∀ defaultVal,
      (optionsLine program name options draws).parser.get flag defaultVal =
        (optionsLine program name others draws).parser.get flag defaultVal := by
    intro notFlag flag isFlag defaultVal
    have otherName : name ≠ flag := by
      rintro rfl
      exact notFlag isFlag
    change (ArgParser.mk (name :: optionArgs options)).get flag defaultVal =
      (ArgParser.mk (name :: optionArgs others)).get flag defaultVal
    rw [get_cons_of_ne otherName, get_cons_of_ne otherName]
    refine get_perm perm distinct fun option given equal => plain option given ?_
    rw [equal]
    exact isFlag
  by_cases isGenKey : name = Text.ofString "gen-key"
  · subst isGenKey
    have look := same (by decide)
    change cmdGenKey host (optionsLine _ _ options draws).parser draws disk =
      cmdGenKey host (optionsLine _ _ others draws).parser draws disk
    simp only [cmdGenKey, look (Text.ofString "--algo") (by decide),
      look (Text.ofString "--out") (by decide)]
  by_cases isMakeTx : name = Text.ofString "make-tx"
  · subst isMakeTx
    have look := same (by decide)
    rw [main_makeTx ⟨_, _, rfl⟩, main_makeTx ⟨_, _, rfl⟩]
    simp only [cmdMakeTx, MakeTxArgs.ofParser, look (Text.ofString "--to") (by decide),
      look (Text.ofString "--amount") (by decide), look (Text.ofString "--fee") (by decide),
      look (Text.ofString "--nonce") (by decide), look (Text.ofString "--chain") (by decide),
      look (Text.ofString "--pubkey") (by decide), look (Text.ofString "--format") (by decide)]
  by_cases isSignTx : name = Text.ofString "sign-tx"
  · subst isSignTx
    have look := same (by decide)
    rw [main_signTx ⟨_, _, rfl⟩, main_signTx ⟨_, _, rfl⟩]
    simp only [cmdSignTx, SignTxArgs.ofParser, look (Text.ofString "--tx") (by decide),
      look (Text.ofString "--pq-key") (by decide), look (Text.ofString "--ed25519-key") (by decide)]
    rfl
  by_cases isVerifyTx : name = Text.ofString "verify-tx"
  · subst isVerifyTx
    have look := same (by decide)
    rw [main_verifyTx ⟨_, _, rfl⟩, main_verifyTx ⟨_, _, rfl⟩]
    simp only [cmdVerifyTx, look (Text.ofString "--tx") (by decide),
      look (Text.ofString "--chain") (by decide)]
  · simp only [main, optionsLine, if_neg isGenKey, if_neg isMakeTx, if_neg isSignTx,
      if_neg isVerifyTx]

/-- `gen-key` with its options the other way round. -/
theorem main_options_perm_reverse :
    main referenceHost (optionsLine [] (Text.ofString "gen-key")
        [(Text.ofString "--algo", Text.ofString "pq"),
          (Text.ofString "--out", Text.ofString "keys")] fun _ => []) (fun _ => none) =
      main referenceHost (optionsLine [] (Text.ofString "gen-key")
        [(Text.ofString "--out", Text.ofString "keys"),
          (Text.ofString "--algo", Text.ofString "pq")] fun _ => []) fun _ => none :=
  main_options_perm (.swap _ _ []) (by decide) (by decide) _ _ _ _ _

end PqcLedger.Cli
