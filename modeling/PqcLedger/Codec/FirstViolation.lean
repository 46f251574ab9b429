import PqcLedger.Codec.DecodeParse
import PqcLedger.Framing.Checks

/-!
# The first violated rule

The rules of the wire format as checks on a byte string and its offsets, in the
order in which the fields are sent. The parser reports the first check that
fails, so `decode` answers a rejected byte string with its error code.
-/

namespace PqcLedger.Codec

open PqcLedger.Cxx PqcLedger.Crypto Framing

/-- The byte at an offset. -/
def byteAt (data : Bytes) (offset : Nat) : UInt8 := data.getD offset 0

/-- The length announced by the two bytes at an offset. -/
def lengthAt (data : Bytes) (offset : Nat) : Nat := fromBigEndian ((data.drop offset).take 2)

/-- A field of fixed width ends inside the byte string. -/
def reaches (data : Bytes) (stop : Nat) : Check Violation :=
  ⟨decide (stop ≤ data.length), .truncated⟩

/-- A length prefix is there, and announces no more bytes than are left. -/
def prefixedRules (data : Bytes) (start : Nat) : List (Check Violation) :=
  [reaches data (start + 2),
    ⟨decide (start + 2 + lengthAt data start ≤ data.length), .lengthExceeds⟩]

/-- Nothing follows. -/
def endsAt (data : Bytes) (stop : Nat) : Check Violation :=
  ⟨decide (data.length ≤ stop), .trailing⟩

/-- The signatures announced by a tag, behind it, and the end. -/
def authRules (sigSize : Nat) (data : Bytes) (tag : UInt8) (start : Nat) :
    List (Check Violation) :=
  if tag = 0 then
    prefixedRules data start ++
      [⟨decide (lengthAt data start = 0 ∨ lengthAt data start = sigSize), .signatureSize⟩,
        endsAt data (start + 2 + lengthAt data start)]
  else if tag = 1 then
    let second := start + 2 + lengthAt data start
    prefixedRules data start ++ prefixedRules data second ++
      [⟨decide (lengthAt data start = 64 ∧ lengthAt data second = sigSize), .signatureSize⟩,
        endsAt data (second + 2 + lengthAt data second)]
  else [⟨false, .authTag⟩]

/-- All rules, in wire order: version, chain id, nonce, public key, recipient,
amount, fee, tag and signatures. -/
def wireRules (pubkeySize sigSize : Nat) (data : Bytes) : List (Check Violation) :=
  let keyEnd := 15 + lengthAt data 13
  [reaches data 1, ⟨decide (byteAt data 0 = 1), .version⟩, reaches data 5, reaches data 13] ++
    prefixedRules data 13 ++ [⟨decide (lengthAt data 13 = pubkeySize), .pubkeySize⟩] ++
    [reaches data (keyEnd + 32), reaches data (keyEnd + 40), reaches data (keyEnd + 48),
      reaches data (keyEnd + 49)] ++
    authRules sigSize data (byteAt data (keyEnd + 48)) (keyEnd + 49)

/-- The code of the first rule that a byte string violates. -/
def firstViolated (pubkeySize sigSize : Nat) (data : Bytes) : Option ErrorCode :=
  if data = [] then some .InvalidTransaction
  else (firstFailed (wireRules pubkeySize sigSize data)).map Violation.code

/-! ## The parser's stages at their offsets -/

variable {data : Bytes} {start : Nat}

theorem fixed_readsAt {α : Type} (count : Nat) (read : Bytes → α) :
    Parser.ReadsAt (Parse.fixed count read) data start (start + count)
      (read ((data.drop start).take count)) [reaches data (start + count)] :=
  (Parser.ReadsAt.take Violation.truncated count).bind (Parser.ReadsAt.pure _)

theorem u8_readsAt :
    Parser.ReadsAt Parse.u8 data start (start + 1) (byteAt data start)
      [reaches data (start + 1)] where
  reports := (fixed_readsAt 1 _).reports
  reads := by
    intro inside other rest read
    obtain ⟨rfl, rfl, within⟩ := (fixed_readsAt 1 _).reads inside read
    refine ⟨?_, rfl, within⟩
    have present : start < data.length := within
    have single : (data.drop start).take 1 = [data[start]] := by
      rw [List.drop_eq_getElem_cons present, List.take_succ_cons, List.take_zero]
    rw [single, byteAt, List.getD_eq_getElem?_getD, List.getElem?_eq_getElem present]
    simp [fromBigEndian]

/-- A prefixed field is read behind its length. -/
theorem prefixed_readsAt :
    Parser.ReadsAt Parse.prefixed data start (start + 2 + lengthAt data start)
      ((data.drop (start + 2)).take (lengthAt data start)) (prefixedRules data start) := by
  have announced : (UInt16.ofNat (lengthAt data start)).toNat = lengthAt data start := by
    refine UInt16.toNat_ofNat_of_lt' ?_
    have bounded := fromBigEndian_lt ((data.drop start).take 2)
    have short : ((data.drop start).take 2).length ≤ 2 := List.length_take_le ..
    exact bounded.trans_le (Nat.pow_le_pow_right (by decide) short)
  have field : Parser.ReadsAt (Parser.take .lengthExceeds (UInt16.ofNat (lengthAt data start)).toNat)
      data (start + 2) (start + 2 + lengthAt data start)
      ((data.drop (start + 2)).take (lengthAt data start))
      [⟨decide (start + 2 + lengthAt data start ≤ data.length), Violation.lengthExceeds⟩] := by
    rw [announced]
    exact Parser.ReadsAt.take Violation.lengthExceeds _
  exact (fixed_readsAt 2 fun raw => UInt16.ofNat (fromBigEndian raw)).bind field

/-- Nothing is left behind a transaction. -/
theorem end_readsAt {α : Type} (value : α) :
    Parser.ReadsAt (Parser.finish .trailing >>= fun _ => pure value) data start data.length value
      [endsAt data start] :=
  (Parser.ReadsAt.finish Violation.trailing).bind (Parser.ReadsAt.pure value)

/-- Inside the byte string a field has the length that its prefix announces. -/
theorem field_length (inside : start + 2 + lengthAt data start ≤ data.length) :
    ((data.drop (start + 2)).take (lengthAt data start)).length = lengthAt data start := by
  rw [List.length_take, List.length_drop]
  omega

/-- The signatures and the end of the input, behind a tag. -/
theorem signed_readsAt {α : Type} (data : Bytes) (start sigSize : Nat) (tag : UInt8)
    (result : AuthMode × Auth → α) :
    ∃ stop value, Parser.ReadsAt
      (Parse.auth sigSize tag >>= fun signed =>
        Parser.finish .trailing >>= fun _ => pure (result signed))
      data start stop value (authRules sigSize data tag start) := by
  unfold Parse.auth authRules
  by_cases zero : tag = 0
  · simp only [if_pos zero]
    refine ⟨_, _, Parser.ReadsAt.congr (.bind (.bind prefixed_readsAt
      (.bind (.guard _ fun inside => ?_) (.pure _))) (end_readsAt _)) rfl⟩
    rw [field_length inside]
  · simp only [if_neg zero]
    by_cases one : tag = 1
    · simp only [if_pos one]
      refine ⟨_, _, Parser.ReadsAt.congr (.bind (.bind prefixed_readsAt (.bind prefixed_readsAt
        (.bind (.guard _ fun inside => ?_) (.pure _)))) (end_readsAt _)) rfl⟩
      rw [field_length inside, field_length (by omega)]
    · simp only [if_neg one, Parser.reject_bind]
      exact ⟨start, result (.PqOnly, .pq ⟨[]⟩), Parser.ReadsAt.reject _ _⟩

/-- The parser of whole transactions reports the rules. -/
theorem transaction_reports (pubkeySize sigSize : Nat) (data : Bytes) :
    (Parse.transaction pubkeySize sigSize).Reports data (wireRules pubkeySize sigSize data) := by
  let keyEnd := 15 + lengthAt data 13
  obtain ⟨stop, value, tail⟩ := signed_readsAt data (keyEnd + 49) sigSize
    (byteAt data (keyEnd + 48)) fun signed : AuthMode × Auth =>
      (⟨byteAt data 0, UInt32.ofNat (fromBigEndian ((data.drop 1).take 4)),
        UInt64.ofNat (fromBigEndian ((data.drop 5).take 8)),
        (data.drop 15).take (lengthAt data 13), copyInto 32 ((data.drop keyEnd).take 32),
        UInt64.ofNat (fromBigEndian ((data.drop (keyEnd + 32)).take 8)),
        UInt64.ofNat (fromBigEndian ((data.drop (keyEnd + 40)).take 8)),
        signed.1, signed.2⟩ : Transaction)
  have version : Parser.ReadsAt (Parser.guard (byteAt data 0 = 1) Violation.version) data 1 1 ()
      [⟨decide (byteAt data 0 = 1), .version⟩] := .guard _ fun _ => Iff.rfl
  have pubkey : Parser.ReadsAt (Parser.guard (((data.drop 15).take (lengthAt data 13)).length =
        pubkeySize) Violation.pubkeySize) data keyEnd keyEnd ()
      [⟨decide (lengthAt data 13 = pubkeySize), .pubkeySize⟩] := by
    refine .guard _ fun inside => ?_
    rw [field_length inside]
  have reads : Parser.ReadsAt (Parse.transaction pubkeySize sigSize) data 0 stop value
      (wireRules pubkeySize sigSize data) :=
    .congr (.bind u8_readsAt (.bind version (.bind (fixed_readsAt 4 _) (.bind (fixed_readsAt 8 _)
      (.bind prefixed_readsAt (.bind pubkey (.bind (.take _ 32) (.bind (fixed_readsAt 8 _)
        (.bind (fixed_readsAt 8 _) (.bind u8_readsAt tail)))))))))) rfl
  exact reads.reports (Nat.zero_le _)

/-! ## What a rejection says -/

/-- The codes with which `decode` rejects. -/
def decodeCodes : List ErrorCode :=
  [.InvalidTransaction, .InvalidVersion, .InvalidLengthPrefix, .MismatchedLength,
    .InvalidPublicKey, .InvalidAuthTag, .InvalidSignature, .TrailingBytes]

theorem Violation.code_mem (violation : Violation) : violation.code ∈ decodeCodes := by
  cases violation <;> decide

theorem Violation.code_ne_invalidTransaction (violation : Violation) :
    violation.code ≠ .InvalidTransaction := by
  cases violation <;> decide

theorem Violation.code_eq_invalidVersion_iff (violation : Violation) :
    violation.code = .InvalidVersion ↔ violation = .version := by
  cases violation <;> decide

/-- The version is the subject of no rule behind it. -/
theorem authRules_not_version {sigSize : Nat} {tag : UInt8} :
    Violation.version ∉ (authRules sigSize data tag start).map Check.violation := by
  unfold authRules
  split
  · simp [prefixedRules, reaches, endsAt]
  · split
    · simp [prefixedRules, reaches, endsAt]
    · simp

theorem wireRules_version_iff {pubkeySize sigSize : Nat} (nonempty : data ≠ []) :
    firstFailed (wireRules pubkeySize sigSize data) = some .version ↔ byteAt data 0 ≠ 1 := by
  have present : (reaches data 1).holds = true :=
    decide_eq_true (List.length_pos_iff.mpr nonempty)
  obtain ⟨later, split, others⟩ : ∃ later, wireRules pubkeySize sigSize data =
      reaches data 1 :: ⟨decide (byteAt data 0 = 1), .version⟩ :: later ∧
        Violation.version ∉ later.map Check.violation := by
    refine ⟨_, rfl, ?_⟩
    simp only [List.append_eq, List.map_append, List.mem_append, not_or]
    refine ⟨?_, authRules_not_version⟩
    simp [prefixedRules, reaches]
  rw [split, firstFailed_cons, if_pos present, firstFailed_cons]
  by_cases version : byteAt data 0 = 1
  · rw [if_pos (decide_eq_true version)]
    exact iff_of_false (fun failed => others (firstFailed_mem failed)) (not_not_intro version)
  · rw [if_neg (by simp [version])]
    exact iff_of_true rfl version

/-- Decoding accepts where no rule is violated, and otherwise reports the first. -/
theorem decode_firstViolated (oqs : Oqs) (data : Bytes) :
    match decode oqs data with
    | .ok _ => firstViolated (expectedPubkeySize oqs) (expectedSigSize oqs) data = none
    | .err error =>
        firstViolated (expectedPubkeySize oqs) (expectedSigSize oqs) data = some error.code := by
  by_cases empty : data = []
  · subst empty
    rfl
  · have reported := transaction_reports (expectedPubkeySize oqs) (expectedSigSize oqs) data
    have ran := decode_settles oqs data
    rw [Parser.Reports] at reported
    rw [firstViolated, if_neg empty]
    cases parsed : Parse.transaction (expectedPubkeySize oqs) (expectedSigSize oqs) data with
    | ok taken =>
        obtain ⟨tx, rest⟩ := taken
        rw [parsed] at ran reported
        dsimp only at ran reported
        rw [ran, reported]
        rfl
    | error violation =>
        rw [parsed] at ran reported
        obtain ⟨error, failed, coded⟩ := ran
        dsimp only at reported
        rw [failed, reported]
        dsimp only
        rw [coded empty]
        rfl

/-- The code of a reported rule tells the empty input and the wrong version apart. -/
theorem firstViolated_code {pubkeySize sigSize : Nat} {code : ErrorCode}
    (violated : firstViolated pubkeySize sigSize data = some code) :
    (code = .InvalidTransaction ↔ data = []) ∧
      (code = .InvalidVersion ↔ data ≠ [] ∧ byteAt data 0 ≠ 1) ∧ code ∈ decodeCodes := by
  rw [firstViolated] at violated
  by_cases empty : data = []
  · rw [if_pos empty] at violated
    cases violated
    exact ⟨iff_of_true rfl empty, iff_of_false (by decide) fun both => both.1 empty, by decide⟩
  · rw [if_neg empty] at violated
    obtain ⟨violation, failed, rfl⟩ := Option.map_eq_some_iff.mp violated
    have version : firstFailed (wireRules pubkeySize sigSize data) = some .version ↔
        byteAt data 0 ≠ 1 := wireRules_version_iff empty
    rw [failed, Option.some.injEq] at version
    refine ⟨iff_of_false violation.code_ne_invalidTransaction empty, ?_, violation.code_mem⟩
    rw [violation.code_eq_invalidVersion_iff, version]
    exact ⟨fun wrong => ⟨empty, wrong⟩, fun both => both.2⟩

/-- With ML-DSA-65 at its standard lengths, `decode` accepts a byte string that
violates no rule, and rejects another with the code of the first rule violated. -/
theorem decode_reports_first {oqs : Oqs} (sized : oqs.MlDsa65Sized) (data : Bytes) :
    match decode oqs data with
    | .ok _ => firstViolated 1952 3309 data = none
    | .err error => firstViolated 1952 3309 data = some error.code ∧
        (error.code = .InvalidTransaction ↔ data = []) ∧
        (error.code = .InvalidVersion ↔ data ≠ [] ∧ byteAt data 0 ≠ 1) ∧
        error.code ∈ decodeCodes := by
  have reported := decode_firstViolated oqs data
  rw [expectedPubkeySize_of_sized sized, expectedSigSize_of_sized sized] at reported
  cases outcome : decode oqs data with
  | ok tx =>
      rw [outcome] at reported
      exact reported
  | err error =>
      rw [outcome] at reported
      exact ⟨reported, firstViolated_code reported⟩

/-- A key of one byte is reported before the missing fields behind it. -/
theorem decode_reports_first_shortKey :
    ∃ error, decode noOqs [1, 0, 0, 0, 0, 0, 0, 0, 0, 0, 0, 0, 0, 0, 1, 7] = .err error ∧
      error.code = .InvalidPublicKey := by
  have reported := decode_reports_first noOqs_mlDsa65Sized
    [1, 0, 0, 0, 0, 0, 0, 0, 0, 0, 0, 0, 0, 0, 1, 7]
  have violated : firstViolated 1952 3309 [1, 0, 0, 0, 0, 0, 0, 0, 0, 0, 0, 0, 0, 0, 1, 7] =
      some .InvalidPublicKey := by decide
  cases outcome : decode noOqs [1, 0, 0, 0, 0, 0, 0, 0, 0, 0, 0, 0, 0, 0, 1, 7] with
  | ok tx =>
      rw [outcome] at reported
      exact absurd (reported.symm.trans violated) (by decide)
  | err error =>
      rw [outcome] at reported
      exact ⟨error, rfl, Option.some.inj (reported.1.symm.trans violated)⟩

end PqcLedger.Codec
