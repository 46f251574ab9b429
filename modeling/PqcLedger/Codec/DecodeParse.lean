import PqcLedger.Codec.Decode
import PqcLedger.Codec.Layout

/-!
# The decoder follows the parser

A reader computation simulates a parser when, on the bytes not yet read, it
returns the parsed value and leaves the parser's remainder, or fails with an
error whose code reports the parser's violation. The position arithmetic is
modulo 2^64, so each simulation carries a budget of bytes it may consume: within
it no position wraps. `decode` simulates the whole-transaction parser.
-/

namespace PqcLedger.Codec

open PqcLedger.Cxx PqcLedger.Crypto Framing

/-- The bytes not yet read. -/
def Reader.rest (reader : Reader) : Bytes := reader.data.drop reader.pos

/-- The cursor is inside its buffer, and `budget` further bytes cannot wrap it. -/
structure Reader.Room (reader : Reader) (budget : Nat) : Prop where
  inside : reader.pos ≤ reader.data.length
  unwrapped : reader.pos + budget < sizeModulus

namespace Reader

variable {reader : Reader} {budget count : Nat}

theorem rest_length (reader : Reader) : reader.rest.length = reader.data.length - reader.pos :=
  List.length_drop

theorem Room.mono {smaller : Nat} (room : reader.Room budget) (less : smaller ≤ budget) :
    reader.Room smaller where
  inside := room.inside
  unwrapped := by
    have unwrapped := room.unwrapped
    omega

/-- Within its room the bounds check compares with the unread bytes. -/
theorem hasBytes_iff (room : reader.Room count) :
    reader.hasBytes count = true ↔ count ≤ reader.rest.length := by
  have inside := room.inside
  rw [hasBytes, sizeAdd_of_lt room.unwrapped, rest_length, decide_eq_true_iff]
  omega

theorem advance_pos (room : reader.Room count) : (reader.advance count).pos = reader.pos + count :=
  sizeAdd_of_lt room.unwrapped

theorem advance_rest (room : reader.Room count) :
    (reader.advance count).rest = reader.rest.drop count := by
  rw [rest, advance_pos room, rest, List.drop_drop]
  rfl

theorem advance_inside (room : reader.Room count) (enough : count ≤ reader.rest.length) :
    (reader.advance count).pos ≤ (reader.advance count).data.length := by
  have inside := room.inside
  rw [rest_length] at enough
  rw [advance_pos room]
  change reader.pos + count ≤ reader.data.length
  omega

theorem remaining_eq (room : reader.Room count) : reader.remaining = reader.rest.length := by
  rw [remaining, sizeSub_of_le room.inside, rest_length]

/-- The next bytes are the front of the unread ones. -/
theorem take_rest (room : reader.Room count) (enough : count ≤ reader.rest.length) :
    reader.rest.take count =
      (List.range count).map fun i => reader.data.getD (reader.pos + i) 0 := by
  have inside := room.inside
  rw [rest_length] at enough
  apply List.ext_getElem
  · simp [rest_length]
    omega
  · intro index _ bounded
    rw [List.length_map, List.length_range] at bounded
    have inData : reader.pos + index < reader.data.length := by omega
    simp [rest, List.getD_eq_getElem?_getD, List.getElem?_eq_getElem inData]

end Reader

variable {α β : Type}

/-- A part of the try block agrees with a parser on the unread bytes, once the
catch block has settled its exceptions. -/
def Settles (budget : Nat) (action : ReaderM (Result α)) (parser : WireParser α) : Prop :=
  ∀ reader : Reader, reader.Room budget →
    match parser reader.rest with
    | .ok (value, rest) => ∃ after, action reader = (.ok (.ok value), after) ∧
        after.pos ≤ after.data.length ∧ after.pos ≤ reader.pos + budget ∧ after.rest = rest
    | .error violation => ∃ error, settle (action reader).1 = .err error ∧
        error.code = violation.code

/-- A read whose value becomes a result. -/
def returning (action : ReaderM α) : ReaderM (Result α) := fun reader =>
  ((action reader).1.map Result.ok, (action reader).2)

/-- A read agrees with a parser. -/
def Simulates (budget : Nat) (action : ReaderM α) (parser : WireParser α) : Prop :=
  Settles budget (returning action) parser

/-- Continue after a part of the try block, unless it has returned an error. -/
def unlessErr (first : ReaderM (Result α)) (next : α → ReaderM (Result β)) :
    ReaderM (Result β) := fun reader =>
  match first reader with
  | (.ok (.ok value), after) => next value after
  | (.ok (.err error), after) => (.ok (.err error), after)
  | (.error thrown, after) => (.error thrown, after)

theorem ReaderM.bind_eq (first : ReaderM α) (next : α → ReaderM β) (reader : Reader) :
    (first >>= next) reader =
      match first reader with
      | (.ok value, after) => next value after
      | (.error thrown, after) => (.error thrown, after) := rfl

theorem returning_bind (action : ReaderM α) (next : α → ReaderM (Result β)) :
    unlessErr (returning action) next = action >>= next := by
  funext reader
  rw [ReaderM.bind_eq, unlessErr, returning]
  rcases action reader with ⟨_ | _, after⟩ <;> rfl

theorem bind_returning (action : ReaderM α) (next : α → ReaderM β) :
    returning (action >>= next) = action >>= fun value => returning (next value) := by
  funext reader
  rw [ReaderM.bind_eq, returning, ReaderM.bind_eq]
  rcases action reader with ⟨_ | _, after⟩ <;> rfl

/-! ## Composition -/

/-- A successful first stage leaves room for the rest of the budget. -/
theorem Reader.Room.step {reader after : Reader} {first second : Nat}
    (room : reader.Room (first + second)) (inside : after.pos ≤ after.data.length)
    (bounded : after.pos ≤ reader.pos + first) : after.Room second where
  inside := inside
  unwrapped := by
    have unwrapped := room.unwrapped
    omega

/-- Stages in sequence agree with parsers in sequence. -/
theorem Settles.unlessErr {first second : Nat} {action : ReaderM (Result α)}
    {parser : WireParser α} {next : α → ReaderM (Result β)} {continued : α → WireParser β}
    (stage : Settles first action parser)
    (later : ∀ value, Settles second (next value) (continued value)) :
    Settles (first + second) (unlessErr action next) (parser >>= continued) := by
  intro reader room
  have ran := stage reader (room.mono (Nat.le_add_right first second))
  rw [Parser.bind_eq, Codec.unlessErr]
  cases parsed : parser reader.rest with
  | error violation =>
      rw [parsed] at ran
      obtain ⟨error, settled, coded⟩ := ran
      refine ⟨error, ?_, coded⟩
      rcases outcome : action reader with ⟨thrown | value | early, after⟩
      all_goals
        rw [outcome] at settled
        cases settled
      · rfl
      · rfl
  | ok taken =>
      obtain ⟨value, rest⟩ := taken
      rw [parsed] at ran
      obtain ⟨after, returned, inside, bounded, rfl⟩ := ran
      have continuedRun := later value after (room.step inside bounded)
      rw [returned]
      dsimp only
      cases continuedParse : continued value after.rest with
      | error violation =>
          rw [continuedParse] at continuedRun
          exact continuedRun
      | ok taken =>
          rw [continuedParse] at continuedRun
          obtain ⟨final, returned, inside, finalBounded, left⟩ := continuedRun
          exact ⟨final, returned, inside, by omega, left⟩

/-- A read before a part of the try block. -/
theorem Simulates.settles {first second : Nat} {action : ReaderM α} {parser : WireParser α}
    {next : α → ReaderM (Result β)} {continued : α → WireParser β}
    (stage : Simulates first action parser)
    (later : ∀ value, Settles second (next value) (continued value)) :
    Settles (first + second) (action >>= next) (parser >>= continued) := by
  rw [← returning_bind]
  exact Settles.unlessErr stage later

/-- Reads in sequence simulate parsers in sequence. -/
theorem Simulates.bind {first second : Nat} {action : ReaderM α} {parser : WireParser α}
    {next : α → ReaderM β} {continued : α → WireParser β}
    (stage : Simulates first action parser)
    (later : ∀ value, Simulates second (next value) (continued value)) :
    Simulates (first + second) (action >>= next) (parser >>= continued) := by
  rw [Simulates, bind_returning]
  exact stage.settles later

/-- An early error return is a guard of the parser. -/
theorem Settles.check {budget : Nat} {refuse accept : Prop} [Decidable refuse] [Decidable accept]
    {error : Error} {violation : Violation} {next : ReaderM (Result α)}
    {continued : Unit → WireParser α} (negated : refuse ↔ ¬ accept)
    (coded : error.code = violation.code) (later : Settles budget next (continued ())) :
    Settles budget (if refuse then pure (.err error) else next)
      (Parser.guard accept violation >>= continued) := by
  intro reader room
  by_cases accepted : accept
  · rw [if_neg (fun refused => negated.mp refused accepted),
      Parser.guard_bind_of_holds violation continued accepted]
    exact later reader room
  · rw [if_pos (negated.mpr accepted), Parser.guard_bind_of_fails violation continued accepted]
    exact ⟨error, rfl, coded⟩

theorem Settles.pure (value : α) : Settles 0 (pure (.ok value)) (pure value) := by
  intro reader room
  exact ⟨reader, rfl, room.inside, Nat.le_refl _, rfl⟩

theorem Settles.mono {smaller budget : Nat} {action : ReaderM (Result α)}
    {parser : WireParser α} (settles : Settles smaller action parser) (less : smaller ≤ budget) :
    Settles budget action parser := by
  intro reader room
  have ran := settles reader (room.mono less)
  cases parsed : parser reader.rest with
  | error violation =>
      rw [parsed] at ran
      exact ran
  | ok taken =>
      rw [parsed] at ran
      obtain ⟨after, returned, inside, bounded, left⟩ := ran
      exact ⟨after, returned, inside, by omega, left⟩

/-! ## Single reads -/

/-- A bounded read simulates a field of its width that reads the same value. -/
theorem readBounded_simulates {count : Nat} {value : (Nat → UInt8) → α} {read : Bytes → α}
    (agrees : ∀ byte : Nat → UInt8, value byte = read ((List.range count).map byte)) :
    Simulates count (readBounded count value) (Parse.fixed count read) := by
  intro reader room
  rw [Parse.fixed, Parser.bind_eq, Parser.take, returning, readBounded]
  by_cases enough : count ≤ reader.rest.length
  · rw [if_pos enough, if_pos ((Reader.hasBytes_iff room).mpr enough), agrees,
      ← Reader.take_rest room enough]
    exact ⟨reader.advance count, rfl, Reader.advance_inside room enough,
      Nat.le_of_eq (Reader.advance_pos room), Reader.advance_rest room⟩
  · rw [if_neg enough, if_neg (fun has => enough ((Reader.hasBytes_iff room).mp has))]
    exact ⟨decodeCatch unexpectedEnd, rfl, decodeCatch_unexpectedEnd⟩

theorem readU8_simulates : Simulates 1 readU8 Parse.u8 :=
  readBounded_simulates fun byte => by simp [fromBigEndian]

theorem readU16Be_simulates : Simulates 2 readU16Be Parse.u16 :=
  readBounded_simulates fun byte => by
    change _ = UInt16.ofNat (leading byte 2)
    rw [← UInt16.toNat_inj, UInt16.toNat_ofNat_of_lt' (leading_lt byte 2)]
    simp only [UInt16.toNat_or, UInt16.toNat_shiftLeft, UInt8.toNat_toUInt16,
      UInt16.reduceToNat, Nat.reduceMod, Nat.reducePow]
    rw [byte_shiftLeft_mod (byte 0).toNat_lt (by decide), ← leading_one]
    exact leading_or byte 1 0

theorem readU32Be_simulates : Simulates 4 readU32Be Parse.u32 :=
  readBounded_simulates fun byte => by
    have kept : ∀ index shift, 256 <<< shift ≤ 4294967296 →
        (byte index).toNat <<< shift % 4294967296 = (byte index).toNat <<< shift :=
      fun index _ => byte_shiftLeft_mod (byte index).toNat_lt
    change _ = UInt32.ofNat (leading byte 4)
    rw [← UInt32.toNat_inj, UInt32.toNat_ofNat_of_lt' (leading_lt byte 4)]
    simp only [UInt32.toNat_or, UInt32.toNat_shiftLeft, UInt8.toNat_toUInt32,
      UInt32.reduceToNat, Nat.reduceMod, Nat.reducePow]
    rw [kept 0 _ (by decide), kept 1 _ (by decide), kept 2 _ (by decide), ← leading_one,
      leading_or byte 1 16, leading_or byte 2 8]
    exact leading_or byte 3 0

theorem readU64Be_simulates : Simulates 8 readU64Be Parse.u64 :=
  readBounded_simulates fun byte => by
    have kept : ∀ index shift, 256 <<< shift ≤ 18446744073709551616 →
        (byte index).toNat <<< shift % 18446744073709551616 = (byte index).toNat <<< shift :=
      fun index _ => byte_shiftLeft_mod (byte index).toNat_lt
    change _ = UInt64.ofNat (leading byte 8)
    rw [← UInt64.toNat_inj, UInt64.toNat_ofNat_of_lt' (leading_lt byte 8)]
    simp only [UInt64.toNat_or, UInt64.toNat_shiftLeft, UInt8.toNat_toUInt64,
      UInt64.reduceToNat, Nat.reduceMod, Nat.reducePow]
    rw [kept 0 _ (by decide), kept 1 _ (by decide), kept 2 _ (by decide), kept 3 _ (by decide),
      kept 4 _ (by decide), kept 5 _ (by decide), kept 6 _ (by decide), ← leading_one,
      leading_or byte 1 48, leading_or byte 2 40, leading_or byte 3 32, leading_or byte 4 24,
      leading_or byte 5 16, leading_or byte 6 8]
    exact leading_or byte 7 0

/-- A run of raw bytes is taken whole. -/
theorem readBytes_simulates {count : Nat} :
    Simulates count (readBytes count) (Parser.take .truncated count) := by
  intro reader room
  rw [Parser.take, returning, readBytes]
  by_cases enough : count ≤ reader.rest.length
  · rw [if_pos enough, if_pos ((Reader.hasBytes_iff room).mpr enough)]
    exact ⟨reader.advance count, rfl, Reader.advance_inside room enough,
      Nat.le_of_eq (Reader.advance_pos room), Reader.advance_rest room⟩
  · rw [if_neg enough, if_neg (fun has => enough ((Reader.hasBytes_iff room).mp has))]
    exact ⟨decodeCatch unexpectedEnd, rfl, decodeCatch_unexpectedEnd⟩

/-- The two bytes of a length prefix and the longest field behind them. -/
def prefixedBudget : Nat := 2 + maxPrefixed

theorem readAnnounced_simulates {length : Nat} (fits : length ≤ maxPrefixed) :
    Simulates maxPrefixed (readAnnounced length) (Parser.take .lengthExceeds length) := by
  intro reader room
  have lengthRoom := room.mono fits
  rw [Parser.take, returning, readAnnounced, Reader.remaining_eq lengthRoom]
  by_cases enough : length ≤ reader.rest.length
  · rw [if_pos enough, if_neg (Nat.not_lt_of_le enough), readBytes,
      if_pos ((Reader.hasBytes_iff lengthRoom).mpr enough)]
    have advanced := Reader.advance_pos lengthRoom
    exact ⟨reader.advance length, rfl, Reader.advance_inside lengthRoom enough,
      by omega, Reader.advance_rest lengthRoom⟩
  · rw [if_neg enough, if_pos (Nat.lt_of_not_le enough)]
    exact ⟨_, rfl, decodeCatch_lengthPrefixMismatch _ _⟩

theorem readBytesWithLen_simulates : Simulates prefixedBudget readBytesWithLen Parse.prefixed :=
  readU16Be_simulates.bind fun length =>
    readAnnounced_simulates (Nat.le_of_lt_succ length.toNat_lt)

/-! ## The try block -/

theorem decodeAuth_settles (oqs : Oqs) (tag : UInt8) :
    Settles (prefixedBudget + (prefixedBudget + 0)) (decodeAuth oqs tag)
      (Parse.auth (expectedSigSize oqs) tag) := by
  rw [decodeAuth, Parse.auth]
  by_cases zero : tag = 0
  · rw [if_pos zero, if_pos zero]
    refine readBytesWithLen_simulates.settles fun sig => Settles.mono ?_ (Nat.zero_le _)
    refine Settles.check ?_ rfl (Settles.pure _)
    omega
  · rw [if_neg zero, if_neg zero]
    by_cases one : tag = 1
    · rw [if_pos one, if_pos one]
      refine readBytesWithLen_simulates.settles fun classicalSig =>
        readBytesWithLen_simulates.settles fun pqSig => ?_
      rw [Parser.guard_and]
      exact Settles.check Iff.rfl rfl (Settles.check Iff.rfl rfl (Settles.pure _))
    · rw [if_neg one, if_neg one]
      intro reader room
      exact ⟨_, rfl, rfl⟩

theorem decodeEnd_settles (tx : Transaction) :
    Settles 0 (decodeEnd tx) (Parser.finish .trailing >>= fun _ => pure tx) := by
  intro reader room
  have exhausted : reader.atEnd = true ↔ reader.rest = [] := by
    rw [Reader.atEnd, decide_eq_true_iff, Reader.rest, List.drop_eq_nil_iff]
  rw [Parser.bind_eq, Parser.finish, decodeEnd]
  by_cases empty : reader.rest = []
  · rw [if_pos empty, if_pos (exhausted.mpr empty)]
    exact ⟨reader, rfl, room.inside, Nat.le_refl _, empty⟩
  · rw [if_neg empty, if_neg (fun ended => empty (exhausted.mp ended))]
    exact ⟨_, rfl, rfl⟩

/-- The bytes that `decode` can consume at most. -/
def decodeBudget : Nat :=
  1 + (4 + (8 + (prefixedBudget + (32 + (8 + (8 + (1 +
    (prefixedBudget + (prefixedBudget + 0) + 0))))))))

theorem decodeBody_settles (oqs : Oqs) :
    Settles decodeBudget (decodeBody oqs)
      (Parse.transaction (expectedPubkeySize oqs) (expectedSigSize oqs)) := by
  refine readU8_simulates.settles fun version => Settles.check Iff.rfl rfl ?_
  refine readU32Be_simulates.settles fun chainId => readU64Be_simulates.settles fun nonce =>
    readBytesWithLen_simulates.settles fun fromPubkey => Settles.check Iff.rfl rfl ?_
  refine readBytes_simulates.settles fun toBytes => readU64Be_simulates.settles fun amount =>
    readU64Be_simulates.settles fun fee => readU8_simulates.settles fun tag => ?_
  have tail := (decodeAuth_settles oqs tag).unlessErr fun signed =>
    decodeEnd_settles ⟨version, chainId, nonce, fromPubkey, copyInto 32 toBytes, amount, fee,
      signed.1, signed.2⟩
  -- The payload's error is returned early, as `unlessErr` does.
  convert tail using 1
  funext reader
  rw [ReaderM.bind_eq, unlessErr]
  rcases decodeAuth oqs tag reader with ⟨_ | _ | _, after⟩ <;> rfl

/-- Running `decode` is running the whole-transaction parser. -/
theorem decode_settles (oqs : Oqs) (data : Bytes) :
    match Parse.transaction (expectedPubkeySize oqs) (expectedSigSize oqs) data with
    | .ok (tx, _) => decode oqs data = .ok tx
    | .error violation => ∃ error, decode oqs data = .err error ∧
        (data ≠ [] → error.code = violation.code) := by
  by_cases empty : data = []
  · subst empty
    exact ⟨_, rfl, fun nonempty => absurd rfl nonempty⟩
  · have small : 0 + decodeBudget < sizeModulus := by decide
    have room : (Reader.ofData data).Room decodeBudget := ⟨Nat.zero_le _, small⟩
    have ran := decodeBody_settles oqs (Reader.ofData data) room
    rw [Reader.rest, Reader.ofData, List.drop_zero] at ran
    rw [decode, if_neg empty]
    cases parsed : Parse.transaction (expectedPubkeySize oqs) (expectedSigSize oqs) data with
    | ok taken =>
        rw [parsed] at ran
        obtain ⟨after, returned, -⟩ := ran
        rw [Reader.ofData, returned]
        rfl
    | error violation =>
        rw [parsed] at ran
        obtain ⟨error, settled, coded⟩ := ran
        exact ⟨error, settled, fun _ => coded⟩

/-- `decode` accepts exactly the layouts of the transactions it takes for well formed. -/
theorem decode_ok_iff {oqs : Oqs} {data : Bytes} {tx : Transaction} :
    decode oqs data = .ok tx ↔
      WellFormed (expectedPubkeySize oqs) (expectedSigSize oqs) tx ∧ Representable tx ∧
        data = txLayout tx := by
  have ran := decode_settles oqs data
  constructor
  · intro decoded
    cases parsed : Parse.transaction (expectedPubkeySize oqs) (expectedSigSize oqs) data with
    | error violation =>
        rw [parsed] at ran
        obtain ⟨error, failed, -⟩ := ran
        rw [decoded] at failed
        cases failed
    | ok taken =>
        obtain ⟨parsedTx, rest⟩ := taken
        rw [parsed] at ran
        have same : parsedTx = tx := Result.ok.inj (ran.symm.trans decoded)
        obtain ⟨wellFormed, representable, laidOut, -⟩ := transaction_ok_iff.mp parsed
        exact same ▸ ⟨wellFormed, representable, laidOut⟩
  · rintro ⟨wellFormed, representable, laidOut⟩
    rw [transaction_ok_iff.mpr ⟨wellFormed, representable, laidOut, rfl⟩] at ran
    exact ran

end PqcLedger.Codec
