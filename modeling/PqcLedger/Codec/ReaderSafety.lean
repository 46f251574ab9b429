import PqcLedger.Codec.DecodeParse
import PqcLedger.Cxx.Checked
import PqcLedger.Semantics.Runs

/-!
# The cursor stays inside its buffer

The reads of the `Reader`, in any order and however they end. The same reads with
every sum, difference and access checked meet no fault and do the same; each one
that succeeds consumes the bytes of its value, and each one that throws leaves
the cursor where it was, or behind the length prefix that it has read.
-/

namespace PqcLedger.Codec

open PqcLedger.Cxx Framing Semantics

/-! ## The reader with its operations checked -/

/-- A computation over a reader that may throw, and stops at an unsafe operation. -/
def CheckedReaderM (α : Type) := Reader → Checked (Throws α × Reader)

namespace Reader

/-- `has_bytes`, whose sum must not wrap. -/
def hasBytesChecked (reader : Reader) (n : Nat) : Checked Bool := do
  let stop ← checkedAdd reader.pos n
  pure (stop ≤ reader.data.length)

/-- `remaining`, whose difference must not wrap. -/
def remainingChecked (reader : Reader) : Checked Nat :=
  checkedSub reader.data.length reader.pos

/-- Move the cursor forward, without wrapping. -/
def advanceChecked (reader : Reader) (count : Nat) : Checked Reader := do
  let pos ← checkedAdd reader.pos count
  pure { reader with pos }

/-- The `count` bytes at the cursor, each under an index computed for it. -/
def bytesChecked (reader : Reader) (count : Nat) : Checked Bytes :=
  (List.range count).mapM fun i => do
    let index ← checkedAdd reader.pos i
    checkedIndex reader.data index

end Reader

/-- The shape shared by the bounded reads. -/
def readBoundedChecked {α : Type} (count : Nat) (value : (Nat → UInt8) → α) :
    CheckedReaderM α := fun reader => do
  if ← reader.hasBytesChecked count then
    let bytes ← reader.bytesChecked count
    let after ← reader.advanceChecked count
    pure (.ok (value fun i => bytes.getD i 0), after)
  else pure (.error unexpectedEnd, reader)

/-- Read a byte. -/
def readU8Checked : CheckedReaderM UInt8 := readBoundedChecked 1 fun byte => byte 0

/-- Read a word of two bytes. -/
def readU16BeChecked : CheckedReaderM UInt16 := readBoundedChecked 2 fun byte =>
  ((byte 0).toUInt16 <<< 8) ||| (byte 1).toUInt16

/-- Read a word of four bytes. -/
def readU32BeChecked : CheckedReaderM UInt32 := readBoundedChecked 4 fun byte =>
  ((byte 0).toUInt32 <<< 24) ||| ((byte 1).toUInt32 <<< 16) |||
    ((byte 2).toUInt32 <<< 8) ||| (byte 3).toUInt32

/-- Read a word of eight bytes. -/
def readU64BeChecked : CheckedReaderM UInt64 := readBoundedChecked 8 fun byte =>
  ((byte 0).toUInt64 <<< 56) ||| ((byte 1).toUInt64 <<< 48) |||
    ((byte 2).toUInt64 <<< 40) ||| ((byte 3).toUInt64 <<< 32) |||
    ((byte 4).toUInt64 <<< 24) ||| ((byte 5).toUInt64 <<< 16) |||
    ((byte 6).toUInt64 <<< 8) ||| (byte 7).toUInt64

/-- Read so many bytes, between two iterators inside the buffer. -/
def readBytesChecked (n : Nat) : CheckedReaderM Bytes := fun reader => do
  if ← reader.hasBytesChecked n then
    let stop ← checkedAdd reader.pos n
    let result ← checkedRange reader.data reader.pos stop
    let after ← reader.advanceChecked n
    pure (.ok result, after)
  else pure (.error unexpectedEnd, reader)

/-- The body of `read_bytes_with_len`, once the length is read. -/
def readAnnouncedChecked (len : Nat) : CheckedReaderM Bytes := fun reader => do
  let remaining ← reader.remainingChecked
  -- The message of the exception asks for the remaining bytes once more.
  if len > remaining then pure (.error (lengthPrefixMismatch len remaining), reader)
  else readBytesChecked len reader

/-- Read a byte string behind its length. -/
def readBytesWithLenChecked : CheckedReaderM Bytes := fun reader => do
  match ← readU16BeChecked reader with
  | (.ok len, after) => readAnnouncedChecked len.toNat after
  | (.error thrown, after) => pure (.error thrown, after)

/-! ## Checked and unchecked reads agree -/

namespace Reader

variable {reader : Reader} {count : Nat}

theorem hasBytesChecked_eq (room : reader.Room count) :
    reader.hasBytesChecked count = .ok (reader.hasBytes count) := by
  rw [hasBytesChecked, checkedAdd_of_lt room.unwrapped, hasBytes, sizeAdd_of_lt room.unwrapped]
  rfl

theorem remainingChecked_eq (room : reader.Room count) :
    reader.remainingChecked = .ok reader.remaining := by
  rw [remainingChecked, checkedSub_of_le room.inside, remaining, sizeSub_of_le room.inside]

theorem advanceChecked_eq (room : reader.Room count) :
    reader.advanceChecked count = .ok (reader.advance count) := by
  rw [advanceChecked, checkedAdd_of_lt room.unwrapped, advance, sizeAdd_of_lt room.unwrapped]
  rfl

/-- Behind the bounds check every index is in range. -/
theorem bytesChecked_eq (room : reader.Room count) (enough : count ≤ reader.rest.length) :
    reader.bytesChecked count =
      .ok ((List.range count).map fun i => reader.data.getD (reader.pos + i) 0) := by
  refine Checked.mapM_ok fun i member => ?_
  have below : i < count := List.mem_range.mp member
  have inside := room.inside
  have unwrapped := room.unwrapped
  rw [rest_length] at enough
  have indexFits : reader.pos + i < sizeModulus := by omega
  have indexInside : reader.pos + i < reader.data.length := by omega
  rw [checkedAdd_of_lt indexFits]
  exact checkedIndex_of_lt indexInside

end Reader

variable {α : Type} {reader : Reader} {count : Nat}

/-- A bounded read, given that its value depends on the bytes read only. -/
theorem readBoundedChecked_eq {value : (Nat → UInt8) → α}
    (bounded : ∀ left right : Nat → UInt8, (∀ i < count, left i = right i) →
      value left = value right)
    (room : reader.Room count) :
    readBoundedChecked count value reader = .ok (readBounded count value reader) := by
  rw [readBoundedChecked, Reader.hasBytesChecked_eq room, Checked.bind_ok, readBounded]
  by_cases enough : count ≤ reader.rest.length
  · have has := (Reader.hasBytes_iff room).mpr enough
    have same : (value fun i => ((List.range count).map fun i =>
        reader.data.getD (reader.pos + i) 0).getD i 0) =
          value fun i => reader.data.getD (reader.pos + i) 0 := by
      refine bounded _ _ fun i below => ?_
      simp [List.getD_eq_getElem?_getD, below]
    rw [if_pos has, if_pos has, Reader.bytesChecked_eq room enough, Checked.bind_ok,
      Reader.advanceChecked_eq room, Checked.bind_ok, same]
    rfl
  · have hasNot := mt (Reader.hasBytes_iff room).mp enough
    rw [if_neg hasNot, if_neg hasNot]
    rfl

theorem readU8Checked_eq (room : reader.Room 1) : readU8Checked reader = .ok (readU8 reader) :=
  readBoundedChecked_eq (fun left right same => same 0 (by decide)) room

theorem readU16BeChecked_eq (room : reader.Room 2) :
    readU16BeChecked reader = .ok (readU16Be reader) :=
  readBoundedChecked_eq (fun left right same => by
    simp only [same 0 (by decide), same 1 (by decide)]) room

theorem readU32BeChecked_eq (room : reader.Room 4) :
    readU32BeChecked reader = .ok (readU32Be reader) :=
  readBoundedChecked_eq (fun left right same => by
    simp only [same 0 (by decide), same 1 (by decide), same 2 (by decide),
      same 3 (by decide)]) room

theorem readU64BeChecked_eq (room : reader.Room 8) :
    readU64BeChecked reader = .ok (readU64Be reader) :=
  readBoundedChecked_eq (fun left right same => by
    simp only [same 0 (by decide), same 1 (by decide), same 2 (by decide), same 3 (by decide),
      same 4 (by decide), same 5 (by decide), same 6 (by decide), same 7 (by decide)]) room

theorem readBytesChecked_eq (room : reader.Room count) :
    readBytesChecked count reader = .ok (readBytes count reader) := by
  rw [readBytesChecked, Reader.hasBytesChecked_eq room, Checked.bind_ok, readBytes]
  by_cases enough : count ≤ reader.rest.length
  · have has := (Reader.hasBytes_iff room).mpr enough
    have ordered : reader.pos ≤ reader.pos + count := Nat.le_add_right _ _
    have inside : reader.pos + count ≤ reader.data.length := by
      have inside := room.inside
      rw [Reader.rest_length] at enough
      omega
    rw [if_pos has, if_pos has, checkedAdd_of_lt room.unwrapped, Checked.bind_ok,
      checkedRange_of_le ordered inside, Checked.bind_ok, Reader.advanceChecked_eq room,
      Checked.bind_ok, Nat.add_sub_cancel_left]
    rfl
  · have hasNot := mt (Reader.hasBytes_iff room).mp enough
    rw [if_neg hasNot, if_neg hasNot]
    rfl

theorem readAnnouncedChecked_eq {length : Nat} (room : reader.Room length) :
    readAnnouncedChecked length reader = .ok (readAnnounced length reader) := by
  rw [readAnnouncedChecked, Reader.remainingChecked_eq room, Checked.bind_ok, readAnnounced]
  by_cases exceeds : length > reader.remaining
  · rw [if_pos exceeds, if_pos exceeds]
    rfl
  · rw [if_neg exceeds, if_neg exceeds, readBytesChecked_eq room]

/-! ## What a read does to the cursor -/

/-- The cursor is inside a buffer that leaves room for the longest field. -/
structure Reader.Inside (reader : Reader) : Prop where
  inside : reader.pos ≤ reader.data.length
  small : reader.data.length + maxPrefixed < sizeModulus

theorem Reader.Inside.room (inside : reader.Inside) (short : count ≤ maxPrefixed) :
    reader.Room count where
  inside := inside.inside
  unwrapped := by
    have bounded := inside.inside
    have small := inside.small
    omega

/-- A read by its outcome: it consumes the layout of the value that it returns, or
throws with the cursor in place or behind `kept` bytes of a prefix. -/
structure Accounted (layout : α → Bytes) (kept : Nat) (reader : Reader)
    (ran : Throws α × Reader) : Prop where
  data : ran.2.data = reader.data
  inside : ran.2.pos ≤ ran.2.data.length
  consumed : ∀ value, ran.1 = .ok value → reader.rest = layout value ++ ran.2.rest ∧
    ran.2.pos = reader.pos + (layout value).length
  failed : ∀ thrown, ran.1 = .error thrown → ran.2.pos = reader.pos ∨
    ran.2.pos = reader.pos + kept

theorem Accounted.insideAfter {layout : α → Bytes} {kept : Nat} {ran : Throws α × Reader}
    (accounted : Accounted layout kept reader ran) (inside : reader.Inside) : ran.2.Inside where
  inside := accounted.inside
  small := by
    rw [accounted.data]
    exact inside.small

/-- Between cursors of one buffer lie the bytes that one has ahead of the other. -/
theorem Reader.pos_of_rest {after : Reader} {front : Bytes} (sameData : after.data = reader.data)
    (inside : reader.pos ≤ reader.data.length) (afterInside : after.pos ≤ after.data.length)
    (split : reader.rest = front ++ after.rest) : after.pos = reader.pos + front.length := by
  have lengths := congrArg List.length split
  rw [List.length_append, Reader.rest_length, Reader.rest_length] at lengths
  rw [sameData] at lengths afterInside
  omega

/-- A read that simulates a parser of a layout consumes the layout of its value. -/
theorem Simulates.consumed {budget : Nat} {action : ReaderM α} {parser : WireParser α}
    {admits : α → Prop} {layout : α → Bytes} (simulates : Simulates budget action parser)
    (recognizes : Recognizes parser admits layout) (room : reader.Room budget) {value : α}
    {after : Reader} (ran : action reader = (.ok value, after)) :
    after.pos ≤ after.data.length ∧ admits value ∧ reader.rest = layout value ++ after.rest := by
  have run := simulates reader room
  have returned : returning action reader = (.ok (.ok value), after) := by
    rw [returning, ran]
    rfl
  cases parsed : parser reader.rest with
  | error violation =>
      rw [parsed] at run
      obtain ⟨error, settled, -⟩ := run
      rw [returned] at settled
      cases settled
  | ok taken =>
      obtain ⟨parsedValue, rest⟩ := taken
      rw [parsed] at run
      obtain ⟨final, finished, inside, -, rfl⟩ := run
      rw [returned] at finished
      cases finished
      exact ⟨inside, recognizes.ok_iff.mp parsed⟩

/-- A read of a fixed number of bytes either returns and advances past them, or
throws and stays. -/
def Bounded (count : Nat) (action : ReaderM α) : Prop :=
  ∀ reader, (∃ value, action reader = (.ok value, reader.advance count)) ∨
    ∃ thrown, action reader = (.error thrown, reader)

theorem bounded_of_check (count : Nat) (value : Reader → α) : Bounded count fun reader =>
    if reader.hasBytes count then (.ok (value reader), reader.advance count)
    else (.error unexpectedEnd, reader) := by
  intro reader
  by_cases has : reader.hasBytes count = true
  · exact .inl ⟨_, if_pos has⟩
  · exact .inr ⟨_, if_neg has⟩

theorem readBounded_bounded (count : Nat) (value : (Nat → UInt8) → α) :
    Bounded count (readBounded count value) :=
  bounded_of_check count _

theorem readBytes_bounded (count : Nat) : Bounded count (readBytes count) :=
  bounded_of_check count _

/-- Such a read is accounted for by the layout that it recognises. -/
theorem Bounded.accounted {action : ReaderM α} {parser : WireParser α} {admits : α → Prop}
    {layout : α → Bytes} (bounded : Bounded count action)
    (simulates : Simulates count action parser) (recognizes : Recognizes parser admits layout)
    (room : reader.Room count) : Accounted layout 0 reader (action reader) := by
  rcases bounded reader with ⟨value, ran⟩ | ⟨thrown, ran⟩
  · obtain ⟨inside, -, split⟩ := simulates.consumed recognizes room ran
    rw [ran]
    refine ⟨rfl, inside, ?_, nofun⟩
    rintro _ ⟨⟩
    exact ⟨split, Reader.pos_of_rest rfl room.inside inside split⟩
  · rw [ran]
    exact ⟨rfl, room.inside, nofun, fun _ _ => .inl rfl⟩

/-! ## Length-prefixed reads -/

theorem u16_maxPrefixed (length : UInt16) : length.toNat ≤ maxPrefixed :=
  Nat.le_of_lt_succ length.toNat_lt

theorem readU16Be_accounted (room : reader.Room 2) :
    Accounted u16Layout 0 reader (readU16Be reader) :=
  (readBounded_bounded 2 _).accounted readU16Be_simulates u16_recognizes room

/-- The field behind a prefix is raw bytes, or is refused before it is read. -/
theorem readAnnounced_accounted {length : Nat} (short : length ≤ maxPrefixed)
    (inside : reader.Inside) :
    Accounted (fun bytes => bytes) 0 reader (readAnnounced length reader) := by
  rw [readAnnounced]
  by_cases exceeds : length > reader.remaining
  · rw [if_pos exceeds]
    refine ⟨rfl, inside.inside, ?_, fun _ _ => .inl rfl⟩
    rintro _ ⟨⟩
  · rw [if_neg exceeds]
    exact (readBytes_bounded length).accounted readBytes_simulates
      (recognizes_take Violation.truncated length) (inside.room short)

theorem readAnnounced_sized {length : Nat} {bytes : Bytes} (short : length ≤ maxPrefixed)
    (inside : reader.Inside) (read : (readAnnounced length reader).1 = .ok bytes) :
    bytes.length = length := by
  have room := inside.room (Nat.le_refl maxPrefixed)
  obtain ⟨-, sized, -⟩ := (readAnnounced_simulates short).consumed
    (recognizes_take Violation.lengthExceeds length) room (Prod.ext read rfl)
  exact sized

/-- The prefix is consumed with the field, or alone where the field exceeds the buffer. -/
theorem readBytesWithLen_accounted (inside : reader.Inside) :
    Accounted prefixedLayout 2 reader (readBytesWithLen reader) := by
  have prefixRead := readU16Be_accounted (inside.room (by decide))
  rw [readBytesWithLen, ReaderM.bind_eq]
  rcases ran : readU16Be reader with ⟨thrown | length, after⟩
  · rw [ran] at prefixRead
    refine ⟨prefixRead.data, prefixRead.inside, nofun, fun _ _ => .inl ?_⟩
    exact (prefixRead.failed thrown rfl).elim id id
  · rw [ran] at prefixRead
    obtain ⟨prefixSplit, prefixPos⟩ := prefixRead.consumed length rfl
    have short := u16_maxPrefixed length
    have afterInside := prefixRead.insideAfter inside
    have field := readAnnounced_accounted short afterInside
    have behind : after.pos = reader.pos + 2 := by
      rw [prefixPos, u16Layout, bigEndian_length]
    refine ⟨field.data.trans prefixRead.data, field.inside, ?_, ?_⟩
    · intro bytes read
      obtain ⟨split, pos⟩ := field.consumed bytes read
      have sized := readAnnounced_sized short afterInside read
      constructor
      · rw [prefixSplit, split, prefixedLayout, sized, u16Layout, List.append_assoc]
      · rw [pos, behind, prefixedLayout_length, Nat.add_assoc]
    · intro thrown failed
      have stays := (field.failed thrown failed).elim id id
      exact .inr (stays.trans behind)

theorem readBytesWithLenChecked_eq (inside : reader.Inside) :
    readBytesWithLenChecked reader = .ok (readBytesWithLen reader) := by
  have room : reader.Room 2 := inside.room (by decide)
  have prefixRead := readU16Be_accounted room
  rw [readBytesWithLenChecked, readU16BeChecked_eq room, Checked.bind_ok, readBytesWithLen,
    ReaderM.bind_eq]
  rcases ran : readU16Be reader with ⟨thrown | length, after⟩
  · rfl
  · rw [ran] at prefixRead
    exact readAnnouncedChecked_eq
      ((prefixRead.insideAfter inside).room (u16_maxPrefixed length))

/-! ## Sequences of calls -/

/-- The reads that a `Reader` offers; a run of raw bytes is no longer than a field. -/
inductive ReadCall where
  | readU8
  | readU16Be
  | readU32Be
  | readU64Be
  | readBytes (n : Nat) (short : n ≤ 65535)
  | readBytesWithLen

namespace ReadCall

/-- What the read returns. -/
def Value : ReadCall → Type
  | .readU8 => UInt8
  | .readU16Be => UInt16
  | .readU32Be => UInt32
  | .readU64Be => UInt64
  | .readBytes _ _ => Bytes
  | .readBytesWithLen => Bytes

/-- The call on the reader of the model. -/
def run : (call : ReadCall) → ReaderM call.Value
  | .readU8 => Codec.readU8
  | .readU16Be => Codec.readU16Be
  | .readU32Be => Codec.readU32Be
  | .readU64Be => Codec.readU64Be
  | .readBytes n _ => Codec.readBytes n
  | .readBytesWithLen => Codec.readBytesWithLen

/-- The call on the reader with its operations checked. -/
def runChecked : (call : ReadCall) → CheckedReaderM call.Value
  | .readU8 => readU8Checked
  | .readU16Be => readU16BeChecked
  | .readU32Be => readU32BeChecked
  | .readU64Be => readU64BeChecked
  | .readBytes n _ => readBytesChecked n
  | .readBytesWithLen => readBytesWithLenChecked

/-- The bytes that a value is decoded from. -/
def layout : (call : ReadCall) → call.Value → Bytes
  | .readU8 => fun value => [value]
  | .readU16Be => u16Layout
  | .readU32Be => u32Layout
  | .readU64Be => u64Layout
  | .readBytes _ _ => fun bytes => bytes
  | .readBytesWithLen => prefixedLayout

/-- The bytes that a failing read may leave behind the cursor. -/
def kept : ReadCall → Nat
  | .readBytesWithLen => 2
  | _ => 0

theorem run_accounted (inside : reader.Inside) (call : ReadCall) :
    Accounted call.layout call.kept reader (call.run reader) := by
  cases call with
  | readU8 =>
      exact (readBounded_bounded 1 _).accounted readU8_simulates u8_recognizes
        (inside.room (by decide))
  | readU16Be =>
      exact (readBounded_bounded 2 _).accounted readU16Be_simulates u16_recognizes
        (inside.room (by decide))
  | readU32Be =>
      exact (readBounded_bounded 4 _).accounted readU32Be_simulates u32_recognizes
        (inside.room (by decide))
  | readU64Be =>
      exact (readBounded_bounded 8 _).accounted readU64Be_simulates u64_recognizes
        (inside.room (by decide))
  | readBytes n short =>
      exact (readBytes_bounded n).accounted readBytes_simulates
        (recognizes_take Violation.truncated n) (inside.room short)
  | readBytesWithLen => exact readBytesWithLen_accounted inside

theorem runChecked_eq (inside : reader.Inside) (call : ReadCall) :
    call.runChecked reader = .ok (call.run reader) := by
  cases call with
  | readU8 => exact readU8Checked_eq (inside.room (by decide))
  | readU16Be => exact readU16BeChecked_eq (inside.room (by decide))
  | readU32Be => exact readU32BeChecked_eq (inside.room (by decide))
  | readU64Be => exact readU64BeChecked_eq (inside.room (by decide))
  | readBytes n short => exact readBytesChecked_eq (inside.room short)
  | readBytesWithLen => exact readBytesWithLenChecked_eq inside

end ReadCall

/-- A call on the reader, whether it returns or throws, leaves this reader behind. -/
def Reads (reader : Reader) (call : ReadCall) (after : Reader) : Prop :=
  (call.run reader).2 = after

/-- The reader of this buffer, with its cursor inside. -/
structure Reader.Within (data : Bytes) (reader : Reader) : Prop where
  sameData : reader.data = data
  inside : reader.pos ≤ data.length

theorem Reader.Within.toInside {data : Bytes} (within : reader.Within data)
    (small : data.length + maxPrefixed < sizeModulus) : reader.Inside where
  inside := by
    rw [within.sameData]
    exact within.inside
  small := by
    rw [within.sameData]
    exact small

theorem within_invariant {data : Bytes} (small : data.length + maxPrefixed < sizeModulus) :
    Invariant Reads (Reader.ofData data) (Reader.Within data) where
  initial := ⟨rfl, Nat.zero_le _⟩
  preserved := by
    rintro reader call _ within rfl
    have accounted := call.run_accounted (within.toInside small)
    have sameData := accounted.data.trans within.sameData
    refine ⟨sameData, ?_⟩
    rw [← sameData]
    exact accounted.inside

/-- Whatever is called on the reader of a buffer, and however the calls end, its
cursor is inside the buffer. There the remaining bytes are counted without a
wrap, and every further call meets no unsafe operation; if it succeeds it
consumes the bytes of its value, if it throws the cursor stays or is behind the
prefix of a length-prefixed read. -/
theorem reader_stays_inside {data : Bytes} (small : data.length < 2 ^ 64 - 65536) :
    (∀ calls, ∃ reader, Run Reads (Reader.ofData data) calls reader) ∧
      ∀ calls reader, Run Reads (Reader.ofData data) calls reader →
        reader.data = data ∧ reader.pos ≤ data.length ∧
        reader.remainingChecked = .ok (data.length - reader.pos) ∧
        ∀ call : ReadCall, call.runChecked reader = .ok (call.run reader) ∧
          Accounted call.layout call.kept reader (call.run reader) := by
  have fits : data.length + maxPrefixed < sizeModulus := by
    rw [maxPrefixed, sizeModulus]
    omega
  have invariant := within_invariant fits
  refine ⟨invariant.run_exists fun reader _ call => ⟨_, rfl⟩, ?_⟩
  intro calls reader run
  have within := invariant.of_run run
  have remaining : reader.remainingChecked = .ok (data.length - reader.pos) := by
    rw [Reader.remainingChecked, within.sameData]
    exact checkedSub_of_le within.inside
  exact ⟨within.sameData, within.inside, remaining, fun call =>
    ⟨call.runChecked_eq (within.toInside fits), call.run_accounted (within.toInside fits)⟩⟩

/-- A field that exceeds its buffer, and a read behind its prefix. -/
theorem reader_stays_inside_oversized :
    Run Reads (Reader.ofData [0, 5, 1]) ([] ++ [.readBytesWithLen] ++ [.readU8]) ⟨[0, 5, 1], 3⟩ ∧
      readBytesWithLenChecked ⟨[0, 5, 1], 3⟩ = .ok (readBytesWithLen ⟨[0, 5, 1], 3⟩) := by
  have behindPrefix : Reads (Reader.ofData [0, 5, 1]) .readBytesWithLen ⟨[0, 5, 1], 2⟩ := rfl
  have run : Run Reads (Reader.ofData [0, 5, 1]) ([] ++ [.readBytesWithLen] ++ [.readU8])
      ⟨[0, 5, 1], 3⟩ := .snoc (.snoc .nil behindPrefix) rfl
  have small : ([0, 5, 1] : Bytes).length < 2 ^ 64 - 65536 := by decide
  obtain ⟨-, stays⟩ := reader_stays_inside small
  obtain ⟨-, -, -, calls⟩ := stays _ _ run
  exact ⟨run, (calls .readBytesWithLen).1⟩

end PqcLedger.Codec
