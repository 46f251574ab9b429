import PqcLedger.Crypto.Hasher
import PqcLedger.Cxx.Loops
import PqcLedger.Semantics.Runs

/-!
# The hasher stays inside its buffers

The class `hash256_one_by_one` under any sequence of calls. `process` and `finish`
with every range, write and assertion checked meet no fault and do the same: less
than a block is ever left over, so the array of one block that `finish` fills is
large enough, and the branch that the source keeps for a warning is not taken.
-/

namespace PqcLedger.Picosha2

open PqcLedger.Cxx Semantics

namespace Hash256OneByOne

/-! ## The calls with their operations checked -/

/-- `hash256_block`, which asserts that its range is one block. -/
def hash256BlockChecked (h : MessageDigest) (block : Bytes) : Checked MessageDigest :=
  if block.length = 64 then .ok (hash256Block h block) else .error .rangeOutside

/-- The index of the block loop, and the digest so far. -/
structure BlockCursor where
  i : Nat
  h : MessageDigest

/-- The test `i + 64 <= buffer_.size()`. -/
def blockTest (buffer : Bytes) (cursor : BlockCursor) : Checked Bool := do
  let stop ← checkedAdd cursor.i 64
  pure (stop ≤ buffer.length)

/-- A round of the block loop, on a range inside the buffer. -/
def blockRound (buffer : Bytes) (cursor : BlockCursor) : CheckedExit Empty BlockCursor := do
  let last ← checkedAdd cursor.i 64
  let block ← checkedRange buffer cursor.i last
  let h ← hash256BlockChecked cursor.h block
  let i ← checkedAdd cursor.i 64
  pure ⟨i, h⟩

/-- The end of `process`: the bytes up to the index are erased. -/
def eraseFront (digits : List Word) (buffer : Bytes) (cursor : BlockCursor) :
    Checked Hash256OneByOne := do
  let rest ← checkedRange buffer cursor.i buffer.length
  pure ⟨rest, digits, cursor.h⟩

/-- `process` by its loop, in at most so many rounds. -/
def processChecked (fuel : Nat) (hasher : Hash256OneByOne) (chunk : Bytes) :
    Option (Checked Hash256OneByOne) :=
  let buffer := hasher.buffer ++ chunk
  let digits := addToDataLength (UInt64.ofNat chunk.length) hasher.dataLengthDigits
  (whileLoop (blockTest buffer) (blockRound buffer) fuel ⟨0, hasher.h⟩).map fun
    | .error fault => .error fault
    | .ok (.ok cursor) => eraseFront digits buffer cursor

/-- `std::copy` into an array, from one of its places on. -/
def checkedCopy (target : Bytes) (offset : Nat) (source : Bytes) : Checked Bytes :=
  if offset + source.length ≤ target.length then
    .ok (target.take offset ++ source ++ target.drop (offset + source.length))
  else .error .rangeOutside

/-- `array[index] = value`. -/
def checkedPut (array : Bytes) (index : Nat) (value : UInt8) : Checked Bytes :=
  if index < array.length then .ok (array.set index value) else .error .indexOutside

/-- `std::fill` with zeros between two places of an array. -/
def checkedFill (array : Bytes) (first last : Nat) : Checked Bytes :=
  if first ≤ last ∧ last ≤ array.length then .ok (fill array first last) else .error .rangeOutside

/-- `assert`, whose failure counts as an access outside. -/
def asserted (condition : Prop) [Decidable condition] : Checked Unit :=
  if condition then .ok () else .error .indexOutside

/-- `finish`, with its writes into the array of one block. -/
def finishChecked (hasher : Hash256OneByOne) : Checked Hash256OneByOne := do
  let temp ← checkedCopy (List.replicate 64 0) 0 hasher.buffer
  asserted (hasher.buffer.length < 64)
  let remains := if hasher.buffer.length ≥ 64 then 63 else hasher.buffer.length
  let temp ← checkedPut temp remains 0x80
  if remains > 55 then
    let temp ← checkedFill temp (remains + 1) 64
    let h ← hash256BlockChecked hasher.h temp
    let temp ← checkedFill temp 0 60
    let temp ← checkedCopy temp 56 (writeDataBitLength hasher.dataLengthDigits)
    let h ← hash256BlockChecked h temp
    pure { hasher with h }
  else
    let temp ← checkedFill temp (remains + 1) 60
    let temp ← checkedCopy temp 56 (writeDataBitLength hasher.dataLengthDigits)
    let h ← hash256BlockChecked hasher.h temp
    pure { hasher with h }

end Hash256OneByOne

/-- A call on a hasher. -/
inductive HasherCall where
  | init
  | process (chunk : Bytes)
  | finish

open Hash256OneByOne

/-- The call on the hasher of the model. -/
def HasherCall.run : HasherCall → Hash256OneByOne → Hash256OneByOne
  | .init, _ => Hash256OneByOne.init
  | .process chunk, hasher => hasher.process chunk
  | .finish, hasher => hasher.finish

/-- The call on the hasher with its operations checked. -/
def HasherCall.runChecked (fuel : Nat) :
    HasherCall → Hash256OneByOne → Option (Checked Hash256OneByOne)
  | .init, _ => some (.ok Hash256OneByOne.init)
  | .process chunk, hasher => processChecked fuel hasher chunk
  | .finish, hasher => some (finishChecked hasher)

namespace Hash256OneByOne

/-- Less than a block is left over, and the length has its four digits. -/
structure Small (hasher : Hash256OneByOne) : Prop where
  short : hasher.buffer.length < 64
  digits : hasher.dataLengthDigits.length = 4

/-! ## `process` -/

variable {buffer : Bytes} {cursor : BlockCursor}

/-- What the block loop still returns from a cursor. -/
def blocksFrom (buffer : Bytes) (cursor : BlockCursor) : Except Empty (MessageDigest × Bytes) :=
  .ok (processBlocks ((buffer.length - cursor.i) / 64) cursor.h (buffer.drop cursor.i))

theorem blockRound_step (short : buffer.length < 2 ^ 63 + 64)
    (whole : cursor.i + 64 ≤ buffer.length) :
    RoundOf (blockRound buffer) (fun cursor => cursor.i ≤ buffer.length)
      (fun cursor => buffer.length - cursor.i) (blocksFrom buffer) cursor
        (.ok ⟨cursor.i + 64, hash256Block cursor.h ((buffer.drop cursor.i).take 64)⟩) := by
  have fits : cursor.i + 64 < sizeModulus := by
    rw [sizeModulus]
    omega
  have block : ((buffer.drop cursor.i).take 64).length = 64 := by
    rw [List.length_take, List.length_drop]
    omega
  have range : checkedRange buffer cursor.i (cursor.i + 64) =
      .ok ((buffer.drop cursor.i).take 64) := by
    rw [checkedRange_of_le (by omega) whole, Nat.add_sub_cancel_left]
  refine ⟨?_, ?_, ?_⟩
  · rw [blockRound, checkedAdd_of_lt fits, CheckedExit.safe, pure_bind, range, CheckedExit.safe,
      pure_bind, hash256BlockChecked, if_pos block]
    rfl
  · rintro next ⟨⟩
    refine ⟨whole, ?_⟩
    change buffer.length - (cursor.i + 64) < _
    omega
  · have count : (buffer.length - cursor.i) / 64 =
        (buffer.length - (cursor.i + 64)) / 64 + 1 := by omega
    rw [blocksFrom, count, processBlocks, List.drop_drop]
    rfl

theorem blockLoop_steps (short : buffer.length < 2 ^ 63 + 64) :
    LoopOf (blockTest buffer) (blockRound buffer) (fun cursor => cursor.i ≤ buffer.length)
      (fun cursor => buffer.length - cursor.i) (blocksFrom buffer)
      (fun cursor => (cursor.h, buffer.drop cursor.i)) := by
  intro cursor inside
  have fits : cursor.i + 64 < sizeModulus := by
    rw [sizeModulus]
    omega
  rw [blockTest, checkedAdd_of_lt fits]
  by_cases whole : cursor.i + 64 ≤ buffer.length
  · refine .inr ⟨?_, _, blockRound_step short whole⟩
    simp [whole]
  · refine .inl ⟨by simp [whole], ?_⟩
    have none : (buffer.length - cursor.i) / 64 = 0 := by omega
    rw [blocksFrom, none, processBlocks]

variable {hasher : Hash256OneByOne} {chunk : Bytes} {fuel : Nat}

theorem eraseFront_of_le (inside : cursor.i ≤ buffer.length) (digits : List Word) :
    eraseFront digits buffer cursor = .ok ⟨buffer.drop cursor.i, digits, cursor.h⟩ := by
  rw [eraseFront, checkedRange_of_le inside (Nat.le_refl _), ← List.length_drop, List.take_length]
  rfl

theorem processChecked_eq (small : hasher.Small) (sized : chunk.length < 2 ^ 63)
    (enough : chunk.length + 64 < fuel) :
    processChecked fuel hasher chunk = some (.ok (hasher.process chunk)) := by
  have size : (hasher.buffer ++ chunk).length = hasher.buffer.length + chunk.length :=
    List.length_append
  have leftOver := small.short
  have short : (hasher.buffer ++ chunk).length < 2 ^ 63 + 64 := by omega
  have start : (BlockCursor.mk 0 hasher.h).i ≤ (hasher.buffer ++ chunk).length := Nat.zero_le _
  have near : (hasher.buffer ++ chunk).length - (BlockCursor.mk 0 hasher.h).i < fuel := by
    change (hasher.buffer ++ chunk).length - 0 < fuel
    omega
  obtain ⟨stopped, stops, computes, ended⟩ := whileLoop_ends (blockLoop_steps short) start near
  cases stopped with
  | error early => cases early
  | ok cursor =>
      have blocks : (cursor.h, (hasher.buffer ++ chunk).drop cursor.i) =
          processBlocks ((hasher.buffer ++ chunk).length / 64) hasher.h (hasher.buffer ++ chunk) :=
        Except.ok.inj computes
      have erased := eraseFront_of_le (ended cursor rfl).1
        (addToDataLength (UInt64.ofNat chunk.length) hasher.dataLengthDigits)
      rw [processChecked, stops, process, ← blocks]
      exact congrArg some erased

theorem carryDigits_length (carry : Word) (digits : List Word) :
    (carryDigits carry digits).length = digits.length := by
  induction digits generalizing carry with
  | nil => rfl
  | cons digit rest ih =>
      rw [carryDigits]
      split
      · rw [List.length_cons, ih, List.length_cons]
      · rfl

/-- A call of `process` leaves less than a block over. -/
theorem process_small (small : hasher.Small) (chunk : Bytes) : (hasher.process chunk).Small := by
  constructor
  case short =>
      have taken : (hasher.buffer ++ chunk).length / 64 * 64 ≤ (hasher.buffer ++ chunk).length :=
        Nat.div_mul_le_self _ _
      rw [process, processBlocks_eq taken]
      change ((hasher.buffer ++ chunk).drop _).length < 64
      rw [List.length_drop]
      omega
  case digits =>
      change (addToDataLength _ hasher.dataLengthDigits).length = 4
      have four := small.digits
      cases digits : hasher.dataLengthDigits with
      | nil =>
          rw [digits] at four
          cases four
      | cons digit rest =>
          rw [digits] at four
          rw [addToDataLength, carryDigits_length]
          exact four

/-! ## `finish` -/

theorem shiftWords_length (carry : Word) (digits : List Word) :
    (shiftWords carry digits).length = digits.length := by
  induction digits generalizing carry with
  | nil => rfl
  | cons digit rest ih => rw [shiftWords, List.length_cons, ih, List.length_cons]

theorem writeDataBitLength_length (small : hasher.Small) :
    (writeDataBitLength hasher.dataLengthDigits).length = 8 := by
  rw [writeDataBitLength, List.length_flatMap]
  simp [shiftWords_length, small.digits]

theorem checkedCopy_start {source : Bytes} (fits : source.length ≤ 64) :
    checkedCopy (List.replicate 64 0) 0 source =
      .ok (source ++ List.replicate (64 - source.length) 0) := by
  have room : 0 + source.length ≤ (List.replicate 64 0 : Bytes).length := by
    rw [List.length_replicate]
    omega
  rw [checkedCopy, if_pos room, List.take_zero, List.nil_append, List.drop_replicate, Nat.zero_add]

theorem checkedCopy_end {target source : Bytes} (sized : target.length = 64)
    (eight : source.length = 8) :
    checkedCopy target 56 source = .ok (target.take 56 ++ source) := by
  rw [checkedCopy, if_pos (by omega), List.drop_eq_nil_of_le (by omega), List.append_nil]

theorem fill_length {array : Bytes} {first last : Nat} (ordered : first ≤ last)
    (inside : last ≤ array.length) : (fill array first last).length = array.length := by
  rw [fill, List.length_append, List.length_append, List.length_take, List.length_replicate,
    List.length_drop]
  omega

theorem checkedFill_of_le {array : Bytes} {first last : Nat} (ordered : first ≤ last)
    (inside : last ≤ array.length) : checkedFill array first last = .ok (fill array first last) :=
  if_pos ⟨ordered, inside⟩

/-- A block that ends in the length is compressed. -/
theorem hash256BlockChecked_length (small : hasher.Small) {temp : Bytes} (sized : temp.length = 64)
    (h : MessageDigest) :
    (do let temp ← checkedCopy temp 56 (writeDataBitLength hasher.dataLengthDigits)
        hash256BlockChecked h temp) =
      .ok (hash256Block h (temp.take 56 ++ writeDataBitLength hasher.dataLengthDigits)) := by
  have eight := writeDataBitLength_length small
  have block : (temp.take 56 ++ writeDataBitLength hasher.dataLengthDigits).length = 64 := by
    rw [List.length_append, List.length_take, eight, sized]
    rfl
  rw [checkedCopy_end sized eight, Checked.bind_ok, hash256BlockChecked, if_pos block]

theorem checkedPut_of_lt {array : Bytes} {index : Nat} (inside : index < array.length)
    (value : UInt8) : checkedPut array index value = .ok (array.set index value) :=
  if_pos inside

theorem finishChecked_eq (small : hasher.Small) : finishChecked hasher = .ok hasher.finish := by
  have short := small.short
  have notFull : ¬ hasher.buffer.length ≥ 64 := Nat.not_le_of_lt short
  have size :
      (hasher.buffer ++ List.replicate (64 - hasher.buffer.length) 0).length = 64 := by
    rw [List.length_append, List.length_replicate]
    omega
  simp only [finishChecked, finish, checkedCopy_start (Nat.le_of_lt short), Checked.bind_ok,
    asserted, if_pos short, if_neg notFull, checkedPut_of_lt (size.symm ▸ short)]
  generalize marked : (hasher.buffer ++ List.replicate (64 - hasher.buffer.length) 0).set
    hasher.buffer.length 0x80 = temp
  have sized : temp.length = 64 := by rw [← marked, List.length_set, size]
  split
  case isTrue full =>
      have ordered : hasher.buffer.length + 1 ≤ 64 := short
      have first : (fill temp (hasher.buffer.length + 1) 64).length = 64 := by
        rw [fill_length ordered (Nat.le_of_eq sized.symm), sized]
      have second : (fill (fill temp (hasher.buffer.length + 1) 64) 0 60).length = 64 := by
        rw [fill_length (Nat.zero_le 60) (by omega), first]
      have last := hash256BlockChecked_length small second
        (hash256Block hasher.h (fill temp (hasher.buffer.length + 1) 64))
      rw [checkedFill_of_le ordered (Nat.le_of_eq sized.symm), Checked.bind_ok, hash256BlockChecked,
        if_pos first, Checked.bind_ok, checkedFill_of_le (Nat.zero_le 60) (by omega),
        Checked.bind_ok, ← bind_assoc, last]
      rfl
  case isFalse fits =>
      have ordered : hasher.buffer.length + 1 ≤ 60 := by omega
      have filled : (fill temp (hasher.buffer.length + 1) 60).length = 64 := by
        rw [fill_length ordered (by omega), sized]
      have last := hash256BlockChecked_length small filled hasher.h
      rw [checkedFill_of_le ordered (by omega), Checked.bind_ok, ← bind_assoc, last]
      rfl

/-! ## Any sequence of calls -/

theorem init_small : init.Small := ⟨by decide, rfl⟩

/-- `finish` writes the digest only. -/
theorem finish_keeps (small : hasher.Small) :
    hasher.finish.buffer = hasher.buffer ∧
      hasher.finish.dataLengthDigits = hasher.dataLengthDigits := by
  simp only [finish, if_neg (Nat.not_le_of_lt small.short)]
  constructor
  · split <;> rfl
  · split <;> rfl

theorem run_small (small : hasher.Small) (call : HasherCall) : (call.run hasher).Small := by
  cases call with
  | init => exact init_small
  | process chunk => exact process_small small chunk
  | finish =>
      obtain ⟨buffer, digits⟩ := finish_keeps small
      exact ⟨buffer.symm ▸ small.short, digits.symm ▸ small.digits⟩

end Hash256OneByOne

/-- One call, as a step on the hasher. -/
def Calls (hasher : Hash256OneByOne) (call : HasherCall) (after : Hash256OneByOne) : Prop :=
  call.run hasher = after

/-- The chunk of a call has a length that a pointer difference can hold, and the fuel
exceeds what its loop may have to read. -/
def HasherCall.Sized (fuel : Nat) : HasherCall → Prop
  | .process chunk => chunk.length < 2 ^ 63 ∧ chunk.length + 64 < fuel
  | _ => True

/-- Through any sequence of calls, in any order, less than a block is left over, and the
next call, whichever it is, meets no fault and fails no assertion. -/
theorem hasher_stays_inside {calls : List HasherCall} {hasher : Hash256OneByOne}
    (run : Run Calls init calls hasher) :
    hasher.buffer.length < 64 ∧ ∀ fuel call, HasherCall.Sized fuel call →
      call.runChecked fuel hasher = some (.ok (call.run hasher)) := by
  have invariant : Invariant Calls init Small := by
    refine ⟨init_small, ?_⟩
    rintro hasher call after small rfl
    exact run_small small call
  have small := invariant.of_run run
  refine ⟨small.short, fun fuel call sized => ?_⟩
  cases call with
  | init => rfl
  | process chunk => exact processChecked_eq small sized.1 sized.2
  | finish => exact congrArg some (finishChecked_eq small)

/-- Bytes processed after a digest was finished. -/
theorem hasher_stays_inside_again :
    (HasherCall.process [0x63]).runChecked 66 ((init.process [0x61, 0x62]).finish) =
      some (.ok ((init.process [0x61, 0x62]).finish.process [0x63])) := by
  have run : Run Calls init ([.process [0x61, 0x62]] ++ [.finish])
      (init.process [0x61, 0x62]).finish := .snoc (.snoc .nil rfl) rfl
  exact (hasher_stays_inside run).2 66 (.process [0x63]) ⟨by decide, by decide⟩

end PqcLedger.Picosha2
