import PqcLedger.Crypto.Hash
import PqcLedger.Crypto.Sha256

/-!
# The incremental hasher

`hash256_one_by_one` of `third_party/picosha2/picosha2.h`: a buffer of bytes not
yet hashed, the byte count in four digits of sixteen bits, and the running
digest. Chunks are processed one by one, in any number and of any length, and
`finish` pads in an array of one block. The two forms of `hash256_impl` differ in
how they cut their input.
-/

namespace PqcLedger.Picosha2

open PqcLedger.Cxx Framing Hashing

/-- `hash256_one_by_one`: the bytes short of a block, the length so far and the digest. -/
structure Hash256OneByOne where
  buffer : Bytes
  /-- As a 64-bit integer of four digits, least significant first. -/
  dataLengthDigits : List Word
  h : MessageDigest

namespace Hash256OneByOne

/-- A hasher that has seen nothing. -/
def init : Hash256OneByOne where
  buffer := []
  dataLengthDigits := List.replicate 4 0
  h := initialMessageDigest

/-- The carry loop of `add_to_data_length`, which breaks at the first digit that fits. -/
def carryDigits : Word → List Word → List Word
  | _, [] => []
  | carry, digit :: rest =>
      if digit + carry ≥ 65536 then
        ((digit + carry) &&& 65535) :: carryDigits ((digit + carry) >>> 16) rest
      else
        (digit + carry) :: rest

/-- Add to the length, digit by digit. -/
def addToDataLength (n : Word) : List Word → List Word
  | [] => []
  | digit :: rest => carryDigits 0 ((digit + n) :: rest)

/-- Take more input: whole blocks are absorbed, what is left is kept. -/
def process (hasher : Hash256OneByOne) (chunk : Bytes) : Hash256OneByOne :=
  let buffer := hasher.buffer ++ chunk
  let (h, rest) := processBlocks (buffer.length / 64) hasher.h buffer
  { buffer := rest
    dataLengthDigits := addToDataLength (UInt64.ofNat chunk.length) hasher.dataLengthDigits
    h := h }

/-- The loop of `write_data_bit_length`: three bits are shifted from digit to digit. -/
def shiftWords : Word → List Word → List Word
  | _, [] => []
  | carry, beforeVal :: rest =>
      ((beforeVal <<< 3 ||| carry) &&& 65535) :: shiftWords ((beforeVal >>> 13) &&& 65535) rest

/-- The length in bits, the most significant byte first. -/
def writeDataBitLength (dataLengthDigits : List Word) : Bytes :=
  (shiftWords 0 dataLengthDigits).reverse.flatMap fun (digit : Word) =>
    [(digit >>> 8).toUInt8, digit.toUInt8]

/-- `std::fill` with zeros between two places of an array. -/
def fill (temp : Bytes) (first last : Nat) : Bytes :=
  temp.take first ++ List.replicate (last - first) 0 ++ temp.drop last

/-- Pad what is left, in one more block or in two. -/
def finish (hasher : Hash256OneByOne) : Hash256OneByOne :=
  let temp := hasher.buffer ++ List.replicate (64 - hasher.buffer.length) 0
  let remains := if hasher.buffer.length ≥ 64 then 63 else hasher.buffer.length
  let temp := temp.set remains 0x80
  if remains > 55 then
    let temp := fill temp (remains + 1) 64
    let h := hash256Block hasher.h temp
    let temp := fill temp 0 60
    { hasher with
      h := hash256Block h (temp.take 56 ++ writeDataBitLength hasher.dataLengthDigits) }
  else
    let temp := fill temp (remains + 1) 60
    { hasher with
      h := hash256Block hasher.h (temp.take 56 ++ writeDataBitLength hasher.dataLengthDigits) }

/-- The loop over input iterators: pieces of `bufferSize` bytes, the last one shorter. -/
def processPieces (bufferSize : Nat) : Nat → Hash256OneByOne → Bytes → Option Hash256OneByOne
  | 0, _, _ => none
  | fuel + 1, hasher, data =>
      if data.isEmpty then some hasher
      else processPieces bufferSize fuel (hasher.process (data.take bufferSize))
        (data.drop bufferSize)

end Hash256OneByOne

open Hash256OneByOne

/-- `hash256_impl` over random-access iterators. -/
def hash256ImplRange (data : Bytes) : Bytes :=
  getHashBytes ((init.process data).finish).h

/-- `hash256_impl` over input iterators; `none` when the fuel runs out. -/
def hash256ImplInput (bufferSize fuel : Nat) (data : Bytes) : Option Bytes :=
  (processPieces bufferSize fuel init data).map fun hasher => getHashBytes hasher.finish.h

namespace Hash256OneByOne

/-! ## The byte count -/

/-- The low digits of a count in base 65536, held in words. -/
def lengthWords (count value : Nat) : List Word := (halfWords count value).map UInt64.ofNat

theorem lengthWords_succ (count value : Nat) :
    lengthWords (count + 1) value =
      UInt64.ofNat (value % 65536) :: lengthWords count (value / 65536) :=
  rfl

/-- A right shift is that of the number, when the number fits the word. -/
theorem ofNat_shiftRight {value : Nat} (fits : value < 2 ^ 64) (shift : Nat)
    (inWord : shift < 64) :
    UInt64.ofNat value >>> UInt64.ofNat shift = UInt64.ofNat (value >>> shift) := by
  rw [← UInt64.toNat_inj, UInt64.toNat_shiftRight, UInt64.toNat_ofNat_of_lt' fits,
    UInt64.toNat_ofNat_of_lt' (show shift < 2 ^ 64 by omega), Nat.mod_eq_of_lt inWord,
    UInt64.toNat_ofNat_of_lt' (Nat.lt_of_le_of_lt (Nat.shiftRight_le _ _) fits)]

/-- Carrying through the digits adds, up to the carry out of the last one. -/
theorem carryDigits_lengthWords {count carry : Nat} (room : carry + 65536 ≤ 2 ^ 64)
    (value : Nat) :
    carryDigits (UInt64.ofNat carry) (lengthWords count value) =
      lengthWords count (value + carry) := by
  induction count generalizing carry value with
  | zero => rfl
  | succ count ih =>
      have digit : value % 65536 < 65536 := Nat.mod_lt _ (by decide)
      have fits : value % 65536 + carry < 2 ^ 64 := by omega
      have sum : UInt64.ofNat (value % 65536) + UInt64.ofNat carry =
          UInt64.ofNat (value % 65536 + carry) := (UInt64.ofNat_add _ _).symm
      have quotient : value / 65536 + (value % 65536 + carry) / 65536 =
          (value + carry) / 65536 := by
        omega
      have carries : UInt64.ofNat (value % 65536 + carry) ≥ 65536 ↔
          65536 ≤ value % 65536 + carry := by
        rw [ge_iff_le, UInt64.le_iff_toNat_le, UInt64.toNat_ofNat_of_lt' fits]
        rfl
      rw [lengthWords_succ, carryDigits, sum, lengthWords_succ]
      split
      case isTrue carried =>
          have low : UInt64.ofNat (value % 65536 + carry) &&& 65535 =
              UInt64.ofNat ((value + carry) % 65536) := by
            have masked := UInt64.ofNat_and (value % 65536 + carry) 65535
            rw [Nat.and_two_pow_sub_one_eq_mod _ 16, Nat.mod_add_mod] at masked
            exact masked.symm
          have high : UInt64.ofNat (value % 65536 + carry) >>> 16 =
              UInt64.ofNat ((value % 65536 + carry) / 65536) := by
            have shifted := ofNat_shiftRight fits 16 (by decide)
            rwa [Nat.shiftRight_eq_div_pow] at shifted
          rw [low, high, ih (by omega), quotient]
      case isFalse within =>
          rw [carries] at within
          have low : (value + carry) % 65536 = value % 65536 + carry := by omega
          have high : (value + carry) / 65536 = value / 65536 := by omega
          rw [low, high]

/-- The counter counts the bytes of a chunk, modulo 2^64. -/
theorem addToDataLength_lengthWords {chunkLength : Nat} (room : chunkLength + 65536 ≤ 2 ^ 64)
    (total : Nat) :
    addToDataLength (UInt64.ofNat chunkLength) (lengthWords 4 total) =
      lengthWords 4 (total + chunkLength) := by
  have added : carryDigits _ (lengthWords 4 total) = _ := carryDigits_lengthWords room total
  rw [lengthWords_succ, carryDigits] at added
  rw [lengthWords_succ, addToDataLength, carryDigits, UInt64.add_zero, added]

/-- On digits of sixteen bits the words are shifted as the numbers are. -/
theorem shiftWords_map {carry : Nat} {digits : List Nat} (carryFits : carry < 65536)
    (digitsFit : ∀ digit ∈ digits, digit < 65536) :
    shiftWords (UInt64.ofNat carry) (digits.map UInt64.ofNat) =
      (shiftDigits carry digits).map UInt64.ofNat := by
  induction digits generalizing carry with
  | nil => rfl
  | cons digit rest ih =>
      have digitFits := digitsFit digit List.mem_cons_self
      have low : (UInt64.ofNat digit <<< 3 ||| UInt64.ofNat carry) &&& (65535 : Word) =
          UInt64.ofNat ((digit <<< 3 ||| carry) &&& 65535) := by
        rw [UInt64.ofNat_and, UInt64.ofNat_or, UInt64.ofNat_shiftLeft _ 3 (by decide)]
        rfl
      have high : (UInt64.ofNat digit >>> 13) &&& (65535 : Word) =
          UInt64.ofNat ((digit >>> 13) &&& 65535) := by
        rw [UInt64.ofNat_and, ← ofNat_shiftRight (by omega) 13 (by decide)]
        rfl
      have carried : (digit >>> 13) &&& 65535 < 65536 :=
        Nat.lt_of_le_of_lt Nat.and_le_right (by decide)
      rw [List.map_cons, shiftWords, low, high,
        ih carried fun other inRest => digitsFit other (List.mem_cons_of_mem _ inRest),
        shiftDigits, List.map_cons]

theorem halfWords_lt {count value digit : Nat} (isDigit : digit ∈ halfWords count value) :
    digit < 65536 := by
  induction count generalizing value with
  | zero => exact absurd isDigit List.not_mem_nil
  | succ count ih =>
      obtain rfl | inRest := List.mem_cons.mp isDigit
      · exact Nat.mod_lt _ (by decide)
      · exact ih inRest

/-- The bit length is written as eight big-endian bytes. -/
theorem writeDataBitLength_lengthWords (total : Nat) :
    writeDataBitLength (lengthWords 4 total) = bigEndian 8 (8 * total) := by
  have digitsFit : ∀ digit ∈ halfWords 4 total, digit < 65536 := fun _ => halfWords_lt
  have shifted := shiftWords_map (by decide : 0 < 65536) digitsFit
  have bytes := halfWords_reverse_flatMap 4 (8 * total)
  rw [shiftDigits_halfWords (by decide)] at shifted
  change (shiftWords (UInt64.ofNat 0) _).reverse.flatMap _ = _
  rw [lengthWords, shifted, ← List.map_reverse, List.flatMap_map]
  refine Eq.trans ?_ bytes
  apply List.flatMap_congr
  intro digit isDigit
  have digitFits : digit < 65536 := halfWords_lt (List.mem_reverse.mp isDigit)
  have high : UInt64.ofNat digit >>> 8 = UInt64.ofNat (digit >>> 8) :=
    ofNat_shiftRight (by omega) 8 (by decide)
  rw [high, UInt64.toUInt8_ofNat', UInt64.toUInt8_ofNat']

/-! ## The last blocks -/

/-- The marker lands behind the bytes left over. -/
theorem set_marker {buffer : Bytes} (short : buffer.length < 64) :
    (buffer ++ List.replicate (64 - buffer.length) 0).set buffer.length 0x80 =
      (buffer ++ [0x80]) ++ List.replicate (63 - buffer.length) 0 := by
  have room : 64 - buffer.length = (63 - buffer.length) + 1 := by omega
  rw [room, List.replicate_succ, List.set_append_right _ _ (Nat.le_refl _), Nat.sub_self,
    List.set_cons_zero, List.append_assoc, List.singleton_append]

/-- What is kept of an array that is filled from the end of its front part. -/
theorem fill_append (front rest : Bytes) (last : Nat) :
    fill (front ++ rest) front.length last =
      front ++ List.replicate (last - front.length) 0 ++ (front ++ rest).drop last := by
  rw [fill, List.take_left]

/-- The array of one block holds what `finish` of the range form compresses. -/
theorem finish_h {hasher : Hash256OneByOne} (short : hasher.buffer.length < 64) {total : Nat}
    (counted : hasher.dataLengthDigits = lengthWords 4 total) :
    hasher.finish.h = Picosha2.finish hasher.h hasher.buffer total := by
  obtain ⟨buffer, dataLengthDigits, h⟩ := hasher
  change buffer.length < 64 at short
  change dataLengthDigits = lengthWords 4 total at counted
  have written : writeDataBitLength dataLengthDigits = dataBitLength total := by
    rw [counted, writeDataBitLength_lengthWords, dataBitLength_eq]
  have marked : (buffer ++ [0x80]).length = buffer.length + 1 := List.length_append
  simp only [finish, Picosha2.finish, if_neg (Nat.not_le_of_lt short), set_marker short, ← marked,
    fill_append, written]
  have whole : (buffer ++ [0x80] ++ List.replicate (63 - buffer.length) 0).length = 64 := by
    rw [List.length_append, marked, List.length_replicate]
    omega
  split
  case isTrue full =>
      have cleared : (fill (buffer ++ [0x80] ++
          List.replicate (64 - (buffer ++ [0x80]).length) 0 ++
            (buffer ++ [0x80] ++ List.replicate (63 - buffer.length) 0).drop 64) 0 60).take 56 =
          List.replicate 56 0 := by
        rw [fill, List.take_zero, List.nil_append, List.take_append_of_le_length (by simp),
          List.take_replicate]
        rfl
      rw [cleared, List.drop_eq_nil_of_le (Nat.le_of_eq whole), List.append_nil]
  case isFalse fits =>
      have kept : (buffer ++ [0x80] ++ List.replicate (60 - (buffer ++ [0x80]).length) 0 ++
            (buffer ++ [0x80] ++ List.replicate (63 - buffer.length) 0).drop 60 : Bytes).take 56 =
          buffer ++ [0x80] ++ List.replicate (56 - (buffer ++ [0x80]).length) 0 := by
        rw [List.take_append_of_le_length (by simp; omega), List.take_append,
          List.take_of_length_le (by rw [marked]; omega), List.take_replicate,
          Nat.min_eq_left (by omega)]
      rw [kept]

/-! ## Runs -/

/-- What a hasher holds after a message: its blocks absorbed, its rest, its length. -/
structure Holds (hasher : Hash256OneByOne) (message : BlockStream Sha256.Registers UInt8)
    (total : Nat) : Prop where
  h_eq : hasher.h = ofRegisters message.state
  buffer_eq : hasher.buffer = message.buffer
  digits_eq : hasher.dataLengthDigits = lengthWords 4 total
  leftOver : total % 64 = message.buffer.length

theorem init_holds : init.Holds Sha256.start 0 where
  h_eq := initialMessageDigest_eq
  buffer_eq := rfl
  digits_eq := rfl
  leftOver := rfl

/-- One chunk is absorbed and counted. -/
theorem process_holds {hasher : Hash256OneByOne}
    {message : BlockStream Sha256.Registers UInt8} {total : Nat}
    (holds : hasher.Holds message total) {chunk : Bytes} (sized : chunk.length < 2 ^ 63) :
    (hasher.process chunk).Holds (message.absorb 64 Sha256.compress chunk)
      (total + chunk.length) := by
  have absorbed := processBlocks_absorb message chunk
  rw [← holds.h_eq, ← holds.buffer_eq] at absorbed
  constructor
  case h_eq => rw [process, absorbed]
  case buffer_eq => rw [process, absorbed]
  case digits_eq =>
      rw [process, absorbed]
      change addToDataLength _ hasher.dataLengthDigits = _
      rw [holds.digits_eq, addToDataLength_lengthWords (by omega)]
  case leftOver =>
      rw [BlockStream.absorb_buffer_length, ← holds.leftOver, Nat.mod_add_mod]

/-- Any number of chunks is absorbed and counted. -/
theorem process_foldl_holds {chunks : List Bytes}
    (sized : ∀ chunk ∈ chunks, chunk.length < 2 ^ 63) {hasher : Hash256OneByOne}
    {message : BlockStream Sha256.Registers UInt8} {total : Nat}
    (holds : hasher.Holds message total) :
    (chunks.foldl process hasher).Holds
      (chunks.foldl (BlockStream.absorb 64 Sha256.compress) message)
      (total + chunks.flatten.length) := by
  induction chunks generalizing hasher message total with
  | nil => exact holds
  | cons chunk rest ih =>
      have first := process_holds holds (sized chunk List.mem_cons_self)
      have others := ih (fun other inRest => sized other (List.mem_cons_of_mem _ inRest)) first
      rw [Nat.add_assoc, ← List.length_append, ← List.flatten_cons] at others
      exact others

/-- Finishing absorbs the padding of the length that was counted. -/
theorem finish_digest {hasher : Hash256OneByOne}
    {message : BlockStream Sha256.Registers UInt8} {total : Nat}
    (holds : hasher.Holds message total) :
    getHashBytes hasher.finish.h =
      Sha256.toBytes (message.absorb 64 Sha256.compress (Sha256.padding total)).state := by
  have short : hasher.buffer.length < 64 := by
    rw [holds.buffer_eq, ← holds.leftOver]
    exact Nat.mod_lt _ (by decide)
  rw [finish_h short holds.digits_eq, holds.h_eq, holds.buffer_eq,
    finish_ofRegisters holds.leftOver, getHashBytes_ofRegisters]
  rfl

/-- However a message is cut into chunks, the SHA-256 of the message is returned. -/
theorem foldl_finish_digest {chunks : List Bytes}
    (sized : ∀ chunk ∈ chunks, chunk.length < 2 ^ 63) :
    getHashBytes (chunks.foldl process init).finish.h = Sha256.hash chunks.flatten := by
  rw [Sha256.hash_flatten, finish_digest (process_foldl_holds sized init_holds), Nat.zero_add]

/-- A buffer that takes a byte or more reads the whole input, piece by piece. -/
theorem processPieces_eq {bufferSize fuel : Nat} (positive : 0 < bufferSize) {data : Bytes}
    (enough : data.length < fuel) (hasher : Hash256OneByOne) :
    ∃ chunks : List Bytes, chunks.flatten = data ∧
      (∀ chunk ∈ chunks, chunk.length ≤ bufferSize) ∧
      processPieces bufferSize fuel hasher data = some (chunks.foldl process hasher) := by
  induction fuel generalizing data hasher with
  | zero => exact absurd enough (Nat.not_lt_zero _)
  | succ fuel ih =>
      cases data with
      | nil => exact ⟨[], rfl, List.forall_mem_nil _, rfl⟩
      | cons first rest =>
          have shorter : ((first :: rest).drop bufferSize).length < fuel := by
            rw [List.length_cons] at enough
            rw [List.length_drop, List.length_cons]
            omega
          obtain ⟨chunks, joined, sized, read⟩ :=
            ih shorter (hasher.process ((first :: rest).take bufferSize))
          refine ⟨(first :: rest).take bufferSize :: chunks, ?_, ?_, read⟩
          · rw [List.flatten_cons, joined, List.take_append_drop]
          · exact List.forall_mem_cons.mpr ⟨List.length_take_le _ _, sized⟩

end Hash256OneByOne

/-- The incremental hasher returns the digest of the range, however it is cut. -/
theorem hasher_hash256 {chunks : List Bytes} (sized : ∀ chunk ∈ chunks, chunk.length < 2 ^ 63) :
    getHashBytes (chunks.foldl process init).finish.h = hash256 chunks.flatten := by
  rw [foldl_finish_digest sized, hash256_eq]

/-- Two chunks, one of them empty. -/
theorem hasher_hash256_pair :
    getHashBytes (([[0x61], []] : List Bytes).foldl process init).finish.h =
      hash256 ([[0x61], []] : List Bytes).flatten :=
  hasher_hash256 (by decide)

/-- The range form of the class is the one the other modules call. -/
theorem hash256ImplRange_eq {data : Bytes} (sized : data.length < 2 ^ 63) :
    hash256ImplRange data = hash256 data := by
  have single : ∀ chunk ∈ [data], chunk.length < 2 ^ 63 := by
    intro chunk isData
    rwa [List.mem_singleton.mp isData]
  have digest := foldl_finish_digest single
  rw [List.flatten_singleton, ← hash256_eq] at digest
  exact digest

/-- Input iterators, read through a buffer of any size, give the digest of the range. -/
theorem hash256ImplInput_eq {bufferSize fuel : Nat} {data : Bytes} (positive : 0 < bufferSize)
    (isInt : bufferSize < 2 ^ 31) (sized : data.length < 2 ^ 63) (enough : data.length < fuel) :
    hash256ImplInput bufferSize fuel data = some (hash256ImplRange data) := by
  obtain ⟨chunks, joined, bounded, read⟩ := processPieces_eq positive enough init
  have chunksFit : ∀ chunk ∈ chunks, chunk.length < 2 ^ 63 := by
    intro chunk isChunk
    have atMost := bounded chunk isChunk
    omega
  rw [hash256ImplInput, read, Option.map_some, foldl_finish_digest chunksFit, joined,
    hash256ImplRange_eq sized, hash256_eq]

/-- Three bytes through a buffer of two. -/
theorem hash256ImplInput_eq_three :
    hash256ImplInput 2 4 [0x61, 0x62, 0x63] = some (hash256ImplRange [0x61, 0x62, 0x63]) :=
  hash256ImplInput_eq (by decide) (by decide) (by decide) (by decide)

end PqcLedger.Picosha2
