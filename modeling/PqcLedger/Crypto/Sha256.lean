import PqcLedger.Crypto.Address
import PqcLedger.Hashing.Sha256

/-!
# The block function is the standard's

The source keeps a word of 32 bits in an unsigned long of 64 and masks where a
sum or a rotation may have left it. Read through `widen`, which holds a word of
the standard in an unsigned long, every function of a block is the standard's
own, and the tables of the source are the constants the standard derives from
the primes.
-/

namespace PqcLedger.Picosha2

open PqcLedger.Cxx Framing Hashing

/-- A word of the standard, held in an unsigned long. -/
def widen (x : Sha256.Word) : Word := UInt64.ofBitVec (x.setWidth 64)

/-- What a mask keeps of an unsigned long. -/
def low (x : Word) : Sha256.Word := x.toBitVec.setWidth 32

/-! ## Words -/

@[simp] theorem widen_toNat (x : Sha256.Word) : (widen x).toNat = x.toNat := by
  rw [widen, UInt64.toNat_ofBitVec, BitVec.toNat_setWidth]
  exact Nat.mod_eq_of_lt (Nat.lt_trans x.isLt (by decide))

@[simp] theorem low_toNat (x : Word) : (low x).toNat = x.toNat % 2 ^ 32 := by
  rw [low, BitVec.toNat_setWidth, UInt64.toNat_toBitVec]

theorem widen_inj {x y : Sha256.Word} : widen x = widen y ↔ x = y := by
  rw [← UInt64.toNat_inj, widen_toNat, widen_toNat, BitVec.toNat_inj]

@[simp] theorem low_widen (x : Sha256.Word) : low (widen x) = x := by
  rw [← BitVec.toNat_inj, low_toNat, widen_toNat, Nat.mod_eq_of_lt x.isLt]

@[simp] theorem low_add (x y : Word) : low (x + y) = low x + low y :=
  BitVec.setWidth_add x.toBitVec y.toBitVec (by decide)

theorem widen_and (x y : Sha256.Word) : widen x &&& widen y = widen (x &&& y) := by
  rw [← UInt64.toNat_inj, UInt64.toNat_and, widen_toNat, widen_toNat, widen_toNat,
    BitVec.toNat_and]

theorem widen_xor (x y : Sha256.Word) : widen x ^^^ widen y = widen (x ^^^ y) := by
  rw [← UInt64.toNat_inj, UInt64.toNat_xor, widen_toNat, widen_toNat, widen_toNat,
    BitVec.toNat_xor]

/-- A complement sets the high bits, which the conjunction clears again. -/
theorem widen_not_and (x z : Sha256.Word) : ~~~widen x &&& widen z = widen (~~~x &&& z) := by
  rw [← UInt64.toBitVec_inj]
  ext i bounded
  simp [widen]
  grind

theorem mask32bit_eq (x : Word) : mask32bit x = widen (low x) := by
  rw [← UInt64.toNat_inj, mask32bit, UInt64.toNat_and, widen_toNat, low_toNat]
  exact Nat.and_two_pow_sub_one_eq_mod x.toNat 32

theorem rotr_widen (x : Sha256.Word) {n : Word} (bounded : n.toNat < 32) :
    rotr (widen x) n = widen (x.rotateRight n.toNat) := by
  have complement : (32 - n).toNat = 32 - n.toNat :=
    UInt64.toNat_sub_of_le _ _ (UInt64.le_iff_toNat_le.mpr (Nat.le_of_lt bounded))
  have shifted : x.toNat >>> n.toNat < 2 ^ 32 :=
    Nat.lt_of_le_of_lt (Nat.shiftRight_le _ _) x.isLt
  rw [rotr, mask32bit_eq, widen_inj, ← BitVec.toNat_inj, low_toNat, UInt64.toNat_or,
    UInt64.toNat_shiftRight, UInt64.toNat_shiftLeft, widen_toNat, complement,
    Nat.mod_eq_of_lt (show n.toNat < 64 by omega),
    Nat.mod_eq_of_lt (show 32 - n.toNat < 64 by omega), Nat.or_mod_two_pow,
    Nat.mod_eq_of_lt shifted, Nat.mod_mod_of_dvd _ (Nat.pow_dvd_pow 2 (by decide)),
    BitVec.toNat_rotateRight, Nat.mod_eq_of_lt bounded]

theorem shr_widen (x : Sha256.Word) {n : Word} (bounded : n.toNat < 32) :
    shr (widen x) n = widen (x >>> n.toNat) := by
  rw [← UInt64.toNat_inj, shr, UInt64.toNat_shiftRight, widen_toNat, widen_toNat,
    BitVec.toNat_ushiftRight, Nat.mod_eq_of_lt (show n.toNat < 64 by omega)]

/-! ## The functions of a round -/

theorem ch_widen (x y z : Sha256.Word) :
    ch (widen x) (widen y) (widen z) = widen (Sha256.ch x y z) := by
  rw [ch, widen_and, widen_not_and, widen_xor, Sha256.ch]

theorem maj_widen (x y z : Sha256.Word) :
    maj (widen x) (widen y) (widen z) = widen (Sha256.maj x y z) := by
  rw [maj, widen_and, widen_and, widen_and, widen_xor, widen_xor, Sha256.maj]

theorem bsig0_widen (x : Sha256.Word) : bsig0 (widen x) = widen (Sha256.bigSigma0 x) := by
  rw [bsig0, rotr_widen x (by decide), rotr_widen x (by decide), rotr_widen x (by decide),
    widen_xor, widen_xor]
  rfl

theorem bsig1_widen (x : Sha256.Word) : bsig1 (widen x) = widen (Sha256.bigSigma1 x) := by
  rw [bsig1, rotr_widen x (by decide), rotr_widen x (by decide), rotr_widen x (by decide),
    widen_xor, widen_xor]
  rfl

theorem ssig0_widen (x : Sha256.Word) : ssig0 (widen x) = widen (Sha256.smallSigma0 x) := by
  rw [ssig0, rotr_widen x (by decide), rotr_widen x (by decide), shr_widen x (by decide),
    widen_xor, widen_xor]
  rfl

theorem ssig1_widen (x : Sha256.Word) : ssig1 (widen x) = widen (Sha256.smallSigma1 x) := by
  rw [ssig1, rotr_widen x (by decide), rotr_widen x (by decide), shr_widen x (by decide),
    widen_xor, widen_xor]
  rfl

/-! ## The tables -/

/-- The constants of the source are those derived from the primes. -/
theorem addConstant_eq : addConstant = Sha256.constants.map widen := by
  rw [Sha256.constants, Sha256.primes_eq]
  decide +kernel

/-- A digest that holds the registers of the standard. -/
def ofRegisters (registers : Sha256.Registers) : MessageDigest where
  a := widen registers.a
  b := widen registers.b
  c := widen registers.c
  d := widen registers.d
  e := widen registers.e
  f := widen registers.f
  g := widen registers.g
  h := widen registers.h

theorem initialMessageDigest_eq : initialMessageDigest = ofRegisters Sha256.initial := by
  rw [initialMessageDigest, ofRegisters, MessageDigest.mk.injEq]
  decide +kernel

/-! ## Rounds -/

theorem round_ofRegisters (work : Sha256.Registers) (constant word : Sha256.Word) :
    round (ofRegisters work) (widen constant) (widen word) =
      ofRegisters (Sha256.round work constant word) := by
  simp only [round, ofRegisters, Sha256.round, mask32bit_eq, bsig0_widen, bsig1_widen, ch_widen,
    maj_widen, low_add, low_widen]

/-! ## The schedule -/

/-- Four bytes shifted into their places are a big-endian word. -/
theorem joinedBytes_eq (byte : Nat → UInt8) :
    ((byte 0).toUInt64 <<< 24) ||| ((byte 1).toUInt64 <<< 16) |||
        ((byte 2).toUInt64 <<< 8) ||| (byte 3).toUInt64 =
      widen (BitVec.ofNat 32 (leading byte 4)) := by
  have kept : ∀ index shift, 256 <<< shift ≤ 18446744073709551616 →
      (byte index).toNat <<< shift % 18446744073709551616 = (byte index).toNat <<< shift :=
    fun index _ => byte_shiftLeft_mod (byte index).toNat_lt
  rw [← UInt64.toNat_inj, widen_toNat, BitVec.toNat_ofNat,
    Nat.mod_eq_of_lt (show leading byte 4 < 2 ^ 32 from leading_lt byte 4)]
  simp only [UInt64.toNat_or, UInt64.toNat_shiftLeft, UInt8.toNat_toUInt64,
    UInt64.reduceToNat, Nat.reduceMod, Nat.reducePow]
  rw [kept 0 _ (by decide), kept 1 _ (by decide), kept 2 _ (by decide), ← leading_one,
    leading_or byte 1 16, leading_or byte 2 8]
  exact leading_or byte 3 0

theorem blockWord_eq {block : Bytes} (sized : block.length = 64) {t : Nat} (first : t < 16) :
    Sha256.blockWord block t =
      BitVec.ofNat 32 (leading (fun index => block.getD (t * 4 + index) 0) 4) := by
  have word : (block.drop (t * 4)).take 4 =
      (List.range 4).map fun index => block.getD (t * 4 + index) 0 := by
    apply List.ext_getElem
    · simp
      omega
    · intro index inWord _
      simp at inWord
      simp [List.getElem?_eq_getElem (show t * 4 + index < block.length by omega)]
  rw [Sha256.blockWord, word, leading]

theorem blockWords_eq {block : Bytes} (sized : block.length = 64) :
    (blockWords block).toList = (List.range 16).map fun t => widen (Sha256.schedule block t) := by
  rw [blockWords, Array.toList_map, Array.toList_range]
  apply List.map_congr_left
  intro t first
  rw [List.mem_range] at first
  rw [Sha256.schedule_of_lt first, blockWord_eq sized first, ← joinedBytes_eq]
  rfl

/-- One step of the schedule loop. -/
theorem scheduleStep_eq {block : Bytes} {w : Array Word} {count : Nat}
    (filled : w.toList =
      (List.range (16 + count)).map fun t => widen (Sha256.schedule block t)) :
    mask32bit (ssig1 (w.getD (16 + count - 2) 0) + w.getD (16 + count - 7) 0 +
        ssig0 (w.getD (16 + count - 15) 0) + w.getD (16 + count - 16) 0) =
      widen (Sha256.schedule block (16 + count)) := by
  have word : ∀ back ≤ 16, 0 < back →
      w.getD (16 + count - back) 0 = widen (Sha256.schedule block (16 + count - back)) := by
    intro back inside positive
    rw [Array.getD_eq_getD_getElem?, ← Array.getElem?_toList, filled, List.getElem?_map,
      List.getElem?_range (by omega), Option.map_some, Option.getD_some]
  rw [word 2 (by decide) (by decide), word 7 (by decide) (by decide),
    word 15 (by decide) (by decide), word 16 (by decide) (by decide), ssig1_widen, ssig0_widen,
    mask32bit_eq]
  simp only [low_add, low_widen]
  rw [show 16 + count - 2 = count + 14 by omega, show 16 + count - 7 = count + 9 by omega,
    show 16 + count - 15 = count + 1 by omega, show 16 + count - 16 = count by omega,
    Nat.add_comm 16 count, Sha256.schedule_add]

theorem schedule_eq {block : Bytes} (sized : block.length = 64) :
    (schedule block).toList = (List.range 64).map fun t => widen (Sha256.schedule block t) := by
  -- after `count` steps of the loop the schedule holds `16 + count` words
  have filled : ∀ count, ((List.range' 16 count).foldl (fun w i =>
      w.push (mask32bit (ssig1 (w.getD (i - 2) 0) + w.getD (i - 7) 0 +
        ssig0 (w.getD (i - 15) 0) + w.getD (i - 16) 0))) (blockWords block)).toList =
      (List.range (16 + count)).map fun t => widen (Sha256.schedule block t) := by
    intro count
    induction count with
    | zero => exact blockWords_eq sized
    | succ count ih =>
        rw [List.range'_1_concat, List.foldl_concat, Array.toList_push, ih, scheduleStep_eq ih,
          ← Nat.add_assoc, List.range_succ, List.map_append, List.map_singleton]
  exact filled 48

/-! ## A block -/

theorem rounds_eq (block : Bytes) (start : Sha256.Registers) (count : Nat) :
    (List.range count).foldl
        (fun work t => round work (widen (Sha256.constants.getD t 0))
          (widen (Sha256.schedule block t))) (ofRegisters start) =
      ofRegisters (Sha256.rounds block start count) := by
  induction count with
  | zero => rfl
  | succ count ih =>
      rw [List.range_succ, List.foldl_concat, ih, round_ofRegisters, Sha256.rounds]

/-- The constants and the words of the schedule, paired by round. -/
theorem addConstant_zip_schedule {block : Bytes} (sized : block.length = 64) :
    addConstant.zip (schedule block).toList = (List.range 64).map fun t =>
      (widen (Sha256.constants.getD t 0), widen (Sha256.schedule block t)) := by
  rw [addConstant_eq, schedule_eq sized, ← Sha256.map_getD_constants, List.map_map,
    List.zip_map', Sha256.map_getD_constants]
  rfl

/-- The block function computes the compression function of the standard. -/
theorem hash256Block_ofRegisters {block : Bytes} (sized : block.length = 64)
    (registers : Sha256.Registers) :
    hash256Block (ofRegisters registers) block =
      ofRegisters (Sha256.compress registers block) := by
  have work : (addConstant.zip (schedule block).toList).foldl
      (fun work entry => round work entry.1 entry.2) (ofRegisters registers) =
      ofRegisters (Sha256.rounds block registers 64) := by
    rw [addConstant_zip_schedule sized, List.foldl_map]
    exact rounds_eq block registers 64
  rw [hash256Block, work]
  simp only [ofRegisters, mask32bit_eq, low_add, low_widen]
  rfl

theorem hash256Block_foldl {parts : List Bytes} (sized : ∀ part ∈ parts, part.length = 64)
    (registers : Sha256.Registers) :
    parts.foldl hash256Block (ofRegisters registers) =
      ofRegisters (parts.foldl Sha256.compress registers) := by
  induction parts generalizing registers with
  | nil => rfl
  | cons part rest ih =>
      rw [List.foldl_cons, List.foldl_cons,
        hash256Block_ofRegisters (sized part List.mem_cons_self),
        ih fun part inRest => sized part (List.mem_cons_of_mem _ inRest)]

/-- The block loop consumes the blocks at the front of a buffer. -/
theorem processBlocks_eq {count : Nat} {buffer : Bytes} (enough : count * 64 ≤ buffer.length)
    (digest : MessageDigest) :
    processBlocks count digest buffer =
      ((blocks 64 (buffer.take (count * 64))).foldl hash256Block digest,
        buffer.drop (count * 64)) := by
  induction count generalizing buffer digest with
  | zero =>
      rw [processBlocks, Nat.zero_mul, List.take_zero, List.drop_zero, blocks_of_lt (by decide),
        List.foldl_nil]
  | succ count ih =>
      have remaining : count * 64 ≤ (buffer.drop 64).length := by
        rw [List.length_drop]
        omega
      have front : buffer.take ((count + 1) * 64) =
          buffer.take 64 ++ (buffer.drop 64).take (count * 64) := by
        rw [Nat.succ_mul, Nat.add_comm, List.take_add]
      rw [processBlocks, ih remaining, front,
        blocks_cons (by decide) (List.length_take_of_le (by omega)), List.foldl_cons,
        List.drop_drop, Nat.succ_mul, Nat.add_comm 64]

/-- `process` absorbs its input, as the standard's registers do. -/
theorem processBlocks_absorb (stream : BlockStream Sha256.Registers UInt8) (chunk : Bytes) :
    processBlocks ((stream.buffer ++ chunk).length / 64) (ofRegisters stream.state)
        (stream.buffer ++ chunk) =
      (ofRegisters (stream.absorb 64 Sha256.compress chunk).state,
        (stream.absorb 64 Sha256.compress chunk).buffer) := by
  have whole : blocks 64 ((stream.buffer ++ chunk).take (wholeLength 64 _)) = _ :=
    blocks_take_wholeLength (by decide) (stream.buffer ++ chunk)
  rw [wholeLength] at whole
  rw [processBlocks_eq (Nat.div_mul_le_self _ _), whole,
    hash256Block_foldl fun _ => blocks_length]
  rfl

/-! ## The bit length -/

/-- The low digits of a value in base 65536, least significant first. -/
def halfWords : Nat → Nat → List Nat
  | 0, _ => []
  | count + 1, value => value % 65536 :: halfWords count (value / 65536)

theorem dataLengthDigits_eq (length : Nat) : dataLengthDigits length = halfWords 4 length := by
  simp only [dataLengthDigits, halfWords, Nat.div_div_eq_div_mul, Nat.reduceMul, Nat.reducePow]

/-- The carry loop multiplies by eight. -/
theorem shiftDigits_halfWords {count carry : Nat} (small : carry < 8) (value : Nat) :
    shiftDigits carry (halfWords count value) = halfWords count (8 * value + carry) := by
  induction count generalizing carry value with
  | zero => rfl
  | succ count ih =>
      have digit : value % 65536 < 65536 := Nat.mod_lt _ (by decide)
      have joined : ((value % 65536) <<< 3 ||| carry) &&& 65535 =
          (8 * value + carry) % 65536 := by
        rw [Nat.and_two_pow_sub_one_eq_mod _ 16,
          ← Nat.shiftLeft_add_eq_or_of_lt (show carry < 2 ^ 3 from small), Nat.shiftLeft_eq]
        omega
      have carried : ((value % 65536) >>> 13) &&& 65535 = value % 65536 / 8192 := by
        rw [Nat.and_two_pow_sub_one_eq_mod _ 16, Nat.shiftRight_eq_div_pow]
        omega
      have quotient : 8 * (value / 65536) + value % 65536 / 8192 =
          (8 * value + carry) / 65536 := by
        omega
      rw [halfWords, shiftDigits, joined, carried, ih (by omega), quotient, halfWords]

/-- Written most significant digit first, they are the big-endian bytes. -/
theorem halfWords_reverse_flatMap (count value : Nat) :
    (halfWords count value).reverse.flatMap
        (fun digit => [UInt8.ofNat (digit >>> 8), UInt8.ofNat digit]) =
      bigEndian (2 * count) value := by
  induction count generalizing value with
  | zero => rfl
  | succ count ih =>
      have high : UInt8.ofNat ((value % 65536) >>> 8) = UInt8.ofNat (value / 256 % 256) := by
        rw [Nat.shiftRight_eq_div_pow]
        congr 1
        omega
      have low : UInt8.ofNat (value % 65536) = UInt8.ofNat (value % 256) := by
        rw [← UInt8.toNat_inj, UInt8.toNat_ofNat', UInt8.toNat_ofNat']
        omega
      rw [halfWords, List.reverse_cons, List.flatMap_append, ih, List.flatMap_singleton, high, low,
        Nat.mul_succ, bigEndian, bigEndian, Nat.div_div_eq_div_mul, List.append_assoc]
      rfl

theorem dataBitLength_eq (length : Nat) : dataBitLength length = bigEndian 8 (8 * length) := by
  rw [dataBitLength, dataLengthDigits_eq, shiftDigits_halfWords (by decide),
    halfWords_reverse_flatMap]
  rfl

/-! ## The last blocks -/

/-- The bytes left over, the marker and the zeros before the length. -/
theorem append_padding (buffer : Bytes) (length : Nat) :
    buffer ++ Sha256.padding length =
      (buffer ++ [0x80]) ++ List.replicate (Sha256.zeroCount length) 0 ++ dataBitLength length := by
  rw [Sha256.padding, dataBitLength_eq, List.append_assoc, List.append_assoc,
    List.singleton_append]

/-- `finish` compresses what is left over with its padding. -/
theorem finish_ofRegisters {buffer : Bytes} {length : Nat}
    (leftOver : length % 64 = buffer.length) (registers : Sha256.Registers) :
    finish (ofRegisters registers) buffer length =
      ofRegisters ((blocks 64 (buffer ++ Sha256.padding length)).foldl Sha256.compress
        registers) := by
  have short : buffer.length < 64 := leftOver ▸ Nat.mod_lt _ (by decide)
  have lengthBytes : (dataBitLength length).length = 8 := by
    rw [dataBitLength_eq, bigEndian_length]
  have marked : (buffer ++ [0x80]).length = buffer.length + 1 := List.length_append
  simp only [finish, append_padding, marked]
  split
  case isTrue full =>
      -- the length does not fit behind the marker: it gets a block of its own
      have zeros : Sha256.zeroCount length = (64 - (buffer.length + 1)) + 56 := by
        rw [Sha256.zeroCount, leftOver]
        omega
      have first : (buffer ++ [0x80] ++
          List.replicate (64 - (buffer.length + 1)) 0 : Bytes).length = 64 := by
        rw [List.length_append, marked, List.length_replicate]
        omega
      have second : (List.replicate 56 0 ++ dataBitLength length).length = 64 := by
        rw [List.length_append, List.length_replicate, lengthBytes]
      rw [zeros, List.replicate_add, ← List.append_assoc, List.append_assoc _ _ (dataBitLength _),
        blocks_cons (by decide) first, blocks_singleton (by decide) second, List.foldl_cons,
        List.foldl_cons, List.foldl_nil, hash256Block_ofRegisters first,
        hash256Block_ofRegisters second]
  case isFalse fits =>
      have zeros : Sha256.zeroCount length = 56 - (buffer.length + 1) := by
        rw [Sha256.zeroCount, leftOver]
        omega
      have only : (buffer ++ [0x80] ++ List.replicate (56 - (buffer.length + 1)) 0 ++
          dataBitLength length : Bytes).length = 64 := by
        rw [List.length_append, List.length_append, marked, List.length_replicate, lengthBytes]
        omega
      rw [zeros, blocks_singleton (by decide) only, List.foldl_cons, List.foldl_nil,
        hash256Block_ofRegisters only]

/-- The four bytes of a word, most significant first. -/
theorem wordBytes_widen (x : Sha256.Word) :
    [(widen x >>> 24).toUInt8, (widen x >>> 16).toUInt8, (widen x >>> 8).toUInt8,
      (widen x).toUInt8] = bigEndian 4 x.toNat := by
  have byte : ∀ shift : Word, shift.toNat < 32 →
      (widen x >>> shift).toUInt8 = UInt8.ofNat (x.toNat / 2 ^ shift.toNat % 256) := by
    intro shift bounded
    rw [← UInt8.toNat_inj, UInt64.toNat_toUInt8, UInt64.toNat_shiftRight, widen_toNat,
      Nat.mod_eq_of_lt (show shift.toNat < 64 by omega), Nat.shiftRight_eq_div_pow,
      UInt8.toNat_ofNat', Nat.mod_mod]
  have last : (widen x).toUInt8 = UInt8.ofNat (x.toNat % 256) := by
    rw [← UInt8.toNat_inj, UInt64.toNat_toUInt8, widen_toNat, UInt8.toNat_ofNat', Nat.mod_mod]
  rw [byte 24 (by decide), byte 16 (by decide), byte 8 (by decide), last]
  simp only [bigEndian, Nat.div_div_eq_div_mul, List.nil_append, List.cons_append]
  rfl

theorem getHashBytes_ofRegisters (registers : Sha256.Registers) :
    getHashBytes (ofRegisters registers) = Sha256.toBytes registers := by
  simp only [getHashBytes, ofRegisters, Sha256.toBytes, List.flatMap_cons, List.flatMap_nil,
    wordBytes_widen]

/-! ## The digest -/

/-- `hash256` computes the SHA-256 of the standard. -/
theorem hash256_eq (data : Bytes) : hash256 data = Sha256.hash data := by
  have absorbed : processBlocks (data.length / 64) initialMessageDigest data =
      (ofRegisters (Sha256.start.absorb 64 Sha256.compress data).state,
        (Sha256.start.absorb 64 Sha256.compress data).buffer) := by
    rw [initialMessageDigest_eq]
    exact processBlocks_absorb Sha256.start data
  have leftOver : data.length % 64 =
      (Sha256.start.absorb 64 Sha256.compress data).buffer.length := by
    rw [BlockStream.absorb_buffer_length, Sha256.start, List.length_nil, Nat.zero_add]
  have absorbedThenPadded := Sha256.hash_flatten [data]
  rw [List.flatten_singleton] at absorbedThenPadded
  rw [hash256, absorbed, absorbedThenPadded]
  change getHashBytes (finish (ofRegisters _) _ _) = _
  rw [finish_ofRegisters leftOver, getHashBytes_ofRegisters]
  rfl

end PqcLedger.Picosha2

namespace PqcLedger.Crypto

open PqcLedger.Cxx Framing Hashing

/-- What the program hashes is hashed as the standard says: plain data, the message that
is signed, and the public key of an address. -/
theorem digests_standard (data : Bytes) (chainId : UInt32) (pubkey : PublicKey) :
    sha256 data = .ok (Sha256.hash data) ∧
      createSigningMessage chainId data =
        .ok (Sha256.hash (domainPrefix ++ bigEndian 4 chainId.toNat ++ data)) ∧
      ∃ addr : Address, deriveAddress pubkey = .ok addr ∧ addr.val = Sha256.hash pubkey := by
  have chainBytes : chainIdBe chainId = bigEndian 4 chainId.toNat := by
    simp [chainIdBe, bigEndian, ← UInt8.toNat_inj, Nat.shiftRight_eq_div_pow, and_255,
      Nat.div_div_eq_div_mul]
  refine ⟨?_, ?_, ?_⟩
  · rw [sha256, Picosha2.hash256_eq]
  · rw [createSigningMessage_eq, Picosha2.hash256_eq, signingPreimage, chainBytes]
  · obtain ⟨addr, derived, digest⟩ := deriveAddress_ok pubkey
    exact ⟨addr, derived, by rw [digest, Picosha2.hash256_eq]⟩

end PqcLedger.Crypto
