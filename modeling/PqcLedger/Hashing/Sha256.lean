import PqcLedger.Framing.BigEndian
import PqcLedger.Hashing.Blocks
import Mathlib.Data.Nat.NthRoot.Defs
import Mathlib.Data.Nat.Prime.Basic

/-!
# SHA-256 as the standard states it

Words of 32 bits, sums modulo 2^32, and no bytes except at the two ends. The
constants are what the standard says they are: bits of the fractional parts of
roots of primes. A schedule is a recurrence, a message is padded as a whole and
then cut into blocks.
-/

namespace Hashing.Sha256

open Framing

/-- A word of 32 bits. -/
abbrev Word := BitVec 32

def ch (x y z : Word) : Word := (x &&& y) ^^^ (~~~x &&& z)

def maj (x y z : Word) : Word := (x &&& y) ^^^ (x &&& z) ^^^ (y &&& z)

def bigSigma0 (x : Word) : Word := x.rotateRight 2 ^^^ x.rotateRight 13 ^^^ x.rotateRight 22

def bigSigma1 (x : Word) : Word := x.rotateRight 6 ^^^ x.rotateRight 11 ^^^ x.rotateRight 25

def smallSigma0 (x : Word) : Word := x.rotateRight 7 ^^^ x.rotateRight 18 ^^^ x >>> 3

def smallSigma1 (x : Word) : Word := x.rotateRight 17 ^^^ x.rotateRight 19 ^^^ x >>> 10

/-- The first thirty-two bits of the fractional part of a root. -/
def rootFraction (degree radicand : Nat) : Word :=
  BitVec.ofNat 32 (Nat.nthRoot degree (radicand * 2 ^ (32 * degree)))

/-- The first sixty-four primes. -/
def primes : List Nat := (List.range 312).filter Nat.Prime

/-- The round constants: of the cube roots of the primes. -/
def constants : List Word := primes.map (rootFraction 3)

/-- The state between blocks, also the working variables within one. -/
@[ext] structure Registers where
  a : Word
  b : Word
  c : Word
  d : Word
  e : Word
  f : Word
  g : Word
  h : Word

/-- The initial state: of the square roots of the first eight primes. -/
def initial : Registers where
  a := rootFraction 2 2
  b := rootFraction 2 3
  c := rootFraction 2 5
  d := rootFraction 2 7
  e := rootFraction 2 11
  f := rootFraction 2 13
  g := rootFraction 2 17
  h := rootFraction 2 19

/-- The word at a place of a block. -/
def blockWord (block : List UInt8) (t : Nat) : Word :=
  BitVec.ofNat 32 (fromBigEndian ((block.drop (t * 4)).take 4))

/-- The words that a block is expanded to. -/
def schedule (block : List UInt8) (t : Nat) : Word :=
  if t < 16 then blockWord block t
  else smallSigma1 (schedule block (t - 2)) + schedule block (t - 7) +
    smallSigma0 (schedule block (t - 15)) + schedule block (t - 16)

/-- One round. -/
def round (work : Registers) (constant word : Word) : Registers :=
  let temp1 := work.h + bigSigma1 work.e + ch work.e work.f work.g + constant + word
  let temp2 := bigSigma0 work.a + maj work.a work.b work.c
  { h := work.g, g := work.f, f := work.e, e := work.d + temp1
    d := work.c, c := work.b, b := work.a, a := temp1 + temp2 }

/-- The working variables before round `t`. -/
def rounds (block : List UInt8) (start : Registers) : Nat → Registers
  | 0 => start
  | t + 1 => round (rounds block start t) (constants.getD t 0) (schedule block t)

/-- Registers are added word by word. -/
instance : Add Registers where
  add left right :=
    { a := left.a + right.a, b := left.b + right.b, c := left.c + right.c, d := left.d + right.d
      e := left.e + right.e, f := left.f + right.f, g := left.g + right.g, h := left.h + right.h }

/-- Absorb one block into the state. -/
def compress (state : Registers) (block : List UInt8) : Registers :=
  state + rounds block state 64

/-- The zero bytes between the marker and the length. -/
def zeroCount (length : Nat) : Nat := (119 - length % 64) % 64

/-- What follows a message: the marker, the zeros and the length in bits. -/
def padding (length : Nat) : List UInt8 :=
  0x80 :: (List.replicate (zeroCount length) 0 ++ bigEndian 8 (8 * length))

/-- The message with its padding, in whole blocks. -/
def pad (message : List UInt8) : List UInt8 := message ++ padding message.length

/-- The state, the most significant byte of each word first. -/
def toBytes (state : Registers) : List UInt8 :=
  [state.a, state.b, state.c, state.d, state.e, state.f, state.g, state.h].flatMap fun word =>
    bigEndian 4 word.toNat

/-- The digest of a message. -/
def hash (message : List UInt8) : List UInt8 :=
  toBytes ((blocks 64 (pad message)).foldl compress initial)

/-! ## The tables -/

/-- Below 324 a divisor below 18 is all that trial division has to look for. -/
theorem prime_iff_of_lt {n : Nat} (small : n < 18 * 18) :
    n.Prime ↔ 2 ≤ n ∧ ∀ divisor ∈ List.range' 2 16, divisor ∣ n → n ≤ divisor := by
  constructor
  · intro prime
    refine ⟨prime.two_le, fun divisor inRange divides => ?_⟩
    rw [List.mem_range'_1] at inRange
    have same := (Nat.dvd_prime_two_le prime inRange.1).mp divides
    exact Nat.le_of_eq same.symm
  · rintro ⟨large, onlyItself⟩
    by_contra composite
    have factor := Nat.minFac_sq_le_self (by omega) composite
    have proper := (Nat.not_prime_iff_minFac_lt large).mp composite
    have small : n.minFac < 18 := (Nat.pow_lt_pow_iff_left two_ne_zero).mp (by omega)
    have atLeastTwo := (Nat.minFac_prime (Nat.ne_of_gt large)).two_le
    have reaches := onlyItself n.minFac (by rw [List.mem_range'_1]; omega) (Nat.minFac_dvd n)
    omega

theorem primes_eq : primes = [
    2, 3, 5, 7, 11, 13, 17, 19, 23, 29, 31, 37, 41, 43, 47, 53, 59, 61, 67, 71, 73, 79, 83, 89,
    97, 101, 103, 107, 109, 113, 127, 131, 137, 139, 149, 151, 157, 163, 167, 173, 179, 181, 191,
    193, 197, 199, 211, 223, 227, 229, 233, 239, 241, 251, 257, 263, 269, 271, 277, 281, 283, 293,
    307, 311] := by
  have byDivision : primes = (List.range 312).filter fun n =>
      2 ≤ n ∧ ∀ divisor ∈ List.range' 2 16, divisor ∣ n → n ≤ divisor := by
    apply List.filter_congr
    intro n inRange
    rw [List.mem_range] at inRange
    rw [decide_eq_decide]
    exact prime_iff_of_lt (by omega)
  rw [byDivision]
  decide +kernel

theorem constants_length : constants.length = 64 := by
  rw [constants, List.length_map, primes_eq]
  rfl

theorem map_getD_constants : (List.range 64).map (fun t => constants.getD t 0) = constants := by
  apply List.ext_getElem
  · rw [List.length_map, List.length_range, constants_length]
  · intro t _ inside
    rw [List.getElem_map, List.getElem_range, List.getD_eq_getElem?_getD,
      List.getElem?_eq_getElem inside, Option.getD_some]

theorem schedule_of_lt {block : List UInt8} {t : Nat} (first : t < 16) :
    schedule block t = blockWord block t := by
  rw [schedule, if_pos first]

theorem schedule_add (block : List UInt8) (t : Nat) :
    schedule block (t + 16) =
      smallSigma1 (schedule block (t + 14)) + schedule block (t + 9) +
        smallSigma0 (schedule block (t + 1)) + schedule block t := by
  rw [schedule, if_neg (by omega)]
  rfl

/-! ## Messages in chunks -/

/-- The stream that nothing was put into. -/
def start : BlockStream Registers UInt8 where
  state := initial
  buffer := []

/-- A hash is taken by absorbing the chunks of the message and then its padding. -/
theorem hash_flatten (chunks : List (List UInt8)) :
    hash chunks.flatten =
      toBytes ((chunks.foldl (BlockStream.absorb 64 compress) start).absorb 64 compress
        (padding chunks.flatten.length)).state := by
  rw [BlockStream.absorb_chunks (by decide) (show start.buffer.length < 64 from by decide),
    BlockStream.absorb_absorb (by decide), hash, pad]
  rfl

end Hashing.Sha256
