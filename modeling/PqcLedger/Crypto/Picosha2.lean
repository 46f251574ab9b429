import PqcLedger.Cxx.Basic

/-!
# SHA-256

`third_party/picosha2/picosha2.h`: the block function, the incremental hasher
and `hash256` over a random-access range. A `word_t` is an unsigned long of 64
bits that the source masks to 32.
-/

namespace PqcLedger.Picosha2

open PqcLedger.Cxx

/-- `word_t`. -/
abbrev Word := UInt64

/-- The low 32 bits of a word, which the source keeps by hand. -/
def mask32bit (x : Word) : Word := x &&& 0xffffffff

/-- The round constants. -/
def addConstant : List Word := [
  0x428a2f98, 0x71374491, 0xb5c0fbcf, 0xe9b5dba5, 0x3956c25b, 0x59f111f1,
  0x923f82a4, 0xab1c5ed5, 0xd807aa98, 0x12835b01, 0x243185be, 0x550c7dc3,
  0x72be5d74, 0x80deb1fe, 0x9bdc06a7, 0xc19bf174, 0xe49b69c1, 0xefbe4786,
  0x0fc19dc6, 0x240ca1cc, 0x2de92c6f, 0x4a7484aa, 0x5cb0a9dc, 0x76f988da,
  0x983e5152, 0xa831c66d, 0xb00327c8, 0xbf597fc7, 0xc6e00bf3, 0xd5a79147,
  0x06ca6351, 0x14292967, 0x27b70a85, 0x2e1b2138, 0x4d2c6dfc, 0x53380d13,
  0x650a7354, 0x766a0abb, 0x81c2c92e, 0x92722c85, 0xa2bfe8a1, 0xa81a664b,
  0xc24b8b70, 0xc76c51a3, 0xd192e819, 0xd6990624, 0xf40e3585, 0x106aa070,
  0x19a4c116, 0x1e376c08, 0x2748774c, 0x34b0bcb5, 0x391c0cb3, 0x4ed8aa4a,
  0x5b9cca4f, 0x682e6ff3, 0x748f82ee, 0x78a5636f, 0x84c87814, 0x8cc70208,
  0x90befffa, 0xa4506ceb, 0xbef9a3f7, 0xc67178f2]

/-- The eight words of the running digest, also the working variables of a block. -/
structure MessageDigest where
  a : Word
  b : Word
  c : Word
  d : Word
  e : Word
  f : Word
  g : Word
  h : Word

/-- The digest before the first block. -/
def initialMessageDigest : MessageDigest where
  a := 0x6a09e667
  b := 0xbb67ae85
  c := 0x3c6ef372
  d := 0xa54ff53a
  e := 0x510e527f
  f := 0x9b05688c
  g := 0x1f83d9ab
  h := 0x5be0cd19

def ch (x y z : Word) : Word := (x &&& y) ^^^ (~~~x &&& z)

def maj (x y z : Word) : Word := (x &&& y) ^^^ (x &&& z) ^^^ (y &&& z)

def rotr (x n : Word) : Word := mask32bit ((x >>> n) ||| (x <<< (32 - n)))

def bsig0 (x : Word) : Word := rotr x 2 ^^^ rotr x 13 ^^^ rotr x 22

def bsig1 (x : Word) : Word := rotr x 6 ^^^ rotr x 11 ^^^ rotr x 25

def shr (x n : Word) : Word := x >>> n

def ssig0 (x : Word) : Word := rotr x 7 ^^^ rotr x 18 ^^^ shr x 3

def ssig1 (x : Word) : Word := rotr x 17 ^^^ rotr x 19 ^^^ shr x 10

/-- The first sixteen schedule words: the block in big-endian words. -/
def blockWords (block : Bytes) : Array Word :=
  (Array.range 16).map fun i =>
    ((block.getD (i * 4) 0).toUInt64 <<< 24) ||| ((block.getD (i * 4 + 1) 0).toUInt64 <<< 16) |||
      ((block.getD (i * 4 + 2) 0).toUInt64 <<< 8) ||| (block.getD (i * 4 + 3) 0).toUInt64

/-- The schedule `w[0 .. 64)`. -/
def schedule (block : Bytes) : Array Word :=
  (List.range' 16 48).foldl (fun w i =>
    w.push (mask32bit (ssig1 (w.getD (i - 2) 0) + w.getD (i - 7) 0 +
      ssig0 (w.getD (i - 15) 0) + w.getD (i - 16) 0))) (blockWords block)

/-- One of the sixty-four rounds. -/
def round (work : MessageDigest) (constant word : Word) : MessageDigest :=
  let temp1 := work.h + bsig1 work.e + ch work.e work.f work.g + constant + word
  let temp2 := bsig0 work.a + maj work.a work.b work.c
  { h := work.g, g := work.f, f := work.e, e := mask32bit (work.d + temp1),
    d := work.c, c := work.b, b := work.a, a := mask32bit (temp1 + temp2) }

/-- Absorb one block into the digest. -/
def hash256Block (digest : MessageDigest) (block : Bytes) : MessageDigest :=
  let work := (addConstant.zip (schedule block).toList).foldl
    (fun work entry => round work entry.1 entry.2) digest
  { a := mask32bit (digest.a + work.a), b := mask32bit (digest.b + work.b),
    c := mask32bit (digest.c + work.c), d := mask32bit (digest.d + work.d),
    e := mask32bit (digest.e + work.e), f := mask32bit (digest.f + work.f),
    g := mask32bit (digest.g + work.g), h := mask32bit (digest.h + work.h) }

/-- The block loop of `process`: absorb whole blocks, keep the remainder. -/
def processBlocks : Nat → MessageDigest → Bytes → MessageDigest × Bytes
  | 0, digest, buffer => (digest, buffer)
  | blocks + 1, digest, buffer =>
      processBlocks blocks (hash256Block digest (buffer.take 64)) (buffer.drop 64)

/-- `add_to_data_length` on zeroed digits: the byte length in four base-2^16 digits. -/
def dataLengthDigits (length : Nat) : List Nat :=
  [length % 65536, length / 65536 % 65536, length / 65536 ^ 2 % 65536,
    length / 65536 ^ 3 % 65536]

/-- The carry loop of `write_data_bit_length`, least significant digit first. -/
def shiftDigits : Nat → List Nat → List Nat
  | _, [] => []
  | carry, digit :: rest =>
      ((digit <<< 3 ||| carry) &&& 65535) :: shiftDigits ((digit >>> 13) &&& 65535) rest

/-- `write_data_bit_length`. -/
def dataBitLength (length : Nat) : Bytes :=
  (shiftDigits 0 (dataLengthDigits length)).reverse.flatMap fun digit =>
    [UInt8.ofNat (digit >>> 8), UInt8.ofNat digit]

/-- `finish`: pad the remaining bytes with the marker and the bit length. -/
def finish (digest : MessageDigest) (buffer : Bytes) (length : Nat) : MessageDigest :=
  let marked := buffer ++ [0x80]
  if buffer.length > 55 then
    let digest := hash256Block digest (marked ++ List.replicate (64 - marked.length) 0)
    hash256Block digest (List.replicate 56 0 ++ dataBitLength length)
  else
    hash256Block digest (marked ++ List.replicate (56 - marked.length) 0 ++ dataBitLength length)

/-- `get_hash_bytes` into a range of thirty-two bytes. -/
def getHashBytes (digest : MessageDigest) : Bytes :=
  [digest.a, digest.b, digest.c, digest.d, digest.e, digest.f, digest.g, digest.h].flatMap
    fun (word : Word) =>
      [(word >>> 24).toUInt8, (word >>> 16).toUInt8, (word >>> 8).toUInt8, word.toUInt8]

/-- `hash256` of a byte range into a buffer of `k_digest_size` bytes. -/
def hash256 (data : Bytes) : Bytes :=
  let (digest, buffer) := processBlocks (data.length / 64) initialMessageDigest data
  getHashBytes (finish digest buffer data.length)

/-- The digest always fills its thirty-two byte buffer. -/
@[simp] theorem hash256_length (data : Bytes) : (hash256 data).length = 32 := by
  simp [hash256, getHashBytes]

/-- The standard's digest of "abc" opens with ba7816bf. -/
example : (hash256 (Text.ofString "abc")).take 4 = [0xBA, 0x78, 0x16, 0xBF] := by decide +kernel

attribute [irreducible] hash256

end PqcLedger.Picosha2
