import PqcLedger.Types

/-!
# The decoder's cursor

The `Reader` of `codec/decode.cpp`: a buffer and a position. A read that throws
leaves the object in the state it had reached, so a read returns its outcome
together with the reader.
-/

namespace PqcLedger.Codec

open PqcLedger.Cxx

/-- A buffer, and the position of the next byte in it. -/
structure Reader where
  data : Bytes
  pos : Nat

namespace Reader

/-- The constructor: a fresh cursor at the start of the buffer. -/
def ofData (data : Bytes) : Reader := ⟨data, 0⟩

/-- Whether so many bytes are left. The sum may wrap, as the source lets it. -/
def hasBytes (reader : Reader) (n : Nat) : Bool :=
  sizeAdd reader.pos n ≤ reader.data.length

/-- How many bytes are left. -/
def remaining (reader : Reader) : Nat := sizeSub reader.data.length reader.pos

/-- Whether nothing is left. -/
def atEnd (reader : Reader) : Bool := reader.pos ≥ reader.data.length

/-- Move the cursor forward. -/
def advance (reader : Reader) (count : Nat) : Reader :=
  { reader with pos := sizeAdd reader.pos count }

end Reader

/-- A computation over a reader that may throw. -/
def ReaderM (α : Type) := Reader → Throws α × Reader

instance : Monad ReaderM where
  pure value := fun reader => (.ok value, reader)
  bind first next := fun reader =>
    match first reader with
    | (.ok value, after) => next value after
    | (.error thrown, after) => (.error thrown, after)

/-- What is thrown by a read for which too few bytes are left. -/
def unexpectedEnd : Exception := .runtimeError "Unexpected end of data"

/-- The shape shared by the bounded reads: check, use the next `count` bytes,
advance past them. -/
def readBounded {α : Type} (count : Nat) (value : (Nat → UInt8) → α) : ReaderM α :=
  fun reader =>
    if reader.hasBytes count then
      (.ok (value fun i => reader.data.getD (reader.pos + i) 0), reader.advance count)
    else (.error unexpectedEnd, reader)

/-- Read a byte. -/
def readU8 : ReaderM UInt8 := readBounded 1 fun byte => byte 0

/-- Read a word of two bytes, the most significant first. -/
def readU16Be : ReaderM UInt16 := readBounded 2 fun byte =>
  ((byte 0).toUInt16 <<< 8) ||| (byte 1).toUInt16

/-- Read a word of four bytes, the most significant first. -/
def readU32Be : ReaderM UInt32 := readBounded 4 fun byte =>
  ((byte 0).toUInt32 <<< 24) ||| ((byte 1).toUInt32 <<< 16) |||
    ((byte 2).toUInt32 <<< 8) ||| (byte 3).toUInt32

/-- Read a word of eight bytes, the most significant first. -/
def readU64Be : ReaderM UInt64 := readBounded 8 fun byte =>
  ((byte 0).toUInt64 <<< 56) ||| ((byte 1).toUInt64 <<< 48) |||
    ((byte 2).toUInt64 <<< 40) ||| ((byte 3).toUInt64 <<< 32) |||
    ((byte 4).toUInt64 <<< 24) ||| ((byte 5).toUInt64 <<< 16) |||
    ((byte 6).toUInt64 <<< 8) ||| (byte 7).toUInt64

/-- Read so many bytes. -/
def readBytes (n : Nat) : ReaderM Bytes := fun reader =>
  if reader.hasBytes n then
    (.ok ((reader.data.drop reader.pos).take n), reader.advance n)
  else (.error unexpectedEnd, reader)

/-- What is thrown for a length prefix that announces more bytes than are left. The
decoder tells it from other exceptions by the start of its message. -/
def lengthPrefixMismatch (len remaining : Nat) : Exception :=
  .runtimeError ("LENGTH_PREFIX_MISMATCH:" ++ (toString len ++ (" > " ++ toString remaining)))

/-- The body of `read_bytes_with_len`, once the length is read. -/
def readAnnounced (len : Nat) : ReaderM Bytes := fun reader =>
  if len > reader.remaining then (.error (lengthPrefixMismatch len reader.remaining), reader)
  else readBytes len reader

/-- Read a byte string behind its length in two bytes. -/
def readBytesWithLen : ReaderM Bytes := do
  let len ← readU16Be
  readAnnounced len.toNat

end PqcLedger.Codec
