import PqcLedger.Codec.Base64Canonical
import PqcLedger.Cxx.Loops

/-!
# The loops over texts stay inside them

The loops of `hex_to_bytes`, `base64_to_bytes` and `encode_to_base64` as the source
writes them, over indices, with every access and every sum of indices checked. They
meet no fault, they end, and they compute what the recursions of the model compute.
-/

namespace PqcLedger.Codec

open PqcLedger.Cxx

/-! ## The loops with their operations checked -/

/-- The index of a loop, and what it has written. -/
structure Cursor where
  i : Nat
  out : Bytes

/-- The test `i < length`. -/
def below (length : Nat) (cursor : Cursor) : Checked Bool := pure (cursor.i < length)

/-- `text[i + offset]`. -/
def charAt (text : Text) (i offset : Nat) : Checked UInt8 := do
  let index ← checkedAdd i offset
  checkedIndex text index

/-- The end of a round: something is written and the index advances. -/
def Cursor.advance (cursor : Cursor) (count : Nat) (written : Bytes) : Checked Cursor := do
  let i ← checkedAdd cursor.i count
  pure ⟨i, cursor.out ++ written⟩

/-- A round of `hex_to_bytes`: two characters become a byte. -/
def hexRound (text : Text) (cursor : Cursor) : CheckedExit Exception Cursor := do
  let high ← hexCharToValue (← checkedIndex text cursor.i)
  let low ← hexCharToValue (← charAt text cursor.i 1)
  cursor.advance 2 [(high <<< 4) ||| low]

/-- `hex_to_bytes` by its loop, in at most so many rounds. -/
def hexToBytesChecked (fuel : Nat) (hex : Text) : Option (Checked (Throws Bytes)) :=
  let cleanHex := removeWhitespace hex
  if cleanHex.length % 2 ≠ 0 then
    some (.ok (.error (.runtimeError "Hex string must have even length")))
  else
    afterCall (reserve (cleanHex.length / 2)) fun () =>
      loopValue Cursor.out (whileLoop (below cleanHex.length) (hexRound cleanHex) fuel ⟨0, []⟩)

/-- The value of the third or fourth character of a group, whose place and padding are
tested before it is read. -/
def charOrPadAt (text : Text) (i offset : Nat) : CheckedExit Exception UInt8 := do
  let index ← checkedAdd i offset
  if index < text.length then
    let c ← charAt text i offset
    if c ≠ padChar then base64CharToValue (← charAt text i offset) else pure 0
  else pure 0

/-- A round of `base64_to_bytes`: a group of four characters becomes up to three bytes. -/
def base64Round (text : Text) (cursor : Cursor) : CheckedExit Exception Cursor := do
  let stop ← checkedAdd cursor.i 3
  if stop ≥ text.length then throw (.runtimeError "Invalid base64 string: incomplete group")
  else
    let b0 ← base64CharToValue (← checkedIndex text cursor.i)
    let b1 ← base64CharToValue (← charAt text cursor.i 1)
    let b2 ← charOrPadAt text cursor.i 2
    let b3 ← charOrPadAt text cursor.i 3
    let c2 ← charAt text cursor.i 2
    let c3 ← charAt text cursor.i 3
    cursor.advance 4 ([(b0 <<< 2) ||| (b1 >>> 4)] ++
      (if c2 ≠ padChar then [(b1 <<< 4) ||| (b2 >>> 2)] else []) ++
      (if c3 ≠ padChar then [(b2 <<< 6) ||| b3] else []))

/-- `padding_count`, by its two reads at the end of the text. -/
def paddingCountChecked (text : Text) : Checked Nat := do
  if text.length > 0 then
    let last ← checkedIndex text (← checkedSub text.length 1)
    if last = padChar then
      if text.length > 1 then
        let next ← checkedIndex text (← checkedSub text.length 2)
        pure (if next = padChar then 2 else 1)
      else pure 1
    else pure 0
  else pure 0

/-- The estimate may wrap, as the source lets it; the padding is counted with checks. -/
def base64ToBytesChecked (fuel : Nat) (base64 : Text) : Option (Checked (Throws Bytes)) :=
  let cleanBase64 := removeWhitespace base64
  if cleanBase64 = [] then some (.ok (.ok []))
  else
    afterChecked (paddingCountChecked cleanBase64) fun padding =>
      afterCall (reserve (sizeSub (sizeMul cleanBase64.length 3 / 4) padding)) fun () =>
        loopValue Cursor.out
          (whileLoop (below cleanBase64.length) (base64Round cleanBase64) fuel ⟨0, []⟩)

/-- One of the three reads of a round of `encode_to_base64`, if there is a byte left:
the byte, the index and the count of the bytes read. -/
def nextByte (bytes : Bytes) (i bytesRead : Nat) : Checked (UInt32 × Nat × Nat) := do
  if i < bytes.length then
    let byte ← checkedIndex bytes i
    let after ← checkedAdd i 1
    pure (byte.toUInt32, after, bytesRead + 1)
  else pure (0, i, bytesRead)

/-- `base64_chars[value & 0x3F]`. -/
def base64CharAtChecked (value : UInt32) : Checked UInt8 :=
  checkedIndex base64Chars (value &&& 0x3F).toNat

/-- A round of `encode_to_base64`: up to three bytes become a group. -/
def encodeRound (bytes : Bytes) (cursor : Cursor) : CheckedExit Exception Cursor := do
  let (b0, i, bytesRead) ← nextByte bytes cursor.i 0
  let (b1, i, bytesRead) ← nextByte bytes i bytesRead
  let (b2, i, bytesRead) ← nextByte bytes i bytesRead
  let combined := (b0 <<< 16) ||| (b1 <<< 8) ||| b2
  let first ← base64CharAtChecked (combined >>> 18)
  let second ← base64CharAtChecked (combined >>> 12)
  let third ← if bytesRead ≥ 2 then base64CharAtChecked (combined >>> 6) else pure padChar
  let fourth ← if bytesRead ≥ 3 then base64CharAtChecked combined else pure padChar
  pure ⟨i, cursor.out ++ [first, second, third, fourth]⟩

/-- `encode_to_base64` by its loop, in at most so many rounds. -/
def encodeToBase64Checked (fuel : Nat) (bytes : Bytes) : Option (Checked (Throws Text)) :=
  afterChecked (checkedAdd bytes.length 2) fun rounded =>
    afterCall (reserve (sizeMul (rounded / 3) 4)) fun () =>
      loopValue Cursor.out (whileLoop (below bytes.length) (encodeRound bytes) fuel ⟨0, []⟩)

/-! ## Reading at the index -/

variable {text rest : Text} {c c0 c1 c2 c3 : UInt8} {i : Nat} {cursor : Cursor}

/-- An index no further than a group behind the end of a string does not wrap. -/
theorem index_fits (isString : text.IsString) (near : i ≤ text.length + 4) : i < sizeModulus := by
  rw [Text.IsString] at isString
  rw [sizeModulus]
  omega

theorem checkedIndex_of_drop (cut : text.drop i = c :: rest) : checkedIndex text i = .ok c := by
  have here : text[i]? = some c := by
    rw [← List.head?_drop, cut]
    rfl
  rw [checkedIndex, here]

/-- Characters ahead of the index are read where they stand. -/
theorem charAt_of_drop (isString : text.IsString) (front : Text)
    (cut : text.drop i = front ++ c :: rest) : charAt text i front.length = .ok c := by
  have size := congrArg List.length cut
  rw [List.length_drop, List.length_append, List.length_cons] at size
  have fits : i + front.length < sizeModulus := index_fits isString (by omega)
  have place : text.drop (i + front.length) = c :: rest := by
    rw [← List.drop_drop, cut, List.drop_left]
  rw [charAt, checkedAdd_of_lt fits]
  exact checkedIndex_of_drop place

theorem Cursor.advance_of_lt {count : Nat} (fits : cursor.i + count < sizeModulus)
    (written : Bytes) :
    cursor.advance count written = .ok ⟨cursor.i + count, cursor.out ++ written⟩ := by
  rw [advance, checkedAdd_of_lt fits]
  rfl

theorem below_of_nil (cut : text.drop cursor.i = []) : below text.length cursor = .ok false := by
  have behind := List.drop_eq_nil_iff.mp cut
  simp [below, behind]

theorem below_of_cons (cut : text.drop cursor.i = c :: rest) :
    below text.length cursor = .ok true := by
  have size := congrArg List.length cut
  rw [List.length_drop, List.length_cons] at size
  have inside : cursor.i < text.length := by omega
  simp [below, inside]

/-- How far the index is from the end. -/
def Cursor.ahead (length : Nat) (cursor : Cursor) : Nat := length - cursor.i

theorem Cursor.ahead_lt {length i : Nat} {out : Bytes} (inside : cursor.i < length)
    (advanced : cursor.i < i) : Cursor.ahead length ⟨i, out⟩ < cursor.ahead length :=
  Nat.sub_lt_sub_left inside advanced

/-! ## Hexadecimal -/

/-- Whole pairs lie ahead of the index. -/
def PairsAhead (text : Text) (cursor : Cursor) : Prop := (text.drop cursor.i).length % 2 = 0

/-- What the loop of `hex_to_bytes` still returns from a cursor. -/
def hexFrom (text : Text) (cursor : Cursor) : Throws Bytes :=
  (hexLoop (text.drop cursor.i)).map (cursor.out ++ ·)

theorem hexRound_step (isString : text.IsString)
    (cut : text.drop cursor.i = c0 :: c1 :: rest) (even : rest.length % 2 = 0) :
    RoundOf (hexRound text) (PairsAhead text) (Cursor.ahead text.length) (hexFrom text) cursor (do
        let high ← hexCharToValue c0
        let low ← hexCharToValue c1
        pure ⟨cursor.i + 2, cursor.out ++ [(high <<< 4) ||| low]⟩) := by
  have size := congrArg List.length cut
  rw [List.length_drop, List.length_cons, List.length_cons] at size
  have fits : cursor.i + 2 < sizeModulus := index_fits isString (by omega)
  have second : charAt text cursor.i 1 = .ok c1 := charAt_of_drop isString [c0] cut
  have next : text.drop (cursor.i + 2) = rest := by
    rw [← List.drop_drop, cut]
    rfl
  refine ⟨?_, ?_, ?_⟩
  · rw [hexRound, checkedIndex_of_drop cut, second]
    simp [Cursor.advance_of_lt fits]
  · intro after made
    obtain ⟨high, -, made⟩ := Throws.bind_ok_iff.mp made
    obtain ⟨low, -, made⟩ := Throws.bind_ok_iff.mp made
    cases made
    refine ⟨?_, ?_⟩
    · rwa [PairsAhead, next]
    · exact Cursor.ahead_lt (by omega) (by omega)
  · rw [hexFrom, cut, hexLoop]
    cases hexCharToValue c0 with
    | error thrown => rfl
    | ok high =>
        cases hexCharToValue c1 with
        | error thrown => rfl
        | ok low =>
            simp only [Throws.bind_ok, Throws.pure_eq, hexFrom, next]
            cases hexLoop rest <;> simp [Except.map]

theorem hexLoop_steps (isString : text.IsString) :
    LoopOf (below text.length) (hexRound text) (PairsAhead text) (Cursor.ahead text.length)
      (hexFrom text) Cursor.out := by
  intro cursor even
  rw [PairsAhead] at even
  rcases cut : text.drop cursor.i with - | ⟨c0, - | ⟨c1, rest⟩⟩
  · refine .inl ⟨below_of_nil cut, ?_⟩
    rw [hexFrom, cut]
    simp [hexLoop, Except.map]
  · rw [cut] at even
    cases even
  · rw [cut, List.length_cons, List.length_cons] at even
    exact .inr ⟨below_of_cons cut, _, hexRound_step isString cut (by omega)⟩

theorem hexToBytesChecked_eq {hex : Text} {fuel : Nat} (isString : hex.IsString)
    (enough : hex.length < fuel) : hexToBytesChecked fuel hex = some (.ok (hexToBytes hex)) := by
  have shorter : (removeWhitespace hex).length ≤ hex.length := List.length_filter_le ..
  rw [hexToBytesChecked, hexToBytes]
  by_cases odd : (removeWhitespace hex).length % 2 ≠ 0
  · rw [if_pos odd, if_pos odd]
  · rw [if_neg odd, if_neg odd]
    have start : PairsAhead (removeWhitespace hex) ⟨0, []⟩ := not_not.mp odd
    have whole : hexFrom (removeWhitespace hex) ⟨0, []⟩ = hexLoop (removeWhitespace hex) := by
      rw [hexFrom, List.drop_zero]
      cases hexLoop (removeWhitespace hex) <;> rfl
    have room : reserve ((removeWhitespace hex).length / 2) = .ok () := by
      apply reserve_of_le
      rw [Text.IsString] at isString
      omega
    rw [room, ← whole]
    exact whileLoop_computes (hexLoop_steps (removeWhitespace_isString isString)) start
      (Nat.lt_of_le_of_lt shorter enough)

/-! ## Base64, reading -/

/-- What the loop of `base64_to_bytes` still returns from a cursor. -/
def base64From (text : Text) (cursor : Cursor) : Throws Bytes :=
  (base64Loop (text.drop cursor.i)).map (cursor.out ++ ·)

/-- The exception of a group that is not whole. -/
def incompleteGroup : Exception := .runtimeError "Invalid base64 string: incomplete group"

theorem base64Loop_short (short : rest.length < 3) :
    base64Loop (c :: rest) = .error incompleteGroup := by
  rcases rest with - | ⟨c1, - | ⟨c2, - | ⟨c3, rest⟩⟩⟩
  · rfl
  · rfl
  · rfl
  · rw [List.length_cons, List.length_cons, List.length_cons] at short
    omega

theorem base64Round_short (isString : text.IsString) (cut : text.drop cursor.i = c :: rest)
    (short : rest.length < 3) :
    RoundOf (base64Round text) (fun _ => True) (Cursor.ahead text.length)
      (base64From text) cursor (.error incompleteGroup) := by
  have size := congrArg List.length cut
  rw [List.length_drop, List.length_cons] at size
  have fits : cursor.i + 3 < sizeModulus := index_fits isString (by omega)
  have behind : cursor.i + 3 ≥ text.length := by omega
  refine ⟨?_, ?_, ?_⟩
  · rw [base64Round, checkedAdd_of_lt fits, CheckedExit.safe, pure_bind, if_pos behind]
    rfl
  · rintro next ⟨⟩
  · rw [base64From, cut, base64Loop_short short]
    rfl

/-- A character that is there is read unless it is padding. -/
theorem charOrPadAt_of_drop (isString : text.IsString) (front : Text)
    (cut : text.drop i = front ++ c :: rest) :
    charOrPadAt text i front.length = (base64CharOrPad c : CheckedExit Exception UInt8) := by
  have size := congrArg List.length cut
  rw [List.length_drop, List.length_append, List.length_cons] at size
  have inside : i + front.length < text.length := by omega
  have fits : i + front.length < sizeModulus := index_fits isString (by omega)
  rw [charOrPadAt, checkedAdd_of_lt fits, CheckedExit.safe, pure_bind, if_pos inside,
    charAt_of_drop isString front cut, CheckedExit.safe, pure_bind, base64CharOrPad]
  by_cases padded : c = padChar
  · rw [if_neg (not_not.mpr padded), if_neg (not_not.mpr padded)]
    rfl
  · rw [if_pos padded, if_pos padded, pure_bind]

theorem base64Round_step (isString : text.IsString)
    (cut : text.drop cursor.i = c0 :: c1 :: c2 :: c3 :: rest) :
    RoundOf (base64Round text) (fun _ => True) (Cursor.ahead text.length)
      (base64From text) cursor (do
        let b0 ← base64CharToValue c0
        let b1 ← base64CharToValue c1
        let b2 ← base64CharOrPad c2
        let b3 ← base64CharOrPad c3
        pure ⟨cursor.i + 4, cursor.out ++ ([(b0 <<< 2) ||| (b1 >>> 4)] ++
          (if c2 ≠ padChar then [(b1 <<< 4) ||| (b2 >>> 2)] else []) ++
          (if c3 ≠ padChar then [(b2 <<< 6) ||| b3] else []))⟩) := by
  have size := congrArg List.length cut
  simp only [List.length_drop, List.length_cons] at size
  have stopFits : cursor.i + 3 < sizeModulus := index_fits isString (by omega)
  have fits : cursor.i + 4 < sizeModulus := index_fits isString (by omega)
  have inside : ¬ cursor.i + 3 ≥ text.length := by omega
  have second : charAt text cursor.i 1 = .ok c1 := charAt_of_drop isString [c0] cut
  have third : charAt text cursor.i 2 = .ok c2 := charAt_of_drop isString [c0, c1] cut
  have fourth : charAt text cursor.i 3 = .ok c3 := charAt_of_drop isString [c0, c1, c2] cut
  have thirdRead : charOrPadAt text cursor.i 2 = _ := charOrPadAt_of_drop isString [c0, c1] cut
  have fourthRead : charOrPadAt text cursor.i 3 = _ :=
    charOrPadAt_of_drop isString [c0, c1, c2] cut
  have next : text.drop (cursor.i + 4) = rest := by
    rw [← List.drop_drop, cut]
    rfl
  refine ⟨?_, ?_, ?_⟩
  · rw [base64Round, checkedAdd_of_lt stopFits, CheckedExit.safe, pure_bind, if_neg inside,
      checkedIndex_of_drop cut, second, thirdRead, fourthRead, third, fourth]
    simp [Cursor.advance_of_lt fits]
  · intro after made
    obtain ⟨b0, -, made⟩ := Throws.bind_ok_iff.mp made
    obtain ⟨b1, -, made⟩ := Throws.bind_ok_iff.mp made
    obtain ⟨b2, -, made⟩ := Throws.bind_ok_iff.mp made
    obtain ⟨b3, -, made⟩ := Throws.bind_ok_iff.mp made
    cases made
    exact ⟨trivial, Cursor.ahead_lt (by omega) (by omega)⟩
  · rw [base64From, cut, base64Loop]
    cases base64CharToValue c0 with
    | error thrown => rfl
    | ok b0 =>
        cases base64CharToValue c1 with
        | error thrown => rfl
        | ok b1 =>
            cases base64CharOrPad c2 with
            | error thrown => rfl
            | ok b2 =>
                cases base64CharOrPad c3 with
                | error thrown => rfl
                | ok b3 =>
                    simp only [Throws.bind_ok, Throws.pure_eq, base64From, next]
                    cases base64Loop rest <;> simp [Except.map]

theorem base64Loop_steps (isString : text.IsString) :
    LoopOf (below text.length) (base64Round text) (fun _ => True) (Cursor.ahead text.length)
      (base64From text) Cursor.out := by
  rintro cursor -
  rcases cut : text.drop cursor.i with - | ⟨c0, rest⟩
  · refine .inl ⟨below_of_nil cut, ?_⟩
    rw [base64From, cut]
    simp [base64Loop, Except.map]
  · refine .inr ⟨below_of_cons cut, ?_⟩
    rcases rest with - | ⟨c1, - | ⟨c2, - | ⟨c3, rest⟩⟩⟩
    · exact ⟨_, base64Round_short isString cut (by decide)⟩
    · exact ⟨_, base64Round_short isString cut (by simp)⟩
    · exact ⟨_, base64Round_short isString cut (by simp)⟩
    · exact ⟨_, base64Round_step isString cut⟩

/-- The padding is counted inside the text. -/
theorem paddingCountChecked_eq (text : Text) :
    paddingCountChecked text = .ok (paddingCount text) := by
  rw [paddingCountChecked, paddingCount]
  rcases reversed : text.reverse with - | ⟨last, - | ⟨next, front⟩⟩
  · rw [List.reverse_eq_nil_iff.mp reversed]
    rfl
  · have same : text = [last] := by simpa using congrArg List.reverse reversed
    subst same
    by_cases padded : last = padChar <;> simp [padded, checkedSub, checkedIndex, sizeSub]
  · have same : text = front.reverse ++ [next, last] := by
      simpa using congrArg List.reverse reversed
    have size : text.length = front.length + 2 := by simp [same]
    have fromNext : text.drop front.length = [next, last] := by
      rw [same, List.drop_left' (List.length_reverse ..)]
    have fromLast : text.drop (front.length + 1) = [last] := by
      rw [← List.drop_drop, fromNext]
      rfl
    rw [if_pos (by omega), checkedSub_of_le (by omega), checkedSub_of_le (by omega), size]
    simp [checkedIndex_of_drop fromLast, checkedIndex_of_drop fromNext]
    split <;> rfl

theorem base64ToBytesChecked_eq {base64 : Text} {fuel : Nat} (isString : base64.IsString)
    (enough : base64.length < fuel) :
    base64ToBytesChecked fuel base64 = some (.ok (base64ToBytes base64)) := by
  have shorter : (removeWhitespace base64).length ≤ base64.length := List.length_filter_le ..
  rw [base64ToBytesChecked, base64ToBytes]
  by_cases empty : removeWhitespace base64 = []
  · rw [if_pos empty, if_pos empty]
    rfl
  · rw [if_neg empty, if_neg empty, paddingCountChecked_eq]
    change afterCall (reserve (outputSize (removeWhitespace base64))) _ = _
    cases reserve (outputSize (removeWhitespace base64)) with
    | error thrown => rfl
    | ok reserved =>
        have whole : base64From (removeWhitespace base64) ⟨0, []⟩ =
            base64Loop (removeWhitespace base64) := by
          rw [base64From, List.drop_zero]
          cases base64Loop (removeWhitespace base64) <;> rfl
        rw [Throws.bind_ok, ← whole]
        exact whileLoop_computes (base64Loop_steps (removeWhitespace_isString isString)) trivial
          (Nat.lt_of_le_of_lt shorter enough)

/-! ## Base64, writing -/

variable {bytes : Bytes} {b0 b1 b2 : UInt8} {more : Bytes} {bytesRead : Nat}

theorem nextByte_of_nil (cut : bytes.drop i = []) :
    nextByte bytes i bytesRead = .ok (0, i, bytesRead) := by
  rw [nextByte, if_neg (Nat.not_lt.mpr (List.drop_eq_nil_iff.mp cut))]
  rfl

theorem nextByte_of_cons (fits : i + 1 < sizeModulus) (cut : bytes.drop i = b0 :: more) :
    nextByte bytes i bytesRead = .ok (b0.toUInt32, i + 1, bytesRead + 1) := by
  have size := congrArg List.length cut
  rw [List.length_drop, List.length_cons] at size
  have inside : i < bytes.length := by omega
  rw [nextByte, if_pos inside, checkedIndex_of_drop cut, checkedAdd_of_lt fits]
  rfl

theorem base64CharAtChecked_eq (value : UInt32) :
    base64CharAtChecked value = .ok (base64CharAt value) := by
  have small : (value &&& 0x3F).toNat < base64Chars.length := by
    rw [base64Chars_length, UInt32.toNat_and]
    exact Nat.lt_succ_of_le Nat.and_le_right
  exact checkedIndex_of_lt small

/-- What the loop of `encode_to_base64` still returns from a cursor. -/
def encodeFrom (bytes : Bytes) (cursor : Cursor) : Throws Text :=
  .ok (cursor.out ++ encodeToBase64 (bytes.drop cursor.i))

theorem drop_succ {j : Nat} (cut : bytes.drop j = b0 :: more) : bytes.drop (j + 1) = more := by
  rw [← List.drop_drop, cut]
  rfl

theorem drop_fits (short : bytes.length < 2 ^ 63) {j : Nat} (cut : bytes.drop j = b0 :: more) :
    j < bytes.length ∧ j + 1 < sizeModulus := by
  have size := congrArg List.length cut
  rw [List.length_drop, List.length_cons] at size
  rw [sizeModulus]
  omega

/-! A round writes the encoding of the one, two or three bytes that it finds. -/

theorem encodeRound_one (short : bytes.length < 2 ^ 63) (cut : bytes.drop cursor.i = [b0]) :
    encodeRound bytes cursor = pure ⟨cursor.i + 1, cursor.out ++ encodeToBase64 [b0]⟩ := by
  rw [encodeRound, nextByte_of_cons (drop_fits short cut).2 cut]
  simp [nextByte_of_nil (drop_succ cut), base64CharAtChecked_eq, encodeToBase64]

theorem encodeRound_two (short : bytes.length < 2 ^ 63) (cut : bytes.drop cursor.i = [b0, b1]) :
    encodeRound bytes cursor = pure ⟨cursor.i + 2, cursor.out ++ encodeToBase64 [b0, b1]⟩ := by
  have second := drop_succ cut
  rw [encodeRound, nextByte_of_cons (drop_fits short cut).2 cut]
  simp [nextByte_of_cons (drop_fits short second).2 second, nextByte_of_nil (drop_succ second),
    base64CharAtChecked_eq, encodeToBase64]

theorem encodeRound_three (short : bytes.length < 2 ^ 63)
    (cut : bytes.drop cursor.i = b0 :: b1 :: b2 :: more) :
    encodeRound bytes cursor = pure ⟨cursor.i + 3, cursor.out ++ encodeToBase64 [b0, b1, b2]⟩ := by
  have second := drop_succ cut
  have third := drop_succ second
  rw [encodeRound, nextByte_of_cons (drop_fits short cut).2 cut]
  simp [nextByte_of_cons (drop_fits short second).2 second,
    nextByte_of_cons (drop_fits short third).2 third, base64CharAtChecked_eq, encodeToBase64]

/-- A round that writes the encoding of a piece and leaves the index behind it. -/
theorem encodeRound_step (inside : cursor.i < bytes.length) {j : Nat} {piece : Bytes}
    (advanced : cursor.i < j)
    (ran : encodeRound bytes cursor = pure ⟨j, cursor.out ++ encodeToBase64 piece⟩)
    (split : encodeToBase64 (bytes.drop cursor.i) =
      encodeToBase64 piece ++ encodeToBase64 (bytes.drop j)) :
    RoundOf (encodeRound bytes) (fun _ => True) (Cursor.ahead bytes.length) (encodeFrom bytes)
      cursor (.ok ⟨j, cursor.out ++ encodeToBase64 piece⟩) := by
  refine ⟨ran, ?_, ?_⟩
  · intro after made
    cases made
    exact ⟨trivial, Cursor.ahead_lt inside advanced⟩
  · rw [encodeFrom, split, ← List.append_assoc]
    rfl

theorem encodeLoop_steps (short : bytes.length < 2 ^ 63) :
    LoopOf (below bytes.length) (encodeRound bytes) (fun _ => True) (Cursor.ahead bytes.length)
      (encodeFrom bytes) Cursor.out := by
  rintro cursor -
  rcases cut : bytes.drop cursor.i with - | ⟨b0, more⟩
  · refine .inl ⟨below_of_nil cut, ?_⟩
    rw [encodeFrom, cut, encodeToBase64, List.append_nil]
  · have inside := (drop_fits short cut).1
    refine .inr ⟨below_of_cons cut, ?_⟩
    rcases more with - | ⟨b1, - | ⟨b2, rest⟩⟩
    · refine ⟨_, encodeRound_step inside (by omega) (encodeRound_one short cut) ?_⟩
      rw [cut, drop_succ cut, encodeToBase64, List.append_nil]
    · refine ⟨_, encodeRound_step inside (by omega) (encodeRound_two short cut) ?_⟩
      rw [cut, drop_succ (drop_succ cut), encodeToBase64, List.append_nil]
    · refine ⟨_, encodeRound_step inside (by omega) (encodeRound_three short cut) ?_⟩
      rw [cut, drop_succ (drop_succ (drop_succ cut))]
      have whole : ([b0, b1, b2] : Bytes).length % 3 = 0 := by simp
      exact encodeToBase64_append whole rest

theorem encodeToBase64Checked_eq {fuel : Nat} (isString : (encodeToBase64 bytes).IsString)
    (enough : bytes.length < fuel) :
    encodeToBase64Checked fuel bytes = some (.ok (.ok (encodeToBase64 bytes))) := by
  rw [Text.IsString, encodeToBase64_length] at isString
  have short : bytes.length < 2 ^ 63 := by omega
  have modulus : sizeModulus = 2 ^ 64 := rfl
  have room : reserve (sizeMul ((bytes.length + 2) / 3) 4) = .ok () := by
    apply reserve_of_le
    rw [sizeMul, modulus]
    omega
  rw [encodeToBase64Checked, checkedAdd_of_lt (by omega)]
  change afterCall (reserve (sizeMul ((bytes.length + 2) / 3) 4)) _ = _
  rw [room]
  exact whileLoop_computes (encodeLoop_steps short) trivial enough

/-! ## All three -/

/-- The index loops of the text transports, with every access and every sum of indices
checked, meet no fault, end within one round for each character and one more, and
return or throw what the model's recursions do. -/
theorem text_loops_safe {fuel : Nat} :
    (∀ hex : Text, hex.IsString → hex.length < fuel →
      hexToBytesChecked fuel hex = some (.ok (hexToBytes hex))) ∧
    (∀ base64 : Text, base64.IsString → base64.length < fuel →
      base64ToBytesChecked fuel base64 = some (.ok (base64ToBytes base64))) ∧
    ∀ bytes : Bytes, (encodeToBase64 bytes).IsString → bytes.length < fuel →
      encodeToBase64Checked fuel bytes = some (.ok (.ok (encodeToBase64 bytes))) :=
  ⟨fun _ => hexToBytesChecked_eq, fun _ => base64ToBytesChecked_eq,
    fun _ => encodeToBase64Checked_eq⟩

/-- A group of one byte, read and written. -/
theorem text_loops_safe_group :
    base64ToBytesChecked 5 (Text.ofString "Zg==") = some (.ok (.ok [102])) ∧
      encodeToBase64Checked 2 [102] = some (.ok (.ok (Text.ofString "Zg=="))) := by
  have isString : (Text.ofString "Zg==").IsString := by
    change (Text.ofString "Zg==").length < 2 ^ 63
    decide
  exact ⟨text_loops_safe.2.1 (Text.ofString "Zg==") isString (by decide),
    text_loops_safe.2.2 [102] isString (by decide)⟩

end PqcLedger.Codec
