import PqcLedger.Crypto.Address
import PqcLedger.Cxx.Loops

/-!
# The loop over an address stays inside it

The loop of `address_from_hex` as the source writes it: an array that is not
initialised is filled at an index, from slices of the string, with every slice,
write and sum checked. It meets no fault, and nothing is left of what the array
held before.
-/

namespace PqcLedger.Crypto

open PqcLedger.Cxx

/-- `text.substr(start, count)`, an error behind the end counted as a fault. -/
def checkedSubstr (text : Text) (start count : Nat) : Checked Text :=
  if start ≤ text.length then .ok ((text.drop start).take count) else .error .rangeOutside

/-- `bytes[index] = value`, in an array. -/
def checkedSet {count : Nat} (bytes : SizedBytes count) (index : Nat) (value : UInt8) :
    Checked (SizedBytes count) :=
  if index < count then .ok ⟨bytes.val.set index value, by simp [bytes.property]⟩
  else .error .indexOutside

/-- The index of the loop, and the array. -/
structure AddressCursor where
  i : Nat
  addr : Address

/-- The test `i < 32`. -/
def addressTest (cursor : AddressCursor) : Checked Bool := pure (cursor.i < 32)

/-- The error of a slice that holds no number. -/
def invalidSlice (position : Nat) : Error :=
  ⟨.InvalidHexEncoding, "Invalid hex character at position " ++ toString position⟩

/-- A round of `address_from_hex`: two characters are written as a byte of the array. -/
def addressRound (hex : Text) (cursor : AddressCursor) : CheckedExit Error AddressCursor := do
  let byteStr ← checkedSubstr hex (sizeMul cursor.i 2) 2
  match stoulHex byteStr with
  | .error _ => throw (invalidSlice (sizeMul cursor.i 2))
  | .ok value =>
      let addr ← checkedSet cursor.addr cursor.i value.toUInt8
      let i ← checkedAdd cursor.i 1
      pure ⟨i, addr⟩

/-- `address_from_hex`, given what its array holds before it is written. -/
def addressFromHexChecked (fuel : Nat) (uninitialised : Address) (hex : Text) :
    Option (Checked (Except Error Address)) :=
  if hex.length ≠ 64 then
    some (.ok (.error ⟨.InvalidHexEncoding, "Hex string must be 64 characters (32 bytes)"⟩))
  else
    loopValue AddressCursor.addr (whileLoop addressTest (addressRound hex) fuel ⟨0, uninitialised⟩)

/-- A result, as an early return or a value. -/
def toExcept {α : Type} : Result α → Except Error α
  | .ok value => .ok value
  | .err error => .error error

/-! ## Rounds -/

variable {hex rest : Text} {c0 c1 : UInt8} {cursor : AddressCursor}

/-- What the loop still returns from a cursor: the bytes written stay, and those of the
slices ahead follow. -/
def addressFrom (hex : Text) (cursor : AddressCursor) : Except Error Address :=
  (toExcept (addressLoop (2 * cursor.i) (hex.drop (2 * cursor.i)))).map fun tail =>
    copyInto 32 (cursor.addr.val.take cursor.i ++ tail)

theorem take_succ_set {bytes : Bytes} {i : Nat} (inside : i < bytes.length) (value : UInt8) :
    (bytes.set i value).take (i + 1) = bytes.take i ++ [value] := by
  rw [List.take_add_one, List.take_set_of_le (Nat.le_refl i), List.getElem?_set_self inside]
  rfl

/-- One round on a slice. -/
def readSlice (cursor : AddressCursor) (c0 c1 : UInt8) : Except Error AddressCursor :=
  match stoulHex [c0, c1] with
  | .error _ => .error (invalidSlice (2 * cursor.i))
  | .ok value => .ok ⟨cursor.i + 1,
      ⟨cursor.addr.val.set cursor.i value.toUInt8, by simp [cursor.addr.property]⟩⟩

theorem addressRound_step (ahead : cursor.i < 32)
    (cut : hex.drop (2 * cursor.i) = c0 :: c1 :: rest) :
    RoundOf (addressRound hex) (fun cursor => cursor.i ≤ 32) (fun cursor => 32 - cursor.i)
      (addressFrom hex) cursor (readSlice cursor c0 c1) := by
  have size := congrArg List.length cut
  rw [List.length_drop, List.length_cons] at size
  have place : sizeMul cursor.i 2 = 2 * cursor.i := by
    rw [sizeMul, sizeModulus]
    omega
  have slice : checkedSubstr hex (2 * cursor.i) 2 = .ok [c0, c1] := by
    rw [checkedSubstr, if_pos (by omega), cut]
    rfl
  have fits : cursor.i + 1 < sizeModulus := by
    rw [sizeModulus]
    omega
  have next : hex.drop (2 * (cursor.i + 1)) = rest := by
    rw [Nat.mul_add, ← List.drop_drop, cut]
    rfl
  refine ⟨?_, ?_, ?_⟩
  · rw [addressRound, place, slice, readSlice, CheckedExit.safe, pure_bind]
    cases stoulHex [c0, c1] with
    | error thrown => rfl
    | ok value =>
        simp [checkedSet, ahead, checkedAdd_of_lt fits]
  · intro after made
    rw [readSlice] at made
    cases converted : stoulHex [c0, c1] with
    | error thrown =>
        rw [converted] at made
        cases made
    | ok value =>
        rw [converted] at made
        cases made
        exact ⟨ahead, Nat.sub_lt_sub_left ahead (Nat.lt_succ_self _)⟩
  · rw [addressFrom, cut, addressLoop, readSlice]
    cases stoulHex [c0, c1] with
    | error thrown => rfl
    | ok value =>
        have inside : cursor.i < cursor.addr.val.length := by rwa [cursor.addr.property]
        change _ = addressFrom hex ⟨cursor.i + 1, _⟩
        rw [addressFrom, next, take_succ_set inside, Nat.mul_add]
        cases addressLoop (2 * cursor.i + 2) rest with
        | err error => rfl
        | ok tail => simp [toExcept, Except.map]

theorem addressLoop_steps (sized : hex.length = 64) :
    LoopOf addressTest (addressRound hex) (fun cursor => cursor.i ≤ 32)
      (fun cursor => 32 - cursor.i) (addressFrom hex) AddressCursor.addr := by
  intro cursor within
  rcases Nat.lt_or_eq_of_le within with ahead | filled
  · refine .inr ⟨by simp [addressTest, ahead], ?_⟩
    rcases cut : hex.drop (2 * cursor.i) with - | ⟨c0, - | ⟨c1, rest⟩⟩
    · have size := congrArg List.length cut
      rw [List.length_drop, sized, List.length_nil] at size
      omega
    · have size := congrArg List.length cut
      rw [List.length_drop, sized, List.length_singleton] at size
      omega
    · exact ⟨_, addressRound_step ahead cut⟩
  · refine .inl ⟨by simp [addressTest, filled], ?_⟩
    have ended : hex.drop (2 * cursor.i) = [] := List.drop_eq_nil_iff.mpr (by omega)
    have whole : cursor.addr.val.take cursor.i ++ [] = cursor.addr.val := by
      rw [List.append_nil, filled, List.take_of_length_le (Nat.le_of_eq cursor.addr.property)]
    rw [addressFrom, ended]
    change Except.ok (copyInto 32 (cursor.addr.val.take cursor.i ++ [])) = _
    rw [whole, Subtype.ext (copyInto_val cursor.addr.property)]

/-! ## The whole loop -/

theorem addressFrom_start (sized : hex.length = 64) (uninitialised : Address) :
    addressFrom hex ⟨0, uninitialised⟩ = toExcept (addressFromHex hex) := by
  rw [addressFrom, addressFromHex, if_neg (not_not.mpr sized)]
  change (toExcept (addressLoop 0 hex)).map _ = _
  cases addressLoop 0 hex <;> rfl

/-- Whatever its array held, the loop of `address_from_hex` meets no fault, ends after its
32 rounds, and returns what the model returns: no byte of the array is left as it was. -/
theorem address_loop_safe {fuel : Nat} (enough : 32 < fuel) (uninitialised : Address)
    (hex : Text) :
    addressFromHexChecked fuel uninitialised hex = some (.ok (toExcept (addressFromHex hex))) := by
  rw [addressFromHexChecked]
  by_cases wrongSize : hex.length ≠ 64
  · rw [if_pos wrongSize, addressFromHex, if_pos wrongSize]
    rfl
  · have sized := not_not.mp wrongSize
    rw [if_neg wrongSize, ← addressFrom_start sized uninitialised]
    exact whileLoop_computes (addressLoop_steps sized) (Nat.zero_le 32) enough

/-- Sixty-four zeros, read over an array that held a seven. -/
theorem address_loop_safe_zeros :
    addressFromHexChecked 33 (copyInto 32 [7]) (List.replicate 64 48) =
      some (.ok (toExcept (addressFromHex (List.replicate 64 48)))) :=
  address_loop_safe (by decide) _ _

end PqcLedger.Crypto
