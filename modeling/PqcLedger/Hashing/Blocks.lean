import Mathlib.Data.List.Basic

/-!
# Absorbing a stream in blocks

A compression function takes a state and a block of a fixed size. A stream holds
the state reached by the whole blocks so far and the elements left over, and
absorbs whatever chunks it is given. Where the chunks are cut does not matter:
absorbing them in turn is absorbing their concatenation at once.
-/

namespace Hashing

variable {σ α : Type}

/-- The whole blocks at the front of a list, cut one after the other. -/
def blocks (size : Nat) (data : List α) : List (List α) :=
  (List.range (data.length / size)).map fun i => (data.drop (i * size)).take size

/-- The length of the whole blocks at the front of a list. -/
def wholeLength (size : Nat) (data : List α) : Nat := data.length / size * size

theorem wholeLength_le (size : Nat) (data : List α) : wholeLength size data ≤ data.length :=
  Nat.div_mul_le_self _ _

/-- What is left over is shorter than a block. -/
theorem drop_wholeLength_lt {size : Nat} (positive : 0 < size) (data : List α) :
    (data.drop (wholeLength size data)).length < size := by
  have shorter := Nat.mod_lt data.length positive
  have split := Nat.div_add_mod' data.length size
  rw [List.length_drop, wholeLength]
  omega

theorem blocks_of_lt {size : Nat} {data : List α} (short : data.length < size) :
    blocks size data = [] := by
  rw [blocks, Nat.div_eq_of_lt short]
  rfl

theorem blocks_length {size : Nat} {data block : List α} (isBlock : block ∈ blocks size data) :
    block.length = size := by
  obtain ⟨i, inside, rfl⟩ := List.mem_map.mp isBlock
  have upTo : (i + 1) * size ≤ data.length :=
    Nat.le_trans (Nat.mul_le_mul_right size (List.mem_range.mp inside))
      (Nat.div_mul_le_self data.length size)
  rw [Nat.succ_mul] at upTo
  rw [List.length_take, List.length_drop]
  omega

/-- A block in front is the first one. -/
theorem blocks_cons {size : Nat} {block : List α} (positive : 0 < size)
    (sized : block.length = size) (rest : List α) :
    blocks size (block ++ rest) = block :: blocks size rest := by
  have count : (block ++ rest).length / size = rest.length / size + 1 := by
    rw [List.length_append, sized, Nat.add_div_left _ positive]
  rw [blocks, blocks, count, List.range_succ_eq_map, List.map_cons, List.map_map]
  congr 1
  · simp [← sized]
  · apply List.map_congr_left
    intro i _
    have offset : (i + 1) * size = block.length + i * size := by
      rw [sized, Nat.succ_mul, Nat.add_comm]
    simp only [Function.comp_apply, Nat.succ_eq_add_one]
    rw [offset, List.drop_length_add_append]

theorem blocks_singleton {size : Nat} {block : List α} (positive : 0 < size)
    (sized : block.length = size) : blocks size block = [block] := by
  have none : blocks size ([] : List α) = [] := blocks_of_lt positive
  have cut := blocks_cons positive sized []
  rwa [List.append_nil, none] at cut

/-- Whole blocks in front are cut on their own. -/
theorem blocks_append {size : Nat} {front : List α} (positive : 0 < size)
    (whole : front.length % size = 0) (rest : List α) :
    blocks size (front ++ rest) = blocks size front ++ blocks size rest := by
  induction count : front.length / size generalizing front with
  | zero =>
      have bounded := (Nat.div_eq_zero_iff_lt positive).mp count
      rw [Nat.mod_eq_of_lt bounded] at whole
      have none : blocks size ([] : List α) = [] := blocks_of_lt positive
      rw [List.eq_nil_of_length_eq_zero whole, List.nil_append, none, List.nil_append]
  | succ count ih =>
      have enough : size ≤ front.length := by
        by_contra short
        rw [Nat.div_eq_of_lt (Nat.lt_of_not_le short)] at count
        cases count
      obtain ⟨block, tail, rfl, sized⟩ : ∃ block tail, front = block ++ tail ∧
          block.length = size :=
        ⟨front.take size, front.drop size, (List.take_append_drop size front).symm,
          List.length_take_of_le enough⟩
      rw [List.length_append, sized] at whole count
      rw [Nat.add_mod_left] at whole
      rw [Nat.add_div_left _ positive, Nat.succ_inj] at count
      rw [List.append_assoc, blocks_cons positive sized, blocks_cons positive sized,
        ih whole count, List.cons_append]

/-- The blocks of a list are those of its whole part. -/
theorem blocks_take_wholeLength {size : Nat} (positive : 0 < size) (data : List α) :
    blocks size (data.take (wholeLength size data)) = blocks size data := by
  have length : (data.take (wholeLength size data)).length = wholeLength size data :=
    List.length_take_of_le (wholeLength_le size data)
  have whole : (data.take (wholeLength size data)).length % size = 0 := by
    rw [length, wholeLength, Nat.mul_mod_left]
  have split := blocks_append positive whole (data.drop (wholeLength size data))
  rw [List.take_append_drop, blocks_of_lt (drop_wholeLength_lt positive data),
    List.append_nil] at split
  exact split.symm

/-! ## Streams -/

/-- The state reached by the whole blocks so far, and what is left over. -/
@[ext] structure BlockStream (σ α : Type) where
  state : σ
  buffer : List α

namespace BlockStream

/-- Take in a chunk: compress the whole blocks, keep the rest. -/
def absorb (size : Nat) (compress : σ → List α → σ) (stream : BlockStream σ α)
    (chunk : List α) : BlockStream σ α where
  state := (blocks size (stream.buffer ++ chunk)).foldl compress stream.state
  buffer := (stream.buffer ++ chunk).drop (wholeLength size (stream.buffer ++ chunk))

variable {size : Nat} {compress : σ → List α → σ} {stream : BlockStream σ α}

theorem absorb_buffer_length (chunk : List α) :
    (stream.absorb size compress chunk).buffer.length =
      (stream.buffer.length + chunk.length) % size := by
  have split := Nat.div_add_mod' (stream.buffer.length + chunk.length) size
  rw [absorb, List.length_drop, wholeLength, List.length_append]
  omega

theorem absorb_buffer_lt (positive : 0 < size) (chunk : List α) :
    (stream.absorb size compress chunk).buffer.length < size :=
  drop_wholeLength_lt positive _

/-- Nothing is done for an empty chunk. -/
theorem absorb_nil (short : stream.buffer.length < size) :
    stream.absorb size compress [] = stream := by
  have none : wholeLength size stream.buffer = 0 := by
    rw [wholeLength, Nat.div_eq_of_lt short, Nat.zero_mul]
  ext1
  · rw [absorb, List.append_nil, blocks_of_lt short]
    rfl
  · rw [absorb, List.append_nil, none, List.drop_zero]

/-- Two chunks in turn are their concatenation. -/
theorem absorb_absorb (positive : 0 < size) (first second : List α) :
    (stream.absorb size compress first).absorb size compress second =
      stream.absorb size compress (first ++ second) := by
  generalize dataIs : stream.buffer ++ first = data
  have length : (data.take (wholeLength size data)).length = wholeLength size data :=
    List.length_take_of_le (wholeLength_le size data)
  have whole : (data.take (wholeLength size data)).length % size = 0 := by
    rw [length, wholeLength, Nat.mul_mod_left]
  have rejoined : stream.buffer ++ (first ++ second) =
      data.take (wholeLength size data) ++ (data.drop (wholeLength size data) ++ second) := by
    rw [← List.append_assoc, ← List.append_assoc, List.take_append_drop, dataIs]
  have total : wholeLength size (stream.buffer ++ (first ++ second)) =
      wholeLength size data + wholeLength size (data.drop (wholeLength size data) ++ second) := by
    have multiple : wholeLength size data = data.length / size * size := rfl
    rw [rejoined, wholeLength, List.length_append, length, multiple, Nat.add_comm,
      Nat.add_mul_div_right _ _ positive, Nat.add_mul, Nat.add_comm]
    rfl
  ext1
  · simp only [absorb, dataIs]
    rw [rejoined, blocks_append positive whole, List.foldl_append,
      blocks_take_wholeLength positive]
  · simp only [absorb, dataIs]
    rw [total, rejoined, ← List.drop_drop, List.drop_left' length]

/-- However a stream is cut into chunks, the same is absorbed. -/
theorem absorb_chunks (positive : 0 < size) (short : stream.buffer.length < size)
    (chunks : List (List α)) :
    chunks.foldl (absorb size compress) stream =
      stream.absorb size compress chunks.flatten := by
  induction chunks generalizing stream with
  | nil => exact (absorb_nil short).symm
  | cons chunk rest ih =>
      rw [List.foldl_cons, ih (absorb_buffer_lt positive chunk), absorb_absorb positive,
        List.flatten_cons]

end BlockStream

end Hashing
