import Mathlib.Data.List.Basic

/-!
# Frames

A frame says which symbols of a sequence are given and which are payload, of
which it fixes only the number. Two sequences in one frame agree wherever the
frame gives the symbol.
-/

namespace Framing

variable {σ : Type}

/-- A stretch of given symbols, or of payload. -/
inductive Slot (σ : Type) where
  | structural (symbols : List σ)
  | payload (count : Nat)
  deriving DecidableEq, Repr

namespace Slot

/-- How many symbols the slot takes. -/
def length : Slot σ → Nat
  | .structural symbols => symbols.length
  | .payload count => count

/-- The offsets of the given symbols in the slot. -/
def offsets : Slot σ → List Nat
  | .structural symbols => List.range symbols.length
  | .payload _ => []

/-- The symbols can stand in the slot. -/
def Holds : Slot σ → List σ → Prop
  | .structural symbols, field => field = symbols
  | .payload count, field => field.length = count

theorem Holds.length_eq {slot : Slot σ} {field : List σ} (holds : slot.Holds field) :
    field.length = slot.length := by
  cases slot with
  | structural symbols => exact congrArg List.length holds
  | payload count => exact holds

/-- A slot with given symbols holds one sequence only. -/
theorem Holds.agree {slot : Slot σ} {left right : List σ} {index : Nat}
    (leftHolds : slot.Holds left) (rightHolds : slot.Holds right) (given : index ∈ slot.offsets) :
    left = right ∧ index < left.length := by
  cases slot with
  | payload count => cases given
  | structural symbols =>
      rw [Holds] at leftHolds rightHolds
      rw [leftHolds, rightHolds]
      exact ⟨rfl, List.mem_range.mp given⟩

end Slot

/-- The sequence is one field for each slot. -/
inductive InFrame : List (Slot σ) → List σ → Prop where
  | nil : InFrame [] []
  | cons {slot : Slot σ} {frame : List (Slot σ)} {field rest : List σ} :
      slot.Holds field → InFrame frame rest → InFrame (slot :: frame) (field ++ rest)

/-- The offsets of the given symbols in a frame. -/
def structuralOffsets : List (Slot σ) → List Nat
  | [] => []
  | slot :: frame => slot.offsets ++ (structuralOffsets frame).map (slot.length + ·)

namespace InFrame

variable {frame : List (Slot σ)} {left right : List σ}

/-- A given field stands for itself, a payload for its length. -/
theorem structural (symbols : List σ) (rest : InFrame frame left) :
    InFrame (.structural symbols :: frame) (symbols ++ left) :=
  .cons rfl rest

theorem payload {count : Nat} {field : List σ} (sized : field.length = count)
    (rest : InFrame frame left) : InFrame (.payload count :: frame) (field ++ left) :=
  .cons sized rest

/-- Sequences in one frame agree on its given symbols. -/
theorem agree (leftIn : InFrame frame left) (rightIn : InFrame frame right) :
    ∀ index ∈ structuralOffsets frame, left[index]? = right[index]? := by
  induction leftIn generalizing right with
  | nil =>
      intro index given
      cases given
  | @cons slot frame field rest holds restIn ih =>
      cases rightIn with
      | @cons _ _ other otherRest otherHolds otherIn =>
          intro index given
          rcases List.mem_append.mp given with here | behind
          · obtain ⟨rfl, inside⟩ := holds.agree otherHolds here
            rw [List.getElem?_append_left inside, List.getElem?_append_left inside]
          · obtain ⟨later, laterGiven, rfl⟩ := List.mem_map.mp behind
            have skip : ∀ {symbols : List σ} (tail : List σ), slot.Holds symbols →
                (symbols ++ tail)[slot.length + later]? = tail[later]? := by
              intro symbols tail fills
              rw [← fills.length_eq, List.getElem?_append_right (Nat.le_add_right ..),
                Nat.add_sub_cancel_left]
            rw [skip rest holds, skip otherRest otherHolds]
            exact ih otherIn later laterGiven

end InFrame

end Framing
