import PqcLedger.Cxx.Basic

/-!
# Checked arithmetic and accesses

The operations of a program, each with the condition under which it is safe: a
sum or a difference of sizes that does not wrap, an index or a range inside its
vector. Where the checks pass, the results are those of the unchecked program.
-/

namespace PqcLedger.Cxx

/-- The unsafe operation that a checked run meets first. -/
inductive Fault where
  | sumWraps
  | differenceWraps
  | indexOutside
  | rangeOutside
  deriving DecidableEq, Repr

/-- A run that stops at the first unsafe operation. -/
abbrev Checked (α : Type) := Except Fault α

@[simp] theorem Checked.bind_ok {α β : Type} (value : α) (next : α → Checked β) :
    (Except.ok value : Checked α) >>= next = next value := rfl

@[simp] theorem Checked.pure_eq {α : Type} (value : α) : (pure value : Checked α) = .ok value := rfl

/-- A sum of sizes that does not wrap. -/
def checkedAdd (left right : Nat) : Checked Nat :=
  if left + right < sizeModulus then .ok (sizeAdd left right) else .error .sumWraps

/-- A difference of sizes that does not wrap. -/
def checkedSub (left right : Nat) : Checked Nat :=
  if right ≤ left then .ok (sizeSub left right) else .error .differenceWraps

/-- `bytes[index]`. -/
def checkedIndex (bytes : Bytes) (index : Nat) : Checked UInt8 :=
  match bytes[index]? with
  | some byte => .ok byte
  | none => .error .indexOutside

/-- The bytes between two iterators, given by their offsets. -/
def checkedRange (bytes : Bytes) (first last : Nat) : Checked Bytes :=
  if first ≤ last ∧ last ≤ bytes.length then .ok ((bytes.drop first).take (last - first))
  else .error .rangeOutside

theorem checkedAdd_of_lt {left right : Nat} (fits : left + right < sizeModulus) :
    checkedAdd left right = .ok (left + right) := by
  rw [checkedAdd, if_pos fits, sizeAdd_of_lt fits]

theorem checkedSub_of_le {left right : Nat} (ordered : right ≤ left) :
    checkedSub left right = .ok (left - right) := by
  rw [checkedSub, if_pos ordered, sizeSub_of_le ordered]

theorem checkedIndex_of_lt {bytes : Bytes} {index : Nat} (inside : index < bytes.length) :
    checkedIndex bytes index = .ok (bytes.getD index 0) := by
  rw [checkedIndex, List.getElem?_eq_getElem inside, List.getD_eq_getElem?_getD,
    List.getElem?_eq_getElem inside]
  rfl

theorem checkedRange_of_le {bytes : Bytes} {first last : Nat} (ordered : first ≤ last)
    (inside : last ≤ bytes.length) :
    checkedRange bytes first last = .ok ((bytes.drop first).take (last - first)) :=
  if_pos ⟨ordered, inside⟩

/-- A list of checked operations that are all safe. -/
theorem Checked.mapM_ok {α β : Type} {operation : α → Checked β} {result : α → β} {list : List α}
    (safe : ∀ item ∈ list, operation item = .ok (result item)) :
    list.mapM operation = .ok (list.map result) := by
  induction list with
  | nil => rfl
  | cons item rest ih =>
      rw [List.forall_mem_cons] at safe
      rw [List.mapM_cons, safe.1, ih safe.2]
      rfl

end PqcLedger.Cxx
