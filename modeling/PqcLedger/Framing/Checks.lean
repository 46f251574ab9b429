import PqcLedger.Framing.Parser

/-!
# What a rejection reports

A format is also a list of checks in the order in which its fields are read. A
parser reports the checks when it rejects an input with the violation of the
first one that fails, and accepts where none does. The parsers of a fixed input
are located: each starts and stops at an offset and reads a value of the input,
so that checks can speak of offsets instead of remainders.
-/

namespace Framing

variable {ε σ α β : Type}

/-- A condition and the violation of it. -/
structure Check (ε : Type) where
  holds : Bool
  violation : ε
  deriving DecidableEq, Repr

/-- The violation of the first check that fails. -/
def firstFailed : List (Check ε) → Option ε
  | [] => none
  | check :: rest => if check.holds then firstFailed rest else some check.violation

@[simp] theorem firstFailed_nil : firstFailed ([] : List (Check ε)) = none := rfl

@[simp] theorem firstFailed_cons (check : Check ε) (rest : List (Check ε)) :
    firstFailed (check :: rest) = if check.holds then firstFailed rest else some check.violation :=
  rfl

/-- Later checks matter once the earlier ones hold. -/
theorem firstFailed_append (front back : List (Check ε)) :
    firstFailed (front ++ back) = (firstFailed front).or (firstFailed back) := by
  induction front with
  | nil => rfl
  | cons check rest ih =>
      rw [List.cons_append, firstFailed_cons, firstFailed_cons, ih]
      cases check.holds <;> rfl

/-- A violation that is reported is that of some check. -/
theorem firstFailed_mem {checks : List (Check ε)} {violation : ε}
    (failed : firstFailed checks = some violation) :
    violation ∈ checks.map Check.violation := by
  induction checks with
  | nil => cases failed
  | cons check rest ih =>
      rw [firstFailed_cons] at failed
      rw [List.map_cons, List.mem_cons]
      by_cases holds : check.holds
      · rw [if_pos holds] at failed
        exact .inr (ih failed)
      · rw [if_neg holds] at failed
        exact .inl (Option.some.inj failed).symm

namespace Parser

/-- The parser accepts an input on which all checks hold, and rejects another
with the first that fails. -/
def Reports (parser : Parser ε σ α) (input : List σ) (checks : List (Check ε)) : Prop :=
  match parser input with
  | .ok _ => firstFailed checks = none
  | .error violation => firstFailed checks = some violation

/-- From `start` the parser reports the checks; where it accepts, it has read
`value` and stopped at `stop`, inside the input. -/
structure ReadsAt (parser : Parser ε σ α) (data : List σ) (start stop : Nat) (value : α)
    (checks : List (Check ε)) : Prop where
  reports : start ≤ data.length → parser.Reports (data.drop start) checks
  reads : start ≤ data.length → ∀ {other rest}, parser (data.drop start) = .ok (other, rest) →
    other = value ∧ rest = data.drop stop ∧ stop ≤ data.length

namespace ReadsAt

variable {data : List σ} {start middle stop : Nat}

theorem pure (value : α) : ReadsAt (pure value : Parser ε σ α) data start start value [] where
  reports := fun _ => rfl
  reads := by
    intro inside other rest read
    obtain ⟨rfl, rfl⟩ := pure_ok_iff.mp read
    exact ⟨rfl, rfl, inside⟩

theorem reject (violation : ε) (value : α) :
    ReadsAt (reject violation : Parser ε σ α) data start stop value [⟨false, violation⟩] where
  reports := fun _ => rfl
  reads := fun _ _ _ read => (reject_ok_iff.mp read).elim

/-- A guard reports its condition, in any form that it has inside the input. -/
theorem guard {accept claimed : Prop} [Decidable accept] [Decidable claimed] (violation : ε)
    (same : start ≤ data.length → (accept ↔ claimed)) :
    ReadsAt (guard accept violation) data start start () [⟨decide claimed, violation⟩] where
  reports := by
    intro inside
    by_cases holds : accept
    · rw [Reports, Parser.guard, if_pos holds, pure_eq]
      simp [(same inside).mp holds]
    · have fails : ¬ claimed := fun claim => holds ((same inside).mpr claim)
      rw [Reports, Parser.guard, if_neg holds, Parser.reject]
      simp [fails]
  reads := by
    intro inside other rest read
    obtain ⟨-, rfl⟩ := guard_ok_iff.mp read
    exact ⟨rfl, rfl, inside⟩

/-- Taking symbols checks that the input reaches to their end. -/
theorem take (violation : ε) (count : Nat) :
    ReadsAt (take violation count) data start (start + count) ((data.drop start).take count)
      [⟨decide (start + count ≤ data.length), violation⟩] where
  reports := by
    intro inside
    have enough : count ≤ (data.drop start).length ↔ start + count ≤ data.length := by
      rw [List.length_drop]
      omega
    rw [Reports, Parser.take]
    by_cases reaches : start + count ≤ data.length
    · rw [if_pos (enough.mpr reaches)]
      simp [reaches]
    · rw [if_neg (fun fits => reaches (enough.mp fits))]
      simp [reaches]
  reads := by
    intro inside other rest read
    obtain ⟨sized, split⟩ := take_ok_iff.mp read
    have length := congrArg List.length split
    rw [List.length_drop, List.length_append, sized] at length
    refine ⟨?_, ?_, by omega⟩
    · rw [split, List.take_left' sized]
    · rw [← List.drop_drop, split, List.drop_left' sized]

/-- The end of the input is reached when no offset is left. -/
theorem finish (violation : ε) :
    ReadsAt (finish violation) data start data.length ()
      [⟨decide (data.length ≤ start), violation⟩] where
  reports := by
    intro inside
    rw [Reports, Parser.finish]
    by_cases exhausted : data.length ≤ start
    · rw [if_pos (List.drop_eq_nil_iff.mpr exhausted)]
      simp [exhausted]
    · rw [if_neg (fun empty => exhausted (List.drop_eq_nil_iff.mp empty))]
      simp [exhausted]
  reads := by
    intro inside other rest read
    obtain ⟨-, rfl⟩ := finish_ok_iff.mp read
    exact ⟨rfl, List.drop_length.symm, Nat.le_refl _⟩

/-- The checks may be grouped in another way. -/
theorem congr {parser : Parser ε σ α} {value : α} {checks more : List (Check ε)}
    (reads : ReadsAt parser data start stop value checks) (same : checks = more) :
    ReadsAt parser data start stop value more :=
  same ▸ reads

/-- Stages in sequence report their checks in sequence. -/
theorem bind {first : Parser ε σ α} {next : α → Parser ε σ β} {value : α} {result : β}
    {checks more : List (Check ε)} (stage : ReadsAt first data start middle value checks)
    (later : ReadsAt (next value) data middle stop result more) :
    ReadsAt (first >>= next) data start stop result (checks ++ more) where
  reports := by
    intro inside
    have reported := stage.reports inside
    rw [Reports, bind_eq, firstFailed_append]
    rw [Reports] at reported
    cases outcome : first (data.drop start) with
    | error violation =>
        rw [outcome] at reported
        dsimp only at reported ⊢
        rw [reported]
        rfl
    | ok taken =>
        obtain ⟨other, rest⟩ := taken
        obtain ⟨rfl, rfl, within⟩ := stage.reads inside outcome
        rw [outcome] at reported
        dsimp only at reported ⊢
        rw [reported, Option.none_or]
        exact later.reports within
  reads := by
    intro inside other rest read
    obtain ⟨found, remaining, firstRead, nextRead⟩ := bind_ok_iff.mp read
    obtain ⟨rfl, rfl, within⟩ := stage.reads inside firstRead
    exact later.reads within nextRead

end ReadsAt

end Parser

end Framing
