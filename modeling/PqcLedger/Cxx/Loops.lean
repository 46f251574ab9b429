import PqcLedger.Cxx.Checked

/-!
# Loops of a checked program

A `while` or `for` loop whose test and rounds are checked, and whose rounds may
leave it early. The loop runs on fuel. It does what a recursion says, without a
fault, if every round takes one step of the recursion and brings the loop nearer
to its end; the fuel then only has to exceed the distance.
-/

namespace PqcLedger.Cxx

variable {σ τ ε : Type}

/-- A checked computation that may end early, by an exception or by a return. -/
abbrev CheckedExit (ε α : Type) := ExceptT ε Checked α

@[simp] theorem CheckedExit.safe {α : Type} (value : α) :
    ((Except.ok value : Checked α) : CheckedExit ε α) = pure value := rfl

@[simp] theorem CheckedExit.attempt_ok {α : Type} (value : α) :
    ((Except.ok value : Except ε α) : CheckedExit ε α) = pure value := rfl

/-- An attempt made piece by piece. -/
@[simp] theorem CheckedExit.attempt_bind {α β : Type} (first : Except ε α)
    (next : α → Except ε β) :
    ((first >>= next : Except ε β) : CheckedExit ε β) =
      (first : CheckedExit ε α) >>= fun value => (next value : CheckedExit ε β) := by
  cases first <;> rfl

/-- The loop, `none` when the fuel runs out. -/
def whileLoop (goes : σ → Checked Bool) (round : σ → CheckedExit ε σ) :
    Nat → σ → Option (Checked (Except ε σ))
  | 0, _ => none
  | fuel + 1, state =>
      match goes state with
      | .error fault => some (.error fault)
      | .ok false => some (.ok (.ok state))
      | .ok true =>
          match (round state).run with
          | .ok (.ok next) => whileLoop goes round fuel next
          | stopped => some stopped

/-- The part of the last state that a function returns. -/
def loopValue (value : σ → τ) (run : Option (Checked (Except ε σ))) :
    Option (Checked (Except ε τ)) :=
  run.map fun checked => checked.map fun stopped => stopped.map value

/-- A checked operation ahead of a loop. -/
def afterChecked {α : Type} (operation : Checked α)
    (next : α → Option (Checked (Except ε τ))) : Option (Checked (Except ε τ)) :=
  match operation with
  | .error fault => some (.error fault)
  | .ok value => next value

/-- A call ahead of a loop, which may throw. -/
def afterCall {α : Type} (call : Except ε α) (next : α → Option (Checked (Except ε τ))) :
    Option (Checked (Except ε τ)) :=
  match call with
  | .error early => some (.ok (.error early))
  | .ok value => next value

/-- A round makes an attempt, which takes one step of a recursion: the recursion has
the result of the attempt, or of the state that it leads to. -/
structure RoundOf (round : σ → CheckedExit ε σ) (inv : σ → Prop) (distance : σ → Nat)
    (result : σ → Except ε τ) (state : σ) (attempt : Except ε σ) : Prop where
  ran : round state = (attempt : CheckedExit ε σ)
  nearer : ∀ next, attempt = .ok next → inv next ∧ distance next < distance state
  same : result state = attempt >>= result

/-- The loop takes the steps of a recursion: where it stops the recursion has its
result, and elsewhere a round is one of its steps. -/
def LoopOf (goes : σ → Checked Bool) (round : σ → CheckedExit ε σ) (inv : σ → Prop)
    (distance : σ → Nat) (result : σ → Except ε τ) (final : σ → τ) : Prop :=
  ∀ state, inv state →
    (goes state = .ok false ∧ result state = .ok (final state)) ∨
      (goes state = .ok true ∧ ∃ attempt, RoundOf round inv distance result state attempt)

variable {goes : σ → Checked Bool} {round : σ → CheckedExit ε σ} {inv : σ → Prop}
  {distance : σ → Nat} {result : σ → Except ε τ} {final : σ → τ} {state : σ} {fuel : Nat}

/-- The rule of the loop: it ends without a fault, either early or in a state of the
invariant in which it stops, and with the result of the recursion. -/
theorem whileLoop_ends (steps : LoopOf goes round inv distance result final) (start : inv state)
    (enough : distance state < fuel) :
    ∃ stopped, whileLoop goes round fuel state = some (.ok stopped) ∧
      stopped.map final = result state ∧
        ∀ last, stopped = .ok last → inv last ∧ goes last = .ok false := by
  induction fuel generalizing state with
  | zero => exact absurd enough (Nat.not_lt_zero _)
  | succ fuel ih =>
      rcases steps state start with ⟨ends, done⟩ | ⟨goesOn, attempt, taken⟩
      · refine ⟨.ok state, ?_, done.symm, ?_⟩
        · rw [whileLoop, ends]
        · rintro last ⟨⟩
          exact ⟨start, ends⟩
      · rw [whileLoop, goesOn, taken.ran, taken.same]
        cases attempt with
        | error early =>
            refine ⟨.error early, rfl, rfl, ?_⟩
            rintro last ⟨⟩
        | ok next =>
            obtain ⟨kept, nearer⟩ := taken.nearer next rfl
            exact ih kept (by omega)

/-- The value of the loop is the result of the recursion. -/
theorem whileLoop_computes (steps : LoopOf goes round inv distance result final)
    (start : inv state) (enough : distance state < fuel) :
    loopValue final (whileLoop goes round fuel state) = some (.ok (result state)) := by
  obtain ⟨stopped, stops, computes, -⟩ := whileLoop_ends steps start enough
  rw [stops, ← computes]
  rfl

end PqcLedger.Cxx
