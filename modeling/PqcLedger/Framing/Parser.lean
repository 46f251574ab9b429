import PqcLedger.Framing.BigEndian

/-!
# Parsers of self-delimiting fields

A `Parser` consumes a front part of its input or rejects it with a violation.
`Recognizes` relates a parser to the layout it accepts: the parser returns a
value exactly when the value is admitted and the input starts with its layout.
A recognised layout is self-delimiting, so concatenated fields cannot be
re-framed.
-/

namespace Framing

variable {ε σ α β : Type}

/-- Consume a front part of the input, or reject it. -/
def Parser (ε σ α : Type) := List σ → Except ε (α × List σ)

namespace Parser

instance : Monad (Parser ε σ) where
  pure value := fun input => .ok (value, input)
  bind first next := fun input =>
    match first input with
    | .ok (value, rest) => next value rest
    | .error violation => .error violation

/-- Reject every input. -/
def reject (violation : ε) : Parser ε σ α := fun _ => .error violation

/-- Continue only when the condition holds. -/
def guard (accept : Prop) [Decidable accept] (violation : ε) : Parser ε σ Unit :=
  if accept then pure () else reject violation

/-- Consume exactly `count` symbols. -/
def take (short : ε) (count : Nat) : Parser ε σ (List σ) := fun input =>
  if count ≤ input.length then .ok (input.take count, input.drop count) else .error short

/-- Accept only an exhausted input. -/
def finish (trailing : ε) : Parser ε σ Unit := fun input =>
  if input = [] then .ok ((), []) else .error trailing

theorem pure_eq (value : α) (input : List σ) :
    (pure value : Parser ε σ α) input = .ok (value, input) := rfl

theorem bind_eq (first : Parser ε σ α) (next : α → Parser ε σ β) (input : List σ) :
    (first >>= next) input =
      match first input with
      | .ok (value, rest) => next value rest
      | .error violation => .error violation := rfl

theorem pure_bind (value : α) (next : α → Parser ε σ β) : (pure value >>= next) = next value := rfl

theorem bind_assoc {γ : Type} (first : Parser ε σ α) (second : α → Parser ε σ β)
    (third : β → Parser ε σ γ) :
    first >>= second >>= third = first >>= fun value => second value >>= third := by
  funext input
  simp only [bind_eq]
  cases first input with
  | error violation => rfl
  | ok parsed => rfl

theorem reject_bind (violation : ε) (next : α → Parser ε σ β) :
    (reject violation >>= next) = reject violation := rfl

theorem pure_ok_iff {value result : α} {input rest : List σ} :
    (pure value : Parser ε σ α) input = .ok (result, rest) ↔ value = result ∧ input = rest := by
  simp [pure_eq]

/-- A sequence accepts exactly when both stages accept in turn. -/
theorem bind_ok_iff {first : Parser ε σ α} {next : α → Parser ε σ β}
    {input rest : List σ} {result : β} :
    (first >>= next) input = .ok (result, rest) ↔
      ∃ value middle, first input = .ok (value, middle) ∧
        next value middle = .ok (result, rest) := by
  rw [bind_eq]
  cases first input with
  | error violation => simp
  | ok parsed =>
      obtain ⟨value, middle⟩ := parsed
      simp

theorem reject_ok_iff {violation : ε} {input rest : List σ} {result : α} :
    (reject violation : Parser ε σ α) input = .ok (result, rest) ↔ False := by
  simp [reject]

theorem guard_ok_iff {accept : Prop} [Decidable accept] {violation : ε}
    {input rest : List σ} {result : Unit} :
    guard accept violation input = .ok (result, rest) ↔ accept ∧ input = rest := by
  unfold guard
  split
  · simp [pure_eq, *]
  · simp [reject, *]

/-- A guard that holds is passed; one that fails rejects. -/
theorem guard_bind_of_holds {accept : Prop} [Decidable accept] (violation : ε)
    (next : Unit → Parser ε σ α) (holds : accept) :
    guard accept violation >>= next = next () := by
  funext input
  rw [bind_eq, guard, if_pos holds]
  rfl

theorem guard_bind_of_fails {accept : Prop} [Decidable accept] (violation : ε)
    (next : Unit → Parser ε σ α) (fails : ¬ accept) :
    guard accept violation >>= next = reject violation := by
  funext input
  rw [bind_eq, guard, if_neg fails]
  rfl

/-- Two guards that report alike are one. -/
theorem guard_and {left right : Prop} [Decidable left] [Decidable right] (violation : ε)
    (next : Unit → Parser ε σ α) :
    guard (left ∧ right) violation >>= next =
      guard left violation >>= fun _ => guard right violation >>= next := by
  by_cases first : left
  · rw [guard_bind_of_holds violation _ first]
    by_cases second : right
    · rw [guard_bind_of_holds violation _ ⟨first, second⟩, guard_bind_of_holds violation _ second]
    · rw [guard_bind_of_fails violation _ (fun both => second both.2),
        guard_bind_of_fails violation _ second]
  · rw [guard_bind_of_fails violation _ (fun both => first both.1),
      guard_bind_of_fails violation _ first]

theorem take_ok_iff {short : ε} {count : Nat} {input taken rest : List σ} :
    take short count input = .ok (taken, rest) ↔
      taken.length = count ∧ input = taken ++ rest := by
  unfold take
  constructor
  · intro accepted
    split at accepted
    · rename_i enough
      simp only [Except.ok.injEq, Prod.mk.injEq] at accepted
      obtain ⟨rfl, rfl⟩ := accepted
      exact ⟨List.length_take_of_le enough, (List.take_append_drop count input).symm⟩
    · cases accepted
  · rintro ⟨rfl, rfl⟩
    simp

theorem finish_ok_iff {trailing : ε} {input rest : List σ} {result : Unit} :
    finish trailing input = .ok (result, rest) ↔ input = [] ∧ rest = [] := by
  unfold finish
  split <;> simp [*, eq_comm]

end Parser

/-- The parser returns `value` and `rest` exactly when `value` is admitted and
the input is its layout followed by `rest`. -/
structure Recognizes (parser : Parser ε σ α) (admits : α → Prop)
    (layout : α → List σ) : Prop where
  ok_iff : ∀ {input value rest},
    parser input = .ok (value, rest) ↔ admits value ∧ input = layout value ++ rest

namespace Recognizes

variable {parser : Parser ε σ α} {admits : α → Prop} {layout : α → List σ}

/-- An admitted value is parsed back from its layout, whatever follows. -/
theorem complete (recognizes : Recognizes parser admits layout) {value : α}
    (admitted : admits value) (rest : List σ) :
    parser (layout value ++ rest) = .ok (value, rest) :=
  recognizes.ok_iff.mpr ⟨admitted, rfl⟩

/-- A recognised layout is self-delimiting: no continuation re-frames it. -/
theorem append_inj (recognizes : Recognizes parser admits layout) {left right : α}
    (leftAdmitted : admits left) (rightAdmitted : admits right) {leftRest rightRest : List σ} :
    layout left ++ leftRest = layout right ++ rightRest ↔ left = right ∧ leftRest = rightRest := by
  constructor
  · intro same
    have parsed := recognizes.complete leftAdmitted leftRest
    rw [same, recognizes.complete rightAdmitted] at parsed
    simp only [Except.ok.injEq, Prod.mk.injEq] at parsed
    exact ⟨parsed.1.symm, parsed.2.symm⟩
  · rintro ⟨rfl, rfl⟩
    rfl

/-- Transport recognition along an invertible reading of the parsed value. -/
theorem map (recognizes : Recognizes parser admits layout) (read : α → β) (write : β → α)
    (readWrite : ∀ value, read (write value) = value)
    (writeRead : ∀ raw, admits raw → write (read raw) = raw)
    (admitsWrite : ∀ value, admits (write value)) :
    Recognizes (parser >>= fun raw => pure (read raw)) (fun _ => True)
      (fun value => layout (write value)) where
  ok_iff := by
    intro input value rest
    simp only [Parser.bind_ok_iff, Parser.pure_ok_iff, recognizes.ok_iff, true_and]
    constructor
    · rintro ⟨raw, middle, ⟨admitted, rfl⟩, rfl, rfl⟩
      rw [writeRead raw admitted]
    · rintro rfl
      exact ⟨write value, rest, ⟨admitsWrite value, rfl⟩, readWrite value, rfl⟩

end Recognizes

/-- Exactly `count` symbols are recognised by their length alone. -/
theorem recognizes_take (short : ε) (count : Nat) :
    Recognizes (Parser.take (σ := σ) short count) (fun taken => taken.length = count) id where
  ok_iff := Parser.take_ok_iff

end Framing
