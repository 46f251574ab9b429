import PqcLedger.Framing.Parser

/-!
# Parsers of growing inputs

An incremental parser reads on when its input grows and, on a front part of an
input that it accepts, either reads the same value or reports that the input is
too short. Such parsers compose, and one that must exhaust its input takes no
proper front part and no continuation of an input it takes.
-/

namespace Framing

variable {ε σ α β : Type}

/-- Appending to the input does not change what is read, and removing from its
end changes it to a violation that counts as shortness. -/
structure Incremental (short : ε → Prop) (parser : Parser ε σ α) : Prop where
  extend : ∀ {front value rest}, parser front = .ok (value, rest) →
    ∀ back, parser (front ++ back) = .ok (value, rest ++ back)
  cut : ∀ {front back value rest}, parser (front ++ back) = .ok (value, rest) →
    (∃ left, parser front = .ok (value, left) ∧ rest = left ++ back) ∨
      ∃ violation, parser front = .error violation ∧ short violation

namespace Incremental

variable {short : ε → Prop}

theorem pure (value : α) : Incremental short (pure value : Parser ε σ α) where
  extend := by
    intro front other rest read back
    obtain ⟨rfl, rfl⟩ := Parser.pure_ok_iff.mp read
    rfl
  cut := by
    intro front back other rest read
    obtain ⟨rfl, rfl⟩ := Parser.pure_ok_iff.mp read
    exact .inl ⟨front, rfl, rfl⟩

/-- A parser that accepts nothing has nothing to read on from. -/
theorem reject (violation : ε) : Incremental short (Parser.reject violation : Parser ε σ α) where
  extend := fun read => (Parser.reject_ok_iff.mp read).elim
  cut := fun read => (Parser.reject_ok_iff.mp read).elim

theorem guard (accept : Prop) [Decidable accept] (violation : ε) :
    Incremental short (Parser.guard accept violation : Parser ε σ Unit) := by
  by_cases holds : accept
  · rw [Parser.guard, if_pos holds]
    exact pure ()
  · rw [Parser.guard, if_neg holds]
    exact reject violation

/-- A field of fixed length is the one place where an input can be too short. -/
theorem take {violation : ε} (isShort : short violation) (count : Nat) :
    Incremental short (Parser.take violation count : Parser ε σ (List σ)) where
  extend := by
    intro front taken rest read back
    obtain ⟨sized, rfl⟩ := Parser.take_ok_iff.mp read
    exact Parser.take_ok_iff.mpr ⟨sized, List.append_assoc ..⟩
  cut := by
    intro front back taken rest read
    obtain ⟨sized, split⟩ := Parser.take_ok_iff.mp read
    by_cases enough : count ≤ front.length
    · left
      have inFront : front = taken ++ front.drop count := by
        have sameTake := congrArg (List.take count) split
        rw [List.take_append_of_le_length enough, List.take_left' sized] at sameTake
        rw [← sameTake, List.take_append_drop]
      refine ⟨front.drop count, Parser.take_ok_iff.mpr ⟨sized, inFront⟩, ?_⟩
      have sameDrop := congrArg (List.drop count) split
      rw [List.drop_append_of_le_length enough, List.drop_left' sized] at sameDrop
      exact sameDrop.symm
    · exact .inr ⟨violation, if_neg enough, isShort⟩

/-- Incremental stages in sequence are incremental. -/
theorem bind {first : Parser ε σ α} {next : α → Parser ε σ β}
    (stage : Incremental short first) (later : ∀ value, Incremental short (next value)) :
    Incremental short (first >>= next) where
  extend := by
    intro front result rest read back
    obtain ⟨value, middle, firstRead, nextRead⟩ := Parser.bind_ok_iff.mp read
    exact Parser.bind_ok_iff.mpr
      ⟨value, middle ++ back, stage.extend firstRead back, (later value).extend nextRead back⟩
  cut := by
    intro front back result rest read
    obtain ⟨value, middle, firstRead, nextRead⟩ := Parser.bind_ok_iff.mp read
    rw [Parser.bind_eq]
    rcases stage.cut firstRead with ⟨left, frontRead, rfl⟩ | ⟨violation, failed, isShort⟩
    · rw [frontRead]
      exact (later value).cut nextRead
    · rw [failed]
      exact .inr ⟨violation, rfl, isShort⟩

/-- A proper front part of an exhausted input is too short. -/
theorem front_rejected {parser : Parser ε σ α} (incremental : Incremental short parser)
    {front back : List σ} {value : α} (taken : parser (front ++ back) = .ok (value, []))
    (proper : back ≠ []) : ∃ violation, parser front = .error violation ∧ short violation := by
  rcases incremental.cut taken with ⟨left, -, split⟩ | rejected
  · obtain ⟨-, empty⟩ := List.append_eq_nil_iff.mp split.symm
    exact absurd empty proper
  · exact rejected

end Incremental

end Framing
