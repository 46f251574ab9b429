import PqcLedger.Codec.Base64Canonical

/-!
# The size that the base64 decoder expects

Before its loop the decoder computes an output size from the length and the
padding at the end. The subtraction wraps on a text of padding alone that is
shorter than a group, and the loop writes fewer bytes where a group before the
end is padded: these two kinds of texts are all that goes wrong.
-/

namespace PqcLedger.Codec

open PqcLedger.Cxx PqcLedger.Crypto

/-- The size is computed without a wrap, and is the number of bytes produced. -/
structure SizeRight (text : Text) : Prop where
  unwrapped : paddingCount (removeWhitespace text) ≤ sizeMul (removeWhitespace text).length 3 / 4
  produced : ∀ bytes, base64ToBytes text = .ok bytes →
    bytes.length = outputSize (removeWhitespace text)

/-- Groups of four characters of the alphabet or padding. -/
structure WholeGroups (text : Text) : Prop where
  groups : text.length % 4 = 0
  characters : ∀ c ∈ text, c ∈ base64Chars ∨ c = padChar

/-- In the last two places of a group, padding closes the last group only. -/
def PaddedAtEnd : Text → Prop
  | _ :: _ :: c2 :: c3 :: rest =>
      (c2 ≠ padChar ∧ c3 ≠ padChar ∧ PaddedAtEnd rest) ∨ (c3 = padChar ∧ rest = [])
  | _ => True

/-- Whole groups start with a group, unless there are none. -/
theorem starts_with_group {text : Text} (groups : text.length % 4 = 0) (nonempty : text ≠ []) :
    ∃ c0 c1 c2 c3 rest, text = c0 :: c1 :: c2 :: c3 :: rest := by
  match text with
  | [] => exact absurd rfl nonempty
  | [_] => simp at groups
  | [_, _] => simp at groups
  | [_, _, _] => simp at groups
  | c0 :: c1 :: c2 :: c3 :: rest => exact ⟨c0, c1, c2, c3, rest, rfl⟩

/-! ## What the loop takes -/

theorem charOf_mem {value : Nat} (short : value < 64) : charOf value ∈ base64Chars := by
  have bound : value < base64Chars.length := base64Chars_length ▸ short
  rw [charOf, List.getD_eq_getElem?_getD, List.getElem?_eq_getElem bound, Option.getD_some]
  exact List.getElem_mem bound

theorem base64CharToValue_returns_iff {c : UInt8} :
    (∃ value, base64CharToValue c = .ok value) ↔ c ∈ base64Chars ∨ c = padChar := by
  constructor
  · rintro ⟨value, read⟩
    by_cases pad : c = padChar
    · exact .inr pad
    · obtain ⟨short, bound, rfl⟩ := base64CharToValue_ok read pad
      exact .inl (charOf_mem bound)
  · rintro (member | rfl)
    · obtain ⟨short, bound, rfl⟩ := charOf_of_mem member
      exact ⟨_, base64CharToValue_charOf bound⟩
    · exact ⟨0, rfl⟩

theorem base64CharOrPad_returns_iff {c : UInt8} :
    (∃ value, base64CharOrPad c = .ok value) ↔ c ∈ base64Chars ∨ c = padChar := by
  rw [base64CharOrPad]
  by_cases pad : c = padChar
  · rw [if_neg (not_not_intro pad)]
    exact iff_of_true ⟨0, rfl⟩ (.inr pad)
  · rw [if_pos pad]
    exact base64CharToValue_returns_iff

/-- A group that is cut short is refused. -/
theorem base64Loop_incomplete {text : Text} (notEmpty : text = [] → False)
    (notGroup : ∀ c0 c1 c2 c3 rest, text = c0 :: c1 :: c2 :: c3 :: rest → False)
    (bytes : Bytes) : base64Loop text ≠ .ok bytes := by
  intro decoded
  rw [base64Loop] at decoded
  · cases decoded
  · exact notEmpty
  · exact notGroup

/-- The group loop returns exactly on whole groups. -/
theorem base64Loop_returns_iff {text : Text} :
    (∃ bytes, base64Loop text = .ok bytes) ↔ WholeGroups text := by
  induction text using base64Loop.induct with
  | case1 => exact iff_of_true ⟨[], rfl⟩ ⟨rfl, nofun⟩
  | case2 c0 c1 c2 c3 rest ih =>
      have groups : (c0 :: c1 :: c2 :: c3 :: rest).length % 4 = rest.length % 4 :=
        Nat.add_mod_right rest.length 4
      constructor
      · rintro ⟨bytes, decoded⟩
        obtain ⟨first, second, third, fourth, after⟩ := base64Loop_cons_ok decoded
        obtain ⟨restGroups, restCharacters⟩ := ih.mp after
        refine ⟨groups.trans restGroups, ?_⟩
        simp only [List.forall_mem_cons]
        exact ⟨base64CharToValue_returns_iff.mp first, base64CharToValue_returns_iff.mp second,
          base64CharOrPad_returns_iff.mp third, base64CharOrPad_returns_iff.mp fourth,
          restCharacters⟩
      · rintro ⟨whole, characters⟩
        simp only [List.forall_mem_cons] at characters
        obtain ⟨first, second, third, fourth, restCharacters⟩ := characters
        obtain ⟨b0, read0⟩ := base64CharToValue_returns_iff.mpr first
        obtain ⟨b1, read1⟩ := base64CharToValue_returns_iff.mpr second
        obtain ⟨b2, read2⟩ := base64CharOrPad_returns_iff.mpr third
        obtain ⟨b3, read3⟩ := base64CharOrPad_returns_iff.mpr fourth
        obtain ⟨tail, after⟩ := ih.mpr ⟨groups.symm.trans whole, restCharacters⟩
        rw [base64Loop, read0, read1, read2, read3, after]
        exact ⟨_, rfl⟩
  | case3 text notEmpty notGroup =>
      refine iff_of_false ?_ fun whole => ?_
      · rintro ⟨bytes, decoded⟩
        exact base64Loop_incomplete notEmpty notGroup bytes decoded
      · obtain ⟨c0, c1, c2, c3, rest, same⟩ := starts_with_group whole.groups notEmpty
        exact notGroup c0 c1 c2 c3 rest same

/-! ## What the loop writes -/

/-- The bytes that the loop does not write: one for each padding character in the
last two places of a group. -/
def skippedOctets : Text → Nat
  | _ :: _ :: c2 :: c3 :: rest =>
      (if c2 = padChar then 1 else 0) + (if c3 = padChar then 1 else 0) + skippedOctets rest
  | _ => 0

theorem written_or_skipped (c byte : UInt8) :
    (if c ≠ padChar then [byte] else []).length + (if c = padChar then 1 else 0) = 1 := by
  by_cases pad : c = padChar
  · simp [pad]
  · simp [pad]

/-- Three bytes for a group, less those skipped. -/
theorem base64Loop_length {text : Text} {bytes : Bytes} (decoded : base64Loop text = .ok bytes) :
    bytes.length + skippedOctets text = 3 * (text.length / 4) := by
  induction text using base64Loop.induct generalizing bytes with
  | case1 =>
      cases decoded
      rfl
  | case2 c0 c1 c2 c3 rest ih =>
      simp only [base64Loop, Throws.bind_ok_iff, Throws.pure_eq, Except.ok.injEq] at decoded
      obtain ⟨b0, -, b1, -, b2, -, b3, -, tail, after, rfl⟩ := decoded
      have written := ih after
      have groups : (c0 :: c1 :: c2 :: c3 :: rest).length / 4 = rest.length / 4 + 1 :=
        Nat.add_div_right rest.length (Nat.succ_pos 3)
      have second := written_or_skipped c2 ((b1 <<< 4) ||| (b2 >>> 2))
      have third := written_or_skipped c3 ((b2 <<< 6) ||| b3)
      rw [groups, skippedOctets]
      simp only [List.length_append, List.length_singleton]
      omega
  | case3 text notEmpty notGroup =>
      exact absurd decoded (base64Loop_incomplete notEmpty notGroup bytes)

/-- The padding is counted at the end of the text alone. -/
theorem paddingCount_append (front : Text) {text : Text} (long : 2 ≤ text.length) :
    paddingCount (front ++ text) = paddingCount text := by
  rw [paddingCount, paddingCount, List.reverse_append]
  have reversed : 2 ≤ text.reverse.length := by rwa [List.length_reverse]
  match text.reverse, reversed with
  | last :: next :: rest, _ => rfl

/-- On one group the count tells the skipped bytes, but for padding in the third
place alone. -/
theorem paddingCount_group (c0 c1 c2 c3 : UInt8) :
    paddingCount [c0, c1, c2, c3] ≤ skippedOctets [c0, c1, c2, c3] ∧
      (paddingCount [c0, c1, c2, c3] = skippedOctets [c0, c1, c2, c3] ↔
        PaddedAtEnd [c0, c1, c2, c3]) := by
  simp only [paddingCount, skippedOctets, PaddedAtEnd, List.reverse_cons, List.reverse_nil,
    List.nil_append, List.cons_append]
  by_cases third : c2 = padChar
  · by_cases fourth : c3 = padChar
    · simp [third, fourth]
    · simp [third, fourth]
  · by_cases fourth : c3 = padChar
    · simp [third, fourth]
    · simp [third, fourth]

/-- The padding counted is skipped, and is all that is skipped when there is no
other in the last two places of a group. -/
theorem paddingCount_skipped {text : Text} (groups : text.length % 4 = 0) :
    paddingCount text ≤ skippedOctets text ∧
      (paddingCount text = skippedOctets text ↔ PaddedAtEnd text) := by
  induction text using skippedOctets.induct with
  | case1 c0 c1 c2 c3 rest ih =>
      by_cases last : rest = []
      · subst last
        exact paddingCount_group c0 c1 c2 c3
      · have restGroups : rest.length % 4 = 0 := (Nat.add_mod_right rest.length 4).symm.trans groups
        have positive := List.length_pos_iff.mpr last
        obtain ⟨counted, exactly⟩ := ih restGroups
        have long : 2 ≤ rest.length := by omega
        have atEnd : paddingCount (c0 :: c1 :: c2 :: c3 :: rest) = paddingCount rest :=
          paddingCount_append [c0, c1, c2, c3] long
        rw [atEnd, skippedOctets, PaddedAtEnd, ← exactly]
        by_cases third : c2 = padChar
        · simp [third, last]
          omega
        · by_cases fourth : c3 = padChar
          · simp [third, fourth, last]
            omega
          · simp [third, fourth, last]
            omega
  | case2 text notGroup =>
      have empty : text = [] := by
        by_contra nonempty
        obtain ⟨c0, c1, c2, c3, rest, same⟩ := starts_with_group groups nonempty
        exact notGroup c0 c1 c2 c3 rest same
      subst empty
      exact ⟨Nat.zero_le _, iff_of_true rfl trivial⟩

/-! ## The size -/

/-- Below the bound the product does not wrap. -/
theorem sizeMul_three {length : Nat} (short : length < 2 ^ 62) : sizeMul length 3 = length * 3 := by
  rw [sizeMul, sizeModulus]
  omega

/-- Only two texts have more padding than the size counts bytes. -/
theorem unwrapped_iff {clean : Text} (short : clean.length < 2 ^ 62) :
    paddingCount clean ≤ sizeMul clean.length 3 / 4 ↔
      clean ≠ [padChar] ∧ clean ≠ [padChar, padChar] := by
  rw [sizeMul_three short]
  match clean with
  | [] => simp [paddingCount]
  | [only] =>
      by_cases pad : only = padChar
      · simp [paddingCount, pad]
      · simp [paddingCount, pad]
  | [first, last] =>
      by_cases pad : last = padChar
      · by_cases second : first = padChar
        · simp [paddingCount, pad, second]
        · simp [paddingCount, pad, second]
      · simp [paddingCount, pad]
  | c0 :: c1 :: c2 :: rest =>
      have padding := paddingCount_le (c0 :: c1 :: c2 :: rest)
      refine iff_of_true ?_ ⟨by simp, by simp⟩
      simp only [List.length_cons] at short ⊢
      omega

/-- Texts of whole groups, which the loop can take, are not the two. -/
theorem unwrapped_of_groups {clean : Text} (short : clean.length < 2 ^ 62)
    (groups : clean.length % 4 = 0) : paddingCount clean ≤ sizeMul clean.length 3 / 4 := by
  apply (unwrapped_iff short).mpr
  constructor
  · rintro rfl
    exact absurd groups (by decide)
  · rintro rfl
    exact absurd groups (by decide)

/-- The decoder returns exactly on whole groups, and then what its loop writes. -/
theorem base64ToBytes_ok_iff {text : Text} {bytes : Bytes} (isString : text.IsString) :
    base64ToBytes text = .ok bytes ↔ base64Loop (removeWhitespace text) = .ok bytes := by
  constructor
  · exact base64Loop_of_base64ToBytes
  · intro loop
    obtain ⟨groups, -⟩ := base64Loop_returns_iff.mp ⟨bytes, loop⟩
    rw [base64ToBytes_of_groups groups isString]
    exact loop

/-- What the loop writes has the expected size exactly when padding is at the end. -/
theorem base64Loop_size_iff {clean : Text} {bytes : Bytes} (short : clean.length < 2 ^ 62)
    (loop : base64Loop clean = .ok bytes) :
    bytes.length = outputSize clean ↔ PaddedAtEnd clean := by
  obtain ⟨groups, -⟩ := base64Loop_returns_iff.mp ⟨bytes, loop⟩
  have written := base64Loop_length loop
  obtain ⟨counted, exactly⟩ := paddingCount_skipped groups
  have unwrapped := unwrapped_of_groups short groups
  rw [← exactly, outputSize, sizeSub_of_le unwrapped, sizeMul_three short]
  rw [sizeMul_three short] at unwrapped
  omega

/-- Below 2^62 characters the size is right exactly when the text, without its
whitespace, is not one or two padding characters alone, and, where it is one that
the loop takes, has padding in the last two places of no group but the last. -/
theorem base64_size_iff {text : Text} (short : text.length < 2 ^ 62) :
    SizeRight text ↔
      removeWhitespace text ≠ [padChar] ∧ removeWhitespace text ≠ [padChar, padChar] ∧
        (WholeGroups (removeWhitespace text) → PaddedAtEnd (removeWhitespace text)) := by
  have cleanShort : (removeWhitespace text).length < 2 ^ 62 :=
    Nat.lt_of_le_of_lt (List.length_filter_le ..) short
  have isString : text.IsString := Nat.lt_trans short (by decide)
  constructor
  · intro right
    obtain ⟨notOne, notTwo⟩ := (unwrapped_iff cleanShort).mp right.unwrapped
    refine ⟨notOne, notTwo, fun whole => ?_⟩
    obtain ⟨bytes, loop⟩ := base64Loop_returns_iff.mpr whole
    have decoded := (base64ToBytes_ok_iff isString).mpr loop
    exact (base64Loop_size_iff cleanShort loop).mp (right.produced bytes decoded)
  · rintro ⟨notOne, notTwo, padded⟩
    refine ⟨(unwrapped_iff cleanShort).mpr ⟨notOne, notTwo⟩, fun bytes decoded => ?_⟩
    have loop := base64Loop_of_base64ToBytes decoded
    have whole := base64Loop_returns_iff.mp ⟨bytes, loop⟩
    exact (base64Loop_size_iff cleanShort loop).mpr (padded whole)

/-- One byte, with the padding of its short group. -/
theorem base64_size_iff_padded :
    (Text.ofString "Zg==").length < 2 ^ 62 ∧ SizeRight (Text.ofString "Zg==") := by
  have short : (Text.ofString "Zg==").length < 2 ^ 62 := by decide
  exact ⟨short, (base64_size_iff short).mpr ⟨by decide, by decide, fun _ => .inr ⟨rfl, rfl⟩⟩⟩

/-- On "=" the size wraps, and so much is not reserved; on "AA==AAAA" the loop
writes four bytes where six are expected. -/
theorem base64_size_counterexample :
    ((Text.ofString "=").length < 2 ^ 62 ∧ ¬ SizeRight (Text.ofString "=") ∧
      outputSize (Text.ofString "=") = 2 ^ 64 - 1 ∧
        base64ToBytes (Text.ofString "=") = .error (.lengthError "vector::reserve")) ∧
    (Text.ofString "AA==AAAA").length < 2 ^ 62 ∧ ¬ SizeRight (Text.ofString "AA==AAAA") ∧
      outputSize (Text.ofString "AA==AAAA") = 6 ∧
        base64ToBytes (Text.ofString "AA==AAAA") = .ok [0, 0, 0, 0] := by
  refine ⟨⟨by decide, ?_, by decide, by decide⟩, by decide, ?_, by decide, by decide⟩
  · intro right
    exact absurd right.unwrapped (by decide)
  · intro right
    have produced := right.produced [0, 0, 0, 0] (by decide)
    exact absurd produced (by decide)

end PqcLedger.Codec
