import PqcLedger.Codec.TextRoundTrip
import PqcLedger.Codec.Canonical

/-!
# Which base64 texts are canonical

The decoder reads a padding character as zero wherever it stands, skips an
output byte for each one in the last two places of any group, and drops the
unused bits of a padded group. The texts that the encoder writes are therefore
a proper part of those accepted; they are the ones described here.
-/

namespace PqcLedger.Codec

open PqcLedger.Cxx PqcLedger.Crypto

/-- No character is whitespace. -/
def WhitespaceFree (text : Text) : Prop := ∀ c ∈ text, isspace c = false

instance (text : Text) : Decidable (WhitespaceFree text) :=
  decidable_of_iff (text.all fun c => !isspace c) (by simp [WhitespaceFree])

/-- Groups of four, padding at the very end only, unused bits zero. -/
def CanonicalBase64 : Text → Prop
  | [] => True
  | c0 :: c1 :: c2 :: c3 :: rest =>
      c0 ≠ padChar ∧ c1 ≠ padChar ∧
        ((c2 ≠ padChar ∧ c3 ≠ padChar ∧ CanonicalBase64 rest) ∨
          (c2 ≠ padChar ∧ c3 = padChar ∧ rest = [] ∧ sextetOf c2 % 4 = 0) ∨
          (c2 = padChar ∧ c3 = padChar ∧ rest = [] ∧ sextetOf c1 % 16 = 0))
  | _ => False

/-! ## The encoder's texts are canonical -/

/-- The places that the absent bytes of a short group would fill are zero. -/
theorem sextet_two_unused (b0 b1 : UInt8) : sextet b0 b1 0 1 % 4 = 0 := by
  simp [sextet]
  omega

theorem sextet_one_unused (b0 : UInt8) : sextet b0 0 0 2 % 16 = 0 := by
  simp [sextet]
  omega

theorem encodeToBase64_canonical (bytes : Bytes) : CanonicalBase64 (encodeToBase64 bytes) := by
  have notPad := fun b0 b1 b2 place => charOf_ne_padChar (sextet_lt b0 b1 b2 place)
  induction bytes using encodeToBase64.induct with
  | case1 => exact trivial
  | case2 b0 =>
      rw [encodeToBase64_one]
      refine ⟨notPad _ _ _ _, notPad _ _ _ _, .inr (.inr ⟨rfl, rfl, rfl, ?_⟩)⟩
      rw [sextetOf_charOf (sextet_lt ..)]
      exact sextet_one_unused b0
  | case3 b0 b1 =>
      rw [encodeToBase64_two]
      refine ⟨notPad _ _ _ _, notPad _ _ _ _, .inr (.inl ⟨notPad _ _ _ _, rfl, rfl, ?_⟩)⟩
      rw [sextetOf_charOf (sextet_lt ..)]
      exact sextet_two_unused b0 b1
  | case4 b0 b1 b2 rest ih =>
      rw [encodeToBase64_group]
      exact ⟨notPad _ _ _ _, notPad _ _ _ _, .inl ⟨notPad _ _ _ _, notPad _ _ _ _, ih⟩⟩

/-! ## Canonical texts are the encoder's -/

/-- Characters of consecutive codes. -/
def charRun (first count : Nat) : Text :=
  (List.range count).map fun place => UInt8.ofNat (first + place)

theorem mem_charRun {first count : Nat} {c : UInt8} (low : first ≤ c.toNat)
    (high : c.toNat < first + count) : c ∈ charRun first count := by
  have code : first + (c.toNat - first) = c.toNat := by omega
  refine List.mem_map.mpr ⟨c.toNat - first, List.mem_range.mpr (by omega), ?_⟩
  rw [code, UInt8.ofNat_toNat]

/-- The alphabet is made of three such runs and two signs. -/
theorem base64Chars_runs :
    base64Chars = charRun 65 26 ++ charRun 97 26 ++ charRun 48 10 ++ [43, 47] := by
  decide +kernel

theorem base64Chars_length : base64Chars.length = 64 := by
  rw [base64Chars_runs]
  rfl

/-- A character of the alphabet stands for its place there. -/
theorem charOf_of_mem {c : UInt8} (member : c ∈ base64Chars) : ∃ short < 64, c = charOf short := by
  obtain ⟨short, bound, rfl⟩ := List.mem_iff_getElem.mp member
  refine ⟨short, base64Chars_length ▸ bound, ?_⟩
  rw [charOf, List.getD_eq_getElem?_getD, List.getElem?_eq_getElem bound, Option.getD_some]

/-- An accepted character other than padding stands for a six-bit value. -/
theorem base64CharToValue_ok {c value : UInt8} (read : base64CharToValue c = .ok value)
    (notPad : c ≠ padChar) : ∃ short < 64, c = charOf short := by
  apply charOf_of_mem
  rw [base64Chars_runs]
  simp only [List.mem_append, List.mem_cons]
  unfold base64CharToValue at read
  simp only [UInt8.le_iff_toNat_le, UInt8.reduceToNat] at read
  by_cases upper : 65 ≤ c.toNat ∧ c.toNat ≤ 90
  · exact .inl (.inl (.inl (mem_charRun upper.1 (by omega))))
  · by_cases lower : 97 ≤ c.toNat ∧ c.toNat ≤ 122
    · exact .inl (.inl (.inr (mem_charRun lower.1 (by omega))))
    · by_cases digit : 48 ≤ c.toNat ∧ c.toNat ≤ 57
      · exact .inl (.inr (mem_charRun digit.1 (by omega)))
      · rw [if_neg upper, if_neg lower, if_neg digit] at read
        by_cases plus : c = 43
        · exact .inr (.inl plus)
        · by_cases slash : c = 47
          · exact .inr (.inr (.inl slash))
          · rw [if_neg plus, if_neg slash, if_neg notPad] at read
            cases read

/-- A decoded group was read character by character, before the rest. -/
theorem base64Loop_cons_ok {c0 c1 c2 c3 : UInt8} {rest : Text} {bytes : Bytes}
    (decoded : base64Loop (c0 :: c1 :: c2 :: c3 :: rest) = .ok bytes) :
    (∃ b0, base64CharToValue c0 = .ok b0) ∧ (∃ b1, base64CharToValue c1 = .ok b1) ∧
      (∃ b2, base64CharOrPad c2 = .ok b2) ∧ (∃ b3, base64CharOrPad c3 = .ok b3) ∧
        ∃ tail, base64Loop rest = .ok tail := by
  simp only [base64Loop, Throws.bind_ok_iff] at decoded
  obtain ⟨b0, first, b1, second, b2, third, b3, fourth, tail, after, -⟩ := decoded
  exact ⟨⟨b0, first⟩, ⟨b1, second⟩, ⟨b2, third⟩, ⟨b3, fourth⟩, ⟨tail, after⟩⟩

theorem base64CharOrPad_ok {c value : UInt8} (read : base64CharOrPad c = .ok value)
    (notPad : c ≠ padChar) : ∃ short < 64, c = charOf short := by
  rw [base64CharOrPad, if_pos notPad] at read
  exact base64CharToValue_ok read notPad

/-- The places of assembled bytes are the values they were assembled from. -/
theorem sextets_of_octets {v0 v1 v2 v3 : Nat} (short0 : v0 < 64) (short1 : v1 < 64)
    (short2 : v2 < 64) (short3 : v3 < 64) :
    sextet (octetFirst v0 v1) (octetSecond v1 v2) (octetThird v2 v3) 3 = v0 ∧
      sextet (octetFirst v0 v1) (octetSecond v1 v2) (octetThird v2 v3) 2 = v1 ∧
        sextet (octetFirst v0 v1) (octetSecond v1 v2) (octetThird v2 v3) 1 = v2 ∧
          sextet (octetFirst v0 v1) (octetSecond v1 v2) (octetThird v2 v3) 0 = v3 := by
  simp only [octetFirst, octetSecond, octetThird, sextet, UInt8.toNat_ofNat']
  omega

/-- With zero unused bits the same holds of a short group. -/
theorem sextets_of_two {v0 v1 v2 : Nat} (short0 : v0 < 64) (short1 : v1 < 64) (short2 : v2 < 64)
    (unused : v2 % 4 = 0) :
    sextet (octetFirst v0 v1) (octetSecond v1 v2) 0 3 = v0 ∧
      sextet (octetFirst v0 v1) (octetSecond v1 v2) 0 2 = v1 ∧
        sextet (octetFirst v0 v1) (octetSecond v1 v2) 0 1 = v2 := by
  simp only [octetFirst, octetSecond, sextet, UInt8.toNat_ofNat', UInt8.toNat_zero]
  omega

theorem sextets_of_one {v0 v1 : Nat} (short0 : v0 < 64) (short1 : v1 < 64)
    (unused : v1 % 16 = 0) :
    sextet (octetFirst v0 v1) 0 0 3 = v0 ∧ sextet (octetFirst v0 v1) 0 0 2 = v1 := by
  simp only [octetFirst, sextet, UInt8.toNat_ofNat', UInt8.toNat_zero]
  omega

/-- A canonical text is what the encoder writes for the bytes it decodes to. -/
theorem encodeToBase64_of_canonical {text : Text} {bytes : Bytes}
    (canonical : CanonicalBase64 text) (decoded : base64Loop text = .ok bytes) :
    encodeToBase64 bytes = text := by
  induction text using CanonicalBase64.induct generalizing bytes with
  | case1 =>
      cases decoded
      rfl
  | case2 c0 c1 c2 c3 rest ih =>
      obtain ⟨notPad0, notPad1, ending⟩ := canonical
      obtain ⟨⟨b0, read0⟩, ⟨b1, read1⟩, ⟨b2, read2⟩, ⟨b3, read3⟩, ⟨tail, after⟩⟩ :=
        base64Loop_cons_ok decoded
      obtain ⟨v0, short0, rfl⟩ := base64CharToValue_ok read0 notPad0
      obtain ⟨v1, short1, rfl⟩ := base64CharToValue_ok read1 notPad1
      rcases ending with ⟨notPad2, notPad3, canonical⟩ | ⟨notPad2, rfl, rfl, unused⟩ |
        ⟨rfl, rfl, rfl, unused⟩
      · obtain ⟨v2, short2, rfl⟩ := base64CharOrPad_ok read2 notPad2
        obtain ⟨v3, short3, rfl⟩ := base64CharOrPad_ok read3 notPad3
        obtain ⟨place3, place2, place1, place0⟩ := sextets_of_octets short0 short1 short2 short3
        rw [base64Loop_group short0 short1 short2 short3, after] at decoded
        cases decoded
        rw [encodeToBase64_group, place3, place2, place1, place0, ih canonical after]
      · obtain ⟨v2, short2, rfl⟩ := base64CharOrPad_ok read2 notPad2
        rw [sextetOf_charOf short2] at unused
        obtain ⟨place3, place2, place1⟩ := sextets_of_two short0 short1 short2 unused
        rw [base64Loop_two short0 short1 short2] at decoded
        cases decoded
        rw [encodeToBase64_two, place3, place2, place1]
      · rw [sextetOf_charOf short1] at unused
        obtain ⟨place3, place2⟩ := sextets_of_one short0 short1 unused
        rw [base64Loop_one short0 short1] at decoded
        cases decoded
        rw [encodeToBase64_one, place3, place2]
  | case3 text notEmpty notGroup => exact absurd canonical (by simp [CanonicalBase64])

/-! ## Byte strings and transactions -/

theorem base64Loop_of_base64ToBytes {text : Text} {bytes : Bytes}
    (decoded : base64ToBytes text = .ok bytes) :
    base64Loop (removeWhitespace text) = .ok bytes := by
  rw [base64ToBytes] at decoded
  by_cases empty : removeWhitespace text = []
  · rw [if_pos empty] at decoded
    rw [empty]
    exact decoded
  · rw [if_neg empty, Throws.bind_ok_iff] at decoded
    obtain ⟨reserved, -, loop⟩ := decoded
    exact loop

/-- A text is what the encoder writes for its bytes exactly when it is canonical. -/
theorem encodeToBase64_eq_iff {text : Text} {bytes : Bytes} (clean : WhitespaceFree text)
    (decoded : base64ToBytes text = .ok bytes) :
    encodeToBase64 bytes = text ↔ CanonicalBase64 text := by
  constructor
  · rintro rfl
    exact encodeToBase64_canonical bytes
  · intro canonical
    have loop := base64Loop_of_base64ToBytes decoded
    rw [removeWhitespace_of_none clean] at loop
    exact encodeToBase64_of_canonical canonical loop

/-- A transaction accepted from a text was decoded from the bytes of its layout. -/
theorem base64ToBytes_of_accepted {oqs : Oqs} {text : Text} {tx : Transaction}
    (accepted : decodeFromBase64 oqs text = .ok tx) :
    base64ToBytes text = .ok (txLayout tx) ∧ decode oqs (txLayout tx) = .ok tx := by
  rw [decodeFromBase64] at accepted
  cases read : base64ToBytes text with
  | error thrown =>
      rw [read] at accepted
      cases accepted
  | ok data =>
      rw [read] at accepted
      change decode oqs data = .ok tx at accepted
      obtain ⟨-, -, rfl⟩ := decode_ok_iff.mp accepted
      exact ⟨rfl, accepted⟩

theorem txLayout_short {tx : Transaction} (representable : Representable tx) :
    (txLayout tx).length < 2 ^ 61 := by
  have pubkeyFits := representable.pubkeyFits
  have authFits := representable.authFits
  rw [txLayout, List.length_append, bodyLayout_length, List.length_cons]
  cases auth : tx.auth with
  | pq signature =>
      rw [auth] at authFits
      simp only [AuthFits, maxPrefixed] at authFits pubkeyFits
      rw [authLayout, prefixedLayout_length]
      omega
  | hybrid signature =>
      rw [auth] at authFits
      simp only [AuthFits, maxPrefixed] at authFits pubkeyFits
      rw [authLayout, List.length_append, prefixedLayout_length, prefixedLayout_length]
      omega

/-- Among the canonical texts a transaction has one. -/
theorem canonical_text_unique {oqs : Oqs} {left right : Text} {tx : Transaction}
    (leftClean : WhitespaceFree left) (rightClean : WhitespaceFree right)
    (leftAccepted : decodeFromBase64 oqs left = .ok tx)
    (rightAccepted : decodeFromBase64 oqs right = .ok tx)
    (leftForm : CanonicalBase64 left) (rightForm : CanonicalBase64 right) : left = right := by
  have leftRead := (base64ToBytes_of_accepted leftAccepted).1
  have rightRead := (base64ToBytes_of_accepted rightAccepted).1
  calc
    left = encodeToBase64 (txLayout tx) :=
      ((encodeToBase64_eq_iff leftClean leftRead).mpr leftForm).symm
    _ = right := (encodeToBase64_eq_iff rightClean rightRead).mpr rightForm

/-- Any other text of it has a canonical twin. -/
theorem canonical_twin {oqs : Oqs} {text : Text} {tx : Transaction} (clean : WhitespaceFree text)
    (accepted : decodeFromBase64 oqs text = .ok tx) (irregular : ¬ CanonicalBase64 text) :
    ∃ twin, WhitespaceFree twin ∧ CanonicalBase64 twin ∧ twin ≠ text ∧
      decodeFromBase64 oqs twin = .ok tx := by
  obtain ⟨read, decoded⟩ := base64ToBytes_of_accepted accepted
  have short := txLayout_short (decode_ok_iff.mp decoded).2.1
  refine ⟨encodeToBase64 (txLayout tx), encodeToBase64_not_isspace _,
    encodeToBase64_canonical _, ?_, ?_⟩
  · intro same
    exact irregular ((encodeToBase64_eq_iff clean read).mp same)
  · rw [decodeFromBase64_encodeToBase64 oqs (encodeToBase64_isString short), decoded]

/-! ## No accepted transaction has a single text -/

/-- Whole groups in front are read on their own. -/
theorem base64Loop_append {front : Bytes} (whole : front.length % 3 = 0) (text : Text) :
    base64Loop (encodeToBase64 front ++ text) = (front ++ ·) <$> base64Loop text := by
  induction front using encodeToBase64.induct with
  | case1 => cases same : base64Loop text <;> simp [encodeToBase64, same]
  | case2 b0 => simp at whole
  | case3 b0 b1 => simp at whole
  | case4 b0 b1 b2 rest ih =>
      obtain ⟨first, second, third⟩ := octets_of_sextets b0 b1 b2
      have restWhole : rest.length % 3 = 0 := by
        simp only [List.length_cons] at whole
        omega
      rw [encodeToBase64_group]
      simp only [List.cons_append]
      rw [base64Loop_group (sextet_lt ..) (sextet_lt ..) (sextet_lt ..) (sextet_lt ..), first,
        second, third, ih restWhole]
      cases base64Loop text <;> rfl

theorem encodeToBase64_append {front : Bytes} (whole : front.length % 3 = 0) (rest : Bytes) :
    encodeToBase64 (front ++ rest) = encodeToBase64 front ++ encodeToBase64 rest := by
  induction front using encodeToBase64.induct with
  | case1 => rfl
  | case2 b0 => simp at whole
  | case3 b0 b1 => simp at whole
  | case4 b0 b1 b2 tail ih =>
      have tailWhole : tail.length % 3 = 0 := by
        simp only [List.length_cons] at whole
        omega
      simp only [List.cons_append, encodeToBase64_group, ih tailWhole]

/-- Two bytes leave two unused bits, which the decoder does not read. -/
theorem twin_of_two (b0 b1 : UInt8) :
    ∃ group : Text, group.length = 4 ∧ WhitespaceFree group ∧ group ≠ encodeToBase64 [b0, b1] ∧
      base64Loop group = .ok [b0, b1] := by
  have unused := sextet_two_unused b0 b1
  have place1 := sextet_lt b0 b1 0 1
  have nextPlace : sextet b0 b1 0 1 + 1 < 64 := by omega
  obtain ⟨first, second, -⟩ := octets_of_sextets b0 b1 0
  have sameQuotient : (sextet b0 b1 0 1 + 1) / 4 = sextet b0 b1 0 1 / 4 := by omega
  have sameSecond : octetSecond (sextet b0 b1 0 2) (sextet b0 b1 0 1 + 1) = b1 := by
    rw [octetSecond, sameQuotient]
    exact second
  -- The twin raises the last character by one, within its unused bits.
  refine ⟨[charOf (sextet b0 b1 0 3), charOf (sextet b0 b1 0 2),
    charOf (sextet b0 b1 0 1 + 1), padChar], rfl, ?_, ?_, ?_⟩
  · simp [WhitespaceFree, charOf_not_isspace, sextet_lt, nextPlace, padChar_not_isspace]
  · rw [encodeToBase64_two]
    intro same
    simp only [List.cons.injEq, and_true] at same
    have sameValues := congrArg sextetOf same.2.2
    rw [sextetOf_charOf nextPlace, sextetOf_charOf place1] at sameValues
    omega
  · rw [base64Loop_two (sextet_lt ..) (sextet_lt ..) nextPlace, first, sameSecond]
    rfl

/-- Where two bytes are left over behind whole groups, the last group has a twin. -/
theorem base64_twin {bytes : Bytes} (leftOver : bytes.length % 3 = 2)
    (short : bytes.length < 2 ^ 61) :
    ∃ twin, WhitespaceFree twin ∧ twin ≠ encodeToBase64 bytes ∧
      base64ToBytes twin = .ok bytes := by
  obtain ⟨b0, b1, ending⟩ : ∃ b0 b1, bytes.drop (bytes.length - 2) = [b0, b1] := by
    apply List.length_eq_two.mp
    rw [List.length_drop]
    omega
  have rejoined := List.take_append_drop (bytes.length - 2) bytes
  have whole : (bytes.take (bytes.length - 2)).length % 3 = 0 := by
    rw [List.length_take]
    omega
  rw [ending] at rejoined
  generalize bytes.take (bytes.length - 2) = front at rejoined whole
  subst rejoined
  obtain ⟨group, four, groupClean, different, read⟩ := twin_of_two b0 b1
  have clean : WhitespaceFree (encodeToBase64 front ++ group) := by
    intro c member
    rcases List.mem_append.mp member with inFront | inGroup
    · exact encodeToBase64_not_isspace front c inFront
    · exact groupClean c inGroup
  refine ⟨encodeToBase64 front ++ group, clean, ?_, ?_⟩
  · rw [encodeToBase64_append whole]
    intro same
    exact different (List.append_cancel_left same)
  · have length := encodeToBase64_length front
    rw [List.length_append, List.length_cons, List.length_singleton] at short
    have groups : (encodeToBase64 front ++ group).length = (encodeToBase64 front).length + 4 := by
      rw [List.length_append, four]
    have wholeGroups : (encodeToBase64 front ++ group).length % 4 = 0 := by omega
    have isString : (encodeToBase64 front ++ group).IsString := by
      rw [Text.IsString, groups]
      omega
    rw [base64ToBytes_of_clean clean wholeGroups isString, base64Loop_append whole, read]
    rfl

/-- Every transaction that the decoder takes is accepted from two different texts. -/
theorem accepted_from_two_texts {oqs : Oqs} {tx : Transaction} (sized : oqs.MlDsa65Sized)
    (wellFormed : WellFormed 1952 3309 tx) :
    ∃ left right, WhitespaceFree left ∧ WhitespaceFree right ∧ left ≠ right ∧
      decodeFromBase64 oqs left = .ok tx ∧ decodeFromBase64 oqs right = .ok tx := by
  have short := txLayout_short wellFormed.representable_mlDsa65
  have leftOver : (txLayout tx).length % 3 = 2 := by
    have authSized := wellFormed.authSized
    rw [txLayout, List.length_append, bodyLayout_length, List.length_cons, wellFormed.pubkeySized]
    cases auth : tx.auth with
    | pq signature =>
        rw [auth, AuthSized] at authSized
        rw [authLayout, prefixedLayout_length]
        omega
    | hybrid signature =>
        rw [auth, AuthSized] at authSized
        rw [authLayout, List.length_append, prefixedLayout_length, prefixedLayout_length]
        omega
  obtain ⟨twin, clean, different, read⟩ := base64_twin leftOver short
  have decoded := decode_txLayout sized wellFormed
  refine ⟨twin, encodeToBase64 (txLayout tx), clean, encodeToBase64_not_isspace _, different,
    ?_, ?_⟩
  · rw [decodeFromBase64, read]
    exact decoded
  · rw [decodeFromBase64_encodeToBase64 oqs (encodeToBase64_isString short), decoded]

/-- Decoding is undone by encoding exactly on the canonical texts. Of two texts of one
transaction each is canonical only if they are equal, and one that is not canonical has
a canonical twin. With ML-DSA-65 at its standard lengths every accepted transaction has
two texts. -/
theorem base64_canonical_iff (oqs : Oqs) :
    (∀ text bytes, WhitespaceFree text → base64ToBytes text = .ok bytes →
      (encodeToBase64 bytes = text ↔ CanonicalBase64 text)) ∧
    (∀ left right tx, WhitespaceFree left → WhitespaceFree right →
      decodeFromBase64 oqs left = .ok tx → decodeFromBase64 oqs right = .ok tx →
        CanonicalBase64 left → CanonicalBase64 right → left = right) ∧
    (∀ text tx, WhitespaceFree text → decodeFromBase64 oqs text = .ok tx →
      ¬ CanonicalBase64 text → ∃ twin, WhitespaceFree twin ∧ CanonicalBase64 twin ∧
        twin ≠ text ∧ decodeFromBase64 oqs twin = .ok tx) ∧
    (oqs.MlDsa65Sized → ∀ text tx, decodeFromBase64 oqs text = .ok tx →
      ∃ left right, WhitespaceFree left ∧ WhitespaceFree right ∧ left ≠ right ∧
        decodeFromBase64 oqs left = .ok tx ∧ decodeFromBase64 oqs right = .ok tx) := by
  refine ⟨?_, ?_, ?_, ?_⟩
  · intro text bytes clean read
    exact encodeToBase64_eq_iff clean read
  · intro left right tx leftClean rightClean leftAccepted rightAccepted
    exact canonical_text_unique leftClean rightClean leftAccepted rightAccepted
  · intro text tx clean accepted irregular
    exact canonical_twin clean accepted irregular
  · intro sized text tx accepted
    have decoded := (base64ToBytes_of_accepted accepted).2
    exact accepted_from_two_texts sized ((decode_ok_iff_of_sized sized).mp decoded).1

/-- A text of the byte 0x66 that is not the encoder's; and two texts of one transaction. -/
theorem base64_malleable :
    (WhitespaceFree (Text.ofString "Zh==") ∧
      base64ToBytes (Text.ofString "Zh==") = .ok [0x66] ∧
        encodeToBase64 [0x66] ≠ Text.ofString "Zh==") ∧
    ∃ left right, WhitespaceFree left ∧ WhitespaceFree right ∧ left ≠ right ∧
      decodeFromBase64 noOqs left = .ok zeroKeyTx ∧
        decodeFromBase64 noOqs right = .ok zeroKeyTx := by
  exact ⟨⟨by decide, by decide, by decide⟩,
    accepted_from_two_texts noOqs_mlDsa65Sized zeroKeyTx_wellFormed⟩

end PqcLedger.Codec
