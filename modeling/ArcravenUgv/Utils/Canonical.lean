import ArcravenUgv.Utils.Base64

/-!
# What the base64 codec accepts

Every access of `utils/Base64.cpp` to a `char` goes through
`static_cast<unsigned char>` or compares it with `=`, so the bytes of the model
are those unsigned values on every platform.
-/

namespace ArcravenUgv.Base64

open ArcravenUgv.Command
open ArcravenUgv.Decimal
open ArcravenUgv.Radix64

/-! ## The encoder -/

theorem alphabet_mem_kEncodeTable {value : ℕ} (hvalue : value < 64) :
    alphabet value ∈ kEncodeTable := by
  rw [kEncodeTable_eq]
  exact List.mem_map_of_mem (List.mem_range.2 hvalue)

theorem length_encode (bytes : Bytes) : (encode bytes).length = 4 * ((bytes.length + 2) / 3) := by
  induction bytes using encode_induction with
  | hnil => rfl
  | hone first => simp [encode_one]
  | htwo first second => simp [encode_two]
  | hthree first second third rest ih =>
      rw [encode_three, List.length_append, ih]
      simp only [List.length_cons, List.length_nil]
      omega

/-- The encoder writes the RFC 4648 encoding, and the decoder takes it back. -/
theorem base64_round_trip (bytes : Bytes) :
    (base64Encode bytes).length = 4 * ((bytes.length + 2) / 3) ∧
      (∃ text count, base64Encode bytes = text ++ List.replicate count pad ∧ count ≤ 2 ∧
        ∀ char ∈ text, char ∈ kEncodeTable) ∧
      base64Encode bytes = encode bytes ∧
      base64Decode (base64Encode bytes) = (bytes, true) := by
  rw [base64Encode_eq]
  obtain ⟨-, digits, count, hcount, hsmall, -, htext⟩ := canonical_encode bytes
  refine ⟨length_encode bytes, ⟨digits.map alphabet, count, htext, hcount, ?_⟩, rfl,
    base64Decode_encode bytes⟩
  intro char hchar
  obtain ⟨value, hvalue, rfl⟩ := List.mem_map.1 hchar
  exact alphabet_mem_kEncodeTable (hsmall value hvalue)

/-! ## What the decoder refuses -/

/-- The length is no multiple of four, or a character has no value. -/
def Malformed (text : Bytes) : Prop :=
  text.length % 4 ≠ 0 ∨ ∃ char ∈ text, char ≠ pad ∧ digit char = none

theorem table_eq_none_iff (char : UInt8) : table char = none ↔ char ≠ pad ∧ digit char = none := by
  have hmem : char ∉ kEncodeTable ↔ digit char = none := by
    rw [kEncodeTable_eq]
    constructor
    · intro habsent
      apply Option.eq_none_iff_forall_ne_some.2
      intro value hvalue
      obtain ⟨hsmall, rfl⟩ := alphabet_of_digit hvalue
      exact habsent (List.mem_map_of_mem (List.mem_range.2 hsmall))
    · intro hdigit hpresent
      obtain ⟨value, hvalue, rfl⟩ := List.mem_map.1 hpresent
      rw [digit_alphabet (List.mem_range.1 hvalue)] at hdigit
      cases hdigit
  rw [← hmem, table, ← show pad = 61 from rfl]
  by_cases hpad : char = pad
  · simp [hpad]
  · rw [if_neg hpad, Option.map_eq_none_iff, List.idxOf?_eq_none_iff]
    exact (and_iff_right hpad).symm

theorem decodeGroup_eq_none_iff (c0 c1 c2 c3 : UInt8) :
    decodeGroup c0 c1 c2 c3 = none ↔ ∃ char ∈ [c0, c1, c2, c3], table char = none := by
  cases h0 : table c0 <;> cases h1 : table c1 <;> cases h2 : table c2 <;>
    cases h3 : table c3 <;> simp [decodeGroup, h0, h1, h2, h3]

theorem decodeGroups_eq_none_iff {text : Bytes} (hlength : text.length % 4 = 0) :
    decodeGroups text = none ↔ ∃ char ∈ text, table char = none := by
  fun_induction decodeGroups text with
  | case1 c0 c1 c2 c3 rest ih =>
      have hrest : rest.length % 4 = 0 := by
        simp only [List.length_cons] at hlength
        omega
      have hsplit : (∃ char ∈ c0 :: c1 :: c2 :: c3 :: rest, table char = none) ↔
          (∃ char ∈ [c0, c1, c2, c3], table char = none) ∨
            ∃ char ∈ rest, table char = none := by
        simp [or_assoc]
      rw [hsplit, ← decodeGroup_eq_none_iff, ← ih hrest]
      cases decodeGroup c0 c1 c2 c3 <;> cases decodeGroups rest <;> simp
  | case2 text hshort =>
      have hnil : text = [] := by
        match text, hshort, hlength with
        | [], _, _ => rfl
        | c0 :: c1 :: c2 :: c3 :: rest, hshort, _ => exact (hshort c0 c1 c2 c3 rest rfl).elim
      simp [hnil]

theorem base64Decode_eq_false_iff (text : Bytes) :
    (base64Decode text).2 = false ↔ Malformed text := by
  simp only [Malformed, ← table_eq_none_iff]
  by_cases hlength : text.length % 4 = 0
  · rw [base64Decode, if_neg (not_not.2 hlength), ← decodeGroups_eq_none_iff hlength]
    cases decodeGroups text <;> simp [hlength]
  · simp [base64Decode, hlength]

/-! ## What the decoder takes -/

/-- On this text the decoder is as strict as RFC 4648: what it takes is what the
encoder writes for the same payload. -/
structure StrictOn (text : Bytes) : Prop where
  roundTrip : (base64Decode text).2 = true → base64Encode (base64Decode text).1 = text
  sameAsStrict : (base64Decode text).2 = (decode text).isSome

theorem base64Decode_of_canonical {text : Bytes} (hcanonical : Canonical text) :
    ∃ bytes, encode bytes = text ∧ base64Decode text = (bytes, true) := by
  obtain ⟨bytes, rfl⟩ := canonical_iff.1 hcanonical
  exact ⟨bytes, rfl, base64Decode_encode bytes⟩

theorem strictOn_of_canonical {text : Bytes} (hcanonical : Canonical text) : StrictOn text := by
  obtain ⟨bytes, hencode, hdecode⟩ := base64Decode_of_canonical hcanonical
  constructor
  · intro _
    rw [hdecode, base64Encode_eq, hencode]
  · rw [hdecode, decode_eq_some_iff.2 hencode]
    rfl

theorem strictOn_of_malformed {text : Bytes} (hmalformed : Malformed text) : StrictOn text := by
  have hrefused := (base64Decode_eq_false_iff text).2 hmalformed
  have hstrict : decode text = none := by
    apply Option.eq_none_iff_forall_ne_some.2
    intro bytes hbytes
    rw [← decode_eq_some_iff.1 hbytes, base64Decode_encode] at hrefused
    cases hrefused
  constructor
  · simp [hrefused]
  · rw [hrefused, hstrict]
    rfl

theorem malformed_or_canonical_of_strictOn {text : Bytes} (hstrict : StrictOn text) :
    Malformed text ∨ Canonical text := by
  cases hok : (base64Decode text).2 with
  | false => exact Or.inl ((base64Decode_eq_false_iff text).1 hok)
  | true =>
      have hback := hstrict.roundTrip hok
      rw [base64Encode_eq] at hback
      exact Or.inr (canonical_iff.2 ⟨_, hback⟩)

theorem strictOn_of_malformed_or_canonical {text : Bytes}
    (htext : Malformed text ∨ Canonical text) : StrictOn text := by
  rcases htext with hmalformed | hcanonical
  · exact strictOn_of_malformed hmalformed
  · exact strictOn_of_canonical hcanonical

/-- The decoder is strict on the texts it refuses and on the canonical ones, and
among these no two have the same payload. -/
theorem base64Decode_strict_iff (text : Bytes) :
    (StrictOn text ↔ Malformed text ∨ Canonical text) ∧
      ∀ other : Bytes, Malformed text ∨ Canonical text → Malformed other ∨ Canonical other →
        (base64Decode text).2 = true → (base64Decode other).2 = true →
          (base64Decode text).1 = (base64Decode other).1 → text = other := by
  constructor
  · exact ⟨malformed_or_canonical_of_strictOn, strictOn_of_malformed_or_canonical⟩
  · intro other htext hother hok hokOther hpayload
    calc
      text = base64Encode (base64Decode text).1 :=
        ((strictOn_of_malformed_or_canonical htext).roundTrip hok).symm
      _ = base64Encode (base64Decode other).1 := by rw [hpayload]
      _ = other := (strictOn_of_malformed_or_canonical hother).roundTrip hokOther

/-- The text of one zero byte, and that the encoder writes no other. -/
theorem base64Decode_strict_zero :
    StrictOn (ascii "AA==") ∧ base64Encode [0] = ascii "AA==" := by
  have hcanonical : Canonical (ascii "AA==") := canonical_iff.2 ⟨[0], by decide +kernel⟩
  have hencoded : Canonical (base64Encode [0]) := by
    rw [base64Encode_eq]
    exact canonical_encode [0]
  constructor
  · exact (base64Decode_strict_iff _).1.2 (.inr hcanonical)
  · exact (base64Decode_strict_iff _).2 _ (.inr hencoded) (.inr hcanonical) (by decide +kernel)
      (by decide +kernel) (by decide +kernel)

/-- Unused bits of a last digit and padding inside a text are taken. -/
theorem base64Decode_not_strict :
    base64Decode (ascii "AB==") = base64Decode (ascii "AA==") ∧
      base64Decode (ascii "====") = ([0], true) ∧
      base64Decode (ascii "AA==AAAA") = ([0, 0, 0, 0], true) ∧
      ¬ ∀ text : Bytes, (base64Decode text).2 = true →
        base64Encode (base64Decode text).1 = text := by
  have hunused : base64Decode (ascii "AB==") = ([0], true) := by decide +kernel
  refine ⟨by decide +kernel, by decide +kernel, by decide +kernel, fun hall => ?_⟩
  have hback := hall (ascii "AB==")
  rw [hunused] at hback
  exact absurd (hback rfl) (by decide +kernel)

end ArcravenUgv.Base64
