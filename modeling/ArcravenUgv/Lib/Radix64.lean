import Mathlib.Tactic

/-!
# The RFC 4648 text encoding

The bytes of a string are read as one bit stream, most significant bit first.
The stream is cut into six-bit digits, the last of them filled up with zero
bits, every digit is written in the alphabet, and the text is padded to a
multiple of four characters.  The standard engine of the `base64` crate is taken to
do this and no more, which is how the RFC has it.
-/

namespace ArcravenUgv.Radix64

/-- The eight bits of a byte, most significant first. -/
def byteBits (byte : UInt8) : List Bool :=
  [7, 6, 5, 4, 3, 2, 1, 0].map byte.toNat.testBit

/-- The number a bit string denotes, most significant bit first. -/
def bitsValue : List Bool → ℕ
  | [] => 0
  | bit :: bits => bit.toNat * 2 ^ bits.length + bitsValue bits

/-- The six-bit digits of a bit stream, the last one filled with zeros. -/
def sextets : List Bool → List ℕ
  | [] => []
  | b5 :: b4 :: b3 :: b2 :: b1 :: b0 :: rest =>
      bitsValue [b5, b4, b3, b2, b1, b0] :: sextets rest
  | bits => [bitsValue (bits ++ List.replicate (6 - bits.length) false)]

/-- `A-Z`, `a-z`, `0-9`, `+`, `/`. -/
def alphabet (digit : ℕ) : UInt8 :=
  if digit < 26 then UInt8.ofNat (65 + digit)
  else if digit < 52 then UInt8.ofNat (97 + (digit - 26))
  else if digit < 62 then UInt8.ofNat (48 + (digit - 52))
  else if digit = 62 then 43
  else 47

/-- The padding character `=`. -/
def pad : UInt8 := 61

def encode (bytes : List UInt8) : List UInt8 :=
  let digits := sextets (bytes.flatMap byteBits)
  digits.map alphabet ++ List.replicate ((4 - digits.length % 4) % 4) pad

theorem bitsValue_append (left right : List Bool) :
    bitsValue (left ++ right) =
      bitsValue left * 2 ^ right.length + bitsValue right := by
  induction left with
  | nil => simp [bitsValue]
  | cons bit left ih =>
      rw [List.cons_append, bitsValue, ih, bitsValue, List.length_append, pow_add]
      ring

/-- A run of bits inside a byte is a quotient, a remainder, or both. -/
private theorem bitsValue_slices (byte : UInt8) :
    bitsValue ([7, 6, 5, 4, 3, 2].map byte.toNat.testBit) = byte.toNat / 4 ∧
    bitsValue ([1, 0].map byte.toNat.testBit) = byte.toNat % 4 ∧
    bitsValue ([7, 6, 5, 4].map byte.toNat.testBit) = byte.toNat / 16 ∧
    bitsValue ([3, 2, 1, 0].map byte.toNat.testBit) = byte.toNat % 16 ∧
    bitsValue ([7, 6].map byte.toNat.testBit) = byte.toNat / 64 ∧
    bitsValue ([5, 4, 3, 2, 1, 0].map byte.toNat.testBit) = byte.toNat % 64 := by
  have hall : ∀ byte : Fin 256,
      bitsValue ([7, 6, 5, 4, 3, 2].map byte.val.testBit) = byte.val / 4 ∧
      bitsValue ([1, 0].map byte.val.testBit) = byte.val % 4 ∧
      bitsValue ([7, 6, 5, 4].map byte.val.testBit) = byte.val / 16 ∧
      bitsValue ([3, 2, 1, 0].map byte.val.testBit) = byte.val % 16 ∧
      bitsValue ([7, 6].map byte.val.testBit) = byte.val / 64 ∧
      bitsValue ([5, 4, 3, 2, 1, 0].map byte.val.testBit) = byte.val % 64 := by
    decide +kernel
  exact hall ⟨byte.toNat, byte.toNat_lt⟩

/-- Three bytes are four digits. -/
theorem sextets_three (first second third : UInt8) (rest : List Bool) :
    sextets (byteBits first ++ (byteBits second ++ (byteBits third ++ rest))) =
      first.toNat / 4 :: (first.toNat % 4 * 16 + second.toNat / 16) ::
        (second.toNat % 16 * 4 + third.toNat / 64) :: third.toNat % 64 ::
          sextets rest := by
  obtain ⟨h1, h2, -, -, -, -⟩ := bitsValue_slices first
  obtain ⟨-, -, h3, h4, -, -⟩ := bitsValue_slices second
  obtain ⟨-, -, -, -, h5, h6⟩ := bitsValue_slices third
  have hsplit : sextets (byteBits first ++ (byteBits second ++ (byteBits third ++ rest))) =
      bitsValue ([7, 6, 5, 4, 3, 2].map first.toNat.testBit) ::
        bitsValue ([1, 0].map first.toNat.testBit ++
          [7, 6, 5, 4].map second.toNat.testBit) ::
        bitsValue ([3, 2, 1, 0].map second.toNat.testBit ++
          [7, 6].map third.toNat.testBit) ::
        bitsValue ([5, 4, 3, 2, 1, 0].map third.toNat.testBit) ::
          sextets rest := rfl
  rw [hsplit, bitsValue_append, bitsValue_append, h1, h2, h3, h4, h5, h6]
  rfl

theorem sextets_two (first second : UInt8) :
    sextets (byteBits first ++ byteBits second) =
      [first.toNat / 4, first.toNat % 4 * 16 + second.toNat / 16,
        second.toNat % 16 * 4] := by
  obtain ⟨h1, h2, -, -, -, -⟩ := bitsValue_slices first
  obtain ⟨-, -, h3, h4, -, -⟩ := bitsValue_slices second
  have hsplit : sextets (byteBits first ++ byteBits second) =
      [bitsValue ([7, 6, 5, 4, 3, 2].map first.toNat.testBit),
        bitsValue ([1, 0].map first.toNat.testBit ++
          [7, 6, 5, 4].map second.toNat.testBit),
        bitsValue ([3, 2, 1, 0].map second.toNat.testBit ++ [false, false])] := rfl
  rw [hsplit, bitsValue_append, bitsValue_append, h1, h2, h3, h4]
  rfl

theorem sextets_one (first : UInt8) :
    sextets (byteBits first) = [first.toNat / 4, first.toNat % 4 * 16] := by
  obtain ⟨h1, h2, -, -, -, -⟩ := bitsValue_slices first
  have hsplit : sextets (byteBits first) =
      [bitsValue ([7, 6, 5, 4, 3, 2].map first.toNat.testBit),
        bitsValue ([1, 0].map first.toNat.testBit ++ [false, false, false, false])] := rfl
  rw [hsplit, bitsValue_append, h1, h2]
  rfl

@[simp]
theorem encode_nil : encode [] = [] := rfl

theorem encode_one (first : UInt8) :
    encode [first] =
      [alphabet (first.toNat / 4), alphabet (first.toNat % 4 * 16), pad, pad] := by
  simp [encode, sextets_one]

theorem encode_two (first second : UInt8) :
    encode [first, second] =
      [alphabet (first.toNat / 4),
        alphabet (first.toNat % 4 * 16 + second.toNat / 16),
        alphabet (second.toNat % 16 * 4), pad] := by
  simp [encode, sextets_two]

theorem encode_three (first second third : UInt8) (rest : List UInt8) :
    encode (first :: second :: third :: rest) =
      [alphabet (first.toNat / 4),
        alphabet (first.toNat % 4 * 16 + second.toNat / 16),
        alphabet (second.toNat % 16 * 4 + third.toNat / 64),
        alphabet (third.toNat % 64)] ++ encode rest := by
  have hlength (count : ℕ) : (count + 1 + 1 + 1 + 1) % 4 = count % 4 := by omega
  simp [encode, sextets_three, hlength]

/-- Splitting the input the way the encoder groups it. -/
theorem encode_induction {motive : List UInt8 → Prop} (hnil : motive [])
    (hone : ∀ first, motive [first]) (htwo : ∀ first second, motive [first, second])
    (hthree : ∀ first second third rest, motive rest →
      motive (first :: second :: third :: rest)) (bytes : List UInt8) :
    motive bytes := by
  match bytes with
  | [] => exact hnil
  | [first] => exact hone first
  | [first, second] => exact htwo first second
  | first :: second :: third :: rest =>
      exact hthree first second third rest
        (encode_induction hnil hone htwo hthree rest)

theorem alphabet_range (digit : ℕ) :
    alphabet digit = 43 ∨ (47 ≤ (alphabet digit).toNat ∧ (alphabet digit).toNat ≤ 57) ∨
      (65 ≤ (alphabet digit).toNat ∧ (alphabet digit).toNat ≤ 122) := by
  unfold alphabet
  split_ifs
  all_goals simp
  all_goals omega

/-- Every character of an encoded text is in the alphabet or is the padding. -/
theorem mem_encode {bytes : List UInt8} {char : UInt8} (hmem : char ∈ encode bytes) :
    (∃ digit, char = alphabet digit) ∨ char = pad := by
  simp only [encode, List.mem_append, List.mem_map, List.mem_replicate] at hmem
  rcases hmem with ⟨digit, -, rfl⟩ | ⟨-, rfl⟩
  · exact Or.inl ⟨digit, rfl⟩
  · exact Or.inr rfl

theorem alphabet_ne {char : UInt8} (hchar : char.toNat < 43 ∨ 122 < char.toNat)
    (digit : ℕ) : char ≠ alphabet digit := by
  rintro rfl
  rcases alphabet_range digit with heq | hrange | hrange
  · simp [heq] at hchar
  · omega
  · omega

theorem encode_eq_nil_iff {bytes : List UInt8} : encode bytes = [] ↔ bytes = [] := by
  cases bytes using encode_induction with
  | hnil => simp
  | hone first => simp [encode_one]
  | htwo first second => simp [encode_two]
  | hthree first second third rest => simp [encode_three]

/-! ## Reading it back -/

/-- The value of a character of the alphabet. -/
def digit (char : UInt8) : Option ℕ :=
  if 65 ≤ char ∧ char ≤ 90 then some (char.toNat - 65)
  else if 97 ≤ char ∧ char ≤ 122 then some (char.toNat - 71)
  else if 48 ≤ char ∧ char ≤ 57 then some (char.toNat + 4)
  else if char = 43 then some 62
  else if char = 47 then some 63
  else none

/-- Four digits without padding. -/
def decodeThree (c0 c1 c2 c3 : UInt8) : Option (List UInt8) := do
  let d0 ← digit c0
  let d1 ← digit c1
  let d2 ← digit c2
  let d3 ← digit c3
  some [UInt8.ofNat (d0 * 4 + d1 / 16), UInt8.ofNat (d1 % 16 * 16 + d2 / 4),
    UInt8.ofNat (d2 % 4 * 64 + d3)]

/-- The last group, in which padding may stand.  The bits that fill the last
digit have to be zero. -/
def decodeLast (c0 c1 c2 c3 : UInt8) : Option (List UInt8) :=
  if c3 ≠ pad then decodeThree c0 c1 c2 c3
  else if c2 ≠ pad then do
    let d0 ← digit c0
    let d1 ← digit c1
    let d2 ← digit c2
    if d2 % 4 = 0 then
      some [UInt8.ofNat (d0 * 4 + d1 / 16), UInt8.ofNat (d1 % 16 * 16 + d2 / 4)]
    else none
  else do
    let d0 ← digit c0
    let d1 ← digit c1
    if d1 % 16 = 0 then some [UInt8.ofNat (d0 * 4 + d1 / 16)] else none

/-- The strict decoder: it takes canonical encodings only. -/
def decode : List UInt8 → Option (List UInt8)
  | [] => some []
  | c0 :: c1 :: c2 :: c3 :: rest =>
      if rest = [] then decodeLast c0 c1 c2 c3
      else do
        let group ← decodeThree c0 c1 c2 c3
        let later ← decode rest
        some (group ++ later)
  | _ => none

theorem digit_alphabet {value : ℕ} (hvalue : value < 64) :
    digit (alphabet value) = some value := by
  have hall : ∀ value : Fin 64, digit (alphabet value) = some value.val := by
    decide +kernel
  exact hall ⟨value, hvalue⟩

theorem alphabet_of_digit {char : UInt8} {value : ℕ} (hdigit : digit char = some value) :
    value < 64 ∧ char = alphabet value := by
  have hall : ∀ byte : Fin 256, ∀ value ∈ digit (UInt8.ofNat byte),
      value < 64 ∧ UInt8.ofNat byte = alphabet value := by
    decide +kernel
  simpa using hall ⟨char.toNat, char.toNat_lt⟩ value (by simpa using hdigit)

theorem alphabet_ne_pad (value : ℕ) : alphabet value ≠ pad := by
  unfold alphabet pad
  split_ifs
  all_goals simp [← UInt8.toNat_inj]
  all_goals omega

theorem ofNat_eq_byte (byte : UInt8) {value : ℕ} (hvalue : value = byte.toNat) :
    UInt8.ofNat value = byte := by
  rw [hvalue, UInt8.ofNat_toNat]

private theorem decodeThree_encode (first second third : UInt8) :
    decodeThree (alphabet (first.toNat / 4))
      (alphabet (first.toNat % 4 * 16 + second.toNat / 16))
      (alphabet (second.toNat % 16 * 4 + third.toNat / 64))
      (alphabet (third.toNat % 64)) = some [first, second, third] := by
  have hfirst := first.toNat_lt
  have hsecond := second.toNat_lt
  have hthird := third.toNat_lt
  simp only [decodeThree, digit_alphabet (by omega : first.toNat / 4 < 64),
    digit_alphabet (by omega : first.toNat % 4 * 16 + second.toNat / 16 < 64),
    digit_alphabet (by omega : second.toNat % 16 * 4 + third.toNat / 64 < 64),
    digit_alphabet (by omega : third.toNat % 64 < 64), Option.bind_eq_bind, Option.bind_some]
  rw [ofNat_eq_byte first (by omega), ofNat_eq_byte second (by omega),
    ofNat_eq_byte third (by omega)]

/-- The strict decoder undoes the encoder. -/
theorem decode_encode (bytes : List UInt8) : decode (encode bytes) = some bytes := by
  induction bytes using encode_induction with
  | hnil => rfl
  | hone first =>
      have hfirst := first.toNat_lt
      have hzero : first.toNat % 4 * 16 % 16 = 0 := by omega
      simp only [encode_one, decode, decodeLast, ne_eq, not_true_eq_false, if_false, if_true,
        digit_alphabet (by omega : first.toNat / 4 < 64),
        digit_alphabet (by omega : first.toNat % 4 * 16 < 64), Option.bind_eq_bind,
        Option.bind_some, hzero]
      rw [ofNat_eq_byte first (by omega)]
  | htwo first second =>
      have hfirst := first.toNat_lt
      have hsecond := second.toNat_lt
      have hzero : second.toNat % 16 * 4 % 4 = 0 := by omega
      simp only [encode_two, decode, decodeLast, ne_eq, not_true_eq_false, if_false, if_true,
        alphabet_ne_pad, not_false_eq_true,
        digit_alphabet (by omega : first.toNat / 4 < 64),
        digit_alphabet (by omega : first.toNat % 4 * 16 + second.toNat / 16 < 64),
        digit_alphabet (by omega : second.toNat % 16 * 4 < 64), Option.bind_eq_bind,
        Option.bind_some, hzero]
      rw [ofNat_eq_byte first (by omega), ofNat_eq_byte second (by omega)]
  | hthree first second third rest ih =>
      simp only [encode_three, List.cons_append, List.nil_append, decode, decodeLast, ne_eq,
        alphabet_ne_pad, not_false_eq_true, if_true, decodeThree_encode, ih,
        Option.bind_eq_bind, Option.bind_some, encode_eq_nil_iff]
      by_cases hrest : rest = []
      · rw [if_pos hrest, hrest]
      · rw [if_neg hrest]

private theorem toNat_ofNat_lt {value : ℕ} (hvalue : value < 256) :
    (UInt8.ofNat value).toNat = value := by
  rw [UInt8.toNat_ofNat']
  omega

private theorem encode_decodeThree {c0 c1 c2 c3 : UInt8} {group : List UInt8}
    (hgroup : decodeThree c0 c1 c2 c3 = some group) (rest : List UInt8) :
    encode (group ++ rest) = c0 :: c1 :: c2 :: c3 :: encode rest := by
  simp only [decodeThree, Option.bind_eq_bind, Option.bind_eq_some_iff,
    Option.some.injEq] at hgroup
  obtain ⟨d0, hd0, d1, hd1, d2, hd2, d3, hd3, rfl⟩ := hgroup
  obtain ⟨h0, rfl⟩ := alphabet_of_digit hd0
  obtain ⟨h1, rfl⟩ := alphabet_of_digit hd1
  obtain ⟨h2, rfl⟩ := alphabet_of_digit hd2
  obtain ⟨h3, rfl⟩ := alphabet_of_digit hd3
  rw [List.cons_append, List.cons_append, List.cons_append, List.nil_append, encode_three,
    toNat_ofNat_lt (by omega), toNat_ofNat_lt (by omega), toNat_ofNat_lt (by omega)]
  rw [show (d0 * 4 + d1 / 16) / 4 = d0 by omega,
    show (d0 * 4 + d1 / 16) % 4 * 16 + (d1 % 16 * 16 + d2 / 4) / 16 = d1 by omega,
    show (d1 % 16 * 16 + d2 / 4) % 16 * 4 + (d2 % 4 * 64 + d3) / 64 = d2 by omega,
    show (d2 % 4 * 64 + d3) % 64 = d3 by omega]
  rfl

private theorem encode_decodeLast {c0 c1 c2 c3 : UInt8} {group : List UInt8}
    (hgroup : decodeLast c0 c1 c2 c3 = some group) : encode group = [c0, c1, c2, c3] := by
  unfold decodeLast at hgroup
  split_ifs at hgroup with hlast hthird
  · simpa using encode_decodeThree hgroup []
  · simp only [Option.bind_eq_bind, Option.bind_eq_some_iff] at hgroup
    obtain ⟨d0, hd0, d1, hd1, d2, hd2, hgroup⟩ := hgroup
    split_ifs at hgroup with hzero
    obtain rfl := Option.some.inj hgroup
    obtain ⟨h0, rfl⟩ := alphabet_of_digit hd0
    obtain ⟨h1, rfl⟩ := alphabet_of_digit hd1
    obtain ⟨h2, rfl⟩ := alphabet_of_digit hd2
    rw [encode_two, toNat_ofNat_lt (by omega), toNat_ofNat_lt (by omega), not_not.1 hlast,
      show (d0 * 4 + d1 / 16) / 4 = d0 by omega,
      show (d0 * 4 + d1 / 16) % 4 * 16 + (d1 % 16 * 16 + d2 / 4) / 16 = d1 by omega,
      show (d1 % 16 * 16 + d2 / 4) % 16 * 4 = d2 by omega]
  · simp only [Option.bind_eq_bind, Option.bind_eq_some_iff] at hgroup
    obtain ⟨d0, hd0, d1, hd1, hgroup⟩ := hgroup
    split_ifs at hgroup with hzero
    obtain rfl := Option.some.inj hgroup
    obtain ⟨h0, rfl⟩ := alphabet_of_digit hd0
    obtain ⟨h1, rfl⟩ := alphabet_of_digit hd1
    rw [encode_one, toNat_ofNat_lt (by omega), not_not.1 hlast, not_not.1 hthird,
      show (d0 * 4 + d1 / 16) / 4 = d0 by omega,
      show (d0 * 4 + d1 / 16) % 4 * 16 = d1 by omega]

/-- Every text the strict decoder takes is the encoding of what it returns. -/
theorem encode_of_decode {text bytes : List UInt8} (hdecode : decode text = some bytes) :
    encode bytes = text := by
  fun_induction decode text generalizing bytes with
  | case1 => simp [← Option.some.inj hdecode]
  | case2 c0 c1 c2 c3 => exact encode_decodeLast hdecode
  | case3 c0 c1 c2 c3 rest hrest ih =>
      simp only [Option.bind_eq_bind, Option.bind_eq_some_iff, Option.some.injEq] at hdecode
      obtain ⟨group, hgroup, later, hlater, rfl⟩ := hdecode
      rw [encode_decodeThree hgroup, ih hlater]
  | case4 => cases hdecode

theorem decode_eq_some_iff {text bytes : List UInt8} :
    decode text = some bytes ↔ encode bytes = text := by
  constructor
  · exact encode_of_decode
  · rintro rfl
    exact decode_encode bytes

/-! ## Canonical texts -/

/-- Digits, at most two characters of padding behind them, and the bits of the
last digit that belong to no byte are zero. -/
def Canonical (text : List UInt8) : Prop :=
  text.length % 4 = 0 ∧ ∃ (digits : List ℕ) (count : ℕ), count ≤ 2 ∧
    (∀ value ∈ digits, value < 64) ∧
    (∀ last, digits.getLast? = some last → last % 4 ^ count = 0) ∧
    text = digits.map alphabet ++ List.replicate count pad

private theorem exists_encode_of_digits {digits : List ℕ} {count : ℕ} (hcount : count ≤ 2)
    (hlength : (digits.length + count) % 4 = 0) (hsmall : ∀ value ∈ digits, value < 64)
    (hlast : ∀ last, digits.getLast? = some last → last % 4 ^ count = 0) :
    ∃ bytes, encode bytes = digits.map alphabet ++ List.replicate count pad := by
  match digits with
  | [] =>
      have hnone : count = 0 := by
        rw [List.length_nil] at hlength
        omega
      exact ⟨[], by simp [hnone]⟩
  | [d0] =>
      rw [List.length_singleton] at hlength
      omega
  | [d0, d1] =>
      have htwo : count = 2 := by
        simp only [List.length_cons, List.length_nil] at hlength
        omega
      have hzero : d1 % 16 = 0 := by simpa [htwo] using hlast d1 rfl
      have hgroup : decodeLast (alphabet d0) (alphabet d1) pad pad =
          some [UInt8.ofNat (d0 * 4 + d1 / 16)] := by
        simp [decodeLast, digit_alphabet (hsmall d0 (by simp)),
          digit_alphabet (hsmall d1 (by simp)), hzero]
      exact ⟨_, by rw [encode_decodeLast hgroup, htwo]; rfl⟩
  | [d0, d1, d2] =>
      have hone : count = 1 := by
        simp only [List.length_cons, List.length_nil] at hlength
        omega
      have hzero : d2 % 4 = 0 := by simpa [hone] using hlast d2 rfl
      have hgroup : decodeLast (alphabet d0) (alphabet d1) (alphabet d2) pad =
          some [UInt8.ofNat (d0 * 4 + d1 / 16), UInt8.ofNat (d1 % 16 * 16 + d2 / 4)] := by
        simp [decodeLast, alphabet_ne_pad, digit_alphabet (hsmall d0 (by simp)),
          digit_alphabet (hsmall d1 (by simp)), digit_alphabet (hsmall d2 (by simp)), hzero]
      exact ⟨_, by rw [encode_decodeLast hgroup, hone]; rfl⟩
  | d0 :: d1 :: d2 :: d3 :: rest =>
      have hrest : (rest.length + count) % 4 = 0 := by
        simp only [List.length_cons] at hlength
        omega
      have hdigits : ∀ value ∈ rest, value < 64 := fun value hvalue =>
        hsmall value (by simp [hvalue])
      have hend : ∀ last, rest.getLast? = some last → last % 4 ^ count = 0 := by
        intro last hrestLast
        apply hlast
        rw [show d0 :: d1 :: d2 :: d3 :: rest = [d0, d1, d2, d3] ++ rest from rfl,
          List.getLast?_append, hrestLast, Option.some_or]
      obtain ⟨bytes, hbytes⟩ := exists_encode_of_digits hcount hrest hdigits hend
      have hgroup : decodeThree (alphabet d0) (alphabet d1) (alphabet d2) (alphabet d3) =
          some [UInt8.ofNat (d0 * 4 + d1 / 16), UInt8.ofNat (d1 % 16 * 16 + d2 / 4),
            UInt8.ofNat (d2 % 4 * 64 + d3)] := by
        simp [decodeThree, digit_alphabet (hsmall d0 (by simp)),
          digit_alphabet (hsmall d1 (by simp)), digit_alphabet (hsmall d2 (by simp)),
          digit_alphabet (hsmall d3 (by simp))]
      exact ⟨_, by rw [encode_decodeThree hgroup, hbytes]; rfl⟩

/-- A full group in front keeps a text canonical. -/
theorem Canonical.append_group {text : List UInt8} {group : List ℕ} (hcanonical : Canonical text)
    (hlength : group.length = 4) (hgroup : ∀ value ∈ group, value < 64) :
    Canonical (group.map alphabet ++ text) := by
  obtain ⟨htextLength, digits, count, hcount, hsmall, hlast, rfl⟩ := hcanonical
  refine ⟨?_, group ++ digits, count, hcount, ?_, ?_, by rw [List.map_append, List.append_assoc]⟩
  · rw [List.length_append, List.length_map, hlength]
    omega
  · intro value hvalue
    exact (List.mem_append.1 hvalue).elim (hgroup value) (hsmall value)
  · intro last hend
    rw [List.getLast?_append] at hend
    cases hdigits : digits.getLast? with
    | some value =>
        rw [hdigits, Option.some_or] at hend
        exact hlast last (hdigits.trans hend)
    | none =>
        -- Nothing but padding follows, and that would have to fill a group.
        have hcountZero : count = 0 := by
          rw [List.getLast?_eq_none_iff.1 hdigits] at htextLength
          simp only [List.map_nil, List.nil_append, List.length_replicate] at htextLength
          omega
        rw [hcountZero, pow_zero, Nat.mod_one]

theorem canonical_encode (bytes : List UInt8) : Canonical (encode bytes) := by
  induction bytes using encode_induction with
  | hnil => exact ⟨rfl, [], 0, by simp, by simp, by simp, rfl⟩
  | hone first =>
      have hfirst := first.toNat_lt
      rw [encode_one]
      refine ⟨by simp, [first.toNat / 4, first.toNat % 4 * 16], 2, le_rfl, ?_, ?_, rfl⟩
      · simp only [List.forall_mem_cons]
        exact ⟨by omega, by omega, by simp⟩
      · simp
  | htwo first second =>
      have hfirst := first.toNat_lt
      have hsecond := second.toNat_lt
      rw [encode_two]
      refine ⟨by simp, [first.toNat / 4, first.toNat % 4 * 16 + second.toNat / 16,
        second.toNat % 16 * 4], 1, by norm_num, ?_, ?_, rfl⟩
      · simp only [List.forall_mem_cons]
        exact ⟨by omega, by omega, by omega, by simp⟩
      · simp
  | hthree first second third rest ih =>
      have hfirst := first.toNat_lt
      have hsecond := second.toNat_lt
      have hthird := third.toNat_lt
      rw [encode_three]
      have hgroup : ∀ value ∈ [first.toNat / 4, first.toNat % 4 * 16 + second.toNat / 16,
          second.toNat % 16 * 4 + third.toNat / 64, third.toNat % 64], value < 64 := by
        simp only [List.forall_mem_cons]
        exact ⟨by omega, by omega, by omega, by omega, by simp⟩
      exact ih.append_group rfl hgroup

/-- Canonical are the encodings, and nothing else. -/
theorem canonical_iff {text : List UInt8} : Canonical text ↔ ∃ bytes, encode bytes = text := by
  constructor
  · rintro ⟨hlength, digits, count, hcount, hsmall, hlast, rfl⟩
    apply exists_encode_of_digits hcount _ hsmall hlast
    simpa using hlength
  · rintro ⟨bytes, rfl⟩
    exact canonical_encode bytes

end ArcravenUgv.Radix64
