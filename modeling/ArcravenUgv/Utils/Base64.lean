import ArcravenUgv.Command.Types
import ArcravenUgv.Lib.Radix64

/-!
# The core's base64 codec

`utils/Base64.cpp`.  The decoder's reverse table maps `=` to zero like any
digit; where the padding stands decides only which of the three bytes of a group
are kept.
-/

namespace ArcravenUgv.Base64

open ArcravenUgv.Command
open ArcravenUgv.Decimal
open ArcravenUgv.Radix64

def kEncodeTable : List UInt8 :=
  ascii "ABCDEFGHIJKLMNOPQRSTUVWXYZabcdefghijklmnopqrstuvwxyz0123456789+/"

/-- `kEncodeTable[bits & 0x3F]`. -/
def encodeDigit (bits : UInt32) : UInt8 :=
  kEncodeTable.getD (bits &&& 0x3F).toNat 0

/-- `base64_encode`: whole groups of three bytes, then what remains. -/
def base64Encode : Bytes → Bytes
  | b0 :: b1 :: b2 :: rest =>
      let chunk := (b0.toUInt32 <<< 16) ||| (b1.toUInt32 <<< 8) ||| b2.toUInt32
      encodeDigit (chunk >>> 18) :: encodeDigit (chunk >>> 12) ::
        encodeDigit (chunk >>> 6) :: encodeDigit chunk :: base64Encode rest
  | [b0] =>
      let chunk := b0.toUInt32 <<< 16
      [encodeDigit (chunk >>> 18), encodeDigit (chunk >>> 12), 61, 61]
  | [b0, b1] =>
      let chunk := (b0.toUInt32 <<< 16) ||| (b1.toUInt32 <<< 8)
      [encodeDigit (chunk >>> 18), encodeDigit (chunk >>> 12), encodeDigit (chunk >>> 6), 61]
  | [] => []

/-- `table[c]`, with `none` for `-1`. -/
def table (char : UInt8) : Option UInt32 :=
  if char = 61 then some 0
  else (kEncodeTable.idxOf? char).map UInt32.ofNat

def chunk (v0 v1 v2 v3 : UInt32) : UInt32 :=
  (v0 <<< 18) ||| (v1 <<< 12) ||| (v2 <<< 6) ||| v3

/-- One turn of the decoding loop. -/
def decodeGroup (c0 c1 c2 c3 : UInt8) : Option Bytes := do
  let v0 ← table c0
  let v1 ← table c1
  let v2 ← table c2
  let v3 ← table c3
  let bits := chunk v0 v1 v2 v3
  let first := ((bits >>> 16) &&& 0xFF).toUInt8
  let second := ((bits >>> 8) &&& 0xFF).toUInt8
  let third := (bits &&& 0xFF).toUInt8
  some ([first] ++ (if c2 ≠ 61 then [second] else []) ++
    (if c3 ≠ 61 then [third] else []))

def decodeGroups : Bytes → Option Bytes
  | c0 :: c1 :: c2 :: c3 :: rest => do
      let group ← decodeGroup c0 c1 c2 c3
      let later ← decodeGroups rest
      some (group ++ later)
  | _ => some []

/-- The decoded bytes and the value left in `ok`. -/
def base64Decode (input : Bytes) : Bytes × Bool :=
  if input.length % 4 ≠ 0 then ([], false)
  else
    match decodeGroups input with
    | none => ([], false)
    | some out => (out, true)

theorem kEncodeTable_eq : kEncodeTable = (List.range 64).map alphabet := by
  decide +kernel

theorem table_alphabet {digit : ℕ} (hdigit : digit < 64) :
    table (alphabet digit) = some (UInt32.ofNat digit) := by
  have hall : ∀ digit : Fin 64,
      table (alphabet digit) = some (UInt32.ofNat digit) := by
    decide +kernel
  exact hall ⟨digit, hdigit⟩

private theorem toNat_ofNat_small {value : ℕ} (hvalue : value < 2 ^ 24) :
    (UInt32.ofNat value).toNat = value := by
  rw [UInt32.toNat_ofNat']
  omega

private theorem or_eq_add {high low amount : ℕ} (hlow : low < 2 ^ amount) :
    high * 2 ^ amount ||| low = high * 2 ^ amount + low := by
  rw [← Nat.shiftLeft_eq, Nat.shiftLeft_add_eq_or_of_lt hlow]

private theorem toNat_shift_digit {digit : ℕ} (hdigit : digit < 64) (amount : UInt32)
    (hamount : amount.toNat ≤ 18) :
    (UInt32.ofNat digit <<< amount).toNat = digit * 2 ^ amount.toNat := by
  have hpow : 2 ^ amount.toNat ≤ 2 ^ 18 := Nat.pow_le_pow_right (by norm_num) hamount
  have hbound : digit * 2 ^ amount.toNat < 2 ^ 32 := by nlinarith
  rw [UInt32.toNat_shiftLeft, toNat_ofNat_small (by omega),
    Nat.mod_eq_of_lt (by omega : amount.toNat < 32), Nat.shiftLeft_eq, Nat.mod_eq_of_lt hbound]

/-- Four six-bit digits side by side. -/
theorem toNat_chunk {d0 d1 d2 d3 : ℕ} (h0 : d0 < 64) (h1 : d1 < 64) (h2 : d2 < 64)
    (h3 : d3 < 64) :
    (chunk (UInt32.ofNat d0) (UInt32.ofNat d1) (UInt32.ofNat d2) (UInt32.ofNat d3)).toNat =
      d0 * 2 ^ 18 + d1 * 2 ^ 12 + d2 * 2 ^ 6 + d3 := by
  have e0 : (UInt32.ofNat d0 <<< 18).toNat = d0 * 2 ^ 18 :=
    toNat_shift_digit h0 18 (by decide)
  have e1 : (UInt32.ofNat d1 <<< 12).toNat = d1 * 2 ^ 12 :=
    toNat_shift_digit h1 12 (by decide)
  have e2 : (UInt32.ofNat d2 <<< 6).toNat = d2 * 2 ^ 6 :=
    toNat_shift_digit h2 6 (by decide)
  have h01 : d0 * 2 ^ 18 ||| d1 * 2 ^ 12 = (d0 * 64 + d1) * 2 ^ 12 := by
    rw [or_eq_add (by omega)]
    ring
  have h012 : (d0 * 64 + d1) * 2 ^ 12 ||| d2 * 2 ^ 6 =
      ((d0 * 64 + d1) * 64 + d2) * 2 ^ 6 := by
    rw [or_eq_add (by omega)]
    ring
  rw [chunk, UInt32.toNat_or, UInt32.toNat_or, UInt32.toNat_or, e0, e1, e2,
    toNat_ofNat_small (by omega), h01, h012, or_eq_add (by omega)]
  ring

private theorem toUInt8_and_255 (word : UInt32) :
    (word &&& 0xFF).toUInt8 = UInt8.ofNat (word.toNat % 256) := by
  apply UInt8.toNat_inj.1
  have hand : word.toNat &&& 255 = word.toNat % 256 := Nat.and_two_pow_sub_one_eq_mod _ 8
  rw [UInt32.toNat_toUInt8, UInt32.toNat_and, UInt8.toNat_ofNat']
  simp only [UInt32.reduceToNat, hand]

private theorem toNat_shiftRight_byte (word : UInt32) :
    (word >>> 16).toNat = word.toNat / 65536 ∧ (word >>> 8).toNat = word.toNat / 256 := by
  simp [UInt32.toNat_shiftRight, Nat.shiftRight_eq_div_pow]

/-- A group of four digits decodes to the bytes its padding leaves. -/
theorem decodeGroup_eq {c0 c1 c2 c3 : UInt8} {d0 d1 d2 d3 : ℕ}
    (h0 : d0 < 64) (h1 : d1 < 64) (h2 : d2 < 64) (h3 : d3 < 64)
    (t0 : table c0 = some (UInt32.ofNat d0)) (t1 : table c1 = some (UInt32.ofNat d1))
    (t2 : table c2 = some (UInt32.ofNat d2)) (t3 : table c3 = some (UInt32.ofNat d3)) :
    decodeGroup c0 c1 c2 c3 = some
      ([UInt8.ofNat (d0 * 4 + d1 / 16)] ++
        (if c2 ≠ 61 then [UInt8.ofNat (d1 % 16 * 16 + d2 / 4)] else []) ++
        (if c3 ≠ 61 then [UInt8.ofNat (d2 % 4 * 64 + d3)] else [])) := by
  have hchunk := toNat_chunk h0 h1 h2 h3
  simp only [decodeGroup, t0, t1, t2, t3, Option.bind_eq_bind, Option.bind_some,
    toUInt8_and_255, toNat_shiftRight_byte, hchunk]
  have hfirst : (d0 * 2 ^ 18 + d1 * 2 ^ 12 + d2 * 2 ^ 6 + d3) / 65536 % 256 =
      d0 * 4 + d1 / 16 := by omega
  have hsecond : (d0 * 2 ^ 18 + d1 * 2 ^ 12 + d2 * 2 ^ 6 + d3) / 256 % 256 =
      d1 % 16 * 16 + d2 / 4 := by omega
  have hthird : (d0 * 2 ^ 18 + d1 * 2 ^ 12 + d2 * 2 ^ 6 + d3) % 256 =
      d2 % 4 * 64 + d3 := by omega
  rw [hfirst, hsecond, hthird]

/-- The decoder undoes the RFC 4648 encoding group by group. -/
theorem decodeGroups_encode (bytes : List UInt8) :
    decodeGroups (encode bytes) = some bytes := by
  have hpad : table pad = some (UInt32.ofNat 0) := rfl
  have hequals : (61 : UInt8) = pad := rfl
  induction bytes using encode_induction with
  | hnil => rfl
  | hone first =>
      have hfirst := first.toNat_lt
      rw [encode_one, decodeGroups, decodeGroup_eq (by omega) (by omega) (by omega) (by omega)
        (table_alphabet (by omega)) (table_alphabet (by omega)) hpad hpad]
      rw [ofNat_eq_byte first (by omega)]
      simp [decodeGroups, hequals]
  | htwo first second =>
      have hfirst := first.toNat_lt
      have hsecond := second.toNat_lt
      rw [encode_two, decodeGroups, decodeGroup_eq (by omega) (by omega) (by omega) (by omega)
        (table_alphabet (by omega)) (table_alphabet (by omega)) (table_alphabet (by omega)) hpad]
      rw [ofNat_eq_byte first (by omega),
        ofNat_eq_byte second (by omega)]
      simp [decodeGroups, hequals, alphabet_ne_pad]
  | hthree first second third rest ih =>
      have hfirst := first.toNat_lt
      have hsecond := second.toNat_lt
      have hthird := third.toNat_lt
      rw [encode_three, List.cons_append, List.cons_append, List.cons_append,
        List.cons_append, List.nil_append, decodeGroups,
        decodeGroup_eq (by omega) (by omega) (by omega) (by omega)
          (table_alphabet (by omega)) (table_alphabet (by omega))
          (table_alphabet (by omega)) (table_alphabet (by omega)), ih]
      rw [ofNat_eq_byte first (by omega),
        ofNat_eq_byte second (by omega),
        ofNat_eq_byte third (by omega)]
      simp [hequals, alphabet_ne_pad]

theorem length_encode_mod_four (bytes : List UInt8) : (encode bytes).length % 4 = 0 := by
  rw [encode]
  simp only [List.length_append, List.length_map, List.length_replicate]
  omega

/-- Whatever bytes were encoded, the core reads exactly those. -/
theorem base64Decode_encode (bytes : List UInt8) :
    base64Decode (encode bytes) = (bytes, true) := by
  rw [base64Decode, length_encode_mod_four, decodeGroups_encode]
  rfl

/-! ## The encoder -/

theorem encodeDigit_eq (bits : UInt32) : encodeDigit bits = alphabet (bits.toNat % 64) := by
  have hand : bits.toNat &&& 63 = bits.toNat % 64 := Nat.and_two_pow_sub_one_eq_mod _ 6
  have hsmall : bits.toNat % 64 < 64 := Nat.mod_lt _ (by norm_num)
  rw [encodeDigit, UInt32.toNat_and, show (0x3F : UInt32).toNat = 63 from rfl, hand,
    kEncodeTable_eq]
  simp [hsmall]

/-- Three bytes side by side. -/
private theorem toNat_bytes (b0 b1 b2 : UInt8) :
    ((b0.toUInt32 <<< 16) ||| (b1.toUInt32 <<< 8) ||| b2.toUInt32).toNat =
      b0.toNat * 2 ^ 16 + b1.toNat * 2 ^ 8 + b2.toNat := by
  have h0 := b0.toNat_lt
  have h1 := b1.toNat_lt
  have h2 := b2.toNat_lt
  have e0 : (b0.toUInt32 <<< 16).toNat = b0.toNat * 2 ^ 16 := by
    rw [UInt32.toNat_shiftLeft, UInt8.toNat_toUInt32, Nat.shiftLeft_eq]
    simp only [UInt32.reduceToNat, Nat.reduceMod]
    omega
  have e1 : (b1.toUInt32 <<< 8).toNat = b1.toNat * 2 ^ 8 := by
    rw [UInt32.toNat_shiftLeft, UInt8.toNat_toUInt32, Nat.shiftLeft_eq]
    simp only [UInt32.reduceToNat, Nat.reduceMod]
    omega
  have h01 : b0.toNat * 2 ^ 16 ||| b1.toNat * 2 ^ 8 = (b0.toNat * 256 + b1.toNat) * 2 ^ 8 := by
    rw [or_eq_add (by omega)]
    ring
  rw [UInt32.toNat_or, UInt32.toNat_or, e0, e1, UInt8.toNat_toUInt32, h01, or_eq_add (by omega)]
  ring

private theorem toNat_shiftRight (word : UInt32) :
    (word >>> 18).toNat = word.toNat / 2 ^ 18 ∧ (word >>> 12).toNat = word.toNat / 2 ^ 12 ∧
      (word >>> 6).toNat = word.toNat / 2 ^ 6 := by
  simp [UInt32.toNat_shiftRight, Nat.shiftRight_eq_div_pow]

/-- The core's encoder is the RFC 4648 encoding. -/
theorem base64Encode_eq (bytes : Bytes) : base64Encode bytes = encode bytes := by
  have hpad : (61 : UInt8) = pad := rfl
  induction bytes using encode_induction with
  | hnil => rfl
  | hone b0 =>
      have h0 := b0.toNat_lt
      have hbits : (b0.toUInt32 <<< 16).toNat = b0.toNat * 2 ^ 16 := by
        simpa using toNat_bytes b0 0 0
      rw [base64Encode, encode_one]
      simp only [encodeDigit_eq, toNat_shiftRight, hbits, hpad]
      rw [show b0.toNat * 2 ^ 16 / 2 ^ 18 % 64 = b0.toNat / 4 by omega,
        show b0.toNat * 2 ^ 16 / 2 ^ 12 % 64 = b0.toNat % 4 * 16 by omega]
  | htwo b0 b1 =>
      have h0 := b0.toNat_lt
      have h1 := b1.toNat_lt
      have hbits : ((b0.toUInt32 <<< 16) ||| (b1.toUInt32 <<< 8)).toNat =
          b0.toNat * 2 ^ 16 + b1.toNat * 2 ^ 8 := by
        simpa using toNat_bytes b0 b1 0
      rw [base64Encode, encode_two]
      simp only [encodeDigit_eq, toNat_shiftRight, hbits, hpad]
      rw [show (b0.toNat * 2 ^ 16 + b1.toNat * 2 ^ 8) / 2 ^ 18 % 64 = b0.toNat / 4 by omega,
        show (b0.toNat * 2 ^ 16 + b1.toNat * 2 ^ 8) / 2 ^ 12 % 64 =
          b0.toNat % 4 * 16 + b1.toNat / 16 by omega,
        show (b0.toNat * 2 ^ 16 + b1.toNat * 2 ^ 8) / 2 ^ 6 % 64 = b1.toNat % 16 * 4 by omega]
  | hthree b0 b1 b2 rest ih =>
      have h0 := b0.toNat_lt
      have h1 := b1.toNat_lt
      have h2 := b2.toNat_lt
      rw [base64Encode, encode_three, ih]
      simp only [encodeDigit_eq, toNat_shiftRight, toNat_bytes]
      rw [show (b0.toNat * 2 ^ 16 + b1.toNat * 2 ^ 8 + b2.toNat) / 2 ^ 18 % 64 =
          b0.toNat / 4 by omega,
        show (b0.toNat * 2 ^ 16 + b1.toNat * 2 ^ 8 + b2.toNat) / 2 ^ 12 % 64 =
          b0.toNat % 4 * 16 + b1.toNat / 16 by omega,
        show (b0.toNat * 2 ^ 16 + b1.toNat * 2 ^ 8 + b2.toNat) / 2 ^ 6 % 64 =
          b1.toNat % 16 * 4 + b2.toNat / 64 by omega,
        show (b0.toNat * 2 ^ 16 + b1.toNat * 2 ^ 8 + b2.toNat) % 64 =
          b2.toNat % 64 by omega]
      rfl

end ArcravenUgv.Base64
