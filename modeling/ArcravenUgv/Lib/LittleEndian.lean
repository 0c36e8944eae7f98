import Mathlib.Tactic

/-!
# Little-endian words

The bytes of a number, least significant first, and the number a byte string
denotes.
-/

namespace ArcravenUgv.LittleEndian

def bytesOf : ℕ → ℕ → List UInt8
  | 0, _ => []
  | count + 1, number => UInt8.ofNat number :: bytesOf count (number / 256)

def numberOf : List UInt8 → ℕ
  | [] => 0
  | byte :: bytes => byte.toNat + 256 * numberOf bytes

@[simp]
theorem length_bytesOf (count number : ℕ) : (bytesOf count number).length = count := by
  induction count generalizing number with
  | zero => rfl
  | succ count ih => simp [bytesOf, ih]

theorem numberOf_bytesOf (count number : ℕ) :
    numberOf (bytesOf count number) = number % 256 ^ count := by
  induction count generalizing number with
  | zero => simp [bytesOf, numberOf, Nat.mod_one]
  | succ count ih =>
      rw [bytesOf, numberOf, ih, UInt8.toNat_ofNat', pow_succ' 256 count, Nat.mod_mul]

theorem bytesOf_numberOf (bytes : List UInt8) :
    bytesOf bytes.length (numberOf bytes) = bytes := by
  induction bytes with
  | nil => rfl
  | cons byte bytes ih =>
      have hbyte := byte.toNat_lt
      have hhead : UInt8.ofNat (byte.toNat + 256 * numberOf bytes) = byte := by
        apply UInt8.toNat_inj.1
        rw [UInt8.toNat_ofNat']
        omega
      have htail : (byte.toNat + 256 * numberOf bytes) / 256 = numberOf bytes := by omega
      rw [List.length_cons, numberOf, bytesOf, hhead, htail, ih]

theorem numberOf_lt (bytes : List UInt8) : numberOf bytes < 256 ^ bytes.length := by
  induction bytes with
  | nil => simp [numberOf]
  | cons byte bytes ih =>
      have hbyte := byte.toNat_lt
      rw [numberOf, List.length_cons, pow_succ]
      omega

theorem numberOf_take_lt (count : ℕ) (bytes : List UInt8) :
    numberOf (bytes.take count) < 256 ^ count := by
  calc
    numberOf (bytes.take count) < 256 ^ (bytes.take count).length := numberOf_lt _
    _ ≤ 256 ^ count := Nat.pow_le_pow_right (by norm_num) (List.length_take_le count bytes)

/-- The word at the front of a string is written back as it was. -/
theorem bytesOf_numberOf_take {count : ℕ} {bytes : List UInt8} (hlength : count ≤ bytes.length) :
    bytesOf count (numberOf (bytes.take count)) = bytes.take count := by
  have hback := bytesOf_numberOf (bytes.take count)
  rwa [List.length_take_of_le hlength] at hback

/-- A word that fits is read back from the front of a longer string. -/
theorem numberOf_take_bytesOf {count number : ℕ} (hfits : number < 256 ^ count)
    (rest : List UInt8) :
    numberOf ((bytesOf count number ++ rest).take count) = number := by
  rw [List.take_left' (length_bytesOf count number), numberOf_bytesOf,
    Nat.mod_eq_of_lt hfits]

end ArcravenUgv.LittleEndian
