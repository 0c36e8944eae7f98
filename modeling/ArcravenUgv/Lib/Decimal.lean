import Mathlib.Tactic

/-!
# Decimal numerals in bytes

Unsigned numbers printed as ASCII digits, the value of a string of digits, and
the fact that the second undoes the first.
-/

namespace ArcravenUgv.Decimal

/-- An ASCII text as bytes. -/
def ascii (text : String) : List UInt8 :=
  text.toList.map fun char => UInt8.ofNat char.toNat

def isDigit (byte : UInt8) : Bool :=
  48 ≤ byte && byte ≤ 57

/-- The value of a string of digits, most significant first. -/
def digitsValue (digits : List UInt8) : ℕ :=
  digits.foldl (fun value byte => 10 * value + (byte.toNat - 48)) 0

/-- The digits of a number, without leading zeros. -/
def decimal (number : ℕ) : List UInt8 :=
  (Nat.toDigits 10 number).map fun char => UInt8.ofNat char.toNat

theorem decimal_ne_nil (number : ℕ) : decimal number ≠ [] := by
  simp [decimal]

private theorem char_toNat_of_mem_toDigits {number : ℕ} {char : Char}
    (hmem : char ∈ Nat.toDigits 10 number) :
    48 ≤ char.toNat ∧ char.toNat ≤ 57 := by
  have hdigit := Nat.isDigit_of_mem_toDigits (by norm_num) (by norm_num) hmem
  simpa [Char.isDigit, UInt32.le_iff_toNat_le] using hdigit

theorem isDigit_of_mem_decimal {number : ℕ} {byte : UInt8}
    (hmem : byte ∈ decimal number) : isDigit byte = true := by
  obtain ⟨char, hchar, rfl⟩ := List.mem_map.1 hmem
  have hrange := char_toNat_of_mem_toDigits hchar
  simp only [isDigit, Bool.and_eq_true, decide_eq_true_eq,
    UInt8.le_iff_toNat_le, UInt8.toNat_ofNat']
  constructor
  · simp; omega
  · simp; omega

private theorem foldl_map_toDigits {chars : List Char} (start : ℕ)
    (hrange : ∀ char ∈ chars, char.toNat ≤ 57) :
    (chars.map fun char => UInt8.ofNat char.toNat).foldl
        (fun value byte => 10 * value + (byte.toNat - 48)) start =
      Nat.ofDigitChars 10 chars start := by
  induction chars generalizing start with
  | nil => simp
  | cons char chars ih =>
      have hchar : char.toNat ≤ 57 := hrange char (by simp)
      have hbyte : (UInt8.ofNat char.toNat).toNat = char.toNat := by
        simp only [UInt8.toNat_ofNat']
        omega
      rw [List.map_cons, List.foldl_cons, hbyte, Nat.ofDigitChars_cons,
        ih _ fun other hother => hrange other (by simp [hother])]
      rfl

@[simp]
theorem digitsValue_decimal (number : ℕ) :
    digitsValue (decimal number) = number := by
  rw [digitsValue, decimal,
    foldl_map_toDigits 0 fun char hchar => (char_toNat_of_mem_toDigits hchar).2,
    Nat.ofDigitChars_ten_toDigits]

theorem not_mem_decimal {number : ℕ} {byte : UInt8}
    (hbyte : isDigit byte = false) : byte ∉ decimal number := by
  intro hmem
  simp [isDigit_of_mem_decimal hmem] at hbyte

end ArcravenUgv.Decimal
