import ArcravenUgv.Lib.ShiftRegister
import Mathlib.Algebra.CharP.Two
import Mathlib.Algebra.Field.ZMod
import Mathlib.Algebra.Polynomial.FieldDivision
import Mathlib.RingTheory.AdjoinRoot

/-!
# Reflected shift registers divide polynomials

A list of bits is a polynomial over the field of two elements, its first bit the
leading coefficient.  Read from its low end, a reflected register is such a list
too, and shifting it multiplies by `X` modulo the polynomial of the taps.
-/

namespace ArcravenUgv.BitPolynomial

open Function Polynomial
open ArcravenUgv.ShiftRegister

noncomputable section

/-- A bit as a constant. -/
def ofBit (bit : Bool) : (ZMod 2)[X] := if bit then 1 else 0

def ofBits : List Bool → (ZMod 2)[X]
  | [] => 0
  | bit :: bits => ofBit bit * X ^ bits.length + ofBits bits

theorem ofBit_xor (left right : Bool) :
    ofBit (left ^^ right) = ofBit left + ofBit right := by
  cases left <;> cases right <;> simp [ofBit, CharTwo.add_self_eq_zero]

theorem ofBits_append (left right : List Bool) :
    ofBits (left ++ right) = ofBits left * X ^ right.length + ofBits right := by
  induction left with
  | nil => simp [ofBits]
  | cons bit left ih =>
      rw [List.cons_append, ofBits, ih, List.length_append, ofBits, pow_add]
      ring

theorem ofBits_concat (bits : List Bool) (bit : Bool) :
    ofBits (bits ++ [bit]) = X * ofBits bits + ofBit bit := by
  rw [ofBits_append]
  simp [ofBits, mul_comm]

theorem ofBits_zipWith_xor {left right : List Bool} (hlength : left.length = right.length) :
    ofBits (left.zipWith Bool.xor right) = ofBits left + ofBits right := by
  induction left generalizing right with
  | nil => simp [ofBits, List.eq_nil_of_length_eq_zero hlength.symm]
  | cons bit left ih =>
      obtain ⟨other, right, rfl⟩ := List.exists_cons_of_length_eq_add_one hlength.symm
      have hrest : left.length = right.length := by simpa using hlength
      rw [List.zipWith_cons_cons, ofBits, ih hrest, ofBit_xor, List.length_zipWith, hrest,
        Nat.min_self, ofBits, ofBits, hrest]
      ring

theorem ofBits_map_not (bits : List Bool) :
    ofBits (bits.map Bool.not) = ofBits bits + ofBits (List.replicate bits.length true) := by
  induction bits with
  | nil => simp [ofBits]
  | cons bit bits ih =>
      have hnot : ofBit (!bit) = ofBit bit + ofBit true := by
        rw [← ofBit_xor, Bool.xor_true]
      rw [List.map_cons, ofBits, ih, List.length_map, hnot, List.length_cons,
        List.replicate_succ, ofBits, ofBits, List.length_replicate]
      ring

theorem ofBits_replicate_false (count : ℕ) : ofBits (List.replicate count false) = 0 := by
  induction count with
  | zero => rfl
  | succ count ih => simp [List.replicate_succ, ofBits, ofBit, ih]

/-- Counted from the last bit, the bits are the coefficients. -/
theorem coeff_ofBits (bits : List Bool) (index : ℕ) :
    (ofBits bits).coeff index = if bits.reverse[index]? = some true then 1 else 0 := by
  induction bits with
  | nil => simp [ofBits]
  | cons bit bits ih =>
      have hbit : (ofBit bit * X ^ bits.length).coeff index =
          if index = bits.length then (if bit = true then 1 else 0) else 0 := by
        cases bit <;> simp [ofBit, coeff_X_pow]
      rw [ofBits, coeff_add, ih, hbit, List.reverse_cons]
      by_cases hlast : index = bits.length
      · simp [hlast]
      · rw [if_neg hlast, zero_add]
        by_cases hlow : index < bits.length
        · rw [List.getElem?_append_left (by simpa using hlow)]
        · simp [List.getElem?_eq_none, show bits.length + 1 ≤ index by omega,
            show bits.length ≤ index by omega]

theorem degree_ofBits_lt (bits : List Bool) : (ofBits bits).degree < bits.length := by
  apply degree_lt_iff_coeff_zero _ _ |>.2
  intro index hindex
  rw [coeff_ofBits, List.getElem?_eq_none (by simpa using hindex)]
  simp

/-! ## The polynomial of a register -/

variable {width : ℕ}

/-- The low bits of a word, the lowest first. -/
def lowBits (count : ℕ) (word : BitVec width) : List Bool :=
  (List.range count).map word.getLsbD

def ofRegister (register : BitVec width) : (ZMod 2)[X] := ofBits (lowBits width register)

/-- The register whose bits, the lowest first, are the coefficients below `width`. -/
def toRegister (width : ℕ) (polynomial : (ZMod 2)[X]) : BitVec width :=
  (BitVec.ofBoolListLE ((List.range width).map fun index =>
    decide (polynomial.coeff (width - 1 - index) = 1))).cast (by simp)

/-- What the taps divide by. -/
def divisor (taps : BitVec width) : (ZMod 2)[X] := X ^ width + ofRegister taps

@[simp]
theorem length_lowBits (count : ℕ) (word : BitVec width) :
    (lowBits count word).length = count := by
  simp [lowBits]

theorem lowBits_xor (count : ℕ) (left right : BitVec width) :
    lowBits count (left ^^^ right) =
      (lowBits count left).zipWith Bool.xor (lowBits count right) := by
  apply List.ext_getElem
  · simp
  · intro index _ _
    simp [lowBits]

theorem ofRegister_xor (left right : BitVec width) :
    ofRegister (left ^^^ right) = ofRegister left + ofRegister right := by
  rw [ofRegister, lowBits_xor, ofBits_zipWith_xor (by simp), ofRegister, ofRegister]

theorem ofRegister_zero : ofRegister (BitVec.ofNat width 0) = 0 := by
  have hself := ofRegister_xor (BitVec.ofNat width 0) (BitVec.ofNat width 0)
  rw [BitVec.xor_self] at hself
  exact left_eq_add.1 hself

theorem degree_ofRegister_lt (register : BitVec width) :
    (ofRegister register).degree < width := by
  have hdegree := degree_ofBits_lt (lowBits width register)
  rwa [length_lowBits] at hdegree

theorem toRegister_ofRegister (register : BitVec width) :
    toRegister width (ofRegister register) = register := by
  apply BitVec.eq_of_getLsbD_eq
  intro index hindex
  have hbit : (lowBits width register).reverse[width - 1 - index]? =
      some (register.getLsbD index) := by
    rw [List.getElem?_reverse (by simp; omega), length_lowBits, lowBits, List.getElem?_map,
      List.getElem?_range (by omega), show width - 1 - (width - 1 - index) = index by omega,
      Option.map_some]
  rw [toRegister, BitVec.getLsbD_cast, BitVec.getLsbD_ofBoolListLE, List.getD_eq_getElem?_getD,
    List.getElem?_map, List.getElem?_range hindex, Option.map_some, Option.getD_some,
    ofRegister, coeff_ofBits, hbit]
  cases register.getLsbD index <;> simp

/-- A short word stands at the upper end of the register's polynomial. -/
theorem ofRegister_of_below {count : ℕ} (hcount : count ≤ width) {word : BitVec width}
    (hbelow : Below count word) :
    ofRegister word = X ^ (width - count) * ofBits (lowBits count word) := by
  have hbits : lowBits width word =
      lowBits count word ++ List.replicate (width - count) false := by
    apply List.ext_getElem
    · simp; omega
    · intro index hindex _
      by_cases hlow : index < count
      · simp [lowBits, hlow]
      · rw [List.getElem_append_right (by simpa using hlow)]
        simp [lowBits, hbelow index (by omega)]
  rw [ofRegister, hbits, ofBits_append, ofBits_replicate_false, List.length_replicate, add_zero,
    mul_comm]

theorem monic_divisor (taps : BitVec width) : (divisor taps).Monic :=
  monic_X_pow_add (degree_ofRegister_lt taps)

theorem degree_divisor (taps : BitVec width) : (divisor taps).degree = width := by
  rw [divisor, degree_add_eq_left_of_degree_lt, degree_X_pow]
  rw [degree_X_pow]
  exact degree_ofRegister_lt taps

/-! ## Shifting is multiplication -/

private theorem ofRegister_ushiftRight (register : BitVec width) :
    X * ofRegister register =
      ofBit (register.getLsbD 0) * X ^ width + ofRegister (register >>> 1) := by
  cases width with
  | zero => simp [ofRegister, lowBits, ofBits, ofBit]
  | succ width =>
      let rest := (List.range width).map fun index => register.getLsbD (index + 1)
      have hbits : lowBits (width + 1) register = register.getLsbD 0 :: rest := by
        rw [lowBits, List.range_succ_eq_map, List.map_cons, List.map_map]
        rfl
      have hshifted : lowBits (width + 1) (register >>> 1) = rest ++ [false] := by
        rw [lowBits, List.range_succ, List.map_append]
        simp [rest, Nat.add_comm]
      rw [ofRegister, hbits, ofRegister, hshifted, ofBits_concat, ofBits]
      simp only [rest, List.length_map, List.length_range, ofBit, Bool.false_eq_true, if_false]
      ring

/-- Shifting multiplies by `X` and takes off the divisor for each bit that falls out. -/
theorem ofRegister_shift (taps register : BitVec width) :
    X * ofRegister register =
      ofRegister (shift taps register) + ofBit (register.getLsbD 0) * divisor taps := by
  rw [ofRegister_ushiftRight, shift, ofRegister_xor, divisor]
  cases register.getLsbD 0 with
  | false => simp [ofBit, ofRegister_zero]
  | true =>
      have hcancel := CharTwo.add_self_eq_zero (ofRegister taps)
      simp only [ofBit, if_true, one_mul]
      linear_combination -hcancel

theorem mk_ofRegister_shift (taps register : BitVec width) :
    AdjoinRoot.mk (divisor taps) (ofRegister (shift taps register)) =
      AdjoinRoot.mk (divisor taps) (X * ofRegister register) := by
  rw [ofRegister_shift, map_add, map_mul, AdjoinRoot.mk_self, mul_zero, add_zero]

theorem mk_ofRegister_iterate_shift (taps : BitVec width) (count : ℕ)
    (register : BitVec width) :
    AdjoinRoot.mk (divisor taps) (ofRegister ((shift taps)^[count] register)) =
      AdjoinRoot.mk (divisor taps) (X ^ count * ofRegister register) := by
  induction count with
  | zero => simp
  | succ count ih =>
      rw [iterate_succ_apply', mk_ofRegister_shift, map_mul, ih, ← map_mul, pow_succ']
      congr 1
      ring

/-- Feeding words multiplies the register up and appends their bits. -/
theorem mk_ofRegister_foldl (taps : BitVec width) {count : ℕ} (hcount : count ≤ width)
    {words : List (BitVec width)} (hbelow : ∀ word ∈ words, Below count word)
    (register : BitVec width) :
    AdjoinRoot.mk (divisor taps) (ofRegister (words.foldl (absorb taps count) register)) =
      AdjoinRoot.mk (divisor taps) (X ^ (count * words.length) * ofRegister register +
        X ^ width * ofBits (words.flatMap (lowBits count))) := by
  induction words generalizing register with
  | nil => simp [ofBits]
  | cons word words ih =>
      have hword : X ^ count * ofRegister word = X ^ width * ofBits (lowBits count word) := by
        rw [ofRegister_of_below hcount (hbelow word (List.mem_cons_self ..)), ← mul_assoc,
          ← pow_add, Nat.add_sub_cancel' hcount]
      have habsorb : AdjoinRoot.mk (divisor taps) (ofRegister (absorb taps count register word)) =
          AdjoinRoot.mk (divisor taps)
            (X ^ count * ofRegister register + X ^ width * ofBits (lowBits count word)) := by
        rw [absorb, mk_ofRegister_iterate_shift, ofRegister_xor, mul_add, hword]
      have hlength : (words.flatMap (lowBits count)).length = count * words.length := by
        simp [List.length_flatMap, mul_comm]
      have hwords : ∀ other ∈ words, Below count other :=
        fun other hother => hbelow other (List.mem_cons_of_mem _ hother)
      have hbits : ofBits ((word :: words).flatMap (lowBits count)) =
          ofBits (lowBits count word) * X ^ (count * words.length) +
            ofBits (words.flatMap (lowBits count)) := by
        rw [List.flatMap_cons, ofBits_append, hlength]
      rw [List.foldl_cons, ih hwords, map_add, map_mul, habsorb, hbits, List.length_cons,
        Nat.mul_succ, pow_add]
      simp only [map_add, map_mul]
      ring

/-- A register congruent to a polynomial is its remainder. -/
theorem ofRegister_eq_mod {taps register : BitVec width} {polynomial : (ZMod 2)[X]}
    (hmk : AdjoinRoot.mk (divisor taps) (ofRegister register) =
      AdjoinRoot.mk (divisor taps) polynomial) :
    ofRegister register = polynomial % divisor taps := by
  have hsmall : (ofRegister register).degree < (divisor taps).degree := by
    rw [degree_divisor]
    exact degree_ofRegister_lt register
  calc
    ofRegister register = ofRegister register % divisor taps :=
      ((mod_eq_self_iff (monic_divisor taps).ne_zero).2 hsmall).symm
    _ = polynomial % divisor taps := mod_eq_of_dvd_sub (AdjoinRoot.mk_eq_mk.1 hmk)

end

end ArcravenUgv.BitPolynomial
