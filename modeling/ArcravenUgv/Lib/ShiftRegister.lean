import Mathlib.Data.BitVec
import Mathlib.Tactic

/-!
# Reflected shift registers

A register that shifts towards its low end and, whenever a one falls out, adds
a fixed tap pattern.  When the pattern has its top bit set the step loses no
information, so two different registers stay different whatever is fed in
afterwards.
-/

namespace ArcravenUgv.ShiftRegister

open Function

section Fold

variable {State Input : Type*}

/-- A machine whose every input acts injectively keeps different states
different. -/
theorem foldl_injective {step : State → Input → State}
    (hstep : ∀ input, Injective fun state => step state input) (inputs : List Input) :
    Injective fun state => inputs.foldl step state := by
  induction inputs with
  | nil => exact fun _ _ heq => heq
  | cons input inputs ih => exact fun left right heq => hstep input (ih heq)

/-- If moreover the inputs of one position act differently on every state,
changing exactly one input changes the final state. -/
theorem foldl_ne_of_one_input {step : State → Input → State}
    (hstate : ∀ input, Injective fun state => step state input)
    (hinput : ∀ state, Injective (step state)) (start : State) (before after : List Input)
    {left right : Input} (hne : left ≠ right) :
    (before ++ left :: after).foldl step start ≠
      (before ++ right :: after).foldl step start := by
  simp only [List.foldl_append, List.foldl_cons]
  exact fun heq => hne (hinput _ (foldl_injective hstate after heq))

end Fold

variable {width : ℕ}

/-- One shift towards the low end. -/
def shift (taps register : BitVec width) : BitVec width :=
  (register >>> 1) ^^^ (if register.getLsbD 0 then taps else 0)

theorem msb_shift {taps : BitVec width} (htaps : taps.msb = true)
    (register : BitVec width) : (shift taps register).msb = register.getLsbD 0 := by
  have hwidth : 0 < width := by
    rcases Nat.eq_zero_or_pos width with rfl | hpos
    · rw [BitVec.eq_nil taps] at htaps
      cases htaps
    · exact hpos
  have hshifted : (register >>> 1).msb = false := by
    rw [BitVec.msb_eq_getLsbD_last, BitVec.getLsbD_ushiftRight]
    exact BitVec.getLsbD_of_ge _ _ (by omega)
  cases hlow : register.getLsbD 0 <;> simp [shift, hlow, hshifted, htaps]

/-- No information is lost: the bit that falls out is the new top bit. -/
theorem shift_injective {taps : BitVec width} (htaps : taps.msb = true) :
    Injective (shift taps) := by
  intro left right heq
  have hlow : left.getLsbD 0 = right.getLsbD 0 := by
    rw [← msb_shift htaps, ← msb_shift htaps, heq]
  have hrest : left >>> 1 = right >>> 1 := by
    simp only [shift, hlow] at heq
    exact BitVec.xor_left_inj _ |>.1 heq
  apply BitVec.eq_of_getLsbD_eq
  intro index _
  cases index with
  | zero => exact hlow
  | succ index =>
      have hbit := congrArg (fun register => register.getLsbD index) hrest
      simpa [BitVec.getLsbD_ushiftRight, Nat.add_comm] using hbit

/-- Feed one word into the low end and shift it through. -/
def absorb (taps : BitVec width) (count : ℕ) (register input : BitVec width) :
    BitVec width :=
  (shift taps)^[count] (register ^^^ input)

theorem absorb_injective_register {taps : BitVec width} (htaps : taps.msb = true)
    (count : ℕ) (input : BitVec width) :
    Injective fun register => absorb taps count register input := by
  intro left right heq
  have hxor := (shift_injective htaps).iterate count heq
  exact (BitVec.xor_left_inj _).1 hxor

theorem absorb_injective_input {taps : BitVec width} (htaps : taps.msb = true)
    (count : ℕ) (register : BitVec width) :
    Injective fun input => absorb taps count register input := by
  intro left right heq
  have hxor := (shift_injective htaps).iterate count heq
  exact (BitVec.xor_right_inj _).1 hxor

/-! ## Several words in a row -/

theorem shift_xor (taps left right : BitVec width) :
    shift taps (left ^^^ right) = shift taps left ^^^ shift taps right := by
  apply BitVec.eq_of_getLsbD_eq
  intro index _
  simp only [shift, BitVec.getLsbD_xor, BitVec.getLsbD_ushiftRight]
  generalize left.getLsbD (1 + index) = high
  generalize right.getLsbD (1 + index) = other
  cases left.getLsbD 0 <;> cases right.getLsbD 0 <;> cases high <;> cases other <;> simp

theorem iterate_shift_xor (taps : BitVec width) (count : ℕ) (left right : BitVec width) :
    (shift taps)^[count] (left ^^^ right) =
      (shift taps)^[count] left ^^^ (shift taps)^[count] right := by
  induction count generalizing left right with
  | zero => rfl
  | succ count ih => rw [iterate_succ_apply, shift_xor, ih, ← iterate_succ_apply,
      ← iterate_succ_apply]

/-- Only the lowest bits of the word may be set. -/
def Below (count : ℕ) (word : BitVec width) : Prop :=
  ∀ index, count ≤ index → word.getLsbD index = false

/-- Bits that stand high enough come down as they are. -/
theorem iterate_shift_shiftLeft (taps : BitVec width) {count bound : ℕ}
    (hfits : bound + count ≤ width) {word : BitVec width} (hbelow : Below bound word) :
    (shift taps)^[count] (word <<< count) = word := by
  induction count with
  | zero => exact BitVec.shiftLeft_zero word
  | succ count ih =>
      have hstep : shift taps (word <<< (count + 1)) = word <<< count := by
        apply BitVec.eq_of_getLsbD_eq
        intro index hindex
        have hlow : (word <<< (count + 1)).getLsbD 0 = false := by
          simp [BitVec.getLsbD_shiftLeft]
        have hindexes : 1 + index - (count + 1) = index - count := by omega
        simp only [shift, hlow, BitVec.getLsbD_xor, BitVec.getLsbD_ushiftRight,
          BitVec.getLsbD_shiftLeft, hindexes]
        by_cases htop : index + 1 < width
        · simp [htop, hindex, Nat.add_comm 1 index]
        · simp [htop, Nat.add_comm 1 index, hbelow (index - count) (by omega)]
      rw [iterate_succ_apply, hstep, ih (by omega)]

/-- Words of so many bits side by side, the first one lowest. -/
def pack (count : ℕ) : List (BitVec width) → BitVec width
  | [] => 0
  | word :: words => word ^^^ (pack count words <<< count)

theorem below_pack {count : ℕ} {words : List (BitVec width)}
    (hbelow : ∀ word ∈ words, Below count word) :
    Below (count * words.length) (pack count words) := by
  induction words with
  | nil => exact fun index _ => BitVec.getLsbD_zero
  | cons word words ih =>
      intro index hindex
      rw [List.length_cons, Nat.mul_succ] at hindex
      have hword : word.getLsbD index = false :=
        hbelow word (List.mem_cons_self ..) index (by omega)
      have hrest : (pack count words).getLsbD (index - count) = false :=
        ih (fun other hother => hbelow other (List.mem_cons_of_mem _ hother)) _ (by omega)
      rw [pack, BitVec.getLsbD_xor, BitVec.getLsbD_shiftLeft, hword, hrest]
      simp

/-- Feeding words one after the other is feeding them packed. -/
theorem foldl_absorb {taps : BitVec width} {count : ℕ} {words : List (BitVec width)}
    (hbelow : ∀ word ∈ words, Below count word) (hfits : count * words.length ≤ width)
    (register : BitVec width) :
    words.foldl (absorb taps count) register =
      (shift taps)^[count * words.length] (register ^^^ pack count words) := by
  induction words generalizing register with
  | nil => simp [pack]
  | cons word words ih =>
      rw [List.length_cons, Nat.mul_succ] at hfits
      have hwords : ∀ other ∈ words, Below count other :=
        fun other hother => hbelow other (List.mem_cons_of_mem _ hother)
      have hlift : pack count words = (shift taps)^[count] (pack count words <<< count) :=
        (iterate_shift_shiftLeft taps hfits (below_pack hwords)).symm
      calc
        (word :: words).foldl (absorb taps count) register =
            (shift taps)^[count * words.length]
              (absorb taps count register word ^^^ pack count words) :=
          ih hwords (by omega) _
        _ = (shift taps)^[count * words.length]
              (absorb taps count register word ^^^
                (shift taps)^[count] (pack count words <<< count)) := by
          rw [← hlift]
        _ = (shift taps)^[count * words.length]
              ((shift taps)^[count] (register ^^^ word ^^^ (pack count words <<< count))) := by
          rw [absorb, ← iterate_shift_xor taps count (register ^^^ word)]
        _ = (shift taps)^[count * (word :: words).length]
              (register ^^^ pack count (word :: words)) := by
          rw [← iterate_add_apply, List.length_cons, Nat.mul_succ, pack, BitVec.xor_assoc]

theorem pack_injective {count : ℕ} {left right : List (BitVec width)}
    (hlength : left.length = right.length) (hfits : count * left.length ≤ width)
    (hleft : ∀ word ∈ left, Below count word) (hright : ∀ word ∈ right, Below count word)
    (hpack : pack count left = pack count right) : left = right := by
  induction left generalizing right with
  | nil => exact (List.eq_nil_of_length_eq_zero hlength.symm).symm
  | cons word left ih =>
      obtain ⟨other, right, rfl⟩ := List.exists_cons_of_length_eq_add_one hlength.symm
      rw [List.length_cons, Nat.mul_succ] at hfits
      have hbits : ∀ index, (word.getLsbD index ^^ ((pack count left) <<< count).getLsbD index) =
          (other.getLsbD index ^^ ((pack count right) <<< count).getLsbD index) := by
        intro index
        rw [← BitVec.getLsbD_xor, ← BitVec.getLsbD_xor, ← pack, ← pack, hpack]
      have hword : word = other := by
        apply BitVec.eq_of_getLsbD_eq
        intro index _
        by_cases hlow : index < count
        · simpa [BitVec.getLsbD_shiftLeft, hlow] using hbits index
        · rw [hleft word (by simp) index (by omega), hright other (by simp) index (by omega)]
      have hrest : pack count left = pack count right := by
        apply BitVec.eq_of_getLsbD_eq
        intro index hindex
        by_cases hhigh : index + count < width
        · have hbit := hbits (index + count)
          rw [hword] at hbit
          simpa [BitVec.getLsbD_shiftLeft, hhigh, hindex] using hbit
        · have hlen : left.length = right.length := by simpa using hlength
          rw [below_pack (fun next hnext => hleft next (List.mem_cons_of_mem _ hnext)) index
              (by omega),
            below_pack (fun next hnext => hright next (List.mem_cons_of_mem _ hnext)) index
              (by rw [← hlen]; omega)]
      rw [hword, ih (by simpa using hlength) (by omega)
        (fun next hnext => hleft next (List.mem_cons_of_mem _ hnext))
        (fun next hnext => hright next (List.mem_cons_of_mem _ hnext)) hrest]

/-- Words that together fit into the register are told apart. -/
theorem foldl_absorb_injective {taps : BitVec width} (htaps : taps.msb = true) {count : ℕ}
    {left right : List (BitVec width)} (hlength : left.length = right.length)
    (hfits : count * left.length ≤ width) (hleft : ∀ word ∈ left, Below count word)
    (hright : ∀ word ∈ right, Below count word) {register : BitVec width}
    (hfold : left.foldl (absorb taps count) register =
      right.foldl (absorb taps count) register) : left = right := by
  rw [foldl_absorb hleft hfits, foldl_absorb hright (hlength ▸ hfits), ← hlength] at hfold
  apply pack_injective hlength hfits hleft hright
  exact (BitVec.xor_right_inj register).1 ((shift_injective htaps).iterate _ hfold)

end ArcravenUgv.ShiftRegister
