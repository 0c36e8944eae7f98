import ArcravenUgv.Lib.BitPolynomial
import ArcravenUgv.Core.StateFile

/-!
# What the CRC detects

`crc32_ieee` leaves the remainder of a division of polynomials, and tells apart
any two payloads that differ in at most four bytes next to each other.
-/

namespace ArcravenUgv.Crc

open ArcravenUgv.BitPolynomial
open ArcravenUgv.Command
open ArcravenUgv.ShiftRegister
open ArcravenUgv.StateFile
open ArcravenUgv.StateStore
open Polynomial

/-! ## The bytes as words of the register -/

def wordOf (byte : UInt8) : BitVec 32 := byte.toUInt32.toBitVec

theorem wordOf_eq (byte : UInt8) : wordOf byte = byte.toBitVec.setWidth 32 :=
  UInt8.toBitVec_toUInt32 byte

theorem below_wordOf (byte : UInt8) : Below 8 (wordOf byte) := by
  intro index hindex
  rw [wordOf_eq, BitVec.getLsbD_setWidth, BitVec.getLsbD_of_ge _ _ hindex, Bool.and_false]

theorem lowBits_wordOf (byte : UInt8) :
    lowBits 8 (wordOf byte) = lowBits 8 byte.toBitVec := by
  apply List.map_congr_left
  intro index hindex
  have hsmall : index < 32 := by
    have height := List.mem_range.1 hindex
    omega
  rw [wordOf_eq, BitVec.getLsbD_setWidth, decide_eq_true hsmall, Bool.true_and]

theorem wordOf_injective : Function.Injective wordOf := by
  intro left right heq
  have hnat := congrArg UInt32.toNat (UInt32.toBitVec_inj.1 heq)
  rw [UInt8.toNat_toUInt32, UInt8.toNat_toUInt32] at hnat
  exact UInt8.toNat_inj.1 hnat

theorem toBitVec_foldl_crcByte (data : Bytes) (crc : UInt32) :
    (data.foldl crcByte crc).toBitVec =
      (data.map wordOf).foldl (absorb taps 8) crc.toBitVec := by
  induction data generalizing crc with
  | nil => rfl
  | cons byte data ih => rw [List.foldl_cons, ih, crcByte_toBitVec, List.map_cons,
      List.foldl_cons, wordOf]

/-! ## Damage in four adjacent bytes -/

/-- The same bytes but for at most four, from `start` on. -/
def SameOutside (start : ℕ) (left right : Bytes) : Prop :=
  left.length = right.length ∧
    ∀ index, index < start ∨ start + 4 ≤ index → left[index]? = right[index]?

theorem split_sameOutside {start : ℕ} {left right : Bytes}
    (hsame : SameOutside start left right) :
    ∃ before window other after, left = before ++ window ++ after ∧
      right = before ++ other ++ after ∧ window.length = other.length ∧ window.length ≤ 4 := by
  obtain ⟨hlength, hbytes⟩ := hsame
  have hbefore : left.take start = right.take start := by
    apply List.ext_getElem?
    intro index
    by_cases hindex : index < start
    · simp [hindex, hbytes index (Or.inl hindex)]
    · simp [hindex]
  have hafter : left.drop (start + 4) = right.drop (start + 4) := by
    apply List.ext_getElem?
    intro index
    rw [List.getElem?_drop, List.getElem?_drop, hbytes _ (Or.inr (by omega))]
  have hsplit : ∀ bytes : Bytes, bytes =
      bytes.take start ++ (bytes.drop start).take 4 ++ bytes.drop (start + 4) := by
    intro bytes
    rw [← List.take_add, List.take_append_drop]
  use left.take start, (left.drop start).take 4, (right.drop start).take 4,
    left.drop (start + 4)
  constructor
  · exact hsplit left
  constructor
  · rw [hbefore, hafter]
    exact hsplit right
  · simp [hlength]

theorem crc32Ieee_window {before window other after : Bytes}
    (hlength : window.length = other.length) (hfour : window.length ≤ 4)
    (hcrc : crc32Ieee (before ++ window ++ after) = crc32Ieee (before ++ other ++ after)) :
    window = other := by
  have hregister : window.foldl crcByte (before.foldl crcByte 0xFFFFFFFF) =
      other.foldl crcByte (before.foldl crcByte 0xFFFFFFFF) := by
    apply foldl_injective crcByte_injective_crc after
    simpa [crc32Ieee] using hcrc
  have hwords : ∀ data : Bytes, ∀ word ∈ data.map wordOf, Below 8 word := by
    intro data word hword
    obtain ⟨byte, _, rfl⟩ := List.mem_map.1 hword
    exact below_wordOf byte
  have hfold := congrArg UInt32.toBitVec hregister
  rw [toBitVec_foldl_crcByte window, toBitVec_foldl_crcByte other] at hfold
  apply List.map_injective_iff.2 wordOf_injective
  have htop : taps.msb = true := by decide
  apply foldl_absorb_injective htop (by simpa using hlength) _ (hwords window)
    (hwords other) hfold
  rw [List.length_map]
  omega

theorem crc32Ieee_ne_of_sameOutside {start : ℕ} {left right : Bytes}
    (hsame : SameOutside start left right) (hne : left ≠ right) :
    crc32Ieee left ≠ crc32Ieee right := by
  obtain ⟨before, window, other, after, rfl, rfl, hlength, hfour⟩ := split_sameOutside hsame
  intro hcrc
  rw [crc32Ieee_window hlength hfour hcrc] at hne
  exact hne rfl

/-- Damage inside four adjacent bytes changes the CRC, so `load` refuses a saved
file whose payload was damaged so, or whose stored CRC was changed. -/
theorem crc_detects_damage :
    (∀ (left right : Bytes) (start : ℕ), SameOutside start left right → left ≠ right →
      crc32Ieee left ≠ crc32Ieee right) ∧
    (∀ (state out : PersistentStateV1) (payload : Bytes) (start : ℕ),
      SameOutside start payload (stateBytes state) → payload ≠ stateBytes state →
      loadInto (some (headerBytes (headerFor (crc32Ieee (stateBytes state))) ++ payload)) out =
        (false, out)) ∧
    ∀ (state out : PersistentStateV1) (crc : UInt32), crc ≠ crc32Ieee (stateBytes state) →
      loadInto (some (headerBytes (headerFor crc) ++ stateBytes state)) out = (false, out) := by
  refine ⟨fun left right start hsame hne => ?_,
    fun state out payload start hsame hne => ?_, fun state out crc hcrc => ?_⟩
  · exact crc32Ieee_ne_of_sameOutside hsame hne
  · have hcrc : crc32Ieee payload ≠ crc32Ieee (stateBytes state) :=
      crc32Ieee_ne_of_sameOutside hsame hne
    have hpayload : stateBytes (readState payload) = payload :=
      stateBytes_readState (hsame.1.trans (length_stateBytes state))
    rw [← hpayload] at hcrc ⊢
    rw [loadInto, load_header_state, if_neg hcrc]
  · rw [loadInto, load_header_state, if_neg hcrc.symm]

/-- The last byte of the schema version and a stored CRC of zero. -/
theorem crc_detects_damage_of_fresh_state :
    crc32Ieee ((stateBytes {}).set 3 255) ≠ crc32Ieee (stateBytes {}) ∧
      loadInto (some (headerBytes (headerFor (crc32Ieee (stateBytes {}))) ++
        (stateBytes {}).set 3 255)) {} = (false, {}) ∧
      loadInto (some (headerBytes (headerFor 0) ++ stateBytes {})) {} = (false, {}) := by
  have hsame : SameOutside 3 ((stateBytes {}).set 3 255) (stateBytes {}) := by
    constructor
    · exact List.length_set
    · intro index hindex
      apply List.getElem?_set_ne
      omega
  constructor
  · exact crc_detects_damage.1 _ _ 3 hsame (by decide)
  constructor
  · exact crc_detects_damage.2.1 {} {} _ 3 hsame (by decide)
  · exact crc_detects_damage.2.2 {} {} 0 (by decide +kernel)

/-! ## The CRC as a remainder -/

/-- Each byte least-significant bit first. -/
def messageBits (data : Bytes) : List Bool := data.flatMap fun byte => lowBits 8 byte.toBitVec

/-- Extended by 32 zeros, and the first 32 bits complemented. -/
def dividend (data : Bytes) : List Bool :=
  let extended := messageBits data ++ List.replicate 32 false
  (extended.take 32).map Bool.not ++ extended.drop 32

noncomputable def generator : (ZMod 2)[X] :=
  X ^ 32 + X ^ 26 + X ^ 23 + X ^ 22 + X ^ 16 + X ^ 12 + X ^ 11 + X ^ 10 + X ^ 8 + X ^ 7 + X ^ 5 +
    X ^ 4 + X ^ 2 + X + 1

/-- The CRC-32 of IEEE 802.3. -/
noncomputable def polynomialCrc (data : Bytes) : UInt32 :=
  UInt32.ofBitVec (~~~ toRegister 32 (ofBits (dividend data) % generator))

theorem divisor_taps : divisor taps = generator := by
  have hbits : lowBits 32 taps =
      [false, false, false, false, false, true, false, false, true, true, false, false, false,
        false, false, true, false, false, false, true, true, true, false, true, true, false, true,
        true, false, true, true, true] := by decide
  simp only [divisor, ofRegister, hbits, ofBits, ofBit, List.length_cons, List.length_nil]
  simp [generator]
  ring

theorem length_messageBits (data : Bytes) : (messageBits data).length = 8 * data.length := by
  simp [messageBits, List.length_flatMap, mul_comm]

/-- Complementing the front adds the all-ones register above the message. -/
theorem ofBits_dividend (data : Bytes) :
    ofBits (dividend data) =
      X ^ (8 * data.length) * ofRegister (BitVec.allOnes 32) +
        X ^ 32 * ofBits (messageBits data) := by
  let extended := messageBits data ++ List.replicate 32 false
  have hlength : extended.length = 8 * data.length + 32 := by
    simp [extended, length_messageBits]
  have hfront : (extended.take 32).length = 32 := by
    rw [List.length_take, hlength]
    omega
  have hback : (extended.drop 32).length = 8 * data.length := by
    rw [List.length_drop, hlength]
    omega
  have hones : ofRegister (BitVec.allOnes 32) = ofBits (List.replicate 32 true) := by
    rw [ofRegister]
    congr 1
  have hextended : ofBits extended = ofBits (messageBits data) * X ^ 32 := by
    rw [ofBits_append, ofBits_replicate_false, List.length_replicate, add_zero]
  have hsplit : ofBits extended =
      ofBits (extended.take 32) * X ^ (8 * data.length) + ofBits (extended.drop 32) := by
    rw [← hback, ← ofBits_append, List.take_append_drop]
  calc
    ofBits (dividend data) =
        (ofBits (extended.take 32) + ofBits (List.replicate 32 true)) * X ^ (8 * data.length) +
          ofBits (extended.drop 32) := by
      rw [dividend, ofBits_append, ofBits_map_not, hfront, hback]
    _ = ofBits (List.replicate 32 true) * X ^ (8 * data.length) + ofBits extended := by
      rw [hsplit]
      ring
    _ = X ^ (8 * data.length) * ofRegister (BitVec.allOnes 32) +
        X ^ 32 * ofBits (messageBits data) := by
      rw [hextended, hones, mul_comm, mul_comm (ofBits (messageBits data))]

theorem ofRegister_foldl_crcByte (data : Bytes) :
    ofRegister (data.foldl crcByte 0xFFFFFFFF).toBitVec =
      ofBits (dividend data) % generator := by
  have hbelow : ∀ word ∈ data.map wordOf, Below 8 word := by
    intro word hword
    obtain ⟨byte, _, rfl⟩ := List.mem_map.1 hword
    exact below_wordOf byte
  have hbits : (data.map wordOf).flatMap (lowBits 8) = messageBits data := by
    simp only [List.flatMap_map, messageBits, lowBits_wordOf]
  rw [← divisor_taps]
  apply ofRegister_eq_mod
  rw [toBitVec_foldl_crcByte, mk_ofRegister_foldl taps (by decide) hbelow, hbits,
    List.length_map, ofBits_dividend]
  rfl

/-- The bitwise loop computes the CRC of the standard. -/
theorem crc32Ieee_eq_polynomialCrc (data : Bytes) : crc32Ieee data = polynomialCrc data := by
  rw [polynomialCrc, ← ofRegister_foldl_crcByte, toRegister_ofRegister]
  rfl

end ArcravenUgv.Crc
