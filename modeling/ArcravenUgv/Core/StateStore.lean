import ArcravenUgv.Command.Types
import ArcravenUgv.Lib.LittleEndian
import ArcravenUgv.Lib.ShiftRegister

/-!
# The state file

`core/StateStore.cpp`: the CRC, the bytes of the state file as `save` writes
them on a little-endian machine, and `load`.
-/

namespace ArcravenUgv.StateStore

open Function
open ArcravenUgv.Enums
open ArcravenUgv.Command
open ArcravenUgv.LittleEndian

/-- One turn of the inner loop of `crc32_ieee`. -/
def crcBit (crc : UInt32) : UInt32 :=
  let mask : UInt32 := if crc &&& 1 ≠ 0 then 0xFFFFFFFF else 0
  (crc >>> 1) ^^^ (0xEDB88320 &&& mask)

/-- One turn of the outer loop. -/
def crcByte (crc : UInt32) (byte : UInt8) : UInt32 :=
  crcBit^[8] (crc ^^^ byte.toUInt32)

def crc32Ieee (data : Bytes) : UInt32 :=
  ~~~(data.foldl crcByte 0xFFFFFFFF)

structure PersistentStateV1 where
  schemaVersion : UInt32 := 1
  reserved : UInt32 := 0
  calibratedOk : UInt8 := 0
  lastAuthority : UInt8 := CommandAuthority.unknown.wire
  padding : UInt16 := 0
  deriving DecidableEq, Repr

/-- The bytes of a `uint32_t` object. -/
def word32 (word : UInt32) : Bytes := bytesOf 4 word.toNat

/-- The bytes of a `uint16_t` object. -/
def word16 (word : UInt16) : Bytes := bytesOf 2 word.toNat

/-- The twelve bytes of the struct, which has no padding. -/
def stateBytes (state : PersistentStateV1) : Bytes :=
  word32 state.schemaVersion ++ word32 state.reserved ++
    [state.calibratedOk, state.lastAuthority] ++ word16 state.padding

/-- `'ARCU'`. -/
def magic : UInt32 := 0x41524355

structure StateFileHeader where
  magic : UInt32
  version : UInt32
  payloadSize : UInt32
  payloadCrc32 : UInt32
  deriving DecidableEq, Repr

def headerBytes (hdr : StateFileHeader) : Bytes :=
  word32 hdr.magic ++ word32 hdr.version ++ word32 hdr.payloadSize ++ word32 hdr.payloadCrc32

/-- The header `save` writes over a payload with this CRC. -/
def headerFor (crc : UInt32) : StateFileHeader where
  magic := magic
  version := 1
  payloadSize := 12
  payloadCrc32 := crc

/-- What a fault-free `save` leaves in the file. -/
def fileImage (state : PersistentStateV1) : Bytes :=
  headerBytes (headerFor (crc32Ieee (stateBytes state))) ++ stateBytes state

/-- The `uint32_t` object in the first four bytes. -/
def readWord32 (bytes : Bytes) : UInt32 := UInt32.ofNat (numberOf (bytes.take 4))

/-- The `uint16_t` object in the first two bytes. -/
def readWord16 (bytes : Bytes) : UInt16 := UInt16.ofNat (numberOf (bytes.take 2))

def readHeader (bytes : Bytes) : StateFileHeader where
  magic := readWord32 bytes
  version := readWord32 (bytes.drop 4)
  payloadSize := readWord32 (bytes.drop 8)
  payloadCrc32 := readWord32 (bytes.drop 12)

def readState (bytes : Bytes) : PersistentStateV1 where
  schemaVersion := readWord32 bytes
  reserved := readWord32 (bytes.drop 4)
  calibratedOk := bytes.getD 8 0
  lastAuthority := bytes.getD 9 0
  padding := readWord16 (bytes.drop 10)

/-- `StateStore::load` on the content of the file, `none` for a file that does
not open.  The result is the value assigned to `out`, `none` where `load`
returns false. -/
def load : Option Bytes → Option PersistentStateV1
  | none => none
  | some file =>
      if file.length < 16 then none
      else
        let hdr := readHeader file
        if hdr.magic ≠ magic ∨ hdr.version ≠ 1 then none
        else if hdr.payloadSize ≠ 12 then none
        else if file.length < 28 then none
        else
          let payload := (file.drop 16).take 12
          if crc32Ieee payload ≠ hdr.payloadCrc32 then none
          else some (readState payload)

theorem length_stateBytes (state : PersistentStateV1) : (stateBytes state).length = 12 := rfl

theorem length_headerBytes (hdr : StateFileHeader) : (headerBytes hdr).length = 16 := rfl

theorem length_fileImage (state : PersistentStateV1) : (fileImage state).length = 28 := rfl

/-! ## Reading back what was written -/

theorem readWord32_word32 (word : UInt32) (rest : Bytes) :
    readWord32 (word32 word ++ rest) = word := by
  rw [readWord32, word32, numberOf_take_bytesOf word.toNat_lt, UInt32.ofNat_toNat]

theorem readWord16_word16 (word : UInt16) (rest : Bytes) :
    readWord16 (word16 word ++ rest) = word := by
  rw [readWord16, word16, numberOf_take_bytesOf word.toNat_lt, UInt16.ofNat_toNat]

theorem readState_stateBytes (state : PersistentStateV1) :
    readState (stateBytes state) = state := by
  have hschema : readWord32 (stateBytes state) = state.schemaVersion :=
    readWord32_word32 state.schemaVersion _
  have hreserved : readWord32 ((stateBytes state).drop 4) = state.reserved :=
    readWord32_word32 state.reserved _
  have hpadding : readWord16 ((stateBytes state).drop 10) = state.padding :=
    readWord16_word16 state.padding []
  simp only [readState, hschema, hreserved, hpadding]
  rfl

theorem readHeader_headerBytes (hdr : StateFileHeader) (rest : Bytes) :
    readHeader (headerBytes hdr ++ rest) = hdr := by
  have hmagic : readWord32 (headerBytes hdr ++ rest) = hdr.magic :=
    readWord32_word32 hdr.magic _
  have hversion : readWord32 ((headerBytes hdr ++ rest).drop 4) = hdr.version :=
    readWord32_word32 hdr.version _
  have hsize : readWord32 ((headerBytes hdr ++ rest).drop 8) = hdr.payloadSize :=
    readWord32_word32 hdr.payloadSize _
  have hcrc : readWord32 ((headerBytes hdr ++ rest).drop 12) = hdr.payloadCrc32 :=
    readWord32_word32 hdr.payloadCrc32 _
  simp only [readHeader, hmagic, hversion, hsize, hcrc]

/-- A file that holds a header written over `crc` and then the bytes of `state`
loads exactly when `crc` is the CRC of those bytes. -/
theorem load_header_state (crc : UInt32) (state : PersistentStateV1) :
    load (some (headerBytes (headerFor crc) ++ stateBytes state)) =
      if crc32Ieee (stateBytes state) = crc then some state else none := by
  have hlength : (headerBytes (headerFor crc) ++ stateBytes state).length = 28 := rfl
  have hpayload : ((headerBytes (headerFor crc) ++ stateBytes state).drop 16).take 12 =
      stateBytes state := by
    rw [List.drop_left' (length_headerBytes _)]
    exact List.take_of_length_le (length_stateBytes state).le
  unfold load
  simp only [hlength, hpayload, readHeader_headerBytes, readState_stateBytes]
  by_cases hcrc : crc32Ieee (stateBytes state) = crc
  · simp [headerFor, hcrc]
  · simp [headerFor, hcrc]

theorem load_fileImage (state : PersistentStateV1) :
    load (some (fileImage state)) = some state := by
  rw [fileImage, load_header_state, if_pos rfl]

/-! ## Writing back what was read -/

theorem word32_readWord32 {bytes : Bytes} (hlength : 4 ≤ bytes.length) :
    word32 (readWord32 bytes) = bytes.take 4 := by
  have hsmall : numberOf (bytes.take 4) < 2 ^ 32 := numberOf_take_lt 4 bytes
  rw [word32, readWord32, UInt32.toNat_ofNat', Nat.mod_eq_of_lt hsmall,
    bytesOf_numberOf_take hlength]

theorem word16_readWord16 {bytes : Bytes} (hlength : 2 ≤ bytes.length) :
    word16 (readWord16 bytes) = bytes.take 2 := by
  have hsmall : numberOf (bytes.take 2) < 2 ^ 16 := numberOf_take_lt 2 bytes
  rw [word16, readWord16, UInt16.toNat_ofNat', Nat.mod_eq_of_lt hsmall,
    bytesOf_numberOf_take hlength]

/-- Every twelve bytes are those of a state. -/
theorem stateBytes_readState {bytes : Bytes} (hlength : bytes.length = 12) :
    stateBytes (readState bytes) = bytes := by
  obtain ⟨b0, b1, b2, b3, b4, b5, b6, b7, b8, b9, b10, b11, rfl⟩ :
      ∃ b0 b1 b2 b3 b4 b5 b6 b7 b8 b9 b10 b11,
        bytes = [b0, b1, b2, b3, b4, b5, b6, b7, b8, b9, b10, b11] :=
    match bytes, hlength with
    | [b0, b1, b2, b3, b4, b5, b6, b7, b8, b9, b10, b11], _ =>
        ⟨b0, b1, b2, b3, b4, b5, b6, b7, b8, b9, b10, b11, rfl⟩
  simp only [stateBytes, readState]
  rw [word32_readWord32 (by simp), word32_readWord32 (by simp), word16_readWord16 (by simp)]
  rfl

theorem headerBytes_readHeader {bytes : Bytes} (hlength : 16 ≤ bytes.length) :
    headerBytes (readHeader bytes) = bytes.take 16 := by
  simp only [headerBytes, readHeader]
  rw [word32_readWord32 (by omega), word32_readWord32 (by rw [List.length_drop]; omega),
    word32_readWord32 (by rw [List.length_drop]; omega),
    word32_readWord32 (by rw [List.length_drop]; omega)]
  rw [← List.take_add, ← List.take_add, ← List.take_add]

/-! ## The files that load -/

private theorem readWord32_append {bytes : Bytes} (hlength : 4 ≤ bytes.length) (rest : Bytes) :
    readWord32 (bytes ++ rest) = readWord32 bytes := by
  rw [readWord32, List.take_append_of_le_length hlength, readWord32]

theorem readHeader_append {bytes : Bytes} (hlength : 16 ≤ bytes.length) (rest : Bytes) :
    readHeader (bytes ++ rest) = readHeader bytes := by
  have hword : ∀ start, start + 4 ≤ 16 →
      readWord32 ((bytes ++ rest).drop start) = readWord32 (bytes.drop start) := by
    intro start hstart
    rw [List.drop_append_of_le_length (by omega)]
    apply readWord32_append
    rw [List.length_drop]
    omega
  have hfirst := hword 0 (by omega)
  rw [List.drop_zero, List.drop_zero] at hfirst
  simp only [readHeader, hfirst, hword 4 (by omega), hword 8 (by omega), hword 12 (by omega)]

/-- Behind header and payload nothing is read. -/
theorem load_append {file : Bytes} (hlength : 28 ≤ file.length) (rest : Bytes) :
    load (some (file ++ rest)) = load (some file) := by
  have hpayload : ((file ++ rest).drop 16).take 12 = (file.drop 16).take 12 := by
    rw [List.drop_append_of_le_length (by omega), List.take_append_of_le_length]
    rw [List.length_drop]
    omega
  have hlong : ∀ count ≤ 28, ¬ (file ++ rest).length < count ∧ ¬ file.length < count := by
    intro count hcount
    rw [List.length_append]
    omega
  simp only [load, readHeader_append (by omega : 16 ≤ file.length), hpayload,
    hlong 16 (by omega), hlong 28 (by omega)]

/-- The file loads as this state exactly when it begins with what `save` writes. -/
theorem load_eq_some_iff {file : Bytes} {state : PersistentStateV1} :
    load (some file) = some state ↔ file.take 28 = fileImage state := by
  constructor
  · intro hload
    simp only [load] at hload
    split_ifs at hload with hheader hversion hsize hpayload hcrc
    obtain rfl := Option.some.inj hload
    obtain ⟨hmagic, hversion⟩ := not_or.1 hversion
    have hlength : ((file.drop 16).take 12).length = 12 := by
      rw [List.length_take, List.length_drop]
      omega
    have hhdr : readHeader file = headerFor (crc32Ieee ((file.drop 16).take 12)) := by
      rw [headerFor, not_not.1 hcrc, ← not_not.1 hmagic, ← not_not.1 hversion,
        ← not_not.1 hsize]
    calc
      file.take 28 = file.take 16 ++ (file.drop 16).take 12 := by
        rw [show 28 = 16 + 12 from rfl, List.take_add]
      _ = headerBytes (readHeader file) ++ stateBytes (readState ((file.drop 16).take 12)) := by
        rw [headerBytes_readHeader (by omega), stateBytes_readState hlength]
      _ = fileImage (readState ((file.drop 16).take 12)) := by
        rw [hhdr, fileImage, stateBytes_readState hlength]
  · intro htake
    have hlength : (fileImage state).length = 28 := length_fileImage state
    calc
      load (some file) = load (some (fileImage state ++ file.drop 28)) := by
        rw [← htake, List.take_append_drop]
      _ = load (some (fileImage state)) := load_append hlength.ge _
      _ = some state := load_fileImage state

/-! ## The CRC as a shift register -/

/-- The reflected polynomial, as tap pattern. -/
def taps : BitVec 32 := 0xEDB88320#32

theorem crcBit_toBitVec (crc : UInt32) :
    (crcBit crc).toBitVec = ShiftRegister.shift taps crc.toBitVec := by
  have hlow : crc &&& 1 ≠ 0 ↔ crc.toBitVec.getLsbD 0 = true := by
    rw [ne_eq, ← UInt32.toBitVec_inj, UInt32.toBitVec_and]
    change ¬ crc.toBitVec &&& 1#32 = 0#32 ↔ _
    rw [BitVec.and_one_eq_setWidth_ofBool_getLsbD]
    cases crc.toBitVec.getLsbD 0 <;> decide
  by_cases hbit : crc.toBitVec.getLsbD 0 = true
  · rw [crcBit, if_pos (hlow.2 hbit), ShiftRegister.shift, hbit]
    rfl
  · rw [crcBit, if_neg (mt hlow.1 hbit), ShiftRegister.shift, if_neg hbit]
    rfl

theorem crcByte_toBitVec (crc : UInt32) (byte : UInt8) :
    (crcByte crc byte).toBitVec =
      ShiftRegister.absorb taps 8 crc.toBitVec byte.toUInt32.toBitVec := by
  have hiterate (count : ℕ) (word : UInt32) :
      (crcBit^[count] word).toBitVec = (ShiftRegister.shift taps)^[count] word.toBitVec := by
    induction count generalizing word with
    | zero => rfl
    | succ count ih => rw [iterate_succ_apply, iterate_succ_apply, ih, crcBit_toBitVec]
  rw [crcByte, hiterate, UInt32.toBitVec_xor, ShiftRegister.absorb]

theorem crcByte_injective_crc (byte : UInt8) : Injective fun crc => crcByte crc byte := by
  intro left right heq
  have hbits := congrArg UInt32.toBitVec heq
  simp only [crcByte_toBitVec] at hbits
  exact UInt32.toBitVec_inj.1
    (ShiftRegister.absorb_injective_register (by decide) 8 _ hbits)

theorem crcByte_injective_byte (crc : UInt32) : Injective (crcByte crc) := by
  intro left right heq
  have hbits := congrArg UInt32.toBitVec heq
  simp only [crcByte_toBitVec] at hbits
  have hword := UInt32.toBitVec_inj.1
    (ShiftRegister.absorb_injective_input (by decide) 8 _ hbits)
  have hnat := congrArg UInt32.toNat hword
  rw [UInt8.toNat_toUInt32, UInt8.toNat_toUInt32] at hnat
  exact UInt8.toNat_inj.1 hnat

/-- Changing one byte changes the CRC. -/
theorem crc32Ieee_ne_of_one_byte (before after : Bytes) {left right : UInt8}
    (hne : left ≠ right) :
    crc32Ieee (before ++ left :: after) ≠ crc32Ieee (before ++ right :: after) := by
  intro heq
  apply ShiftRegister.foldl_ne_of_one_input crcByte_injective_crc crcByte_injective_byte
    0xFFFFFFFF before after hne
  simpa [crc32Ieee] using heq

end ArcravenUgv.StateStore
