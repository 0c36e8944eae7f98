import ArcravenUgv.Lib.Delimited
import ArcravenUgv.Utils.Base64

/-!
# Command lines

The body of the `pump_rx` loop in `subsystems/Iceoryx2Bridge.cpp`: what one
line of `commands.in` makes it hand to `CommandRouter::submit`.  `std::stoul`
and `std::stoull` convert to 64-bit words here (`unsigned long` has 64 bits on
the Linux targets the core is written for).
-/

namespace ArcravenUgv.CommandLine

open ArcravenUgv.Command
open ArcravenUgv.Decimal
open ArcravenUgv.Delimited
open ArcravenUgv.Base64

/-- `isspace` in the "C" locale. -/
def isSpace (byte : UInt8) : Bool :=
  byte = 32 || (9 ≤ byte && byte ≤ 13)

/-- `std::stoull(text)`: leading white space and one sign are taken, the number
ends at the first byte that is no digit, and a minus sign negates modulo
`2 ^ 64`.  `none` stands for the exceptions `invalid_argument` and
`out_of_range`. -/
def stoull (text : Bytes) : Option UInt64 :=
  let unspaced := text.dropWhile isSpace
  let (negative, unsigned) : Bool × Bytes :=
    match unspaced with
    | 43 :: rest => (false, rest)
    | 45 :: rest => (true, rest)
    | _ => (false, unspaced)
  let digits := unsigned.takeWhile isDigit
  if digits = [] then none
  else if 2 ^ 64 ≤ digitsValue digits then none
  else
    let magnitude := UInt64.ofNat (digitsValue digits)
    some (if negative then 0 - magnitude else magnitude)

/-- `std::stoul` where `unsigned long` has 64 bits. -/
def stoul (text : Bytes) : Option UInt64 := stoull text

/-- `'|'`. -/
def bar : UInt8 := 124

/-- `'\n'`. -/
def newline : UInt8 := 10

/-- The conversions in the `try` block, in their order. -/
def parseNumbers (parts : List Bytes) : Option CommandEnvelope := do
  let commandId ← stoull (parts.getD 1 [])
  let command ← stoul (parts.getD 2 [])
  let domain ← stoul (parts.getD 3 [])
  let priority ← stoul (parts.getD 4 [])
  let authority ← stoul (parts.getD 5 [])
  let issuedNs ← stoull (parts.getD 6 [])
  let ttlNs ← stoull (parts.getD 7 [])
  some {
    command := command.toUInt16
    domain := domain.toUInt8
    priority := priority.toUInt8
    authority := authority.toUInt8
    commandId := commandId
    issuedNs := issuedNs
    ttlNs := ttlNs
    payloadJson := [] }

/-- What the loop body does with a line: the ways it gives up, or the envelope
it submits together with the `ok` of the payload decoder. -/
inductive Reading
  | skipped
  | malformed
  | parseFailed
  | submits (env : CommandEnvelope) (payloadOk : Bool)
  deriving DecidableEq, Repr

/-- A final `'\r'` is dropped. -/
def dropCarriageReturn (line : Bytes) : Bytes :=
  if line.getLast? = some 13 then line.dropLast else line

/-- The loop body of `pump_rx`.  A payload that does not decode is reported to
the log only: the envelope is submitted with what the decoder returned. -/
def readLine (line : Bytes) : Reading :=
  if line = [] then .skipped
  else
    let text := dropCarriageReturn line
    if (ascii "C|").isPrefixOf text = false then .skipped
    else
      let parts := segments bar text
      if parts.length < 9 then .malformed
      else
        match parseNumbers parts with
        | none => .parseFailed
        | some env =>
            let (payload, ok) := base64Decode (parts.getD 8 [])
            .submits { env with payloadJson := payload } ok

/-- The envelope handed to `submit`, if any. -/
def Reading.envelope : Reading → Option CommandEnvelope
  | .submits env _ => some env
  | _ => none

def lineEnvelope (line : Bytes) : Option CommandEnvelope :=
  (readLine line).envelope

/-! ## Numbers written in decimal -/

private theorem not_isSpace_of_isDigit {byte : UInt8} (hdigit : isDigit byte = true) :
    isSpace byte = false ∧ byte ≠ 43 ∧ byte ≠ 45 := by
  have hall : ∀ value : Fin 256, isDigit (UInt8.ofNat value) = true →
      isSpace (UInt8.ofNat value) = false ∧
        UInt8.ofNat value ≠ 43 ∧ UInt8.ofNat value ≠ 45 := by
    decide +kernel
  simpa using hall ⟨byte.toNat, byte.toNat_lt⟩ (by simpa using hdigit)

/-- A nonempty string of digits whose value fits is read as that value. -/
theorem stoull_digits {digits : Bytes} (hnonempty : digits ≠ [])
    (hdigits : ∀ byte ∈ digits, isDigit byte = true)
    (hfits : digitsValue digits < 2 ^ 64) :
    stoull digits = some (UInt64.ofNat (digitsValue digits)) := by
  obtain ⟨head, rest, rfl⟩ := List.exists_cons_of_ne_nil hnonempty
  obtain ⟨hspace, hplus, hminus⟩ := not_isSpace_of_isDigit (hdigits head (by simp))
  have htake : (head :: rest).takeWhile isDigit = head :: rest :=
    List.takeWhile_eq_self_iff.2 hdigits
  simp only [stoull, List.dropWhile_cons, hspace, Bool.false_eq_true, if_false]
  rw [show (match head :: rest with
      | 43 :: rest => (false, rest)
      | 45 :: rest => (true, rest)
      | _ => (false, head :: rest)) = (false, head :: rest) by
    split <;> simp_all]
  simp only [htake, if_neg (List.cons_ne_nil head rest), if_neg (not_le.2 hfits),
    Bool.false_eq_true, if_false]

/-- A text of digits with this value. -/
def Numeral (text : Bytes) (value : ℕ) : Prop :=
  text ≠ [] ∧ (∀ byte ∈ text, isDigit byte = true) ∧ digitsValue text = value

theorem numeral_decimal (number : ℕ) : Numeral (decimal number) number :=
  ⟨decimal_ne_nil number, fun _ => isDigit_of_mem_decimal, digitsValue_decimal number⟩

theorem Numeral.stoull_eq {text : Bytes} {value : ℕ} (hnumeral : Numeral text value)
    (hfits : value < 2 ^ 64) : stoull text = some (UInt64.ofNat value) := by
  obtain ⟨hnonempty, hdigits, rfl⟩ := hnumeral
  exact stoull_digits hnonempty hdigits hfits

/-! ## Well-formed command lines -/

/-- The fields of a line `C|id|command|domain|priority|authority|issued|ttl|payload`. -/
structure CommandFields where
  commandId : Bytes
  command : Bytes
  domain : Bytes
  priority : Bytes
  authority : Bytes
  issuedNs : Bytes
  ttlNs : Bytes
  payload : Bytes

/-- All fields but the payload. -/
def CommandFields.head (fields : CommandFields) : List Bytes :=
  [ascii "C", fields.commandId, fields.command, fields.domain, fields.priority,
    fields.authority, fields.issuedNs, fields.ttlNs]

def CommandFields.line (fields : CommandFields) : Bytes :=
  joined bar (fields.head ++ [fields.payload])

/-- The fields write this envelope: numbers in range, and a payload of base64
characters. -/
structure CommandFields.Denote (fields : CommandFields) (env : CommandEnvelope) : Prop where
  commandId : Numeral fields.commandId env.commandId.toNat
  command : Numeral fields.command env.command.toNat
  domain : Numeral fields.domain env.domain.toNat
  priority : Numeral fields.priority env.priority.toNat
  authority : Numeral fields.authority env.authority.toNat
  issuedNs : Numeral fields.issuedNs env.issuedNs.toNat
  ttlNs : Numeral fields.ttlNs env.ttlNs.toNat
  payload : ∀ byte ∈ fields.payload, (∃ digit, byte = Radix64.alphabet digit) ∨
    byte = Radix64.pad
  payloadJson : env.payloadJson = (base64Decode fields.payload).1

/-- A line of nine fields that writes this envelope. -/
def WellFormed (line : Bytes) (env : CommandEnvelope) : Prop :=
  ∃ fields : CommandFields, fields.line = line ∧ fields.Denote env

/-- The payload field is not empty: the line does not end with its delimiter. -/
def HasPayload (line : Bytes) : Prop := line.getLast? ≠ some bar

instance (line : Bytes) : Decidable (HasPayload line) :=
  inferInstanceAs (Decidable (_ ≠ _))

section Denote

variable {fields : CommandFields} {env : CommandEnvelope}

theorem CommandFields.Denote.not_mem_head (hdenote : fields.Denote env) {byte : UInt8}
    (hdigit : isDigit byte = false) (hletter : byte ≠ 67) :
    ∀ part ∈ fields.head, byte ∉ part := by
  have hnumeral : ∀ {text : Bytes} {value : ℕ}, Numeral text value → byte ∉ text := by
    intro text value htext hmem
    simp [htext.2.1 byte hmem] at hdigit
  intro part hpart
  simp only [head, List.mem_cons, List.not_mem_nil, or_false] at hpart
  rcases hpart with rfl | rfl | rfl | rfl | rfl | rfl | rfl | rfl
  · simpa [ascii] using hletter
  · exact hnumeral hdenote.commandId
  · exact hnumeral hdenote.command
  · exact hnumeral hdenote.domain
  · exact hnumeral hdenote.priority
  · exact hnumeral hdenote.authority
  · exact hnumeral hdenote.issuedNs
  · exact hnumeral hdenote.ttlNs

theorem CommandFields.Denote.not_mem_payload (hdenote : fields.Denote env) {byte : UInt8}
    (hbyte : byte.toNat < 43 ∨ 122 < byte.toNat) : byte ∉ fields.payload := by
  intro hmem
  rcases hdenote.payload byte hmem with ⟨digit, rfl⟩ | rfl
  · exact Radix64.alphabet_ne hbyte digit rfl
  · simp [Radix64.pad] at hbyte

/-- No field holds the delimiter, a newline or a carriage return. -/
theorem CommandFields.Denote.not_mem_fields (hdenote : fields.Denote env) {byte : UInt8}
    (hbyte : byte = bar ∨ byte = newline ∨ byte = 13) :
    ∀ part ∈ fields.head ++ [fields.payload], byte ∉ part := by
  intro part hpart
  rcases List.mem_append.1 hpart with hpart | hpart
  · refine hdenote.not_mem_head ?_ ?_ part hpart
    · rcases hbyte with rfl | rfl | rfl <;> rfl
    · rcases hbyte with rfl | rfl | rfl <;> decide
  · rw [List.mem_singleton.1 hpart]
    refine hdenote.not_mem_payload ?_
    rcases hbyte with rfl | rfl | rfl <;> decide

theorem CommandFields.Denote.not_mem_line (hdenote : fields.Denote env) {byte : UInt8}
    (hbyte : byte = newline ∨ byte = 13) : byte ∉ fields.line := by
  intro hmem
  rcases mem_joined hmem with rfl | ⟨part, hpart, hchar⟩
  · rcases hbyte with hbyte | hbyte <;> exact absurd hbyte (by decide)
  · exact hdenote.not_mem_fields (Or.inr hbyte) part hpart hchar

theorem CommandFields.Denote.dropCarriageReturn_line (hdenote : fields.Denote env) :
    dropCarriageReturn fields.line = fields.line := by
  rw [dropCarriageReturn, if_neg]
  intro hlast
  exact hdenote.not_mem_line (Or.inr rfl) (List.mem_of_getLast? hlast)

theorem CommandFields.Denote.segments_of_payload (hdenote : fields.Denote env)
    (hpayload : fields.payload ≠ []) :
    segments bar fields.line = fields.head ++ [fields.payload] := by
  refine segments_joined (hdenote.not_mem_fields (Or.inl rfl)) ?_
  simpa using hpayload

theorem CommandFields.Denote.segments_of_no_payload (hdenote : fields.Denote env)
    (hpayload : fields.payload = []) : segments bar fields.line = fields.head := by
  rw [line, hpayload]
  exact segments_joined_append_nil (hdenote.not_mem_head rfl (by decide))

/-- Every number comes back through the narrowing casts. -/
theorem CommandFields.Denote.parseNumbers_eq (hdenote : fields.Denote env) (last : Bytes) :
    parseNumbers (fields.head ++ [last]) = some { env with payloadJson := [] } := by
  have hid := hdenote.commandId.stoull_eq env.commandId.toNat_lt
  have hcommand := hdenote.command.stoull_eq (by have := env.command.toNat_lt; omega)
  have hdomain := hdenote.domain.stoull_eq (by have := env.domain.toNat_lt; omega)
  have hpriority := hdenote.priority.stoull_eq (by have := env.priority.toNat_lt; omega)
  have hauthority := hdenote.authority.stoull_eq (by have := env.authority.toNat_lt; omega)
  have hissued := hdenote.issuedNs.stoull_eq env.issuedNs.toNat_lt
  have httl := hdenote.ttlNs.stoull_eq env.ttlNs.toNat_lt
  simp [parseNumbers, head, stoul, hid, hcommand, hdomain, hpriority, hauthority, hissued, httl]

theorem CommandFields.line_ne_nil (fields : CommandFields) : fields.line ≠ [] := by
  simp [line, head, joined, ascii]

theorem CommandFields.isPrefixOf_line (fields : CommandFields) :
    (ascii "C|").isPrefixOf fields.line = true := by
  simp [line, head, joined, ascii, bar]

theorem CommandFields.Denote.readLine_of_payload (hdenote : fields.Denote env)
    (hpayload : fields.payload ≠ []) :
    readLine fields.line = .submits env (base64Decode fields.payload).2 := by
  rw [readLine, if_neg fields.line_ne_nil]
  simp only [hdenote.dropCarriageReturn_line, fields.isPrefixOf_line,
    hdenote.segments_of_payload hpayload, hdenote.parseNumbers_eq]
  simp [head, ← hdenote.payloadJson]

/-- With an empty payload the line ends in the delimiter and the core counts
only eight fields. -/
theorem CommandFields.Denote.readLine_of_no_payload (hdenote : fields.Denote env)
    (hpayload : fields.payload = []) : readLine fields.line = .malformed := by
  rw [readLine, if_neg fields.line_ne_nil]
  simp only [hdenote.dropCarriageReturn_line, fields.isPrefixOf_line,
    hdenote.segments_of_no_payload hpayload]
  simp [head]

theorem CommandFields.Denote.hasPayload_iff (hdenote : fields.Denote env) :
    HasPayload fields.line ↔ fields.payload ≠ [] := by
  have hline : fields.line = joined bar fields.head ++ bar :: fields.payload := by
    simp [line, head, joined]
  constructor
  · rintro hlast hempty
    exact hlast (by simp [hline, hempty])
  · intro hpayload hlast
    have hend : fields.payload.getLast? = some bar := by
      rw [hline, List.append_cons, List.getLast?_append,
        List.getLast?_eq_some_getLast hpayload] at hlast
      rw [List.getLast?_eq_some_getLast hpayload, ← hlast]
      rfl
    exact hdenote.not_mem_payload (by decide) (List.mem_of_getLast? hend)

/-- A well-formed line is submitted if and only if its payload is not empty. -/
theorem WellFormed.lineEnvelope_eq {line : Bytes} (hline : WellFormed line env) :
    lineEnvelope line = if HasPayload line then some env else none := by
  obtain ⟨fields, rfl, hdenote⟩ := hline
  have hpayload := hdenote.hasPayload_iff
  by_cases hempty : fields.payload = []
  · rw [if_neg (by simp [hpayload, hempty]), lineEnvelope, hdenote.readLine_of_no_payload hempty]
    rfl
  · rw [if_pos (hpayload.2 hempty), lineEnvelope, hdenote.readLine_of_payload hempty]
    rfl

end Denote

end ArcravenUgv.CommandLine
