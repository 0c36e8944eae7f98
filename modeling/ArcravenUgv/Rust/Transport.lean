import ArcravenUgv.Subsystems.Bridge

/-!
# The Rust client's command line

`Iceoryx2Transport::encode_command` of the Rust API and the way its line is read
by the core.  The `STANDARD` engine of the `base64` crate is the padded RFC 4648
encoding.
-/

namespace ArcravenUgv.RustTransport

open ArcravenUgv.Enums
open ArcravenUgv.Command
open ArcravenUgv.Decimal
open ArcravenUgv.Delimited
open ArcravenUgv.CommandLine
open ArcravenUgv.Bridge

/-- `commands::CommandEnvelope` of the Rust API. -/
structure RustEnvelope where
  command : UgvCommand
  domain : CommandDomain
  priority : CommandPriority
  authority : CommandAuthority
  commandId : UInt64
  issuedNs : UInt64
  ttlNs : UInt64
  payloadJson : String

/-- `payload_json.as_bytes()`. -/
def RustEnvelope.payloadBytes (env : RustEnvelope) : Bytes :=
  env.payloadJson.toUTF8.data.toList

/-- The C++ envelope with the same fields, enumerators by wire number. -/
def RustEnvelope.received (env : RustEnvelope) : CommandEnvelope where
  command := env.command.wire
  domain := env.domain.wire
  priority := env.priority.wire
  authority := env.authority.wire
  commandId := env.commandId
  issuedNs := env.issuedNs
  ttlNs := env.ttlNs
  payloadJson := env.payloadBytes

/-- The arguments of the `format!` call. -/
def commandFields (env : RustEnvelope) : CommandFields where
  commandId := decimal env.commandId.toNat
  command := decimal env.command.wire.toNat
  domain := decimal env.domain.wire.toNat
  priority := decimal env.priority.wire.toNat
  authority := decimal env.authority.wire.toNat
  issuedNs := decimal env.issuedNs.toNat
  ttlNs := decimal env.ttlNs.toNat
  payload := Radix64.encode env.payloadBytes

/-- `format!("C|{}|{}|{}|{}|{}|{}|{}|{}", ..)`. -/
def encodeCommand (env : RustEnvelope) : Bytes := (commandFields env).line

/-- What `writeln!` appends to `commands.in`. -/
def commandRecord (env : RustEnvelope) : Bytes :=
  encodeCommand env ++ [newline]

/-- The client writes the envelope the core is to receive. -/
theorem denote_commandFields (env : RustEnvelope) :
    (commandFields env).Denote env.received where
  commandId := numeral_decimal _
  command := numeral_decimal _
  domain := numeral_decimal _
  priority := numeral_decimal _
  authority := numeral_decimal _
  issuedNs := numeral_decimal _
  ttlNs := numeral_decimal _
  payload := fun _ => Radix64.mem_encode
  payloadJson := by
    simp [commandFields, RustEnvelope.received, Base64.base64Decode_encode]

theorem payloadBytes_eq_nil_iff (env : RustEnvelope) :
    env.payloadBytes = [] ↔ env.payloadJson = "" := by
  constructor
  · intro hbytes
    exact String.toByteArray_inj.1 (ByteArray.ext (Array.toList_eq_nil_iff.1 hbytes))
  · intro hempty
    rw [RustEnvelope.payloadBytes, hempty]
    rfl

theorem hasPayload_encodeCommand (env : RustEnvelope) :
    HasPayload (encodeCommand env) ↔ env.payloadJson ≠ "" := by
  rw [encodeCommand, (denote_commandFields env).hasPayload_iff, Ne, Ne,
    ← payloadBytes_eq_nil_iff env]
  exact not_congr Radix64.encode_eq_nil_iff

/-- One record appended behind what the bridge has already consumed is the one
line the next `pump_rx` takes. -/
theorem pumpRx_commandRecord (consumed : Bytes) (env : RustEnvelope) :
    (pumpRx (consumed ++ commandRecord env)
      { initialized := true, commandOffset := consumed.length }).2 =
      (lineEnvelope (encodeCommand env)).toList := by
  have hfree : newline ∉ encodeCommand env :=
    (denote_commandFields env).not_mem_line (Or.inl rfl)
  have hlines : linesFrom (consumed ++ commandRecord env) consumed.length =
      [encodeCommand env] := by
    rw [linesFrom, List.drop_left, commandRecord, segments_append_delim hfree]
    rfl
  simp only [pumpRx, hlines, if_true]
  cases henvelope : lineEnvelope (encodeCommand env) with
  | none => simp [henvelope]
  | some received => simp [henvelope]

/-- The core submits exactly the envelope the client sent if and only if its
payload is not empty. -/
theorem command_round_trip_iff (consumed : Bytes) (env : RustEnvelope) :
    (pumpRx (consumed ++ commandRecord env)
      { initialized := true, commandOffset := consumed.length }).2 = [env.received] ↔
      env.payloadJson ≠ "" := by
  have hline : WellFormed (encodeCommand env) env.received :=
    ⟨commandFields env, rfl, denote_commandFields env⟩
  rw [pumpRx_commandRecord, hline.lineEnvelope_eq, ← hasPayload_encodeCommand]
  by_cases hpayload : HasPayload (encodeCommand env) <;> simp [hpayload]

private def bareStop : RustEnvelope where
  command := .emergencyStop
  domain := .health
  priority := .critical
  authority := .remoteOperator
  commandId := 1
  issuedNs := 0
  ttlNs := 0
  payloadJson := ""

/-- An emergency stop sent without a payload is dropped by the core. -/
theorem command_without_payload_dropped :
    ∃ env : RustEnvelope, env.command = .emergencyStop ∧
      (pumpRx (commandRecord env) { initialized := true, commandOffset := 0 }).2 ≠
        [env.received] :=
  ⟨bareStop, rfl, by decide +kernel⟩

end ArcravenUgv.RustTransport
