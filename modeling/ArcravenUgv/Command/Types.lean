import ArcravenUgv.Lib.Decimal
import ArcravenUgv.Models.Enums

/-!
# Command envelopes and results

The records of `command/CommandTypes.hpp`.  A `std::string` is a byte string,
`uint64_t` arithmetic wraps, and an enumeration field of an envelope holds the
number that was cast into it.
-/

namespace ArcravenUgv.Command

open ArcravenUgv.Enums

abbrev Bytes := List UInt8

structure CommandEnvelope where
  command : UInt16
  domain : UInt8
  priority : UInt8
  authority : UInt8
  commandId : UInt64
  issuedNs : UInt64
  ttlNs : UInt64
  payloadJson : Bytes
  deriving DecidableEq, Repr

/-- The default member initializers of the C++ struct. -/
def CommandEnvelope.default : CommandEnvelope where
  command := UgvCommand.stop.wire
  domain := CommandDomain.mobility.wire
  priority := CommandPriority.normal.wire
  authority := CommandAuthority.unknown.wire
  commandId := 0
  issuedNs := 0
  ttlNs := 0
  payloadJson := []

structure CommandResult where
  status : CommandStatus
  rejectReason : RejectReason
  message : Bytes
  deriving DecidableEq, Repr

def isExpired (cmd : CommandEnvelope) (nowNs : UInt64) : Bool :=
  if cmd.ttlNs = 0 ∨ cmd.issuedNs = 0 then false
  else cmd.ttlNs < nowNs - cmd.issuedNs

end ArcravenUgv.Command
