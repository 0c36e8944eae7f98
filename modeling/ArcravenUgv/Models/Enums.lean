import Mathlib.Tactic

/-!
# Wire enumerations

The enumerations of the command protocol with their wire numbers.  The same
lists stand in the C++ core (`models/enums`) and in the Rust API
(`commands/*.rs`).  An object of a C++ `enum class` may hold any value of its
underlying type, so where a value comes from a cast the core's records carry the
number itself.
-/

namespace ArcravenUgv.Enums

inductive UgvCommand
  | followPath
  | goTo
  | stop
  | holdPosition
  | anchor
  | replanTo
  | loiter
  | returnToBase
  | followTarget
  | evade
  | dock
  | setSpeedLimit
  | setStance
  | alignHeading
  | faceTarget
  | stabilize
  | scanArea
  | observe
  | focusSensor
  | trackEntity
  | calibrateSensors
  | sentinel
  | secureArea
  | escort
  | checkpoint
  | investigate
  | shadow
  | executeMission
  | abortMission
  | pauseMission
  | resumeMission
  | wait
  | handoffControl
  | signal
  | broadcast
  | acknowledge
  | requestAssistance
  | emergencyStop
  | safeMode
  | selfCheck
  | recover
  | shutdown
  | reboot
  | setRuleset
  | setOwnership
  | lockCommandSet
  | unlockCommandSet
  deriving DecidableEq, Repr

/-- `enum class UgvCommand : uint16_t`. -/
def UgvCommand.wire : UgvCommand → UInt16
  | .followPath => 100
  | .goTo => 101
  | .stop => 102
  | .holdPosition => 103
  | .anchor => 104
  | .replanTo => 105
  | .loiter => 106
  | .returnToBase => 107
  | .followTarget => 108
  | .evade => 109
  | .dock => 110
  | .setSpeedLimit => 200
  | .setStance => 201
  | .alignHeading => 202
  | .faceTarget => 203
  | .stabilize => 204
  | .scanArea => 300
  | .observe => 301
  | .focusSensor => 302
  | .trackEntity => 303
  | .calibrateSensors => 304
  | .sentinel => 400
  | .secureArea => 401
  | .escort => 402
  | .checkpoint => 403
  | .investigate => 404
  | .shadow => 405
  | .executeMission => 500
  | .abortMission => 501
  | .pauseMission => 502
  | .resumeMission => 503
  | .wait => 504
  | .handoffControl => 505
  | .signal => 600
  | .broadcast => 601
  | .acknowledge => 602
  | .requestAssistance => 603
  | .emergencyStop => 700
  | .safeMode => 701
  | .selfCheck => 702
  | .recover => 703
  | .shutdown => 704
  | .reboot => 705
  | .setRuleset => 800
  | .setOwnership => 801
  | .lockCommandSet => 802
  | .unlockCommandSet => 803

inductive CommandDomain
  | mobility
  | posture
  | perception
  | security
  | mission
  | interaction
  | health
  | authority
  deriving DecidableEq, Repr

/-- `enum class CommandDomain : uint8_t`. -/
def CommandDomain.wire : CommandDomain → UInt8
  | .mobility => 0
  | .posture => 1
  | .perception => 2
  | .security => 3
  | .mission => 4
  | .interaction => 5
  | .health => 6
  | .authority => 7

inductive CommandPriority
  | background
  | normal
  | high
  | critical
  deriving DecidableEq, Repr

/-- `enum class CommandPriority : uint8_t`. -/
def CommandPriority.wire : CommandPriority → UInt8
  | .background => 0
  | .normal => 1
  | .high => 2
  | .critical => 3

inductive CommandAuthority
  | unknown
  | autonomy
  | remoteOperator
  | missionControl
  | safetySystem
  deriving DecidableEq, Repr

/-- `enum class CommandAuthority : uint8_t`. -/
def CommandAuthority.wire : CommandAuthority → UInt8
  | .unknown => 0
  | .autonomy => 1
  | .remoteOperator => 2
  | .missionControl => 3
  | .safetySystem => 4

inductive CommandStatus
  | none
  | received
  | accepted
  | rejected
  | running
  | succeeded
  | failed
  | aborted
  | preempted
  | expired
  deriving DecidableEq, Repr

/-- `enum class CommandStatus : uint8_t`. -/
def CommandStatus.wire : CommandStatus → UInt8
  | .none => 0
  | .received => 1
  | .accepted => 2
  | .rejected => 3
  | .running => 4
  | .succeeded => 5
  | .failed => 6
  | .aborted => 7
  | .preempted => 8
  | .expired => 9

inductive RejectReason
  | none
  | notAuthorized
  | invalidPayload
  | unsupported
  | unsafeCommand
  | busy
  | preconditionsFail
  | timeout
  | staleCommand
  | safetyLockout
  deriving DecidableEq, Repr

/-- `enum class RejectReason : uint8_t`.  The `Stop` handler names
`SafetyLockout`, which the header does not list; it is taken as the next
enumerator.  `Unsafe` is `unsafeCommand` here. -/
def RejectReason.wire : RejectReason → UInt8
  | .none => 0
  | .notAuthorized => 1
  | .invalidPayload => 2
  | .unsupported => 3
  | .unsafeCommand => 4
  | .busy => 5
  | .preconditionsFail => 6
  | .timeout => 7
  | .staleCommand => 8
  | .safetyLockout => 9

end ArcravenUgv.Enums
