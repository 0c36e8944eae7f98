import ArcravenUgv.Command.Router

/-!
# The default command handlers

`UgvCore::register_default_command_handlers`: the handler registered for every
command, and the program each handler runs.  All stubs only answer with a
message, so they are one handler with that message as its value.
-/

namespace ArcravenUgv.Handlers

open ArcravenUgv.Enums
open ArcravenUgv.Command
open ArcravenUgv.Command.CommandRouter
open ArcravenUgv.Decimal

/-- The lambdas passed to `register_handler`. -/
inductive Handler
  | emergencyStop
  | shutdown
  | stop
  | reboot
  | signal
  | reply (message : Bytes)
  deriving DecidableEq, Repr

/-- `register_stub`. -/
def registerStub (label : String) : Handler :=
  .reply (ascii label ++ ascii " accepted (stub)")

/-- The calls of `register_handler` in their order. -/
def defaultHandlers : List (UgvCommand × Handler) :=
  [(.emergencyStop, .emergencyStop),
    (.shutdown, .shutdown),
    (.stop, .stop),
    (.wait, .reply (ascii "wait accepted (stub)")),
    (.reboot, .reboot),
    (.followPath, .reply (ascii "FollowPath accepted (stub)")),
    (.goTo, .reply (ascii "GoTo accepted (stub)")),
    (.safeMode, .reply (ascii "SafeMode accepted (stub)")),
    (.selfCheck, .reply (ascii "SelfCheck accepted (stub)")),
    (.calibrateSensors, .reply (ascii "CalibrateSensors accepted (stub)")),
    (.signal, .signal),
    (.holdPosition, registerStub "HoldPosition"),
    (.anchor, registerStub "Anchor"),
    (.replanTo, registerStub "ReplanTo"),
    (.loiter, registerStub "Loiter"),
    (.returnToBase, registerStub "ReturnToBase"),
    (.followTarget, registerStub "FollowTarget"),
    (.evade, registerStub "Evade"),
    (.dock, registerStub "Dock"),
    (.setSpeedLimit, registerStub "SetSpeedLimit"),
    (.setStance, registerStub "SetStance"),
    (.alignHeading, registerStub "AlignHeading"),
    (.faceTarget, registerStub "FaceTarget"),
    (.stabilize, registerStub "Stabilize"),
    (.scanArea, registerStub "ScanArea"),
    (.observe, registerStub "Observe"),
    (.focusSensor, registerStub "FocusSensor"),
    (.trackEntity, registerStub "TrackEntity"),
    (.sentinel, registerStub "Sentinel"),
    (.secureArea, registerStub "SecureArea"),
    (.escort, registerStub "Escort"),
    (.checkpoint, registerStub "Checkpoint"),
    (.investigate, registerStub "Investigate"),
    (.shadow, registerStub "Shadow"),
    (.executeMission, registerStub "ExecuteMission"),
    (.abortMission, registerStub "AbortMission"),
    (.pauseMission, registerStub "PauseMission"),
    (.resumeMission, registerStub "ResumeMission"),
    (.handoffControl, registerStub "HandoffControl"),
    (.broadcast, registerStub "Broadcast"),
    (.acknowledge, registerStub "Acknowledge"),
    (.requestAssistance, registerStub "RequestAssistance"),
    (.recover, registerStub "Recover"),
    (.setRuleset, registerStub "SetRuleset"),
    (.setOwnership, registerStub "SetOwnership"),
    (.lockCommandSet, registerStub "LockCommandSet"),
    (.unlockCommandSet, registerStub "UnlockCommandSet")]

def accepted (message : Bytes) : CommandResult where
  status := .accepted
  rejectReason := .none
  message := message

def succeeded (message : Bytes) : CommandResult where
  status := .succeeded
  rejectReason := .none
  message := message

def estopLatched : CommandResult := succeeded (ascii "estop latched")

def shutdownRequested : CommandResult := succeeded (ascii "shutdown requested")

def drivesDisabled : CommandResult := succeeded (ascii "drives disabled")

def rebootRequested : CommandResult := accepted (ascii "reboot requested (stub)")

/-- `RejectReason::SafetyLockout` is not among the enumerators of the header; it
is taken as one more. -/
def lockedOut : CommandResult where
  status := .rejected
  rejectReason := .safetyLockout
  message := ascii "estop latched"

/-- The `Signal` handler looks at the front of the payload only. -/
def signalResult (cmd : CommandEnvelope) : CommandResult :=
  if (ascii "flashlight|").isPrefixOf cmd.payloadJson then
    accepted (ascii "flashlight command accepted")
  else accepted (ascii "Signal accepted (stub)")

/-- The next step of a running handler. -/
inductive HandlerPc
  | triggerExchange
  | triggerStore
  | requestStop (result : CommandResult)
  | testLatch
  | disableDrives
  | returned (result : CommandResult)
  deriving DecidableEq, Repr

/-- Calling a handler. -/
def Handler.call (handler : Handler) (cmd : CommandEnvelope) : HandlerPc :=
  match handler with
  | .emergencyStop => .triggerExchange
  | .shutdown => .requestStop shutdownRequested
  | .stop => .testLatch
  | .reboot => .requestStop rebootRequested
  | .signal => .returned (signalResult cmd)
  | .reply message => .returned (accepted message)

/-- The router after the first calls of `register_handler`. -/
def registerAll (router : CommandRouter Handler) (rows : List (UgvCommand × Handler)) :
    CommandRouter Handler :=
  rows.foldl (fun router row => router.registerHandler row.1.wire (some row.2)) router

end ArcravenUgv.Handlers
