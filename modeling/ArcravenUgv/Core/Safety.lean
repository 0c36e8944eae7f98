import ArcravenUgv.Command.Types

/-!
# Stop flag, E-STOP latch and drives

`core/StopController.hpp`, `core/EStopLatch.hpp` and the drive stub of
`subsystems/Stubs.hpp`.  Atomics are sequentially consistent, so each operation
on one is a step of its own.
-/

namespace ArcravenUgv.Safety

open ArcravenUgv.Command

structure StopController where
  stop : Bool := false
  deriving DecidableEq, Repr

def StopController.requestStop (_ : StopController) : StopController where
  stop := true

structure EStopLatch where
  latched : Bool := false
  reason : Option Bytes := none
  deriving DecidableEq, Repr

/-- The `compare_exchange_strong` of `trigger`, and whether it was this call
that latched. -/
def EStopLatch.exchange (estop : EStopLatch) : EStopLatch × Bool :=
  if estop.latched then (estop, false) else ({ estop with latched := true }, true)

/-- The locked section of `trigger`. -/
def EStopLatch.storeReason (estop : EStopLatch) (reason : Bytes) : EStopLatch :=
  { estop with reason := some reason }

def EStopLatch.reasonString (estop : EStopLatch) : Bytes :=
  estop.reason.getD (Decimal.ascii "unknown")

structure DriveSystemStub where
  enabled : Bool := false
  deriving DecidableEq, Repr

def DriveSystemStub.enable (_ : DriveSystemStub) : DriveSystemStub × Bool :=
  ({ enabled := true }, true)

def DriveSystemStub.disable (_ : DriveSystemStub) : DriveSystemStub where
  enabled := false

def DriveSystemStub.estop (_ : DriveSystemStub) : DriveSystemStub where
  enabled := false

end ArcravenUgv.Safety
