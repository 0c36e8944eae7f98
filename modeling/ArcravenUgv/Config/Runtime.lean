import ArcravenUgv.Config.Handlers
import ArcravenUgv.Core.Safety
import ArcravenUgv.Core.SaveFaults
import ArcravenUgv.Lib.Runs
import ArcravenUgv.Subsystems.Bridge

/-!
# The core and its threads

`UgvCore::run` and the five threads it starts, one atomic access to shared data
to a step.  A program counter says what its thread does next.  Log calls are
taken as returning here; the locks they take are added in `Config.Locks`.  Calls
that reach the file system succeed, save that opening a bridge file may fail: the
runs are those whose saves meet no fault, and the faults are in `Core.SaveFaults`.
-/

namespace ArcravenUgv.Runtime

open ArcravenUgv.Enums
open ArcravenUgv.Command
open ArcravenUgv.Command.CommandRouter
open ArcravenUgv.Decimal
open ArcravenUgv.Safety
open ArcravenUgv.Handlers
open ArcravenUgv.StateStore
open ArcravenUgv.SaveFaults
open ArcravenUgv.CommandLine
open ArcravenUgv.Bridge
open ArcravenUgv.Runs

/-- The threads of the core, and whoever appends to `commands.in`. -/
inductive Thread
  | main
  | estop
  | control
  | sensor
  | io
  | persist
  | client
  deriving DecidableEq, Repr

/-- The members of `UgvCore` and the files under its data directory.
`finished` lists the threads whose function has returned. -/
structure Shared where
  stop : StopController
  estop : EStopLatch
  drives : DriveSystemStub
  router : CommandRouter Handler
  bridge : Iceoryx2Bridge
  state : PersistentStateV1
  threads : List Thread
  finished : List Thread
  commandsIn : Bytes
  telemetryOut : Bytes
  disk : Disk

/-- What one step takes from outside the core: the steady clock, whether a file
opened, and the bytes a client appends. -/
structure World where
  clock : UInt64 := 0
  opened : Bool := true
  chunk : Bytes := []
  deriving DecidableEq, Repr

inductive Event
  | latched
  | stopRequested (thread : Thread)
  | sawLatch
  | drivesEstop (thread : Thread)
  | lineDone (offset : ℕ) (line : Bytes) (answer : Option (CommandEnvelope × CommandResult))
  | dequeued (cmd : CommandEnvelope) (nowNs : UInt64)
  | handlerCalled (cmd : CommandEnvelope)
  | processed (cmd : CommandEnvelope) (result : CommandResult)
  | published (cmd : CommandEnvelope) (result : CommandResult)
  | telemetry (frame : SensorFrame)
  | stored (state : PersistentStateV1)
  | crcPass (state : PersistentStateV1)
  | writePass (state : PersistentStateV1)
  | installed (file : Option Bytes)
  | runReturned (code : ℕ)
  deriving DecidableEq, Repr

/-- A thread's step: the shared data and the program counter it leaves. -/
abbrev Step (Pc : Type) := Option (Shared × Pc × List Event)

/-! ## The main thread -/

inductive MainPc
  | bringup
  | bringupFailed
  | startEstop
  | loadState
  | calibrate
  | calibrationFailed
  | saveCalibrated
  | registering (count : ℕ)
  | enable
  | enableFailed
  | spawning (count : ℕ)
  | testStop
  | requestStop (code : ℕ)
  | sampleLatch (code : ℕ)
  | driveEstop (code : ℕ)
  | driveDisable (code : ℕ)
  | joining (code count : ℕ)
  | saveFinal (code : ℕ)
  | finish (code : ℕ)
  | returned (code : ℕ)
  deriving DecidableEq, Repr

/-- `calibration_sequence`. -/
def calibrationSequence (_ : PersistentStateV1) : Bool := true

/-- The threads started by `start_runtime`, in their order. -/
def runtimeThreads : List Thread := [.control, .sensor, .io, .persist]

/-- A whole call of `save` that meets no fault and no other thread. -/
def Shared.saveState (shared : Shared) : Shared :=
  { shared with disk := save shared.disk (shared.state, faultFree) }

@[simp]
theorem Shared.saveState_disk (shared : Shared) :
    shared.saveState.disk = { live := some (fileImage shared.state), tmp := none } :=
  save_of_faultFree faultFree_faultFree

/-- `UgvCore::run` with `safe_shutdown`. -/
def mainStep (world : World) (shared : Shared) : MainPc → Step MainPc
  | .bringup =>
      if world.opened then
        some ({ shared with bridge := { shared.bridge with initialized := true } },
          .startEstop, [])
      else some (shared, .bringupFailed, [])
  | .bringupFailed => some (shared, .returned 2, [.runReturned 2])
  | .startEstop => some ({ shared with threads := [.estop] }, .loadState, [])
  | .loadState =>
      some ({ shared with state := (load shared.disk.live).getD {} }, .calibrate, [])
  | .calibrate =>
      if calibrationSequence shared.state then
        some ({ shared with state := { shared.state with calibratedOk := 1 } },
          .saveCalibrated, [])
      else
        some ({ shared with state := { shared.state with calibratedOk := 0 } },
          .calibrationFailed, [])
  | .calibrationFailed => some (shared.saveState, .returned 3, [.runReturned 3])
  | .saveCalibrated => some (shared.saveState, .registering 0, [])
  | .registering count =>
      match defaultHandlers[count]? with
      | some (cmd, handler) =>
          some ({ shared with
              router := shared.router.registerHandler cmd.wire (some handler) },
            .registering (count + 1), [])
      | none => some (shared, .enable, [])
  | .enable =>
      let (drives, enabled) := shared.drives.enable
      if enabled then some ({ shared with drives := drives }, .spawning 0, [])
      else some ({ shared with drives := drives }, .enableFailed, [])
  | .enableFailed => some (shared, .requestStop 4, [])
  | .spawning count =>
      match runtimeThreads[count]? with
      | some thread =>
          some ({ shared with threads := shared.threads ++ [thread] },
            .spawning (count + 1), [])
      | none => some (shared, .testStop, [])
  | .testStop =>
      if shared.stop.stop then some (shared, .requestStop 0, [])
      else some (shared, .testStop, [])
  | .requestStop code =>
      some ({ shared with stop := shared.stop.requestStop }, .sampleLatch code,
        [.stopRequested .main])
  | .sampleLatch code =>
      if shared.estop.latched then some (shared, .driveEstop code, [])
      else some (shared, .driveDisable code, [])
  | .driveEstop code =>
      some ({ shared with drives := shared.drives.estop }, .joining code 0,
        [.drivesEstop .main])
  | .driveDisable code =>
      some ({ shared with drives := shared.drives.disable }, .joining code 0, [])
  | .joining code count =>
      match shared.threads[count]? with
      | some thread =>
          if thread ∈ shared.finished then some (shared, .joining code (count + 1), [])
          else none
      | none => some ({ shared with threads := [] }, .saveFinal code, [])
  | .saveFinal code => some (shared.saveState, .finish code, [])
  | .finish code => some (shared, .returned code, [.runReturned code])
  | .returned _ => none

/-! ## The E-STOP thread -/

inductive EStopPc
  | start
  | testStop
  | testLatch
  | driveEstop
  | requestStop
  | sleep
  | exiting
  | exited
  deriving DecidableEq, Repr

def Shared.finish (shared : Shared) (thread : Thread) : Shared :=
  { shared with finished := thread :: shared.finished }

def estopStep (shared : Shared) : EStopPc → Step EStopPc
  | .start => some (shared, .testStop, [])
  | .testStop =>
      if shared.stop.stop then some (shared, .exiting, [])
      else some (shared, .testLatch, [])
  | .testLatch =>
      if shared.estop.latched then some (shared, .driveEstop, [.sawLatch])
      else some (shared, .sleep, [])
  | .driveEstop =>
      some ({ shared with drives := shared.drives.estop }, .requestStop,
        [.drivesEstop .estop])
  | .requestStop =>
      some ({ shared with stop := shared.stop.requestStop }, .sleep,
        [.stopRequested .estop])
  | .sleep => some (shared, .testStop, [])
  | .exiting => some (shared.finish .estop, .exited, [])
  | .exited => none

/-! ## The control thread -/

inductive ControlPc
  | start
  | testStop
  | testLatch
  | sampleClock
  | processOne (nowNs : UInt64) (left : ℕ)
  | admitting (nowNs : UInt64) (left : ℕ) (cmd : CommandEnvelope)
      (handler : Option Handler)
  | handling (nowNs : UInt64) (left : ℕ) (cmd : CommandEnvelope) (pc : HandlerPc)
  | callback (nowNs : UInt64) (left : ℕ) (cmd : CommandEnvelope) (result : CommandResult)
  | publishing (nowNs : UInt64) (left : ℕ) (cmd : CommandEnvelope) (result : CommandResult)
  | sleep
  | exiting
  | exited
  deriving DecidableEq, Repr

/-- One step of a running handler. -/
def handlerStep (shared : Shared) : HandlerPc → Step HandlerPc
  | .triggerExchange =>
      let (estop, won) := shared.estop.exchange
      if won then some ({ shared with estop := estop }, .triggerStore, [.latched])
      else some ({ shared with estop := estop }, .requestStop estopLatched, [])
  | .triggerStore =>
      some ({ shared with
          estop := shared.estop.storeReason (ascii "EmergencyStop command") },
        .requestStop estopLatched, [])
  | .requestStop result =>
      some ({ shared with stop := shared.stop.requestStop }, .returned result,
        [.stopRequested .control])
  | .testLatch =>
      if shared.estop.latched then some (shared, .returned lockedOut, [])
      else some (shared, .disableDrives, [])
  | .disableDrives =>
      some ({ shared with drives := shared.drives.disable }, .returned drivesDisabled, [])
  | .returned _ => none

/-- A store to `state_.last_authority`. -/
def Shared.storeAuthority (shared : Shared) (authority : UInt8) : Shared :=
  { shared with state := { shared.state with lastAuthority := authority } }

def controlStep (world : World) (shared : Shared) : ControlPc → Step ControlPc
  | .start =>
      let shared := shared.storeAuthority CommandAuthority.unknown.wire
      some (shared, .testStop, [.stored shared.state])
  | .testStop =>
      if shared.stop.stop then some (shared, .exiting, [])
      else some (shared, .testLatch, [])
  | .testLatch =>
      if shared.estop.latched then some (shared, .sleep, [])
      else some (shared, .sampleClock, [])
  | .sampleClock => some (shared, .processOne world.clock 8, [])
  | .processOne _ 0 => some (shared, .sleep, [])
  | .processOne nowNs (left + 1) =>
      match shared.router.takeFront with
      | none => some (shared, .sleep, [])
      | some (cmd, handler, router) =>
          some ({ shared with router := router }, .admitting nowNs left cmd handler,
            [.dequeued cmd nowNs])
  | .admitting nowNs left cmd handler =>
      match dispatch cmd handler nowNs with
      | .error result => some (shared, .callback nowNs left cmd result, [])
      | .ok handler =>
          some (shared, .handling nowNs left cmd (handler.call cmd), [.handlerCalled cmd])
  | .handling nowNs left cmd (.returned result) =>
      some (shared, .callback nowNs left cmd (settle result), [])
  | .handling nowNs left cmd pc =>
      (handlerStep shared pc).map fun (shared, pc, events) =>
        (shared, .handling nowNs left cmd pc, events)
  | .callback nowNs left cmd result =>
      if result.status = .rejected then
        some (shared, .publishing nowNs left cmd result, [.processed cmd result])
      else
        let shared := shared.storeAuthority cmd.authority
        some (shared, .publishing nowNs left cmd result,
          [.processed cmd result, .stored shared.state])
  | .publishing nowNs left cmd result =>
      if shared.bridge.initialized && world.opened then
        some ({ shared with
            telemetryOut := shared.telemetryOut ++ publishCommandResult cmd.commandId result },
          .processOne nowNs left, [.published cmd result])
      else some (shared, .processOne nowNs left, [])
  | .sleep => some (shared, .testStop, [])
  | .exiting => some (shared.finish .control, .exited, [])
  | .exited => none

/-! ## The sensor, IO and persist threads -/

inductive SensorPc
  | start
  | testStop
  | sample
  | publishing (frame : SensorFrame)
  | sleep
  | exiting
  | exited
  deriving DecidableEq, Repr

/-- `printf` of a `double` is never reached: the stub reports no joints. -/
def printDouble (value : Empty) : Bytes := value.elim

/-- The stubs deliver neither a frame nor joint states, so both lists are
cleared. -/
def sensorStep (world : World) (shared : Shared) : SensorPc → Step SensorPc
  | .start => some (shared, .testStop, [])
  | .testStop =>
      if shared.stop.stop then some (shared, .exiting, [])
      else some (shared, .sample, [])
  | .sample =>
      some (shared, .publishing {
        timestampNs := world.clock
        ids := []
        types := []
        payloads := [] }, [])
  | .publishing frame =>
      if shared.bridge.initialized && world.opened then
        some ({ shared with
            telemetryOut := shared.telemetryOut ++ publishTelemetry printDouble frame [] },
          .sleep, [.telemetry frame])
      else some (shared, .sleep, [])
  | .sleep => some (shared, .testStop, [])
  | .exiting => some (shared.finish .sensor, .exited, [])
  | .exited => none

/-- `atEnd` is the stream's `eofbit`: once set, the next `getline` fails. -/
inductive IoPc
  | start
  | testStop
  | opening
  | getline (atEnd : Bool)
  | body (offset : ℕ) (line : Bytes) (atEnd : Bool)
  | pumpTx
  | sleep
  | exiting
  | exited
  deriving DecidableEq, Repr

def ioStep (world : World) (shared : Shared) : IoPc → Step IoPc
  | .start => some (shared, .testStop, [])
  | .testStop =>
      if shared.stop.stop then some (shared, .exiting, [])
      else some (shared, .opening, [])
  | .opening =>
      if shared.bridge.initialized && world.opened then some (shared, .getline false, [])
      else some (shared, .pumpTx, [])
  | .getline true => some (shared, .pumpTx, [])
  | .getline false =>
      match getline shared.commandsIn shared.bridge.commandOffset with
      | none => some (shared, .pumpTx, [])
      | some (line, atEnd) =>
          let offset := shared.bridge.commandOffset
          some ({ shared with
              bridge := { shared.bridge with commandOffset := offset + (line.length + 1) } },
            .body offset line atEnd, [])
  | .body offset line atEnd =>
      match lineEnvelope line with
      | none => some (shared, .getline atEnd, [.lineDone offset line none])
      | some env =>
          let (router, answer) := shared.router.submit env
          some ({ shared with router := router }, .getline atEnd,
            [.lineDone offset line (some (env, answer))])
  | .pumpTx => some (shared, .sleep, [])
  | .sleep => some (shared, .testStop, [])
  | .exiting => some (shared.finish .io, .exited, [])
  | .exited => none

/-- `save` reads `state_` for the CRC and again for the bytes it writes; the
program counter remembers what each pass has read. -/
inductive PersistPc
  | start
  | testStop
  | crcPass
  | writePass (summed : PersistentStateV1)
  | rename (summed written : PersistentStateV1)
  | sleep
  | exiting
  | exited
  deriving DecidableEq, Repr

/-- The header over one pass and the bytes of the other. -/
def savedFile (summed written : PersistentStateV1) : Bytes :=
  headerBytes (headerFor (crc32Ieee (stateBytes summed))) ++ stateBytes written

def persistStep (shared : Shared) : PersistPc → Step PersistPc
  | .start => some (shared, .testStop, [])
  | .testStop =>
      if shared.stop.stop then some (shared, .exiting, [])
      else some (shared, .crcPass, [])
  | .crcPass => some (shared, .writePass shared.state, [.crcPass shared.state])
  | .writePass summed =>
      some ({ shared with
          disk := { shared.disk with tmp := some (savedFile summed shared.state) } },
        .rename summed shared.state, [.writePass shared.state])
  | .rename _ _ =>
      some ({ shared with disk := shared.disk.install }, .sleep,
        [.installed shared.disk.tmp])
  | .sleep => some (shared, .testStop, [])
  | .exiting => some (shared.finish .persist, .exited, [])
  | .exited => none

/-! ## The system -/

structure Core where
  shared : Shared
  main : MainPc
  estop : EStopPc
  control : ControlPc
  sensor : SensorPc
  io : IoPc
  persist : PersistPc

/-- One step of one thread.  A thread runs once it is in `threads_`; a client
appends at any time. -/
def step (core : Core) (label : Thread × World) : Option (Core × List Event) :=
  let (thread, world) := label
  let shared := core.shared
  match thread with
  | .main =>
      (mainStep world shared core.main).map fun (shared, pc, events) =>
        ({ core with shared := shared, main := pc }, events)
  | .client =>
      some ({ core with
        shared := { shared with commandsIn := shared.commandsIn ++ world.chunk } }, [])
  | thread =>
      if thread ∈ shared.threads then
        match thread with
        | .estop =>
            (estopStep shared core.estop).map fun (shared, pc, events) =>
              ({ core with shared := shared, estop := pc }, events)
        | .control =>
            (controlStep world shared core.control).map fun (shared, pc, events) =>
              ({ core with shared := shared, control := pc }, events)
        | .sensor =>
            (sensorStep world shared core.sensor).map fun (shared, pc, events) =>
              ({ core with shared := shared, sensor := pc }, events)
        | .io =>
            (ioStep world shared core.io).map fun (shared, pc, events) =>
              ({ core with shared := shared, io := pc }, events)
        | _ =>
            (persistStep shared core.persist).map fun (shared, pc, events) =>
              ({ core with shared := shared, persist := pc }, events)
      else none

/-- The files that outlive the process. -/
structure DataDir where
  commandsIn : Bytes
  telemetryOut : Bytes
  disk : Disk
  deriving DecidableEq

/-- `UgvCore::UgvCore` over a data directory, just before `run`. -/
def powerOn (dir : DataDir) : Core where
  shared := {
    stop := {}
    estop := {}
    drives := {}
    router := create { maxQueue := 256 }
    bridge := Iceoryx2Bridge.create
    state := {}
    threads := []
    finished := []
    commandsIn := dir.commandsIn
    telemetryOut := dir.telemetryOut
    disk := dir.disk }
  main := .bringup
  estop := .start
  control := .start
  sensor := .start
  io := .start
  persist := .start

/-- What a process leaves behind wherever it stops. -/
def Core.dataDir (core : Core) : DataDir where
  commandsIn := core.shared.commandsIn
  telemetryOut := core.shared.telemetryOut
  disk := core.shared.disk

def system : System Core (Thread × World) Event where
  step := step

end ArcravenUgv.Runtime
