import ArcravenUgv.Config.Runtime

/-!
# What one step of the core can do

For every thread the ways it can move, as a relation with one constructor for
each, and the lemma that a step of the system is one of them.
-/

namespace ArcravenUgv.Runtime

open ArcravenUgv.Enums
open ArcravenUgv.Command
open ArcravenUgv.Command.CommandRouter
open ArcravenUgv.Decimal
open ArcravenUgv.Safety
open ArcravenUgv.Handlers
open ArcravenUgv.StateStore
open ArcravenUgv.SaveFaults
open ArcravenUgv.CommandLine
open ArcravenUgv.Bridge

inductive MainMoves (shared : Shared) (pc : MainPc) :
    Shared → MainPc → List Event → Prop
  | bringup (hpc : pc = .bringup) :
      MainMoves shared pc
        { shared with bridge := { shared.bridge with initialized := true } } .startEstop []
  | bringupRefused (hpc : pc = .bringup) : MainMoves shared pc shared .bringupFailed []
  | bringupFailed (hpc : pc = .bringupFailed) :
      MainMoves shared pc shared (.returned 2) [.runReturned 2]
  | startEstop (hpc : pc = .startEstop) :
      MainMoves shared pc { shared with threads := [.estop] } .loadState []
  | loadState (hpc : pc = .loadState) :
      MainMoves shared pc { shared with state := (load shared.disk.live).getD {} }
        .calibrate []
  | calibrate (hpc : pc = .calibrate) :
      MainMoves shared pc { shared with state := { shared.state with calibratedOk := 1 } }
        .saveCalibrated []
  | calibrationFailed (hpc : pc = .calibrationFailed) :
      MainMoves shared pc shared.saveState (.returned 3) [.runReturned 3]
  | saveCalibrated (hpc : pc = .saveCalibrated) :
      MainMoves shared pc shared.saveState (.registering 0) []
  | register (count : ℕ) (cmd : UgvCommand) (handler : Handler)
      (hpc : pc = .registering count) (hrow : defaultHandlers[count]? = some (cmd, handler)) :
      MainMoves shared pc
        { shared with router := shared.router.registerHandler cmd.wire (some handler) }
        (.registering (count + 1)) []
  | registered (count : ℕ) (hpc : pc = .registering count)
      (hrow : defaultHandlers[count]? = none) : MainMoves shared pc shared .enable []
  | enable (hpc : pc = .enable) :
      MainMoves shared pc { shared with drives := { enabled := true } } (.spawning 0) []
  | enableFailed (hpc : pc = .enableFailed) :
      MainMoves shared pc shared (.requestStop 4) []
  | spawn (count : ℕ) (thread : Thread) (hpc : pc = .spawning count)
      (hthread : runtimeThreads[count]? = some thread) :
      MainMoves shared pc { shared with threads := shared.threads ++ [thread] }
        (.spawning (count + 1)) []
  | spawned (count : ℕ) (hpc : pc = .spawning count)
      (hthread : runtimeThreads[count]? = none) : MainMoves shared pc shared .testStop []
  | wait (hpc : pc = .testStop) (hstop : shared.stop.stop = false) :
      MainMoves shared pc shared .testStop []
  | leave (hpc : pc = .testStop) (hstop : shared.stop.stop = true) :
      MainMoves shared pc shared (.requestStop 0) []
  | requestStop (code : ℕ) (hpc : pc = .requestStop code) :
      MainMoves shared pc { shared with stop := { stop := true } } (.sampleLatch code)
        [.stopRequested .main]
  | sampleLatched (code : ℕ) (hpc : pc = .sampleLatch code)
      (hlatched : shared.estop.latched = true) :
      MainMoves shared pc shared (.driveEstop code) []
  | sampleClear (code : ℕ) (hpc : pc = .sampleLatch code)
      (hlatched : shared.estop.latched = false) :
      MainMoves shared pc shared (.driveDisable code) []
  | driveEstop (code : ℕ) (hpc : pc = .driveEstop code) :
      MainMoves shared pc { shared with drives := { enabled := false } } (.joining code 0)
        [.drivesEstop .main]
  | driveDisable (code : ℕ) (hpc : pc = .driveDisable code) :
      MainMoves shared pc { shared with drives := { enabled := false } } (.joining code 0) []
  | join (code count : ℕ) (thread : Thread) (hpc : pc = .joining code count)
      (hthread : shared.threads[count]? = some thread) (hfinished : thread ∈ shared.finished) :
      MainMoves shared pc shared (.joining code (count + 1)) []
  | joined (code count : ℕ) (hpc : pc = .joining code count)
      (hthread : shared.threads[count]? = none) :
      MainMoves shared pc { shared with threads := [] } (.saveFinal code) []
  | saveFinal (code : ℕ) (hpc : pc = .saveFinal code) :
      MainMoves shared pc shared.saveState (.finish code) []
  | finish (code : ℕ) (hpc : pc = .finish code) :
      MainMoves shared pc shared (.returned code) [.runReturned code]

inductive EStopMoves (shared : Shared) (pc : EStopPc) :
    Shared → EStopPc → List Event → Prop
  | start (hpc : pc = .start) : EStopMoves shared pc shared .testStop []
  | leave (hpc : pc = .testStop) (hstop : shared.stop.stop = true) :
      EStopMoves shared pc shared .exiting []
  | stay (hpc : pc = .testStop) (hstop : shared.stop.stop = false) :
      EStopMoves shared pc shared .testLatch []
  | sawLatch (hpc : pc = .testLatch) (hlatched : shared.estop.latched = true) :
      EStopMoves shared pc shared .driveEstop [.sawLatch]
  | sawClear (hpc : pc = .testLatch) (hlatched : shared.estop.latched = false) :
      EStopMoves shared pc shared .sleep []
  | driveEstop (hpc : pc = .driveEstop) :
      EStopMoves shared pc { shared with drives := { enabled := false } } .requestStop
        [.drivesEstop .estop]
  | requestStop (hpc : pc = .requestStop) :
      EStopMoves shared pc { shared with stop := { stop := true } } .sleep
        [.stopRequested .estop]
  | sleep (hpc : pc = .sleep) : EStopMoves shared pc shared .testStop []
  | exit (hpc : pc = .exiting) : EStopMoves shared pc (shared.finish .estop) .exited []

inductive HandlerMoves (shared : Shared) (pc : HandlerPc) :
    Shared → HandlerPc → List Event → Prop
  | latch (hpc : pc = .triggerExchange) (hlatched : shared.estop.latched = false) :
      HandlerMoves shared pc { shared with estop := { shared.estop with latched := true } }
        .triggerStore [.latched]
  | latchedBefore (hpc : pc = .triggerExchange) (hlatched : shared.estop.latched = true) :
      HandlerMoves shared pc shared (.requestStop estopLatched) []
  | storeReason (hpc : pc = .triggerStore) :
      HandlerMoves shared pc
        { shared with estop := shared.estop.storeReason (ascii "EmergencyStop command") }
        (.requestStop estopLatched) []
  | requestStop (result : CommandResult) (hpc : pc = .requestStop result) :
      HandlerMoves shared pc { shared with stop := { stop := true } } (.returned result)
        [.stopRequested .control]
  | refuse (hpc : pc = .testLatch) (hlatched : shared.estop.latched = true) :
      HandlerMoves shared pc shared (.returned lockedOut) []
  | permit (hpc : pc = .testLatch) (hlatched : shared.estop.latched = false) :
      HandlerMoves shared pc shared .disableDrives []
  | disableDrives (hpc : pc = .disableDrives) :
      HandlerMoves shared pc { shared with drives := { enabled := false } }
        (.returned drivesDisabled) []

inductive ControlMoves (world : World) (shared : Shared) (pc : ControlPc) :
    Shared → ControlPc → List Event → Prop
  | start (hpc : pc = .start) :
      ControlMoves world shared pc (shared.storeAuthority CommandAuthority.unknown.wire)
        .testStop [.stored (shared.storeAuthority CommandAuthority.unknown.wire).state]
  | leave (hpc : pc = .testStop) (hstop : shared.stop.stop = true) :
      ControlMoves world shared pc shared .exiting []
  | stay (hpc : pc = .testStop) (hstop : shared.stop.stop = false) :
      ControlMoves world shared pc shared .testLatch []
  | sawLatch (hpc : pc = .testLatch) (hlatched : shared.estop.latched = true) :
      ControlMoves world shared pc shared .sleep []
  | sawClear (hpc : pc = .testLatch) (hlatched : shared.estop.latched = false) :
      ControlMoves world shared pc shared .sampleClock []
  | sampleClock (hpc : pc = .sampleClock) :
      ControlMoves world shared pc shared (.processOne world.clock 8) []
  | batchDone (nowNs : UInt64) (hpc : pc = .processOne nowNs 0) :
      ControlMoves world shared pc shared .sleep []
  | queueEmpty (nowNs : UInt64) (left : ℕ) (hpc : pc = .processOne nowNs (left + 1))
      (hq : shared.router.q = []) :
      ControlMoves world shared pc shared .sleep []
  | dequeue (nowNs : UInt64) (left : ℕ) (cmd : CommandEnvelope) (rest : List CommandEnvelope)
      (hpc : pc = .processOne nowNs (left + 1)) (hq : shared.router.q = cmd :: rest) :
      ControlMoves world shared pc
        { shared with router := { shared.router with q := rest } }
        (.admitting nowNs left cmd (shared.router.handlers cmd.command).join)
        [.dequeued cmd nowNs]
  | refuse (nowNs : UInt64) (left : ℕ) (cmd : CommandEnvelope) (handler : Option Handler)
      (result : CommandResult) (hpc : pc = .admitting nowNs left cmd handler)
      (hdispatch : dispatch cmd handler nowNs = .error result) :
      ControlMoves world shared pc shared (.callback nowNs left cmd result) []
  | call (nowNs : UInt64) (left : ℕ) (cmd : CommandEnvelope) (handler : Handler)
      (hpc : pc = .admitting nowNs left cmd (some handler))
      (hfresh : isExpired cmd nowNs = false) :
      ControlMoves world shared pc shared (.handling nowNs left cmd (handler.call cmd))
        [.handlerCalled cmd]
  | handle (nowNs : UInt64) (left : ℕ) (cmd : CommandEnvelope) (before after : HandlerPc)
      (next : Shared) (events : List Event) (hpc : pc = .handling nowNs left cmd before)
      (hmoves : HandlerMoves shared before next after events) :
      ControlMoves world shared pc next (.handling nowNs left cmd after) events
  | handled (nowNs : UInt64) (left : ℕ) (cmd : CommandEnvelope) (result : CommandResult)
      (hpc : pc = .handling nowNs left cmd (.returned result)) :
      ControlMoves world shared pc shared (.callback nowNs left cmd (settle result)) []
  | report (nowNs : UInt64) (left : ℕ) (cmd : CommandEnvelope) (result : CommandResult)
      (hpc : pc = .callback nowNs left cmd result) (hrejected : result.status = .rejected) :
      ControlMoves world shared pc shared (.publishing nowNs left cmd result)
        [.processed cmd result]
  | reportStored (nowNs : UInt64) (left : ℕ) (cmd : CommandEnvelope) (result : CommandResult)
      (hpc : pc = .callback nowNs left cmd result) (hrejected : result.status ≠ .rejected) :
      ControlMoves world shared pc (shared.storeAuthority cmd.authority)
        (.publishing nowNs left cmd result)
        [.processed cmd result, .stored (shared.storeAuthority cmd.authority).state]
  | publish (nowNs : UInt64) (left : ℕ) (cmd : CommandEnvelope) (result : CommandResult)
      (hpc : pc = .publishing nowNs left cmd result) :
      ControlMoves world shared pc
        { shared with
          telemetryOut := shared.telemetryOut ++ publishCommandResult cmd.commandId result }
        (.processOne nowNs left) [.published cmd result]
  | publishFailed (nowNs : UInt64) (left : ℕ) (cmd : CommandEnvelope) (result : CommandResult)
      (hpc : pc = .publishing nowNs left cmd result)
      (hfailed : (shared.bridge.initialized && world.opened) = false) :
      ControlMoves world shared pc shared (.processOne nowNs left) []
  | sleep (hpc : pc = .sleep) : ControlMoves world shared pc shared .testStop []
  | exit (hpc : pc = .exiting) :
      ControlMoves world shared pc (shared.finish .control) .exited []

inductive SensorMoves (shared : Shared) (pc : SensorPc) :
    Shared → SensorPc → List Event → Prop
  | advance (next : SensorPc) (hpc : pc ≠ .exited) (hstart : next ≠ .start)
      (hexited : next ≠ .exited)
      (hnext : ∀ frame, next = .publishing frame →
        frame.ids = [] ∧ frame.types = [] ∧ frame.payloads = []) :
      SensorMoves shared pc shared next []
  | publish (frame : SensorFrame) (hpc : pc = .publishing frame) :
      SensorMoves shared pc
        { shared with
          telemetryOut := shared.telemetryOut ++ publishTelemetry printDouble frame [] }
        .sleep [.telemetry frame]
  | exit (hpc : pc = .exiting) : SensorMoves shared pc (shared.finish .sensor) .exited []

inductive IoMoves (shared : Shared) (pc : IoPc) : Shared → IoPc → List Event → Prop
  | advance (next : IoPc) (hpc : pc ≠ .exited) (hstart : next ≠ .start)
      (hexited : next ≠ .exited)
      (hbody : ∀ offset line atEnd, pc ≠ .body offset line atEnd)
      (hnext : ∀ offset line atEnd, next ≠ .body offset line atEnd) :
      IoMoves shared pc shared next []
  | take (line : Bytes) (atEnd : Bool) (hpc : pc = .getline false)
      (hline : getline shared.commandsIn shared.bridge.commandOffset = some (line, atEnd)) :
      IoMoves shared pc
        { shared with bridge := { shared.bridge with
            commandOffset := shared.bridge.commandOffset + (line.length + 1) } }
        (.body shared.bridge.commandOffset line atEnd) []
  | ignore (offset : ℕ) (line : Bytes) (atEnd : Bool) (hpc : pc = .body offset line atEnd)
      (henvelope : lineEnvelope line = none) :
      IoMoves shared pc shared (.getline atEnd) [.lineDone offset line none]
  | submit (offset : ℕ) (line : Bytes) (atEnd : Bool) (env : CommandEnvelope)
      (hpc : pc = .body offset line atEnd) (henvelope : lineEnvelope line = some env) :
      IoMoves shared pc { shared with router := (shared.router.submit env).1 }
        (.getline atEnd) [.lineDone offset line (some (env, (shared.router.submit env).2))]
  | exit (hpc : pc = .exiting) : IoMoves shared pc (shared.finish .io) .exited []

inductive PersistMoves (shared : Shared) (pc : PersistPc) :
    Shared → PersistPc → List Event → Prop
  | advance (next : PersistPc)
      (hpc : pc = .start ∨ pc = .testStop ∨ pc = .sleep)
      (hnext : next = .testStop ∨ next = .exiting ∨ next = .crcPass) :
      PersistMoves shared pc shared next []
  | crcPass (hpc : pc = .crcPass) :
      PersistMoves shared pc shared (.writePass shared.state) [.crcPass shared.state]
  | writePass (summed : PersistentStateV1) (hpc : pc = .writePass summed) :
      PersistMoves shared pc
        { shared with
          disk := { shared.disk with tmp := some (savedFile summed shared.state) } }
        (.rename summed shared.state) [.writePass shared.state]
  | rename (summed written : PersistentStateV1) (hpc : pc = .rename summed written) :
      PersistMoves shared pc { shared with disk := shared.disk.install } .sleep
        [.installed shared.disk.tmp]
  | exit (hpc : pc = .exiting) :
      PersistMoves shared pc (shared.finish .persist) .exited []

/-- A step of the core is a step of one of its threads, or a client's append. -/
inductive Moves (world : World) (core : Core) : Thread → Core → List Event → Prop
  | main (shared : Shared) (pc : MainPc) (events : List Event)
      (hmoves : MainMoves core.shared core.main shared pc events) :
      Moves world core .main { core with shared := shared, main := pc } events
  | estop (shared : Shared) (pc : EStopPc) (events : List Event)
      (hthread : .estop ∈ core.shared.threads)
      (hmoves : EStopMoves core.shared core.estop shared pc events) :
      Moves world core .estop { core with shared := shared, estop := pc } events
  | control (shared : Shared) (pc : ControlPc) (events : List Event)
      (hthread : .control ∈ core.shared.threads)
      (hmoves : ControlMoves world core.shared core.control shared pc events) :
      Moves world core .control { core with shared := shared, control := pc } events
  | sensor (shared : Shared) (pc : SensorPc) (events : List Event)
      (hthread : .sensor ∈ core.shared.threads)
      (hmoves : SensorMoves core.shared core.sensor shared pc events) :
      Moves world core .sensor { core with shared := shared, sensor := pc } events
  | io (shared : Shared) (pc : IoPc) (events : List Event)
      (hthread : .io ∈ core.shared.threads)
      (hmoves : IoMoves core.shared core.io shared pc events) :
      Moves world core .io { core with shared := shared, io := pc } events
  | persist (shared : Shared) (pc : PersistPc) (events : List Event)
      (hthread : .persist ∈ core.shared.threads)
      (hmoves : PersistMoves core.shared core.persist shared pc events) :
      Moves world core .persist { core with shared := shared, persist := pc } events
  | append :
      Moves world core .client
        { core with shared := { core.shared with
            commandsIn := core.shared.commandsIn ++ world.chunk } } []

section Inversion

variable {world : World} {shared next : Shared} {events : List Event}

theorem mainMoves_of_step {pc after : MainPc}
    (hstep : mainStep world shared pc = some (next, after, events)) :
    MainMoves shared pc next after events := by
  cases hpc : pc with
  | returned code => simp [hpc, mainStep] at hstep
  | bringup =>
      simp only [hpc, mainStep] at hstep
      split at hstep <;> cases hstep
      · exact .bringup rfl
      · exact .bringupRefused rfl
  | calibrate =>
      simp only [hpc, mainStep, calibrationSequence, if_true] at hstep
      cases hstep
      exact .calibrate rfl
  | registering count =>
      simp only [hpc, mainStep] at hstep
      split at hstep <;> cases hstep
      · exact .register count _ _ rfl ‹_›
      · exact .registered count rfl ‹_›
  | enable =>
      simp only [hpc, mainStep, DriveSystemStub.enable, if_true] at hstep
      cases hstep
      exact .enable rfl
  | spawning count =>
      simp only [hpc, mainStep] at hstep
      split at hstep <;> cases hstep
      · exact .spawn count _ rfl ‹_›
      · exact .spawned count rfl ‹_›
  | testStop =>
      simp only [hpc, mainStep] at hstep
      split at hstep <;> cases hstep
      · exact .leave rfl ‹_›
      · exact .wait rfl (Bool.eq_false_of_not_eq_true ‹_›)
  | sampleLatch code =>
      simp only [hpc, mainStep] at hstep
      split at hstep <;> cases hstep
      · exact .sampleLatched code rfl ‹_›
      · exact .sampleClear code rfl (Bool.eq_false_of_not_eq_true ‹_›)
  | joining code count =>
      simp only [hpc, mainStep] at hstep
      split at hstep
      · split at hstep <;> cases hstep
        exact .join code count _ rfl ‹_› ‹_›
      · cases hstep
        exact .joined code count rfl ‹_›
  | _ =>
      simp only [hpc, mainStep] at hstep
      cases hstep
      constructor
      rfl

theorem estopMoves_of_step {pc after : EStopPc}
    (hstep : estopStep shared pc = some (next, after, events)) :
    EStopMoves shared pc next after events := by
  cases hpc : pc with
  | exited => simp [hpc, estopStep] at hstep
  | testStop =>
      simp only [hpc, estopStep] at hstep
      split at hstep <;> cases hstep
      · exact .leave rfl ‹_›
      · exact .stay rfl (Bool.eq_false_of_not_eq_true ‹_›)
  | testLatch =>
      simp only [hpc, estopStep] at hstep
      split at hstep <;> cases hstep
      · exact .sawLatch rfl ‹_›
      · exact .sawClear rfl (Bool.eq_false_of_not_eq_true ‹_›)
  | sleep =>
      simp only [hpc, estopStep] at hstep
      cases hstep
      exact .sleep rfl
  | _ =>
      simp only [hpc, estopStep] at hstep
      cases hstep
      constructor
      rfl

theorem handlerMoves_of_step {pc after : HandlerPc}
    (hstep : handlerStep shared pc = some (next, after, events)) :
    HandlerMoves shared pc next after events := by
  cases hpc : pc with
  | returned result => simp [hpc, handlerStep] at hstep
  | triggerExchange =>
      cases hlatched : shared.estop.latched with
      | false =>
          simp only [hpc, handlerStep, EStopLatch.exchange, hlatched] at hstep
          cases hstep
          exact .latch rfl hlatched
      | true =>
          simp only [hpc, handlerStep, EStopLatch.exchange, hlatched] at hstep
          cases hstep
          exact .latchedBefore rfl hlatched
  | testLatch =>
      simp only [hpc, handlerStep] at hstep
      split at hstep <;> cases hstep
      · exact .refuse rfl ‹_›
      · exact .permit rfl (Bool.eq_false_of_not_eq_true ‹_›)
  | _ =>
      simp only [hpc, handlerStep] at hstep
      cases hstep
      constructor
      rfl

theorem controlMoves_of_step {pc after : ControlPc}
    (hstep : controlStep world shared pc = some (next, after, events)) :
    ControlMoves world shared pc next after events := by
  cases hpc : pc with
  | exited => simp [hpc, controlStep] at hstep
  | testStop =>
      simp only [hpc, controlStep] at hstep
      split at hstep <;> cases hstep
      · exact .leave rfl ‹_›
      · exact .stay rfl (Bool.eq_false_of_not_eq_true ‹_›)
  | testLatch =>
      simp only [hpc, controlStep] at hstep
      split at hstep <;> cases hstep
      · exact .sawLatch rfl ‹_›
      · exact .sawClear rfl (Bool.eq_false_of_not_eq_true ‹_›)
  | processOne nowNs left =>
      cases left with
      | zero =>
          simp only [hpc, controlStep] at hstep
          cases hstep
          exact .batchDone nowNs rfl
      | succ left =>
          simp only [hpc, controlStep] at hstep
          split at hstep
          · rename_i hnone
            cases hstep
            exact .queueEmpty nowNs left rfl (takeFront_eq_none_iff.1 hnone)
          · rename_i cmd handler router hfront
            obtain ⟨hq, rfl, hrouter⟩ := takeFront_eq_some_iff.1 hfront
            cases hstep
            rw [hrouter]
            exact .dequeue nowNs left cmd router.q rfl hq
  | admitting nowNs left cmd handler =>
      simp only [hpc, controlStep] at hstep
      split at hstep
      · rename_i result hdispatch
        cases hstep
        exact .refuse nowNs left cmd handler result rfl hdispatch
      · rename_i admitted hdispatch
        obtain ⟨hfresh, rfl⟩ := dispatch_ok_iff.1 hdispatch
        cases hstep
        exact .call nowNs left cmd admitted rfl hfresh
  | handling nowNs left cmd running =>
      cases hrunning : running with
      | returned result =>
          simp only [hpc, hrunning, controlStep] at hstep
          cases hstep
          exact .handled nowNs left cmd result rfl
      | _ =>
          simp only [hpc, hrunning, controlStep, Option.map_eq_some_iff] at hstep
          obtain ⟨⟨shared', pc', events'⟩, hhandler, heq⟩ := hstep
          cases heq
          exact .handle nowNs left cmd _ pc' _ _ rfl (handlerMoves_of_step hhandler)
  | callback nowNs left cmd result =>
      simp only [hpc, controlStep] at hstep
      split at hstep <;> cases hstep
      · exact .report nowNs left cmd result rfl ‹_›
      · exact .reportStored nowNs left cmd result rfl ‹_›
  | publishing nowNs left cmd result =>
      simp only [hpc, controlStep] at hstep
      split at hstep <;> cases hstep
      · exact .publish nowNs left cmd result rfl
      · exact .publishFailed nowNs left cmd result rfl (Bool.eq_false_of_not_eq_true ‹_›)
  | _ =>
      simp only [hpc, controlStep] at hstep
      cases hstep
      constructor
      rfl

theorem sensorMoves_of_step {pc after : SensorPc}
    (hstep : sensorStep world shared pc = some (next, after, events)) :
    SensorMoves shared pc next after events := by
  cases hpc : pc with
  | exited => simp [hpc, sensorStep] at hstep
  | testStop =>
      simp only [hpc, sensorStep] at hstep
      split at hstep <;> cases hstep <;> exact .advance _ (by simp) (by simp) (by simp) (by simp)
  | publishing frame =>
      simp only [hpc, sensorStep] at hstep
      split at hstep <;> cases hstep
      · exact .publish frame rfl
      · exact .advance _ (by simp) (by simp) (by simp) (by simp)
  | exiting =>
      simp only [hpc, sensorStep] at hstep
      cases hstep
      exact .exit rfl
  | _ =>
      simp only [hpc, sensorStep] at hstep
      cases hstep
      exact .advance _ (by simp) (by simp) (by simp) (by simp +contextual)

theorem ioMoves_of_step {pc after : IoPc}
    (hstep : ioStep world shared pc = some (next, after, events)) :
    IoMoves shared pc next after events := by
  cases hpc : pc with
  | exited => simp [hpc, ioStep] at hstep
  | testStop | opening =>
      simp only [hpc, ioStep] at hstep
      split at hstep <;> cases hstep <;>
        exact .advance _ (by simp) (by simp) (by simp) (by simp) (by simp)
  | getline atEnd =>
      cases atEnd with
      | true =>
          simp only [hpc, ioStep] at hstep
          cases hstep
          exact .advance _ (by simp) (by simp) (by simp) (by simp) (by simp)
      | false =>
          simp only [hpc, ioStep] at hstep
          split at hstep <;> cases hstep
          · exact .advance _ (by simp) (by simp) (by simp) (by simp) (by simp)
          · exact .take _ _ rfl ‹_›
  | body offset line atEnd =>
      simp only [hpc, ioStep] at hstep
      split at hstep <;> cases hstep
      · exact .ignore offset line atEnd rfl ‹_›
      · exact .submit offset line atEnd _ rfl ‹_›
  | exiting =>
      simp only [hpc, ioStep] at hstep
      cases hstep
      exact .exit rfl
  | _ =>
      simp only [hpc, ioStep] at hstep
      cases hstep
      exact .advance _ (by simp) (by simp) (by simp) (by simp) (by simp)

theorem persistMoves_of_step {pc after : PersistPc}
    (hstep : persistStep shared pc = some (next, after, events)) :
    PersistMoves shared pc next after events := by
  cases hpc : pc with
  | exited => simp [hpc, persistStep] at hstep
  | testStop =>
      simp only [hpc, persistStep] at hstep
      split at hstep <;> cases hstep <;> exact .advance _ (by simp) (by simp)
  | crcPass =>
      simp only [hpc, persistStep] at hstep
      cases hstep
      exact .crcPass rfl
  | writePass summed =>
      simp only [hpc, persistStep] at hstep
      cases hstep
      exact .writePass summed rfl
  | rename summed written =>
      simp only [hpc, persistStep] at hstep
      cases hstep
      exact .rename summed written rfl
  | exiting =>
      simp only [hpc, persistStep] at hstep
      cases hstep
      exact .exit rfl
  | _ =>
      simp only [hpc, persistStep] at hstep
      cases hstep
      exact .advance _ (by simp) (by simp)

end Inversion

/-- The step function takes no other steps. -/
theorem moves_of_step {core next : Core} {label : Thread × World} {events : List Event}
    (hstep : step core label = some (next, events)) :
    Moves label.2 core label.1 next events := by
  obtain ⟨thread, world⟩ := label
  cases thread with
  | main =>
      simp only [step, Option.map_eq_some_iff] at hstep
      obtain ⟨⟨shared, pc, events⟩, hmain, heq⟩ := hstep
      cases heq
      exact .main _ _ _ (mainMoves_of_step hmain)
  | client =>
      simp only [step] at hstep
      cases hstep
      exact .append
  | estop =>
      simp only [step] at hstep
      split at hstep
      · simp only [Option.map_eq_some_iff] at hstep
        obtain ⟨⟨shared, pc, events⟩, hthread, heq⟩ := hstep
        cases heq
        exact .estop _ _ _ ‹_› (estopMoves_of_step hthread)
      · cases hstep
  | control =>
      simp only [step] at hstep
      split at hstep
      · simp only [Option.map_eq_some_iff] at hstep
        obtain ⟨⟨shared, pc, events⟩, hthread, heq⟩ := hstep
        cases heq
        exact .control _ _ _ ‹_› (controlMoves_of_step hthread)
      · cases hstep
  | sensor =>
      simp only [step] at hstep
      split at hstep
      · simp only [Option.map_eq_some_iff] at hstep
        obtain ⟨⟨shared, pc, events⟩, hthread, heq⟩ := hstep
        cases heq
        exact .sensor _ _ _ ‹_› (sensorMoves_of_step hthread)
      · cases hstep
  | io =>
      simp only [step] at hstep
      split at hstep
      · simp only [Option.map_eq_some_iff] at hstep
        obtain ⟨⟨shared, pc, events⟩, hthread, heq⟩ := hstep
        cases heq
        exact .io _ _ _ ‹_› (ioMoves_of_step hthread)
      · cases hstep
  | persist =>
      simp only [step] at hstep
      split at hstep
      · simp only [Option.map_eq_some_iff] at hstep
        obtain ⟨⟨shared, pc, events⟩, hthread, heq⟩ := hstep
        cases heq
        exact .persist _ _ _ ‹_› (persistMoves_of_step hthread)
      · cases hstep

/-- Only the control thread moves its program counter. -/
theorem Moves.control_of_ne {world : World} {core next : Core} {thread : Thread}
    {events : List Event} (hmoves : Moves world core thread next events)
    (hother : thread ≠ .control) : next.control = core.control := by
  cases hmoves with
  | control shared pc events hthread hmoves => exact absurd rfl hother
  | _ => rfl

/-- Only the E-STOP thread moves its program counter. -/
theorem Moves.estop_of_ne {world : World} {core next : Core} {thread : Thread}
    {events : List Event} (hmoves : Moves world core thread next events)
    (hother : thread ≠ .estop) : next.estop = core.estop := by
  cases hmoves with
  | estop shared pc events hthread hmoves => exact absurd rfl hother
  | _ => rfl

/-! ## The path of a command -/

/-- What happens to a command on its way from the file to its result. -/
def Event.OnPath : Event → Prop
  | .lineDone _ _ _ | .dequeued _ _ | .handlerCalled _ | .processed _ _ | .published _ _ => True
  | _ => False

/-- A step of a thread that commands do not pass through. -/
structure Aside (core next : Core) (events : List Event) : Prop where
  silent : ∀ event ∈ events, ¬ event.OnPath
  control : next.control = core.control
  io : next.io = core.io
  queue : next.shared.router.q = core.shared.router.q
  commandsIn : next.shared.commandsIn = core.shared.commandsIn
  commandOffset : next.shared.bridge.commandOffset = core.shared.bridge.commandOffset

theorem Aside.filterMap_eq_nil {Found : Type} {core next : Core} {events : List Event}
    {find : Event → Option Found} (haside : Aside core next events)
    (hfind : ∀ event, ¬ event.OnPath → find event = none) : events.filterMap find = [] :=
  List.filterMap_eq_nil_iff.2 fun event hmem => hfind event (haside.silent event hmem)

/-- The steps as seen from a command: the IO thread's, the control thread's, a
client's, and those aside. -/
inductive PathMoves (world : World) (core : Core) : Thread → Core → List Event → Prop
  | control (shared : Shared) (pc : ControlPc) (events : List Event)
      (hthread : .control ∈ core.shared.threads)
      (hmoves : ControlMoves world core.shared core.control shared pc events) :
      PathMoves world core .control { core with shared := shared, control := pc } events
  | io (shared : Shared) (pc : IoPc) (events : List Event)
      (hthread : .io ∈ core.shared.threads)
      (hmoves : IoMoves core.shared core.io shared pc events) :
      PathMoves world core .io { core with shared := shared, io := pc } events
  | append :
      PathMoves world core .client
        { core with shared := { core.shared with
            commandsIn := core.shared.commandsIn ++ world.chunk } } []
  | aside (thread : Thread) (next : Core) (events : List Event)
      (haside : Aside core next events) : PathMoves world core thread next events

theorem Moves.path {world : World} {core next : Core} {thread : Thread}
    {events : List Event} (hmoves : Moves world core thread next events) :
    PathMoves world core thread next events := by
  cases hmoves with
  | control shared pc events hthread hmoves => exact .control shared pc events hthread hmoves
  | io shared pc events hthread hmoves => exact .io shared pc events hthread hmoves
  | append => exact .append
  | main shared pc events hmoves | estop shared pc events hthread hmoves
  | sensor shared pc events hthread hmoves | persist shared pc events hthread hmoves =>
      refine .aside _ _ _ ⟨?_, rfl, rfl, ?_, ?_, ?_⟩
      · cases hmoves <;> simp [Event.OnPath]
      all_goals cases hmoves <;> rfl

end ArcravenUgv.Runtime
