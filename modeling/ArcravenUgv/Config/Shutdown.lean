import ArcravenUgv.Config.Drives
import ArcravenUgv.Config.Lifetimes
import ArcravenUgv.Config.PersistRace
import ArcravenUgv.Config.Verdicts

/-!
# The state file and the end of a run

`state_` is the loaded file with the calibration set, and its `last_authority` is
that of the last command executed.  When `run` has returned, every thread is
done and the file holds this state.
-/

namespace ArcravenUgv.Shutdown

open ArcravenUgv.Enums
open ArcravenUgv.Command
open ArcravenUgv.Command.CommandRouter
open ArcravenUgv.Decimal
open ArcravenUgv.Handlers
open ArcravenUgv.StateStore
open ArcravenUgv.SaveFaults
open ArcravenUgv.Runs
open ArcravenUgv.Runtime
open ArcravenUgv.Verdicts

/-! ## What `state_` holds -/

def executedAuthority : Event → Option UInt8
  | .processed cmd result => if result.status = .rejected then none else some cmd.authority
  | _ => none

/-- The authorities of the commands that were not rejected. -/
def executedAuthorities (trace : List Event) : List UInt8 := trace.filterMap executedAuthority

@[simp]
theorem executedAuthorities_append (trace events : List Event) :
    executedAuthorities (trace ++ events) =
      executedAuthorities trace ++ executedAuthorities events :=
  List.filterMap_append ..

/-- What `load` makes of the file the process finds. -/
def loaded (dir : DataDir) : PersistentStateV1 := (load dir.disk.live).getD {}

/-- The loaded state, calibrated, with this authority. -/
def calibrated (dir : DataDir) (authority : UInt8) : PersistentStateV1 :=
  { loaded dir with calibratedOk := 1, lastAuthority := authority }

/-- The authority of the last command executed. -/
def lastExecuted (trace : List Event) : UInt8 :=
  (executedAuthorities trace).getLastD CommandAuthority.unknown.wire

theorem lastExecuted_quiet {trace events : List Event}
    (hnone : executedAuthorities events = []) :
    lastExecuted (trace ++ events) = lastExecuted trace := by
  rw [lastExecuted, executedAuthorities_append, hnone, List.append_nil, lastExecuted]

theorem lastExecuted_concat {trace events : List Event} {authority : UInt8}
    (hexecuted : executedAuthorities events = [authority]) :
    lastExecuted (trace ++ events) = authority := by
  rw [lastExecuted, executedAuthorities_append, hexecuted, List.getLastD_concat]

theorem storeAuthority_calibrated {dir : DataDir} {shared : Shared} {authority before : UInt8}
    (hstate : shared.state = calibrated dir before) :
    (shared.storeAuthority authority).state = calibrated dir authority := by
  simp only [Shared.storeAuthority, hstate, calibrated]

/-- The control thread forgets the authority of the file when it starts. -/
def authority (dir : DataDir) (trace : List Event) (core : Core) : UInt8 :=
  if core.control = .start then (loaded dir).lastAuthority else lastExecuted trace

/-- `run` has not come to `load`, or never will. -/
def Fresh : MainPc → Prop
  | .bringup | .bringupFailed | .startEstop | .loadState => True
  | .returned code => code ≠ 0
  | _ => False

/-- `safe_shutdown` has saved the state. -/
def SavedFinally : MainPc → Prop
  | .finish _ => True
  | .returned code => code = 0
  | _ => False

structure Recorded (dir : DataDir) (trace : List Event) (core : Core) : Prop where
  fresh : Fresh core.main → core.shared.disk = dir.disk
  calibrating : core.main = .calibrate →
    core.shared.state = loaded dir ∧ core.shared.disk = dir.disk
  state : ¬ Fresh core.main → core.main ≠ .calibrate →
    core.shared.state = calibrated dir (authority dir trace core)
  idle : core.control = .start → executedAuthorities trace = []
  final : SavedFinally core.main →
    core.shared.disk = { live := some (fileImage core.shared.state), tmp := none }

section Recorded

variable {dir : DataDir} {trace events : List Event} {world : World} {core next : Core}

/-- A step that touches neither `state_` nor its file. -/
theorem Recorded.quiet (hrecorded : Recorded dir trace core) (hmain : next.main = core.main)
    (hcontrol : next.control = core.control) (hstate : next.shared.state = core.shared.state)
    (hdisk : next.shared.disk = core.shared.disk) (hexecuted : executedAuthorities events = []) :
    Recorded dir (trace ++ events) next where
  fresh := by rw [hmain, hdisk]; exact hrecorded.fresh
  calibrating := by rw [hmain, hdisk, hstate]; exact hrecorded.calibrating
  state := by
    have hauthority : authority dir (trace ++ events) next = authority dir trace core := by
      rw [authority, authority, hcontrol, lastExecuted_quiet hexecuted]
    rw [hmain, hstate, hauthority]
    exact hrecorded.state
  idle := by
    rw [hcontrol, executedAuthorities_append, hexecuted, List.append_nil]
    exact hrecorded.idle
  final := by rw [hmain, hdisk, hstate]; exact hrecorded.final

/-- A thread runs only between the calibration and the last save. -/
theorem between_of_mem {thread : Thread} (hboot : Boot core)
    (hthread : thread ∈ core.shared.threads) (hother : thread ≠ .estop) :
    ¬ Fresh core.main ∧ core.main ≠ .calibrate ∧ ¬ SavedFinally core.main := by
  rw [hboot.threads] at hthread
  cases hmain : core.main <;>
    simp_all [MainPc.running, MainPc.started, Fresh, SavedFinally]

/-- A step of the control thread that leaves this authority. -/
theorem recorded_of_control {shared : Shared} {pc : ControlPc} (hboot : Boot core)
    (hthread : .control ∈ core.shared.threads) (hpc : pc ≠ .start)
    (hstate : shared.state = calibrated dir (lastExecuted (trace ++ events))) :
    Recorded dir (trace ++ events) { core with shared := shared, control := pc } := by
  obtain ⟨hfresh, hcalibrate, hsaved⟩ := between_of_mem hboot hthread (by simp)
  exact {
    fresh := fun h => absurd h hfresh
    calibrating := fun h => absurd h hcalibrate
    state := fun _ _ => by rw [hstate, authority, if_neg hpc]
    idle := fun h => absurd h hpc
    final := fun h => absurd h hsaved }

theorem Recorded.control {shared : Shared} {pc : ControlPc} (hrecorded : Recorded dir trace core)
    (hboot : Boot core) (hthread : .control ∈ core.shared.threads)
    (hmoves : ControlMoves world core.shared core.control shared pc events) :
    Recorded dir (trace ++ events) { core with shared := shared, control := pc } := by
  obtain ⟨hfresh, hcalibrate, hsaved⟩ := between_of_mem hboot hthread (by simp)
  have hstate := hrecorded.state hfresh hcalibrate
  have hsame (hbusy : core.control ≠ .start) (hnone : executedAuthorities events = []) :
      core.shared.state = calibrated dir (lastExecuted (trace ++ events)) := by
    rw [hstate, authority, if_neg hbusy, lastExecuted_quiet hnone]
  cases hmoves with
  | start hpc =>
      refine recorded_of_control hboot hthread (by simp) ?_
      rw [storeAuthority_calibrated hstate, lastExecuted_quiet rfl, lastExecuted,
        hrecorded.idle hpc]
      rfl
  | reportStored nowNs left cmd result hpc hrejected =>
      refine recorded_of_control hboot hthread (by simp) ?_
      rw [storeAuthority_calibrated hstate, lastExecuted_concat]
      simp [executedAuthorities, executedAuthority, hrejected]
  | report nowNs left cmd result hpc hrejected =>
      refine recorded_of_control hboot hthread (by simp) (hsame (by simp [hpc]) ?_)
      simp [executedAuthorities, executedAuthority, hrejected]
  | handle nowNs left cmd before after shared events hpc hhandler =>
      have hbusy : core.control ≠ .start := by simp [hpc]
      cases hhandler <;> exact recorded_of_control hboot hthread (by simp) (hsame hbusy rfl)
  | _ => exact recorded_of_control hboot hthread (by simp) (hsame (by simp [*]) rfl)

/-- A step of `run` that leaves `state_` as it is. -/
theorem Recorded.advance {shared : Shared} {pc : MainPc} (hrecorded : Recorded dir trace core)
    (hnone : executedAuthorities events = []) (hstate : shared.state = core.shared.state)
    (hfresh : Fresh pc → Fresh core.main ∧ shared.disk = core.shared.disk)
    (hcalibrate : pc ≠ .calibrate)
    (hlater : ¬ Fresh pc → ¬ Fresh core.main ∧ core.main ≠ .calibrate)
    (hfinal : SavedFinally pc →
      shared.disk = { live := some (fileImage shared.state), tmp := none }) :
    Recorded dir (trace ++ events) { core with shared := shared, main := pc } where
  fresh := fun h => (hfresh h).2.trans (hrecorded.fresh (hfresh h).1)
  calibrating := fun h => absurd h hcalibrate
  state := fun h _ => by
    have hsame : authority dir (trace ++ events) { core with shared := shared, main := pc } =
        authority dir trace core := by rw [authority, authority, lastExecuted_quiet hnone]
    rw [hstate, hsame]
    exact hrecorded.state (hlater h).1 (hlater h).2
  idle := fun h => by
    rw [executedAuthorities_append, hnone, List.append_nil]
    exact hrecorded.idle h
  final := hfinal

theorem Recorded.main {shared : Shared} {pc : MainPc} (hrecorded : Recorded dir trace core)
    (hboot : Boot core) (hmoves : MainMoves core.shared core.main shared pc events) :
    Recorded dir (trace ++ events) { core with shared := shared, main := pc } := by
  have hlive := hboot.live
  have hidle : Thread.control ∉ core.main.started → core.control = .start := hboot.idle .control
  cases hmoves with
  | calibrationFailed hpc | enableFailed hpc =>
      rw [hpc] at hlive
      exact hlive.elim
  | loadState hpc =>
      have hdisk := hrecorded.fresh (by simp [hpc, Fresh])
      exact {
        fresh := fun h => h.elim
        calibrating := fun _ => ⟨by rw [hdisk]; rfl, hdisk⟩
        state := fun _ h => absurd rfl h
        idle := fun h => by simpa using hrecorded.idle h
        final := fun h => h.elim }
  | calibrate hpc =>
      obtain ⟨hstate, -⟩ := hrecorded.calibrating hpc
      have hstart := hidle (by simp [hpc, MainPc.started])
      exact {
        fresh := fun h => h.elim
        calibrating := fun h => by cases h
        state := fun _ _ => by rw [authority, if_pos hstart, hstate, calibrated]
        idle := fun h => by simpa using hrecorded.idle h
        final := fun h => h.elim }
  | saveCalibrated hpc | saveFinal code hpc =>
      exact hrecorded.advance rfl rfl (fun h => h.elim) (by simp)
        (fun _ => by simp [hpc, Fresh]) (fun _ => core.shared.saveState_disk)
  | finish code hpc =>
      rw [hpc] at hlive
      obtain rfl : code = 0 := hlive
      exact hrecorded.advance rfl rfl (by simp [Fresh]) (by simp) (fun _ => by simp [hpc, Fresh])
        (fun _ => hrecorded.final (by simp [hpc, SavedFinally]))
  | bringup hpc | bringupRefused hpc | bringupFailed hpc | startEstop hpc =>
      exact hrecorded.advance rfl rfl (fun _ => by simp [hpc, Fresh]) (by simp)
        (by simp [Fresh]) (by simp [SavedFinally])
  | _ =>
      exact hrecorded.advance rfl rfl (by simp [Fresh]) (by simp) (fun _ => by simp [Fresh, *])
        (by simp [SavedFinally])

theorem Recorded.moves {thread : Thread} (hrecorded : Recorded dir trace core) (hboot : Boot core)
    (hmoves : Moves world core thread next events) : Recorded dir (trace ++ events) next := by
  cases hmoves with
  | main shared pc events hmoves => exact hrecorded.main hboot hmoves
  | control shared pc events hthread hmoves => exact hrecorded.control hboot hthread hmoves
  | persist shared pc events hthread hmoves =>
      obtain ⟨hfresh, hcalibrate, hsaved⟩ := between_of_mem hboot hthread (by simp)
      have hstate : shared.state = core.shared.state := by cases hmoves <;> rfl
      have hnone : executedAuthorities events = [] := by cases hmoves <;> rfl
      refine ⟨fun h => absurd h hfresh, fun h => absurd h hcalibrate, fun _ _ => ?_, fun h => ?_,
        fun h => absurd h hsaved⟩
      · rw [show shared.state = core.shared.state from hstate,
          hrecorded.state hfresh hcalibrate, authority, authority, lastExecuted_quiet hnone]
      · rw [executedAuthorities_append, hnone, List.append_nil]
        exact hrecorded.idle h
  | append => exact hrecorded.quiet rfl rfl rfl rfl rfl
  | estop shared pc events hthread hmoves | sensor shared pc events hthread hmoves
  | io shared pc events hthread hmoves =>
      cases hmoves <;> exact hrecorded.quiet rfl rfl rfl rfl rfl

end Recorded

theorem Recorded.run {allowed : Core → Thread × World → Prop} {dir : DataDir}
    {trace : List Event} {core : Core}
    (hrun : Run system allowed (powerOn dir) trace core) : Recorded dir trace core := by
  refine hrun.invariant (Recorded dir) ⟨fun _ => rfl, fun h => (by cases h),
    fun h => absurd trivial h, fun _ => rfl, fun h => h.elim⟩ ?_
  intro trace core label next events hrun hrecorded _ hstep
  exact hrecorded.moves (Boot.run hrun) (moves_of_step hstep)

/-! ## The end of `run` -/

/-- The drives are not enabled yet, or no longer. -/
def Off : MainPc → Prop
  | .enableFailed | .spawning _ | .testStop | .requestStop _ | .sampleLatch _ => False
  | .driveEstop _ | .driveDisable _ => False
  | _ => True

theorem drives_off {allowed : Core → Thread × World → Prop} {dir : DataDir}
    {trace : List Event} {core : Core}
    (hrun : Run system allowed (powerOn dir) trace core) (hoff : Off core.main) :
    core.shared.drives.enabled = false := by
  refine hrun.invariant
    (fun _ core => Off core.main → core.shared.drives.enabled = false) (fun _ => rfl) ?_ hoff
  intro trace core label next events _ hinv _ hstep hnext
  have hmoves := moves_of_step hstep
  by_cases hmain : label.1 = .main
  · obtain ⟨thread, world⟩ := label
    obtain rfl : thread = .main := hmain
    cases hmoves with
    | main shared pc events hmoves =>
        cases hmoves with
        | enable hpc => exact hnext.elim
        | driveEstop code hpc | driveDisable code hpc => rfl
        | _ => simp_all [Off, Shared.saveState]
  · refine (onward_of_moves hmoves fun h => absurd h hmain).drives (hinv ?_)
    rwa [← Drives.main_of_moves hmoves hmain]

/-- A core whose bridge did not open. -/
structure Refused (dir : DataDir) (trace : List Event) (core : Core) : Prop where
  trace : trace = [.runReturned 2]
  drives : core.shared.drives.enabled = false
  telemetryOut : core.shared.telemetryOut = dir.telemetryOut
  disk : core.shared.disk = dir.disk

/-- A core that has shut down, its saves having met no fault: every thread is done,
every command taken has its verdict, and the state file holds the authority of the
last command executed. -/
structure CleanExit (dir : DataDir) (trace : List Event) (core : Core) : Prop where
  threads : ∀ thread ∈ allThreads, core.Exited thread
  stop : core.shared.stop.stop = true
  drives : core.shared.drives.enabled = false
  answered : List.Forall₂ Decides (takenCommands trace) (verdicts trace)
  disk : core.shared.disk =
    { live := some (fileImage (calibrated dir (lastExecuted trace))), tmp := none }

/-- Without threads only `run` itself and the clients move. -/
theorem client_of_moves {world : World} {core next : Core} {thread : Thread} {events : List Event}
    (hmoves : Moves world core thread next events) (hthreads : core.shared.threads = [])
    (hmain : thread ≠ .main) : thread = .client ∧ events = [] := by
  cases hmoves with
  | main shared pc events hmoves => exact absurd rfl hmain
  | append => exact ⟨rfl, rfl⟩
  | estop shared pc events hthread hmoves | control shared pc events hthread hmoves
  | sensor shared pc events hthread hmoves | io shared pc events hthread hmoves
  | persist shared pc events hthread hmoves =>
      rw [hthreads] at hthread
      cases hthread

/-- Until the bridge is up nothing happens. -/
theorem trace_of_broughtUp {allowed : Core → Thread × World → Prop} {dir : DataDir}
    {trace : List Event} {core : Core} (hrun : Run system allowed (powerOn dir) trace core) :
    (core.main = .bringup ∨ core.main = .bringupFailed → trace = []) ∧
      (core.main = .returned 2 → trace = [.runReturned 2]) := by
  refine hrun.invariant (fun trace core =>
    (core.main = .bringup ∨ core.main = .bringupFailed → trace = []) ∧
      (core.main = .returned 2 → trace = [.runReturned 2])) ⟨fun _ => rfl, fun h => (by cases h)⟩ ?_
  intro trace core label next events hrun hinv _ hstep
  have hboot := Boot.run hrun
  have hlive := hboot.live
  have hmoves := moves_of_step hstep
  by_cases hmain : label.1 = .main
  · obtain ⟨thread, world⟩ := label
    obtain rfl : thread = .main := hmain
    cases hmoves with
    | main shared pc events hmoves =>
        cases hmoves with
        | finish code hpc =>
            rw [hpc] at hlive
            obtain rfl : code = 0 := hlive
            simp
        | bringupRefused hpc | bringupFailed hpc => simp_all
        | _ => simp
  · have hsame := Drives.main_of_moves hmoves hmain
    have hquiet (hnone : core.main.running = []) : events = [] :=
      (client_of_moves hmoves (hboot.threads.trans hnone) hmain).2
    constructor
    · intro hnext
      rw [hsame] at hnext
      rw [hinv.1 hnext, hquiet (by rcases hnext with h | h <;> rw [h] <;> rfl), List.append_nil]
    · intro hnext
      rw [hsame] at hnext
      rw [hinv.2 hnext, hquiet (by rw [hnext]; rfl), List.append_nil]

theorem undecided_of_exited {core : Core} (hexited : core.control = .exited) :
    undecided core.control = none := by
  rw [hexited]
  rfl

theorem cleanExit_of_returned {allowed : Core → Thread × World → Prop} {dir : DataDir}
    {trace : List Event} {core : Core} (hrun : Run system allowed (powerOn dir) trace core)
    (hreturned : core.main = .returned 0) : CleanExit dir trace core := by
  have hboot := Boot.run hrun
  have hrecorded := Recorded.run hrun
  have hfinished : ∀ thread ∈ allThreads, core.Exited thread := fun thread hthread =>
    hboot.finished thread (hboot.joined thread (by rwa [hreturned]))
  have hcontrol : core.control = .exited := hfinished .control (by decide)
  obtain ⟨decided, htaken, hmatch⟩ := Decided.run hrun
  rw [undecided_of_exited hcontrol, Option.toList_none, List.append_nil] at htaken
  refine ⟨hfinished, ?_, drives_off hrun (by rw [hreturned]; trivial), htaken ▸ hmatch, ?_⟩
  · exact (EStopRun.Latch.run hrun).stopped (by rw [hreturned]; rfl)
  · rw [hrecorded.final (by rw [hreturned]; rfl),
      hrecorded.state (by simp [hreturned, Fresh]) (by simp [hreturned]), authority,
      if_neg (by simp [hcontrol])]

/-- `run` returns 2 without having done anything, or 0 after everything is done;
then only clients are left to move. -/
theorem run_returns (dir : DataDir) (trace : List Event) (core : Core) (code : ℕ)
    (hrun : Run system always (powerOn dir) trace core) (hreturned : core.main = .returned code) :
    (code = 2 ∧ Refused dir trace core ∨ code = 0 ∧ CleanExit dir trace core) ∧
      ∀ label next events, Runtime.step core label = some (next, events) →
        label.1 = .client ∧ events = [] := by
  have hboot := Boot.run hrun
  have hlive := hboot.live
  rw [hreturned] at hlive
  refine ⟨?_, fun label next events hstep => ?_⟩
  · rcases hlive with rfl | rfl
    · exact .inr ⟨rfl, cleanExit_of_returned hrun hreturned⟩
    · left
      have htrace := (trace_of_broughtUp hrun).2 hreturned
      refine ⟨rfl, htrace, drives_off hrun (by rw [hreturned]; trivial), ?_,
        (Recorded.run hrun).fresh (by simp [hreturned, Fresh])⟩
      rw [(Acknowledge.Reported.run hrun).file, htrace]
      exact List.append_nil _
  · have hmoves := moves_of_step hstep
    have hthreads : core.shared.threads = [] := by rw [hboot.threads, hreturned]; rfl
    refine client_of_moves hmoves hthreads fun hmain => ?_
    obtain ⟨thread, world⟩ := label
    obtain rfl : thread = .main := hmain
    simp [Runtime.step, hreturned, Runtime.mainStep] at hstep

private def shutdownDir : DataDir := freshDir (ascii "C|1|704|0|0|3|0|0|AA==\n")

/-- A `Shutdown` by mission control, to the end of the process. -/
private theorem exists_shutdown :
    ∃ (trace : List Event) (core : Core),
      Run system ReadLines.WholeLines (powerOn shutdownDir) trace core ∧
        core.main = .returned 0 ∧ executedAuthorities trace = [3] := by
  obtain ⟨⟨core, trace⟩, hexecute, hview⟩ := Option.map_eq_some_iff.1
    (show (execute system ReadLines.WholeLines (powerOn shutdownDir)
        (bootSchedule ++ times 5 .io ++ times 14 .control ++ times 5 .io ++ times 3 .estop ++
          times 3 .sensor ++ times 3 .persist ++ times 12 .main)).map (fun result =>
          (result.1.main, executedAuthorities result.2)) =
      some (.returned 0, [3]) by decide +kernel)
  obtain ⟨hmain, hexecuted⟩ := Prod.mk.inj hview
  exact ⟨trace, core, run_of_execute hexecute, hmain, hexecuted⟩

theorem run_returns_shutdown :
    ∃ (trace : List Event) (core : Core),
      Run system always (powerOn shutdownDir) trace core ∧ core.main = .returned 0 ∧
      CleanExit shutdownDir trace core ∧
      load core.shared.disk.live = some { calibratedOk := 1, lastAuthority := 3 } := by
  obtain ⟨trace, core, hrun, hmain, hexecuted⟩ := exists_shutdown
  have hreturns := run_returns shutdownDir trace core 0 hrun.unrestricted hmain
  have hexit : CleanExit shutdownDir trace core := by
    rcases hreturns.1 with ⟨hcode, -⟩ | ⟨-, hexit⟩
    · cases hcode
    · exact hexit
  refine ⟨trace, core, hrun.unrestricted, hmain, hexit, ?_⟩
  rw [hexit.disk, load_fileImage, lastExecuted, hexecuted]
  rfl

/-! ## Where the content of the file comes from -/

/-- A value `state_` has had: the calibrated state with the authority of the file
the process found, with none, or with that of a command executed since. -/
def Held (dir : DataDir) (trace : List Event) (state : PersistentStateV1) : Prop :=
  ∃ authority, state = calibrated dir authority ∧
    (authority = (loaded dir).lastAuthority ∨ authority = CommandAuthority.unknown.wire ∨
      authority ∈ executedAuthorities trace)

theorem Held.mono {dir : DataDir} {trace : List Event} {state : PersistentStateV1}
    (hheld : Held dir trace state) (events : List Event) : Held dir (trace ++ events) state := by
  obtain ⟨authority, hstate, hauthority⟩ := hheld
  refine ⟨authority, hstate, hauthority.imp_right (Or.imp_right fun hmem => ?_)⟩
  rw [executedAuthorities_append]
  exact List.mem_append_left _ hmem

theorem Recorded.held {dir : DataDir} {trace : List Event} {core : Core}
    (hrecorded : Recorded dir trace core) (hfresh : ¬ Fresh core.main)
    (hcalibrate : core.main ≠ .calibrate) : Held dir trace core.shared.state := by
  refine ⟨_, hrecorded.state hfresh hcalibrate, ?_⟩
  rw [authority]
  split_ifs
  · exact .inl rfl
  · rw [lastExecuted]
    cases hexecuted : executedAuthorities trace using List.reverseRecOn with
    | nil => exact .inr (.inl rfl)
    | append_singleton rest last => exact .inr (.inr (by simp))

/-- A file made of two passes over values that `state_` has had. -/
def Written (dir : DataDir) (trace : List Event) (file : Option Bytes) : Prop :=
  ∃ summed written, Held dir trace summed ∧ Held dir trace written ∧
    file = some (savedFile summed written)

theorem Written.mono {dir : DataDir} {trace : List Event} {file : Option Bytes}
    (hwritten : Written dir trace file) (events : List Event) :
    Written dir (trace ++ events) file := by
  obtain ⟨summed, written, hsummed, hheld, hfile⟩ := hwritten
  exact ⟨summed, written, hsummed.mono events, hheld.mono events, hfile⟩

/-- What a running `save` has read and written so far. -/
def Saving (dir : DataDir) (trace : List Event) (core : Core) : Prop :=
  match core.persist with
  | .writePass summed => Held dir trace summed
  | .rename _ _ => Written dir trace core.shared.disk.tmp
  | _ => True

/-- The state file is the one the process found or one it has written. -/
structure Filed (dir : DataDir) (trace : List Event) (core : Core) : Prop where
  saving : Saving dir trace core
  live : core.shared.disk.live = dir.disk.live ∨ Written dir trace core.shared.disk.live

section Filed

variable {dir : DataDir} {trace events : List Event} {world : World} {core next : Core}

/-- A step that leaves the files alone. -/
theorem Filed.quiet (hfiled : Filed dir trace core) (hpersist : next.persist = core.persist)
    (hdisk : next.shared.disk = core.shared.disk) : Filed dir (trace ++ events) next where
  saving := by
    have hsaving := hfiled.saving
    rw [Saving] at hsaving ⊢
    rw [hpersist, hdisk]
    cases hpc : core.persist with
    | writePass summed =>
        rw [hpc] at hsaving
        exact Held.mono hsaving events
    | rename summed written =>
        rw [hpc] at hsaving
        exact Written.mono hsaving events
    | _ => trivial
  live := by
    rw [hdisk]
    exact hfiled.live.imp_right fun h => h.mono events

theorem Filed.persist {shared : Shared} {pc : PersistPc} (hfiled : Filed dir trace core)
    (hheld : Held dir trace core.shared.state)
    (hmoves : PersistMoves core.shared core.persist shared pc events) :
    Filed dir (trace ++ events) { core with shared := shared, persist := pc } := by
  have hsaving := hfiled.saving
  have hlive := hfiled.live.imp_right fun h => h.mono events
  rw [Saving] at hsaving
  cases hmoves with
  | advance next hpc hnext =>
      refine ⟨?_, hlive⟩
      rcases hnext with rfl | rfl | rfl <;> trivial
  | crcPass hpc => exact ⟨hheld.mono _, hlive⟩
  | writePass summed hpc =>
      rw [hpc] at hsaving
      exact ⟨⟨summed, _, Held.mono hsaving _, hheld.mono _, rfl⟩, hlive⟩
  | rename summed written hpc =>
      rw [hpc] at hsaving
      exact ⟨trivial, .inr (Written.mono hsaving _)⟩
  | exit hpc => exact ⟨trivial, hlive⟩

theorem Filed.main {shared : Shared} {pc : MainPc} (hfiled : Filed dir trace core)
    (hboot : Boot core) (hrecorded : Recorded dir trace core)
    (hmoves : MainMoves core.shared core.main shared pc events) :
    Filed dir (trace ++ events) { core with shared := shared, main := pc } := by
  have hlive := hboot.live
  have hsaved (hfresh : ¬ Fresh core.main) (hcalibrate : core.main ≠ .calibrate)
      (hidle : core.persist = .start ∨ core.persist = .exited) :
      Filed dir (trace ++ events) { core with shared := core.shared.saveState, main := pc } := by
    have hheld := (hrecorded.held hfresh hcalibrate).mono events
    have hlive : core.shared.saveState.disk.live = some (fileImage core.shared.state) := by
      rw [Shared.saveState_disk]
    refine ⟨?_, .inr ⟨_, _, hheld, hheld, hlive⟩⟩
    rcases hidle with h | h <;> simp [Saving, h]
  cases hmoves with
  | calibrationFailed hpc =>
      rw [hpc] at hlive
      exact hlive.elim
  | saveCalibrated hpc =>
      exact hsaved (by simp [hpc, Fresh]) (by simp [hpc])
        (.inl (hboot.idle .persist (by simp [hpc, MainPc.started])))
  | saveFinal code hpc =>
      exact hsaved (by simp [hpc, Fresh]) (by simp [hpc])
        (.inr (hboot.finished .persist (hboot.joined .persist (by
          simp [hpc, MainPc.joined, allThreads, runtimeThreads]))))
  | _ => exact hfiled.quiet rfl rfl

theorem Filed.moves {thread : Thread} (hfiled : Filed dir trace core) (hboot : Boot core)
    (hrecorded : Recorded dir trace core) (hmoves : Moves world core thread next events) :
    Filed dir (trace ++ events) next := by
  cases hmoves with
  | main shared pc events hmoves => exact hfiled.main hboot hrecorded hmoves
  | persist shared pc events hthread hmoves =>
      obtain ⟨hfresh, hcalibrate, -⟩ := between_of_mem hboot hthread (by simp)
      exact hfiled.persist (hrecorded.held hfresh hcalibrate) hmoves
  | control shared pc events hthread hmoves =>
      cases hmoves with
      | handle nowNs left cmd before after shared events hpc hhandler =>
          cases hhandler <;> exact hfiled.quiet rfl rfl
      | _ => exact hfiled.quiet rfl rfl
  | append => exact hfiled.quiet rfl rfl
  | estop shared pc events hthread hmoves | sensor shared pc events hthread hmoves
  | io shared pc events hthread hmoves => cases hmoves <;> exact hfiled.quiet rfl rfl

end Filed

theorem Filed.run {allowed : Core → Thread × World → Prop} {dir : DataDir}
    {trace : List Event} {core : Core}
    (hrun : Run system allowed (powerOn dir) trace core) : Filed dir trace core := by
  refine hrun.invariant (Filed dir) ⟨trivial, .inl rfl⟩ ?_
  intro trace core label next events hrun hfiled _ hstep
  exact hfiled.moves (Boot.run hrun) (Recorded.run hrun) (moves_of_step hstep)

/-- The file loads as it did before, not at all, or as the state the core started
from, calibrated, with an authority that was there or was executed. -/
def Sourced (first : DataDir) (traces : List (List Event)) (file : Option Bytes) : Prop :=
  load file = load first.disk.live ∨ load file = none ∨
    ∃ before authority, (before = loaded first ∨ before = {}) ∧
      load file = some { before with calibratedOk := 1, lastAuthority := authority } ∧
      (authority = before.lastAuthority ∨ authority = CommandAuthority.unknown.wire ∨
        authority ∈ traces.flatMap executedAuthorities)

theorem load_savedFile {summed written state : PersistentStateV1}
    (hload : load (some (savedFile summed written)) = some state) : state = written := by
  rw [savedFile, load_header_state] at hload
  split_ifs at hload
  exact (Option.some.inj hload).symm

/-- What a lifetime may start from is what it may leave. -/
theorem Sourced.live {first dir : DataDir} {traces : List (List Event)} {trace : List Event}
    {core : Core} (hsourced : Sourced first traces dir.disk.live) (hfiled : Filed dir trace core) :
    Sourced first (traces ++ [trace]) core.shared.disk.live := by
  have hbefore : ∃ before, (before = loaded first ∨ before = {}) ∧
      loaded dir = { before with
        calibratedOk := (loaded dir).calibratedOk
        lastAuthority := (loaded dir).lastAuthority } ∧
      ((loaded dir).lastAuthority = before.lastAuthority ∨
        (loaded dir).lastAuthority = CommandAuthority.unknown.wire ∨
        (loaded dir).lastAuthority ∈ traces.flatMap executedAuthorities) := by
    rcases hsourced with hsame | hnone | ⟨before, authority, hbefore, hload, hauthority⟩
    · exact ⟨loaded dir, .inl (by rw [loaded, hsame, loaded]), rfl, .inl rfl⟩
    · exact ⟨loaded dir, .inr (by rw [loaded, hnone]; rfl), rfl, .inl rfl⟩
    · have hloaded : loaded dir =
          { before with calibratedOk := 1, lastAuthority := authority } := by
        rw [loaded, hload]
        rfl
      exact ⟨before, hbefore, by rw [hloaded], by rw [hloaded]; exact hauthority⟩
  rcases hfiled.live with hsame | ⟨summed, written, -, ⟨authority, hwritten, hauthority⟩, hfile⟩
  · rw [hsame]
    rcases hsourced with h | h | ⟨before, authority, hbefore, hload, hauthority⟩
    · exact .inl h
    · exact .inr (.inl h)
    · refine .inr (.inr ⟨before, authority, hbefore, hload, ?_⟩)
      exact hauthority.imp_right (Or.imp_right fun h => by simp [h])
  · cases hload : load core.shared.disk.live with
    | none => exact .inr (.inl hload)
    | some state =>
        obtain ⟨before, hsource, hloaded, hlast⟩ := hbefore
        rw [hfile] at hload
        obtain rfl := load_savedFile hload
        refine .inr (.inr ⟨before, authority, hsource, ?_, ?_⟩)
        · rw [hfile, hload, hwritten, calibrated, hloaded]
        · rcases hauthority with rfl | rfl | hmem
          · exact hlast.imp_right (Or.imp_right fun h => by simp [h])
          · exact .inr (.inl rfl)
          · exact .inr (.inr (by simp [hmem]))

end ArcravenUgv.Shutdown
