import ArcravenUgv.Config.SelfLock
import ArcravenUgv.Config.Shutdown
import ArcravenUgv.Lib.Ranked

/-!
# `run` comes to its end

Once the stop flag is set and the clients have stopped writing, every step of the
core brings the return of `run` closer.  The IO thread tests the flag only after
it has read the command file to its end, so the clients do matter.
-/

namespace ArcravenUgv.Terminates

open ArcravenUgv.Enums
open ArcravenUgv.Command
open ArcravenUgv.Command.CommandRouter
open ArcravenUgv.Decimal
open ArcravenUgv.Handlers
open ArcravenUgv.CommandLine
open ArcravenUgv.Bridge
open ArcravenUgv.Runs
open ArcravenUgv.Fair
open ArcravenUgv.Mutex
open ArcravenUgv.Logger
open ArcravenUgv.Runtime
open ArcravenUgv.Locks
open ArcravenUgv.SelfLock

/-! ## How far each thread has to go -/

/-- The steps `run` has left, its waits for other threads not counted. -/
def mainLeft : MainPc → ℕ
  | .bringup => 84
  | .startEstop => 83
  | .loadState => 82
  | .calibrate => 81
  | .saveCalibrated => 80
  | .registering count => 32 + (defaultHandlers.length - count)
  | .enable => 31
  | .enableFailed => 31
  | .spawning count => 20 + (runtimeThreads.length - count)
  | .testStop => 19
  | .requestStop _ => 18
  | .sampleLatch _ => 17
  | .driveEstop _ | .driveDisable _ => 16
  | .joining _ count => 3 + (allThreads.length - count)
  | .saveFinal _ => 2
  | .finish _ | .bringupFailed | .calibrationFailed => 1
  | .returned _ => 0

def estopLeft : EStopPc → ℕ
  | .testLatch => 6
  | .driveEstop => 5
  | .requestStop => 4
  | .start | .sleep => 3
  | .testStop => 2
  | .exiting => 1
  | .exited => 0

def handlerLeft : HandlerPc → ℕ
  | .triggerExchange => 3
  | .triggerStore | .testLatch => 2
  | .requestStop _ | .disableDrives => 1
  | .returned _ => 0

/-- A batch takes at most eight commands, whatever is queued. -/
def controlLeft : ControlPc → ℕ
  | .testLatch => 78
  | .sampleClock => 77
  | .processOne _ left => 4 + 9 * left
  | .publishing _ left _ _ => 5 + 9 * left
  | .callback _ left _ _ => 6 + 9 * left
  | .handling _ left _ pc => 7 + handlerLeft pc + 9 * left
  | .admitting _ left _ _ => 11 + 9 * left
  | .start | .sleep => 3
  | .testStop => 2
  | .exiting => 1
  | .exited => 0

def sensorLeft : SensorPc → ℕ
  | .sample => 5
  | .publishing _ => 4
  | .start | .sleep => 3
  | .testStop => 2
  | .exiting => 1
  | .exited => 0

/-- With so many lines unread. -/
def ioLeft (unread : ℕ) : IoPc → ℕ
  | .opening | .body _ _ _ => 6 + 2 * unread
  | .getline _ => 5 + 2 * unread
  | .pumpTx => 4
  | .start | .sleep => 3
  | .testStop => 2
  | .exiting => 1
  | .exited => 0

def persistLeft : PersistPc → ℕ
  | .crcPass => 6
  | .writePass _ => 5
  | .rename _ _ => 4
  | .start | .sleep => 3
  | .testStop => 2
  | .exiting => 1
  | .exited => 0

/-- The lines the IO thread has still to read. -/
def unread (shared : Shared) : ℕ :=
  (linesFrom shared.commandsIn shared.bridge.commandOffset).length

def left (core : Core) : Thread → ℕ
  | .main => mainLeft core.main
  | .estop => estopLeft core.estop
  | .control => controlLeft core.control
  | .sensor => sensorLeft core.sensor
  | .io => ioLeft (unread core.shared) core.io
  | .persist => persistLeft core.persist
  | .client => 0

def stepsLeft (core : Core) : ℕ := ((.main :: allThreads).map (left core)).sum

section Left

variable {world : World} {shared next : Shared} {events : List Event}

theorem mainLeft_lt {core : Core} {pc : MainPc} (hboot : Boot core)
    (hstop : core.main = .testStop → core.shared.stop.stop = true)
    (hmoves : MainMoves core.shared core.main next pc events) :
    mainLeft pc < mainLeft core.main := by
  cases hmoves with
  | wait hpc hclear =>
      rw [hstop hpc] at hclear
      cases hclear
  | register count cmd handler hpc hrow =>
      have hcount : count < defaultHandlers.length := (List.getElem?_eq_some_iff.1 hrow).1
      simp only [hpc, mainLeft]
      omega
  | spawn count thread hpc hthread =>
      have hcount : count < runtimeThreads.length := (List.getElem?_eq_some_iff.1 hthread).1
      simp only [hpc, mainLeft]
      omega
  | join code count thread hpc hthread hfinished =>
      rw [hboot.threads, hpc] at hthread
      have hcount : count < allThreads.length := (List.getElem?_eq_some_iff.1 hthread).1
      simp only [hpc, mainLeft]
      omega
  | saveCalibrated hpc | driveEstop code hpc | driveDisable code hpc =>
      simp only [hpc, mainLeft]
      decide
  | enable hpc =>
      simp only [hpc, mainLeft]
      decide
  | _ =>
      simp only [mainLeft, *]
      omega

theorem estopLeft_lt {pc after : EStopPc} (hstop : shared.stop.stop = true)
    (hmoves : EStopMoves shared pc next after events) : estopLeft after < estopLeft pc := by
  cases hmoves with
  | stay hpc hclear =>
      rw [hstop] at hclear
      cases hclear
  | _ => simp [estopLeft, *]

theorem handlerLeft_lt {pc after : HandlerPc} (hmoves : HandlerMoves shared pc next after events) :
    handlerLeft after < handlerLeft pc := by
  cases hmoves <;> simp [handlerLeft, *]

theorem handlerLeft_call (handler : Handler) (cmd : CommandEnvelope) :
    handlerLeft (handler.call cmd) ≤ 3 := by
  cases handler <;> simp [Handler.call, handlerLeft]

theorem controlLeft_lt {pc after : ControlPc} (hstop : shared.stop.stop = true)
    (hmoves : ControlMoves world shared pc next after events) :
    controlLeft after < controlLeft pc := by
  cases hmoves with
  | stay hpc hclear =>
      rw [hstop] at hclear
      cases hclear
  | call nowNs left cmd handler hpc hfresh =>
      have hcall := handlerLeft_call handler cmd
      simp only [hpc, controlLeft]
      omega
  | handle nowNs left cmd before after next events hpc hhandler =>
      have hlt := handlerLeft_lt hhandler
      simp only [hpc, controlLeft]
      omega
  | _ =>
      simp only [controlLeft, handlerLeft, *]
      omega

theorem sensorLeft_lt {pc after : SensorPc} (hstop : shared.stop.stop = true)
    (hstep : sensorStep world shared pc = some (next, after, events)) :
    sensorLeft after < sensorLeft pc := by
  cases pc with
  | exited => simp [sensorStep] at hstep
  | publishing frame =>
      simp only [sensorStep] at hstep
      split at hstep <;> cases hstep <;> simp [sensorLeft]
  | _ =>
      simp only [sensorStep, hstop, if_true] at hstep
      cases hstep
      simp [sensorLeft]

theorem persistLeft_lt {pc after : PersistPc} (hstop : shared.stop.stop = true)
    (hstep : persistStep shared pc = some (next, after, events)) :
    persistLeft after < persistLeft pc := by
  cases pc with
  | exited => simp [persistStep] at hstep
  | _ =>
      simp only [persistStep, hstop, if_true] at hstep
      cases hstep
      simp [persistLeft]

theorem ioLeft_lt {pc after : IoPc} (hstop : shared.stop.stop = true)
    (hstep : ioStep world shared pc = some (next, after, events)) :
    ioLeft (unread next) after < ioLeft (unread shared) pc := by
  cases pc with
  | exited => simp [ioStep] at hstep
  | opening =>
      simp only [ioStep] at hstep
      split at hstep <;> cases hstep <;> simp only [ioLeft] <;> omega
  | getline atEnd =>
      cases atEnd with
      | true =>
          cases hstep
          simp only [ioLeft]
          omega
      | false =>
          simp only [ioStep] at hstep
          split at hstep
          · cases hstep
            simp only [ioLeft]
            omega
          · rename_i line atEnd hline
            cases hstep
            have hlines := congrArg List.length (linesFrom_of_getline hline)
            simp only [ioLeft, unread, hlines, List.length_cons]
            omega
  | body offset line atEnd =>
      simp only [ioStep] at hstep
      split at hstep <;> cases hstep <;> simp only [ioLeft, unread] <;> omega
  | _ =>
      simp only [ioStep, hstop, if_true] at hstep
      cases hstep
      simp [ioLeft]

/-- Only the IO thread and the clients change what is unread. -/
theorem unread_of_moves {core next : Core} {thread : Thread}
    (hmoves : Moves world core thread next events) (hio : thread ≠ .io)
    (hsilent : next.shared.commandsIn = core.shared.commandsIn) :
    unread next.shared = unread core.shared := by
  cases hmoves.path with
  | control shared pc events hthread hmoves =>
      cases hmoves with
      | handle nowNs left cmd before after next events hpc hhandler => cases hhandler <;> rfl
      | _ => rfl
  | io shared pc events hthread hmoves => exact absurd rfl hio
  | append => rw [unread, hsilent, unread]
  | aside thread next events haside =>
      rw [unread, unread, haside.commandsIn, haside.commandOffset]

/-- A step of another thread leaves a thread as far from its end as it was. -/
theorem left_of_ne {core next : Core} {moving thread : Thread}
    (hmoves : Moves world core moving next events) (hother : moving ≠ thread)
    (hsilent : next.shared.commandsIn = core.shared.commandsIn) :
    left next thread = left core thread := by
  by_cases hio : thread = .io
  · subst hio
    have hpc : next.io = core.io := by
      cases hmoves with
      | io shared pc events hthread hmoves => exact absurd rfl hother
      | _ => rfl
    rw [left, left, hpc, unread_of_moves hmoves hother hsilent]
  · cases hmoves <;> cases thread <;> simp_all [left]

/-- Once the stop is requested a thread comes closer to its end with each step. -/
theorem left_lt {core next : Core} {label : Thread × World} (hboot : Boot core)
    (hstop : core.shared.stop.stop = true) (hthread : label.1 ≠ .client)
    (hstep : step core label = some (next, events)) :
    left next label.1 < left core label.1 := by
  obtain ⟨thread, world⟩ := label
  cases thread with
  | client => exact absurd rfl hthread
  | main =>
      cases moves_of_step hstep with
      | main shared pc events hmoves => exact mainLeft_lt hboot (fun _ => hstop) hmoves
  | estop =>
      cases moves_of_step hstep with
      | estop shared pc events hmem hmoves => exact estopLeft_lt hstop hmoves
  | control =>
      cases moves_of_step hstep with
      | control shared pc events hmem hmoves => exact controlLeft_lt hstop hmoves
  | sensor | persist | io =>
      simp only [step] at hstep
      split at hstep
      · obtain ⟨⟨shared, pc, later⟩, hpc, heq⟩ := Option.map_eq_some_iff.1 hstep
        cases heq
        first
          | exact sensorLeft_lt hstop hpc
          | exact persistLeft_lt hstop hpc
          | exact ioLeft_lt hstop hpc
      · cases hstep

/-- The step brings the end of `run` closer, and clients that write nothing do not
put it off. -/
theorem stepsLeft_of_step {core next : Core} {label : Thread × World} (hboot : Boot core)
    (hstop : core.shared.stop.stop = true)
    (hsilent : next.shared.commandsIn = core.shared.commandsIn)
    (hstep : step core label = some (next, events)) :
    stepsLeft next ≤ stepsLeft core ∧ (label.1 ≠ .client → stepsLeft next < stepsLeft core) := by
  have hle : ∀ thread ∈ Thread.main :: allThreads, left next thread ≤ left core thread := by
    intro thread hmem
    by_cases hsame : label.1 = thread
    · subst hsame
      refine (left_lt hboot hstop ?_ hstep).le
      intro hclient
      simp [hclient, allThreads, runtimeThreads] at hmem
    · exact (left_of_ne (moves_of_step hstep) hsame hsilent).le
  refine ⟨List.sum_le_sum hle, fun hclient => List.sum_lt_sum _ _ hle ⟨label.1, ?_, ?_⟩⟩
  · cases hthread : label.1 <;> simp_all [allThreads, runtimeThreads]
  · exact left_lt hboot hstop hclient hstep

end Left

/-! ## Nobody waits for ever -/

/-- A thread has left its function only if the main thread may join it. -/
theorem finished_of_exited {allowed : Core → Thread × World → Prop} {dir : DataDir}
    {trace : List Event} {core : Core} (hrun : Run system allowed (powerOn dir) trace core)
    {thread : Thread} (hexited : core.Exited thread) : thread ∈ core.shared.finished := by
  refine hrun.invariant
    (fun _ core => ∀ thread, core.Exited thread → thread ∈ core.shared.finished) ?_ ?_ _ hexited
  · rintro (_ | _) hexited <;> cases hexited
  · intro trace core label next events _ hinv _ hstep other hother
    have hmoves := moves_of_step hstep
    by_cases hsame : label.1 = other
    · subst hsame
      obtain ⟨thread, world⟩ := label
      cases hmoves with
      | main shared pc events hmoves => exact hother.elim
      | append => exact hother.elim
      | control shared pc events hthread hmoves =>
          cases hmoves <;> simp_all [Core.Exited, Shared.finish]
      | estop shared pc events hthread hmoves | sensor shared pc events hthread hmoves
      | io shared pc events hthread hmoves | persist shared pc events hthread hmoves =>
          cases hmoves <;> simp_all [Core.Exited, Shared.finish]
    · rw [exited_of_moves hsame hmoves] at hother
      have hbefore := hinv other hother
      by_cases hmain : label.1 = .main
      · obtain ⟨thread, world⟩ := label
        obtain rfl : thread = .main := hmain
        cases hmoves with
        | main shared pc events hmoves => cases hmoves <;> exact hbefore
      · exact (threads_of_moves hmain hmoves).2.2 other hbefore

/-- Until `run` returns, it can move or the thread it waits for can. -/
theorem exists_canMove {core : Core} (hboot : Boot core)
    (hfinished : ∀ thread, core.Exited thread → thread ∈ core.shared.finished)
    (hbusy : ∀ code, core.main ≠ .returned code) :
    ∃ thread, thread ≠ .client ∧ CanMove core thread := by
  by_cases hmain : CanMove core .main
  · exact ⟨.main, by simp, hmain⟩
  cases hpc : core.main with
  | returned code => exact absurd hpc (hbusy code)
  | joining code count =>
      simp only [CanMove, hpc, not_forall] at hmain
      obtain ⟨thread, hthread, hnot⟩ := hmain
      have hmem := List.mem_of_getElem? hthread
      have hall : thread ∈ allThreads := by
        rw [hboot.threads, hpc] at hmem
        exact hmem
      have hexited : ¬ core.Exited thread := fun h => hnot (hfinished thread h)
      refine ⟨thread, ?_, ?_⟩
      · rintro rfl
        simp [allThreads, runtimeThreads] at hall
      · cases thread with
        | main => simp [allThreads, runtimeThreads] at hall
        | client => trivial
        | _ => exact ⟨hmem, hexited⟩
  | _ => simp [CanMove, hpc] at hmain

/-! ## From the stop to the return of `run` -/

/-- The configuration with no flush behind fatal messages. -/
def unflushed (cfg : Config) : Config := { cfg with flushAlways := false }

theorem arcLog_unflushed {cfg : Config} {lvl : Level} (message : List (Instr Mu))
    (hlvl : lvl ≠ .fatal) : arcLog (unflushed cfg) lvl message = arcLog cfg lvl message := by
  simp [arcLog, log, unflushed, hlvl]

/-- Where no fatal message is logged the flush makes no difference. -/
theorem around_unflushed {cfg : Config} {core : Core} {thread : Thread}
    (hquiet : ¬ LogsFatal core thread) :
    around (unflushed cfg) core thread = around cfg core thread := by
  have hinfo : arcLog (unflushed cfg) .info [] = arcLog cfg .info [] :=
    arcLog_unflushed [] (by simp)
  have hwarn : arcLog (unflushed cfg) .warn [] = arcLog cfg .warn [] :=
    arcLog_unflushed [] (by simp)
  cases thread with
  | main =>
      simp only [around]
      cases hpc : core.main <;> simp_all [LogsFatal, mainScript]
  | control =>
      simp only [around]
      cases hpc : core.control with
      | processOne nowNs left => cases left <;> rfl
      | handling nowNs left cmd pc =>
          cases pc <;> simp_all [LogsFatal, controlScript, handlerScript]
      | _ => simp_all [controlScript]
  | estop =>
      simp only [around]
      cases hpc : core.estop <;> simp_all [LogsFatal, estopScript]
  | sensor =>
      simp only [around]
      cases core.sensor <;> simp_all [sensorScript]
  | io =>
      simp only [around]
      cases core.io with
      | body offset line atEnd => simp only [ioScript, hwarn]
      | _ => simp_all [ioScript]
  | persist =>
      simp only [around]
      cases core.persist <;> simp_all [persistScript]
  | client => rfl

section Returns

variable {cfg : Config} {dir : DataDir}

/-- The command file does not grow from this time on. -/
def SilentFrom (exec : Execution (withLocks cfg) (idle (powerOn dir))) (time : ℕ) : Prop :=
  ∀ later, time ≤ later →
    (exec.state later).base.shared.commandsIn = (exec.state time).base.shared.commandsIn

/-- No fatal message is flushed. -/
def NeverFlushes (exec : Execution (withLocks cfg) (idle (powerOn dir))) : Prop :=
  cfg.flushAlways = false ∨ ∀ time thread, ¬ LogsFatal (exec.state time).base thread

variable {exec : Execution (withLocks cfg) (idle (powerOn dir))}

theorem run_base_trace (exec : Execution (withLocks cfg) (idle (powerOn dir))) (time : ℕ) :
    Run system always (powerOn dir) (exec.trace time) (exec.state time).base :=
  run_base (exec.run_trace time)

/-- A stop that was requested stays so. -/
theorem stop_later {time later : ℕ} (hle : time ≤ later)
    (hstop : (exec.state time).base.shared.stop.stop = true) :
    (exec.state later).base.shared.stop.stop = true := by
  refine exec.until (fun state => state.base.shared.stop.stop = true) hle hstop ?_
  intro moment _ _ hstop
  rcases baseStep_or_same exec moment with hstep | hsame
  · exact EStopRun.stop_mono (moves_of_step hstep) hstop
  · rwa [hsame]

/-- The bridge is up before a stop is requested. -/
theorem broughtUp_of_stop {allowed : Core → Thread × World → Prop} {trace : List Event}
    {core : Core} (hrun : Run system allowed (powerOn dir) trace core)
    (hstop : core.shared.stop.stop = true) : core.main.BroughtUp := by
  refine hrun.invariant (fun _ core => core.shared.stop.stop = true → core.main.BroughtUp)
    (fun h => by cases h) ?_ hstop
  intro trace core label next events hrun hinv _ hstep hstop
  have hboot := Boot.run hrun
  have hlive := hboot.live
  have hmoves := moves_of_step hstep
  obtain ⟨thread, world⟩ := label
  change Moves world core thread next events at hmoves
  by_cases hmain : thread = .main
  · subst hmain
    cases hmoves with
    | main shared pc events hmoves =>
        cases hmoves with
        | bringupRefused hpc | bringupFailed hpc =>
            have hup := hinv hstop
            rw [hpc] at hup
            exact hup.elim
        | calibrationFailed hpc =>
            rw [hpc] at hlive
            exact hlive.elim
        | finish code hpc =>
            rw [hpc] at hlive
            exact hlive
        | _ => trivial
  · rw [Drives.main_of_moves hmoves hmain]
    cases hmoves with
    | append => exact hinv hstop
    | main shared pc events hmoves => exact absurd rfl hmain
    | estop shared pc events hthread hmoves | control shared pc events hthread hmoves
    | sensor shared pc events hthread hmoves | io shared pc events hthread hmoves
    | persist shared pc events hthread hmoves => exact hboot.broughtUp hthread

theorem exists_returned (hflush : cfg.flushAlways = false) (hfair : StronglyFair exec Prod.fst)
    {time : ℕ} (hstop : (exec.state time).base.shared.stop.stop = true)
    (hsilent : SilentFrom exec time) :
    ∃ later, time ≤ later ∧ (exec.state later).base.main = .returned 0 := by
  have hleft : ∃ later, time ≤ later ∧ ∃ code, (exec.state later).base.main = .returned code := by
    by_cases hbusy : ∀ code, (exec.state time).base.main ≠ .returned code
    · have happroaches : Approaches exec (fun thread => thread ≠ .client)
          (fun core => core.shared.stop.stop = true ∧ ∀ code, core.main ≠ .returned code)
          (fun core => ∃ code, core.main = .returned code) stepsLeft time := {
        able := by
          rintro moment hmoment ⟨-, hbusy⟩
          have hrun := run_base_trace exec moment
          obtain ⟨thread, hthread, hcan⟩ :=
            exists_canMove (Boot.run hrun) (fun _ => finished_of_exited hrun) hbusy
          exact ⟨thread, hthread,
            (script_ne_nil_iff cfg (single_around (Or.inl hflush))).2 hcan⟩
        closer := by
          rintro moment hmoment ⟨hstop, -⟩ hstep
          by_cases hreturned : ∃ code, (exec.state (moment + 1)).base.main = .returned code
          · exact .inl hreturned
          refine .inr ⟨⟨EStopRun.stop_mono (moves_of_step hstep) hstop,
            not_exists.1 hreturned⟩, ?_⟩
          have hsame := (hsilent (moment + 1) (by omega)).trans (hsilent moment hmoment).symm
          exact stepsLeft_of_step (Boot.run (run_base_trace exec moment)) hstop hsame hstep }
      exact happroaches.exists_goal (disciplined hflush) (boot_powerOn dir) hfair ⟨hstop, hbusy⟩
    · simp only [not_forall, not_not] at hbusy
      exact ⟨time, Nat.le_refl _, hbusy⟩
  obtain ⟨later, hle, code, hcode⟩ := hleft
  have hrun := run_base_trace exec later
  have hup := broughtUp_of_stop hrun (stop_later hle hstop)
  rw [hcode] at hup
  obtain rfl : code = 0 := hup
  exact ⟨later, hle, hcode⟩

/-- The infinite run with a logger that does not flush. -/
theorem exists_withoutFlush {sys : System Core (Thread × World) Event}
    {exec : Execution (guarded sys (locking cfg)) (idle (powerOn dir))}
    (hfair : StronglyFair exec Prod.fst)
    (hquiet : cfg.flushAlways = false ∨
      ∀ time thread, ¬ LogsFatal (exec.state time).base thread) :
    ∃ other : Execution (guarded sys (locking (unflushed cfg))) (idle (powerOn dir)),
      StronglyFair other Prod.fst ∧ other.state = exec.state ∧ other.events = exec.events := by
  have hscript : ∀ time thread,
      (locking (unflushed cfg)).script (exec.state time).base thread =
        (locking cfg).script (exec.state time).base thread := by
    intro time thread
    rcases hquiet with hflush | hquiet
    · have hsame : unflushed cfg = cfg := by
        obtain ⟨lvl, flush⟩ := cfg
        obtain rfl : flush = false := hflush
        rfl
      rw [hsame]
    · simp only [locking, around_unflushed (hquiet time thread)]
  have hagent : (locking (unflushed cfg)).agent = (locking cfg).agent := rfl
  exact ⟨rescript exec hagent hscript, StronglyFair.rescript hfair hagent hscript, rfl, rfl⟩

theorem exists_unflushed (hfair : StronglyFair exec Prod.fst) (hquiet : NeverFlushes exec) :
    ∃ other : Execution (withLocks (unflushed cfg)) (idle (powerOn dir)),
      StronglyFair other Prod.fst ∧ other.state = exec.state ∧ other.events = exec.events :=
  exists_withoutFlush hfair hquiet

theorem exists_returned_of_stop (hfair : StronglyFair exec Prod.fst)
    (hquiet : NeverFlushes exec) {time silence : ℕ}
    (hstop : (exec.state time).base.shared.stop.stop = true) (hsilent : SilentFrom exec silence) :
    ∃ later, time ≤ later ∧ (exec.state later).base.main = .returned 0 := by
  obtain ⟨other, hother, hstate, -⟩ := exists_unflushed hfair hquiet
  have hsilent' : SilentFrom other (max time silence) := by
    intro later hle
    rw [hstate]
    exact (hsilent later (by omega)).trans (hsilent _ (Nat.le_max_right _ _)).symm
  have hstop' := stop_later (Nat.le_max_left time silence) hstop
  rw [← hstate] at hstop'
  obtain ⟨later, hle, hreturned⟩ := exists_returned rfl hother hstop' hsilent'
  rw [hstate] at hreturned
  exact ⟨later, by omega, hreturned⟩

end Returns

/-! ## Fair runs with silent clients -/

/-- A client that does not append anything. -/
def Silent (_ : Core) (label : Thread × World) : Prop := label.1 = .client → label.2.chunk = []

instance (core : Core) (label : Thread × World) : Decidable (Silent core label) :=
  inferInstanceAs (Decidable (_ → _))

/-- Who can move can move with every file open and nothing to append. -/
theorem exists_default_step {core : Core} {thread : Thread} {world : World}
    {result : Core × List Event} (hstep : step core (thread, world) = some result) :
    ∃ other, step core (thread, {}) = some other := by
  have hmove : (step core (thread, {})).isSome := by
    rw [isSome_step_iff, ← isSome_step_iff core thread world]
    exact Option.isSome_iff_exists.2 ⟨result, hstep⟩
  exact Option.isSome_iff_exists.1 hmove

/-- No thread needs a client to write. -/
theorem enabled_silent {core : Core} {thread : Thread}
    (henabled : Enabled system Prod.fst core thread) :
    Enabled (restrict system Silent) Prod.fst core thread := by
  obtain ⟨⟨thread, world⟩, result, rfl, hstep⟩ := henabled
  obtain ⟨other, hother⟩ := exists_default_step hstep
  exact ⟨(thread, {}), other, rfl, step_restrict_iff.2 ⟨fun _ => rfl, hother⟩⟩

theorem commandsIn_of_silent {allowed : Core → Thread × World → Prop} {dir : DataDir}
    {trace : List Event} {core : Core}
    (hallowed : ∀ core label, allowed core label → Silent core label)
    (hrun : Run system allowed (powerOn dir) trace core) :
    core.shared.commandsIn = dir.commandsIn := by
  refine hrun.invariant (fun _ core => core.shared.commandsIn = dir.commandsIn) rfl ?_
  intro trace core label next events _ hinv hlabel hstep
  rcases ReadLines.commandsIn_of_moves (moves_of_step hstep).path with ⟨hclient, happend⟩ | hsame
  · rw [happend, hallowed core label hlabel hclient, List.append_nil, hinv]
  · rw [hsame, hinv]

/-- Without the flush a thread's script holds one mutex at a time. -/
theorem single_of_step {cfg : Config} (hflush : cfg.flushAlways = false) {core : Core}
    {label : Thread × World} {result : Core × List Event} (hstep : step core label = some result) :
    Leaf ((locking cfg).script core label.1) ∧
      ((locking cfg).script core label.1).count .act = 1 := by
  have hsingle : Single (around cfg core label.1) := single_around (Or.inl hflush)
  have hmove : (step core (label.1, {})).isSome := by
    rw [isSome_step_iff, ← isSome_step_iff core label.1 label.2]
    exact Option.isSome_iff_exists.2 ⟨result, hstep⟩
  simp only [locking, hmove, if_true]
  exact ⟨hsingle.leaf, hsingle.once⟩

/-- A finite run in which no client writes goes on as a fair one of that kind. -/
theorem exists_silent {cfg : Config} (hflush : cfg.flushAlways = false) {dir : DataDir}
    {trace : List Event} {core : Core} (hrun : Run system Silent (powerOn dir) trace core) :
    ∃ exec : Execution (withLocks cfg) (idle (powerOn dir)), StronglyFair exec Prod.fst ∧
      SilentFrom exec 0 ∧ ∀ event ∈ trace, ∃ time, event ∈ exec.events time := by
  have hdisc : Disciplined (restrict system Silent) (locking cfg) Boot :=
    (disciplined hflush).restrict fun _ _ => enabled_silent
  have hlift : Run (guarded (restrict system Silent) (locking cfg)) always (idle (powerOn dir))
      trace (idle core) :=
    lift_run (fun _ _ _ _ hstep => single_of_step hflush (step_restrict_iff.1 hstep).2)
      (run_restrict hrun)
  have hpoised := Poised.run hdisc (boot_powerOn dir) hlift
  obtain ⟨exec, hfair⟩ := hpoised.exists_stronglyFair hdisc
    (fun core _ => (script_ne_nil_iff cfg (single_around (Or.inl hflush))).2
      (show CanMove core .client from trivial))
    [.main, .estop, .control, .sensor, .io, .persist, .client] fun thread => by
      cases thread <;> simp
  obtain ⟨longer, hlonger, htrace, -⟩ := hfair.extend hlift
  have hfile : ∀ time, (longer.state time).base.shared.commandsIn = dir.commandsIn := fun time =>
    commandsIn_of_silent (fun _ _ => And.left) (run_of_restrict (run_base (longer.run_trace time)))
  exact ⟨unrestrict longer, StronglyFair.unrestrict hlonger fun _ _ => enabled_silent,
    fun later _ => (hfile later).trans (hfile 0).symm, htrace⟩

/-! ## The end of `run` -/

section Returns

variable {cfg : Config} {dir : DataDir}

/-- Once a stop is requested `run` returns, provided the clients stop writing and
no fatal message is flushed. -/
theorem run_terminates (cfg : Config) (dir : DataDir)
    (exec : Execution (withLocks cfg) (idle (powerOn dir))) (hfair : StronglyFair exec Prod.fst)
    (hquiet : NeverFlushes exec) (time silence : ℕ)
    (hstop : (exec.state time).base.shared.stop.stop = true)
    (hsilent : SilentFrom exec silence) :
    ∃ later, time ≤ later ∧ (exec.state later).base.main = .returned 0 ∧
      Shutdown.CleanExit dir (exec.trace later) (exec.state later).base := by
  obtain ⟨later, hle, hreturned⟩ := exists_returned_of_stop hfair hquiet hstop hsilent
  exact ⟨later, hle, hreturned,
    Shutdown.cleanExit_of_returned (run_base_trace exec later) hreturned⟩

theorem stop_of_stopRequested {world : World} {core next : Core} {thread requesting : Thread}
    {events : List Event} (hmoves : Moves world core thread next events)
    (hrequested : .stopRequested requesting ∈ events) : next.shared.stop.stop = true := by
  cases hmoves with
  | append => simp at hrequested
  | main shared pc events hmoves =>
      cases hmoves <;> first | rfl | simp at hrequested
  | estop shared pc events hthread hmoves =>
      cases hmoves <;> first | rfl | simp at hrequested
  | sensor shared pc events hthread hmoves | io shared pc events hthread hmoves
  | persist shared pc events hthread hmoves => cases hmoves <;> simp at hrequested
  | control shared pc events hthread hmoves =>
      cases hmoves with
      | handle nowNs left cmd before after shared events hpc hhandler =>
          cases hhandler <;> first | rfl | simp at hrequested
      | _ => simp at hrequested

end Returns

/-- A command file with a shutdown. -/
def shutdownDir : DataDir := freshDir (plainLine .shutdown 1 ++ [newline])

/-- The shutdown is read and carried out, and nobody writes more. -/
theorem exists_silent_shutdown {cfg : Config} (hflush : cfg.flushAlways = false) :
    ∃ exec : Execution (withLocks cfg) (idle (powerOn shutdownDir)),
      StronglyFair exec Prod.fst ∧ SilentFrom exec 0 ∧
        (∃ time, .lineDone 0 (plainLine .shutdown 1)
          (some (plainCommand .shutdown 1, queuedResult)) ∈ exec.events time) ∧
        ∃ time, .stopRequested .control ∈ exec.events time := by
  obtain ⟨core, hrun⟩ := exists_run_of_trace system Silent (powerOn shutdownDir)
    (bootSchedule ++ times 5 .io ++ times 7 .control)
    (show _ = some [.lineDone 0 (plainLine .shutdown 1)
        (some (plainCommand .shutdown 1, queuedResult)), .stored coldState,
      .dequeued (plainCommand .shutdown 1) 0, .handlerCalled (plainCommand .shutdown 1),
      .stopRequested .control] by decide +kernel)
  obtain ⟨exec, hfair, hsilent, htrace⟩ := exists_silent hflush hrun
  exact ⟨exec, hfair, hsilent, htrace _ (by simp), htrace _ (by simp)⟩

theorem run_terminates_shutdown :
    ∃ (exec : Execution (withLocks (unflushed mainConfig)) (idle (powerOn shutdownDir)))
      (requested time : ℕ), StronglyFair exec Prod.fst ∧ SilentFrom exec 0 ∧
        (exec.state requested).base.shared.stop.stop = true ∧ requested ≤ time ∧
        (exec.state time).base.main = .returned 0 ∧
        Shutdown.CleanExit shutdownDir (exec.trace time) (exec.state time).base := by
  obtain ⟨exec, hfair, hsilent, -, time, hrequested⟩ :=
    exists_silent_shutdown (show (unflushed mainConfig).flushAlways = false from rfl)
  have hstep := (guardedMoves_of_step (exec.step time)).step_of_mem hrequested
  have hstop := stop_of_stopRequested (moves_of_step hstep) hrequested
  obtain ⟨later, hle, hreturned, hexit⟩ := run_terminates (unflushed mainConfig) shutdownDir exec
    hfair (.inl rfl) (time + 1) 0 hstop hsilent
  exact ⟨exec, time + 1, later, hfair, hsilent, hstop, hle, hreturned, hexit⟩

end ArcravenUgv.Terminates
