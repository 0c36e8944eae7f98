import ArcravenUgv.Config.Locks

/-!
# Fatal messages and the logger's mutex

`Logger::log` calls `flush` behind a fatal message while it holds the mutex that
`flush` locks.  With the flush an emergency stop hangs the thread that latches
it; without it every thread gets through whatever it logs.
-/

namespace ArcravenUgv.SelfLock

open ArcravenUgv.Enums
open ArcravenUgv.Command
open ArcravenUgv.Command.CommandRouter
open ArcravenUgv.Decimal
open ArcravenUgv.Handlers
open ArcravenUgv.CommandLine
open ArcravenUgv.Runs
open ArcravenUgv.Fair
open ArcravenUgv.Mutex
open ArcravenUgv.Logger
open ArcravenUgv.Runtime
open ArcravenUgv.Locks

/-- The core with its mutexes. -/
def withLocks (cfg : Config) : System (Guarded Core Thread Mu) (Thread × World) Event :=
  guarded system (locking cfg)

/-- No thread ever tries to lock a mutex it holds. -/
def NeverSelfLocks (cfg : Config) : Prop :=
  ∀ (dir : DataDir) (trace : List Event) (state : Guarded Core Thread Mu),
    Run (withLocks cfg) always (idle (powerOn dir)) trace state →
      ∀ thread, ¬ TriesSelfLock state thread

theorem neverSelfLocks {cfg : Config} (hflush : cfg.flushAlways = false) :
    NeverSelfLocks cfg :=
  fun _ _ _ hrun thread => (Owned.run (disciplined hflush).leaf hrun).not_triesSelfLock thread

/-! ## One step of a thread -/

section Next

variable {cfg : Config} {dir : DataDir}
variable {exec : Execution (withLocks cfg) (idle (powerOn dir))}

theorem awaits_control (hflush : cfg.flushAlways = false) {pc : ControlPc}
    (hstart : pc ≠ .start) (hexited : pc ≠ .exited) :
    Awaits system (locking cfg) Boot .control fun core => core.control = pc where
  able := by
    rintro core hboot rfl
    rw [script_ne_nil_iff cfg (single_around (Or.inl hflush))]
    exact ⟨hboot.mem_threads hstart hexited, hexited⟩
  stable := by
    rintro core label next events _ rfl hother hstep
    exact (moves_of_step hstep).control_of_ne hother

theorem awaits_estop (hflush : cfg.flushAlways = false) {pc : EStopPc}
    (hstart : pc ≠ .start) (hexited : pc ≠ .exited) :
    Awaits system (locking cfg) Boot .estop fun core => core.estop = pc where
  able := by
    rintro core hboot rfl
    rw [script_ne_nil_iff cfg (single_around (Or.inl hflush))]
    exact ⟨hboot.mem_threads hstart hexited, hexited⟩
  stable := by
    rintro core label next events _ rfl hother hstep
    exact (moves_of_step hstep).estop_of_ne hother

theorem controlStep_of_step {core next : Core} {label : Thread × World}
    {events : List Event} (hthread : label.1 = .control)
    (hstep : system.step core label = some (next, events)) :
    ∃ shared, controlStep label.2 core.shared core.control =
      some (shared, next.control, events) := by
  obtain ⟨thread, world⟩ := label
  obtain rfl : thread = .control := hthread
  simp only [system, step] at hstep
  split at hstep
  · obtain ⟨⟨shared, pc, later⟩, hcontrol, heq⟩ := Option.map_eq_some_iff.1 hstep
    cases heq
    exact ⟨shared, hcontrol⟩
  · cases hstep

theorem estopStep_of_step {core next : Core} {label : Thread × World}
    {events : List Event} (hthread : label.1 = .estop)
    (hstep : system.step core label = some (next, events)) :
    ∃ shared, estopStep core.shared core.estop = some (shared, next.estop, events) := by
  obtain ⟨thread, world⟩ := label
  obtain rfl : thread = .estop := hthread
  simp only [system, step] at hstep
  split at hstep
  · obtain ⟨⟨shared, pc, later⟩, hestop, heq⟩ := Option.map_eq_some_iff.1 hstep
    cases heq
    exact ⟨shared, hestop⟩
  · cases hstep

/-- The control thread's step at this time. -/
def ControlSteps (exec : Execution (withLocks cfg) (idle (powerOn dir))) (time : ℕ)
    (pc : ControlPc) : Prop :=
  ∃ shared, controlStep (exec.label time).2 (exec.state time).base.shared pc =
    some (shared, (exec.state (time + 1)).base.control, exec.events time)

/-- In a fair run the control thread takes its next step. -/
theorem exists_controlSteps (hflush : cfg.flushAlways = false)
    (hfair : StronglyFair exec Prod.fst) {pc : ControlPc} (hstart : pc ≠ .start)
    (hexited : pc ≠ .exited) {time : ℕ} (hpc : (exec.state time).base.control = pc) :
    ∃ later, time ≤ later ∧ (exec.state later).base.control = pc ∧
      ControlSteps exec later pc := by
  obtain ⟨later, hle, hthread, hpc', hstep⟩ :=
    takesStep (disciplined hflush) (boot_powerOn dir) hfair
      (awaits_control hflush hstart hexited) hpc
  obtain ⟨shared, hcontrol⟩ := controlStep_of_step hthread hstep
  rw [hpc'] at hcontrol
  exact ⟨later, hle, hpc', shared, hcontrol⟩

/-- The E-STOP thread's step at this time. -/
def EStopSteps (exec : Execution (withLocks cfg) (idle (powerOn dir))) (time : ℕ)
    (pc : EStopPc) : Prop :=
  ∃ shared, estopStep (exec.state time).base.shared pc =
    some (shared, (exec.state (time + 1)).base.estop, exec.events time)

/-- In a fair run the E-STOP thread takes its next step. -/
theorem exists_estopSteps (hflush : cfg.flushAlways = false)
    (hfair : StronglyFair exec Prod.fst) {pc : EStopPc} (hstart : pc ≠ .start)
    (hexited : pc ≠ .exited) {time : ℕ} (hpc : (exec.state time).base.estop = pc) :
    ∃ later, time ≤ later ∧ EStopSteps exec later pc := by
  obtain ⟨later, hle, hthread, hpc', hstep⟩ :=
    takesStep (disciplined hflush) (boot_powerOn dir) hfair
      (awaits_estop hflush hstart hexited) hpc
  obtain ⟨shared, hestop⟩ := estopStep_of_step hthread hstep
  rw [hpc'] at hestop
  exact ⟨later, hle, shared, hestop⟩

/-- Without the flush every finite run goes on as a fair one. -/
theorem exists_stronglyFair_of_run (hflush : cfg.flushAlways = false) {trace : List Event}
    {state : Guarded Core Thread Mu}
    (hrun : Run (withLocks cfg) always (idle (powerOn dir)) trace state) :
    ∃ exec : Execution (withLocks cfg) (idle (powerOn dir)), StronglyFair exec Prod.fst ∧
      ∀ event ∈ trace, ∃ time, event ∈ exec.events time := by
  have hpoised := Poised.run (disciplined hflush) (boot_powerOn dir) hrun
  have hclient : ∀ core, Boot core → (locking cfg).script core .client ≠ [] := fun core _ =>
    (script_ne_nil_iff cfg (single_around (Or.inl hflush))).2 trivial
  obtain ⟨exec, hfair⟩ := hpoised.exists_stronglyFair (disciplined hflush) hclient
    [.main, .estop, .control, .sensor, .io, .persist, .client] fun thread => by
      cases thread <;> simp
  obtain ⟨longer, hlonger, htrace, -⟩ := hfair.extend hrun
  exact ⟨longer, hlonger, htrace⟩

/-! ## The path of an emergency stop -/

theorem estop_of_sawLatch {world : World} {core next : Core} {thread : Thread}
    {events : List Event} (hmoves : Moves world core thread next events)
    (hsaw : .sawLatch ∈ events) : next.estop = .driveEstop := by
  cases hmoves with
  | estop shared pc events hthread hmoves =>
      cases hmoves with
      | sawLatch hpc hlatched => rfl
      | _ => simp at hsaw
  | main shared pc events hmoves => cases hmoves <;> simp at hsaw
  | control shared pc events hthread hmoves =>
      cases hmoves with
      | handle nowNs left cmd before after shared events hpc hhandler =>
          cases hhandler <;> simp at hsaw
      | _ => simp at hsaw
  | sensor shared pc events hthread hmoves | io shared pc events hthread hmoves
  | persist shared pc events hthread hmoves => cases hmoves <;> simp at hsaw
  | append => simp at hsaw

theorem control_of_dequeued {world : World} {core next : Core} {thread : Thread}
    {events : List Event} {cmd : CommandEnvelope} {nowNs : UInt64}
    (hmoves : Moves world core thread next events) (hdequeued : .dequeued cmd nowNs ∈ events) :
    core.control ≠ .start ∧ ∃ left, next.control =
      .admitting nowNs left cmd (core.shared.router.handlers cmd.command).join := by
  cases hmoves.path with
  | control shared pc events hthread hmoves =>
      cases hmoves with
      | dequeue nowNs left cmd rest hpc hq =>
          obtain ⟨rfl, rfl⟩ : _ = cmd ∧ _ = nowNs := by simpa using hdequeued
          exact ⟨by simp [hpc], left, rfl⟩
      | handle nowNs left cmd before after shared events hpc hhandler =>
          cases hhandler <;> simp at hdequeued
      | _ => simp at hdequeued
  | io shared pc events hthread hmoves => cases hmoves <;> simp at hdequeued
  | append => simp at hdequeued
  | aside thread next events haside => exact absurd trivial (haside.silent _ hdequeued)

/-- The E-STOP thread that sees the latch stops the drives and requests the
stop. -/
def LatchGetsThrough (cfg : Config) : Prop :=
  ∀ (dir : DataDir) (exec : Execution (withLocks cfg) (idle (powerOn dir))),
    StronglyFair exec Prod.fst → ∀ time, .sawLatch ∈ exec.events time →
      ∃ driving, time ≤ driving ∧ .drivesEstop .estop ∈ exec.events driving ∧
        ∃ requesting, driving ≤ requesting ∧
          .stopRequested .estop ∈ exec.events requesting

theorem latchGetsThrough (hflush : cfg.flushAlways = false) : LatchGetsThrough cfg := by
  intro dir exec hfair time hsaw
  have hstep := (guardedMoves_of_step (exec.step time)).step_of_mem hsaw
  have hdriving := estop_of_sawLatch (moves_of_step hstep) hsaw
  obtain ⟨driving, hle, shared, hdrive⟩ :=
    exists_estopSteps hflush hfair (by simp) (by simp) hdriving
  simp only [estopStep, Option.some.injEq, Prod.mk.injEq] at hdrive
  obtain ⟨-, hrequesting, hdrives⟩ := hdrive
  obtain ⟨requesting, hle', shared', hrequest⟩ :=
    exists_estopSteps hflush hfair (by simp) (by simp) hrequesting.symm
  simp only [estopStep, Option.some.injEq, Prod.mk.injEq] at hrequest
  exact ⟨driving, by omega, by simp [← hdrives], requesting, by omega,
    by simp [← hrequest.2.2]⟩

/-- The control thread hands a result of the command to
`publish_command_result`, which has returned a step later. -/
def Publishes (exec : Execution (withLocks cfg) (idle (powerOn dir))) (time : ℕ)
    (cmd : CommandEnvelope) : Prop :=
  ∃ nowNs left result, (exec.state time).base.control = .publishing nowNs left cmd result ∧
    (exec.state (time + 1)).base.control = .processOne nowNs left ∧
      ((exec.label time).2.opened = true → .published cmd result ∈ exec.events time)

/-- An emergency stop that is taken off the queue before it expires requests the
stop and has its result published. -/
def StopGetsThrough (cfg : Config) : Prop :=
  ∀ (dir : DataDir) (exec : Execution (withLocks cfg) (idle (powerOn dir))),
    StronglyFair exec Prod.fst → ∀ time cmd nowNs, .dequeued cmd nowNs ∈ exec.events time →
      cmd.command = UgvCommand.emergencyStop.wire → isExpired cmd nowNs = false →
        ∃ requesting, time ≤ requesting ∧ .stopRequested .control ∈ exec.events requesting ∧
          ∃ publishing, requesting ≤ publishing ∧ Publishes exec publishing cmd

/-- Once the stop is requested the result is published. -/
theorem publishes_of_returned (hflush : cfg.flushAlways = false)
    (hfair : StronglyFair exec Prod.fst) {time : ℕ} {nowNs : UInt64} {left : ℕ}
    {cmd : CommandEnvelope} {result : CommandResult}
    (hreturned : (exec.state time).base.control = .handling nowNs left cmd (.returned result)) :
    ∃ publishing, time ≤ publishing ∧ Publishes exec publishing cmd := by
  obtain ⟨settling, hle, -, shared, hsettle⟩ :=
    exists_controlSteps hflush hfair (by simp) (by simp) hreturned
  simp only [controlStep, Option.some.injEq, Prod.mk.injEq] at hsettle
  obtain ⟨reporting, hle', -, shared', hreport⟩ :=
    exists_controlSteps hflush hfair (by simp) (by simp) hsettle.2.1.symm
  have hpublishing : (exec.state (reporting + 1)).base.control =
      .publishing nowNs left cmd (settle result) := by
    simp only [controlStep] at hreport
    split at hreport <;> simp_all
  obtain ⟨publishing, hle'', hpc, shared'', hpublish⟩ :=
    exists_controlSteps hflush hfair (by simp) (by simp) hpublishing
  refine ⟨publishing, by omega, nowNs, left, settle result, hpc, ?_⟩
  have hboot : Boot (exec.state publishing).base :=
    (poised_at (disciplined hflush) (boot_powerOn dir) exec publishing).base
  have hthread : .control ∈ (exec.state publishing).base.shared.threads :=
    hboot.mem_threads (by simp [Core.Idle, hpc]) (by simp [Core.Exited, hpc])
  have hinitialized := hboot.initialized (hboot.broughtUp hthread)
  simp only [controlStep, hinitialized, Bool.true_and] at hpublish
  split at hpublish
  · simp only [Option.some.injEq, Prod.mk.injEq] at hpublish
    exact ⟨hpublish.2.1.symm, fun _ => by simp [← hpublish.2.2]⟩
  · rename_i hclosed
    simp only [Option.some.injEq, Prod.mk.injEq] at hpublish
    exact ⟨hpublish.2.1.symm, fun hopened => absurd hopened hclosed⟩

/-- A handler about to request the stop requests it. -/
theorem requests_of_requestStop (hflush : cfg.flushAlways = false)
    (hfair : StronglyFair exec Prod.fst) {time : ℕ} {nowNs : UInt64} {left : ℕ}
    {cmd : CommandEnvelope} {result : CommandResult}
    (hpc : (exec.state time).base.control =
      .handling nowNs left cmd (.requestStop result)) :
    ∃ requesting, time ≤ requesting ∧ .stopRequested .control ∈ exec.events requesting ∧
      ∃ publishing, requesting ≤ publishing ∧ Publishes exec publishing cmd := by
  obtain ⟨requesting, hle, -, shared, hrequest⟩ :=
    exists_controlSteps hflush hfair (by simp) (by simp) hpc
  simp only [controlStep, handlerStep, Option.map_some, Option.some.injEq,
    Prod.mk.injEq] at hrequest
  obtain ⟨publishing, hle', hpublishes⟩ :=
    publishes_of_returned hflush hfair hrequest.2.1.symm
  exact ⟨requesting, hle, by simp [← hrequest.2.2], publishing, by omega, hpublishes⟩

theorem stopGetsThrough (hflush : cfg.flushAlways = false) : StopGetsThrough cfg := by
  intro dir exec hfair time cmd nowNs hdequeued hcommand hfresh
  have hboot : Boot (exec.state time).base :=
    (poised_at (disciplined hflush) (boot_powerOn dir) exec time).base
  have hstep := (guardedMoves_of_step (exec.step time)).step_of_mem hdequeued
  obtain ⟨hstart, left, hadmitting⟩ := control_of_dequeued (moves_of_step hstep) hdequeued
  rw [hboot.handlers_of_control hstart, hcommand, table_emergencyStop] at hadmitting
  obtain ⟨calling, hle, -, shared, hcall⟩ :=
    exists_controlSteps hflush hfair (by simp) (by simp) hadmitting
  have hexchanging : (exec.state (calling + 1)).base.control =
      .handling nowNs left cmd .triggerExchange := by
    simp only [controlStep, dispatch, hfresh] at hcall
    simp_all [Handler.call]
  obtain ⟨latching, hle', -, shared', hlatch⟩ :=
    exists_controlSteps hflush hfair (by simp) (by simp) hexchanging
  have hlatched : (exec.state (latching + 1)).base.control =
        .handling nowNs left cmd .triggerStore ∨
      (exec.state (latching + 1)).base.control =
        .handling nowNs left cmd (.requestStop estopLatched) := by
    simp only [controlStep, handlerStep] at hlatch
    split at hlatch <;> simp_all
  obtain ⟨ready, hle'', hrequesting⟩ : ∃ ready, time ≤ ready ∧
      (exec.state ready).base.control =
        .handling nowNs left cmd (.requestStop estopLatched) := by
    rcases hlatched with hstoring | hrequesting
    · obtain ⟨storing, hle'', -, shared'', hstore⟩ :=
        exists_controlSteps hflush hfair (by simp) (by simp) hstoring
      simp only [controlStep, handlerStep, Option.map_some, Option.some.injEq,
        Prod.mk.injEq] at hstore
      exact ⟨storing + 1, by omega, hstore.2.1.symm⟩
    · exact ⟨latching + 1, by omega, hrequesting⟩
  obtain ⟨requesting, hlater, hrequested⟩ := requests_of_requestStop hflush hfair hrequesting
  exact ⟨requesting, by omega, hrequested⟩

end Next

/-! ## The flush -/

/-- The steps without a fatal message. -/
def NoFatal (core : Core) (label : Thread × World) : Prop := ¬ LogsFatal core label.1

instance (core : Core) (label : Thread × World) : Decidable (NoFatal core label) :=
  inferInstanceAs (Decidable (¬ _))

/-- The control thread has latched an emergency stop, and is about to store its
reason. -/
def Latching (core : Core) : Prop :=
  (step core (.control, {})).isSome = true ∧
    core.control = .handling 0 7 (plainCommand .emergencyStop 1) .triggerStore

instance (core : Core) : Decidable (Latching core) :=
  inferInstanceAs (Decidable (_ ∧ _))

/-- A command file with an emergency stop. -/
def stopDir : DataDir := freshDir (plainLine .emergencyStop 1 ++ [newline])

theorem exists_latching :
    ∃ (trace : List Event) (core : Core),
      Run system NoFatal (powerOn stopDir) trace core ∧ Latching core ∧
        .dequeued (plainCommand .emergencyStop 1) 0 ∈ trace := by
  obtain ⟨core, hrun, hlatching⟩ := exists_run_of_execute system NoFatal (powerOn stopDir)
    (bootSchedule ++ times 5 .io ++ times 7 .control) (fun core => decide (Latching core))
    (show _ = some ([.lineDone 0 (plainLine .emergencyStop 1)
        (some (plainCommand .emergencyStop 1, queuedResult)), .stored coldState,
      .dequeued (plainCommand .emergencyStop 1) 0, .handlerCalled (plainCommand .emergencyStop 1),
      .latched], true) by decide +kernel)
  exact ⟨_, core, hrun, of_decide_eq_true hlatching, by simp⟩

/-- A run without fatal messages is a run with mutexes. -/
theorem run_withLocks_of_noFatal (cfg : Config) {dir : DataDir} {trace : List Event}
    {core : Core} (hrun : Run system NoFatal (powerOn dir) trace core) :
    Run (withLocks cfg) always (idle (powerOn dir)) trace (idle core) := by
  refine lift_run (fun base label result hlabel hresult => ?_) hrun
  have hmove : (step base (label.1, {})).isSome := by
    rw [isSome_step_iff, ← isSome_step_iff base label.1 label.2]
    exact Option.isSome_iff_exists.2 ⟨result, hresult⟩
  have hsingle : Single (around cfg base label.1) := single_around (Or.inr hlabel)
  simp only [locking, hmove, if_true]
  exact ⟨hsingle.leaf, hsingle.once⟩

/-- There are fair runs in which an emergency stop is taken off the queue. -/
theorem exists_fair_stop {cfg : Config} (hflush : cfg.flushAlways = false) :
    ∃ exec : Execution (withLocks cfg) (idle (powerOn stopDir)), StronglyFair exec Prod.fst ∧
      ∃ time, .dequeued (plainCommand .emergencyStop 1) 0 ∈ exec.events time := by
  obtain ⟨trace, core, hrun, -, hdequeued⟩ := exists_latching
  obtain ⟨exec, hfair, htrace⟩ :=
    exists_stronglyFair_of_run hflush (run_withLocks_of_noFatal cfg hrun)
  exact ⟨exec, hfair, htrace _ hdequeued⟩

/-- What the thread that latches does up to the flush of its fatal message. -/
def untilFlush : List (Instr Mu) :=
  [.lock .estop, .act, .unlock .estop] ++ logger ++ reasonString ++ [.lock .logger]

/-- The flush, and the end of `log`. -/
def flushing : List (Instr Mu) := [.lock .logger, .unlock .logger, .unlock .logger]

/-- With the flush the thread that latches an emergency stop locks the logger's
mutex while it holds it. -/
theorem exists_selfLock {cfg : Config} (hflush : cfg.flushAlways = true) :
    ∃ (trace : List Event) (state : Guarded Core Thread Mu),
      Run (withLocks cfg) always (idle (powerOn stopDir)) trace state ∧
        TriesSelfLock state .control := by
  obtain ⟨trace, core, hrun, ⟨hmove, hpc⟩, -⟩ := exists_latching
  obtain ⟨⟨next, events⟩, hstep⟩ := Option.isSome_iff_exists.1 hmove
  have hlift := run_withLocks_of_noFatal cfg hrun
  have hscript : (locking cfg).script core .control = untilFlush ++ flushing := by
    simp only [locking, hmove, if_true, around, hpc, controlScript, handlerScript, arcLog,
      log_fatal hflush, untilFlush, flushing, List.append_assoc]
  have hload : GuardedMoves system (locking cfg) (idle core) (Thread.control, ({} : World))
      (busy core .control none ((locking cfg).script core .control)) [] :=
    busy_load (show (locking cfg).script core .control ≠ [] by rw [hscript]; simp [flushing])
  have hthrough : Run (guarded system (locking cfg)) always
      (busy core ((locking cfg).agent (.control, {})) none (untilFlush ++ flushing)) events
      (busy next ((locking cfg).agent (.control, {})) (some .logger) flushing) :=
    run_through _ (by decide) (by decide) hstep
  rw [hscript] at hload
  exact ⟨_, _, (hlift.append (Run.single trivial (step_of_guardedMoves hload))).append hthrough,
    busy_triesSelfLock _ _ _ _⟩

theorem not_neverSelfLocks {cfg : Config} (hflush : cfg.flushAlways = true) :
    ¬ NeverSelfLocks cfg := by
  intro hnever
  obtain ⟨trace, state, hrun, htries⟩ := exists_selfLock hflush
  exact hnever stopDir trace state hrun .control htries

/-- No thread locks a mutex it holds, and emergency stops get through, if and only
if fatal messages are not flushed. -/
theorem getsThrough_iff_not_flushAlways (cfg : Config) :
    (NeverSelfLocks cfg ∧ StopGetsThrough cfg ∧ LatchGetsThrough cfg) ↔
      cfg.flushAlways = false := by
  constructor
  · rintro ⟨hnever, -, -⟩
    cases hflush : cfg.flushAlways with
    | false => rfl
    | true => exact absurd hnever (not_neverSelfLocks hflush)
  · intro hflush
    exact ⟨neverSelfLocks hflush, stopGetsThrough hflush, latchGetsThrough hflush⟩

/-- The logger as `main` configures it. -/
def mainConfig : Config where
  minLevel := .info
  flushAlways := true

/-- Without the flush there is a fair run in which an emergency stop gets through. -/
theorem emergencyStop_gets_through :
    ∃ exec : Execution (withLocks { mainConfig with flushAlways := false })
        (idle (powerOn stopDir)),
      StronglyFair exec Prod.fst ∧ ∃ time,
        .dequeued (plainCommand .emergencyStop 1) 0 ∈ exec.events time ∧
        ∃ requesting, time ≤ requesting ∧ .stopRequested .control ∈ exec.events requesting ∧
          ∃ publishing, requesting ≤ publishing ∧
            Publishes exec publishing (plainCommand .emergencyStop 1) := by
  obtain ⟨exec, hfair, time, hdequeued⟩ :=
    @exists_fair_stop { mainConfig with flushAlways := false } rfl
  have hthrough :=
    ((getsThrough_iff_not_flushAlways { mainConfig with flushAlways := false }).2 rfl).2.1
  exact ⟨exec, hfair, time, hdequeued,
    hthrough stopDir exec hfair time _ 0 hdequeued rfl (by decide)⟩

/-- As configured, an emergency stop hangs the control thread. -/
theorem emergencyStop_locks_twice :
    ∃ (trace : List Event) (state : Guarded Core Thread Mu),
      Run (withLocks mainConfig) always (idle (powerOn stopDir)) trace state ∧
        TriesSelfLock state .control :=
  exists_selfLock rfl

end ArcravenUgv.SelfLock
