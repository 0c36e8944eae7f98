import ArcravenUgv.Config.Moves

/-!
# When the drives are enabled

`run` with a calibration and a drive system that may refuse: both
`calibration_sequence` and `drives_.enable` return what the environment chooses,
and a refused `enable` may still leave the drives enabled.  Every change of the
flag is on the trace.
-/

namespace ArcravenUgv.Drives

open ArcravenUgv.Enums
open ArcravenUgv.Command
open ArcravenUgv.Decimal
open ArcravenUgv.Safety
open ArcravenUgv.Handlers
open ArcravenUgv.Runtime
open ArcravenUgv.Runs

/-- What `calibration_sequence` and `drives_.enable` return, and the flag that
`enable` leaves behind. -/
structure Outcomes where
  calibrated : Bool
  enableOk : Bool
  enableLeaves : Bool
  deriving DecidableEq, Repr

/-- What the stubs do. -/
def Outcomes.stub : Outcomes where
  calibrated := true
  enableOk := true
  enableLeaves := true

/-- `UgvCore::run` with these outcomes. -/
def mainStep (world : World) (outcomes : Outcomes) (shared : Shared) :
    MainPc → Step MainPc
  | .calibrate =>
      if outcomes.calibrated then
        some ({ shared with state := { shared.state with calibratedOk := 1 } },
          .saveCalibrated, [])
      else
        some ({ shared with state := { shared.state with calibratedOk := 0 } },
          .calibrationFailed, [])
  | .enable =>
      if outcomes.enableOk then
        some ({ shared with drives := { enabled := outcomes.enableLeaves } }, .spawning 0, [])
      else some ({ shared with drives := { enabled := outcomes.enableLeaves } }, .enableFailed, [])
  | pc => Runtime.mainStep world shared pc

/-- The flag set or cleared, and everything else that happens. -/
inductive DriveEvent
  | raised (thread : Thread) (main : MainPc)
  | disabled (thread : Thread)
  | core (event : Event)
  deriving DecidableEq, Repr

/-- The step is the disable of a `Stop` command, `drives_.estop` or the disable of
the shutdown. -/
def disables (core : Core) : Thread → Bool
  | .main =>
      match core.main with
      | .driveEstop _ | .driveDisable _ => true
      | _ => false
  | .estop => core.estop = .driveEstop
  | .control =>
      match core.control with
      | .handling _ _ _ .disableDrives => true
      | _ => false
  | _ => false

def driveEvents (thread : Thread) (core next : Core) (events : List Event) : List DriveEvent :=
  (if core.shared.drives.enabled = false ∧ next.shared.drives.enabled = true then
    [.raised thread core.main] else []) ++
  (if disables core thread then [.disabled thread] else []) ++ events.map .core

/-- A step of the core: all threads but the main one as before. -/
def coreStep (core : Core) (thread : Thread) (world : World) (outcomes : Outcomes) :
    Option (Core × List Event) :=
  match thread with
  | .main =>
      (mainStep world outcomes core.shared core.main).map fun (shared, pc, events) =>
        ({ core with shared := shared, main := pc }, events)
  | thread => Runtime.step core (thread, world)

def step (core : Core) (label : Thread × World × Outcomes) : Option (Core × List DriveEvent) :=
  (coreStep core label.1 label.2.1 label.2.2).map fun (next, events) =>
    (next, driveEvents label.1 core next events)

def system : System Core (Thread × World × Outcomes) DriveEvent where
  step := step

/-- With the stubs' outcomes this is the system of `Config.Runtime`. -/
theorem coreStep_stub (core : Core) (thread : Thread) (world : World) :
    coreStep core thread world .stub = Runtime.step core (thread, world) := by
  cases thread with
  | main =>
      cases hmain : core.main <;>
        simp [coreStep, Runtime.step, mainStep, Runtime.mainStep, hmain, Outcomes.stub,
          calibrationSequence, DriveSystemStub.enable]
  | _ => rfl

/-! ## One step -/

/-- What a step does: the two calls that may refuse, and the moves of the core. -/
inductive DriveMoves (world : World) (core : Core) : Thread → Core → List Event → Prop
  | calibrate (shared : Shared) (pc : MainPc) (hmain : core.main = .calibrate)
      (hpc : pc = .saveCalibrated ∨ pc = .calibrationFailed)
      (hdrives : shared.drives = core.shared.drives)
      (hestop : shared.estop = core.shared.estop)
      (hthreads : shared.threads = core.shared.threads) :
      DriveMoves world core .main { core with shared := shared, main := pc } []
  | enable (leaves : Bool) (pc : MainPc) (hmain : core.main = .enable)
      (hpc : pc = .spawning 0 ∨ pc = .enableFailed) :
      DriveMoves world core .main
        { core with
          shared := { core.shared with drives := { enabled := leaves } }
          main := pc } []
  | core (thread : Thread) (next : Core) (events : List Event)
      (hmain : thread = .main → core.main ≠ .calibrate ∧ core.main ≠ .enable)
      (hmoves : Moves world core thread next events) :
      DriveMoves world core thread next events

theorem driveMoves_of_step {core next : Core} {thread : Thread} {world : World}
    {outcomes : Outcomes} {events : List Event}
    (hstep : coreStep core thread world outcomes = some (next, events)) :
    DriveMoves world core thread next events := by
  by_cases hthread : thread = .main
  · subst hthread
    obtain ⟨⟨shared, pc, events⟩, hmain, heq⟩ := Option.map_eq_some_iff.1 hstep
    obtain ⟨rfl, rfl⟩ := Prod.mk.inj heq
    unfold mainStep at hmain
    split at hmain
    · rename_i hpc
      split_ifs at hmain
      · obtain ⟨rfl, rfl, rfl⟩ := by simpa only [Option.some.injEq, Prod.mk.injEq] using hmain
        exact .calibrate _ _ hpc (.inl rfl) rfl rfl rfl
      · obtain ⟨rfl, rfl, rfl⟩ := by simpa only [Option.some.injEq, Prod.mk.injEq] using hmain
        exact .calibrate _ _ hpc (.inr rfl) rfl rfl rfl
    · rename_i hpc
      split_ifs at hmain
      · obtain ⟨rfl, rfl, rfl⟩ := by simpa only [Option.some.injEq, Prod.mk.injEq] using hmain
        exact .enable _ _ hpc (.inl rfl)
      · obtain ⟨rfl, rfl, rfl⟩ := by simpa only [Option.some.injEq, Prod.mk.injEq] using hmain
        exact .enable _ _ hpc (.inr rfl)
    · rename_i hcalibrate henable
      exact .core _ _ _ (fun _ => ⟨hcalibrate, henable⟩)
        (.main shared pc events (mainMoves_of_step hmain))
  · have hother : coreStep core thread world outcomes = Runtime.step core (thread, world) := by
      cases thread <;> first | exact absurd rfl hthread | rfl
    rw [hother] at hstep
    exact .core _ _ _ (fun hmain => absurd hmain hthread) (moves_of_step hstep)

/-- Every other step leaves the drives as they are or disables them. -/
theorem drives_of_moves {world : World} {core next : Core} {thread : Thread}
    {events : List Event} (hmoves : Moves world core thread next events)
    (hmain : thread = .main → core.main ≠ .enable) :
    next.shared.drives =
      if disables core thread then { enabled := false } else core.shared.drives := by
  cases hmoves with
  | main shared pc events hmoves =>
      cases hmoves with
      | enable hpc => exact absurd hpc (hmain rfl)
      | _ => simp [disables, Shared.saveState, *]
  | estop shared pc events hthread hmoves =>
      cases hmoves <;> simp [disables, Shared.finish, *]
  | control shared pc events hthread hmoves =>
      cases hmoves with
      | handle nowNs left cmd before after next events hpc hmoves =>
          cases hmoves <;> simp [disables, *]
      | _ => simp [disables, Shared.finish, Shared.storeAuthority, *]
  | sensor shared pc events hthread hmoves | io shared pc events hthread hmoves
  | persist shared pc events hthread hmoves =>
      cases hmoves <;> simp [disables, Shared.finish]
  | append => simp [disables]

/-! ## The claim on a run -/

def DriveEvent.isRaised : DriveEvent → Bool
  | .raised _ _ => true
  | _ => false

def DriveEvent.isDisabled : DriveEvent → Bool
  | .disabled _ => true
  | _ => false

def DriveEvent.isHandlerCalled : DriveEvent → Bool
  | .core (.handlerCalled _) => true
  | _ => false

/-- The drives are enabled once at most, by `start_runtime` before any handler is
called; disabled they stay so, and they are disabled when `run` has returned. -/
structure EnabledOnce (trace : List DriveEvent) (core : Core) : Prop where
  once : trace.countP DriveEvent.isRaised ≤ 1
  in_start_runtime : ∀ thread main, .raised thread main ∈ trace → thread = .main ∧ main = .enable
  before_handlers : NoneAfter (fun event => event.isHandlerCalled = true)
    (fun event => event.isRaised = true) trace
  never_again : NoneAfter (fun event => event.isDisabled = true)
    (fun event => event.isRaised = true) trace
  stays_disabled : (∃ thread, .disabled thread ∈ trace) → core.shared.drives.enabled = false
  returned : ∀ code, core.main = .returned code → core.shared.drives.enabled = false

/-! ## Before and after `enable` -/

def BeforeEnable : MainPc → Prop
  | .bringup | .bringupFailed | .startEstop | .loadState | .calibrate | .calibrationFailed => True
  | .saveCalibrated | .registering _ | .enable | .returned _ => True
  | _ => False

def AfterEnable : MainPc → Prop
  | .enableFailed | .spawning _ | .testStop | .requestStop _ | .sampleLatch _ => True
  | .driveEstop _ | .driveDisable _ | .joining _ _ | .saveFinal _ | .finish _ => True
  | .returned _ => True
  | _ => False

/-- `safe_shutdown` has disabled the drives. -/
def ShutDown : MainPc → Prop
  | .joining _ _ | .saveFinal _ | .finish _ | .returned _ => True
  | _ => False

/-- Nothing has touched the drives, and no thread is there that could. -/
structure Untouched (trace : List DriveEvent) (core : Core) : Prop where
  quiet : ∀ event ∈ trace,
    event.isRaised = false ∧ event.isDisabled = false ∧ event.isHandlerCalled = false
  main : BeforeEnable core.main
  drives : core.shared.drives.enabled = false
  latched : core.shared.estop.latched = false
  estop : core.estop ≠ .driveEstop
  threads : ∀ thread ∈ core.shared.threads, thread = .estop

/-- `enable` has been called. -/
structure Touched (trace : List DriveEvent) (core : Core) : Prop where
  main : AfterEnable core.main
  once : trace.countP DriveEvent.isRaised ≤ 1
  in_start_runtime : ∀ thread main, .raised thread main ∈ trace → thread = .main ∧ main = .enable
  before_handlers : NoneAfter (fun event => event.isHandlerCalled = true)
    (fun event => event.isRaised = true) trace
  never_again : NoneAfter (fun event => event.isDisabled = true)
    (fun event => event.isRaised = true) trace
  stays_disabled : (∃ thread, .disabled thread ∈ trace) → core.shared.drives.enabled = false
  shutDown : ShutDown core.main → ∃ thread, .disabled thread ∈ trace

section Steps

variable {world : World} {core next : Core} {thread : Thread} {events : List Event}
variable {trace : List DriveEvent}

theorem main_of_moves (hmoves : Moves world core thread next events) (hother : thread ≠ .main) :
    next.main = core.main := by
  cases hmoves with
  | main shared pc events hmoves => exact absurd rfl hother
  | _ => rfl

/-- A step that leaves the flag alone adds the events of the core only. -/
theorem driveEvents_of_same (hsame : next.shared.drives = core.shared.drives)
    (hdisables : disables core thread = false) :
    driveEvents thread core next events = events.map .core := by
  have hraise : ¬ (core.shared.drives.enabled = false ∧
      core.shared.drives.enabled = true) := by simp
  rw [driveEvents, hsame, if_neg hraise, hdisables]
  rfl

/-- A step other than `enable` does not raise the flag. -/
theorem driveEvents_of_moves (hmoves : Moves world core thread next events)
    (hmain : thread = .main → core.main ≠ .enable) :
    driveEvents thread core next events =
      (if disables core thread then [.disabled thread] else []) ++ events.map .core := by
  have hraise : ¬ (core.shared.drives.enabled = false ∧
      next.shared.drives.enabled = true) := by
    rw [drives_of_moves hmoves hmain]
    split <;> simp
  rw [driveEvents, if_neg hraise, List.nil_append]

theorem Untouched.quiet_append (huntouched : Untouched trace core)
    (hquiet : ∀ event ∈ events, ∀ cmd, event ≠ .handlerCalled cmd) :
    ∀ event ∈ trace ++ events.map DriveEvent.core,
      event.isRaised = false ∧ event.isDisabled = false ∧ event.isHandlerCalled = false := by
  intro event hevent
  rcases List.mem_append.1 hevent with hevent | hevent
  · exact huntouched.quiet event hevent
  · obtain ⟨inner, hinner, rfl⟩ := List.mem_map.1 hevent
    refine ⟨rfl, rfl, ?_⟩
    cases inner with
    | handlerCalled cmd => exact absurd rfl (hquiet _ hinner cmd)
    | _ => rfl

theorem before_of_mainMoves {shared after : Shared} {pc pc' : MainPc}
    (hmoves : MainMoves shared pc after pc' events) (hbefore : BeforeEnable pc)
    (henable : pc ≠ .enable) :
    BeforeEnable pc' ∧ after.drives = shared.drives ∧ after.estop = shared.estop ∧
      (∀ thread ∈ after.threads, thread ∈ shared.threads ∨ thread = .estop) ∧
      ∀ event ∈ events, ∀ cmd, event ≠ .handlerCalled cmd := by
  cases hmoves with
  | enable hpc => exact absurd hpc henable
  | bringup hpc | bringupRefused hpc | bringupFailed hpc | startEstop hpc | loadState hpc
  | calibrate hpc | calibrationFailed hpc | saveCalibrated hpc | register _ _ _ hpc
  | registered _ hpc =>
      exact ⟨trivial, rfl, rfl, by simp +contextual [Shared.saveState], by simp⟩
  | _ =>
      simp only [BeforeEnable, *] at hbefore

theorem calm_of_estopMoves {shared after : Shared} {pc pc' : EStopPc}
    (hmoves : EStopMoves shared pc after pc' events) (hlatched : shared.estop.latched = false)
    (hcalm : pc ≠ .driveEstop) :
    pc' ≠ .driveEstop ∧ after.drives = shared.drives ∧ after.estop = shared.estop ∧
      after.threads = shared.threads ∧ ∀ event ∈ events, ∀ cmd, event ≠ .handlerCalled cmd := by
  cases hmoves with
  | sawLatch hpc hlatch => simp [hlatched] at hlatch
  | driveEstop hpc => exact absurd hpc hcalm
  | _ => exact ⟨by simp, rfl, rfl, rfl, by simp⟩

theorem Untouched.disables_eq (huntouched : Untouched trace core)
    (hmoves : Moves world core thread next events) : disables core thread = false := by
  cases hmoves with
  | main shared pc events hmoves =>
      have hpc := huntouched.main
      unfold disables
      cases hcore : core.main <;> simp_all [BeforeEnable]
  | estop shared pc events hthread hmoves => simp [disables, huntouched.estop]
  | control shared pc events hthread hmoves => exact absurd (huntouched.threads _ hthread) (by simp)
  | _ => rfl

theorem Untouched.step (huntouched : Untouched trace core)
    (hmoves : Moves world core thread next events)
    (hmain : thread = .main → core.main ≠ .enable) :
    Untouched (trace ++ driveEvents thread core next events) next := by
  have hnone : ∀ other, other ≠ .estop → other ∉ core.shared.threads :=
    fun other hother hmem => hother (huntouched.threads other hmem)
  rw [driveEvents_of_moves hmoves hmain, huntouched.disables_eq hmoves]
  cases hmoves with
  | main shared pc events hmoves =>
      obtain ⟨hbefore, hdrives, hestop, hthreads, hquiet⟩ :=
        before_of_mainMoves hmoves huntouched.main (hmain rfl)
      exact {
        quiet := huntouched.quiet_append hquiet
        main := hbefore
        drives := by rw [hdrives, huntouched.drives]
        latched := by rw [hestop, huntouched.latched]
        estop := huntouched.estop
        threads := fun thread hthread =>
          (hthreads thread hthread).elim (huntouched.threads thread) id }
  | estop shared pc events hthread hmoves =>
      obtain ⟨hcalm, hdrives, hestop, hthreads, hquiet⟩ :=
        calm_of_estopMoves hmoves huntouched.latched huntouched.estop
      exact {
        quiet := huntouched.quiet_append hquiet
        main := huntouched.main
        drives := by rw [hdrives, huntouched.drives]
        latched := by rw [hestop, huntouched.latched]
        estop := hcalm
        threads := by rw [hthreads]; exact huntouched.threads }
  | control shared pc events hthread hmoves | sensor shared pc events hthread hmoves
  | io shared pc events hthread hmoves | persist shared pc events hthread hmoves =>
      exact absurd hthread (hnone _ (by simp))
  | append =>
      exact {
        quiet := huntouched.quiet_append (by simp)
        main := huntouched.main
        drives := huntouched.drives
        latched := huntouched.latched
        estop := huntouched.estop
        threads := huntouched.threads }

/-- `enable` ends the first part of a run. -/
theorem Untouched.enable (huntouched : Untouched trace core) (hmain : core.main = .enable)
    {pc : MainPc} (hpc : pc = .spawning 0 ∨ pc = .enableFailed)
    (hnext : next.main = pc) :
    Touched (trace ++ driveEvents .main core next []) next := by
  have hevents : driveEvents .main core next [] = [] ∨
      driveEvents .main core next [] = [.raised .main .enable] := by
    have hdisables : disables core .main = false := by simp [disables, hmain]
    rw [driveEvents, hdisables, hmain]
    by_cases hraise : core.shared.drives.enabled = false ∧ next.shared.drives.enabled = true
    · exact .inr (by simp [hraise])
    · exact .inl (by simp [hraise])
  generalize driveEvents .main core next [] = added at hevents
  have hone : ∀ mark : DriveEvent → Prop,
      NoneAfter mark (fun event => event.isRaised = true) added := by
    intro mark
    rcases hevents with rfl | rfl
    · exact noneAfter_nil
    · exact List.pairwise_singleton _ _
  exact {
    main := by rcases hpc with rfl | rfl <;> rw [hnext] <;> trivial
    once := by
      have hnone : trace.countP DriveEvent.isRaised = 0 :=
        List.countP_eq_zero.2 fun event hevent => by simp [(huntouched.quiet event hevent).1]
      rw [List.countP_append, hnone]
      rcases hevents with rfl | rfl <;> decide
    in_start_runtime := by
      intro thread main hraised
      rcases List.mem_append.1 hraised with hraised | hraised
      · exact absurd (huntouched.quiet _ hraised).1 (by simp [DriveEvent.isRaised])
      · rcases hevents with rfl | rfl
        · cases hraised
        · simpa using hraised
    before_handlers := .append_unmarked
      (fun event hevent => by simp [(huntouched.quiet event hevent).2.2]) (hone _)
    never_again := .append_unmarked
      (fun event hevent => by simp [(huntouched.quiet event hevent).2.1]) (hone _)
    stays_disabled := by
      rintro ⟨thread, hdisabled⟩
      rcases List.mem_append.1 hdisabled with hdisabled | hdisabled
      · exact absurd (huntouched.quiet _ hdisabled).2.1 (by simp [DriveEvent.isDisabled])
      · rcases hevents with rfl | rfl
        · cases hdisabled
        · simp at hdisabled
    shutDown := by
      intro hshut
      rcases hpc with rfl | rfl <;> rw [hnext] at hshut <;> exact hshut.elim }

theorem after_of_mainMoves {shared after : Shared} {pc pc' : MainPc}
    (hmoves : MainMoves shared pc after pc' events) (hafter : AfterEnable pc) :
    AfterEnable pc' ∧ (ShutDown pc' → ShutDown pc ∨
      ∃ code, pc = .driveEstop code ∨ pc = .driveDisable code) := by
  cases hmoves with
  | enableFailed hpc | spawn _ _ hpc | spawned _ hpc | wait hpc | leave hpc
  | requestStop _ hpc | sampleLatched _ hpc | sampleClear _ hpc =>
      exact ⟨trivial, fun hshut => hshut.elim⟩
  | driveEstop code hpc => exact ⟨trivial, fun _ => .inr ⟨code, .inl hpc⟩⟩
  | driveDisable code hpc => exact ⟨trivial, fun _ => .inr ⟨code, .inr hpc⟩⟩
  | join _ _ _ hpc | joined _ _ hpc | saveFinal _ hpc | finish _ hpc =>
      exact ⟨trivial, fun _ => .inl (by rw [hpc]; trivial)⟩
  | _ => simp only [AfterEnable, *] at hafter

theorem after_of_moves (hmoves : Moves world core thread next events)
    (hafter : AfterEnable core.main) :
    AfterEnable next.main ∧ (ShutDown next.main → ShutDown core.main ∨
      disables core thread = true) := by
  by_cases hthread : thread = .main
  · subst hthread
    cases hmoves with
    | main shared pc events hmoves =>
        obtain ⟨hnext, hshut⟩ := after_of_mainMoves hmoves hafter
        refine ⟨hnext, fun h => (hshut h).imp_right ?_⟩
        rintro ⟨code, hpc | hpc⟩ <;> simp [disables, hpc]
  · rw [main_of_moves hmoves hthread]
    exact ⟨hafter, .inl⟩

theorem not_isRaised_of_moves (hmoves : Moves world core thread next events)
    (hmain : thread = .main → core.main ≠ .enable) :
    ∀ event ∈ driveEvents thread core next events, ¬ event.isRaised = true := by
  intro event hevent
  rw [driveEvents_of_moves hmoves hmain] at hevent
  rcases List.mem_append.1 hevent with hevent | hevent
  · split at hevent
    · rw [List.mem_singleton.1 hevent]
      simp [DriveEvent.isRaised]
    · cases hevent
  · obtain ⟨inner, -, rfl⟩ := List.mem_map.1 hevent
    simp [DriveEvent.isRaised]

theorem disabled_mem_iff (hmoves : Moves world core thread next events)
    (hmain : thread = .main → core.main ≠ .enable) {other : Thread} :
    .disabled other ∈ driveEvents thread core next events ↔
      disables core thread = true ∧ other = thread := by
  rw [driveEvents_of_moves hmoves hmain]
  by_cases hdisables : disables core thread = true <;> simp [hdisables]

theorem Touched.step (htouched : Touched trace core)
    (hmoves : Moves world core thread next events) :
    Touched (trace ++ driveEvents thread core next events) next := by
  have hmain : thread = .main → core.main ≠ .enable := by
    rintro - hpc
    have hafter := htouched.main
    rw [hpc] at hafter
    exact hafter
  have hquiet := not_isRaised_of_moves hmoves hmain
  obtain ⟨hafter, hshutDown⟩ := after_of_moves hmoves htouched.main
  exact {
    main := hafter
    once := by
      rw [List.countP_append, List.countP_eq_zero.2 hquiet]
      exact htouched.once
    in_start_runtime := by
      intro other main hraised
      rcases List.mem_append.1 hraised with hraised | hraised
      · exact htouched.in_start_runtime other main hraised
      · exact absurd rfl (hquiet _ hraised)
    before_handlers := htouched.before_handlers.append_quiet hquiet
    never_again := htouched.never_again.append_quiet hquiet
    stays_disabled := by
      rintro ⟨other, hdisabled⟩
      rw [drives_of_moves hmoves hmain]
      split
      · rfl
      · rename_i hnot
        rcases List.mem_append.1 hdisabled with hdisabled | hdisabled
        · exact htouched.stays_disabled ⟨other, hdisabled⟩
        · exact absurd ((disabled_mem_iff hmoves hmain).1 hdisabled).1 hnot
    shutDown := by
      intro hshut
      rcases hshutDown hshut with hbefore | hdisables
      · obtain ⟨other, hother⟩ := htouched.shutDown hbefore
        exact ⟨other, List.mem_append_left _ hother⟩
      · exact ⟨thread, List.mem_append_right _
          ((disabled_mem_iff hmoves hmain).2 ⟨hdisables, rfl⟩)⟩ }

theorem Untouched.calibrate (huntouched : Untouched trace core) (hmain : core.main = .calibrate)
    {shared : Shared} {pc : MainPc} (hpc : pc = .saveCalibrated ∨ pc = .calibrationFailed)
    (hdrives : shared.drives = core.shared.drives) (hestop : shared.estop = core.shared.estop)
    (hthreads : shared.threads = core.shared.threads) :
    Untouched (trace ++ driveEvents .main core { core with shared := shared, main := pc } [])
      { core with shared := shared, main := pc } := by
  have hdisables : disables core .main = false := by simp [disables, hmain]
  rw [driveEvents_of_same hdrives hdisables]
  exact {
    quiet := huntouched.quiet_append (by simp)
    main := by rcases hpc with rfl | rfl <;> trivial
    drives := by rw [hdrives, huntouched.drives]
    latched := by rw [hestop, huntouched.latched]
    estop := huntouched.estop
    threads := by rw [hthreads]; exact huntouched.threads }

/-- `enable` splits every run in two parts. -/
theorem untouched_or_touched {dir : DataDir}
    (hrun : Run system always (powerOn dir) trace core) :
    Untouched trace core ∨ Touched trace core := by
  refine hrun.invariant (fun trace core => Untouched trace core ∨ Touched trace core) ?_ ?_
  · exact .inl ⟨by simp, trivial, rfl, rfl, by simp [powerOn], by simp [powerOn]⟩
  · rintro trace core ⟨thread, world, outcomes⟩ next events - hpart - hstep
    obtain ⟨⟨after, inner⟩, hcore, heq⟩ := Option.map_eq_some_iff.1 hstep
    obtain ⟨rfl, rfl⟩ := Prod.mk.inj heq
    rcases hpart with huntouched | htouched
    · cases driveMoves_of_step hcore with
      | calibrate shared pc hmain hpc hdrives hestop hthreads =>
          exact .inl (huntouched.calibrate hmain hpc hdrives hestop hthreads)
      | enable leaves pc hmain hpc => exact .inr (huntouched.enable hmain hpc rfl)
      | core thread next events hmain hmoves =>
          exact .inl (huntouched.step hmoves fun h => (hmain h).2)
    · have hafter := htouched.main
      cases driveMoves_of_step hcore with
      | calibrate shared pc hmain =>
          rw [hmain] at hafter
          exact hafter.elim
      | enable leaves pc hmain =>
          rw [hmain] at hafter
          exact hafter.elim
      | core thread next events hmain hmoves => exact .inr (htouched.step hmoves)

theorem Untouched.enabledOnce (huntouched : Untouched trace core) : EnabledOnce trace core where
  once := by
    rw [List.countP_eq_zero.2 fun event hevent => by simp [(huntouched.quiet event hevent).1]]
    exact Nat.zero_le 1
  in_start_runtime thread main hraised :=
    absurd (huntouched.quiet _ hraised).1 (by simp [DriveEvent.isRaised])
  before_handlers := by
    refine List.pairwise_of_forall_mem_list fun _ _ later hlater _ => ?_
    simp [(huntouched.quiet later hlater).1]
  never_again := by
    refine List.pairwise_of_forall_mem_list fun _ _ later hlater _ => ?_
    simp [(huntouched.quiet later hlater).1]
  stays_disabled _ := huntouched.drives
  returned _ _ := huntouched.drives

theorem Touched.enabledOnce (htouched : Touched trace core) : EnabledOnce trace core where
  once := htouched.once
  in_start_runtime := htouched.in_start_runtime
  before_handlers := htouched.before_handlers
  never_again := htouched.never_again
  stays_disabled := htouched.stays_disabled
  returned code hcode := htouched.stays_disabled (htouched.shutDown (by rw [hcode]; trivial))

end Steps

/-- Whatever bring-up, calibration and `enable` return, and however the threads
and the commands are ordered. -/
theorem drives_enabled_once (dir : DataDir) {trace : List DriveEvent} {core : Core}
    (hrun : Run system always (powerOn dir) trace core) : EnabledOnce trace core :=
  (untouched_or_touched hrun).elim Untouched.enabledOnce Touched.enabledOnce

private def refused : Outcomes where
  calibrated := true
  enableOk := false
  enableLeaves := true

private def newDir : DataDir where
  commandsIn := []
  telemetryOut := []
  disk := { live := none, tmp := none }

private def turns (thread : Thread) (count : ℕ) : List (Thread × World × Outcomes) :=
  List.replicate count (thread, {}, refused)

/-- A boot whose `enable` fails after it has enabled the drives. -/
theorem drives_disabled_after_refusal :
    ∃ (trace : List DriveEvent) (core : Core),
      Run system always (powerOn newDir) trace core ∧
        .raised .main .enable ∈ trace ∧ core.main = .returned 4 ∧
          core.shared.drives.enabled = false := by
  obtain ⟨core, hrun, hmain⟩ := exists_run_of_execute system always
    (powerOn newDir)
    (turns .main 58 ++ turns .estop 3 ++ turns .main 4) (fun core => core.main)
    (show _ = some ([.raised .main .enable, .core (.stopRequested .main), .disabled .main,
      .core (.runReturned 4)], .returned 4) by decide +kernel)
  exact ⟨_, core, hrun, by simp, hmain, (drives_enabled_once _ hrun).returned 4 hmain⟩

end ArcravenUgv.Drives
