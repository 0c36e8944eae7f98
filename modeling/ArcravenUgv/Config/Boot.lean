import ArcravenUgv.Config.Moves

/-!
# Start and end of a run

Which threads exist at each point of `run`, that a thread not yet started has
done nothing and that a joined one is done, and which handlers are registered.
-/

namespace ArcravenUgv.Runtime

open ArcravenUgv.Enums
open ArcravenUgv.Command
open ArcravenUgv.Command.CommandRouter
open ArcravenUgv.Decimal
open ArcravenUgv.Handlers
open ArcravenUgv.StateStore
open ArcravenUgv.CommandLine
open ArcravenUgv.Bridge
open ArcravenUgv.Runs

/-- All threads in the order they are started and joined. -/
def allThreads : List Thread := .estop :: runtimeThreads

/-- The points `run` can reach with drives and calibration that never refuse. -/
def MainPc.Live : MainPc → Prop
  | .calibrationFailed | .enableFailed => False
  | .requestStop code | .sampleLatch code | .driveEstop code | .driveDisable code => code = 0
  | .joining code _ | .saveFinal code | .finish code => code = 0
  | .returned code => code = 0 ∨ code = 2
  | _ => True

/-- The threads started so far. -/
def MainPc.started : MainPc → List Thread
  | .bringup | .bringupFailed | .startEstop => []
  | .loadState | .calibrate | .calibrationFailed | .saveCalibrated => [.estop]
  | .registering _ | .enable | .enableFailed => [.estop]
  | .spawning count => .estop :: runtimeThreads.take count
  | .returned code => if code = 0 then allThreads else []
  | _ => allThreads

/-- The content of `threads_`, which is cleared once all are joined. -/
def MainPc.running (pc : MainPc) : List Thread :=
  match pc with
  | .saveFinal _ | .finish _ | .returned _ => []
  | _ => pc.started

/-- The threads joined so far. -/
def MainPc.joined : MainPc → List Thread
  | .joining _ count => allThreads.take count
  | .saveFinal _ | .finish _ => allThreads
  | .returned code => if code = 0 then allThreads else []
  | _ => []

/-- The bridge has been initialized. -/
def MainPc.BroughtUp : MainPc → Prop
  | .bringup | .bringupFailed => False
  | .returned code => code = 0
  | _ => True

/-- How many handlers have been registered. -/
def MainPc.registered : MainPc → ℕ
  | .registering count => count
  | .bringup | .bringupFailed | .startEstop | .loadState | .calibrate => 0
  | .calibrationFailed | .saveCalibrated => 0
  | .returned code => if code = 0 then defaultHandlers.length else 0
  | _ => defaultHandlers.length

/-- A thread whose function has not been entered. -/
def Core.Idle (core : Core) : Thread → Prop
  | .estop => core.estop = .start
  | .control => core.control = .start
  | .sensor => core.sensor = .start
  | .io => core.io = .start
  | .persist => core.persist = .start
  | .main | .client => True

/-- A thread whose function has returned. -/
def Core.Exited (core : Core) : Thread → Prop
  | .estop => core.estop = .exited
  | .control => core.control = .exited
  | .sensor => core.sensor = .exited
  | .io => core.io = .exited
  | .persist => core.persist = .exited
  | .main | .client => False

/-- The handler table after the first registrations. -/
def table (count : ℕ) : UInt16 → Option (Option Handler) :=
  (registerAll (create {}) (defaultHandlers.take count)).handlers

structure Boot (core : Core) : Prop where
  live : core.main.Live
  threads : core.shared.threads = core.main.running
  idle : ∀ thread, thread ∉ core.main.started → core.Idle thread
  finished : ∀ thread ∈ core.shared.finished, core.Exited thread
  joined : ∀ thread ∈ core.main.joined, thread ∈ core.shared.finished
  initialized : core.main.BroughtUp → core.shared.bridge.initialized = true
  handlers : core.shared.router.handlers = table core.main.registered
  maxQueue : core.shared.router.cfg.maxQueue = 256

theorem table_zero : table 0 = fun _ => none := rfl

theorem table_succ {count : ℕ} {cmd : UgvCommand} {handler : Handler}
    (hrow : defaultHandlers[count]? = some (cmd, handler)) :
    table (count + 1) = Function.update (table count) cmd.wire (some (some handler)) := by
  rw [table, List.take_add_one, hrow, registerAll, List.foldl_append]
  rfl

theorem table_of_length_le {count : ℕ} (hcount : defaultHandlers.length ≤ count) :
    table count = table defaultHandlers.length := by
  rw [table, table, List.take_of_length_le hcount, List.take_length]

theorem table_emergencyStop :
    table defaultHandlers.length UgvCommand.emergencyStop.wire = some (some .emergencyStop) := by
  decide +kernel

theorem boot_powerOn (dir : DataDir) : Boot (powerOn dir) where
  live := trivial
  threads := rfl
  idle := fun thread _ => by cases thread <;> trivial
  finished := fun thread hmem => by cases hmem
  joined := fun thread hmem => by cases hmem
  initialized := fun hup => hup.elim
  handlers := rfl
  maxQueue := rfl

@[simp]
theorem idle_main (core : Core) (shared : Shared) (pc : MainPc) (thread : Thread) :
    ({ core with shared := shared, main := pc } : Core).Idle thread = core.Idle thread := by
  cases thread <;> rfl

@[simp]
theorem exited_main (core : Core) (shared : Shared) (pc : MainPc) (thread : Thread) :
    ({ core with shared := shared, main := pc } : Core).Exited thread = core.Exited thread := by
  cases thread <;> rfl

/-- A step of `run` that neither starts nor joins a thread nor registers a
handler. -/
theorem Boot.advance {core : Core} {shared : Shared} {pc : MainPc} (hboot : Boot core)
    (hlive : pc.Live) (hstarted : pc.started = core.main.started)
    (hrunning : pc.running = core.main.running) (hjoined : pc.joined = core.main.joined)
    (hregistered : pc.registered = core.main.registered)
    (hup : pc.BroughtUp → core.main.BroughtUp)
    (hthreads : shared.threads = core.shared.threads)
    (hfinished : shared.finished = core.shared.finished)
    (hbridge : shared.bridge = core.shared.bridge)
    (hrouter : shared.router = core.shared.router) :
    Boot { core with shared := shared, main := pc } where
  live := hlive
  threads := by rw [hthreads, hboot.threads, hrunning]
  idle := by simpa [hstarted] using hboot.idle
  finished := by simpa [hfinished] using hboot.finished
  joined := by simpa [hjoined, hfinished] using hboot.joined
  initialized := fun h => by simpa [hbridge] using hboot.initialized (hup h)
  handlers := by rw [hrouter, hboot.handlers, hregistered]
  maxQueue := by rw [hrouter, hboot.maxQueue]

theorem Boot.main {core : Core} {shared : Shared} {pc : MainPc} {events : List Event}
    (hboot : Boot core) (hmoves : MainMoves core.shared core.main shared pc events) :
    Boot { core with shared := shared, main := pc } := by
  obtain ⟨before, main, estop, control, sensor, io, persist⟩ := core
  have hlive := hboot.live
  cases hmoves with
  | bringup hpc =>
      subst hpc
      exact { hboot with live := trivial, initialized := fun _ => rfl }
  | bringupRefused hpc | loadState hpc | calibrate hpc | saveCalibrated hpc =>
      subst hpc
      exact hboot.advance trivial rfl rfl rfl rfl id rfl rfl rfl rfl
  | bringupFailed hpc =>
      subst hpc
      exact hboot.advance (Or.inr rfl) rfl rfl rfl rfl (by simp [MainPc.BroughtUp])
        rfl rfl rfl rfl
  | startEstop hpc =>
      subst hpc
      exact { hboot with
        live := trivial
        threads := rfl
        idle := fun thread _ => hboot.idle thread (by simp [MainPc.started]) }
  | calibrationFailed hpc | enableFailed hpc =>
      subst hpc
      exact hlive.elim
  | register count cmd handler hpc hrow =>
      subst hpc
      exact { hboot with
        live := trivial
        handlers := by
          have hhandlers := hboot.handlers
          simp only [MainPc.registered] at hhandlers
          simp only [registerHandler, MainPc.registered, table_succ hrow, hhandlers] }
  | registered count hpc hrow =>
      subst hpc
      exact { hboot with
        live := trivial
        handlers := by
          rw [hboot.handlers, MainPc.registered,
            table_of_length_le (List.getElem?_eq_none_iff.1 hrow)]
          rfl }
  | enable hpc =>
      subst hpc
      exact hboot.advance trivial (by simp [MainPc.started])
        (by simp [MainPc.running, MainPc.started])
        rfl rfl id rfl rfl rfl rfl
  | spawn count thread hpc hthread =>
      subst hpc
      have htake : runtimeThreads.take (count + 1) = runtimeThreads.take count ++ [thread] := by
        rw [List.take_add_one, hthread]
        rfl
      exact { hboot with
        live := trivial
        threads := by
          have hthreads := hboot.threads
          simp only [MainPc.running, MainPc.started] at hthreads ⊢
          rw [hthreads, htake, List.cons_append]
        idle := fun other hother => hboot.idle other (by
          simp only [MainPc.started, htake] at hother ⊢
          simp_all) }
  | spawned count hpc hthread =>
      subst hpc
      have htake : runtimeThreads.take count = runtimeThreads :=
        List.take_of_length_le (List.getElem?_eq_none_iff.1 hthread)
      exact hboot.advance trivial (by simp [MainPc.started, htake, allThreads])
        (by simp [MainPc.running, MainPc.started, htake, allThreads]) rfl rfl id rfl rfl rfl rfl
  | wait hpc hstop =>
      subst hpc
      exact hboot
  | leave hpc hstop =>
      subst hpc
      exact hboot.advance rfl rfl rfl rfl rfl id rfl rfl rfl rfl
  | requestStop code hpc | sampleLatched code hpc hlatched | sampleClear code hpc hlatched
  | driveEstop code hpc | driveDisable code hpc | saveFinal code hpc =>
      subst hpc
      exact hboot.advance hlive rfl rfl rfl rfl id rfl rfl rfl rfl
  | join code count thread hpc hthread hfinished =>
      subst hpc
      have hthread' : allThreads[count]? = some thread := by
        rw [← hthread, hboot.threads]
        rfl
      exact { hboot with
        live := hlive
        joined := fun other hother => by
          simp only [MainPc.joined, List.take_add_one, hthread', List.mem_append] at hother
          rcases hother with hother | hother
          · exact hboot.joined other hother
          · simp only [Option.toList_some, List.mem_singleton] at hother
            rwa [hother] }
  | joined code count hpc hthread =>
      subst hpc
      have hcount : allThreads.length ≤ count := by
        rw [hboot.threads] at hthread
        exact List.getElem?_eq_none_iff.1 hthread
      exact { hboot with
        live := hlive
        threads := rfl
        joined := fun other hother => hboot.joined other (by
          simpa [MainPc.joined, List.take_of_length_le hcount] using hother) }
  | finish code hpc =>
      subst hpc
      obtain rfl : code = 0 := hlive
      exact hboot.advance (Or.inl rfl) rfl rfl rfl rfl (fun _ => trivial) rfl rfl rfl rfl

theorem mem_started_of_mem_running {pc : MainPc} {thread : Thread}
    (hmem : thread ∈ pc.running) : thread ∈ pc.started := by
  cases pc with
  | saveFinal code | finish code | returned code => cases hmem
  | _ => exact hmem

/-- A step of a started thread, which may end with the return of its
function. -/
theorem Boot.other {core next : Core} {thread : Thread} (hboot : Boot core)
    (hmain : next.main = core.main) (hthread : thread ∈ core.shared.threads)
    (hbusy : ¬ core.Exited thread)
    (hothers : ∀ other, other ≠ thread →
      (core.Idle other → next.Idle other) ∧ (core.Exited other → next.Exited other))
    (hthreads : next.shared.threads = core.shared.threads)
    (hfinished : next.shared.finished = core.shared.finished ∨
      next.shared.finished = thread :: core.shared.finished ∧ next.Exited thread)
    (hinitialized : next.shared.bridge.initialized = core.shared.bridge.initialized)
    (hhandlers : next.shared.router.handlers = core.shared.router.handlers)
    (hcfg : next.shared.router.cfg = core.shared.router.cfg) : Boot next where
  live := hmain ▸ hboot.live
  threads := by rw [hthreads, hmain, hboot.threads]
  idle := fun other hother => by
    rw [hmain] at hother
    refine (hothers other ?_).1 (hboot.idle other hother)
    rintro rfl
    exact hother (mem_started_of_mem_running (hboot.threads ▸ hthread))
  finished := fun other hother => by
    have hold : other ∈ core.shared.finished → next.Exited other := fun hmem =>
      (hothers other (by rintro rfl; exact hbusy (hboot.finished other hmem))).2
        (hboot.finished other hmem)
    rcases hfinished with hsame | ⟨hnew, hexited⟩
    · exact hold (hsame ▸ hother)
    · rw [hnew, List.mem_cons] at hother
      rcases hother with rfl | hother
      · exact hexited
      · exact hold hother
  joined := fun other hother => by
    rw [hmain] at hother
    have hmem := hboot.joined other hother
    rcases hfinished with hsame | ⟨hnew, -⟩
    · rwa [hsame]
    · rw [hnew]
      exact List.mem_cons_of_mem _ hmem
  initialized := fun hup => by rw [hinitialized, hboot.initialized (hmain ▸ hup)]
  handlers := by rw [hhandlers, hmain, hboot.handlers]
  maxQueue := by rw [hcfg, hboot.maxQueue]

theorem Boot.moves {world : World} {core next : Core} {thread : Thread}
    {events : List Event} (hboot : Boot core)
    (hmoves : Moves world core thread next events) : Boot next := by
  cases hmoves with
  | main shared pc events hmain => exact hboot.main hmain
  | append =>
      exact ⟨hboot.live, hboot.threads, fun other hother => by
          have := hboot.idle other hother
          cases other <;> exact this, fun other hother => by
          have := hboot.finished other hother
          cases other <;> exact this,
        hboot.joined, hboot.initialized, hboot.handlers, hboot.maxQueue⟩
  | estop shared pc events hthread hmoves =>
      refine hboot.other rfl hthread ?_ ?_ ?_ ?_ ?_ ?_ ?_
      · cases hmoves <;> simp_all [Core.Exited]
      · intro other hother
        cases other <;> simp_all [Core.Idle, Core.Exited]
      all_goals cases hmoves <;> simp [Shared.finish, Core.Exited]
  | control shared pc events hthread hmoves =>
      refine hboot.other rfl hthread ?_ ?_ ?_ ?_ ?_ ?_ ?_
      · cases hmoves <;> simp_all [Core.Exited]
      · intro other hother
        cases other <;> simp_all [Core.Idle, Core.Exited]
      all_goals
        cases hmoves with
        | handle nowNs left cmd before after shared events hpc hhandler =>
            cases hhandler <;> simp
        | _ => simp [Shared.finish, Shared.storeAuthority, Core.Exited]
  | sensor shared pc events hthread hmoves | io shared pc events hthread hmoves =>
      refine hboot.other rfl hthread ?_ ?_ ?_ ?_ ?_ ?_ ?_
      · cases hmoves <;> simp_all [Core.Exited]
      · intro other hother
        cases other <;> simp_all [Core.Idle, Core.Exited]
      all_goals cases hmoves <;> simp [Shared.finish, Core.Exited]
  | persist shared pc events hthread hmoves =>
      refine hboot.other rfl hthread ?_ ?_ ?_ ?_ ?_ ?_ ?_
      · cases hmoves with
        | advance next hpc hnext => rcases hpc with hpc | hpc | hpc <;> simp [Core.Exited, hpc]
        | _ => simp_all [Core.Exited]
      · intro other hother
        cases other <;> simp_all [Core.Idle, Core.Exited]
      all_goals cases hmoves <;> simp [Shared.finish, Core.Exited]

/-- The control thread is started over the full table. -/
theorem Boot.handlers_of_control {core : Core} (hboot : Boot core)
    (hcontrol : core.control ≠ .start) :
    core.shared.router.handlers = table defaultHandlers.length := by
  rw [hboot.handlers]
  have hstarted : Thread.control ∈ core.main.started := by
    by_contra hnot
    exact hcontrol (hboot.idle .control hnot)
  cases hmain : core.main <;> simp [hmain, MainPc.started, MainPc.registered] at hstarted ⊢
  simp [hstarted]

/-- No thread runs before the bridge is up. -/
theorem Boot.broughtUp {core : Core} {thread : Thread} (hboot : Boot core)
    (hthread : thread ∈ core.shared.threads) : core.main.BroughtUp := by
  rw [hboot.threads] at hthread
  cases hmain : core.main with
  | bringup => simp [hmain, MainPc.running, MainPc.started] at hthread
  | bringupFailed => simp [hmain, MainPc.running, MainPc.started] at hthread
  | returned code => simp [hmain, MainPc.running] at hthread
  | _ => trivial

/-- A thread that has been started and has not returned has not been joined. -/
theorem Boot.mem_threads {core : Core} {thread : Thread} (hboot : Boot core)
    (hstarted : ¬ core.Idle thread) (hbusy : ¬ core.Exited thread) :
    thread ∈ core.shared.threads := by
  have hmem : thread ∈ core.main.started := by
    by_contra hnot
    exact hstarted (hboot.idle thread hnot)
  have hjoined : thread ∉ core.main.joined := fun hjoined =>
    hbusy (hboot.finished thread (hboot.joined thread hjoined))
  rw [hboot.threads]
  cases hmain : core.main with
  | saveFinal code | finish code | returned code => simp_all [MainPc.started, MainPc.joined]
  | _ => simpa [hmain, MainPc.running] using hmem

/-- Every handler in the table stands there under the number it was registered
for. -/
theorem mem_defaultHandlers_of_table {count : ℕ} {key : UInt16} {handler : Handler}
    (hlookup : table count key = some (some handler)) :
    ∃ cmd : UgvCommand, (cmd, handler) ∈ defaultHandlers ∧ cmd.wire = key := by
  induction count with
  | zero => simp [table_zero] at hlookup
  | succ count ih =>
      cases hrow : defaultHandlers[count]? with
      | none =>
          have hcount := List.getElem?_eq_none_iff.1 hrow
          rw [table_of_length_le (by omega), ← table_of_length_le hcount] at hlookup
          exact ih hlookup
      | some row =>
          obtain ⟨cmd, registered⟩ := row
          rw [table_succ hrow, Function.update_apply] at hlookup
          split_ifs at hlookup with hkey
          · cases hlookup
            exact ⟨cmd, List.mem_of_getElem? hrow, hkey.symm⟩
          · exact ih hlookup

/-- The boot order holds in every run, whatever is allowed in it. -/
theorem Boot.run {allowed : Core → Thread × World → Prop} {dir : DataDir}
    {trace : List Event} {core : Core}
    (hrun : Run system allowed (powerOn dir) trace core) : Boot core := by
  refine hrun.invariant (fun _ core => Boot core) (boot_powerOn dir) ?_
  intro trace core label next events _ hboot _ hstep
  exact hboot.moves (moves_of_step hstep)

/-! ## Schedules for runs on fixed inputs -/

/-- A thread that moves so many times in a row. -/
def times (count : ℕ) (thread : Thread) : List (Thread × World) :=
  List.replicate count (thread, {})

/-- `run` up to its wait for the stop flag. -/
def bootSchedule : List (Thread × World) := times 59 .main

/-- A data directory that holds only a command file. -/
def freshDir (commandsIn : Bytes) : DataDir where
  commandsIn := commandsIn
  telemetryOut := []
  disk := { live := none, tmp := none }

/-- A command with one zero byte as payload. -/
def plainCommand (name : UgvCommand) (id : UInt64) : CommandEnvelope where
  command := name.wire
  domain := 0
  priority := 0
  authority := 0
  commandId := id
  issuedNs := 0
  ttlNs := 0
  payloadJson := [0]

/-- The fields a client writes for a plain command. -/
def plainFields (name : UgvCommand) (id : UInt64) : CommandFields where
  commandId := decimal id.toNat
  command := decimal name.wire.toNat
  domain := decimal 0
  priority := decimal 0
  authority := decimal 0
  issuedNs := decimal 0
  ttlNs := decimal 0
  payload := Radix64.encode [0]

def plainLine (name : UgvCommand) (id : UInt64) : Bytes := (plainFields name id).line

theorem denote_plainFields (name : UgvCommand) (id : UInt64) :
    (plainFields name id).Denote (plainCommand name id) where
  commandId := numeral_decimal _
  command := numeral_decimal _
  domain := numeral_decimal 0
  priority := numeral_decimal 0
  authority := numeral_decimal 0
  issuedNs := numeral_decimal 0
  ttlNs := numeral_decimal 0
  payload := fun _ => Radix64.mem_encode
  payloadJson := by simp [plainFields, plainCommand, Base64.base64Decode_encode]

theorem wellFormed_plainLine (name : UgvCommand) (id : UInt64) :
    WellFormed (plainLine name id) (plainCommand name id) :=
  ⟨plainFields name id, rfl, denote_plainFields name id⟩

theorem lineEnvelope_plainLine (name : UgvCommand) (id : UInt64) :
    lineEnvelope (plainLine name id) = some (plainCommand name id) := by
  have hpayload : (plainFields name id).payload ≠ [] := by
    simp [plainFields, Radix64.encode_eq_nil_iff]
  rw [(wellFormed_plainLine name id).lineEnvelope_eq, if_pos]
  exact (denote_plainFields name id).hasPayload_iff.2 hpayload

theorem newline_not_mem_plainLine (name : UgvCommand) (id : UInt64) :
    newline ∉ plainLine name id :=
  (denote_plainFields name id).not_mem_line (Or.inl rfl)

/-- `state_` after a cold boot. -/
def coldState : PersistentStateV1 := { calibratedOk := 1 }

/-- A line whose command was queued. -/
def submitted (offset : ℕ) (line : String) (env : CommandEnvelope) : Event :=
  .lineDone offset (ascii line) (some (env, queuedResult))

/-- The callback for a plain command that was not rejected. -/
def reported (cmd : CommandEnvelope) (result : CommandResult) : List Event :=
  [.processed cmd result, .stored coldState, .published cmd result]

end ArcravenUgv.Runtime
