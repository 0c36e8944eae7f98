import ArcravenUgv.Config.Boot
import ArcravenUgv.Lib.MutexFair
import ArcravenUgv.Utils.Logger

/-!
# The mutexes of the core

Which mutexes each thread locks around each of its steps: the router's, the
latch's, and with every log call the two of the logger.  With these the core can
hang where `Config.Runtime` takes a log call as returning.
-/

namespace ArcravenUgv.Locks

open ArcravenUgv.Enums
open ArcravenUgv.Command
open ArcravenUgv.Command.CommandRouter
open ArcravenUgv.Decimal
open ArcravenUgv.Handlers
open ArcravenUgv.StateStore
open ArcravenUgv.CommandLine
open ArcravenUgv.Bridge
open ArcravenUgv.Runs
open ArcravenUgv.Fair
open ArcravenUgv.Mutex
open ArcravenUgv.Logger
open ArcravenUgv.Runtime

/-! ## What each step locks -/

/-- `EStopLatch::reason_string`. -/
def reasonString : List (Instr Mu) := [.lock .estop, .unlock .estop]

/-- `StateStore::load` warns about a file whose header or payload is wrong, not
about one that is missing or short. -/
def loadWarns : Option Bytes → Bool
  | none => false
  | some file =>
      if file.length < 16 then false
      else
        let hdr := readHeader file
        if hdr.magic ≠ magic ∨ hdr.version ≠ 1 then true
        else if hdr.payloadSize ≠ 12 then true
        else if file.length < 28 then false
        else crc32Ieee ((file.drop 16).take 12) ≠ hdr.payloadCrc32

section Scripts

variable (cfg : Config)

def mainScript (shared : Shared) : MainPc → List (Instr Mu)
  | .bringup =>
      arcLog cfg .info [] ++ arcLog cfg .info [] ++ arcLog cfg .info [] ++
        arcLog cfg .info [] ++ [.act]
  | .bringupFailed => arcLog cfg .error [] ++ arcLog cfg .fatal [] ++ [.act]
  | .startEstop => arcLog cfg .info [] ++ [.act]
  | .loadState =>
      (if loadWarns shared.disk.live then arcLog cfg .warn [] else []) ++
        match load shared.disk.live with
        | some _ => [.act] ++ arcLog cfg .info []
        | none => arcLog cfg .warn [] ++ [.act]
  | .calibrate =>
      arcLog cfg .info [] ++
        (if shared.state.calibratedOk = 0 then arcLog cfg .warn [] else []) ++
        arcLog cfg .info [] ++ [.act]
  | .calibrationFailed => arcLog cfg .fatal [] ++ [.act]
  | .registering count =>
      if count < defaultHandlers.length then [.lock .router, .act, .unlock .router]
      else [.act]
  | .enable => arcLog cfg .info [] ++ [.act] ++ arcLog cfg .info []
  | .enableFailed => arcLog cfg .error [] ++ arcLog cfg .fatal [] ++ [.act]
  | .requestStop _ => arcLog cfg .warn [] ++ [.act]
  | .driveEstop _ => arcLog cfg .warn reasonString ++ [.act] ++ arcLog cfg .fatal []
  | .driveDisable _ => [.act] ++ arcLog cfg .warn []
  | .finish _ => arcLog cfg .info [] ++ [.act]
  | _ => [.act]

def estopScript : EStopPc → List (Instr Mu)
  | .start => arcLog cfg .info [] ++ [.act]
  | .driveEstop => [.act] ++ arcLog cfg .fatal []
  | .exiting => arcLog cfg .info [] ++ [.act]
  | _ => [.act]

def handlerScript : HandlerPc → List (Instr Mu)
  | .triggerStore => [.lock .estop, .act, .unlock .estop] ++ arcLog cfg .fatal reasonString
  | .disableDrives => [.act] ++ arcLog cfg .warn []
  | _ => [.act]

def controlScript : ControlPc → List (Instr Mu)
  | .start => arcLog cfg .info [] ++ [.act]
  | .processOne _ (_ + 1) => [.lock .router, .act, .unlock .router]
  | .handling _ _ _ pc => handlerScript cfg pc
  | .callback _ _ _ _ => [.act] ++ arcLog cfg .info []
  | .exiting => arcLog cfg .info [] ++ [.act]
  | _ => [.act]

def sensorScript : SensorPc → List (Instr Mu)
  | .start => arcLog cfg .info [] ++ [.act]
  | .exiting => arcLog cfg .info [] ++ [.act]
  | _ => [.act]

def ioScript : IoPc → List (Instr Mu)
  | .start => arcLog cfg .info [] ++ [.act]
  | .body _ line _ =>
      match readLine line with
      | .skipped => [.act]
      | .malformed => arcLog cfg .warn [] ++ [.act]
      | .parseFailed => arcLog cfg .warn [] ++ [.act]
      | .submits _ ok =>
          (if ok then [] else arcLog cfg .warn []) ++ [.lock .router, .act, .unlock .router]
  | .exiting => arcLog cfg .info [] ++ [.act]
  | _ => [.act]

def persistScript : PersistPc → List (Instr Mu)
  | .start => arcLog cfg .info [] ++ [.act]
  | .exiting => arcLog cfg .info [] ++ [.act]
  | _ => [.act]

/-- A thread's instructions around its next step. -/
def around (core : Core) : Thread → List (Instr Mu)
  | .main => mainScript cfg core.shared core.main
  | .estop => estopScript cfg core.estop
  | .control => controlScript cfg core.control
  | .sensor => sensorScript cfg core.sensor
  | .io => ioScript cfg core.io
  | .persist => persistScript cfg core.persist
  | .client => [.act]

/-- A thread that cannot move, because it has not been started, waits for
another or has returned, starts nothing. -/
def locking : Locking Core (Thread × World) Thread Mu where
  agent := Prod.fst
  script := fun core thread => if (step core (thread, {})).isSome then around cfg core thread else []

end Scripts

/-! ## Which steps hold one mutex at a time -/

/-- One mutex at a time, and one step. -/
structure Single (script : List (Instr Mu)) : Prop where
  leaf : Leaf script
  once : script.count .act = 1

theorem single_act : Single [.act] := ⟨by decide, by decide⟩

theorem single_locked (mutex : Mu) : Single [.lock mutex, .act, .unlock mutex] := by
  cases mutex <;> exact ⟨by decide, by decide⟩

theorem Single.after_quiet {before after : List (Instr Mu)} (hbefore : Quiet before)
    (hafter : Single after) : Single (before ++ after) where
  leaf := hbefore.leaf.append hafter.leaf
  once := by rw [List.count_append, List.count_eq_zero.2 hbefore.free, hafter.once]

theorem Single.before_quiet {before after : List (Instr Mu)} (hbefore : Single before)
    (hafter : Quiet after) : Single (before ++ after) where
  leaf := hbefore.leaf.append hafter.leaf
  once := by rw [List.count_append, List.count_eq_zero.2 hafter.free, hbefore.once]

/-- The steps with a fatal message. -/
def LogsFatal (core : Core) : Thread → Prop
  | .main =>
      match core.main with
      | .bringupFailed | .calibrationFailed | .enableFailed | .driveEstop _ => True
      | _ => False
  | .estop => core.estop = .driveEstop
  | .control =>
      match core.control with
      | .handling _ _ _ .triggerStore => True
      | _ => False
  | _ => False

instance (core : Core) (thread : Thread) : Decidable (LogsFatal core thread) := by
  unfold LogsFatal
  split
  · split <;> infer_instance
  · infer_instance
  · split <;> infer_instance
  · infer_instance

section Single

variable {cfg : Config}

theorem quiet_info : Quiet (arcLog cfg .info []) := quiet_arcLog (by simp) quiet_nil

theorem quiet_warn : Quiet (arcLog cfg .warn []) := quiet_arcLog (by simp) quiet_nil

theorem quiet_error : Quiet (arcLog cfg .error []) := quiet_arcLog (by simp) quiet_nil

theorem quiet_fatal (hflush : cfg.flushAlways = false) : Quiet (arcLog cfg .fatal []) :=
  quiet_arcLog (by simp [hflush]) quiet_nil

theorem quiet_reasonString : Quiet reasonString := ⟨by decide, by decide⟩

theorem single_mainScript {core : Core}
    (hsafe : cfg.flushAlways = false ∨ ¬ LogsFatal core .main) :
    Single (mainScript cfg core.shared core.main) := by
  have hinfo : Quiet (arcLog cfg .info []) := quiet_info
  have hwarn : Quiet (arcLog cfg .warn []) := quiet_warn
  have herror : Quiet (arcLog cfg .error []) := quiet_error
  have hfatal : LogsFatal core .main → Quiet (arcLog cfg .fatal []) := fun hlogs =>
    quiet_fatal (hsafe.resolve_right fun hnot => hnot hlogs)
  cases hpc : core.main with
  | bringup => exact .after_quiet (((hinfo.append hinfo).append hinfo).append hinfo) single_act
  | bringupFailed =>
      exact .after_quiet (herror.append (hfatal (by simp [LogsFatal, hpc]))) single_act
  | startEstop => exact .after_quiet hinfo single_act
  | loadState =>
      simp only [mainScript]
      refine .after_quiet ?_ ?_
      · split
        · exact hwarn
        · exact quiet_nil
      · split
        · exact .before_quiet single_act hinfo
        · exact .after_quiet hwarn single_act
  | calibrate =>
      simp only [mainScript]
      refine .after_quiet ((hinfo.append ?_).append hinfo) single_act
      split
      · exact hwarn
      · exact quiet_nil
  | calibrationFailed => exact .after_quiet (hfatal (by simp [LogsFatal, hpc])) single_act
  | registering count =>
      simp only [mainScript]
      split
      · exact single_locked .router
      · exact single_act
  | enable => exact .before_quiet (.after_quiet hinfo single_act) hinfo
  | enableFailed =>
      exact .after_quiet (herror.append (hfatal (by simp [LogsFatal, hpc]))) single_act
  | requestStop code => exact .after_quiet hwarn single_act
  | driveEstop code =>
      exact .before_quiet (.after_quiet (quiet_arcLog (by simp) quiet_reasonString) single_act)
        (hfatal (by simp [LogsFatal, hpc]))
  | driveDisable code => exact .before_quiet single_act hwarn
  | finish code => exact .after_quiet hinfo single_act
  | _ => exact single_act

theorem single_controlScript {core : Core}
    (hsafe : cfg.flushAlways = false ∨ ¬ LogsFatal core .control) :
    Single (controlScript cfg core.control) := by
  have hinfo : Quiet (arcLog cfg .info []) := quiet_info
  cases hpc : core.control with
  | start => exact .after_quiet hinfo single_act
  | processOne nowNs left =>
      cases left with
      | zero => exact single_act
      | succ left => exact single_locked .router
  | handling nowNs left cmd pc =>
      cases pc with
      | triggerStore =>
          have hflush := hsafe.resolve_right fun hnot => hnot (by simp [LogsFatal, hpc])
          exact .before_quiet (single_locked .estop)
            (quiet_arcLog (by simp [hflush]) quiet_reasonString)
      | disableDrives => exact .before_quiet single_act quiet_warn
      | _ => exact single_act
  | callback nowNs left cmd result => exact .before_quiet single_act hinfo
  | exiting => exact .after_quiet hinfo single_act
  | _ => exact single_act

theorem single_ioScript (pc : IoPc) : Single (ioScript cfg pc) := by
  have hwarn : Quiet (arcLog cfg .warn []) := quiet_warn
  cases pc with
  | start => exact .after_quiet quiet_info single_act
  | body offset line atEnd =>
      simp only [ioScript]
      split
      · exact single_act
      · exact .after_quiet hwarn single_act
      · exact .after_quiet hwarn single_act
      · refine .after_quiet ?_ (single_locked .router)
        split
        · exact quiet_nil
        · exact hwarn
  | exiting => exact .after_quiet quiet_info single_act
  | _ => exact single_act

/-- Without a flush behind fatal messages, or without a fatal message, a thread
holds one mutex at a time. -/
theorem single_around {core : Core} {thread : Thread}
    (hsafe : cfg.flushAlways = false ∨ ¬ LogsFatal core thread) :
    Single (around cfg core thread) := by
  have hinfo : Quiet (arcLog cfg .info []) := quiet_info
  cases thread with
  | main => exact single_mainScript hsafe
  | control => exact single_controlScript hsafe
  | io => exact single_ioScript core.io
  | client => exact single_act
  | estop =>
      simp only [around]
      cases hpc : core.estop with
      | start => exact .after_quiet hinfo single_act
      | driveEstop =>
          exact .before_quiet single_act
            (quiet_fatal (hsafe.resolve_right fun hnot => hnot hpc))
      | exiting => exact .after_quiet hinfo single_act
      | _ => exact single_act
  | sensor =>
      simp only [around]
      cases core.sensor with
      | start => exact .after_quiet hinfo single_act
      | exiting => exact .after_quiet hinfo single_act
      | _ => exact single_act
  | persist =>
      simp only [around]
      cases core.persist with
      | start => exact .after_quiet hinfo single_act
      | exiting => exact .after_quiet hinfo single_act
      | _ => exact single_act

end Single

/-! ## Which threads can move -/

/-- A thread can move once it has been started and until it returns, the main
thread unless it waits for another to return. -/
def CanMove (core : Core) : Thread → Prop
  | .main =>
      match core.main with
      | .joining _ count =>
          ∀ thread, core.shared.threads[count]? = some thread → thread ∈ core.shared.finished
      | .returned _ => False
      | _ => True
  | .client => True
  | thread => thread ∈ core.shared.threads ∧ ¬ core.Exited thread

theorem isSome_mainStep_iff (world : World) (shared : Shared) (pc : MainPc) :
    (mainStep world shared pc).isSome ↔
      match pc with
      | .joining _ count =>
          ∀ thread, shared.threads[count]? = some thread → thread ∈ shared.finished
      | .returned _ => False
      | _ => True := by
  cases pc with
  | joining code count =>
      simp only [mainStep]
      cases hthread : shared.threads[count]? with
      | none => simp
      | some thread =>
          by_cases hfinished : thread ∈ shared.finished <;> simp [hfinished]
  | bringup | calibrate | registering count => simp only [mainStep]; split <;> simp
  | enable => simp [mainStep, Safety.DriveSystemStub.enable]
  | spawning count | testStop | sampleLatch code => simp only [mainStep]; split <;> simp
  | _ => simp [mainStep]

theorem isSome_handlerStep (shared : Shared) {pc : HandlerPc}
    (hpc : ∀ result, pc ≠ .returned result) : (handlerStep shared pc).isSome := by
  cases pc with
  | returned result => exact absurd rfl (hpc result)
  | triggerExchange => simp only [handlerStep]; split <;> simp
  | testLatch => simp only [handlerStep]; split <;> simp
  | _ => simp [handlerStep]

theorem isSome_controlStep_iff (world : World) (shared : Shared) (pc : ControlPc) :
    (controlStep world shared pc).isSome ↔ pc ≠ .exited := by
  cases pc with
  | testStop => simp only [controlStep]; split <;> simp
  | testLatch => simp only [controlStep]; split <;> simp
  | processOne nowNs left =>
      cases left with
      | zero => simp [controlStep]
      | succ left => simp only [controlStep]; split <;> simp
  | admitting nowNs left cmd handler => simp only [controlStep]; split <;> simp
  | handling nowNs left cmd pc =>
      cases pc with
      | returned result => simp [controlStep]
      | _ => simp [controlStep, isSome_handlerStep]
  | callback nowNs left cmd result => simp only [controlStep]; split <;> simp
  | publishing nowNs left cmd result => simp only [controlStep]; split <;> simp
  | _ => simp [controlStep]

theorem isSome_estopStep_iff (shared : Shared) (pc : EStopPc) :
    (estopStep shared pc).isSome ↔ pc ≠ .exited := by
  cases pc with
  | testStop => simp only [estopStep]; split <;> simp
  | testLatch => simp only [estopStep]; split <;> simp
  | _ => simp [estopStep]

theorem isSome_sensorStep_iff (world : World) (shared : Shared) (pc : SensorPc) :
    (sensorStep world shared pc).isSome ↔ pc ≠ .exited := by
  cases pc with
  | testStop => simp only [sensorStep]; split <;> simp
  | publishing frame => simp only [sensorStep]; split <;> simp
  | _ => simp [sensorStep]

theorem isSome_ioStep_iff (world : World) (shared : Shared) (pc : IoPc) :
    (ioStep world shared pc).isSome ↔ pc ≠ .exited := by
  cases pc with
  | testStop => simp only [ioStep]; split <;> simp
  | opening => simp only [ioStep]; split <;> simp
  | getline atEnd =>
      cases atEnd with
      | true => simp [ioStep]
      | false => simp only [ioStep]; split <;> simp
  | body offset line atEnd => simp only [ioStep]; split <;> simp
  | _ => simp [ioStep]

theorem isSome_persistStep_iff (shared : Shared) (pc : PersistPc) :
    (persistStep shared pc).isSome ↔ pc ≠ .exited := by
  cases pc with
  | testStop => simp only [persistStep]; split <;> simp
  | _ => simp [persistStep]

/-- Whether a thread can move does not depend on the world. -/
theorem isSome_step_iff (core : Core) (thread : Thread) (world : World) :
    (step core (thread, world)).isSome ↔ CanMove core thread := by
  cases thread with
  | main => simp [step, CanMove, isSome_mainStep_iff]
  | client => simp [step, CanMove]
  | estop =>
      by_cases hthread : .estop ∈ core.shared.threads <;>
        simp [step, CanMove, hthread, isSome_estopStep_iff, Core.Exited]
  | control =>
      by_cases hthread : .control ∈ core.shared.threads <;>
        simp [step, CanMove, hthread, isSome_controlStep_iff, Core.Exited]
  | sensor =>
      by_cases hthread : .sensor ∈ core.shared.threads <;>
        simp [step, CanMove, hthread, isSome_sensorStep_iff, Core.Exited]
  | io =>
      by_cases hthread : .io ∈ core.shared.threads <;>
        simp [step, CanMove, hthread, isSome_ioStep_iff, Core.Exited]
  | persist =>
      by_cases hthread : .persist ∈ core.shared.threads <;>
        simp [step, CanMove, hthread, isSome_persistStep_iff, Core.Exited]

/-- A thread that has not returned stays in `threads_`. -/
theorem mem_threads_of_main {core : Core} {shared : Shared} {pc : MainPc}
    {events : List Event} (hboot : Boot core)
    (hmoves : MainMoves core.shared core.main shared pc events) {thread : Thread}
    (hthread : thread ∈ core.shared.threads) (hbusy : ¬ core.Exited thread) :
    thread ∈ shared.threads := by
  cases hmoves with
  | startEstop hpc =>
      rw [hboot.threads, hpc] at hthread
      simp [MainPc.running, MainPc.started] at hthread
  | spawn count started hpc hstarted => exact List.mem_append_left _ hthread
  | joined code count hpc hnone =>
      have hjoined : thread ∈ core.main.joined := by
        rw [hboot.threads, hpc] at hnone hthread
        have hcount : allThreads.length ≤ count := List.getElem?_eq_none_iff.1 hnone
        rw [hpc, MainPc.joined, List.take_of_length_le hcount]
        exact hthread
      exact absurd (hboot.finished thread (hboot.joined thread hjoined)) hbusy
  | _ => exact hthread

/-- Only the main thread starts and joins threads, and a thread that has returned
stays so. -/
theorem threads_of_moves {world : World} {core next : Core} {moving : Thread}
    {events : List Event} (hother : moving ≠ .main)
    (hmoves : Moves world core moving next events) :
    next.main = core.main ∧ next.shared.threads = core.shared.threads ∧
      ∀ thread ∈ core.shared.finished, thread ∈ next.shared.finished := by
  cases hmoves with
  | main shared pc events hmoves => exact absurd rfl hother
  | append => exact ⟨rfl, rfl, fun _ => id⟩
  | control shared pc events hthread hmoves =>
      cases hmoves with
      | handle nowNs left cmd before after shared events hpc hhandler =>
          cases hhandler <;> exact ⟨rfl, rfl, fun _ => id⟩
      | exit hpc => exact ⟨rfl, rfl, fun _ => List.mem_cons_of_mem _⟩
      | _ => exact ⟨rfl, rfl, fun _ => id⟩
  | estop shared pc events hthread hmoves | sensor shared pc events hthread hmoves
  | io shared pc events hthread hmoves | persist shared pc events hthread hmoves =>
      cases hmoves with
      | exit hpc => exact ⟨rfl, rfl, fun _ => List.mem_cons_of_mem _⟩
      | _ => exact ⟨rfl, rfl, fun _ => id⟩

/-- A step of another thread does not make a thread return. -/
theorem exited_of_moves {world : World} {core next : Core} {thread moving : Thread}
    {events : List Event} (hother : moving ≠ thread)
    (hmoves : Moves world core moving next events) :
    next.Exited thread ↔ core.Exited thread := by
  cases hmoves <;> cases thread <;> simp_all [Core.Exited]

/-- No thread keeps another from moving. -/
theorem CanMove.moves {world : World} {core next : Core} {thread moving : Thread}
    {events : List Event} (hcan : CanMove core thread) (hboot : Boot core)
    (hother : moving ≠ thread) (hmoves : Moves world core moving next events) :
    CanMove next thread := by
  have hkept : thread ≠ .main → thread ∈ core.shared.threads → ¬ core.Exited thread →
      thread ∈ next.shared.threads ∧ ¬ next.Exited thread := by
    intro hthread hmem hbusy
    refine ⟨?_, by rwa [exited_of_moves hother hmoves]⟩
    by_cases hmain : moving = .main
    · subst hmain
      cases hmoves with
      | main shared pc events hmoves => exact mem_threads_of_main hboot hmoves hmem hbusy
    · rwa [(threads_of_moves hmain hmoves).2.1]
  cases thread with
  | client => trivial
  | main =>
      obtain ⟨hmain, hthreads, hfinished⟩ := threads_of_moves hother hmoves
      simp only [CanMove, hmain, hthreads] at hcan ⊢
      split
      · rename_i code count hpc
        rw [hpc] at hcan
        exact fun thread hthread => hfinished thread (hcan thread hthread)
      · rename_i code hpc
        rw [hpc] at hcan
        exact hcan
      · trivial
  | _ => exact hkept (by simp) hcan.1 hcan.2

/-! ## Nothing gets stuck -/

theorem script_ne_nil_iff (cfg : Config) {core : Core} {thread : Thread}
    (hsingle : Single (around cfg core thread)) :
    (locking cfg).script core thread ≠ [] ↔ CanMove core thread := by
  rw [← isSome_step_iff core thread {}]
  simp only [locking]
  split_ifs with hmove
  · refine iff_of_true (fun hnil => ?_) hmove
    have honce := hsingle.once
    simp [hnil] at honce
  · exact iff_of_false (by simp) hmove

/-- Without the flush, whatever a thread locks it unlocks again. -/
theorem disciplined {cfg : Config} (hflush : cfg.flushAlways = false) :
    Disciplined system (locking cfg) Boot where
  labelled := fun thread => ⟨(thread, {}), rfl⟩
  leaf := fun core thread => by
    simp only [locking]
    split_ifs
    · exact (single_around (Or.inl hflush)).leaf
    · rfl
  once := fun core thread => by
    simp only [locking]
    split_ifs
    · exact (single_around (Or.inl hflush)).once.le
    · simp
  acts := fun core thread hne => by
    simp only [locking] at hne ⊢
    split_ifs at hne ⊢
    · exact List.count_pos_iff.1 (by rw [(single_around (Or.inl hflush)).once]; decide)
    · exact absurd rfl hne
  keep := fun core label next events hboot hstep => hboot.moves (moves_of_step hstep)
  enabled := fun core thread hboot hne => by
    rw [script_ne_nil_iff cfg (single_around (Or.inl hflush)),
      ← isSome_step_iff core thread {}] at hne
    obtain ⟨result, hresult⟩ := Option.isSome_iff_exists.1 hne
    exact ⟨(thread, {}), result, rfl, hresult⟩
  stable := fun core label next events thread hboot hne hother hstep => by
    rw [script_ne_nil_iff cfg (single_around (Or.inl hflush))] at hne ⊢
    exact hne.moves hboot hother (moves_of_step hstep)

end ArcravenUgv.Locks
