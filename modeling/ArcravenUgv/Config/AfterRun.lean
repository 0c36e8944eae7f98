import ArcravenUgv.Config.Paced
import ArcravenUgv.Config.SelfLock
import ArcravenUgv.Lib.Ranked
import ArcravenUgv.Lib.Quiescent

/-!
# The logger and the end of `run`

`main` destroys the logger once `run` has returned.  Then no thread of the core has a log
call left or locks a mutex again.  A flushed fatal message hangs its thread: a core that
flushes does not return once it has latched an emergency stop, nor does it answer a command.
-/

namespace ArcravenUgv.AfterRun

open ArcravenUgv.Enums
open ArcravenUgv.Command
open ArcravenUgv.Decimal
open ArcravenUgv.Handlers
open ArcravenUgv.CommandLine
open ArcravenUgv.Runs
open ArcravenUgv.Mutex
open ArcravenUgv.Logger
open ArcravenUgv.Runtime
open ArcravenUgv.Locks
open ArcravenUgv.SelfLock

variable {cfg : Config}

/-! ## The scripts -/

@[simp]
theorem count_act_arcLog (lvl : Level) (message : List (Instr Mu)) :
    (arcLog cfg lvl message).count .act = message.count .act := by
  have hlog : (log cfg lvl).count .act = 0 := by
    unfold log
    split_ifs <;> simp [flush]
  rw [arcLog, List.count_append, List.count_append, hlog]
  simp [logger]

theorem act_notMem_arcLog {lvl : Level} {message : List (Instr Mu)} (hmessage : .act ∉ message) :
    .act ∉ arcLog cfg lvl message := by
  rw [← List.count_eq_zero, count_act_arcLog, List.count_eq_zero]
  exact hmessage

/-- Every script has one step, whether or not it flushes. -/
theorem count_act_around (core : Core) (thread : Thread) :
    (around cfg core thread).count .act = 1 := by
  by_cases hfatal : LogsFatal core thread
  · cases thread with
    | main =>
        cases hpc : core.main <;> simp_all [LogsFatal, around, mainScript, reasonString]
    | estop =>
        have hpc : core.estop = .driveEstop := hfatal
        simp [around, hpc, estopScript]
    | control =>
        cases hpc : core.control with
        | handling nowNs left cmd pc =>
            cases pc <;>
              simp_all [LogsFatal, around, controlScript, handlerScript, reasonString]
        | _ => simp_all [LogsFatal]
    | _ => exact hfatal.elim
  · exact (single_around (.inr hfatal)).once

theorem unlocks_act : Unlocks ∅ ([.act] : List (Instr Mu)) := rfl

theorem unlocks_pair (mutex : Mu) : Unlocks ∅ [.lock mutex, .unlock mutex] := by
  simp [Unlocks]

theorem unlocks_locked (mutex : Mu) : Unlocks ∅ [.lock mutex, .act, .unlock mutex] := by
  simp [Unlocks]

/-- A log call unlocks what it locks, unless it locks the same mutex twice. -/
theorem unlocks_arcLog (lvl : Level) {message : List (Instr Mu)}
    (hmessage : Unlocks ∅ message) : Unlocks ∅ (arcLog cfg lvl message) := by
  refine ((unlocks_pair .globalLogger).append hmessage).append ?_
  unfold log
  split_ifs
  · rfl
  · exact .inr (.inl (Set.mem_insert ..))
  · exact unlocks_pair .logger

theorem unlocks_mainScript (shared : Shared) (pc : MainPc) :
    Unlocks ∅ (mainScript cfg shared pc) := by
  have hlog (lvl : Level) : Unlocks ∅ (arcLog cfg lvl []) := unlocks_arcLog lvl rfl
  have hreason : Unlocks ∅ reasonString := unlocks_pair .estop
  cases pc with
  | bringup =>
      exact ((((hlog _).append (hlog _)).append (hlog _)).append (hlog _)).append unlocks_act
  | bringupFailed | enableFailed => exact ((hlog _).append (hlog _)).append unlocks_act
  | startEstop | calibrationFailed | requestStop code | finish code =>
      exact (hlog _).append unlocks_act
  | loadState =>
      simp only [mainScript]
      refine Unlocks.append ?_ ?_
      · split
        · exact hlog _
        · rfl
      · split
        · exact unlocks_act.append (hlog _)
        · exact (hlog _).append unlocks_act
  | calibrate =>
      simp only [mainScript]
      refine (((hlog _).append ?_).append (hlog _)).append unlocks_act
      split
      · exact hlog _
      · rfl
  | registering count =>
      simp only [mainScript]
      split
      · exact unlocks_locked .router
      · exact unlocks_act
  | enable => exact ((hlog _).append unlocks_act).append (hlog _)
  | driveEstop code =>
      exact ((unlocks_arcLog _ hreason).append unlocks_act).append (hlog _)
  | driveDisable code => exact unlocks_act.append (hlog _)
  | _ => exact unlocks_act

theorem unlocks_controlScript (pc : ControlPc) : Unlocks ∅ (controlScript cfg pc) := by
  have hlog (lvl : Level) : Unlocks ∅ (arcLog cfg lvl []) := unlocks_arcLog lvl rfl
  cases pc with
  | start | exiting => exact (hlog _).append unlocks_act
  | processOne nowNs left =>
      cases left with
      | zero => exact unlocks_act
      | succ left => exact unlocks_locked .router
  | handling nowNs left cmd pc =>
      cases pc with
      | triggerStore =>
          exact (unlocks_locked .estop).append (unlocks_arcLog _ (unlocks_pair .estop))
      | disableDrives => exact unlocks_act.append (hlog _)
      | _ => exact unlocks_act
  | callback nowNs left cmd result => exact unlocks_act.append (hlog _)
  | _ => exact unlocks_act

theorem unlocks_ioScript (pc : IoPc) : Unlocks ∅ (ioScript cfg pc) := by
  have hlog (lvl : Level) : Unlocks ∅ (arcLog cfg lvl []) := unlocks_arcLog lvl rfl
  cases pc with
  | start | exiting => exact (hlog _).append unlocks_act
  | body offset line atEnd =>
      simp only [ioScript]
      split
      · exact unlocks_act
      · exact (hlog _).append unlocks_act
      · exact (hlog _).append unlocks_act
      · refine Unlocks.append ?_ (unlocks_locked .router)
        split
        · rfl
        · exact hlog _
  | _ => exact unlocks_act

theorem unlocks_around (core : Core) (thread : Thread) : Unlocks ∅ (around cfg core thread) := by
  have hlog (lvl : Level) : Unlocks ∅ (arcLog cfg lvl []) := unlocks_arcLog lvl rfl
  cases thread with
  | main => exact unlocks_mainScript core.shared core.main
  | control => exact unlocks_controlScript core.control
  | io => exact unlocks_ioScript core.io
  | client => exact unlocks_act
  | estop =>
      simp only [around]
      cases core.estop with
      | start | exiting => exact (hlog _).append unlocks_act
      | driveEstop => exact unlocks_act.append (hlog _)
      | _ => exact unlocks_act
  | sensor =>
      simp only [around]
      cases core.sensor with
      | start | exiting => exact (hlog _).append unlocks_act
      | _ => exact unlocks_act
  | persist =>
      simp only [around]
      cases core.persist with
      | start | exiting => exact (hlog _).append unlocks_act
      | _ => exact unlocks_act

theorem unlocks_script (core : Core) (thread : Thread) :
    Unlocks ∅ ((locking cfg).script core thread) := by
  simp only [locking]
  split_ifs
  · exact unlocks_around core thread
  · rfl

/-- A flushed fatal message hangs, whatever its thread holds. -/
theorem hangs_fatal (hflush : cfg.flushAlways = true) (held : Set Mu) :
    Hangs held (arcLog cfg .fatal []) := by
  rw [arcLog, log_fatal hflush]
  simp [logger, Hangs]

theorem hangs_latched (hflush : cfg.flushAlways = true) (held : Set Mu) :
    Hangs held (.unlock .estop :: arcLog cfg .fatal reasonString) := by
  rw [arcLog, log_fatal hflush]
  simp [logger, reasonString, Hangs]

theorem hangs_bringupFailed (hflush : cfg.flushAlways = true) (held : Set Mu) :
    Hangs held (arcLog cfg .error [] ++ arcLog cfg .fatal [] ++ [.act]) := by
  rw [arcLog, arcLog, log_fatal hflush, log]
  split_ifs <;> simp_all [logger, Hangs]

/-! ## What stands behind a step -/

/-- Behind a thread's last step nothing is left, and behind the steps that store the reason
and disable the drives there is a fatal message. -/
def stepTail (cfg : Config) (core : Core) : Thread → Option (List (Instr Mu))
  | .main =>
      match core.main with
      | .bringup | .bringupFailed | .calibrationFailed | .finish _ => some []
      | _ => none
  | .estop =>
      match core.estop with
      | .driveEstop => some (arcLog cfg .fatal [])
      | .exiting => some []
      | _ => none
  | .control =>
      match core.control with
      | .handling _ _ _ .triggerStore => some (.unlock .estop :: arcLog cfg .fatal reasonString)
      | .exiting => some []
      | _ => none
  | .sensor => if core.sensor = .exiting then some [] else none
  | .io => if core.io = .exiting then some [] else none
  | .persist => if core.persist = .exiting then some [] else none
  | .client => none

theorem afterStep_last {before : List (Instr Mu)} (hbefore : .act ∉ before) :
    AfterStep [] (before ++ [.act]) :=
  afterStep_of_notMem hbefore (by simp)

theorem afterStep_around {core : Core} {thread : Thread} {rest : List (Instr Mu)}
    (htail : stepTail cfg core thread = some rest) :
    AfterStep rest (around cfg core thread) := by
  have hlog (lvl : Level) : .act ∉ arcLog cfg lvl [] := act_notMem_arcLog (by simp)
  cases thread with
  | main =>
      cases hpc : core.main <;> simp only [stepTail, hpc, Option.some.injEq, reduceCtorEq] at htail
      all_goals
        subst htail
        simp only [around, hpc, mainScript]
        exact afterStep_last (by simp [hlog])
  | control =>
      simp only [stepTail] at htail
      split at htail
      · rename_i nowNs left cmd hpc
        cases htail
        simp only [around, hpc, controlScript, handlerScript]
        refine afterStep_of_notMem (show Instr.act ∉ [Instr.lock Mu.estop] by simp) ?_
        rw [List.mem_cons, not_or]
        exact ⟨by simp, act_notMem_arcLog (by simp [reasonString])⟩
      · rename_i hpc
        cases htail
        simp only [around, hpc, controlScript]
        exact afterStep_last (hlog _)
      · cases htail
  | client => cases htail
  | estop =>
      simp only [stepTail] at htail
      split at htail
      · rename_i hpc
        cases htail
        simp only [around, hpc, estopScript]
        exact afterStep_of_notMem (show Instr.act ∉ ([] : List (Instr Mu)) by simp) (hlog _)
      · rename_i hpc
        cases htail
        simp only [around, hpc, estopScript]
        exact afterStep_last (hlog _)
      · cases htail
  | sensor =>
      simp only [stepTail, Option.ite_none_right_eq_some, Option.some.injEq] at htail
      obtain ⟨hpc, rfl⟩ := htail
      simp only [around, hpc, sensorScript]
      exact afterStep_last (hlog _)
  | io =>
      simp only [stepTail, Option.ite_none_right_eq_some, Option.some.injEq] at htail
      obtain ⟨hpc, rfl⟩ := htail
      simp only [around, hpc, ioScript]
      exact afterStep_last (hlog _)
  | persist =>
      simp only [stepTail, Option.ite_none_right_eq_some, Option.some.injEq] at htail
      obtain ⟨hpc, rfl⟩ := htail
      simp only [around, hpc, persistScript]
      exact afterStep_last (hlog _)

theorem stepTail_of_moves {world : World} {core next : Core} {thread moving : Thread}
    {events : List Event} (hother : moving ≠ thread)
    (hmoves : Moves world core moving next events) :
    stepTail cfg next thread = stepTail cfg core thread := by
  cases hmoves <;> cases thread <;> simp_all [stepTail]

theorem tailed : Tailed system (locking cfg) Boot (stepTail cfg) where
  once := fun core thread => by
    simp only [locking]
    split_ifs
    · exact (count_act_around core thread).le
    · simp
  script := fun core thread rest htail => by
    simp only [locking]
    split_ifs
    · exact afterStep_around htail
    · exact fun before rest hsplit => by simp at hsplit
  keep := fun core label next events hboot hstep => hboot.moves (moves_of_step hstep)
  other := fun core label next events thread rest hother hstep htail => by
    rwa [← stepTail_of_moves hother (moves_of_step hstep)]

/-- The main thread has returned; another thread has, or was never started. -/
def AtRest (core : Core) : Thread → Prop
  | .main => ∃ code, core.main = .returned code
  | thread => ¬ CanMove core thread

/-- The step that ends a thread. -/
theorem stepTail_of_own {world : World} {core next : Core} {thread : Thread}
    {events : List Event} (hmoves : Moves world core thread next events)
    (hrest : AtRest next thread) : stepTail cfg core thread = some [] := by
  have hthreads : thread ≠ .main → next.shared.threads = core.shared.threads :=
    fun hother => (threads_of_moves hother hmoves).2.1
  have hexited : thread ≠ .main → thread ≠ .client → thread ∈ core.shared.threads →
      next.Exited thread := by
    intro hmain hclient hthread
    by_contra hbusy
    rw [← hthreads hmain] at hthread
    cases thread with
    | main => exact hmain rfl
    | client => exact hclient rfl
    | _ => exact hrest ⟨hthread, hbusy⟩
  cases hmoves with
  | main shared pc events hmoves =>
      obtain ⟨code, hcode⟩ := hrest
      cases hmoves <;> simp_all [stepTail]
  | append => exact absurd trivial hrest
  | control shared pc events hthread hmoves | estop shared pc events hthread hmoves
  | sensor shared pc events hthread hmoves | io shared pc events hthread hmoves
  | persist shared pc events hthread hmoves =>
      have hpc : pc = .exited := hexited (by simp) (by simp) hthread
      cases hmoves <;> simp_all [stepTail]

theorem returning : Returning system (locking cfg) Boot (stepTail cfg) AtRest where
  still := fun core thread hrest => by
    have hstuck : (step core (thread, {})).isSome = false := by
      rw [← Bool.not_eq_true, isSome_step_iff]
      cases thread with
      | main =>
          obtain ⟨code, hcode⟩ := hrest
          simp [CanMove, hcode]
      | _ => exact hrest
    simp only [locking, hstuck]
    rfl
  own := fun core label next events _ hstep hrest => stepTail_of_own (moves_of_step hstep) hrest
  other := fun core label next events thread hboot hother hstep hrest => by
    have hmoves := moves_of_step hstep
    cases thread with
    | main =>
        obtain ⟨code, hcode⟩ := hrest
        exact ⟨code, (threads_of_moves hother hmoves).1.symm.trans hcode⟩
    | _ => exact fun hcan => hrest (hcan.moves hboot hother hmoves)

/-! ## After `run` -/

section Run

variable {dir : DataDir} {trace later events : List Event} {code : ℕ}
variable {state next final : Guarded Core Thread Mu}

theorem holding_run (hrun : Run (withLocks cfg) always (idle (powerOn dir)) trace state) :
    Holding state := Holding.run unlocks_script hrun

theorem winding_run (hrun : Run (withLocks cfg) always (idle (powerOn dir)) trace state) :
    Winding Boot (stepTail cfg) state := Winding.run tailed (boot_powerOn dir) hrun

/-- When `run` has returned, every thread of the core is at rest. -/
theorem atRest_of_returned {core : Core} (hboot : Boot core)
    (hreturned : core.main = .returned code) {thread : Thread} (hclient : thread ≠ .client) :
    AtRest core thread := by
  have hthreads : core.shared.threads = [] := by rw [hboot.threads, hreturned]; rfl
  cases thread with
  | main => exact ⟨code, hreturned⟩
  | client => exact absurd rfl hclient
  | _ =>
      rintro ⟨hthread, -⟩
      rw [hthreads] at hthread
      cases hthread

/-- The clients do not log. -/
theorem todo_client (hrun : Run (withLocks cfg) always (idle (powerOn dir)) trace state) :
    state.todo .client = [] ∨ state.todo .client = [.act] := by
  refine hrun.invariant (fun _ state => state.todo .client = [] ∨ state.todo .client = [.act])
    (.inl rfl) ?_
  intro trace state label next events _ htodo _ hstep
  have hmoves := guardedMoves_of_step hstep
  by_cases hclient : (locking cfg).agent label = .client
  · have hself := hmoves.todo_self
    rw [hclient] at hself
    rcases hself with ⟨-, -, hload⟩ | ⟨instr, hinstr, -, hleft⟩ | ⟨hleft, -⟩
    · exact .inr hload
    · rw [hleft] at htodo
      simp [hinstr] at htodo
    · rw [hleft] at htodo
      simp_all
  · rwa [hmoves.todo_other hclient]

/-- Nothing of the core is left: no mutex is taken, and no thread but a client has anything
to do or can start anything. -/
structure LeftAlone (cfg : Config) (state : Guarded Core Thread Mu) : Prop where
  free : ∀ mutex, state.owner mutex = none
  idle : ∀ thread, thread ≠ .client → state.todo thread = []
  still : ∀ label : Thread × World, label.1 ≠ .client → (withLocks cfg).step state label = none

theorem leftAlone_of_returned
    (hrun : Run (withLocks cfg) always (idle (powerOn dir)) trace state)
    (hreturned : state.base.main = .returned code) : LeftAlone cfg state := by
  have hboot := Boot.run (run_base hrun)
  have hidle : ∀ thread, thread ≠ .client → state.todo thread = [] := fun thread hclient =>
    todo_of_returned tailed returning (boot_powerOn dir) hrun
      (atRest_of_returned hboot hreturned hclient)
  refine ⟨fun mutex => ?_, hidle, fun label hclient => ?_⟩
  · have hnone : ∀ thread, holds state thread = ∅ := fun thread => by
      have hholding := holding_run hrun thread
      by_cases hclient : thread = .client
      · subst hclient
        rcases todo_client hrun with htodo | htodo <;> rwa [htodo] at hholding
      · rwa [hidle thread hclient] at hholding
    cases howner : state.owner mutex with
    | none => rfl
    | some thread =>
        have hmem : mutex ∈ holds state thread := howner
        rw [hnone thread] at hmem
        exact hmem.elim
  · have hscript : (locking cfg).script state.base label.1 = [] :=
      returning.still _ _ (atRest_of_returned hboot hreturned hclient)
    have htodo := hidle label.1 hclient
    simp only [withLocks, guarded, guardedStep]
    rw [show (locking cfg).agent label = label.1 from rfl, htodo, hscript]
    rfl

/-- When `run` has returned, every log call of the core has returned, the mutexes are free,
and however the clients go on nobody locks one again. -/
theorem logger_unused_after_run (cfg : Config) (dir : DataDir) (trace later : List Event)
    (state final : Guarded Core Thread Mu) (code : ℕ)
    (hrun : Run (withLocks cfg) always (idle (powerOn dir)) trace state)
    (hreturned : state.base.main = .returned code)
    (hlater : Run (withLocks cfg) always state later final) :
    later = [] ∧ final.base.main = .returned code ∧ LeftAlone cfg final := by
  have hquiet : later = [] ∧ final.base.main = .returned code := by
    refine hlater.invariant (fun later final => later = [] ∧ final.base.main = .returned code)
      ⟨rfl, hreturned⟩ ?_
    rintro later middle label next events hbefore ⟨rfl, hmain⟩ _ hstep
    have hclient : label.1 = .client := by
      by_contra hother
      have hstill := (leftAlone_of_returned (hrun.append hbefore) hmain).still label hother
      rw [hstill] at hstep
      cases hstep
    cases guardedMoves_of_step hstep with
    | act rest base events htodo hbase =>
        have hmoves := moves_of_step hbase
        obtain ⟨thread, world⟩ := label
        obtain rfl : thread = .client := hclient
        cases hmoves with
        | append => exact ⟨rfl, hmain⟩
    | _ => exact ⟨rfl, hmain⟩
  exact ⟨hquiet.1, hquiet.2, leftAlone_of_returned (hrun.append hlater) hquiet.2⟩

/-! ## A core that flushes -/

/-- Where flushed fatal messages leave the threads that log them: a core whose bridge is
refused hangs before it returns, the control thread hangs once it has latched, and the
E-stop thread once it has disabled the drives. -/
structure Stuck (state : Guarded Core Thread Mu) : Prop where
  refused : state.base.main = .bringupFailed →
    state.todo .main = [] ∨ Hangs (holds state .main) (state.todo .main)
  up : state.base.main ≠ .returned 2
  latched : state.base.shared.estop.latched = true →
    (∃ nowNs left cmd, state.base.control = .handling nowNs left cmd .triggerStore) ∨
      Hangs (holds state .control) (state.todo .control)
  driven : state.base.estop = .requestStop → Hangs (holds state .estop) (state.todo .estop)

theorem moves_of_baseStep {thread : Thread} {world : World} {core after : Core}
    (hstep : system.step core (thread, world) = some (after, events)) :
    Moves world core thread after events :=
  moves_of_step (show Runtime.step core (thread, world) = _ from hstep)

/-- What a step of the main thread leaves of it. -/
theorem Stuck.main {world : World} (hstuck : Stuck state) (hflush : cfg.flushAlways = true)
    (hholding : Holding state) (hwinding : Winding Boot (stepTail cfg) state)
    (hmoves : GuardedMoves system (locking cfg) state (.main, world) next events) :
    (next.base.main = .bringupFailed →
      next.todo .main = [] ∨ Hangs (holds next .main) (next.todo .main)) ∧
      next.base.main ≠ .returned 2 := by
  rcases hmoves.todo_self with ⟨-, hbase, hload⟩ | ⟨instr, hinstr, hbase, hleft⟩ | ⟨hleft, hstep⟩
  · refine ⟨fun hpc => .inr ?_, by rw [hbase]; exact hstuck.up⟩
    rw [hbase] at hpc
    have hscript : (locking cfg).script state.base .main =
        arcLog cfg .error [] ++ arcLog cfg .fatal [] ++ [.act] := by
      simp [locking, step, mainStep, hpc, around, mainScript]
    have htodo : next.todo .main = arcLog cfg .error [] ++ arcLog cfg .fatal [] ++ [.act] :=
      hload.trans hscript
    rw [htodo]
    exact hangs_bringupFailed hflush _
  · refine ⟨fun hpc => ?_, by rw [hbase]; exact hstuck.up⟩
    rw [hbase] at hpc
    rcases hstuck.refused hpc with hnil | hangs
    · rw [show state.todo .main = _ from hleft] at hnil
      cases hnil
    · exact .inr (hangs.moves hholding hmoves rfl).2.2
  · change state.todo .main = .act :: next.todo .main at hleft
    have hlive := hwinding.base.live
    have hrefused := hstuck.refused
    have hafter : state.base.main = .bringup → next.todo .main = [] := fun hpc =>
      hwinding.after .main [] (by simp [stepTail, hpc]) [] _ hleft
    have hmoves := moves_of_baseStep hstep
    generalize next.base = core at hmoves ⊢
    cases hmoves with
    | main shared pc events hmoves =>
        cases hmoves with
        | bringupRefused hpc => exact ⟨fun _ => .inl (hafter hpc), by simp⟩
        | bringupFailed hpc =>
            rcases hrefused hpc with hnil | hangs
            · rw [hleft] at hnil
              cases hnil
            · rw [hleft] at hangs
              exact hangs.elim
        | finish code hpc =>
            rw [hpc] at hlive
            obtain rfl : code = 0 := hlive
            exact ⟨by simp, by simp⟩
        | _ => exact ⟨by simp, by simp⟩

/-- What a step of the control thread leaves of it. -/
theorem Stuck.control {world : World} (hstuck : Stuck state) (hflush : cfg.flushAlways = true)
    (hholding : Holding state) (hwinding : Winding Boot (stepTail cfg) state)
    (hmoves : GuardedMoves system (locking cfg) state (.control, world) next events)
    (hlatched : next.base.shared.estop.latched = true) :
    (∃ nowNs left cmd, next.base.control = .handling nowNs left cmd .triggerStore) ∨
      Hangs (holds next .control) (next.todo .control) := by
  have hbefore := hstuck.latched
  have hkept (hbase : next.base = state.base) :
      (∃ nowNs left cmd, next.base.control = .handling nowNs left cmd .triggerStore) ∨
        Hangs (holds next .control) (next.todo .control) := by
    rw [hbase] at hlatched ⊢
    exact (hbefore hlatched).imp_right fun hangs => (hangs.moves hholding hmoves rfl).2.2
  rcases hmoves.todo_self with ⟨-, hbase, -⟩ | ⟨instr, hinstr, hbase, hleft⟩ | ⟨hleft, hstep⟩
  · exact hkept hbase
  · exact hkept hbase
  · change state.todo .control = .act :: next.todo .control at hleft
    by_cases hlatchedBefore : state.base.shared.estop.latched = true
    · rcases hbefore hlatchedBefore with ⟨nowNs, left, cmd, hpc⟩ | hangs
      · have htail : stepTail cfg state.base .control =
            some (.unlock .estop :: arcLog cfg .fatal reasonString) := by simp only [stepTail, hpc]
        refine .inr ?_
        rw [hwinding.after .control _ htail [] _ hleft]
        exact hangs_latched hflush _
      · rw [hleft] at hangs
        exact hangs.elim
    · have hmoves := moves_of_baseStep hstep
      refine .inl ?_
      generalize next.base = core at hmoves hlatched ⊢
      cases hmoves with
      | control shared pc events hthread hmoves =>
          cases hmoves with
          | handle nowNs left cmd before after shared events hpc hhandler =>
              cases hhandler with
              | latch hbefore hclear => exact ⟨nowNs, left, cmd, rfl⟩
              | _ => exact absurd hlatched hlatchedBefore
          | _ => exact absurd hlatched hlatchedBefore

/-- What a step of the E-stop thread leaves of it. -/
theorem Stuck.estop {world : World} (hstuck : Stuck state) (hflush : cfg.flushAlways = true)
    (hholding : Holding state) (hwinding : Winding Boot (stepTail cfg) state)
    (hmoves : GuardedMoves system (locking cfg) state (.estop, world) next events)
    (hpc : next.base.estop = .requestStop) : Hangs (holds next .estop) (next.todo .estop) := by
  have hkept (hbase : next.base = state.base) : Hangs (holds next .estop) (next.todo .estop) := by
    rw [hbase] at hpc
    exact ((hstuck.driven hpc).moves hholding hmoves rfl).2.2
  rcases hmoves.todo_self with ⟨-, hbase, -⟩ | ⟨instr, hinstr, hbase, hleft⟩ | ⟨hleft, hstep⟩
  · exact hkept hbase
  · exact hkept hbase
  · change state.todo .estop = .act :: next.todo .estop at hleft
    have hdriving : state.base.estop = .driveEstop := by
      have hmoves := moves_of_baseStep hstep
      generalize next.base = core at hmoves hpc
      cases hmoves with
      | estop shared pc events hthread hmoves => cases hmoves <;> simp_all
    have htail : stepTail cfg state.base .estop = some (arcLog cfg .fatal []) := by
      simp only [stepTail, hdriving]
    rw [hwinding.after .estop _ htail [] _ hleft]
    exact hangs_fatal hflush _

/-- Only the control thread latches. -/
theorem estop_of_moves {world : World} {core after : Core} {thread : Thread}
    (hmoves : Moves world core thread after events) (hother : thread ≠ .control)
    (hlatched : after.shared.estop.latched = true) : core.shared.estop.latched = true := by
  cases hmoves with
  | control shared pc events hthread hmoves => exact absurd rfl hother
  | append => exact hlatched
  | main shared pc events hmoves | estop shared pc events hthread hmoves
  | sensor shared pc events hthread hmoves | io shared pc events hthread hmoves
  | persist shared pc events hthread hmoves => cases hmoves <;> exact hlatched

theorem Stuck.moves {label : Thread × World} (hstuck : Stuck state)
    (hflush : cfg.flushAlways = true) (hholding : Holding state)
    (hwinding : Winding Boot (stepTail cfg) state)
    (hmoves : GuardedMoves system (locking cfg) state label next events) : Stuck next := by
  obtain ⟨thread, world⟩ := label
  have hmain : (next.base.main = .bringupFailed →
      next.todo .main = [] ∨ Hangs (holds next .main) (next.todo .main)) ∧
      next.base.main ≠ .returned 2 := by
    by_cases hthread : thread = .main
    · subst hthread
      exact hstuck.main hflush hholding hwinding hmoves
    · have hsame : next.base.main = state.base.main := by
        rcases base_of_guardedMoves hmoves with hbase | hstep
        · rw [hbase]
        · exact (threads_of_moves hthread (moves_of_baseStep hstep)).1
      rw [hsame, hmoves.todo_other hthread, hholding.holds_other hmoves hthread]
      exact ⟨hstuck.refused, hstuck.up⟩
  refine ⟨hmain.1, hmain.2, fun hlatched => ?_, fun hpc => ?_⟩
  · by_cases hthread : thread = .control
    · subst hthread
      exact hstuck.control hflush hholding hwinding hmoves hlatched
    · rw [hmoves.todo_other hthread, hholding.holds_other hmoves hthread]
      rcases base_of_guardedMoves hmoves with hbase | hstep
      · rw [hbase] at hlatched ⊢
        exact hstuck.latched hlatched
      · have hmoved := moves_of_baseStep hstep
        rw [hmoved.control_of_ne hthread]
        exact hstuck.latched (estop_of_moves hmoved hthread hlatched)
  · by_cases hthread : thread = .estop
    · subst hthread
      exact hstuck.estop hflush hholding hwinding hmoves hpc
    · rw [hmoves.todo_other hthread, hholding.holds_other hmoves hthread]
      refine hstuck.driven ?_
      rcases base_of_guardedMoves hmoves with hbase | hstep
      · rwa [← hbase]
      · rwa [← (moves_of_baseStep hstep).estop_of_ne hthread]

theorem Stuck.run (hflush : cfg.flushAlways = true)
    (hrun : Run (withLocks cfg) always (idle (powerOn dir)) trace state) : Stuck state := by
  refine hrun.invariant (fun _ state => Stuck state)
    ⟨fun h => (by cases h), by simp [idle, powerOn], fun h => (by cases h),
      fun h => (by cases h)⟩ ?_
  intro trace state label next events hrun hstuck _ hstep
  exact hstuck.moves hflush (holding_run hrun) (winding_run hrun) (guardedMoves_of_step hstep)

/-- When `run` has returned, the control thread has nothing left to hang in. -/
theorem clear_of_returned (hflush : cfg.flushAlways = true)
    (hrun : Run (withLocks cfg) always (idle (powerOn dir)) trace state)
    (hreturned : state.base.main = .returned code) :
    code = 0 ∧ state.base.shared.estop.latched = false := by
  have hboot := Boot.run (run_base hrun)
  have hstuck := Stuck.run hflush hrun
  have hlive := hboot.live
  rw [hreturned] at hlive
  have hcode : code = 0 := hlive.resolve_right fun htwo => hstuck.up (htwo ▸ hreturned)
  have hjoined : .control ∈ state.base.main.joined := by
    rw [hreturned, hcode]
    decide
  have hcontrol : state.base.control = .exited :=
    hboot.finished .control (hboot.joined .control hjoined)
  refine ⟨hcode, ?_⟩
  by_contra hlatched
  rcases hstuck.latched (by simpa using hlatched) with ⟨nowNs, left, cmd, hpc⟩ | hangs
  · rw [hcontrol] at hpc
    cases hpc
  · rw [(leftAlone_of_returned hrun hreturned).idle .control (by simp)] at hangs
    exact hangs

/-- With flushed fatal messages `run` returns only from a core that has come up and has
latched no emergency stop. -/
theorem returns_only_unlatched (cfg : Config) (hflush : cfg.flushAlways = true) (dir : DataDir)
    (trace : List Event) (state : Guarded Core Thread Mu) (code : ℕ)
    (hrun : Run (withLocks cfg) always (idle (powerOn dir)) trace state)
    (hreturned : state.base.main = .returned code) :
    code = 0 ∧ state.base.shared.estop.latched = false ∧ .latched ∉ trace := by
  obtain ⟨hcode, hclear⟩ := clear_of_returned hflush hrun hreturned
  exact ⟨hcode, hclear, (EStopRun.Latch.run (run_base hrun)).unmarked hclear⟩

/-! ## After an emergency stop -/

/-- Who sets the stop flag. -/
theorem stop_of_moves {world : World} {core after : Core} {thread : Thread}
    (hmoves : Moves world core thread after events) :
    after.shared.stop = core.shared.stop ∨
      thread = .main ∧ (∃ code, core.main = .requestStop code) ∧
        after.shared.stop.stop = true ∨
      thread = .estop ∧ core.estop = .requestStop ∨
      thread = .control ∧
        ∃ nowNs left cmd result, core.control = .handling nowNs left cmd (.requestStop result) := by
  cases hmoves with
  | append => exact .inl rfl
  | main shared pc events hmoves =>
      cases hmoves with
      | requestStop code hpc => exact .inr (.inl ⟨rfl, ⟨code, hpc⟩, rfl⟩)
      | _ => exact .inl rfl
  | estop shared pc events hthread hmoves =>
      cases hmoves with
      | requestStop hpc => exact .inr (.inr (.inl ⟨rfl, hpc⟩))
      | _ => exact .inl rfl
  | control shared pc events hthread hmoves =>
      cases hmoves with
      | handle nowNs left cmd before pc shared events hpc hhandler =>
          cases hhandler with
          | requestStop result hbefore =>
              exact .inr (.inr (.inr ⟨rfl, nowNs, left, cmd, result, hbefore ▸ hpc⟩))
          | _ => exact .inl rfl
      | _ => exact .inl rfl
  | sensor shared pc events hthread hmoves | io shared pc events hthread hmoves
  | persist shared pc events hthread hmoves => cases hmoves <;> exact .inl rfl

/-- The main thread requests a stop only where one is requested already. -/
theorem stop_of_leaving {core : Core} (hrun : Run system always (powerOn dir) trace core)
    (hpc : core.main = .requestStop code) : core.shared.stop.stop = true := by
  refine hrun.invariant
    (fun _ core => ∀ code, core.main = .requestStop code → core.shared.stop.stop = true)
    (fun code h => by cases h) ?_ code hpc
  intro trace core label next events hrun hstop _ hstep code hpc
  have hmoves := moves_of_step hstep
  have hlive := (Boot.run hrun).live
  by_cases hmain : label.1 = .main
  · obtain ⟨thread, world⟩ := label
    obtain rfl : thread = .main := hmain
    cases hmoves with
    | main shared pc events hmoves =>
        cases hmoves with
        | leave hwaiting hrequested => exact hrequested
        | enableFailed hfailed =>
            rw [hfailed] at hlive
            exact hlive.elim
        | _ => cases hpc
  · rw [(threads_of_moves hmain hmoves).1] at hpc
    exact EStopRun.stop_mono hmoves (hstop code hpc)

/-- One step of a core that has latched. -/
theorem Stuck.stays {label : Thread × World} (hstuck : Stuck state)
    (hrun : Run system always (powerOn dir) trace state.base)
    (hlatched : state.base.shared.estop.latched = true)
    (hmoves : GuardedMoves system (locking cfg) state label next events) :
    (∀ event ∈ events, Paced.author event ≠ .control) ∧
      next.base.shared.stop = state.base.shared.stop := by
  cases hmoves with
  | act rest base events htodo hstep =>
      obtain ⟨thread, world⟩ := label
      change state.todo thread = .act :: rest at htodo
      have hmoved : Moves world state.base thread base events := moves_of_baseStep hstep
      refine ⟨fun event hevent hauthor => ?_, ?_⟩
      · obtain rfl : thread = .control := (Paced.author_of_mem hmoved hevent).symm.trans hauthor
        rcases hstuck.latched hlatched with ⟨nowNs, left, cmd, hpc⟩ | hangs
        · cases hmoved with
          | control shared pc events hthread hmoves =>
              cases hmoves with
              | handle nowNs left cmd before after shared events hbefore hhandler =>
                  cases hhandler <;> simp_all
              | _ => simp_all
        · rw [htodo] at hangs
          exact hangs
      · rcases stop_of_moves hmoved with
          hsame | ⟨rfl, ⟨code, hpc⟩, hset⟩ | ⟨rfl, hpc⟩ | ⟨rfl, nowNs, left, cmd, result, hpc⟩
        · exact hsame
        · have hbefore := stop_of_leaving hrun hpc
          exact congrArg Safety.StopController.mk (hset.trans hbefore.symm)
        · have hangs := hstuck.driven hpc
          rw [htodo] at hangs
          exact hangs.elim
        · rcases hstuck.latched hlatched with ⟨nowNs, left, cmd, hstoring⟩ | hangs
          · rw [hpc] at hstoring
            cases hstoring
          · rw [htodo] at hangs
            exact hangs.elim
  | _ => exact ⟨by simp, rfl⟩

/-- What follows an emergency stop: the control thread does nothing any more, the stop flag
stays as it is, and `run` does not return. -/
structure RunsOn (state : Guarded Core Thread Mu) (later : List Event)
    (final : Guarded Core Thread Mu) : Prop where
  silent : ∀ event ∈ later, Paced.author event ≠ .control
  stop : final.base.shared.stop = state.base.shared.stop
  busy : ∀ code, final.base.main ≠ .returned code

/-- With flushed fatal messages nothing follows the latch: no command is taken, answered or
published any more, no stop is requested, and `run` never returns. -/
theorem latched_runs_on (cfg : Config) (hflush : cfg.flushAlways = true) (dir : DataDir)
    (trace later : List Event) (state final : Guarded Core Thread Mu)
    (hrun : Run (withLocks cfg) always (idle (powerOn dir)) trace state)
    (hlatched : state.base.shared.estop.latched = true)
    (hlater : Run (withLocks cfg) always state later final) : RunsOn state later final := by
  have hstays : (∀ event ∈ later, Paced.author event ≠ .control) ∧
      final.base.shared.stop = state.base.shared.stop ∧
        final.base.shared.estop.latched = true := by
    refine hlater.invariant (fun later final =>
      (∀ event ∈ later, Paced.author event ≠ .control) ∧
        final.base.shared.stop = state.base.shared.stop ∧
          final.base.shared.estop.latched = true) ⟨by simp, rfl, hlatched⟩ ?_
    rintro later middle label next events hbefore ⟨hsilent, hstop, hlatched⟩ _ hstep
    have hreached := hrun.append hbefore
    have hmoves := guardedMoves_of_step hstep
    obtain ⟨hevents, hsame⟩ :=
      (Stuck.run hflush hreached).stays (run_base hreached) hlatched hmoves
    refine ⟨fun event hevent => ?_, hsame.trans hstop, ?_⟩
    · exact (List.mem_append.1 hevent).elim (hsilent event) (hevents event)
    · rcases base_of_guardedMoves hmoves with hbase | hbase
      · rwa [hbase]
      · exact EStopRun.latched_mono (moves_of_step hbase) hlatched
  refine ⟨hstays.1, hstays.2.1, fun code hreturned => ?_⟩
  have hclear := (clear_of_returned hflush (hrun.append hlater) hreturned).2
  rw [hstays.2.2] at hclear
  cases hclear

end Run

/-! ## A `Shutdown` and an emergency stop -/

private def returningDir : DataDir := freshDir (plainLine .shutdown 1 ++ [newline])

/-- A `Shutdown`, from the start of the process to the end of `run`; nothing fatal is
logged. -/
private theorem exists_returned (cfg : Config) :
    ∃ (trace : List Event) (core : Core), core.main = .returned 0 ∧
      Run (withLocks cfg) always (idle (powerOn returningDir)) trace (idle core) := by
  obtain ⟨⟨core, trace⟩, hexecute, hmain⟩ := Option.map_eq_some_iff.1
    (show (execute system NoFatal (powerOn returningDir)
        (bootSchedule ++ times 5 .io ++ times 14 .control ++ times 5 .io ++ times 3 .estop ++
          times 3 .sensor ++ times 3 .persist ++ times 12 .main)).map (fun result =>
          result.1.main) = some (.returned 0) by decide +kernel)
  exact ⟨trace, core, hmain, run_withLocks_of_noFatal cfg (run_of_execute hexecute)⟩

theorem logger_unused_after_shutdown :
    ∃ (trace : List Event) (state : Guarded Core Thread Mu),
      Run (withLocks mainConfig) always (idle (powerOn returningDir)) trace state ∧
        state.base.main = .returned 0 ∧ LeftAlone mainConfig state := by
  obtain ⟨trace, core, hmain, hrun⟩ := exists_returned mainConfig
  exact ⟨trace, idle core, hrun,
    (logger_unused_after_run mainConfig _ trace [] _ _ 0 hrun hmain .start).2⟩

theorem returns_only_unlatched_shutdown :
    ∃ (trace : List Event) (state : Guarded Core Thread Mu),
      Run (withLocks mainConfig) always (idle (powerOn returningDir)) trace state ∧
        state.base.main = .returned 0 ∧ state.base.shared.estop.latched = false ∧
          .latched ∉ trace := by
  obtain ⟨trace, core, hmain, hrun⟩ := exists_returned mainConfig
  exact ⟨trace, idle core, hrun, hmain,
    (returns_only_unlatched mainConfig rfl _ trace _ 0 hrun hmain).2⟩

theorem latched_runs_on_stop :
    ∃ (trace : List Event) (state : Guarded Core Thread Mu),
      Run (withLocks mainConfig) always (idle (powerOn stopDir)) trace state ∧
        state.base.shared.estop.latched = true ∧
          ∀ later final, Run (withLocks mainConfig) always state later final →
            RunsOn state later final := by
  obtain ⟨⟨core, trace⟩, hexecute, hlatched⟩ := Option.map_eq_some_iff.1
    (show (execute system NoFatal (powerOn stopDir)
        (bootSchedule ++ times 5 .io ++ times 7 .control)).map (fun result =>
          result.1.shared.estop.latched) = some true by decide +kernel)
  have hrun := run_withLocks_of_noFatal mainConfig (run_of_execute hexecute)
  exact ⟨trace, idle core, hrun, hlatched, fun later final hlater =>
    latched_runs_on mainConfig rfl stopDir trace later (idle core) final hrun hlatched hlater⟩

end ArcravenUgv.AfterRun
