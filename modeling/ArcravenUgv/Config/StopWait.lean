import ArcravenUgv.Config.Drives
import ArcravenUgv.Config.EStopRun
import ArcravenUgv.Config.Terminates
import ArcravenUgv.Lib.Simulation

/-!
# The wait for the stop

`core/StopController.hpp` with its mutex and its condition variable, and the loop of
`run` that waits there.  In `Config.Runtime` the main thread tests the flag again and
again; here it blocks in between, for a time at most.
-/

namespace ArcravenUgv.StopWait

open ArcravenUgv.Runs
open ArcravenUgv.Fair
open ArcravenUgv.EStopRun
open ArcravenUgv.Terminates
open ArcravenUgv.Runtime

/-- Where the main thread is in `wait_for_stop`; `timedOut` is what the wait on the
condition variable has returned. -/
inductive WaitPc
  | out
  | locking
  | testing (timedOut : Bool)
  | blocking
  | blocked
  | relocking (timedOut : Bool)
  | unlocking
  deriving DecidableEq, Repr

/-- The core, the main thread in its wait, whether `StopController::mu_` is taken, and
who has stored the flag and not notified yet. -/
structure Waiting where
  core : Core
  wait : WaitPc
  locked : Bool
  notifying : List Thread

/-- Besides the threads' steps: the wait ends because its time is over, or for no
reason. -/
inductive Label
  | thread (thread : Thread) (world : World)
  | timeout
  | spurious
  deriving DecidableEq, Repr

/-- `wait_for_stop`.  Blocking unlocks the mutex at once; whoever is woken locks it
before he tests the flag again. -/
def waitStep (state : Waiting) : Option Waiting :=
  match state.wait with
  | .locking =>
      if state.locked then none else some { state with locked := true, wait := .testing false }
  | .testing timedOut =>
      if state.core.shared.stop.stop || timedOut then some { state with wait := .unlocking }
      else some { state with wait := .blocking }
  | .blocking => some { state with locked := false, wait := .blocked }
  | .relocking timedOut =>
      if state.locked then none else some { state with locked := true, wait := .testing timedOut }
  | .unlocking => some { state with locked := false, wait := .out }
  | .out | .blocked => none

/-- A blocked main thread is woken. -/
def Waiting.wake (state : Waiting) (timedOut : Bool) : Waiting :=
  if state.wait = .blocked then { state with wait := .relocking timedOut } else state

/-- `request_stop` is a store, a step of the core, and `notify_all` after it. -/
def step (state : Waiting) : Label → Option (Waiting × List Event)
  | .thread thread world =>
      if thread ∈ state.notifying then
        some ({ state with notifying := state.notifying.erase thread }.wake false, [])
      else if thread = .main ∧ state.wait ≠ .out then
        (waitStep state).map fun next => (next, [])
      else if thread = .main ∧ state.core.main = .testStop ∧
          state.core.shared.stop.stop = false then
        some ({ state with wait := .locking }, [])
      else
        match Runtime.step state.core (thread, world) with
        | none => none
        | some (core, events) =>
            some ({ state with
              core := core
              notifying :=
                if .stopRequested thread ∈ events then thread :: state.notifying
                else state.notifying }, events)
  | .timeout => if state.wait = .blocked then some (state.wake true, []) else none
  | .spurious => if state.wait = .blocked then some (state.wake false, []) else none

def waitSystem : System Waiting Label Event where
  step := step

/-- Outside the wait. -/
def outside (core : Core) : Waiting where
  core := core
  wait := .out
  locked := false
  notifying := []

/-- What a step does. -/
inductive WaitMoves (state : Waiting) : Label → Waiting → List Event → Prop
  | notify (thread : Thread) (world : World) (hnotifying : thread ∈ state.notifying) :
      WaitMoves state (.thread thread world)
        ({ state with notifying := state.notifying.erase thread }.wake false) []
  | wait (world : World) (next : Waiting) (hnotifying : .main ∉ state.notifying)
      (hwait : state.wait ≠ .out) (hstep : waitStep state = some next) :
      WaitMoves state (.thread .main world) next []
  | enter (world : World) (hnotifying : .main ∉ state.notifying) (hwait : state.wait = .out)
      (hmain : state.core.main = .testStop) (hstop : state.core.shared.stop.stop = false) :
      WaitMoves state (.thread .main world) { state with wait := .locking } []
  | core (thread : Thread) (world : World) (next : Core) (events : List Event)
      (hnotifying : thread ∉ state.notifying) (hwait : thread = .main → state.wait = .out)
      (hloop : ¬ (thread = .main ∧ state.core.main = .testStop ∧
        state.core.shared.stop.stop = false))
      (hstep : Runtime.step state.core (thread, world) = some (next, events)) :
      WaitMoves state (.thread thread world) { state with
        core := next
        notifying := if .stopRequested thread ∈ events then thread :: state.notifying
          else state.notifying } events
  | timeout (hwait : state.wait = .blocked) : WaitMoves state .timeout (state.wake true) []
  | spurious (hwait : state.wait = .blocked) : WaitMoves state .spurious (state.wake false) []

section Moves

variable {state next : Waiting} {label : Label} {events : List Event}

theorem waitMoves_of_step (hstep : step state label = some (next, events)) :
    WaitMoves state label next events := by
  cases label with
  | thread thread world =>
      simp only [step] at hstep
      split_ifs at hstep with hnotifying hwait hloop
      · cases hstep
        exact .notify thread world hnotifying
      · obtain ⟨rfl, hwait⟩ := hwait
        obtain ⟨after, hafter, heq⟩ := Option.map_eq_some_iff.1 hstep
        cases heq
        exact .wait world _ hnotifying hwait hafter
      · obtain ⟨rfl, hmain, hstop⟩ := hloop
        cases hstep
        exact .enter world hnotifying (not_not.1 fun h => hwait ⟨rfl, h⟩) hmain hstop
      · split at hstep
        · cases hstep
        · cases hstep
          exact .core thread world _ _ hnotifying (fun h => not_not.1 fun hne => hwait ⟨h, hne⟩)
            hloop ‹_›
  | timeout =>
      simp only [step] at hstep
      split_ifs at hstep with hwait
      cases hstep
      exact .timeout hwait
  | spurious =>
      simp only [step] at hstep
      split_ifs at hstep with hwait
      cases hstep
      exact .spurious hwait

@[simp]
theorem wake_core (state : Waiting) (timedOut : Bool) :
    (state.wake timedOut).core = state.core := by
  unfold Waiting.wake
  split_ifs <;> rfl

theorem waitStep_core (hstep : waitStep state = some next) : next.core = state.core := by
  simp only [waitStep] at hstep
  split at hstep <;> try split_ifs at hstep
  all_goals first
    | cases hstep; rfl
    | cases hstep

/-- A step in the wait leaves the core alone. -/
theorem WaitMoves.core_or (hmoves : WaitMoves state label next events) :
    next.core = state.core ∧ events = [] ∨
      ∃ thread world, label = .thread thread world ∧
        Runtime.step state.core (thread, world) = some (next.core, events) := by
  cases hmoves with
  | notify thread world hnotifying => exact .inl ⟨wake_core _ _, rfl⟩
  | wait world next hnotifying hwait hstep => exact .inl ⟨waitStep_core hstep, rfl⟩
  | enter world hnotifying hwait hmain hstop => exact .inl ⟨rfl, rfl⟩
  | core thread world next events hnotifying hwait hloop hstep =>
      exact .inr ⟨thread, world, rfl, hstep⟩
  | timeout hwait => exact .inl ⟨wake_core _ _, rfl⟩
  | spurious hwait => exact .inl ⟨wake_core _ _, rfl⟩

end Moves

/-! ## The wait and the loop that spins -/

section Traces

/-- What the core does with the wait it does without it. -/
theorem run_core {first state : Waiting} {trace : List Event}
    (hrun : Run waitSystem always first trace state) :
    Run system always first.core trace state.core := by
  have hview : ∀ events : List Event, events.flatMap (fun event => [event]) = events :=
    fun events => List.flatMap_singleton' events
  have hproject : Run system always first.core (trace.flatMap fun event => [event]) state.core :=
    hrun.project (fun event => [event]) Waiting.core
      fun trace state label next events _ _ hstep => by
        rw [hview]
        rcases (waitMoves_of_step hstep).core_or with ⟨hsame, rfl⟩ | ⟨thread, world, -, hcore⟩
        · rw [hsame]
          exact .start
        · have hmove : system.step state.core (thread, world) = some (next.core, events) := hcore
          exact .single trivial hmove
  rwa [hview] at hproject

/-- Main finds the flag unset and goes round. -/
theorem eq_of_spin {core next : Core} {world : World} {events : List Event}
    (hmain : core.main = .testStop) (hstop : core.shared.stop.stop = false)
    (hstep : Runtime.step core (.main, world) = some (next, events)) :
    next = core ∧ events = [] := by
  simp only [Runtime.step, mainStep, hmain, hstop, Bool.false_eq_true, if_false,
    Option.map_some, Option.some.injEq, Prod.mk.injEq] at hstep
  obtain ⟨rfl, rfl⟩ := hstep
  exact ⟨by rw [← hmain], rfl⟩

/-- And what it does without the wait it does with it: who has requested the stop notifies
at once, and main does not go to wait. -/
theorem run_outside {first core : Core} {trace : List Event}
    (hrun : Run system always first trace core) :
    Run waitSystem always (outside first) trace (outside core) := by
  induction hrun with
  | start => exact .start
  | @step trace events core next label hrun _ hstep ih =>
      obtain ⟨thread, world⟩ := label
      have hcore : Runtime.step core (thread, world) = some (next, events) := hstep
      by_cases hspin : thread = .main ∧ core.main = .testStop ∧ core.shared.stop.stop = false
      · obtain ⟨rfl, hmain, hstop⟩ := hspin
        obtain ⟨rfl, rfl⟩ := eq_of_spin hmain hstop hcore
        rwa [List.append_nil]
      · have hmove : waitSystem.step (outside core) (.thread thread world) =
            some ({ outside core with
              core := next
              notifying := if .stopRequested thread ∈ events then [thread] else [] }, events) := by
          simp [waitSystem, step, outside, hspin, hcore]
        refine ih.append ?_
        by_cases hrequest : .stopRequested thread ∈ events
        · rw [if_pos hrequest] at hmove
          have hnotify : waitSystem.step
              { outside core with core := next, notifying := [thread] } (.thread thread world) =
                some (outside next, []) := by
            simp [waitSystem, step, outside, Waiting.wake]
          have hstored : Run waitSystem always (outside core) events
              { outside core with core := next, notifying := [thread] } := .single trivial hmove
          simpa using hstored.step trivial hnotify
        · rw [if_neg hrequest] at hmove
          exact .single trivial hmove

/-- Blocking in between changes nothing that can be seen of the core: it has the runs
that it has when main tests the flag again and again. -/
theorem waiting_iff_spinning (dir : DataDir) (trace : List Event) (core : Core) :
    (∃ state, Run waitSystem always (outside (powerOn dir)) trace state ∧ state.core = core) ↔
      Run system always (powerOn dir) trace core := by
  constructor
  · rintro ⟨state, hrun, rfl⟩
    exact run_core hrun
  · exact fun hrun => ⟨outside core, run_outside hrun, rfl⟩

end Traces

/-! ## The wait ends -/

section Steps

variable {state next : Waiting} {label : Label} {events : List Event} {trace : List Event}

/-- In the wait `run` is in its loop; `mu_` is locked by main alone, and main has
notified before it is in the loop. -/
structure Waits (state : Waiting) : Prop where
  looping : state.wait ≠ .out → state.core.main = .testStop
  locked : state.locked = true ↔ state.wait = .blocking ∨ state.wait = .unlocking ∨
    ∃ timedOut, state.wait = .testing timedOut
  notified : .main ∈ state.notifying → ∃ code, state.core.main = .sampleLatch code

theorem Waits.wake (hwaits : Waits state) (timedOut : Bool) : Waits (state.wake timedOut) := by
  unfold Waiting.wake
  split_ifs with hblocked
  · have hmain := hwaits.looping (by simp [hblocked])
    refine ⟨fun _ => hmain, ?_, hwaits.notified⟩
    have hlocked := hwaits.locked
    simpa [hblocked] using hlocked
  · exact hwaits

theorem Waits.waitStep (hwaits : Waits state) (hstep : waitStep state = some next) :
    Waits next := by
  have hlooping := hwaits.looping
  have hlocked := hwaits.locked
  simp only [StopWait.waitStep] at hstep
  split at hstep <;> try split_ifs at hstep
  all_goals first
    | cases hstep; exact ⟨by simp_all, by simp_all, hwaits.notified⟩
    | cases hstep

/-- Main stores the flag after its loop only. -/
theorem sampling_of_requested {world : World} {core next : Core} {events : List Event}
    (hstep : Runtime.step core (.main, world) = some (next, events))
    (hrequest : .stopRequested .main ∈ events) : ∃ code, next.main = .sampleLatch code := by
  cases moves_of_step hstep with
  | main shared pc events hmoves => cases hmoves <;> simp at hrequest ⊢

theorem Waits.moves (hwaits : Waits state) (hmoves : WaitMoves state label next events) :
    Waits next := by
  cases hmoves with
  | notify thread world hnotifying =>
      have herased : Waits { state with notifying := state.notifying.erase thread } :=
        ⟨hwaits.looping, hwaits.locked, fun hmem => hwaits.notified (List.mem_of_mem_erase hmem)⟩
      exact herased.wake false
  | wait world next hnotifying hwait hstep => exact hwaits.waitStep hstep
  | enter world hnotifying hwait hmain hstop =>
      have hlocked := hwaits.locked
      refine ⟨fun _ => hmain, ?_, hwaits.notified⟩
      simpa [hwait] using hlocked
  | core thread world next events hnotifying hwait hloop hstep =>
      by_cases hthread : thread = .main
      · subst hthread
        refine ⟨fun hin => absurd (hwait rfl) hin, hwaits.locked, fun hmem => ?_⟩
        by_cases hrequest : .stopRequested .main ∈ events
        · exact sampling_of_requested hstep hrequest
        · rw [if_neg hrequest] at hmem
          exact absurd hmem hnotifying
      · have hmoves := moves_of_step hstep
        have hmain : next.main = state.core.main := Drives.main_of_moves hmoves hthread
        refine ⟨fun hin => hmain ▸ hwaits.looping hin, hwaits.locked, fun hmem => ?_⟩
        split_ifs at hmem with hrequest
        · rcases List.mem_cons.1 hmem with heq | hmem
          · exact absurd heq.symm hthread
          · exact hmain ▸ hwaits.notified hmem
        · exact hmain ▸ hwaits.notified hmem
  | timeout hwait => exact hwaits.wake true
  | spurious hwait => exact hwaits.wake false

theorem Waits.run {dir : DataDir}
    (hrun : Run waitSystem always (outside (powerOn dir)) trace state) : Waits state := by
  refine hrun.invariant (fun _ state => Waits state) ⟨by simp [outside], by simp [outside],
    by simp [outside]⟩ ?_
  intro trace state label next events _ hwaits _ hstep
  exact hwaits.moves (waitMoves_of_step hstep)

end Steps

/-- When its time is over main goes on; nobody is behind a spurious wakeup. -/
def Label.agent : Label → Option Thread
  | .thread mover _ => some mover
  | .timeout => some .main
  | .spurious => none

/-- How many steps main is from the end of its loop once the flag is set. -/
def WaitPc.left : WaitPc → ℕ
  | .out => 0
  | .unlocking => 1
  | .testing _ => 2
  | .locking | .relocking _ => 3
  | .blocked => 4
  | .blocking => 5

/-- Main is in its loop and the flag is set. -/
structure Ending (state : Waiting) : Prop where
  waits : Waits state
  main : state.core.main = .testStop
  stop : state.core.shared.stop.stop = true

section Ending

variable {state next : Waiting} {label : Label} {events : List Event}

theorem Ending.notified (hending : Ending state) : .main ∉ state.notifying := fun hmem => by
  obtain ⟨code, hcode⟩ := hending.waits.notified hmem
  cases hending.main.symm.trans hcode

theorem Ending.enabled (hending : Ending state) :
    Enabled waitSystem Label.agent state (some .main) := by
  have hmain := hending.main
  have hstop := hending.stop
  have hnotified := hending.notified
  have hfree := hending.waits.locked
  by_cases hblocked : state.wait = .blocked
  · exact ⟨.timeout, _, rfl, if_pos hblocked⟩
  · refine ⟨.thread .main {}, ?_⟩
    cases hwait : state.wait <;>
      simp_all [Label.agent, waitSystem, step, waitStep, Runtime.step, mainStep]

theorem left_wake_le (state : Waiting) (timedOut : Bool) :
    (state.wake timedOut).wait.left ≤ state.wait.left := by
  unfold Waiting.wake
  split_ifs with hblocked
  · simp [hblocked, WaitPc.left]
  · exact Nat.le_refl _

theorem left_wake_lt (hblocked : state.wait = .blocked) (timedOut : Bool) :
    (state.wake timedOut).wait.left < state.wait.left := by
  simp [Waiting.wake, hblocked, WaitPc.left]

theorem Ending.waitStep_lt (hending : Ending state) (hstep : waitStep state = some next) :
    next.wait.left < state.wait.left := by
  have hstop := hending.stop
  simp only [waitStep] at hstep
  split at hstep <;> try split_ifs at hstep
  all_goals first
    | cases hstep; simp_all [WaitPc.left]
    | cases hstep

/-- Main leaves its loop, or it is still there and not further from its end. -/
theorem Ending.moves (hending : Ending state) (hmoves : WaitMoves state label next events) :
    next.core.main = .requestStop 0 ∨ Ending next ∧ next.wait.left ≤ state.wait.left ∧
      (label.agent = some .main → next.wait.left < state.wait.left) := by
  have hwaits := hending.waits.moves hmoves
  cases hmoves with
  | notify thread world hnotifying =>
      refine .inr ⟨⟨hwaits, ?_, ?_⟩, left_wake_le _ _, fun hagent => ?_⟩
      · exact (congrArg Core.main (wake_core _ _)).trans hending.main
      · rw [wake_core]
        exact hending.stop
      · obtain rfl : thread = .main := Option.some.inj hagent
        exact absurd hnotifying hending.notified
  | wait world next hnotifying hwait hstep =>
      have hcore := waitStep_core hstep
      have hlt := hending.waitStep_lt hstep
      exact .inr ⟨⟨hwaits, hcore ▸ hending.main, hcore ▸ hending.stop⟩, hlt.le, fun _ => hlt⟩
  | enter world hnotifying hwait hmain hstop =>
      rw [hending.stop] at hstop
      cases hstop
  | core thread world next events hnotifying hwait hloop hstep =>
      have hmoves := moves_of_step hstep
      by_cases hthread : thread = .main
      · subst hthread
        left
        cases hmoves with
        | main shared pc events hmoves =>
            have hmain := hending.main
            have hstop := hending.stop
            cases hmoves <;> simp_all
      · have hmain : next.main = state.core.main := Drives.main_of_moves hmoves hthread
        exact .inr ⟨⟨hwaits, hmain.trans hending.main, stop_mono hmoves hending.stop⟩,
          Nat.le_refl _, fun hagent => absurd (Option.some.inj hagent) hthread⟩
  | timeout hblocked =>
      refine .inr ⟨⟨hwaits, ?_, ?_⟩, left_wake_le _ _, fun _ => left_wake_lt hblocked _⟩ <;>
        rw [wake_core]
      · exact hending.main
      · exact hending.stop
  | spurious hblocked =>
      refine .inr ⟨⟨hwaits, ?_, ?_⟩, left_wake_le _ _, fun hagent => ?_⟩
      · rw [wake_core]
        exact hending.main
      · rw [wake_core]
        exact hending.stop
      · cases hagent

end Ending

/-- Once the flag is set `run` comes out of its loop, wherever it is in the wait and
whether the notification reaches it or not. -/
theorem stop_ends_wait (dir : DataDir) (exec : Execution waitSystem (outside (powerOn dir)))
    (hfair : StronglyFair exec Label.agent) (time : ℕ)
    (hmain : (exec.state time).core.main = .testStop)
    (hstop : (exec.state time).core.shared.stop.stop = true) :
    ∃ later, time ≤ later ∧ (exec.state later).core.main = .requestStop 0 := by
  obtain ⟨trace, hrun⟩ := exec.exists_run time
  have hending : Ending (exec.state time) := ⟨Waits.run hrun, hmain, hstop⟩
  exact hfair.exists_goal Ending (fun state => state.core.main = .requestStop 0)
    (fun state => state.wait.left) hending (fun _ => Ending.enabled)
    fun moment hending => hending.moves (waitMoves_of_step (exec.step moment))

/-! ## A notification that is missed -/

/-- Main is blocked and nobody is about to notify it. -/
structure Unnoticed (state : Waiting) : Prop where
  blocked : state.wait = .blocked
  silent : state.notifying = []

/-- The wait does not end by itself. -/
def Unprompted (_ : Waiting) (label : Label) : Prop := label ≠ .timeout ∧ label ≠ .spurious

section Missed

variable {state next : Waiting} {label : Label} {events trace : List Event}

theorem Unnoticed.moves (hunnoticed : Unnoticed state) (hunprompted : Unprompted state label)
    (hmoves : WaitMoves state label next events)
    (hrequest : ∀ thread, .stopRequested thread ∉ events) :
    Unnoticed next ∧ next.core.main = state.core.main := by
  have hblocked := hunnoticed.blocked
  cases hmoves with
  | notify thread world hnotifying => simp [hunnoticed.silent] at hnotifying
  | wait world next hnotifying hwait hstep => simp [waitStep, hblocked] at hstep
  | enter world hnotifying hwait hmain hstop => cases hblocked.symm.trans hwait
  | core thread world next events hnotifying hwait hloop hstep =>
      have hthread : thread ≠ .main := fun heq => by cases hblocked.symm.trans (hwait heq)
      have hmoves := moves_of_step hstep
      refine ⟨⟨hblocked, ?_⟩, Drives.main_of_moves hmoves hthread⟩
      rw [if_neg (hrequest thread)]
      exact hunnoticed.silent
  | timeout hwait => exact absurd rfl hunprompted.1
  | spurious hwait => exact absurd rfl hunprompted.2

/-- Without another request main stays blocked. -/
theorem Unnoticed.run (hunnoticed : Unnoticed state)
    (hrun : Run waitSystem Unprompted state trace next)
    (hrequest : ∀ thread, .stopRequested thread ∉ trace) :
    Unnoticed next ∧ next.core.main = state.core.main := by
  induction hrun with
  | start => exact ⟨hunnoticed, rfl⟩
  | @step trace events state next label hrun hunprompted hstep ih =>
      simp only [List.mem_append, not_or] at hrequest
      obtain ⟨hbefore, hmain⟩ := ih fun thread => (hrequest thread).1
      obtain ⟨hafter, hsame⟩ := hbefore.moves hunprompted (waitMoves_of_step hstep)
        fun thread => (hrequest thread).2
      exact ⟨hafter, hsame.trans hmain⟩

/-- The thread stores the flag and notifies after main has tested the flag and before it
blocks; nothing keeps it out, as it does not lock `mu_`. -/
theorem exists_unnoticed {thread : Thread} {world : World} {core : Core}
    (hwaits : Waits state) (hblocking : state.wait = .blocking) (hsilent : state.notifying = [])
    (hstep : Runtime.step state.core (thread, world) = some (core, events))
    (hrequest : .stopRequested thread ∈ events) :
    ∃ missed, Run waitSystem always state events missed ∧ Unnoticed missed ∧
      missed.core = core := by
  have hthread : thread ≠ .main := by
    rintro rfl
    have hmain := hwaits.looping (by simp [hblocking])
    cases moves_of_step hstep with
    | main shared pc events hmoves => cases hmoves <;> simp_all
  have hstore : waitSystem.step state (.thread thread world) =
      some ({ state with core := core, notifying := [thread] }, events) := by
    simp [waitSystem, step, hsilent, hthread, hstep, hrequest]
  have hstored : Run waitSystem always state events
      { state with core := core, notifying := [thread] } := .single trivial hstore
  have hnotify : waitSystem.step { state with core := core, notifying := [thread] }
      (.thread thread world) = some ({ state with core := core, notifying := [] }, []) := by
    simp [waitSystem, step, Waiting.wake, hblocking]
  have hblock : waitSystem.step { state with core := core, notifying := [] } (.thread .main {}) =
      some ({ core := core, wait := .blocked, locked := false, notifying := [] }, []) := by
    simp [waitSystem, step, waitStep, hblocking]
  have hrun := (hstored.step trivial hnotify).step trivial hblock
  rw [List.append_nil, List.append_nil] at hrun
  exact ⟨_, hrun, ⟨rfl, rfl⟩, rfl⟩

end Missed

/-- A thread that sets the flag while main is about to block can do it such that main
blocks with the flag set, and then only another request or the end of the time gets `run`
out of its loop. -/
theorem notification_missed (dir : DataDir) (trace : List Event) (state : Waiting)
    (thread : Thread) (world : World) (core : Core) (events : List Event)
    (hrun : Run waitSystem always (outside (powerOn dir)) trace state)
    (hblocking : state.wait = .blocking) (hsilent : state.notifying = [])
    (hstep : Runtime.step state.core (thread, world) = some (core, events))
    (hrequest : .stopRequested thread ∈ events) :
    ∃ missed, Run waitSystem always state events missed ∧ missed.core = core ∧
      missed.core.shared.stop.stop = true ∧ missed.wait = .blocked ∧
      ∀ later after, Run waitSystem Unprompted missed later after →
        (∀ other, .stopRequested other ∉ later) →
          after.wait = .blocked ∧ after.core.main = .testStop := by
  have hwaits := Waits.run hrun
  obtain ⟨missed, hmissed, hunnoticed, rfl⟩ :=
    exists_unnoticed hwaits hblocking hsilent hstep hrequest
  have hmain : missed.core.main = .testStop :=
    (Waits.run (hrun.append hmissed)).looping (by simp [hunnoticed.blocked])
  refine ⟨missed, hmissed, rfl, stop_of_stopRequested (moves_of_step hstep) hrequest,
    hunnoticed.blocked, fun later after hlater hrequests => ?_⟩
  obtain ⟨hafter, hsame⟩ := hunnoticed.run hlater hrequests
  exact ⟨hafter.blocked, hsame.trans hmain⟩

/-! ## A shutdown -/

/-- Main goes to wait and is about to block. -/
def aboutToBlock (core : Core) : Waiting where
  core := core
  wait := .blocking
  locked := true
  notifying := []

theorem run_aboutToBlock {core : Core} (hmain : core.main = .testStop)
    (hstop : core.shared.stop.stop = false) :
    Run waitSystem always (outside core) [] (aboutToBlock core) := by
  have henter : waitSystem.step (outside core) (.thread .main {}) =
      some ({ outside core with wait := .locking }, []) := by
    simp [waitSystem, step, outside, hmain, hstop]
  have hlock : waitSystem.step { outside core with wait := .locking } (.thread .main {}) =
      some ({ outside core with wait := .testing false, locked := true }, []) := by
    simp [waitSystem, step, outside, waitStep]
  have htest : waitSystem.step { outside core with wait := .testing false, locked := true }
      (.thread .main {}) = some (aboutToBlock core, []) := by
    simp [waitSystem, step, outside, waitStep, aboutToBlock, hstop]
  exact ((Run.start.step trivial henter).step trivial hlock).step trivial htest

/-- A shutdown has been read, and the control thread is about to carry it out. -/
theorem exists_shutdown :
    ∃ (trace : List Event) (core next : Core),
      Run system always (powerOn shutdownDir) trace core ∧ core.main = .testStop ∧
        core.shared.stop.stop = false ∧
        Runtime.step core (.control, {}) = some (next, [.stopRequested .control]) := by
  obtain ⟨⟨core, trace⟩, hexecute, hview⟩ := Option.map_eq_some_iff.1
    (show (execute system always (powerOn shutdownDir)
        (bootSchedule ++ times 5 .io ++ times 6 .control)).map (fun result =>
          (result.1.main, result.1.shared.stop.stop,
            (Runtime.step result.1 (.control, {})).map Prod.snd)) =
      some (.testStop, false, some [.stopRequested .control]) by decide +kernel)
  obtain ⟨hmain, hrest⟩ := Prod.mk.inj hview
  obtain ⟨hstop, hstep⟩ := Prod.mk.inj hrest
  obtain ⟨⟨next, events⟩, hstep, rfl⟩ := Option.map_eq_some_iff.1 hstep
  exact ⟨trace, core, next, run_of_execute hexecute, hmain, hstop, hstep⟩

theorem notification_missed_shutdown :
    ∃ (trace : List Event) (missed : Waiting),
      Run waitSystem always (outside (powerOn shutdownDir)) trace missed ∧
        missed.core.shared.stop.stop = true ∧ missed.wait = .blocked ∧
        ∀ later after, Run waitSystem Unprompted missed later after →
          (∀ other, .stopRequested other ∉ later) →
            after.wait = .blocked ∧ after.core.main = .testStop := by
  obtain ⟨trace, core, next, hcore, hmain, hstop, hstep⟩ := exists_shutdown
  have hrun := (run_outside hcore).append (run_aboutToBlock hmain hstop)
  obtain ⟨missed, hmissed, -, hset, hblocked, hlater⟩ :=
    notification_missed shutdownDir _ _ .control {} next _ hrun rfl rfl hstep (by simp)
  exact ⟨_, missed, hrun.append hmissed, hset, hblocked, hlater⟩

/-- From every state there is a fair run, as a client can always move. -/
theorem exists_fair (state : Waiting) :
    ∃ exec : Execution waitSystem state, StronglyFair exec Label.agent := by
  have hlive : ∀ state : Waiting, True → ∃ agent, Enabled waitSystem Label.agent state agent := by
    intro state _
    refine ⟨some .client, .thread .client {}, ?_⟩
    by_cases hnotifying : .client ∈ state.notifying
    · exact ⟨_, rfl, if_pos hnotifying⟩
    · simp [Label.agent, waitSystem, step, hnotifying, Runtime.step]
  exact exists_stronglyFair trivial (fun _ _ _ _ _ _ => trivial) hlive
    [none, some .main, some .estop, some .control, some .sensor, some .io, some .persist,
      some .client] fun agent => by
        rcases agent with _ | thread
        · simp
        · cases thread <;> simp

theorem stop_ends_wait_shutdown :
    ∃ (exec : Execution waitSystem (outside (powerOn shutdownDir))) (time later : ℕ),
      StronglyFair exec Label.agent ∧ (exec.state time).core.shared.stop.stop = true ∧
        (exec.state time).wait = .blocked ∧ time ≤ later ∧
        (exec.state later).core.main = .requestStop 0 := by
  obtain ⟨trace, core, next, hcore, hmain, hstop, hstep⟩ := exists_shutdown
  have hrun := (run_outside hcore).append (run_aboutToBlock hmain hstop)
  obtain ⟨missed, hmissed, hunnoticed, rfl⟩ :=
    exists_unnoticed (Waits.run hrun) rfl rfl hstep (by simp)
  have hrun := hrun.append hmissed
  obtain ⟨exec, hfair⟩ := exists_fair missed
  obtain ⟨longer, hlonger, -, time, hshift⟩ := hfair.extend hrun
  have htime : longer.state time = missed := by
    have hstart := (hshift 0).1
    rwa [Nat.zero_add, exec.start] at hstart
  have hset : (longer.state time).core.shared.stop.stop = true := by
    rw [htime]
    exact stop_of_stopRequested (moves_of_step hstep) (List.mem_singleton.2 rfl)
  obtain ⟨later, hle, hleft⟩ := stop_ends_wait shutdownDir longer hlonger time
    (by rw [htime]; exact (Waits.run hrun).looping (by simp [hunnoticed.blocked])) hset
  exact ⟨longer, time, later, hlonger, hset, by rw [htime]; exact hunnoticed.blocked, hle, hleft⟩

end ArcravenUgv.StopWait
