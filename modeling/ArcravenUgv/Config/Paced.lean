import ArcravenUgv.Config.Verdicts
import ArcravenUgv.Lib.Pacing

/-!
# The rates of the threads

`core/Rate.hpp` and the rates of `config/UgvConfig.hpp`: every thread but the main
one takes the time when it starts and sleeps until its next deadline at the end of
each turn.  How much time a turn takes is left open.
-/

namespace ArcravenUgv.Paced

open ArcravenUgv.Command
open ArcravenUgv.Decimal
open ArcravenUgv.Runs
open ArcravenUgv.Pacing
open ArcravenUgv.EStopRun
open ArcravenUgv.Runtime
open ArcravenUgv.Intake
open ArcravenUgv.Verdicts

/-- `Rate`, in microseconds. -/
structure Rate where
  period : ℕ
  deriving DecidableEq, Repr

/-- The thread rates of `UgvConfig`. -/
structure UgvConfig where
  controlRate : Rate := ⟨5000⟩
  ioRate : Rate := ⟨20000⟩
  sensorRate : Rate := ⟨10000⟩
  persistRate : Rate := ⟨1000000⟩
  estopRate : Rate := ⟨2000⟩
  deriving DecidableEq, Repr

/-- Where a thread reads the clock for its first deadline. -/
def starting (core : Core) : Thread → Bool
  | .estop => core.estop = .start
  | .control => core.control = .start
  | .sensor => core.sensor = .start
  | .io => core.io = .start
  | .persist => core.persist = .start
  | .main | .client => false

/-- Where a thread is in `sleep_until_next`. -/
def sleeping (core : Core) : Thread → Bool
  | .estop => core.estop = .sleep
  | .control => core.control = .sleep
  | .sensor => core.sensor = .sleep
  | .io => core.io = .sleep
  | .persist => core.persist = .sleep
  | .main | .client => false

def UgvConfig.rate (cfg : UgvConfig) : Thread → Rate
  | .estop => cfg.estopRate
  | .control => cfg.controlRate
  | .sensor => cfg.sensorRate
  | .io => cfg.ioRate
  | .persist => cfg.persistRate
  | .main | .client => ⟨0⟩

/-- The loops of the core; the clock counts nanoseconds. -/
def loops (cfg : UgvConfig) : Loops Core (Thread × World) Thread where
  agent := Prod.fst
  starting := starting
  sleeping := sleeping
  period := fun thread => 1000 * (cfg.rate thread).period

abbrev TimedCore := Timed Core Thread

/-- The core with its clock. -/
def timedSystem (cfg : UgvConfig) : System TimedCore ((Thread × World) × ℕ) Event :=
  paced system (loops cfg)

/-- Keeping its rates the core has the runs it has without a clock. -/
theorem exists_timed_iff (cfg : UgvConfig) (dir : DataDir) (trace : List Event) (core : Core) :
    (∃ state : TimedCore, Run (timedSystem cfg) always (timed (powerOn dir)) trace state ∧
      state.base = core) ↔ Run system always (powerOn dir) trace core := by
  constructor
  · rintro ⟨state, hrun, rfl⟩
    exact run_base hrun
  · intro hrun
    have htimed : Run system always (timed (powerOn dir) : TimedCore).base trace core := hrun
    exact exists_paced htimed

theorem apart (core : Core) (thread : Thread) (hstarting : starting core thread = true) :
    sleeping core thread = false := by
  cases thread <;> simp_all [starting, sleeping]

theorem startsOnce (cfg : UgvConfig) : StartsOnce system (loops cfg) := by
  intro core label next events thread hstep hstarting
  have hmoves := moves_of_step hstep
  obtain ⟨mover, world⟩ := label
  change Moves world core mover next events at hmoves
  change starting next thread = true at hstarting
  change starting core thread = true ∧ mover ≠ thread
  cases hmoves with
  | main shared pc events hmoves | append => cases thread <;> simp_all [starting]
  | estop shared pc events hthread hmoves | control shared pc events hthread hmoves
  | sensor shared pc events hthread hmoves | io shared pc events hthread hmoves
  | persist shared pc events hthread hmoves =>
      cases thread
      all_goals first
        | exact ⟨hstarting, by simp⟩
        | cases hmoves <;> simp_all [starting]

/-! ## What a thread does in a turn -/

/-- The thread that leaves an event. -/
def author : Event → Thread
  | .latched | .dequeued _ _ | .handlerCalled _ | .processed _ _ | .published _ _
  | .stored _ => .control
  | .stopRequested thread | .drivesEstop thread => thread
  | .sawLatch => .estop
  | .lineDone _ _ _ => .io
  | .telemetry _ => .sensor
  | .crcPass _ | .writePass _ | .installed _ => .persist
  | .runReturned _ => .main

theorem author_of_mem {world : World} {core next : Core} {mover : Thread} {events : List Event}
    (hmoves : Moves world core mover next events) {event : Event} (hevent : event ∈ events) :
    author event = mover := by
  cases hmoves with
  | append => cases hevent
  | control shared pc events hthread hmoves =>
      cases hmoves with
      | handle nowNs left cmd before after shared events hpc hhandler =>
          cases hhandler <;> simp_all [author]
      | reportStored nowNs left cmd result hpc hrejected =>
          rcases List.mem_cons.1 hevent with rfl | hevent
          · rfl
          · rw [List.mem_singleton.1 hevent]
            rfl
      | _ => simp_all [author]
  | main shared pc events hmoves | estop shared pc events hthread hmoves
  | sensor shared pc events hthread hmoves | io shared pc events hthread hmoves
  | persist shared pc events hthread hmoves => cases hmoves <;> simp_all [author]

/-- How many verdicts the control thread may still give in this turn. -/
def controlBudget : ControlPc → ℕ
  | .start | .testStop | .testLatch | .sampleClock => 8
  | .processOne _ left | .publishing _ left _ _ => left
  | .admitting _ left _ _ | .handling _ left _ _ | .callback _ left _ _ => left + 1
  | .sleep | .exiting | .exited => 0

/-- A record the sensor thread has appended. -/
def publishedFrame : Event → Option Bridge.SensorFrame
  | .telemetry frame => some frame
  | _ => none

/-- How many frames the sensor thread may still publish in this turn. -/
def sensorBudget : SensorPc → ℕ
  | .start | .testStop | .sample | .publishing _ => 1
  | .sleep | .exiting | .exited => 0

/-- A file the persist thread has moved to `state.bin`. -/
def installedFile : Event → Option (Option Bytes)
  | .installed file => some file
  | _ => none

/-- How many files the persist thread may still install in this turn. -/
def persistBudget : PersistPc → ℕ
  | .start | .testStop | .crcPass | .writePass _ | .rename _ _ => 1
  | .sleep | .exiting | .exited => 0

/-- A thread is metered by its own steps if it alone leaves the events that are found
and has its budget for itself. -/
theorem metered_of_own (cfg : UgvConfig) {thread : Thread} {Found : Type}
    {find : Event → Option Found} {budget : Core → ℕ} {perTurn : ℕ}
    (hown : ∀ core world next events, step core (thread, world) = some (next, events) →
      sleeping core thread = true ∧ events.filterMap find = [] ∧ budget next ≤ perTurn ∨
        sleeping core thread = false ∧
          (events.filterMap find).length + budget next ≤ budget core)
    (hfind : ∀ event, author event ≠ thread → find event = none)
    (hother : ∀ core mover world next events, Moves world core mover next events →
      mover ≠ thread → budget next = budget core) :
    Metered system (loops cfg) thread (seen find) budget perTurn where
  sleep := by
    intro core label next events hstep hagent hsleeping
    obtain ⟨mover, world⟩ := label
    obtain rfl : mover = thread := hagent
    rw [total_seen]
    rcases hown core world next events hstep with ⟨-, hnone, hbudget⟩ | ⟨hawake, -⟩
    · exact ⟨by rw [hnone]; rfl, hbudget⟩
    · exact absurd hsleeping (by simp [loops, hawake])
  spend := by
    intro core label next events hstep hturn
    have hmoves := moves_of_step hstep
    obtain ⟨mover, world⟩ := label
    rw [total_seen]
    by_cases hmover : mover = thread
    · subst hmover
      rcases hown core world next events hstep with ⟨hsleeping, -⟩ | ⟨-, hspent⟩
      · exact absurd ⟨rfl, hsleeping⟩ hturn
      · exact hspent
    · have hnone : events.filterMap find = [] :=
        List.filterMap_eq_nil_iff.2 fun event hevent => hfind event fun hauthor =>
          hmover ((author_of_mem hmoves hevent).symm.trans hauthor)
      rw [hnone, hother core mover world next events hmoves hmover]
      simp

/-- A turn of the control thread gives eight verdicts at most. -/
theorem controlMoves_budget {world : World} {shared next : Shared} {pc after : ControlPc}
    {events : List Event} (hmoves : ControlMoves world shared pc next after events) :
    pc = .sleep ∧ after = .testStop ∧ events = [] ∨
      pc ≠ .sleep ∧ (verdicts events).length + controlBudget after ≤ controlBudget pc := by
  cases hmoves with
  | sleep hpc => exact .inl ⟨hpc, rfl, rfl⟩
  | handle nowNs left cmd before later shared events hpc hhandler =>
      refine .inr ⟨by simp [hpc], ?_⟩
      cases hhandler <;> simp [hpc, controlBudget, verdicts, verdict]
  | report nowNs left cmd result hpc hrejected | reportStored nowNs left cmd result hpc hrejected =>
      refine .inr ⟨by simp [hpc], ?_⟩
      simp [hpc, controlBudget, verdicts, verdict, Nat.add_comm]
  | _ =>
      refine .inr ⟨by simp [*], ?_⟩
      simp [controlBudget, verdicts, verdict, *]

theorem metered_control (cfg : UgvConfig) :
    Metered system (loops cfg) .control (seen verdict)
      (fun core => controlBudget core.control) 8 := by
  refine metered_of_own cfg (fun core world next events hstep => ?_)
    (fun event hauthor => by cases event <;> simp_all [author, verdict])
    fun core mover world next events hmoves hmover => ?_
  · have hmoves := moves_of_step hstep
    cases hmoves with
    | control shared pc events hthread hmoves =>
        rcases controlMoves_budget hmoves with ⟨hsleep, rfl, rfl⟩ | ⟨hawake, hspent⟩
        · exact .inl ⟨by simp [sleeping, hsleep], rfl, Nat.le_refl _⟩
        · exact .inr ⟨by simp [sleeping, hawake], hspent⟩
  · rw [hmoves.control_of_ne hmover]

/-- A turn of the sensor thread publishes one frame at most. -/
theorem metered_sensor (cfg : UgvConfig) :
    Metered system (loops cfg) .sensor (seen publishedFrame)
      (fun core => sensorBudget core.sensor) 1 := by
  refine metered_of_own cfg (fun core world next events hstep => ?_)
    (fun event hauthor => by cases event <;> simp_all [author, publishedFrame])
    fun core mover world next events hmoves hmover => ?_
  · simp only [step] at hstep
    split_ifs at hstep
    obtain ⟨⟨shared, pc, later⟩, hsensor, heq⟩ := Option.map_eq_some_iff.1 hstep
    cases heq
    cases hpc : core.sensor with
    | testStop | publishing frame =>
        simp only [hpc, sensorStep] at hsensor
        split_ifs at hsensor <;> cases hsensor <;>
          simp [sleeping, hpc, sensorBudget, publishedFrame]
    | exited => simp [hpc, sensorStep] at hsensor
    | _ =>
        simp only [hpc, sensorStep] at hsensor
        cases hsensor
        simp [sleeping, hpc, sensorBudget]
  · cases hmoves with
    | sensor shared pc events hthread hmoves => exact absurd rfl hmover
    | _ => rfl

/-- A turn of the persist thread installs one file at most. -/
theorem metered_persist (cfg : UgvConfig) :
    Metered system (loops cfg) .persist (seen installedFile)
      (fun core => persistBudget core.persist) 1 := by
  refine metered_of_own cfg (fun core world next events hstep => ?_)
    (fun event hauthor => by cases event <;> simp_all [author, installedFile])
    fun core mover world next events hmoves hmover => ?_
  · simp only [step] at hstep
    split_ifs at hstep
    obtain ⟨⟨shared, pc, later⟩, hpersist, heq⟩ := Option.map_eq_some_iff.1 hstep
    cases heq
    cases hpc : core.persist with
    | testStop =>
        simp only [hpc, persistStep] at hpersist
        split_ifs at hpersist <;> cases hpersist <;> simp [sleeping, hpc, persistBudget]
    | exited => simp [hpc, persistStep] at hpersist
    | _ =>
        simp only [hpc, persistStep] at hpersist
        cases hpersist
        simp [sleeping, hpc, persistBudget, installedFile]
  · cases hmoves with
    | persist shared pc events hthread hmoves => exact absurd rfl hmover
    | _ => rfl

/-! ## The rates -/

/-- The deadlines do not drift, and between two moments the threads do what their turns
allow: one turn for each period since the last deadline, and one more. -/
structure RatesHold (cfg : UgvConfig) (state : TimedCore) (later : List Event)
    (next : TimedCore) : Prop where
  deadline : ∀ thread, next.next thread =
    next.began thread + next.slept thread * (1000 * (cfg.rate thread).period)
  passed : ∀ thread, next.next thread ≤ next.now
  verdicts : (verdicts later).length * (1000 * cfg.controlRate.period) ≤
    8 * (next.now - state.next .control + 1000 * cfg.controlRate.period)
  frames : (later.filterMap publishedFrame).length * (1000 * cfg.sensorRate.period) ≤
    next.now - state.next .sensor + 1000 * cfg.sensorRate.period
  files : (later.filterMap installedFile).length * (1000 * cfg.persistRate.period) ≤
    next.now - state.next .persist + 1000 * cfg.persistRate.period

section Rates

variable {cfg : UgvConfig} {dir : DataDir} {trace later : List Event} {state next : TimedCore}

/-- Whatever the turns take and whatever arrives, no thread exceeds its rate. -/
theorem rates_hold (cfg : UgvConfig) (dir : DataDir)
    (hrun : Run (timedSystem cfg) always (timed (powerOn dir)) trace state)
    (hlater : Run (timedSystem cfg) always state later next) :
    RatesHold cfg state later next where
  deadline := (OnSchedule.run (startsOnce cfg) (hrun.append hlater)).deadline
  passed := (OnSchedule.run (startsOnce cfg) (hrun.append hlater)).passed
  verdicts := by
    have hrate := (metered_control cfg).rate (startsOnce cfg)
      (fun core => apart core .control) (Nat.le_refl _) hrun hlater
    rwa [total_seen] at hrate
  frames := by
    have hrate := (metered_sensor cfg).rate (startsOnce cfg)
      (fun core => apart core .sensor) (Nat.le_refl _) hrun hlater
    rwa [total_seen, Nat.one_mul] at hrate
  files := by
    have hrate := (metered_persist cfg).rate (startsOnce cfg)
      (fun core => apart core .persist) (Nat.le_refl _) hrun hlater
    rwa [total_seen, Nat.one_mul] at hrate

/-! ## A queued command has its verdict in time -/

/-- What is in hand, queued and accepted is given its verdict, in hand or queued, in
this order. -/
theorem verdicts_append_queue {core after : Core}
    (hrun : Run system always (powerOn dir) trace core)
    (hlater : Run system always core later after) :
    (undecided core.control).toList.map Prod.fst ++ core.shared.router.q ++
        (acceptedLines later).map Prod.snd =
      (verdicts later).map Prod.fst ++ (undecided after.control).toList.map Prod.fst ++
        after.shared.router.q := by
  have hbefore : Delivered trace core := Delivered.run hrun
  have hafter : Delivered (trace ++ later) after := Delivered.run (hrun.append hlater)
  rw [Delivered, ← (Decided.run hrun).verdicts_fst] at hbefore
  rw [Delivered, ← (Decided.run (hrun.append hlater)).verdicts_fst, acceptedLines_append,
    verdicts_append, List.map_append, List.map_append, hbefore] at hafter
  simp only [List.append_assoc] at hafter ⊢
  exact List.append_cancel_left hafter

/-- The turns since `state` have each given eight verdicts, unless all that was in hand
or queued then has its verdict. -/
def Drained (state : TimedCore) (later : List Event) (next : TimedCore) : Prop :=
  (undecided state.base.control).toList.length + state.base.shared.router.q.length ≤
      (verdicts later).length ∨
    8 * (next.slept .control - state.slept .control) +
        (undecided state.base.control).toList.length ≤
      (verdicts later).length + controlBudget next.base.control

/-- Unless it stops or the latch is set, the control thread spends its budget as long
as there are commands. -/
theorem control_drains {world : World} {core after : Core} {events : List Event}
    (hmoves : Moves world core .control after events) (hstop : core.shared.stop.stop = false)
    (hlatch : core.shared.estop.latched = false) :
    core.control = .sleep ∧ after.control = .testStop ∨
      core.control ≠ .sleep ∧
        (undecided core.control = none ∧ core.shared.router.q = [] ∨
          controlBudget core.control ≤
            (verdicts events).length + controlBudget after.control) := by
  cases hmoves with
  | control shared pc events hthread hmoves =>
      cases hmoves with
      | sleep hpc => exact .inl ⟨hpc, rfl⟩
      | leave hpc hset =>
          rw [hstop] at hset
          cases hset
      | sawLatch hpc hset =>
          rw [hlatch] at hset
          cases hset
      | queueEmpty nowNs left hpc hq => exact .inr ⟨by simp [hpc], .inl ⟨by rw [hpc]; rfl, hq⟩⟩
      | report nowNs left cmd result hpc hrejected
      | reportStored nowNs left cmd result hpc hrejected =>
          refine .inr ⟨by simp [hpc], .inr ?_⟩
          simp [hpc, controlBudget, verdicts, verdict, Nat.add_comm]
      | handle nowNs left cmd before after shared events hpc hhandler =>
          exact .inr ⟨by simp [hpc], .inr (by simp [hpc, controlBudget])⟩
      | _ => exact .inr ⟨by simp [*], .inr (by simp [controlBudget, *])⟩

theorem Drained.moves {label : (Thread × World) × ℕ} {events : List Event} {last : TimedCore}
    (hdrained : Drained state later next)
    (hqueue : (undecided state.base.control).toList.length + state.base.shared.router.q.length ≤
      (verdicts later).length + (undecided next.base.control).toList.length +
        next.base.shared.router.q.length)
    (hstop : next.base.shared.stop.stop = false) (hlatch : next.base.shared.estop.latched = false)
    (hslept : state.slept .control ≤ next.slept .control)
    (hmoves : PacedMoves system (loops cfg) next label.1 label.2 last events) :
    Drained state (later ++ events) last := by
  have hbase := moves_of_step hmoves.base
  obtain ⟨⟨mover, world⟩, delay⟩ := label
  change Moves world next.base mover last.base events at hbase
  rw [Drained, verdicts_append, List.length_append]
  rcases hdrained with hall | hturns
  · exact .inl (hall.trans (Nat.le_add_right _ _))
  by_cases hmover : mover = .control
  · subst hmover
    rcases control_drains hbase hstop hlatch with ⟨hsleep, hnext⟩ | ⟨hawake, hspent⟩
    · -- the turn is over, and the next one has its whole budget
      have hslept := hmoves.slept_succ (by simp [loops, starting, hsleep])
        (by simp [loops, sleeping, hsleep])
      change last.slept .control = next.slept .control + 1 at hslept
      right
      rw [hslept, hnext]
      simp only [hsleep, controlBudget] at hturns ⊢
      omega
    · have hsame : last.slept .control = next.slept .control :=
        hmoves.slept_same fun _ => by simp [loops, sleeping, hawake]
      rcases hspent with ⟨hidle, hempty⟩ | hspent
      · rw [hidle, hempty] at hqueue
        simp only [Option.toList_none, List.length_nil, Nat.add_zero] at hqueue
        exact .inl (by omega)
      · right
        rw [hsame]
        omega
  · have hcontrol := hbase.control_of_ne hmover
    have hsame := hmoves.slept_same fun hagent => absurd hagent hmover
    right
    rw [hcontrol, hsame]
    omega

theorem drained_run (hrun : Run (timedSystem cfg) always (timed (powerOn dir)) trace state)
    (hlater : Run (timedSystem cfg) always state later next)
    (hstop : next.base.shared.stop.stop = false)
    (hlatch : next.base.shared.estop.latched = false) : Drained state later next := by
  refine hlater.invariant (fun later next => next.base.shared.stop.stop = false →
    next.base.shared.estop.latched = false → Drained state later next) (fun _ _ => ?_) ?_ hstop
    hlatch
  · refine .inr ?_
    cases hpc : state.base.control <;> simp [undecided, controlBudget, verdicts]
  · intro later middle label events last hmiddle hdrained _ hstep hstop hlatch
    have hmoves := pacedMoves_of_step hstep
    have hbase := moves_of_step hmoves.base
    have hclear : middle.base.shared.stop.stop = false :=
      Bool.eq_false_of_not_eq_true fun hset => by simp [stop_mono hbase hset] at hstop
    have hfree : middle.base.shared.estop.latched = false :=
      Bool.eq_false_of_not_eq_true fun hset => by simp [latched_mono hbase hset] at hlatch
    have hqueue := congrArg List.length (verdicts_append_queue (run_base hrun) (run_base hmiddle))
    simp only [List.length_append, List.length_map] at hqueue
    exact (hdrained hclear hfree).moves (by omega) hclear hfree (slept_mono hmiddle .control)
      hmoves

/-- Unless a stop is requested or the latch set, a command that is queued behind
others has its verdict once the control thread has slept once for every eight of them
and twice more, behind the command that was in hand. -/
theorem queued_command_answered_in_turns (cfg : UgvConfig) (dir : DataDir)
    (hrun : Run (timedSystem cfg) always (timed (powerOn dir)) trace state)
    (hlater : Run (timedSystem cfg) always state later next)
    (hstop : next.base.shared.stop.stop = false)
    (hlatch : next.base.shared.estop.latched = false) (position : ℕ) (cmd : CommandEnvelope)
    (hqueued : state.base.shared.router.q[position]? = some cmd)
    (hturns : position / 8 + 2 ≤ next.slept .control - state.slept .control) :
    ((verdicts later).map Prod.fst)[
      (undecided state.base.control).toList.length + position]? = some cmd := by
  obtain ⟨hposition, -⟩ := List.getElem?_eq_some_iff.1 hqueued
  have hbudget := (metered_control cfg).budget_le (hrun.append hlater) (Nat.le_refl _)
  have henough : (undecided state.base.control).toList.length + position <
      (verdicts later).length := by
    rcases drained_run hrun hlater hstop hlatch with hall | hspent <;> omega
  have horder := verdicts_append_queue (run_base hrun) (run_base hlater)
  rw [List.append_assoc, List.append_assoc] at horder
  have hsame := congrArg (fun commands : List CommandEnvelope =>
    commands[(undecided state.base.control).toList.length + position]?) horder
  rw [List.getElem?_append_right (by simp), List.getElem?_append_left (by simpa using hposition),
    List.getElem?_append_left (by simpa using henough)] at hsame
  rw [← hsame]
  simpa using hqueued

end Rates

/-! ## Two turns -/

private def oneLine : Bytes := ascii "C|1|102|0|0|0|0|0|AA==\n"

/-- Every step takes five milliseconds, so that no sleep ends too early. -/
private def unhurried (labels : List (Thread × World)) : List ((Thread × World) × ℕ) :=
  labels.map (·, 5000000)

private def queuedRun : Option (TimedCore × List Event) :=
  execute (timedSystem {}) always (timed (powerOn (freshDir oneLine)))
    (unhurried (bootSchedule ++ times 5 .io))

/-- What the two theorems below ask for. -/
private def shown (state next : TimedCore) :
    List CommandEnvelope × ℕ × Bool × Bool :=
  (state.base.shared.router.q, next.slept .control - state.slept .control,
    next.base.shared.stop.stop, next.base.shared.estop.latched)

private theorem exists_queuedRun : ∃ trace state later next,
    Run (timedSystem {}) always (timed (powerOn (freshDir oneLine))) trace state ∧
      Run (timedSystem {}) always state later next ∧
        undecided state.base.control = none ∧
          shown state next = ([plainCommand .stop 1], 2, false, false) := by
  obtain ⟨⟨state, trace⟩, hstate, hnext⟩ := Option.bind_eq_some_iff.1
    (show (queuedRun.bind fun before =>
        (execute (timedSystem {}) always before.1 (unhurried (times 20 .control))).map fun after =>
          (undecided before.1.base.control, shown before.1 after.1)) =
        some (none, [plainCommand .stop 1], 2, false, false) by decide +kernel)
  obtain ⟨⟨next, later⟩, hlater, hshown⟩ := Option.map_eq_some_iff.1 hnext
  obtain ⟨hidle, hshown⟩ := Prod.mk.inj hshown
  exact ⟨trace, state, later, next, run_of_execute hstate, run_of_execute hlater, hidle, hshown⟩

theorem rates_hold_queued :
    ∃ trace state later next,
      Run (timedSystem {}) always (timed (powerOn (freshDir oneLine))) trace state ∧
        Run (timedSystem {}) always state later next ∧
        next.slept .control - state.slept .control = 2 ∧ RatesHold {} state later next := by
  obtain ⟨trace, state, later, next, hrun, hlater, -, hshown⟩ := exists_queuedRun
  simp only [shown, Prod.mk.injEq] at hshown
  exact ⟨trace, state, later, next, hrun, hlater, hshown.2.1,
    rates_hold {} (freshDir oneLine) hrun hlater⟩

theorem queued_command_answered_in_turns_stop :
    ∃ trace state later next,
      Run (timedSystem {}) always (timed (powerOn (freshDir oneLine))) trace state ∧
        Run (timedSystem {}) always state later next ∧
        state.base.shared.router.q = [plainCommand .stop 1] ∧
        ((verdicts later).map Prod.fst)[0]? = some (plainCommand .stop 1) := by
  obtain ⟨trace, state, later, next, hrun, hlater, hidle, hshown⟩ := exists_queuedRun
  simp only [shown, Prod.mk.injEq] at hshown
  obtain ⟨hqueue, hturns, hstop, hlatch⟩ := hshown
  have hverdict := queued_command_answered_in_turns {} (freshDir oneLine) hrun hlater hstop hlatch
    0 (plainCommand .stop 1) (by rw [hqueue]; rfl) (by rw [hturns])
  rw [hidle] at hverdict
  exact ⟨trace, state, later, next, hrun, hlater, hqueue, hverdict⟩

end ArcravenUgv.Paced
