import ArcravenUgv.Lib.Runs

/-!
# Loops that sleep until their next deadline

A system whose agents run loops, with a clock.  An agent takes its first deadline
from the clock when it starts; at the end of each turn it moves the deadline on by
its period and sleeps until then.  The deadlines do not drift, whatever the turns
take, so a turn that takes long is made up for by turns without a sleep, and what an
agent does is bounded by the periods that have passed.
-/

namespace ArcravenUgv.Pacing

open Function
open ArcravenUgv.Runs

variable {State Label Event Agent : Type*} [DecidableEq Agent]

/-- The agent a label moves, and where its next step starts its loop or sleeps. -/
structure Loops (State Label Agent : Type*) where
  agent : Label → Agent
  starting : State → Agent → Bool
  sleeping : State → Agent → Bool
  period : Agent → ℕ

/-- `began` and `slept` keep when a loop was started and how often it has slept. -/
structure Timed (State Agent : Type*) where
  base : State
  now : ℕ
  next : Agent → ℕ
  began : Agent → ℕ
  slept : Agent → ℕ

/-- A step that ends `delay` after the last one.  A sleep ends when its deadline has
passed. -/
def pacedStep (sys : System State Label Event) (loops : Loops State Label Agent)
    (state : Timed State Agent) (label : Label × ℕ) : Option (Timed State Agent × List Event) :=
  let (move, delay) := label
  let agent := loops.agent move
  let now := state.now + delay
  match sys.step state.base move with
  | none => none
  | some (base, events) =>
      if loops.starting state.base agent then
        some ({ state with
          base := base
          now := now
          next := update state.next agent now
          began := update state.began agent now }, events)
      else if loops.sleeping state.base agent then
        let next := state.next agent + loops.period agent
        if next ≤ now then
          some ({ state with
            base := base
            now := now
            next := update state.next agent next
            slept := update state.slept agent (state.slept agent + 1) }, events)
        else none
      else some ({ state with base := base, now := now }, events)

def paced (sys : System State Label Event) (loops : Loops State Label Agent) :
    System (Timed State Agent) (Label × ℕ) Event where
  step := pacedStep sys loops

/-- Before the first step, at time zero. -/
def timed (base : State) : Timed State Agent where
  base := base
  now := 0
  next := fun _ => 0
  began := fun _ => 0
  slept := fun _ => 0

/-- What a step with a clock does. -/
inductive PacedMoves (sys : System State Label Event) (loops : Loops State Label Agent)
    (state : Timed State Agent) (move : Label) (delay : ℕ) :
    Timed State Agent → List Event → Prop
  | start (base : State) (events : List Event)
      (hstep : sys.step state.base move = some (base, events))
      (hstarting : loops.starting state.base (loops.agent move) = true) :
      PacedMoves sys loops state move delay { state with
        base := base
        now := state.now + delay
        next := update state.next (loops.agent move) (state.now + delay)
        began := update state.began (loops.agent move) (state.now + delay) } events
  | sleep (base : State) (events : List Event)
      (hstep : sys.step state.base move = some (base, events))
      (hstarting : loops.starting state.base (loops.agent move) = false)
      (hsleeping : loops.sleeping state.base (loops.agent move) = true)
      (hdue : state.next (loops.agent move) + loops.period (loops.agent move) ≤
        state.now + delay) :
      PacedMoves sys loops state move delay { state with
        base := base
        now := state.now + delay
        next := update state.next (loops.agent move)
          (state.next (loops.agent move) + loops.period (loops.agent move))
        slept := update state.slept (loops.agent move)
          (state.slept (loops.agent move) + 1) } events
  | turn (base : State) (events : List Event)
      (hstep : sys.step state.base move = some (base, events))
      (hstarting : loops.starting state.base (loops.agent move) = false)
      (hsleeping : loops.sleeping state.base (loops.agent move) = false) :
      PacedMoves sys loops state move delay
        { state with base := base, now := state.now + delay } events

section Runs

variable {sys : System State Label Event} {loops : Loops State Label Agent}
variable {first : State} {state next : Timed State Agent} {label : Label × ℕ}
variable {trace events : List Event}

theorem pacedMoves_of_step (hstep : (paced sys loops).step state label = some (next, events)) :
    PacedMoves sys loops state label.1 label.2 next events := by
  obtain ⟨move, delay⟩ := label
  simp only [paced, pacedStep] at hstep
  split at hstep
  · cases hstep
  · rename_i base later hbase
    split_ifs at hstep with hstarting hsleeping hdue
    · cases hstep
      exact .start _ _ hbase hstarting
    · cases hstep
      exact .sleep _ _ hbase (Bool.eq_false_of_not_eq_true hstarting) hsleeping hdue
    · cases hstep
      exact .turn _ _ hbase (Bool.eq_false_of_not_eq_true hstarting)
        (Bool.eq_false_of_not_eq_true hsleeping)

theorem PacedMoves.base {move : Label} {delay : ℕ}
    (hmoves : PacedMoves sys loops state move delay next events) :
    sys.step state.base move = some (next.base, events) := by
  cases hmoves <;> assumption

theorem PacedMoves.slept_succ {move : Label} {delay : ℕ}
    (hmoves : PacedMoves sys loops state move delay next events)
    (hstarting : loops.starting state.base (loops.agent move) = false)
    (hsleeping : loops.sleeping state.base (loops.agent move) = true) :
    next.slept (loops.agent move) = state.slept (loops.agent move) + 1 := by
  cases hmoves with
  | start base events hstep hstarts => simp [hstarting] at hstarts
  | sleep base events hstep hstarts hsleeps hdue => simp
  | turn base events hstep hstarts hawake => simp [hsleeping] at hawake

/-- Without a sleep of the agent its count stays. -/
theorem PacedMoves.slept_same {move : Label} {delay : ℕ} {agent : Agent}
    (hmoves : PacedMoves sys loops state move delay next events)
    (hawake : loops.agent move = agent → loops.sleeping state.base agent = false) :
    next.slept agent = state.slept agent := by
  cases hmoves with
  | sleep base events hstep hstarting hsleeping hdue =>
      by_cases hsame : agent = loops.agent move
      · subst hsame
        simp [hawake rfl] at hsleeping
      · simp [update_of_ne hsame]
  | _ => rfl

/-- With its clock the system does nothing new. -/
theorem run_base (hrun : Run (paced sys loops) always state trace next) :
    Run sys always state.base trace next.base := by
  induction hrun with
  | start => exact .start
  | step _ _ hstep ih => exact .step ih trivial (pacedMoves_of_step hstep).base

/-- Whatever the system does it can do with its clock: a step that takes long enough
is never too early. -/
theorem exists_paced {base : State} (hrun : Run sys always state.base trace base) :
    ∃ last, Run (paced sys loops) always state trace last ∧ last.base = base := by
  induction hrun with
  | start => exact ⟨state, .start, rfl⟩
  | @step trace events middle base move hrun _ hstep ih =>
      obtain ⟨last, hlast, rfl⟩ := ih
      have hmove : ∃ after, (paced sys loops).step last
          (move, last.next (loops.agent move) + loops.period (loops.agent move)) =
            some (after, events) ∧ after.base = base := by
        simp only [paced, pacedStep, hstep]
        split_ifs with hstarting hsleeping hdue
        · exact ⟨_, rfl, rfl⟩
        · exact ⟨_, rfl, rfl⟩
        · omega
        · exact ⟨_, rfl, rfl⟩
      obtain ⟨after, hafter, hbase⟩ := hmove
      exact ⟨after, .step hlast trivial hafter, hbase⟩

/-! ## The deadlines -/

/-- An agent starts its loop once. -/
def StartsOnce (sys : System State Label Event) (loops : Loops State Label Agent) : Prop :=
  ∀ base label next events agent, sys.step base label = some (next, events) →
    loops.starting next agent = true →
      loops.starting base agent = true ∧ loops.agent label ≠ agent

/-- Deadlines follow one another at the distance of the period, from the start on. -/
structure OnSchedule (loops : Loops State Label Agent) (state : Timed State Agent) : Prop where
  deadline : ∀ agent,
    state.next agent = state.began agent + state.slept agent * loops.period agent
  passed : ∀ agent, state.next agent ≤ state.now
  unslept : ∀ agent, loops.starting state.base agent = true → state.slept agent = 0

theorem OnSchedule.moves {move : Label} {delay : ℕ} (honce : StartsOnce sys loops)
    (hschedule : OnSchedule loops state)
    (hmoves : PacedMoves sys loops state move delay next events) : OnSchedule loops next := by
  have hlater : ∀ agent, state.next agent ≤ state.now + delay := fun agent =>
    (hschedule.passed agent).trans (Nat.le_add_right _ _)
  have hunslept : ∀ agent, loops.starting next.base agent = true →
      state.slept agent = 0 ∧ loops.agent move ≠ agent := by
    intro agent hstarting
    obtain ⟨hbefore, hother⟩ := honce _ _ _ _ agent hmoves.base hstarting
    exact ⟨hschedule.unslept agent hbefore, hother⟩
  cases hmoves with
  | start base events hstep hstarting =>
      refine ⟨fun agent => ?_, fun agent => ?_, fun agent h => (hunslept agent h).1⟩
      · by_cases hsame : agent = loops.agent move
        · subst hsame
          simp [hschedule.unslept _ hstarting]
        · simpa [update_of_ne hsame] using hschedule.deadline agent
      · by_cases hsame : agent = loops.agent move
        · simp [hsame]
        · simpa [update_of_ne hsame] using hlater agent
  | sleep base events hstep hstarting hsleeping hdue =>
      refine ⟨fun agent => ?_, fun agent => ?_, fun agent h => ?_⟩
      · by_cases hsame : agent = loops.agent move
        · subst hsame
          simp only [update_self, hschedule.deadline]
          ring
        · simpa [update_of_ne hsame] using hschedule.deadline agent
      · by_cases hsame : agent = loops.agent move
        · simpa [hsame] using hdue
        · simpa [update_of_ne hsame] using hlater agent
      · obtain ⟨hzero, hother⟩ := hunslept agent h
        simpa [update_of_ne hother.symm] using hzero
  | turn base events hstep hstarting hsleeping =>
      exact ⟨hschedule.deadline, hlater, fun agent h => (hunslept agent h).1⟩

theorem OnSchedule.run (honce : StartsOnce sys loops)
    (hrun : Run (paced sys loops) always (timed first) trace state) : OnSchedule loops state := by
  refine hrun.invariant (fun _ state => OnSchedule loops state)
    ⟨fun agent => by simp [timed], fun agent => Nat.le_refl _, fun _ _ => rfl⟩ ?_
  intro trace state label next events _ hschedule _ hstep
  exact hschedule.moves honce (pacedMoves_of_step hstep)

theorem slept_le {move : Label} {delay : ℕ}
    (hmoves : PacedMoves sys loops state move delay next events) (agent : Agent) :
    state.slept agent ≤ next.slept agent := by
  cases hmoves with
  | sleep base events hstep hstarting hsleeping hdue =>
      by_cases hsame : agent = loops.agent move
      · simp [hsame]
      · simp [update_of_ne hsame]
  | _ => exact Nat.le_refl _

theorem slept_mono (hrun : Run (paced sys loops) always state trace next) (agent : Agent) :
    state.slept agent ≤ next.slept agent := by
  induction hrun with
  | start => exact Nat.le_refl _
  | step _ _ hstep ih => exact ih.trans (slept_le (pacedMoves_of_step hstep) agent)

/-! ## What an agent can do in its turns -/

/-- What some events cost in all. -/
def total (cost : Event → ℕ) (trace : List Event) : ℕ := (trace.map cost).sum

@[simp]
theorem total_append (cost : Event → ℕ) (before after : List Event) :
    total cost (before ++ after) = total cost before + total cost after := by
  simp [total]

/-- One for every event that is found. -/
def seen {Found : Type*} (find : Event → Option Found) (event : Event) : ℕ :=
  (find event).toList.length

theorem total_seen {Found : Type*} (find : Event → Option Found) (trace : List Event) :
    total (seen find) trace = (trace.filterMap find).length := by
  induction trace with
  | nil => rfl
  | cons event trace ih =>
      rw [total, List.map_cons, List.sum_cons, ← total, ih, List.filterMap_cons]
      cases hfind : find event <;> simp [seen, hfind, Nat.add_comm]

/-- An agent has a budget for each turn, and only its events cost anything. -/
structure Metered (sys : System State Label Event) (loops : Loops State Label Agent)
    (agent : Agent) (cost : Event → ℕ) (budget : State → ℕ) (perTurn : ℕ) : Prop where
  sleep : ∀ base label next events, sys.step base label = some (next, events) →
    loops.agent label = agent → loops.sleeping base agent = true →
      total cost events = 0 ∧ budget next ≤ perTurn
  spend : ∀ base label next events, sys.step base label = some (next, events) →
    ¬ (loops.agent label = agent ∧ loops.sleeping base agent = true) →
      total cost events + budget next ≤ budget base

theorem Metered.moves {agent : Agent} {cost : Event → ℕ} {budget : State → ℕ} {perTurn : ℕ}
    (hmetered : Metered sys loops agent cost budget perTurn)
    (hapart : ∀ base, loops.starting base agent = true → loops.sleeping base agent = false)
    {move : Label} {delay : ℕ} (hmoves : PacedMoves sys loops state move delay next events) :
    total cost events + budget next.base ≤
      perTurn * (next.slept agent - state.slept agent) + budget state.base := by
  by_cases hturn : loops.agent move = agent ∧ loops.sleeping state.base agent = true
  · obtain ⟨rfl, hsleeping⟩ := hturn
    obtain ⟨hfree, hbudget⟩ := hmetered.sleep _ _ _ _ hmoves.base rfl hsleeping
    cases hmoves with
    | sleep base events hstep hstarting _ hdue =>
        simp only [hfree, update_self, Nat.add_sub_cancel_left, Nat.mul_one]
        exact (Nat.zero_add _).trans_le (hbudget.trans (Nat.le_add_right _ _))
    | start base events hstep hstarting => simp [hapart _ hstarting] at hsleeping
    | turn base events hstep hstarting hawake => simp [hawake] at hsleeping
  · exact (hmetered.spend _ _ _ _ hmoves.base hturn).trans (Nat.le_add_left _ _)

/-- Between any two states of a run an agent spends its budget once a turn at most. -/
theorem Metered.run {agent : Agent} {cost : Event → ℕ} {budget : State → ℕ} {perTurn : ℕ}
    (hmetered : Metered sys loops agent cost budget perTurn)
    (hapart : ∀ base, loops.starting base agent = true → loops.sleeping base agent = false)
    (hrun : Run (paced sys loops) always state trace next) :
    total cost trace + budget next.base ≤
      perTurn * (next.slept agent - state.slept agent) + budget state.base := by
  induction hrun with
  | start => simp [total]
  | @step trace events middle next label hmiddle _ hstep ih =>
      have hmoves := pacedMoves_of_step hstep
      have hbefore := slept_mono hmiddle agent
      have hafter := slept_le hmoves agent
      have hspent := hmetered.moves hapart hmoves
      rw [total_append,
        show next.slept agent - state.slept agent =
          (middle.slept agent - state.slept agent) + (next.slept agent - middle.slept agent) by
            omega, Nat.mul_add]
      omega

/-- From its last deadline on an agent sleeps at most once a period. -/
theorem turns_mul_period_le (honce : StartsOnce sys loops)
    (hrun : Run (paced sys loops) always (timed first) trace state)
    (hlater : Run (paced sys loops) always state events next) (agent : Agent) :
    (next.slept agent - state.slept agent) * loops.period agent ≤
      next.now - state.next agent := by
  have hahead : state.next agent + (next.slept agent - state.slept agent) * loops.period agent ≤
      next.next agent := by
    refine hlater.invariant (fun _ next => state.next agent +
      (next.slept agent - state.slept agent) * loops.period agent ≤ next.next agent)
      (by simp) ?_
    intro later middle label after events hmiddle hahead _ hstep
    have hschedule := OnSchedule.run honce (hrun.append hmiddle)
    have hmono := slept_mono hmiddle agent
    have hpassed := hschedule.passed agent
    cases pacedMoves_of_step hstep with
    | turn base events hstep hstarting hsleeping => exact hahead
    | start base events hstep hstarting =>
        by_cases hsame : agent = loops.agent label.1
        · subst hsame
          simp only [update_self]
          omega
        · simpa [update_of_ne hsame] using hahead
    | sleep base events hstep hstarting hsleeping hdue =>
        by_cases hsame : agent = loops.agent label.1
        · subst hsame
          simp only [update_self]
          rw [show middle.slept (loops.agent label.1) + 1 - state.slept (loops.agent label.1) =
              middle.slept (loops.agent label.1) - state.slept (loops.agent label.1) + 1 by omega,
            Nat.add_mul, Nat.one_mul]
          omega
        · simpa [update_of_ne hsame] using hahead
  have hpassed := (OnSchedule.run honce (hrun.append hlater)).passed agent
  omega

/-- The budget never grows beyond that of a turn. -/
theorem Metered.budget_le {agent : Agent} {cost : Event → ℕ} {budget : State → ℕ} {perTurn : ℕ}
    (hmetered : Metered sys loops agent cost budget perTurn)
    (hrun : Run (paced sys loops) always state trace next) (hfirst : budget state.base ≤ perTurn) :
    budget next.base ≤ perTurn := by
  refine hrun.invariant (fun _ next => budget next.base ≤ perTurn) hfirst ?_
  intro trace middle label after events _ hbudget _ hstep
  have hbase := (pacedMoves_of_step hstep).base
  by_cases hturn : loops.agent label.1 = agent ∧ loops.sleeping middle.base agent = true
  · exact (hmetered.sleep _ _ _ _ hbase hturn.1 hturn.2).2
  · have hspent := hmetered.spend _ _ _ _ hbase hturn
    omega

/-- From its last deadline on an agent spends its budget once a period, and once
more. -/
theorem Metered.rate {agent : Agent} {cost : Event → ℕ} {budget : State → ℕ} {perTurn : ℕ}
    (hmetered : Metered sys loops agent cost budget perTurn) (honce : StartsOnce sys loops)
    (hapart : ∀ base, loops.starting base agent = true → loops.sleeping base agent = false)
    (hfirst : budget first ≤ perTurn)
    (hrun : Run (paced sys loops) always (timed first) trace state)
    (hlater : Run (paced sys loops) always state events next) :
    total cost events * loops.period agent ≤
      perTurn * (next.now - state.next agent + loops.period agent) := by
  have hturns := turns_mul_period_le honce hrun hlater agent
  have hspent : total cost events ≤
      perTurn * (next.slept agent - state.slept agent + 1) := by
    have hsum := hmetered.run hapart hlater
    have hbudget := hmetered.budget_le hrun hfirst
    rw [Nat.mul_add, Nat.mul_one]
    omega
  calc total cost events * loops.period agent
      ≤ perTurn * (next.slept agent - state.slept agent + 1) * loops.period agent :=
        Nat.mul_le_mul_right _ hspent
    _ = perTurn * ((next.slept agent - state.slept agent) * loops.period agent +
          loops.period agent) := by ring
    _ ≤ perTurn * (next.now - state.next agent + loops.period agent) :=
        Nat.mul_le_mul_left _ (Nat.add_le_add_right hturns _)

end Runs

end ArcravenUgv.Pacing
