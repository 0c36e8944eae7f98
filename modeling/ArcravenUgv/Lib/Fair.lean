import ArcravenUgv.Lib.Runs

/-!
# Infinite runs and strong fairness

An infinite run of a labelled system, what holds in all of its states, and what
fairness towards an agent gives: an agent that can move again and again moves.
-/

namespace ArcravenUgv.Fair

open ArcravenUgv.Runs

variable {State Label Event Agent : Type*}

/-- An infinite run. -/
structure Execution (sys : System State Label Event) (first : State) where
  state : ℕ → State
  label : ℕ → Label
  events : ℕ → List Event
  start : state 0 = first
  step : ∀ time, sys.step (state time) (label time) = some (state (time + 1), events time)

section Execution

variable {sys : System State Label Event} {first : State}

/-- Every state of an infinite run is reached by a finite one. -/
theorem Execution.exists_run (exec : Execution sys first) (time : ℕ) :
    ∃ trace, Run sys always first trace (exec.state time) := by
  induction time with
  | zero => exact ⟨[], by rw [exec.start]; exact .start⟩
  | succ time ih =>
      obtain ⟨trace, hrun⟩ := ih
      exact ⟨_, .step hrun trivial (exec.step time)⟩

/-- What has happened before a time. -/
def Execution.trace (exec : Execution sys first) (time : ℕ) : List Event :=
  (List.range time).flatMap exec.events

theorem Execution.trace_succ (exec : Execution sys first) (time : ℕ) :
    exec.trace (time + 1) = exec.trace time ++ exec.events time := by
  rw [trace, trace, List.range_succ, List.flatMap_append, List.flatMap_singleton]

theorem Execution.run_trace (exec : Execution sys first) (time : ℕ) :
    Run sys always first (exec.trace time) (exec.state time) := by
  induction time with
  | zero =>
      rw [exec.start]
      exact .start
  | succ time ih =>
      rw [exec.trace_succ]
      exact .step ih trivial (exec.step time)

theorem Execution.trace_mono (exec : Execution sys first) {time later : ℕ} (hle : time ≤ later) :
    exec.trace time <+: exec.trace later := by
  induction later, hle using Nat.le_induction with
  | base => exact List.prefix_refl _
  | succ later _ ih =>
      rw [exec.trace_succ]
      exact ih.trans (List.prefix_append _ _)

/-- What holds now and is kept by each step up to some time holds then. -/
theorem Execution.until (exec : Execution sys first) (holds : State → Prop) {time later : ℕ}
    (hle : time ≤ later) (hnow : holds (exec.state time))
    (hkeep : ∀ moment, time ≤ moment → moment < later → holds (exec.state moment) →
      holds (exec.state (moment + 1))) : holds (exec.state later) := by
  induction later, hle using Nat.le_induction with
  | base => exact hnow
  | succ later hle ih =>
      exact hkeep later hle (Nat.lt_succ_self later)
        (ih fun moment hmoment hlater => hkeep moment hmoment (Nat.lt_succ_of_lt hlater))

/-- What grows again and again until it is large enough becomes so. -/
theorem exists_le_of_grows {count : ℕ → ℕ} {ended : ℕ → Prop} {enough time : ℕ}
    (hgrows : ∀ moment, time ≤ moment → count moment < enough →
      ∃ later, moment ≤ later ∧ (ended later ∨ count moment < count later)) :
    ∃ later, time ≤ later ∧ (ended later ∨ enough ≤ count later) := by
  suffices hmissing : ∀ missing moment, time ≤ moment → enough ≤ count moment + missing →
      ∃ later, moment ≤ later ∧ (ended later ∨ enough ≤ count later) from
    hmissing enough time (Nat.le_refl _) (Nat.le_add_left _ _)
  intro missing
  induction missing with
  | zero => exact fun moment _ hcount => ⟨moment, Nat.le_refl _, .inr hcount⟩
  | succ missing ih =>
      intro moment hle hcount
      by_cases hdone : enough ≤ count moment
      · exact ⟨moment, Nat.le_refl _, .inr hdone⟩
      obtain ⟨next, hnext, hended | hmore⟩ := hgrows moment hle (by omega)
      · exact ⟨next, hnext, .inl hended⟩
      · obtain ⟨later, hlater, hend⟩ := ih next (hle.trans hnext) (by omega)
        exact ⟨later, hnext.trans hlater, hend⟩

variable {agentOf : Label → Agent} {agent : Agent}

/-- Some step of the agent can be taken. -/
def Enabled (sys : System State Label Event) (agentOf : Label → Agent) (state : State)
    (agent : Agent) : Prop :=
  ∃ label result, agentOf label = agent ∧ sys.step state label = some result

/-- An agent that can move at infinitely many times moves at infinitely many
times. -/
def StronglyFair (exec : Execution sys first) (agentOf : Label → Agent) : Prop :=
  ∀ agent, (∀ time, ∃ later, time ≤ later ∧ Enabled sys agentOf (exec.state later) agent) →
    ∀ time, ∃ later, time ≤ later ∧ agentOf (exec.label later) = agent

/-- The agent moves at a time and not before it, from another time on. -/
def FirstMove (exec : Execution sys first) (agentOf : Label → Agent) (agent : Agent)
    (time later : ℕ) : Prop :=
  time ≤ later ∧ agentOf (exec.label later) = agent ∧
    ∀ moment, time ≤ moment → moment < later → agentOf (exec.label moment) ≠ agent

/-- An agent that would be enabled again and again if it did not move moves. -/
theorem StronglyFair.exists_firstMove {exec : Execution sys first}
    (hfair : StronglyFair exec agentOf) {time : ℕ}
    (henabled : (∀ moment, time ≤ moment → agentOf (exec.label moment) ≠ agent) →
      ∀ moment, time ≤ moment →
        ∃ later, moment ≤ later ∧ Enabled sys agentOf (exec.state later) agent) :
    ∃ later, FirstMove exec agentOf agent time later := by
  classical
  have hmoves : ∃ later, time ≤ later ∧ agentOf (exec.label later) = agent := by
    by_contra hnever
    have hstill : ∀ moment, time ≤ moment → agentOf (exec.label moment) ≠ agent :=
      fun moment hmoment heq => hnever ⟨moment, hmoment, heq⟩
    refine hnever (hfair agent (fun moment => ?_) time)
    obtain ⟨later, hlater, hready⟩ :=
      henabled hstill (max time moment) (Nat.le_max_left _ _)
    exact ⟨later, Nat.le_trans (Nat.le_max_right _ _) hlater, hready⟩
  obtain ⟨hle, hagent⟩ := Nat.find_spec hmoves
  exact ⟨Nat.find hmoves, hle, hagent, fun moment hmoment hbefore heq =>
    Nat.find_min hmoves hbefore ⟨hmoment, heq⟩⟩

/-- Within some states an agent can always move and comes closer to a goal, and the
others do not set it back: the goal is reached. -/
theorem StronglyFair.exists_goal {exec : Execution sys first}
    (hfair : StronglyFair exec agentOf) (within goal : State → Prop) (rank : State → ℕ)
    {time : ℕ} (hwithin : within (exec.state time))
    (henabled : ∀ moment, within (exec.state moment) →
      Enabled sys agentOf (exec.state moment) agent)
    (hstep : ∀ moment, within (exec.state moment) → goal (exec.state (moment + 1)) ∨
      within (exec.state (moment + 1)) ∧
        rank (exec.state (moment + 1)) ≤ rank (exec.state moment) ∧
        (agentOf (exec.label moment) = agent →
          rank (exec.state (moment + 1)) < rank (exec.state moment))) :
    ∃ later, time ≤ later ∧ goal (exec.state later) := by
  by_contra hnever
  have hgoal : ∀ moment, time ≤ moment → ¬ goal (exec.state moment) :=
    fun moment hmoment hgoal => hnever ⟨moment, hmoment, hgoal⟩
  have hkept : ∀ start, time ≤ start → within (exec.state start) → ∀ later, start ≤ later →
      within (exec.state later) ∧ rank (exec.state later) ≤ rank (exec.state start) := by
    intro start hstart hwithin later hle
    induction later, hle using Nat.le_induction with
    | base => exact ⟨hwithin, Nat.le_refl _⟩
    | succ later hle ih =>
        rcases hstep later ih.1 with hreached | ⟨hstill, hrank, -⟩
        · exact absurd hreached (hgoal _ (by omega))
        · exact ⟨hstill, hrank.trans ih.2⟩
  have hlower : ∀ far start, time ≤ start → within (exec.state start) →
      rank (exec.state start) ≠ far := by
    intro far
    induction far using Nat.strong_induction_on with
    | _ far ih =>
        intro start hstart hwithin hrank
        have hfirst : ∃ later, FirstMove exec agentOf agent start later :=
          hfair.exists_firstMove fun _ moment hmoment =>
            ⟨moment, Nat.le_refl _, henabled moment (hkept start hstart hwithin moment hmoment).1⟩
        obtain ⟨later, hle, hmoves, -⟩ := hfirst
        obtain ⟨hstill, hnear⟩ := hkept start hstart hwithin later hle
        rcases hstep later hstill with hreached | ⟨hnext, -, hcloser⟩
        · exact hgoal _ (by omega) hreached
        · have hlt := hcloser hmoves
          exact ih _ (by omega) (later + 1) (by omega) hnext rfl
  exact hlower _ time (Nat.le_refl _) hwithin rfl

end Execution

/-! ## Fair runs exist -/

section Scheduler

variable {sys : System State Label Event} {inv : State → Prop} {agentOf : Label → Agent}

/-- A state within an invariant, and all agents in the order of their turns. -/
structure Turn (inv : State → Prop) (Agent : Type*) where
  state : State
  order : List Agent
  within : inv state
  complete : ∀ agent, agent ∈ order

theorem exists_first {order : List Agent} {holds : Agent → Prop} {agent : Agent}
    (hmem : agent ∈ order) (hholds : holds agent) :
    ∃ before chosen after, order = before ++ chosen :: after ∧ holds chosen ∧
      ∀ other ∈ before, ¬ holds other := by
  classical
  have hsome : (order.find? fun other => decide (holds other)).isSome :=
    List.find?_isSome.2 ⟨agent, hmem, decide_eq_true hholds⟩
  obtain ⟨chosen, hfind⟩ := Option.isSome_iff_exists.1 hsome
  obtain ⟨hchosen, before, after, horder, hbefore⟩ := List.find?_eq_some_iff_append.1 hfind
  exact ⟨before, chosen, after, horder, of_decide_eq_true hchosen, by simpa using hbefore⟩

variable [DecidableEq Agent]

/-- The agent goes to the end of the order. -/
def toEnd (order : List Agent) (agent : Agent) : List Agent := order.erase agent ++ [agent]

/-- Nobody is put back, and those behind the agent come forward. -/
theorem exists_toEnd {order before after : List Agent} {agent other : Agent}
    (horder : order = before ++ agent :: after) (hother : other ≠ agent) :
    ∃ ahead behind, toEnd order other = ahead ++ agent :: behind ∧
      ahead.length ≤ before.length ∧ (other ∈ before → ahead.length < before.length) := by
  subst horder
  by_cases hmem : other ∈ before
  · have hlength := List.length_erase_of_mem hmem
    have hpos := List.length_pos_of_mem hmem
    refine ⟨before.erase other, after ++ [other], ?_, by omega, fun _ => by omega⟩
    simp [toEnd, List.erase_append_left _ hmem]
  · refine ⟨before, after.erase other ++ [other], ?_, Nat.le_refl _, fun h => absurd h hmem⟩
    rw [toEnd, List.erase_append_right _ hmem, List.erase_cons_tail (by simpa using hother.symm)]
    simp

/-- The first agent in the order that can move moves, and goes to the end. -/
structure Takes (sys : System State Label Event) (agentOf : Label → Agent)
    (turn next : Turn inv Agent) (label : Label) (events : List Event) : Prop where
  step : sys.step turn.state label = some (next.state, events)
  first : ∃ before after, turn.order = before ++ agentOf label :: after ∧
    ∀ other ∈ before, ¬ Enabled sys agentOf turn.state other
  order : next.order = toEnd turn.order (agentOf label)

theorem exists_takes
    (hkeep : ∀ state label next events, inv state →
      sys.step state label = some (next, events) → inv next)
    (hlive : ∀ state, inv state → ∃ agent, Enabled sys agentOf state agent)
    (turn : Turn inv Agent) :
    ∃ (next : Turn inv Agent) (label : Label) (events : List Event),
      Takes sys agentOf turn next label events := by
  obtain ⟨agent, henabled⟩ := hlive turn.state turn.within
  obtain ⟨before, chosen, after, horder, ⟨label, ⟨state, events⟩, rfl, hstep⟩, hbefore⟩ :=
    exists_first (turn.complete agent) henabled
  refine ⟨{
    state := state
    order := toEnd turn.order (agentOf label)
    within := hkeep _ _ _ _ turn.within hstep
    complete := fun other => ?_ }, label, events, hstep, ⟨before, after, horder, hbefore⟩, rfl⟩
  by_cases hother : other = agentOf label
  · simp [toEnd, hother]
  · simp [toEnd, List.mem_erase_of_ne hother, turn.complete other]

variable {turn : ℕ → Turn inv Agent} {label : ℕ → Label} {events : ℕ → List Event}

/-- While others move an agent does not go back in the order. -/
theorem exists_order_until
    (htakes : ∀ time, Takes sys agentOf (turn time) (turn (time + 1)) (label time) (events time))
    {agent : Agent} {time later : ℕ} (hle : time ≤ later)
    (hstill : ∀ moment, time ≤ moment → agentOf (label moment) ≠ agent)
    {before after : List Agent} (horder : (turn time).order = before ++ agent :: after) :
    ∃ ahead behind, (turn later).order = ahead ++ agent :: behind ∧
      ahead.length ≤ before.length := by
  induction later, hle using Nat.le_induction with
  | base => exact ⟨before, after, horder, Nat.le_refl _⟩
  | succ later hle ih =>
      obtain ⟨ahead, behind, hsplit, hlength⟩ := ih
      obtain ⟨front, back, hend, hfront, -⟩ := exists_toEnd hsplit (hstill later hle)
      exact ⟨front, back, (htakes later).order.trans hend, Nat.le_trans hfront hlength⟩

/-- Who moves instead of an agent that could have moved was ahead of it. -/
theorem Takes.mem_ahead {turn next : Turn inv Agent} {label : Label} {events : List Event}
    (htakes : Takes sys agentOf turn next label events) {agent : Agent}
    (henabled : Enabled sys agentOf turn.state agent) (hother : agentOf label ≠ agent)
    {ahead behind : List Agent} (horder : turn.order = ahead ++ agent :: behind) :
    agentOf label ∈ ahead := by
  obtain ⟨before, after, hfirst, hbefore⟩ := htakes.first
  have hagent : agent ∉ before := fun hmem => hbefore agent hmem henabled
  rcases List.append_eq_append_iff.1 (horder.symm.trans hfirst) with
    ⟨between, rfl, hrest⟩ | ⟨between, rfl, hrest⟩
  · cases between with
    | nil => exact absurd (List.cons.inj hrest).1.symm hother
    | cons head between =>
        obtain ⟨rfl, -⟩ := List.cons.inj hrest
        simp at hagent
  · cases between with
    | nil => exact absurd (List.cons.inj hrest).1 hother
    | cons head between =>
        obtain ⟨rfl, -⟩ := List.cons.inj hrest
        simp

/-- An agent that can move again and again gets its turn. -/
theorem exists_turn
    (htakes : ∀ time, Takes sys agentOf (turn time) (turn (time + 1)) (label time) (events time))
    {agent : Agent}
    (henabled : ∀ time, ∃ later, time ≤ later ∧ Enabled sys agentOf (turn later).state agent)
    (time : ℕ) : ∃ later, time ≤ later ∧ agentOf (label later) = agent := by
  obtain ⟨before, after, horder⟩ := List.append_of_mem ((turn time).complete agent)
  induction hlength : before.length using Nat.strong_induction_on
    generalizing time before after with
  | _ length ih =>
      by_contra hnever
      have hstill : ∀ moment, time ≤ moment → agentOf (label moment) ≠ agent :=
        fun moment hmoment heq => hnever ⟨moment, hmoment, heq⟩
      obtain ⟨later, hle, hready⟩ := henabled time
      obtain ⟨ahead, behind, hsplit, hahead⟩ := exists_order_until htakes hle hstill horder
      have hother := hstill later hle
      obtain ⟨front, back, hend, -, hcloser⟩ := exists_toEnd hsplit hother
      have hshorter := hcloser ((htakes later).mem_ahead hready hother hsplit)
      obtain ⟨last, hlast, hmoves⟩ := ih front.length (by omega) (later + 1) front back
        ((htakes later).order.trans hend) rfl
      exact hstill last (by omega) hmoves

/-- Where some agent can always move there is a strongly fair run. -/
theorem exists_stronglyFair {first : State} (hfirst : inv first)
    (hkeep : ∀ state label next events, inv state →
      sys.step state label = some (next, events) → inv next)
    (hlive : ∀ state, inv state → ∃ agent, Enabled sys agentOf state agent)
    (agents : List Agent) (hcomplete : ∀ agent, agent ∈ agents) :
    ∃ exec : Execution sys first, StronglyFair exec agentOf := by
  choose next label events htakes using exists_takes hkeep hlive
  let turn : ℕ → Turn inv Agent :=
    Nat.rec ⟨first, agents, hfirst, hcomplete⟩ fun _ turn => next turn
  refine ⟨{
    state := fun time => (turn time).state
    label := fun time => label (turn time)
    events := fun time => events (turn time)
    start := rfl
    step := fun time => (htakes (turn time)).step }, ?_⟩
  intro agent henabled time
  exact exists_turn (fun time => htakes (turn time)) henabled time

end Scheduler

/-! ## A finite run at the front -/

section Cons

variable {sys : System State Label Event} {first next : State} {agentOf : Label → Agent}

/-- One step and then an infinite run. -/
def Execution.cons (exec : Execution sys next) {label : Label} {events : List Event}
    (hstep : sys.step first label = some (next, events)) : Execution sys first where
  state
    | 0 => first
    | time + 1 => exec.state time
  label
    | 0 => label
    | time + 1 => exec.label time
  events
    | 0 => events
    | time + 1 => exec.events time
  start := rfl
  step
    | 0 => by simpa [exec.start] using hstep
    | time + 1 => exec.step time

theorem StronglyFair.cons {exec : Execution sys next} (hfair : StronglyFair exec agentOf)
    {label : Label} {events : List Event}
    (hstep : sys.step first label = some (next, events)) :
    StronglyFair (exec.cons hstep) agentOf := by
  intro agent henabled time
  have henabled' : ∀ time, ∃ later, time ≤ later ∧
      Enabled sys agentOf (exec.state later) agent := by
    intro time
    obtain ⟨later, hle, hready⟩ := henabled (time + 1)
    obtain ⟨later, rfl⟩ : ∃ earlier, later = earlier + 1 := ⟨later - 1, by omega⟩
    exact ⟨later, Nat.le_of_succ_le_succ hle, hready⟩
  obtain ⟨later, hle, hmoves⟩ := hfair agent henabled' time
  exact ⟨later + 1, Nat.le_succ_of_le hle, hmoves⟩

/-- A finite run goes on as a fair run does from the state it has reached. -/
theorem StronglyFair.extend {allowed : State → Label → Prop} {trace : List Event}
    {state : State} (hrun : Run sys allowed first trace state)
    {exec : Execution sys state} (hfair : StronglyFair exec agentOf) :
    ∃ longer : Execution sys first, StronglyFair longer agentOf ∧
      (∀ event ∈ trace, ∃ time, event ∈ longer.events time) ∧
        ∃ shift, ∀ time, longer.state (time + shift) = exec.state time ∧
          longer.events (time + shift) = exec.events time := by
  induction hrun with
  | start => exact ⟨exec, hfair, by simp, 0, fun time => ⟨rfl, rfl⟩⟩
  | step hrun _ hstep ih =>
      obtain ⟨longer, hlonger, htrace, shift, hshift⟩ := ih (hfair.cons hstep)
      refine ⟨longer, hlonger, fun event hevent => ?_, shift + 1, fun time => ?_⟩
      · rcases List.mem_append.1 hevent with hevent | hevent
        · exact htrace event hevent
        · exact ⟨0 + shift, by rw [(hshift 0).2]; exact hevent⟩
      · rw [show time + (shift + 1) = time + 1 + shift by omega]
        exact hshift (time + 1)

end Cons

end ArcravenUgv.Fair
