import ArcravenUgv.Lib.Runs

/-!
# Steps with mutexes around them

A system of agents whose steps are atomic, and for every agent a script that
says which mutexes it locks and unlocks around its next step.  A mutex that is
taken blocks whoever tries to lock it, its owner included.
-/

namespace ArcravenUgv.Mutex

open Function
open ArcravenUgv.Runs

inductive Instr (Lock : Type*)
  | lock (mutex : Lock)
  | unlock (mutex : Lock)
  | act
  deriving DecidableEq, Repr

variable {State Label Event Agent Lock : Type*} [DecidableEq Agent] [DecidableEq Lock]

/-- The agent a label moves, and the instructions of an agent's next step.  An
agent without instructions does not start. -/
structure Locking (State Label Agent Lock : Type*) where
  agent : Label → Agent
  script : State → Agent → List (Instr Lock)

/-- A state of the system, the owners of the mutexes, and what each agent has
still to do of the script it has started. -/
structure Guarded (State Agent Lock : Type*) where
  base : State
  owner : Lock → Option Agent
  todo : Agent → List (Instr Lock)

def guardedStep (sys : System State Label Event) (locking : Locking State Label Agent Lock)
    (state : Guarded State Agent Lock) (label : Label) :
    Option (Guarded State Agent Lock × List Event) :=
  let agent := locking.agent label
  match state.todo agent with
  | [] =>
      if locking.script state.base agent = [] then none
      else
        some ({ state with
          todo := update state.todo agent (locking.script state.base agent) }, [])
  | .lock mutex :: rest =>
      if state.owner mutex = none then
        some ({ state with
          owner := update state.owner mutex (some agent)
          todo := update state.todo agent rest }, [])
      else none
  | .unlock mutex :: rest =>
      some ({ state with
        owner := update state.owner mutex none
        todo := update state.todo agent rest }, [])
  | .act :: rest =>
      (sys.step state.base label).map fun (base, events) =>
        ({ state with base := base, todo := update state.todo agent rest }, events)

/-- The system with its mutexes. -/
def guarded (sys : System State Label Event) (locking : Locking State Label Agent Lock) :
    System (Guarded State Agent Lock) Label Event where
  step := guardedStep sys locking

/-- No mutex is taken and no script started. -/
def idle (base : State) : Guarded State Agent Lock where
  base := base
  owner := fun _ => none
  todo := fun _ => []

/-- The next instruction locks a mutex the agent holds. -/
def TriesSelfLock (state : Guarded State Agent Lock) (agent : Agent) : Prop :=
  ∃ mutex rest, state.todo agent = .lock mutex :: rest ∧ state.owner mutex = some agent

/-- What a step with mutexes does. -/
inductive GuardedMoves (sys : System State Label Event)
    (locking : Locking State Label Agent Lock) (state : Guarded State Agent Lock)
    (label : Label) : Guarded State Agent Lock → List Event → Prop
  | load (htodo : state.todo (locking.agent label) = [])
      (hscript : locking.script state.base (locking.agent label) ≠ []) :
      GuardedMoves sys locking state label { state with
        todo := update state.todo (locking.agent label)
          (locking.script state.base (locking.agent label)) } []
  | lock (mutex : Lock) (rest : List (Instr Lock))
      (htodo : state.todo (locking.agent label) = .lock mutex :: rest)
      (hfree : state.owner mutex = none) :
      GuardedMoves sys locking state label { state with
        owner := update state.owner mutex (some (locking.agent label))
        todo := update state.todo (locking.agent label) rest } []
  | unlock (mutex : Lock) (rest : List (Instr Lock))
      (htodo : state.todo (locking.agent label) = .unlock mutex :: rest) :
      GuardedMoves sys locking state label { state with
        owner := update state.owner mutex none
        todo := update state.todo (locking.agent label) rest } []
  | act (rest : List (Instr Lock)) (base : State) (events : List Event)
      (htodo : state.todo (locking.agent label) = .act :: rest)
      (hstep : sys.step state.base label = some (base, events)) :
      GuardedMoves sys locking state label { state with
        base := base
        todo := update state.todo (locking.agent label) rest } events

section Moves

variable {sys : System State Label Event} {locking : Locking State Label Agent Lock}
variable {state next : Guarded State Agent Lock} {label : Label} {events : List Event}

theorem guardedMoves_of_step
    (hstep : (guarded sys locking).step state label = some (next, events)) :
    GuardedMoves sys locking state label next events := by
  simp only [guarded, guardedStep] at hstep
  split at hstep
  · split_ifs at hstep with hscript
    cases hstep
    exact .load ‹_› hscript
  · split_ifs at hstep with hfree
    cases hstep
    exact .lock _ _ ‹_› hfree
  · cases hstep
    exact .unlock _ _ ‹_›
  · obtain ⟨⟨base, later⟩, hbase, heq⟩ := Option.map_eq_some_iff.1 hstep
    cases heq
    exact .act _ _ _ ‹_› hbase

theorem step_of_guardedMoves (hmoves : GuardedMoves sys locking state label next events) :
    (guarded sys locking).step state label = some (next, events) := by
  cases hmoves with
  | load htodo hscript => simp [guarded, guardedStep, htodo, hscript]
  | lock mutex rest htodo hfree => simp [guarded, guardedStep, htodo, hfree]
  | unlock mutex rest htodo => simp [guarded, guardedStep, htodo]
  | act rest base events htodo hstep => simp [guarded, guardedStep, htodo, hstep]

/-- Other agents keep their place in their scripts. -/
theorem GuardedMoves.todo_other (hmoves : GuardedMoves sys locking state label next events)
    {agent : Agent} (hother : locking.agent label ≠ agent) :
    next.todo agent = state.todo agent := by
  cases hmoves <;> exact update_of_ne hother.symm ..

/-- The moving agent starts its script, or leaves one instruction behind it. -/
theorem GuardedMoves.todo_self (hmoves : GuardedMoves sys locking state label next events) :
    state.todo (locking.agent label) = [] ∧ next.base = state.base ∧
        next.todo (locking.agent label) = locking.script state.base (locking.agent label) ∨
      (∃ instr, instr ≠ .act ∧ next.base = state.base ∧
        state.todo (locking.agent label) = instr :: next.todo (locking.agent label)) ∨
      state.todo (locking.agent label) = .act :: next.todo (locking.agent label) ∧
        sys.step state.base label = some (next.base, events) := by
  cases hmoves with
  | load htodo hscript => exact Or.inl ⟨htodo, rfl, by simp⟩
  | lock mutex rest htodo hfree =>
      exact Or.inr (Or.inl ⟨.lock mutex, by simp, rfl, by simpa using htodo⟩)
  | unlock mutex rest htodo =>
      exact Or.inr (Or.inl ⟨.unlock mutex, by simp, rfl, by simpa using htodo⟩)
  | act rest base events htodo hstep =>
      exact Or.inr (Or.inr ⟨by simpa using htodo, hstep⟩)

/-- Only a step of the system is seen. -/
theorem GuardedMoves.step_of_mem (hmoves : GuardedMoves sys locking state label next events)
    {event : Event} (hmem : event ∈ events) :
    sys.step state.base label = some (next.base, events) := by
  cases hmoves with
  | act rest base events htodo hstep => exact hstep
  | _ => cases hmem

end Moves

/-! ## One mutex at a time -/

/-- The mutex held after some instructions, as long as a mutex is only locked
when none is held and only unlocked when it is the one held. -/
def heldAfter : Option Lock → List (Instr Lock) → Option (Option Lock)
  | held, [] => some held
  | held, .lock mutex :: rest => if held = none then heldAfter (some mutex) rest else none
  | held, .unlock mutex :: rest => if held = some mutex then heldAfter none rest else none
  | held, .act :: rest => heldAfter held rest

/-- A script that holds one mutex at a time and none in the end. -/
def Leaf (script : List (Instr Lock)) : Prop := heldAfter none script = some none

instance (script : List (Instr Lock)) : Decidable (Leaf script) :=
  inferInstanceAs (Decidable (_ = _))

theorem heldAfter_append {held middle : Option Lock} {before : List (Instr Lock)}
    (hbefore : heldAfter held before = some middle) (after : List (Instr Lock)) :
    heldAfter held (before ++ after) = heldAfter middle after := by
  induction before generalizing held with
  | nil =>
      cases hbefore
      rfl
  | cons instr before ih =>
      cases instr with
      | lock mutex | unlock mutex =>
          simp only [heldAfter, List.cons_append] at hbefore ⊢
          split_ifs at hbefore ⊢
          exact ih hbefore
      | act => exact ih hbefore

theorem Leaf.append {before after : List (Instr Lock)} (hbefore : Leaf before)
    (hafter : Leaf after) : Leaf (before ++ after) :=
  (heldAfter_append hbefore after).trans hafter

/-- Each agent owns exactly the mutex its script holds. -/
def Owned (state : Guarded State Agent Lock) : Prop :=
  ∀ agent, ∃ held, heldAfter held (state.todo agent) = some none ∧
    ∀ mutex, state.owner mutex = some agent ↔ held = some mutex

omit [DecidableEq Agent] in
theorem owned_idle (base : State) : Owned (idle base : Guarded State Agent Lock) :=
  fun _ => ⟨none, rfl, by simp [idle]⟩

section Owned

variable {sys : System State Label Event} {locking : Locking State Label Agent Lock}
variable {state next : Guarded State Agent Lock} {label : Label} {events : List Event}

omit [DecidableEq Agent] in
/-- No agent locks a mutex it holds. -/
theorem Owned.not_triesSelfLock (howned : Owned state) (agent : Agent) :
    ¬ TriesSelfLock state agent := by
  rintro ⟨mutex, rest, htodo, howner⟩
  obtain ⟨held, hheld, hiff⟩ := howned agent
  rw [htodo, (hiff mutex).1 howner] at hheld
  simp [heldAfter] at hheld

/-- Other agents keep the mutexes they own. -/
theorem Owned.owner_other (howned : Owned state)
    (hmoves : GuardedMoves sys locking state label next events) {agent : Agent}
    (hother : locking.agent label ≠ agent) (mutex : Lock) :
    next.owner mutex = some agent ↔ state.owner mutex = some agent := by
  cases hmoves with
  | load htodo hscript => rfl
  | act rest base events htodo hstep => rfl
  | lock taken rest htodo hfree =>
      by_cases hmutex : mutex = taken
      · subst hmutex
        simp [hfree, hother]
      · simp [hmutex]
  | unlock given rest htodo =>
      by_cases hmutex : mutex = given
      · subst hmutex
        obtain ⟨held, hheld, hiff⟩ := howned (locking.agent label)
        simp only [htodo, heldAfter] at hheld
        split_ifs at hheld with hsome
        simp [(hiff mutex).2 hsome, hother]
      · simp [hmutex]

theorem Owned.moves (howned : Owned state)
    (hleaf : ∀ base agent, Leaf (locking.script base agent))
    (hmoves : GuardedMoves sys locking state label next events) : Owned next := by
  intro agent
  by_cases hagent : locking.agent label = agent
  · subst hagent
    obtain ⟨held, hheld, hiff⟩ := howned (locking.agent label)
    cases hmoves with
    | load htodo hscript =>
        refine ⟨none, by simpa [Leaf] using hleaf _ _, fun mutex => ?_⟩
        rw [htodo] at hheld
        cases hheld
        exact hiff mutex
    | lock mutex rest htodo hfree =>
        simp only [htodo, heldAfter] at hheld
        split_ifs at hheld with hnone
        refine ⟨some mutex, by simpa using hheld, fun other => ?_⟩
        by_cases hother : other = mutex
        · simp [hother]
        · simp [hother, Ne.symm hother, hiff, hnone]
    | unlock mutex rest htodo =>
        simp only [htodo, heldAfter] at hheld
        split_ifs at hheld with hsome
        refine ⟨none, by simpa using hheld, fun other => ?_⟩
        by_cases hother : other = mutex
        · simp [hother]
        · simp [hother, Ne.symm hother, hiff, hsome]
    | act rest base events htodo hstep =>
        rw [htodo] at hheld
        exact ⟨held, by simpa [heldAfter] using hheld, hiff⟩
  · obtain ⟨held, hheld, hiff⟩ := howned agent
    refine ⟨held, by rw [hmoves.todo_other hagent]; exact hheld, fun mutex => ?_⟩
    rw [howned.owner_other hmoves hagent, hiff]

/-- An agent that holds a mutex unlocks it or takes its step. -/
theorem unlocks_or_acts {mutex : Lock} {agent : Agent} (hagent : locking.agent label = agent)
    (hheld : heldAfter (some mutex) (state.todo agent) = some none)
    (hmoves : GuardedMoves sys locking state label next events) :
    next.owner mutex = none ∨
      state.todo agent = .act :: next.todo agent ∧ next.owner = state.owner := by
  subst hagent
  cases hmoves with
  | load htodo hscript => simp [htodo, heldAfter] at hheld
  | lock taken rest htodo hfree => simp [htodo, heldAfter] at hheld
  | unlock given rest htodo =>
      simp only [htodo, heldAfter] at hheld
      split_ifs at hheld with hmutex
      cases hmutex
      exact Or.inl (by simp)
  | act rest base events htodo hstep => exact Or.inr ⟨by simpa using htodo, rfl⟩

theorem Owned.run {first : State} {trace : List Event}
    (hleaf : ∀ base agent, Leaf (locking.script base agent))
    (hrun : Run (guarded sys locking) always (idle first) trace state) : Owned state := by
  refine hrun.invariant (fun _ state => Owned state) (owned_idle first) ?_
  intro trace state label next events _ howned _ hstep
  exact howned.moves hleaf (guardedMoves_of_step hstep)

end Owned

/-! ## One agent at a time -/

/-- One agent is in the middle of its script, and no other has started. -/
def busy (base : State) (agent : Agent) (held : Option Lock) (todo : List (Instr Lock)) :
    Guarded State Agent Lock where
  base := base
  owner := fun mutex => if held = some mutex then some agent else none
  todo := update (fun _ => []) agent todo

theorem busy_nil (base : State) (agent : Agent) :
    (busy base agent none [] : Guarded State Agent Lock) = idle base := by
  simp [busy, idle]

theorem busy_triesSelfLock (base : State) (agent : Agent) (mutex : Lock)
    (rest : List (Instr Lock)) :
    TriesSelfLock (busy base agent (some mutex) (.lock mutex :: rest)) agent :=
  ⟨mutex, rest, by simp [busy], by simp [busy]⟩

section Alone

variable {sys : System State Label Event} {locking : Locking State Label Agent Lock}
variable {base next : State} {label : Label} {events : List Event}
variable {held middle : Option Lock} {before after : List (Instr Lock)}

theorem busy_lock (mutex : Lock) (rest : List (Instr Lock)) :
    GuardedMoves sys locking (busy base (locking.agent label) none (.lock mutex :: rest)) label
      (busy base (locking.agent label) (some mutex) rest) [] := by
  have hnext : (busy base (locking.agent label) (some mutex) rest : Guarded State Agent Lock) =
      { busy base (locking.agent label) none (.lock mutex :: rest) with
        owner := update (fun _ => none) mutex (some (locking.agent label))
        todo := update (update (fun _ => []) (locking.agent label) (.lock mutex :: rest))
          (locking.agent label) rest } := by
    simp only [busy, update_idem, Guarded.mk.injEq, and_true, true_and]
    funext other
    by_cases hother : other = mutex
    · simp [hother]
    · simp [hother, Ne.symm hother]
  rw [hnext]
  exact .lock mutex rest (by simp [busy]) rfl

theorem busy_unlock (mutex : Lock) (rest : List (Instr Lock)) :
    GuardedMoves sys locking
      (busy base (locking.agent label) (some mutex) (.unlock mutex :: rest)) label
      (busy base (locking.agent label) none rest) [] := by
  have hnext : (busy base (locking.agent label) none rest : Guarded State Agent Lock) =
      { busy base (locking.agent label) (some mutex) (.unlock mutex :: rest) with
        owner := update (fun other => if some mutex = some other then
          some (locking.agent label) else none) mutex none
        todo := update (update (fun _ => []) (locking.agent label) (.unlock mutex :: rest))
          (locking.agent label) rest } := by
    simp only [busy, update_idem, Guarded.mk.injEq, and_true, true_and]
    funext other
    by_cases hother : other = mutex
    · simp [hother]
    · simp [hother, Ne.symm hother]
  rw [hnext]
  exact .unlock mutex rest (by simp [busy])

theorem busy_act (rest : List (Instr Lock))
    (hstep : sys.step base label = some (next, events)) :
    GuardedMoves sys locking (busy base (locking.agent label) held (.act :: rest)) label
      (busy next (locking.agent label) held rest) events := by
  have hnext : (busy next (locking.agent label) held rest : Guarded State Agent Lock) =
      { busy base (locking.agent label) held (.act :: rest) with
        base := next
        todo := update (update (fun _ => []) (locking.agent label) (.act :: rest))
          (locking.agent label) rest } := by
    simp [busy]
  rw [hnext]
  exact .act rest next events (by simp [busy]) hstep

/-- The agent starts its script. -/
theorem busy_load (hscript : locking.script base (locking.agent label) ≠ []) :
    GuardedMoves sys locking (idle base) label
      (busy base (locking.agent label) none (locking.script base (locking.agent label))) [] := by
  have hnext : (busy base (locking.agent label) none
      (locking.script base (locking.agent label)) : Guarded State Agent Lock) =
      { (idle base : Guarded State Agent Lock) with
        todo := update (fun _ => []) (locking.agent label)
          (locking.script base (locking.agent label)) } := by
    simp [busy, idle]
  rw [hnext]
  exact .load rfl hscript

/-- The agent gets past instructions that do not take its step. -/
theorem run_past (hheld : heldAfter held before = some middle) (hfree : .act ∉ before) :
    Run (guarded sys locking) always
      (busy base (locking.agent label) held (before ++ after)) []
      (busy base (locking.agent label) middle after) := by
  induction before generalizing held with
  | nil =>
      cases hheld
      exact .start
  | cons instr before ih =>
      have hfree' : Instr.act ∉ before := fun hmem => hfree (List.mem_cons_of_mem _ hmem)
      cases instr with
      | lock mutex =>
          simp only [heldAfter] at hheld
          split_ifs at hheld with hnone
          subst hnone
          exact Run.append (Run.single trivial (step_of_guardedMoves (busy_lock mutex _)))
            (ih hheld hfree')
      | unlock mutex =>
          simp only [heldAfter] at hheld
          split_ifs at hheld with hsome
          subst hsome
          exact Run.append (Run.single trivial (step_of_guardedMoves (busy_unlock mutex _)))
            (ih hheld hfree')
      | act => exact absurd (List.mem_cons_self ..) hfree

/-- The agent takes its step somewhere in a part of its script. -/
theorem run_through (label : Label) (hheld : heldAfter held before = some middle)
    (honce : before.count .act = 1) (hstep : sys.step base label = some (next, events)) :
    Run (guarded sys locking) always
      (busy base (locking.agent label) held (before ++ after)) events
      (busy next (locking.agent label) middle after) := by
  induction before generalizing held with
  | nil => simp at honce
  | cons instr before ih =>
      cases instr with
      | lock mutex =>
          simp only [heldAfter] at hheld
          split_ifs at hheld with hnone
          subst hnone
          exact Run.append (Run.single trivial (step_of_guardedMoves (busy_lock mutex _)))
            (ih hheld (by simpa using honce))
      | unlock mutex =>
          simp only [heldAfter] at hheld
          split_ifs at hheld with hsome
          subst hsome
          exact Run.append (Run.single trivial (step_of_guardedMoves (busy_unlock mutex _)))
            (ih hheld (by simpa using honce))
      | act =>
          have hfree : Instr.act ∉ before := by
            rw [← List.count_eq_zero]
            simpa using honce
          have hrest : heldAfter held before = some middle := hheld
          have hact : Run (guarded sys locking) always
              (busy base (locking.agent label) held (.act :: before ++ after)) events
              (busy next (locking.agent label) held (before ++ after)) :=
            Run.single trivial (step_of_guardedMoves (busy_act _ hstep))
          simpa using hact.append (run_past hrest hfree)

/-- A step of the system with its whole script around it. -/
theorem run_script (hleaf : Leaf (locking.script base (locking.agent label)))
    (honce : (locking.script base (locking.agent label)).count .act = 1)
    (hstep : sys.step base label = some (next, events)) :
    Run (guarded sys locking) always (idle base) events (idle next) := by
  have hne : locking.script base (locking.agent label) ≠ [] := by
    intro hnil
    simp [hnil] at honce
  have hload : Run (guarded sys locking) always (idle base) []
      (busy base (locking.agent label) none (locking.script base (locking.agent label))) :=
    Run.single trivial (step_of_guardedMoves (busy_load hne))
  have hthrough : Run (guarded sys locking) always
      (busy base (locking.agent label) none
        (locking.script base (locking.agent label) ++ [])) events
      (busy next (locking.agent label) none []) := run_through label hleaf honce hstep
  rw [List.append_nil, busy_nil] at hthrough
  exact hload.append hthrough

/-- A run of steps whose scripts hold one mutex at a time is a run with
mutexes. -/
theorem lift_run {allowed : State → Label → Prop} {first last : State} {trace : List Event}
    (hallowed : ∀ base label result, allowed base label → sys.step base label = some result →
      Leaf (locking.script base (locking.agent label)) ∧
        (locking.script base (locking.agent label)).count .act = 1)
    (hrun : Run sys allowed first trace last) :
    Run (guarded sys locking) always (idle first) trace (idle last) := by
  induction hrun with
  | start => exact .start
  | step _ hlabel hstep ih =>
      obtain ⟨hleaf, honce⟩ := hallowed _ _ _ hlabel hstep
      exact ih.append (run_script hleaf honce hstep)

end Alone

end ArcravenUgv.Mutex
