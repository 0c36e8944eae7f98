import ArcravenUgv.Lib.Mutex

/-!
# What an agent holds and what it leaves behind

Scripts that may lock a mutex they hold, and then hang.  A script that unlocks what it
locks leaves nothing held, and an agent whose last step stands at the end of its script has
nothing left to do.
-/

namespace ArcravenUgv.Mutex

open Function
open ArcravenUgv.Runs

variable {State Label Event Agent Lock : Type*} [DecidableEq Agent] [DecidableEq Lock]
variable {sys : System State Label Event} {locking : Locking State Label Agent Lock}
variable {first : State} {state next : Guarded State Agent Lock} {label : Label}
variable {events trace : List Event}

/-! ## What is held -/

/-- The mutexes an agent holds. -/
def holds (state : Guarded State Agent Lock) (agent : Agent) : Set Lock :=
  {mutex | state.owner mutex = some agent}

omit [DecidableEq Lock] in
/-- The mutexes are unlocked by whoever holds them, and in the end none is held.  Behind a
mutex that is locked twice nothing is asked. -/
def Unlocks (held : Set Lock) : List (Instr Lock) → Prop
  | [] => held = ∅
  | .lock mutex :: rest => mutex ∈ held ∨ Unlocks (insert mutex held) rest
  | .unlock mutex :: rest => mutex ∈ held ∧ Unlocks (held \ {mutex}) rest
  | .act :: rest => Unlocks held rest

omit [DecidableEq Lock] in
theorem Unlocks.append {held : Set Lock} {before after : List (Instr Lock)}
    (hbefore : Unlocks held before) (hafter : Unlocks ∅ after) :
    Unlocks held (before ++ after) := by
  induction before generalizing held with
  | nil =>
      obtain rfl : held = ∅ := hbefore
      exact hafter
  | cons instr before ih =>
      cases instr with
      | lock mutex => exact hbefore.imp_right ih
      | unlock mutex => exact ⟨hbefore.1, ih hbefore.2⟩
      | act => exact ih hbefore

/-- Every agent unlocks what it holds. -/
def Holding (state : Guarded State Agent Lock) : Prop :=
  ∀ agent, Unlocks (holds state agent) (state.todo agent)

theorem holds_lock {agent other : Agent} {mutex : Lock} {todo : Agent → List (Instr Lock)}
    (hfree : state.owner mutex = none) :
    holds { state with owner := update state.owner mutex (some agent), todo := todo } other =
      if other = agent then insert mutex (holds state agent) else holds state other := by
  ext taken
  by_cases htaken : taken = mutex
  · subst htaken
    by_cases hother : other = agent
    · simp [holds, hother, hfree]
    · simp [holds, hother, Ne.symm hother, hfree]
  · by_cases hother : other = agent <;> simp [holds, hother, htaken]

theorem holds_unlock {agent other : Agent} {mutex : Lock} {todo : Agent → List (Instr Lock)}
    (howner : state.owner mutex = some agent) :
    holds { state with owner := update state.owner mutex none, todo := todo } other =
      if other = agent then holds state agent \ {mutex} else holds state other := by
  ext taken
  by_cases htaken : taken = mutex
  · subst htaken
    by_cases hother : other = agent
    · simp [holds, hother, howner]
    · simp [holds, hother, Ne.symm hother, howner]
  · by_cases hother : other = agent <;> simp [holds, hother, htaken]

/-- What the others hold stays theirs. -/
theorem Holding.holds_other (hholding : Holding state)
    (hmoves : GuardedMoves sys locking state label next events) {agent : Agent}
    (hagent : locking.agent label ≠ agent) : holds next agent = holds state agent := by
  have hself := hholding (locking.agent label)
  cases hmoves with
  | load htodo hscript => rfl
  | act rest base events htodo hstep => rfl
  | lock mutex rest htodo hfree => rw [holds_lock hfree, if_neg hagent.symm]
  | unlock mutex rest htodo =>
      rw [htodo] at hself
      rw [holds_unlock hself.1, if_neg hagent.symm]

theorem Holding.moves (hholding : Holding state)
    (hscript : ∀ base agent, Unlocks ∅ (locking.script base agent))
    (hmoves : GuardedMoves sys locking state label next events) : Holding next := by
  intro agent
  by_cases hagent : locking.agent label = agent
  · subst hagent
    have hself := hholding (locking.agent label)
    cases hmoves with
    | load htodo hscripted =>
        rw [htodo] at hself
        have hnone : holds state (locking.agent label) = ∅ := hself
        change Unlocks (holds state _) (update state.todo _ _ _)
        rw [update_self, hnone]
        exact hscript _ _
    | act rest base events htodo hstep =>
        rw [htodo] at hself
        change Unlocks (holds state _) (update state.todo _ _ _)
        rw [update_self]
        exact hself
    | lock mutex rest htodo hfree =>
        rw [htodo] at hself
        have hnot : mutex ∉ holds state (locking.agent label) := by simp [holds, hfree]
        rw [holds_lock hfree, if_pos rfl]
        simp only [update_self]
        exact hself.resolve_left hnot
    | unlock mutex rest htodo =>
        rw [htodo] at hself
        rw [holds_unlock hself.1, if_pos rfl]
        simp only [update_self]
        exact hself.2
  · rw [hmoves.todo_other hagent, hholding.holds_other hmoves hagent]
    exact hholding agent

theorem Holding.run (hscript : ∀ base agent, Unlocks ∅ (locking.script base agent))
    (hrun : Run (guarded sys locking) always (idle first) trace state) : Holding state := by
  refine hrun.invariant (fun _ state => Holding state)
    (fun _ => by simp [idle, holds, Unlocks]) ?_
  intro trace state label next events _ hholding _ hstep
  exact hholding.moves hscript (guardedMoves_of_step hstep)

/-! ## What hangs -/

omit [DecidableEq Lock] in
/-- Before its next step or its end the script locks a mutex it holds. -/
def Hangs (held : Set Lock) : List (Instr Lock) → Prop
  | [] | .act :: _ => False
  | .lock mutex :: rest => mutex ∈ held ∨ Hangs (insert mutex held) rest
  | .unlock mutex :: rest => Hangs (held \ {mutex}) rest

/-- An agent that hangs does no step and goes on hanging. -/
theorem Hangs.moves {agent : Agent} (hangs : Hangs (holds state agent) (state.todo agent))
    (hholding : Holding state) (hmoves : GuardedMoves sys locking state label next events)
    (hagent : locking.agent label = agent) :
    events = [] ∧ next.base = state.base ∧ Hangs (holds next agent) (next.todo agent) := by
  subst hagent
  have hself := hholding (locking.agent label)
  cases hmoves with
  | load htodo hscripted =>
      rw [htodo] at hangs
      exact hangs.elim
  | act rest base events htodo hstep =>
      rw [htodo] at hangs
      exact hangs.elim
  | lock mutex rest htodo hfree =>
      rw [htodo] at hangs
      have hnot : mutex ∉ holds state (locking.agent label) := by simp [holds, hfree]
      rw [holds_lock hfree, if_pos rfl]
      refine ⟨rfl, rfl, ?_⟩
      simp only [update_self]
      exact hangs.resolve_left hnot
  | unlock mutex rest htodo =>
      rw [htodo] at hangs hself
      rw [holds_unlock hself.1, if_pos rfl]
      refine ⟨rfl, rfl, ?_⟩
      simp only [update_self]
      exact hangs

/-! ## What stands behind a step -/

omit [DecidableEq Lock] in
/-- This is what stands behind a step of the script. -/
def AfterStep (tail todo : List (Instr Lock)) : Prop :=
  ∀ before rest, todo = before ++ .act :: rest → rest = tail

omit [DecidableEq Lock] in
theorem afterStep_of_notMem {before tail : List (Instr Lock)} (hbefore : .act ∉ before)
    (htail : .act ∉ tail) : AfterStep tail (before ++ .act :: tail) := by
  intro earlier rest hsplit
  induction before generalizing earlier with
  | nil =>
      cases earlier with
      | nil => exact (List.cons.inj hsplit).2.symm
      | cons instr earlier =>
          refine absurd ?_ htail
          rw [(List.cons.inj hsplit).2]
          simp
  | cons instr before ih =>
      cases earlier with
      | nil => exact absurd (by rw [(List.cons.inj hsplit).1]; simp) hbefore
      | cons same earlier =>
          exact ih (fun hmem => hbefore (List.mem_cons_of_mem _ hmem)) earlier
            (List.cons.inj hsplit).2

/-- Scripts with at most one step.  Where `tail` gives what stands behind it, no other
agent has a say in that. -/
structure Tailed (sys : System State Label Event) (locking : Locking State Label Agent Lock)
    (inv : State → Prop) (tail : State → Agent → Option (List (Instr Lock))) : Prop where
  once : ∀ base agent, (locking.script base agent).count .act ≤ 1
  script : ∀ base agent rest, tail base agent = some rest →
    AfterStep rest (locking.script base agent)
  keep : ∀ base label next events, inv base → sys.step base label = some (next, events) → inv next
  other : ∀ base label next events agent rest, locking.agent label ≠ agent →
    sys.step base label = some (next, events) → tail next agent = some rest →
      tail base agent = some rest

/-- Where the agents are in their scripts. -/
structure Winding (inv : State → Prop) (tail : State → Agent → Option (List (Instr Lock)))
    (state : Guarded State Agent Lock) : Prop where
  base : inv state.base
  once : ∀ agent, (state.todo agent).count .act ≤ 1
  after : ∀ agent rest, tail state.base agent = some rest → AfterStep rest (state.todo agent)

variable {inv : State → Prop} {tail : State → Agent → Option (List (Instr Lock))}

theorem base_of_guardedMoves (hmoves : GuardedMoves sys locking state label next events) :
    next.base = state.base ∨ sys.step state.base label = some (next.base, events) := by
  cases hmoves with
  | act rest base events htodo hstep => exact .inr hstep
  | _ => exact .inl rfl

/-- The agent that moves. -/
theorem Winding.self (hwinding : Winding inv tail state) (htailed : Tailed sys locking inv tail)
    (hmoves : GuardedMoves sys locking state label next events) :
    (next.todo (locking.agent label)).count .act ≤ 1 ∧
      ∀ rest, tail next.base (locking.agent label) = some rest →
        AfterStep rest (next.todo (locking.agent label)) := by
  have honce := hwinding.once (locking.agent label)
  have hafter := hwinding.after (locking.agent label)
  rcases hmoves.todo_self with
    ⟨-, hbase, htodo⟩ | ⟨instr, hinstr, hbase, htodo⟩ | ⟨htodo, hstep⟩
  · rw [hbase, htodo]
    exact ⟨htailed.once _ _, htailed.script _ _⟩
  · rw [hbase]
    rw [htodo] at honce hafter
    refine ⟨(List.count_le_count_cons ..).trans honce, fun tail htail before rest hsplit => ?_⟩
    exact hafter tail htail (instr :: before) rest (by rw [hsplit, List.cons_append])
  · rw [htodo, List.count_cons_self] at honce
    have hfree : .act ∉ next.todo (locking.agent label) := List.count_eq_zero.1 (by omega)
    refine ⟨by omega, fun _ _ before rest hsplit => ?_⟩
    exact absurd (by rw [hsplit]; simp) hfree

theorem Winding.moves (hwinding : Winding inv tail state)
    (htailed : Tailed sys locking inv tail)
    (hmoves : GuardedMoves sys locking state label next events) : Winding inv tail next := by
  obtain ⟨honce, hafter⟩ := hwinding.self htailed hmoves
  have hbase := base_of_guardedMoves hmoves
  refine ⟨?_, fun agent => ?_, fun agent rest htail => ?_⟩
  · rcases hbase with hsame | hstep
    · rw [hsame]
      exact hwinding.base
    · exact htailed.keep _ _ _ _ hwinding.base hstep
  all_goals by_cases hagent : locking.agent label = agent
  · exact hagent ▸ honce
  · rw [hmoves.todo_other hagent]
    exact hwinding.once agent
  · subst hagent
    exact hafter rest htail
  · rw [hmoves.todo_other hagent]
    refine hwinding.after agent rest ?_
    rcases hbase with hsame | hstep
    · rwa [← hsame]
    · exact htailed.other _ _ _ _ agent rest hagent hstep htail

theorem Winding.run (htailed : Tailed sys locking inv tail) (hfirst : inv first)
    (hrun : Run (guarded sys locking) always (idle first) trace state) :
    Winding inv tail state := by
  refine hrun.invariant (fun _ state => Winding inv tail state)
    ⟨hfirst, by simp [idle], fun _ _ _ before rest hsplit => by simp [idle] at hsplit⟩ ?_
  intro trace state label next events _ hwinding _ hstep
  exact hwinding.moves htailed (guardedMoves_of_step hstep)

/-- Once returned, an agent starts nothing; it returns with a step that is the last of its
script, and by itself. -/
structure Returning (sys : System State Label Event) (locking : Locking State Label Agent Lock)
    (inv : State → Prop) (tail : State → Agent → Option (List (Instr Lock)))
    (returned : State → Agent → Prop) : Prop where
  still : ∀ base agent, returned base agent → locking.script base agent = []
  own : ∀ base label next events, inv base → sys.step base label = some (next, events) →
    returned next (locking.agent label) → tail base (locking.agent label) = some []
  other : ∀ base label next events agent, inv base → locking.agent label ≠ agent →
    sys.step base label = some (next, events) → returned next agent → returned base agent

/-- An agent that has returned has nothing left to do. -/
theorem todo_of_returned {returned : State → Agent → Prop}
    (htailed : Tailed sys locking inv tail)
    (hreturning : Returning sys locking inv tail returned) (hfirst : inv first)
    (hrun : Run (guarded sys locking) always (idle first) trace state) {agent : Agent}
    (hreturned : returned state.base agent) : state.todo agent = [] := by
  refine hrun.invariant (fun _ state => ∀ agent, returned state.base agent →
    state.todo agent = []) (fun _ _ => rfl) ?_ agent hreturned
  intro trace state label next events hrun hgone _ hstep agent hreturned
  have hmoves := guardedMoves_of_step hstep
  have hwinding := Winding.run htailed hfirst hrun
  by_cases hagent : locking.agent label = agent
  · subst hagent
    rcases hmoves.todo_self with
      ⟨-, hbase, htodo⟩ | ⟨instr, -, hbase, htodo⟩ | ⟨htodo, hstep⟩
    · rw [htodo]
      exact hreturning.still _ _ (hbase ▸ hreturned)
    · have hnil := hgone _ (hbase ▸ hreturned)
      rw [htodo] at hnil
      cases hnil
    · exact hwinding.after _ [] (hreturning.own _ _ _ _ hwinding.base hstep hreturned) []
        _ htodo
  · rw [hmoves.todo_other hagent]
    refine hgone agent ?_
    rcases base_of_guardedMoves hmoves with hsame | hstep
    · rwa [← hsame]
    · exact hreturning.other _ _ _ _ agent hwinding.base hagent hstep hreturned

end ArcravenUgv.Mutex
