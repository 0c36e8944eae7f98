import Mathlib.Tactic

/-!
# Labelled systems and their finite runs

A concurrent program is a state, a set of labels saying which party moves and
with which outcome, and a partial step function.  Every step leaves a list of
observable events, so a run carries the trace of what has happened.  A run may
be restricted to steps that satisfy a condition on the state before them.
-/

namespace ArcravenUgv.Runs

variable {State Label Event : Type*}

/-- A system is its partial step function: `none` where the label cannot move
now. -/
structure System (State Label Event : Type*) where
  step : State → Label → Option (State × List Event)

/-- Finite runs from `first` whose steps all satisfy `allowed`, with the events
they left. -/
inductive Run (sys : System State Label Event) (allowed : State → Label → Prop)
    (first : State) : List Event → State → Prop
  | start : Run sys allowed first [] first
  | step {trace events : List Event} {state next : State} {label : Label}
      (hrun : Run sys allowed first trace state)
      (hallowed : allowed state label)
      (hstep : sys.step state label = some (next, events)) :
      Run sys allowed first (trace ++ events) next

/-- Every step is allowed: the runs of the program as it stands. -/
def always (_ : State) (_ : Label) : Prop := True

variable {sys : System State Label Event} {allowed : State → Label → Prop}
variable {first : State}

/-- What holds at the start and is kept by every allowed step from a reached
state holds in every state reached. -/
theorem Run.invariant {trace : List Event} {state : State}
    (hrun : Run sys allowed first trace state) (inv : List Event → State → Prop)
    (hstart : inv [] first)
    (hkeep : ∀ trace state label next events,
      Run sys allowed first trace state → inv trace state →
        allowed state label → sys.step state label = some (next, events) →
          inv (trace ++ events) next) : inv trace state := by
  induction hrun with
  | start => exact hstart
  | step hrun hallowed hstep ih =>
      exact hkeep _ _ _ _ _ hrun ih hallowed hstep

/-- Weakening the condition on steps keeps a run. -/
theorem Run.mono {wider : State → Label → Prop}
    (hwider : ∀ state label, allowed state label → wider state label)
    {trace : List Event} {state : State}
    (hrun : Run sys allowed first trace state) :
    Run sys wider first trace state := by
  induction hrun with
  | start => exact .start
  | step _ hallowed hstep ih => exact .step ih (hwider _ _ hallowed) hstep

theorem Run.unrestricted {trace : List Event} {state : State}
    (hrun : Run sys allowed first trace state) :
    Run sys always first trace state :=
  hrun.mono fun _ _ _ => trivial

theorem Run.append {middle last : State} {before later : List Event}
    (hbefore : Run sys allowed first before middle)
    (hlater : Run sys allowed middle later last) :
    Run sys allowed first (before ++ later) last := by
  induction hlater with
  | start => simpa using hbefore
  | step _ hallowed hstep ih =>
      rw [← List.append_assoc]
      exact .step ih hallowed hstep

theorem Run.single {state next : State} {label : Label} {events : List Event}
    (hallowed : allowed state label)
    (hstep : sys.step state label = some (next, events)) :
    Run sys allowed state events next := by
  simpa using Run.step Run.start hallowed hstep

/-- Execute a schedule, stopping with `none` at the first label that cannot
move or is not allowed. -/
def execute (sys : System State Label Event) (allowed : State → Label → Prop)
    [∀ state label, Decidable (allowed state label)] :
    State → List Label → Option (State × List Event)
  | state, [] => some (state, [])
  | state, label :: labels =>
      if allowed state label then
        match sys.step state label with
        | none => none
        | some (next, events) =>
            match execute sys allowed next labels with
            | none => none
            | some (last, later) => some (last, events ++ later)
      else none

/-- An executed schedule is a run. -/
theorem run_of_execute [∀ state label, Decidable (allowed state label)]
    {labels : List Label} {last : State} {trace : List Event}
    (hexecute : execute sys allowed first labels = some (last, trace)) :
    Run sys allowed first trace last := by
  induction labels generalizing first trace with
  | nil =>
      simp only [execute, Option.some.injEq, Prod.mk.injEq] at hexecute
      obtain ⟨rfl, rfl⟩ := hexecute
      exact .start
  | cons label labels ih =>
      simp only [execute] at hexecute
      split at hexecute
      · rename_i hallowed
        split at hexecute
        · cases hexecute
        · rename_i next events hstep
          split at hexecute
          · cases hexecute
          · rename_i reached later hlater
            simp only [Option.some.injEq, Prod.mk.injEq] at hexecute
            obtain ⟨rfl, rfl⟩ := hexecute
            exact (Run.single hallowed hstep).append (ih hlater)
      · cases hexecute

instance (state : State) (label : Label) :
    Decidable (always state label) :=
  inferInstanceAs (Decidable True)

/-- What an executed schedule shows of its last state belongs to a run. -/
theorem exists_run_of_execute {View : Type*} (sys : System State Label Event)
    (allowed : State → Label → Prop) [∀ state label, Decidable (allowed state label)]
    (first : State) (labels : List Label) (view : State → View) {trace : List Event}
    {shown : View}
    (hexecute : (execute sys allowed first labels).map
      (fun result => (result.2, view result.1)) = some (trace, shown)) :
    ∃ last, Run sys allowed first trace last ∧ view last = shown := by
  obtain ⟨⟨last, events⟩, hresult, heq⟩ := Option.map_eq_some_iff.1 hexecute
  obtain ⟨rfl, rfl⟩ := Prod.mk.inj heq
  exact ⟨last, run_of_execute hresult, rfl⟩

/-- An executed schedule with this trace is a run with this trace. -/
theorem exists_run_of_trace (sys : System State Label Event)
    (allowed : State → Label → Prop) [∀ state label, Decidable (allowed state label)]
    (first : State) (labels : List Label) {trace : List Event}
    (hexecute : (execute sys allowed first labels).map Prod.snd = some trace) :
    ∃ last, Run sys allowed first trace last := by
  obtain ⟨⟨last, events⟩, hresult, rfl⟩ := Option.map_eq_some_iff.1 hexecute
  exact ⟨last, run_of_execute hresult⟩

/-! ## What a trace never shows again -/

/-- No `bad` event follows a `mark`. -/
def NoneAfter (mark bad : Event → Prop) (trace : List Event) : Prop :=
  trace.Pairwise fun earlier later => mark earlier → ¬ bad later

section NoneAfter

variable {mark bad : Event → Prop} {trace events : List Event}

@[simp]
theorem noneAfter_nil : NoneAfter mark bad [] := List.Pairwise.nil

/-- Events that are not bad may be added at any time. -/
theorem NoneAfter.append_quiet (htrace : NoneAfter mark bad trace)
    (hquiet : ∀ event ∈ events, ¬ bad event) : NoneAfter mark bad (trace ++ events) :=
  List.pairwise_append.2 ⟨htrace,
    List.pairwise_of_forall_mem_list fun _ _ later hlater _ => hquiet later hlater,
    fun _ _ later hlater _ => hquiet later hlater⟩

/-- Before the first mark anything may be added. -/
theorem NoneAfter.append_unmarked (hmark : ∀ event ∈ trace, ¬ mark event)
    (hevents : NoneAfter mark bad events) : NoneAfter mark bad (trace ++ events) :=
  List.pairwise_append.2 ⟨
    List.pairwise_of_forall_mem_list fun earlier hearlier _ _ h =>
      absurd h (hmark earlier hearlier),
    hevents, fun earlier hearlier _ _ h => absurd h (hmark earlier hearlier)⟩

theorem NoneAfter.not_bad (htrace : NoneAfter mark bad trace) {before after : List Event}
    {earlier later : Event} (hsplit : trace = before ++ earlier :: after)
    (hmark : mark earlier) (hlater : later ∈ after) : ¬ bad later := by
  subst hsplit
  have hafter := (List.pairwise_append.1 htrace).2.1
  exact (List.pairwise_cons.1 hafter).1 later hlater hmark

end NoneAfter

/-! ## What a trace owes -/

/-- Every `mark` event is followed by an `answer`. -/
def Answered (mark answer : Event → Prop) : List Event → Prop
  | [] => True
  | event :: later =>
      (mark event → ∃ reply ∈ later, answer reply) ∧ Answered mark answer later

section Answered

variable {mark answer : Event → Prop} {trace events : List Event}

theorem answered_of_unmarked (hmark : ∀ event ∈ trace, ¬ mark event) :
    Answered mark answer trace := by
  induction trace with
  | nil => trivial
  | cons event later ih =>
      exact ⟨fun h => absurd h (hmark event (by simp)),
        ih fun other hother => hmark other (List.mem_cons_of_mem _ hother)⟩

theorem Answered.exists_answer {before after : List Event} {event : Event}
    (hanswered : Answered mark answer (before ++ event :: after)) (hmark : mark event) :
    ∃ reply ∈ after, answer reply := by
  induction before with
  | nil => exact hanswered.1 hmark
  | cons head before ih => exact ih hanswered.2

/-- Adding events that ask for nothing keeps every answer. -/
theorem Answered.append_quiet (htrace : Answered mark answer trace)
    (hquiet : ∀ event ∈ events, ¬ mark event) : Answered mark answer (trace ++ events) := by
  induction trace with
  | nil => exact answered_of_unmarked hquiet
  | cons event later ih =>
      refine ⟨fun hmark => ?_, ih htrace.2⟩
      obtain ⟨reply, hreply, hanswer⟩ := htrace.1 hmark
      exact ⟨reply, List.mem_append_left _ hreply, hanswer⟩

/-- One answer at the end serves everything before it. -/
theorem answered_append_answer {reply : Event} (hanswer : answer reply) (hmark : ¬ mark reply)
    (trace : List Event) : Answered mark answer (trace ++ [reply]) := by
  induction trace with
  | nil => exact ⟨fun h => absurd h hmark, trivial⟩
  | cons event later ih => exact ⟨fun _ => ⟨reply, by simp, hanswer⟩, ih⟩

/-- A mark that no answer follows is not answered. -/
theorem not_answered_of_noneAfter {event : Event} (hmark : mark event) (hmem : event ∈ trace)
    (hnone : NoneAfter mark answer trace) : ¬ Answered mark answer trace := by
  induction trace with
  | nil => cases hmem
  | cons head later ih =>
      obtain ⟨hhead, hlater⟩ := List.pairwise_cons.1 hnone
      rintro ⟨hreply, hanswered⟩
      rcases List.mem_cons.1 hmem with rfl | hmem
      · obtain ⟨reply, hreply, hanswer⟩ := hreply hmark
        exact hhead reply hreply hmark hanswer
      · exact ih hmem hlater hanswered

end Answered

end ArcravenUgv.Runs
