import ArcravenUgv.Lib.Runs

/-!
# Critical sections under one mutex

Any number of agents call scripts that lock a mutex, write, and unlock it.  What
all of them have written is then one critical section after another, in the order
in which the mutex was taken.  A script may also lock the mutex a second time
before it unlocks it; it never returns, and nobody writes after it.
-/

namespace ArcravenUgv.Sections

open Function
open ArcravenUgv.Runs

inductive Instr (Write : Type*)
  | lock
  | unlock
  | write (write : Write)
  deriving DecidableEq, Repr

inductive Label (Agent Call : Type*)
  | begin (agent : Agent) (call : Call)
  | move (agent : Agent)

inductive Event (Agent Call Write : Type*)
  | began (agent : Agent) (call : Call)
  | entered (agent : Agent) (call : Call)
  | wrote (write : Write)
  deriving DecidableEq

/-- The owner of the mutex, and every agent's last call with what is left of its
script. -/
structure State (Agent Call Write : Type*) where
  owner : Option Agent
  call : Agent → Call
  todo : Agent → List (Instr Write)

variable {Agent Call Write : Type*}

/-- Nobody has called anything. -/
def idle (call : Call) : State Agent Call Write where
  owner := none
  call := fun _ => call
  todo := fun _ => []

def step [DecidableEq Agent] (script : Call → List (Instr Write))
    (state : State Agent Call Write) :
    Label Agent Call → Option (State Agent Call Write × List (Event Agent Call Write))
  | .begin agent call =>
      if state.todo agent = [] then
        some ({ state with
          call := update state.call agent call
          todo := update state.todo agent (script call) }, [.began agent call])
      else none
  | .move agent =>
      match state.todo agent with
      | [] => none
      | .lock :: rest =>
          if state.owner = none then
            some ({ state with owner := some agent, todo := update state.todo agent rest },
              [.entered agent (state.call agent)])
          else none
      | .unlock :: rest =>
          some ({ state with owner := none, todo := update state.todo agent rest }, [])
      | .write write :: rest =>
          some ({ state with todo := update state.todo agent rest }, [.wrote write])

def system [DecidableEq Agent] (script : Call → List (Instr Write)) :
    System (State Agent Call Write) (Label Agent Call) (Event Agent Call Write) where
  step := step script

/-! ## What a trace shows -/

def Event.entry? : Event Agent Call Write → Option (Agent × Call)
  | .entered agent call => some (agent, call)
  | _ => none

def Event.start? : Event Agent Call Write → Option (Agent × Call)
  | .began agent call => some (agent, call)
  | _ => none

def Event.write? : Event Agent Call Write → Option Write
  | .wrote write => some write
  | _ => none

/-- The calls in the order in which they got the mutex. -/
def entries (trace : List (Event Agent Call Write)) : List (Agent × Call) :=
  trace.filterMap Event.entry?

/-- The calls in the order in which they were made. -/
def starts (trace : List (Event Agent Call Write)) : List (Agent × Call) :=
  trace.filterMap Event.start?

def writes (trace : List (Event Agent Call Write)) : List Write :=
  trace.filterMap Event.write?

@[simp]
theorem writes_nil : writes ([] : List (Event Agent Call Write)) = [] := rfl

@[simp]
theorem entries_append (before after : List (Event Agent Call Write)) :
    entries (before ++ after) = entries before ++ entries after := List.filterMap_append

@[simp]
theorem starts_append (before after : List (Event Agent Call Write)) :
    starts (before ++ after) = starts before ++ starts after := List.filterMap_append

@[simp]
theorem writes_append (before after : List (Event Agent Call Write)) :
    writes (before ++ after) = writes before ++ writes after := List.filterMap_append

@[simp]
theorem entries_singleton (event : Event Agent Call Write) :
    entries [event] = event.entry?.toList := by cases event <;> rfl

@[simp]
theorem starts_singleton (event : Event Agent Call Write) :
    starts [event] = event.start?.toList := by cases event <;> rfl

@[simp]
theorem writes_singleton (event : Event Agent Call Write) :
    writes [event] = event.write?.toList := by cases event <;> rfl

/-- The calls of one agent. -/
def callsOf [DecidableEq Agent] (agent : Agent) (calls : List (Agent × Call)) : List Call :=
  (calls.filter (·.1 = agent)).map Prod.snd

/-! ## Scripts with one critical section -/

/-- Every call locks the mutex, writes its body, and unlocks the mutex, or locks it
again. -/
structure Sectioned (script : Call → List (Instr Write)) (body : Call → List Write)
    (relocks : Call → Prop) : Prop where
  plain : ∀ call, ¬ relocks call →
    script call = .lock :: ((body call).map .write ++ [.unlock])
  nested : ∀ call, relocks call →
    ∃ rest, script call = .lock :: ((body call).map .write ++ .lock :: rest)

/-- What a step does. -/
inductive Moves [DecidableEq Agent] (script : Call → List (Instr Write))
    (state : State Agent Call Write) :
    State Agent Call Write → List (Event Agent Call Write) → Prop
  | begin (agent : Agent) (call : Call) (htodo : state.todo agent = []) :
      Moves script state { state with
        call := update state.call agent call
        todo := update state.todo agent (script call) } [.began agent call]
  | lock (agent : Agent) (rest : List (Instr Write)) (htodo : state.todo agent = .lock :: rest)
      (hfree : state.owner = none) :
      Moves script state { state with
        owner := some agent
        todo := update state.todo agent rest } [.entered agent (state.call agent)]
  | unlock (agent : Agent) (rest : List (Instr Write))
      (htodo : state.todo agent = .unlock :: rest) :
      Moves script state { state with
        owner := none
        todo := update state.todo agent rest } []
  | write (agent : Agent) (write : Write) (rest : List (Instr Write))
      (htodo : state.todo agent = .write write :: rest) :
      Moves script state { state with todo := update state.todo agent rest } [.wrote write]

section Runs

variable [DecidableEq Agent]
variable {script : Call → List (Instr Write)} {body : Call → List Write}
variable {relocks : Call → Prop}
variable {state next : State Agent Call Write} {label : Label Agent Call}
variable {trace events : List (Event Agent Call Write)}

theorem moves_of_step (hstep : step script state label = some (next, events)) :
    Moves script state next events := by
  cases label with
  | begin agent call =>
      simp only [step] at hstep
      split_ifs at hstep with htodo
      cases hstep
      exact .begin agent call htodo
  | move agent =>
      simp only [step] at hstep
      split at hstep
      · cases hstep
      · split_ifs at hstep with hfree
        cases hstep
        exact .lock agent _ ‹_› hfree
      · cases hstep
        exact .unlock agent _ ‹_›
      · cases hstep
        exact .write agent _ _ ‹_›

/-- Where the agents are: the owner of the mutex has written a part of its body,
and everyone else stands before the mutex or has returned. -/
inductive Serial (script : Call → List (Instr Write)) (body : Call → List Write)
    (relocks : Call → Prop) (trace : List (Event Agent Call Write))
    (state : State Agent Call Write) : Prop
  | free (howner : state.owner = none)
      (houtside : ∀ agent, state.todo agent = [] ∨ state.todo agent = script (state.call agent))
      (hwrites : writes trace = (entries trace).flatMap fun entry => body entry.2)
      (hplain : ∀ entry ∈ entries trace, ¬ relocks entry.2)
  | held (agent : Agent) (earlier : List (Agent × Call)) (done left : List Write)
      (rest : List (Instr Write))
      (howner : state.owner = some agent)
      (houtside : ∀ other, other ≠ agent →
        state.todo other = [] ∨ state.todo other = script (state.call other))
      (hentries : entries trace = earlier ++ [(agent, state.call agent)])
      (hplain : ∀ entry ∈ earlier, ¬ relocks entry.2)
      (hwrites : writes trace = (earlier.flatMap fun entry => body entry.2) ++ done)
      (hbody : body (state.call agent) = done ++ left)
      (htodo : state.todo agent = left.map .write ++ rest)
      (hrest : ¬ relocks (state.call agent) ∧ rest = [.unlock] ∨
        relocks (state.call agent) ∧ ∃ after, rest = .lock :: after)

/-- Outside the mutex, an agent that has just begun stands before it. -/
theorem outside_begin {agent other : Agent} {call : Call}
    (houtside : state.todo other = [] ∨ state.todo other = script (state.call other)) :
    update state.todo agent (script call) other = [] ∨
      update state.todo agent (script call) other =
        script (update state.call agent call other) := by
  by_cases hsame : other = agent
  · subst hsame
    simp
  · rwa [update_of_ne hsame, update_of_ne hsame]

theorem Sectioned.script_ne_nil (hsectioned : Sectioned script body relocks) (call : Call) :
    script call ≠ [] := by
  by_cases hrelocks : relocks call
  · obtain ⟨rest, hscript⟩ := hsectioned.nested call hrelocks
    simp [hscript]
  · simp [hsectioned.plain call hrelocks]

omit [DecidableEq Agent] in
/-- Whoever is outside the mutex and moves takes the mutex. -/
theorem Sectioned.outside (hsectioned : Sectioned script body relocks) {agent : Agent}
    {instr : Instr Write} {rest : List (Instr Write)}
    (houtside : state.todo agent = [] ∨ state.todo agent = script (state.call agent))
    (htodo : state.todo agent = instr :: rest) :
    instr = .lock ∧ ∃ after, rest = (body (state.call agent)).map .write ++ after ∧
      (¬ relocks (state.call agent) ∧ after = [.unlock] ∨
        relocks (state.call agent) ∧ ∃ later, after = .lock :: later) := by
  rcases houtside with hnil | hscript
  · rw [htodo] at hnil
    cases hnil
  rw [htodo] at hscript
  by_cases hrelocks : relocks (state.call agent)
  · obtain ⟨later, hnested⟩ := hsectioned.nested _ hrelocks
    obtain ⟨hlock, hrest⟩ := List.cons.inj (hscript.trans hnested)
    exact ⟨hlock, _, hrest, .inr ⟨hrelocks, later, rfl⟩⟩
  · obtain ⟨hlock, hrest⟩ := List.cons.inj (hscript.trans (hsectioned.plain _ hrelocks))
    exact ⟨hlock, _, hrest, .inl ⟨hrelocks, rfl⟩⟩

/-- A step while the mutex is free: a call begins, or one gets the mutex. -/
theorem Serial.moves_free (hsectioned : Sectioned script body relocks)
    (howner : state.owner = none)
    (houtside : ∀ agent, state.todo agent = [] ∨ state.todo agent = script (state.call agent))
    (hwrites : writes trace = (entries trace).flatMap fun entry => body entry.2)
    (hplain : ∀ entry ∈ entries trace, ¬ relocks entry.2)
    (hmoves : Moves script state next events) :
    Serial script body relocks (trace ++ events) next := by
  cases hmoves with
  | begin agent call htodo =>
      refine .free howner (fun other => outside_begin (houtside other)) ?_ ?_
      · simpa [Event.entry?, Event.write?] using hwrites
      · simpa [Event.entry?] using hplain
  | lock agent rest htodo hfree =>
      obtain ⟨-, after, rfl, hafter⟩ := hsectioned.outside (houtside agent) htodo
      refine .held agent (entries trace) [] (body (state.call agent)) after rfl ?_ ?_ hplain ?_
        rfl (update_self ..) hafter
      · intro other hother
        simp only [update_of_ne hother]
        exact houtside other
      · simp [Event.entry?]
      · simpa [Event.write?] using hwrites
  | unlock agent rest htodo =>
      have hlock := (hsectioned.outside (houtside agent) htodo).1
      cases hlock
  | write agent write rest htodo =>
      have hlock := (hsectioned.outside (houtside agent) htodo).1
      cases hlock

/-- A step while the mutex is held: a call begins, or its owner writes or unlocks
it. -/
theorem Serial.moves_held (hsectioned : Sectioned script body relocks) {agent : Agent}
    {earlier : List (Agent × Call)} {done left : List Write} {rest : List (Instr Write)}
    (howner : state.owner = some agent)
    (houtside : ∀ other, other ≠ agent →
      state.todo other = [] ∨ state.todo other = script (state.call other))
    (hentries : entries trace = earlier ++ [(agent, state.call agent)])
    (hplain : ∀ entry ∈ earlier, ¬ relocks entry.2)
    (hwrites : writes trace = (earlier.flatMap fun entry => body entry.2) ++ done)
    (hbody : body (state.call agent) = done ++ left)
    (htodo : state.todo agent = left.map .write ++ rest)
    (hrest : ¬ relocks (state.call agent) ∧ rest = [.unlock] ∨
      relocks (state.call agent) ∧ ∃ after, rest = .lock :: after)
    (hmoves : Moves script state next events) :
    Serial script body relocks (trace ++ events) next := by
  have hbusy : state.todo agent ≠ [] := by
    rcases hrest with ⟨-, rfl⟩ | ⟨-, after, rfl⟩ <;> simp [htodo]
  -- only the owner has a write or an unlock before it
  have hmover : ∀ {mover instr after}, state.todo mover = instr :: after → instr ≠ .lock →
      mover = agent := by
    intro mover instr after hnext hlock
    by_contra hother
    exact hlock (hsectioned.outside (houtside mover hother) hnext).1
  cases hmoves with
  | begin mover call hidle =>
      have hother : agent ≠ mover := by
        rintro rfl
        exact hbusy hidle
      refine .held agent earlier done left rest howner
        (fun other hne => outside_begin (houtside other hne)) ?_ hplain ?_ ?_ ?_ ?_
      · simpa [Event.entry?, update_of_ne hother] using hentries
      · simpa [Event.write?] using hwrites
      · simpa [update_of_ne hother] using hbody
      · simpa [update_of_ne hother] using htodo
      · simpa [update_of_ne hother] using hrest
  | lock mover after hnext hfree =>
      rw [howner] at hfree
      cases hfree
  | unlock mover after hnext =>
      obtain rfl := hmover hnext (by simp)
      cases left with
      | cons write left =>
          rw [htodo] at hnext
          simp at hnext
      | nil =>
          rw [htodo] at hnext
          rcases hrest with ⟨hnot, rfl⟩ | ⟨-, later, rfl⟩
          · obtain rfl : after = [] := by simpa using hnext.symm
            refine .free rfl ?_ ?_ ?_
            · intro other
              by_cases hother : other = mover
              · exact .inl (by rw [hother]; exact update_self ..)
              · simp only [update_of_ne hother]
                exact houtside other hother
            · simpa [hentries, hbody] using hwrites
            · intro entry hentry
              rw [List.append_nil, hentries] at hentry
              rcases List.mem_append.1 hentry with hentry | hentry
              · exact hplain entry hentry
              · rw [List.mem_singleton.1 hentry]
                exact hnot
          · simp at hnext
  | write mover write after hnext =>
      obtain rfl := hmover hnext (by simp)
      cases left with
      | nil =>
          rw [htodo] at hnext
          rcases hrest with ⟨-, rfl⟩ | ⟨-, later, rfl⟩ <;> simp at hnext
      | cons first left =>
          rw [htodo] at hnext
          obtain ⟨hsame, rfl⟩ := List.cons.inj hnext
          cases hsame
          refine .held mover earlier (done ++ [write]) left rest howner ?_ ?_ hplain ?_ ?_
            (update_self ..) hrest
          · intro other hother
            simp only [update_of_ne hother]
            exact houtside other hother
          · simpa [Event.entry?] using hentries
          · rw [writes_append, hwrites, List.append_assoc]
            rfl
          · simpa using hbody

theorem Serial.moves (hsectioned : Sectioned script body relocks)
    (hserial : Serial script body relocks trace state) (hmoves : Moves script state next events) :
    Serial script body relocks (trace ++ events) next := by
  cases hserial with
  | free howner houtside hwrites hplain =>
      exact .moves_free hsectioned howner houtside hwrites hplain hmoves
  | held agent earlier done left rest howner houtside hentries hplain hwrites hbody htodo hrest =>
      exact .moves_held hsectioned howner houtside hentries hplain hwrites hbody htodo hrest hmoves

omit [DecidableEq Agent] in
theorem serial_idle (call : Call) :
    Serial script body relocks [] (idle call : State Agent Call Write) :=
  .free rfl (fun _ => .inl rfl) rfl (fun _ h => by cases h)

theorem Serial.run (hsectioned : Sectioned script body relocks) {call : Call}
    (hrun : Run (system script) always (idle call) trace state) :
    Serial script body relocks trace state := by
  refine hrun.invariant (Serial script body relocks) (serial_idle call) ?_
  intro trace state label next events _ hserial _ hstep
  exact hserial.moves hsectioned (moves_of_step hstep)

end Runs

/-! ## What the mutex gives -/

/-- What is left of a body. -/
def bodyLeft : List (Instr Write) → List Write
  | .write write :: rest => write :: bodyLeft rest
  | _ => []

theorem bodyLeft_append (left : List Write) {rest : List (Instr Write)}
    (hrest : bodyLeft rest = []) : bodyLeft (left.map .write ++ rest) = left := by
  induction left with
  | nil => exact hrest
  | cons write left ih => exact congrArg (write :: ·) ih

/-- What the owner of the mutex has still to write. -/
def unwritten (state : State Agent Call Write) : List Write :=
  match state.owner with
  | none => []
  | some agent => bodyLeft (state.todo agent)

section Serial

variable [DecidableEq Agent]
variable {script : Call → List (Instr Write)} {body : Call → List Write}
variable {relocks : Call → Prop}
variable {state next : State Agent Call Write} {label : Label Agent Call}
variable {trace events : List (Event Agent Call Write)}

omit [DecidableEq Agent] in
/-- What has been written is one section after another, in the order of entry, but for
what the owner has still to write. -/
theorem Serial.flatMap_body (hserial : Serial script body relocks trace state) :
    ((entries trace).flatMap fun entry => body entry.2) = writes trace ++ unwritten state := by
  cases hserial with
  | free howner houtside hwrites hplain => simp [unwritten, howner, hwrites]
  | held agent earlier done left rest howner houtside hentries hplain hwrites hbody htodo hrest =>
      have hleft : unwritten state = left := by
        simp only [unwritten, howner, htodo]
        refine bodyLeft_append left ?_
        rcases hrest with ⟨-, rfl⟩ | ⟨-, after, rfl⟩ <;> rfl
      simp [hentries, hwrites, hleft, hbody]

/-- The calls that have entered, but for the one inside. -/
def finished (trace : List (Event Agent Call Write)) (state : State Agent Call Write) :
    List (Agent × Call) :=
  match state.owner with
  | none => entries trace
  | some _ => (entries trace).dropLast

omit [DecidableEq Agent] in
/-- Calls that have returned have written their whole body. -/
theorem Serial.writes_eq (hserial : Serial script body relocks trace state) :
    ∃ done, writes trace = ((finished trace state).flatMap fun entry => body entry.2) ++ done ∧
      (state.owner = none → done = []) := by
  cases hserial with
  | free howner houtside hwrites hplain => exact ⟨[], by simp [finished, howner, hwrites]⟩
  | held agent earlier done left rest howner houtside hentries hplain hwrites hbody htodo hrest =>
      exact ⟨done, by simp [finished, howner, hentries, hwrites]⟩

omit [DecidableEq Agent] in
theorem Serial.owner_busy (hserial : Serial script body relocks trace state) {agent : Agent}
    (howner : state.owner = some agent) : state.todo agent ≠ [] := by
  cases hserial with
  | free hfree => simp [hfree] at howner
  | held holder earlier done left rest hheld houtside hentries hplain hwrites hbody htodo hrest =>
      obtain rfl : holder = agent := by simpa [hheld] using howner
      rcases hrest with ⟨-, rfl⟩ | ⟨-, after, rfl⟩ <;> simp [htodo]

omit [DecidableEq Agent] in
/-- Only the owner writes or unlocks the mutex. -/
theorem Serial.owner_of_inside (hsectioned : Sectioned script body relocks)
    (hserial : Serial script body relocks trace state) {agent : Agent} {instr : Instr Write}
    {rest : List (Instr Write)} (htodo : state.todo agent = instr :: rest)
    (hinside : instr ≠ .lock) : state.owner = some agent := by
  cases hserial with
  | free howner houtside => exact absurd (hsectioned.outside (houtside agent) htodo).1 hinside
  | held holder earlier done left rest howner houtside =>
      by_cases hholder : agent = holder
      · rw [hholder, howner]
      · exact absurd (hsectioned.outside (houtside agent hholder) htodo).1 hinside

omit [DecidableEq Agent] in
/-- A call that unlocks the mutex returns. -/
theorem Serial.returns_of_unlock (hsectioned : Sectioned script body relocks)
    (hserial : Serial script body relocks trace state) {agent : Agent}
    {after : List (Instr Write)} (hnext : state.todo agent = .unlock :: after) : after = [] := by
  have hinside := hserial.owner_of_inside hsectioned hnext (by simp)
  cases hserial with
  | free howner => simp [howner] at hinside
  | held holder earlier done left rest howner houtside hentries hplain hwrites hbody htodo hrest =>
      obtain rfl : holder = agent := by simpa [howner] using hinside
      rw [htodo] at hnext
      cases left with
      | cons write left => simp at hnext
      | nil =>
          rcases hrest with ⟨-, rfl⟩ | ⟨-, later, rfl⟩
          · simpa using hnext.symm
          · simp at hnext

/-- The call with which an agent stands before the mutex. -/
def waiting (state : State Agent Call Write) (agent : Agent) : List Call :=
  if state.owner = some agent ∨ state.todo agent = [] then [] else [state.call agent]

/-- Each agent's calls enter in the order in which it makes them, and it waits with one
at most. -/
def Ordered (trace : List (Event Agent Call Write)) (state : State Agent Call Write) : Prop :=
  ∀ agent, callsOf agent (starts trace) = callsOf agent (entries trace) ++ waiting state agent

theorem mem_callsOf {agent : Agent} {call : Call} {calls : List (Agent × Call)} :
    call ∈ callsOf agent calls ↔ (agent, call) ∈ calls := by
  simp [callsOf]

/-- Only calls that were made enter. -/
theorem Ordered.mem_starts (hordered : Ordered trace state) {entry : Agent × Call}
    (hentry : entry ∈ entries trace) : entry ∈ starts trace := by
  rw [← mem_callsOf, hordered]
  exact List.mem_append_left _ (mem_callsOf.2 hentry)

theorem callsOf_append (agent : Agent) (before after : List (Agent × Call)) :
    callsOf agent (before ++ after) = callsOf agent before ++ callsOf agent after := by
  simp [callsOf]

theorem callsOf_singleton (agent mover : Agent) (call : Call) :
    callsOf agent [(mover, call)] = if mover = agent then [call] else [] := by
  by_cases hsame : mover = agent <;> simp [callsOf, hsame]

/-- A step that neither begins nor enters a call. -/
theorem Ordered.keep (hordered : Ordered trace state) (hstarts : starts events = [])
    (hentries : entries events = [])
    (hwaiting : ∀ agent, waiting next agent = waiting state agent) :
    Ordered (trace ++ events) next := by
  intro agent
  rw [starts_append, entries_append, hstarts, hentries, List.append_nil, List.append_nil,
    hwaiting, hordered]

theorem Ordered.moves (hsectioned : Sectioned script body relocks)
    (hserial : Serial script body relocks trace state) (hordered : Ordered trace state)
    (hmoves : Moves script state next events) : Ordered (trace ++ events) next := by
  cases hmoves with
  | begin mover call htodo =>
      intro agent
      rw [starts_append, entries_append, starts_singleton, entries_singleton]
      simp only [Event.start?, Event.entry?, Option.toList_some, Option.toList_none,
        List.append_nil, callsOf_append, callsOf_singleton, hordered agent]
      by_cases hsame : mover = agent
      · subst hsame
        have howner : state.owner ≠ some mover := fun h => hserial.owner_busy h htodo
        simp [waiting, htodo, howner, hsectioned.script_ne_nil]
      · simp [waiting, hsame, update_of_ne (Ne.symm hsame)]
  | lock mover rest htodo hfree =>
      intro agent
      rw [starts_append, entries_append, starts_singleton, entries_singleton]
      simp only [Event.start?, Event.entry?, Option.toList_some, Option.toList_none,
        List.append_nil, callsOf_append, callsOf_singleton, hordered agent, List.append_assoc]
      by_cases hsame : mover = agent
      · subst hsame
        simp [waiting, htodo, hfree]
      · simp [waiting, hsame, hfree, update_of_ne (Ne.symm hsame)]
  | unlock mover rest htodo =>
      have howner := hserial.owner_of_inside hsectioned htodo (by simp)
      obtain rfl := hserial.returns_of_unlock hsectioned htodo
      refine hordered.keep rfl rfl fun agent => ?_
      by_cases hsame : mover = agent
      · simp [waiting, howner, hsame]
      · simp [waiting, howner, hsame, update_of_ne (Ne.symm hsame)]
  | write mover write rest htodo =>
      have howner := hserial.owner_of_inside hsectioned htodo (by simp)
      refine hordered.keep rfl rfl fun agent => ?_
      by_cases hsame : mover = agent
      · simp [waiting, howner, hsame]
      · simp [waiting, howner, hsame, update_of_ne (Ne.symm hsame)]

theorem Ordered.run (hsectioned : Sectioned script body relocks) {call : Call}
    (hrun : Run (system script) always (idle call) trace state) : Ordered trace state := by
  refine hrun.invariant Ordered (fun agent => ?_) ?_
  · simp [callsOf, starts, entries, waiting, idle]
  · intro trace state label next events hrun hordered _ hstep
    exact hordered.moves hsectioned (Serial.run hsectioned hrun) (moves_of_step hstep)

/-! ## A second lock -/

omit [DecidableEq Agent] in
/-- A call that locks the mutex again was the last to enter, and still holds the
mutex. -/
theorem Serial.relocked (hserial : Serial script body relocks trace state)
    {entry : Agent × Call} (hentry : entry ∈ entries trace) (hrelocks : relocks entry.2) :
    (∃ earlier, entries trace = earlier ++ [entry] ∧
        ∀ other ∈ earlier, ¬ relocks other.2) ∧
      state.owner = some entry.1 ∧
        ∃ rest, state.todo entry.1 = (unwritten state).map .write ++ .lock :: rest := by
  cases hserial with
  | free howner houtside hwrites hplain => exact absurd hrelocks (hplain entry hentry)
  | held agent earlier done left rest howner houtside hentries hplain hwrites hbody htodo hrest =>
      rw [hentries, List.mem_append, List.mem_singleton] at hentry
      obtain rfl := hentry.resolve_left fun hmem => hplain entry hmem hrelocks
      obtain ⟨after, rfl⟩ := (hrest.resolve_left fun h => h.1 hrelocks).2
      refine ⟨⟨earlier, hentries, hplain⟩, howner, after, ?_⟩
      rw [htodo, unwritten, howner]
      simp only [htodo, bodyLeft_append left (show bodyLeft (.lock :: after) = [] from rfl)]

/-- Behind a call that locks the mutex again nobody enters. -/
theorem entries_eq_nil_of_relocked (hsectioned : Sectioned script body relocks) {call : Call}
    {later : List (Event Agent Call Write)}
    (hrun : Run (system script) always (idle call) trace state)
    (hlater : Run (system script) always state later next) {entry : Agent × Call}
    (hentry : entry ∈ entries trace) (hrelocks : relocks entry.2) : entries later = [] := by
  have hserial := Serial.run hsectioned (hrun.append hlater)
  obtain ⟨⟨earlier, hsplit, hplain⟩, -⟩ :=
    hserial.relocked (by simp [hentry]) hrelocks
  rw [entries_append] at hsplit
  by_contra hnot
  obtain ⟨before, last, hlast⟩ := List.eq_nil_or_concat'  (entries later) |>.resolve_left hnot
  rw [hlast, ← List.append_assoc] at hsplit
  obtain ⟨hearlier, -⟩ := List.append_inj' hsplit rfl
  exact hplain entry (hearlier ▸ List.mem_append_left _ hentry) hrelocks

/-- Somebody is in a call, and nobody in a call can move. -/
def Stuck (script : Call → List (Instr Write)) (state : State Agent Call Write) : Prop :=
  (∃ agent, state.todo agent ≠ []) ∧ ∀ agent, step script state (.move agent) = none

/-- The agents get stuck exactly where a call locks the mutex again, with its body
written. -/
theorem Serial.stuck_iff (hsectioned : Sectioned script body relocks)
    (hserial : Serial script body relocks trace state) :
    Stuck script state ↔
      (∃ entry ∈ entries trace, relocks entry.2) ∧ unwritten state = [] := by
  constructor
  · rintro ⟨⟨agent, hbusy⟩, hnone⟩
    cases hserial with
    | free howner houtside hwrites hplain =>
        have hmove := hnone agent
        obtain ⟨instr, rest, htodo⟩ := List.exists_cons_of_ne_nil hbusy
        obtain ⟨rfl, -⟩ := hsectioned.outside (houtside agent) htodo
        simp [step, htodo, howner] at hmove
    | held holder earlier done left rest howner houtside hentries hplain hwrites hbody htodo
        hrest =>
        have hmove := hnone holder
        cases left with
        | cons write left => simp [step, htodo] at hmove
        | nil =>
            rcases hrest with ⟨-, rfl⟩ | ⟨hrelocks, after, rfl⟩
            · simp [step, htodo] at hmove
            · refine ⟨⟨(holder, state.call holder), by simp [hentries], hrelocks⟩, ?_⟩
              simp [unwritten, howner, htodo, bodyLeft]
  · rintro ⟨⟨entry, hentry, hrelocks⟩, hwritten⟩
    obtain ⟨-, howner, rest, htodo⟩ := hserial.relocked hentry hrelocks
    rw [hwritten] at htodo
    refine ⟨⟨entry.1, by simp [htodo]⟩, fun agent => ?_⟩
    by_contra hmove
    obtain ⟨⟨next, events⟩, hstep⟩ := Option.ne_none_iff_exists'.1 hmove
    cases hnext : state.todo agent with
    | nil => simp [step, hnext] at hstep
    | cons instr after =>
        cases instr with
        | lock => simp [step, hnext, howner] at hstep
        | unlock | write _ =>
            have hsame := hserial.owner_of_inside hsectioned hnext (by simp)
            rw [howner, Option.some.injEq] at hsame
            rw [hsame, hnext] at htodo
            simp at htodo

end Serial

end ArcravenUgv.Sections
