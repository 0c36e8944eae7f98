import ArcravenUgv.Lib.Runs
import ArcravenUgv.Rust.Transport

/-!
# Many clients on one `commands.in`

`Iceoryx2Transport::send_command` of any number of clients.  `writeln!` on an
unbuffered `File` writes the text and the newline one after the other; each of
the two lands at the end of the file in one piece or fails, and between them
other clients may write.
-/

namespace ArcravenUgv.Senders

open ArcravenUgv.Command
open ArcravenUgv.Decimal
open ArcravenUgv.Delimited
open ArcravenUgv.CommandLine
open ArcravenUgv.Bridge
open ArcravenUgv.Runs
open ArcravenUgv.RustTransport

variable {Client : Type*} [DecidableEq Client]

/-- How far a client is in `send_command`. -/
inductive Call
  | idle
  | opened (command : RustEnvelope)
  | textWritten (command : RustEnvelope)

/-- The file, the calls each client still makes and the one it is in. -/
structure Clients (Client : Type*) where
  commandsIn : Bytes
  todo : Client → List RustEnvelope
  calls : Client → Call

/-- The next system call of a client and whether it succeeds. -/
structure Attempt (Client : Type*) where
  client : Client
  ok : Bool

/-- What a call of `send_command` returned. -/
structure Returned (Client : Type*) where
  client : Client
  command : RustEnvelope
  value : Bool

def Clients.create (sent : Client → List RustEnvelope) : Clients Client where
  commandsIn := []
  todo := sent
  calls := fun _ => .idle

def Clients.setCall (state : Clients Client) (client : Client) (call : Call) : Clients Client :=
  { state with calls := Function.update state.calls client call }

def Clients.append (state : Clients Client) (text : Bytes) : Clients Client :=
  { state with commandsIn := state.commandsIn ++ text }

def step (state : Clients Client) (attempt : Attempt Client) :
    Option (Clients Client × List (Returned Client)) :=
  let client := attempt.client
  match state.calls client with
  | .idle =>
      match state.todo client with
      | [] => none
      | command :: later =>
          let next := { state with todo := Function.update state.todo client later }
          if attempt.ok then some (next.setCall client (.opened command), [])
          else some (next, [⟨client, command, false⟩])
  | .opened command =>
      if attempt.ok then
        some ((state.append (encodeCommand command)).setCall client (.textWritten command), [])
      else some (state.setCall client .idle, [⟨client, command, false⟩])
  | .textWritten command =>
      if attempt.ok then
        some ((state.append [newline]).setCall client .idle, [⟨client, command, true⟩])
      else some (state.setCall client .idle, [⟨client, command, false⟩])

def system (Client : Type*) [DecidableEq Client] :
    System (Clients Client) (Attempt Client) (Returned Client) where
  step := step

/-- The command of the call a client is in. -/
def Call.command : Call → List RustEnvelope
  | .idle => []
  | .opened command | .textWritten command => [command]

/-- The text is written and the newline is not. -/
def Call.between : Call → Bool
  | .textWritten _ => true
  | _ => false

/-- The text is written next. -/
def Call.writesNext : Call → Bool
  | .opened _ => true
  | _ => false

/-- Every call has returned `true`. -/
structure AllSent (trace : List (Returned Client)) (state : Clients Client) : Prop where
  value : ∀ returned ∈ trace, returned.value = true
  todo : ∀ client, state.todo client = []
  calls : ∀ client, state.calls client = .idle

/-- The lines of the file are the commands sent, each client's in its order. -/
def LinesWhole (sent : Client → List RustEnvelope) (file : Bytes) : Prop :=
  ∃ log : List (Client × RustEnvelope),
    linesFrom file 0 = log.map (fun entry => encodeCommand entry.2) ∧
      ∀ client, (log.filter fun entry => entry.1 = client).map Prod.snd = sent client

/-- A text is written only while no other client's newline is missing. -/
def NoneBetween (state : Clients Client) (attempt : Attempt Client) : Prop :=
  (state.calls attempt.client).writesNext = true →
    ∀ other, (state.calls other).between = false

/-! ## One step -/

/-- What an attempt that does not make its call return `false` has done. -/
inductive Moved (state : Clients Client) (client : Client) (next : Clients Client) : Prop
  | opens (command : RustEnvelope) (later : List RustEnvelope)
      (hcall : state.calls client = .idle) (htodo : state.todo client = command :: later)
      (hnext : next = { state with todo := Function.update state.todo client later }.setCall
        client (.opened command))
  | writesText (command : RustEnvelope) (hcall : state.calls client = .opened command)
      (hnext : next =
        (state.append (encodeCommand command)).setCall client (.textWritten command))
  | writesNewline (command : RustEnvelope) (hcall : state.calls client = .textWritten command)
      (hnext : next = (state.append [newline]).setCall client .idle)

theorem moved_of_step {state next : Clients Client} {attempt : Attempt Client}
    {events : List (Returned Client)} (hstep : step state attempt = some (next, events))
    (hvalue : ∀ returned ∈ events, returned.value = true) :
    Moved state attempt.client next := by
  simp only [step] at hstep
  split at hstep
  · rename_i hcall
    split at hstep
    · cases hstep
    · rename_i command later htodo
      split_ifs at hstep
      · obtain ⟨rfl, rfl⟩ := Prod.mk.inj (Option.some.inj hstep)
        exact .opens command later hcall htodo rfl
      · obtain ⟨rfl, rfl⟩ := Prod.mk.inj (Option.some.inj hstep)
        simp at hvalue
  · rename_i command hcall
    split_ifs at hstep
    · obtain ⟨rfl, rfl⟩ := Prod.mk.inj (Option.some.inj hstep)
      exact .writesText command hcall rfl
    · obtain ⟨rfl, rfl⟩ := Prod.mk.inj (Option.some.inj hstep)
      simp at hvalue
  · rename_i command hcall
    split_ifs at hstep
    · obtain ⟨rfl, rfl⟩ := Prod.mk.inj (Option.some.inj hstep)
      exact .writesNewline command hcall rfl
    · obtain ⟨rfl, rfl⟩ := Prod.mk.inj (Option.some.inj hstep)
      simp at hvalue

/-! ## Whole records and one unfinished text -/

/-- The text behind the last newline belongs to the one client that has not
written its newline yet. -/
inductive Unfinished (state : Clients Client) : Bytes → Prop
  | nothing (hnone : ∀ client, (state.calls client).between = false) :
      Unfinished state []
  | text (client : Client) (command : RustEnvelope)
      (hcall : state.calls client = .textWritten command)
      (honly : ∀ other, (state.calls other).between = true → other = client) :
      Unfinished state (encodeCommand command)

/-- The file in terms of a log of records, and each client's commands as logged,
under way and to come. -/
structure Logged (sent : Client → List RustEnvelope) (state : Clients Client)
    (log : List (Client × RustEnvelope)) (text : Bytes) : Prop where
  file : state.commandsIn = log.flatMap (fun entry => commandRecord entry.2) ++ text
  unfinished : Unfinished state text
  balance : ∀ client, (log.filter fun entry => entry.1 = client).map Prod.snd ++
    ((state.calls client).command ++ state.todo client) = sent client

section Steps

variable {sent : Client → List RustEnvelope} {state : Clients Client} {client : Client}
variable {log : List (Client × RustEnvelope)} {text : Bytes}

/-- Calls that are not between text and newline do not matter to the file. -/
theorem Unfinished.setCall {call : Call} (hunfinished : Unfinished state text)
    (hbefore : (state.calls client).between = false) (hafter : call.between = false) :
    Unfinished (state.setCall client call) text := by
  have hsame : ∀ other, ((state.setCall client call).calls other).between =
      (state.calls other).between := by
    intro other
    by_cases hother : other = client
    · subst hother
      simp [Clients.setCall, hbefore, hafter]
    · simp [Clients.setCall, hother]
  cases hunfinished with
  | nothing hnone => exact .nothing fun other => (hsame other).trans (hnone other)
  | text owner command hcall honly =>
      have howner : owner ≠ client := by
        rintro rfl
        simp [hcall, Call.between] at hbefore
      exact .text owner command (by simpa [Clients.setCall, howner] using hcall)
        fun other hother => honly other ((hsame other).symm.trans hother)

theorem Logged.opens (hlogged : Logged sent state log text) {command : RustEnvelope}
    {later : List RustEnvelope} (hcall : state.calls client = .idle)
    (htodo : state.todo client = command :: later) :
    Logged sent ({ state with todo := Function.update state.todo client later }.setCall
      client (.opened command)) log text where
  file := hlogged.file
  unfinished := by
    have hunfinished : Unfinished
        { state with todo := Function.update state.todo client later } text := by
      cases hlogged.unfinished with
      | nothing hnone => exact .nothing hnone
      | text owner command hcall honly => exact .text owner command hcall honly
    exact hunfinished.setCall (by simp [hcall, Call.between]) rfl
  balance := by
    intro other
    have hbalance := hlogged.balance other
    by_cases hother : other = client
    · subst hother
      simpa [Clients.setCall, hcall, htodo, Call.command] using hbalance
    · simpa [Clients.setCall, hother] using hbalance

theorem Logged.writesText (hlogged : Logged sent state log text) {command : RustEnvelope}
    (hcall : state.calls client = .opened command)
    (hnone : ∀ other, (state.calls other).between = false) :
    Logged sent ((state.append (encodeCommand command)).setCall client (.textWritten command))
      log (encodeCommand command) where
  file := by
    have htext : text = [] := by
      cases hlogged.unfinished with
      | nothing _ => rfl
      | text owner command hcall _ =>
          have howner := hnone owner
          simp [hcall, Call.between] at howner
    simp [Clients.setCall, Clients.append, hlogged.file, htext]
  unfinished := by
    refine .text client command (by simp [Clients.setCall]) fun other hother => ?_
    by_contra hne
    simp [Clients.setCall, Clients.append, hne, hnone] at hother
  balance := by
    intro other
    have hbalance := hlogged.balance other
    by_cases hother : other = client
    · subst hother
      simpa [Clients.setCall, Clients.append, hcall, Call.command] using hbalance
    · simpa [Clients.setCall, Clients.append, hother] using hbalance

theorem Logged.writesNewline (hlogged : Logged sent state log text) {command : RustEnvelope}
    (hcall : state.calls client = .textWritten command) :
    Logged sent ((state.append [newline]).setCall client .idle)
      (log ++ [(client, command)]) [] := by
  obtain ⟨hfile, hunfinished, hbalance⟩ := hlogged
  cases hunfinished with
  | nothing hnone =>
      have hclient := hnone client
      simp [hcall, Call.between] at hclient
  | text owner command' hcall' honly =>
      obtain rfl := honly client (by simp [hcall, Call.between])
      obtain rfl : command' = command := by simpa [hcall] using hcall'.symm
      refine ⟨?_, .nothing fun other => ?_, fun other => ?_⟩
      · simp [Clients.setCall, Clients.append, hfile, commandRecord]
      · by_cases heq : other = client
        · simp [Clients.setCall, heq, Call.between]
        · refine Bool.eq_false_iff.2 fun hother => heq (honly other ?_)
          simpa [Clients.setCall, Clients.append, heq] using hother
      · have hother := hbalance other
        by_cases heq : other = client
        · subst heq
          simpa [Clients.setCall, Clients.append, hcall, Call.command] using hother
        · have hne : ¬ client = other := fun h => heq h.symm
          simpa [Clients.setCall, Clients.append, heq, hne] using hother

end Steps

/-! ## Every run -/

/-- As long as no call has failed the file is a log of whole records and at most
one text that waits for its newline. -/
theorem logged_of_run {sent : Client → List RustEnvelope} {trace : List (Returned Client)}
    {state : Clients Client}
    (hrun : Run (system Client) NoneBetween (Clients.create sent) trace state)
    (hvalue : ∀ returned ∈ trace, returned.value = true) :
    ∃ log text, Logged sent state log text := by
  induction hrun with
  | start =>
      exact ⟨[], [], by simp [Clients.create], .nothing fun _ => rfl,
        by simp [Clients.create, Call.command]⟩
  | @step trace events state next attempt hrun hallowed hstep ih =>
      obtain ⟨log, text, hlogged⟩ :=
        ih fun returned hmem => hvalue returned (List.mem_append_left _ hmem)
      have hreturned : ∀ returned ∈ events, returned.value = true := fun returned hmem =>
        hvalue returned (List.mem_append_right _ hmem)
      cases moved_of_step hstep hreturned with
      | opens command later hcall htodo hnext =>
          exact ⟨log, text, hnext ▸ hlogged.opens hcall htodo⟩
      | writesText command hcall hnext =>
          exact ⟨log, _, hnext ▸ hlogged.writesText hcall
            (hallowed (by simp [hcall, Call.writesNext]))⟩
      | writesNewline command hcall hnext =>
          exact ⟨_, [], hnext ▸ hlogged.writesNewline hcall⟩

theorem newline_not_mem_encodeCommand (command : RustEnvelope) :
    newline ∉ encodeCommand command :=
  (denote_commandFields command).not_mem_line (Or.inl rfl)

/-- Clients that never write between another's text and newline leave exactly
the lines of their commands. -/
theorem linesWhole_of_noneBetween (sent : Client → List RustEnvelope)
    (trace : List (Returned Client)) (state : Clients Client)
    (hrun : Run (system Client) NoneBetween (Clients.create sent) trace state)
    (hsent : AllSent trace state) : LinesWhole sent state.commandsIn := by
  obtain ⟨log, text, hfile, hunfinished, hbalance⟩ := logged_of_run hrun hsent.value
  have htext : text = [] := by
    cases hunfinished with
    | nothing _ => rfl
    | text owner command hcall _ => simp [hsent.calls] at hcall
  refine ⟨log, ?_, fun client => ?_⟩
  · have hlines : log.flatMap (fun entry => commandRecord entry.2) =
        (log.map fun entry => encodeCommand entry.2).flatMap fun line => line ++ [newline] := by
      rw [List.flatMap_map]
      rfl
    rw [linesFrom, List.drop_zero, hfile, htext, List.append_nil, hlines]
    refine segments_flatMap fun line hline => ?_
    obtain ⟨entry, -, rfl⟩ := List.mem_map.1 hline
    exact newline_not_mem_encodeCommand entry.2
  · simpa [hsent.calls, hsent.todo, Call.command] using hbalance client


/-! ## Two clients -/

private def stopFrom (client : Bool) : RustEnvelope where
  command := .stop
  domain := .mobility
  priority := .high
  authority := .remoteOperator
  commandId := if client then 1 else 2
  issuedNs := 0
  ttlNs := 0
  payloadJson := "\x7b\x7d"

private def oneStopEach (client : Bool) : List RustEnvelope := [stopFrom client]

private def viewPair (state : Clients Bool) :
    Bytes × (List RustEnvelope × List RustEnvelope) × Call × Call :=
  (state.commandsIn, (state.todo true, state.todo false), state.calls true, state.calls false)

private def bothReturned : List (Returned Bool) :=
  [⟨true, stopFrom true, true⟩, ⟨false, stopFrom false, true⟩]

private theorem allSent_of_view {state : Clients Bool} {file : Bytes}
    (hview : viewPair state = (file, ([], []), .idle, .idle)) :
    AllSent bothReturned state ∧ state.commandsIn = file := by
  simp only [viewPair, Prod.mk.injEq] at hview
  obtain ⟨hfile, ⟨htrue, hfalse⟩, hcall, hcall'⟩ := hview
  refine ⟨⟨by simp [bothReturned], fun client => ?_, fun client => ?_⟩, hfile⟩
  · cases client <;> assumption
  · cases client <;> assumption

private instance (state : Clients Bool) (attempt : Attempt Bool) :
    Decidable (NoneBetween state attempt) :=
  inferInstanceAs (Decidable (_ → _))

private def attempts (clients : List Bool) : List (Attempt Bool) :=
  clients.map fun client => ⟨client, true⟩

/-- One after the other. -/
theorem linesWhole_in_turn :
    ∃ state : Clients Bool,
      Run (system Bool) NoneBetween (Clients.create oneStopEach) bothReturned state ∧
        LinesWhole oneStopEach state.commandsIn := by
  obtain ⟨state, hrun, hview⟩ := exists_run_of_execute (system Bool) NoneBetween
    (Clients.create oneStopEach) (attempts [true, true, true, false, false, false]) viewPair
    (show _ = some (bothReturned,
      (commandRecord (stopFrom true) ++ encodeCommand (stopFrom false) ++ [newline],
        ([], []), .idle, .idle)) from rfl)
  obtain ⟨hsent, -⟩ := allSent_of_view hview
  exact ⟨state, hrun, linesWhole_of_noneBetween oneStopEach _ state hrun hsent⟩

/-- Both texts before both newlines: every call returns `true`, and the file has
one line of two commands and an empty one. -/
theorem lines_merged :
    ∃ (trace : List (Returned Bool)) (state : Clients Bool),
      Run (system Bool) always (Clients.create oneStopEach) trace state ∧
        AllSent trace state ∧ ¬ LinesWhole oneStopEach state.commandsIn := by
  obtain ⟨state, hrun, hview⟩ := exists_run_of_execute (system Bool) always
    (Clients.create oneStopEach) (attempts [true, false, true, false, true, false]) viewPair
    (show _ = some (bothReturned,
      (encodeCommand (stopFrom true) ++ encodeCommand (stopFrom false) ++ [newline] ++ [newline],
        ([], []), .idle, .idle)) from rfl)
  obtain ⟨hsent, hfile⟩ := allSent_of_view hview
  refine ⟨_, state, hrun, hsent, ?_⟩
  rintro ⟨log, hlines, -⟩
  have hfree : newline ∉ encodeCommand (stopFrom true) ++ encodeCommand (stopFrom false) := by
    simp [newline_not_mem_encodeCommand]
  have hmerged : linesFrom state.commandsIn 0 =
      [encodeCommand (stopFrom true) ++ encodeCommand (stopFrom false), []] := by
    rw [hfile, linesFrom, List.drop_zero, List.append_assoc, List.singleton_append,
      segments_append_delim hfree]
    rfl
  have hempty : ([] : Bytes) ∈ log.map fun entry => encodeCommand entry.2 := by
    simp [← hlines, hmerged]
  obtain ⟨entry, -, heq⟩ := List.mem_map.1 hempty
  exact (commandFields entry.2).line_ne_nil heq

end ArcravenUgv.Senders
