import ArcravenUgv.Config.Intake
import ArcravenUgv.Config.ReadLines

/-!
# One lifetime after another

The offset of the bridge and the queue live as long as the process; `commands.in`
stays.  Within a lifetime a line leads to one handler call at most, and the next
lifetime starts again at the first line.
-/

namespace ArcravenUgv.Lifetimes

open ArcravenUgv.Enums
open ArcravenUgv.Command
open ArcravenUgv.Command.CommandRouter
open ArcravenUgv.Decimal
open ArcravenUgv.Delimited
open ArcravenUgv.Handlers
open ArcravenUgv.StateStore
open ArcravenUgv.SaveFaults
open ArcravenUgv.CommandLine
open ArcravenUgv.Bridge
open ArcravenUgv.Runs
open ArcravenUgv.Runtime
open ArcravenUgv.ReadLines
open ArcravenUgv.Intake

/-! ## Which line a handler is called for -/

/-- A line whose command was queued. -/
structure Entry where
  offset : ℕ
  line : Bytes
  cmd : CommandEnvelope
  deriving DecidableEq, Repr

def Entry.place (entry : Entry) : ℕ × Bytes := (entry.offset, entry.line)

/-- A handler call: the line it is for, and the time its command was held
against when it was taken off the queue. -/
structure Call where
  entry : Entry
  nowNs : UInt64
  deriving DecidableEq, Repr

/-- The lines in the queue, the last one taken off it, and the handler calls. -/
structure Ledger where
  waiting : List Entry := []
  taken : Option Call := none
  calls : List Call := []
  deriving DecidableEq

/-- Accepted lines queue up, and the control thread takes the first of them. -/
def Ledger.note (ledger : Ledger) : Event → Ledger
  | .lineDone offset line (some (env, answer)) =>
      if answer.status = .accepted then
        { ledger with waiting := ledger.waiting ++ [{ offset := offset, line := line, cmd := env }] }
      else ledger
  | .dequeued _ nowNs =>
      match ledger.waiting with
      | [] => ledger
      | entry :: rest =>
          { ledger with waiting := rest, taken := some { entry := entry, nowNs := nowNs } }
  | .handlerCalled _ =>
      match ledger.taken with
      | none => ledger
      | some call => { ledger with taken := none, calls := ledger.calls ++ [call] }
  | _ => ledger

def ledger (trace : List Event) : Ledger :=
  trace.foldl Ledger.note {}

/-- The handler calls of a lifetime, each with its line. -/
def calls (trace : List Event) : List Call := (ledger trace).calls

def calledCommand : Event → Option CommandEnvelope
  | .handlerCalled cmd => some cmd
  | _ => none

/-- The commands handlers were called with. -/
def calledCommands (trace : List Event) : List CommandEnvelope :=
  trace.filterMap calledCommand

@[simp]
theorem ledger_append (trace events : List Event) :
    ledger (trace ++ events) = events.foldl Ledger.note (ledger trace) :=
  List.foldl_append

@[simp]
theorem calledCommands_append (trace events : List Event) :
    calledCommands (trace ++ events) = calledCommands trace ++ calledCommands events :=
  List.filterMap_append ..

/-- The lines a ledger has on record, oldest first. -/
def Ledger.places (ledger : Ledger) : List (ℕ × Bytes) :=
  ledger.calls.map (·.entry.place) ++ ledger.taken.toList.map (·.entry.place) ++
    ledger.waiting.map Entry.place

/-- A handler was rightly called: the line holds the command, which had not
expired. -/
def Call.Due (call : Call) : Prop :=
  lineEnvelope call.entry.line = some call.entry.cmd ∧
    isExpired call.entry.cmd call.nowNs = false

/-- The control thread holds the command taken last. -/
def Holds (ledger : Ledger) : ControlPc → Prop
  | .admitting nowNs _ cmd _ =>
      ∃ entry, ledger.taken = some { entry := entry, nowNs := nowNs } ∧ entry.cmd = cmd ∧
        lineEnvelope entry.line = some cmd
  | _ => True

structure Balanced (trace : List Event) (core : Core) : Prop where
  waiting : (ledger trace).waiting.map Entry.cmd = core.shared.router.q
  parsed : ∀ entry ∈ (ledger trace).waiting, lineEnvelope entry.line = some entry.cmd
  holds : Holds (ledger trace) core.control
  due : ∀ call ∈ calls trace, call.Due
  called : (calls trace).map (·.entry.cmd) = calledCommands trace
  places : (ledger trace).places.Sublist (doneLines trace)

section Balanced

variable {trace events : List Event} {core next : Core}

/-- A step that leaves the ledger as it is. -/
theorem Balanced.quiet (hbalanced : Balanced trace core)
    (hledger : ledger (trace ++ events) = ledger trace)
    (hqueue : next.shared.router.q = core.shared.router.q)
    (hcalled : calledCommands events = [])
    (hholds : Holds (ledger trace) next.control) : Balanced (trace ++ events) next where
  waiting := by rw [hledger, hqueue, hbalanced.waiting]
  parsed := by rw [hledger]; exact hbalanced.parsed
  holds := by rw [hledger]; exact hholds
  due := by rw [calls, hledger]; exact hbalanced.due
  called := by
    rw [calls, hledger, calledCommands_append, hcalled, List.append_nil]
    exact hbalanced.called
  places := by
    rw [hledger, doneLines_append]
    exact hbalanced.places.trans (List.sublist_append_left _ _)

theorem Balanced.io {shared : Shared} {pc : IoPc} (hbalanced : Balanced trace core)
    (hmoves : IoMoves core.shared core.io shared pc events) :
    Balanced (trace ++ events) { core with shared := shared, io := pc } := by
  cases hmoves with
  | submit offset line atEnd env hpc henvelope =>
      rcases submit_cases core.shared.router env with ⟨-, -, hsubmit⟩ | ⟨hsame, hstatus⟩
      · have hledger : ledger (trace ++ [.lineDone offset line (some (env, queuedResult))]) =
            { ledger trace with
              waiting := (ledger trace).waiting ++
                [{ offset := offset, line := line, cmd := env }] } :=
          ledger_append ..
        have hdone : doneLines [.lineDone offset line (some (env, queuedResult))] =
            [(offset, line)] := rfl
        have hcalled :
            calledCommands [.lineDone offset line (some (env, queuedResult))] = [] := rfl
        rw [hsubmit]
        exact {
          waiting := by simp [hledger, hbalanced.waiting]
          parsed := by
            intro entry hentry
            simp only [hledger, List.mem_append, List.mem_singleton] at hentry
            rcases hentry with hentry | rfl
            · exact hbalanced.parsed entry hentry
            · exact henvelope
          holds := by
            rw [hledger]
            exact hbalanced.holds
          due := by
            rw [calls, hledger]
            exact hbalanced.due
          called := by
            rw [calls, hledger, calledCommands_append, hcalled, List.append_nil]
            exact hbalanced.called
          places := by
            rw [hledger, doneLines_append, hdone]
            simpa [Ledger.places, Entry.place] using
              hbalanced.places.append_right [(offset, line)] }
      · refine hbalanced.quiet ?_ (by rw [hsame]) rfl hbalanced.holds
        simp [Ledger.note, hstatus]
  | ignore offset line atEnd hpc henvelope =>
      exact hbalanced.quiet (ledger_append ..) rfl rfl hbalanced.holds
  | _ => exact hbalanced.quiet (ledger_append ..) rfl rfl hbalanced.holds

theorem Balanced.dequeue {nowNs : UInt64} {left : ℕ} {cmd : CommandEnvelope}
    {rest : List CommandEnvelope} {handler : Option Handler}
    (hbalanced : Balanced trace core) (hq : core.shared.router.q = cmd :: rest)
    (hnext : next.shared.router.q = rest)
    (hcontrol : next.control = .admitting nowNs left cmd handler) :
    Balanced (trace ++ [.dequeued cmd nowNs]) next := by
  have hwaiting := hbalanced.waiting
  rw [hq] at hwaiting
  obtain ⟨entry, entries, hentries, hcmd, hrest⟩ := List.map_eq_cons_iff.1 hwaiting
  have hledger : ledger (trace ++ [.dequeued cmd nowNs]) =
      { ledger trace with
        waiting := entries
        taken := some { entry := entry, nowNs := nowNs } } := by
    simp [Ledger.note, hentries]
  have hcalled : calledCommands [.dequeued cmd nowNs] = [] := rfl
  have hparsed := hbalanced.parsed
  rw [hentries] at hparsed
  exact {
    waiting := by rw [hledger, hnext, hrest]
    parsed := fun other hother => hparsed other (by
      rw [hledger] at hother
      exact List.mem_cons_of_mem _ hother)
    holds := by
      rw [hledger, hcontrol]
      exact ⟨entry, rfl, hcmd, hcmd ▸ hparsed entry (by simp)⟩
    due := by
      rw [calls, hledger]
      exact hbalanced.due
    called := by
      rw [calls, hledger, calledCommands_append, hcalled, List.append_nil]
      exact hbalanced.called
    places := by
      have hplaces := hbalanced.places
      rw [Ledger.places, hentries] at hplaces
      rw [hledger, doneLines_append]
      refine List.Sublist.trans ?_ (hplaces.trans (List.sublist_append_left _ _))
      simp [Ledger.places] }

theorem Balanced.call {nowNs : UInt64} {left : ℕ} {cmd : CommandEnvelope}
    {handler : Option Handler} {pc : HandlerPc} (hbalanced : Balanced trace core)
    (hpc : core.control = .admitting nowNs left cmd handler)
    (hfresh : isExpired cmd nowNs = false)
    (hqueue : next.shared.router.q = core.shared.router.q)
    (hcontrol : next.control = .handling nowNs left cmd pc) :
    Balanced (trace ++ [.handlerCalled cmd]) next := by
  have hholds := hbalanced.holds
  rw [hpc] at hholds
  obtain ⟨entry, htaken, rfl, hline⟩ := hholds
  have hledger : ledger (trace ++ [.handlerCalled entry.cmd]) =
      { ledger trace with
        taken := none
        calls := (ledger trace).calls ++ [{ entry := entry, nowNs := nowNs }] } := by
    simp [Ledger.note, htaken]
  have hcalled : calledCommands [.handlerCalled entry.cmd] = [entry.cmd] := rfl
  exact {
    waiting := by rw [hledger, hqueue]; exact hbalanced.waiting
    parsed := by rw [hledger]; exact hbalanced.parsed
    holds := by rw [hcontrol]; trivial
    due := by
      intro call hcall
      rw [calls, hledger, List.mem_append, List.mem_singleton] at hcall
      rcases hcall with hcall | rfl
      · exact hbalanced.due call hcall
      · exact ⟨hline, hfresh⟩
    called := by
      rw [calls, hledger, calledCommands_append, hcalled, ← hbalanced.called, List.map_append]
      rfl
    places := by
      have hplaces := hbalanced.places
      rw [Ledger.places, htaken] at hplaces
      rw [hledger, doneLines_append]
      refine List.Sublist.trans ?_ (hplaces.trans (List.sublist_append_left _ _))
      simp [Ledger.places] }

theorem Balanced.control {world : World} {shared : Shared} {pc : ControlPc}
    (hbalanced : Balanced trace core)
    (hmoves : ControlMoves world core.shared core.control shared pc events) :
    Balanced (trace ++ events) { core with shared := shared, control := pc } := by
  cases hmoves with
  | dequeue nowNs left cmd rest hpc hq => exact hbalanced.dequeue hq rfl rfl
  | call nowNs left cmd handler hpc hfresh => exact hbalanced.call hpc hfresh rfl rfl
  | handle nowNs left cmd before after shared events hpc hhandler =>
      cases hhandler <;> exact hbalanced.quiet (ledger_append ..) rfl rfl trivial
  | _ => exact hbalanced.quiet (ledger_append ..) rfl rfl trivial

theorem foldl_note_of_silent {events : List Event}
    (hsilent : ∀ event ∈ events, ¬ event.OnPath) (ledger : Ledger) :
    events.foldl Ledger.note ledger = ledger := by
  induction events with
  | nil => rfl
  | cons event events ih =>
      have hnote : ledger.note event = ledger := by
        have hevent := hsilent event (by simp)
        cases event with
        | lineDone _ _ _ | dequeued _ _ | handlerCalled _ => exact absurd trivial hevent
        | _ => rfl
      rw [List.foldl_cons, hnote]
      exact ih fun other hother => hsilent other (List.mem_cons_of_mem _ hother)

theorem Balanced.moves {world : World} {thread : Thread} (hbalanced : Balanced trace core)
    (hmoves : PathMoves world core thread next events) : Balanced (trace ++ events) next := by
  cases hmoves with
  | io shared pc events hthread hmoves => exact hbalanced.io hmoves
  | control shared pc events hthread hmoves => exact hbalanced.control hmoves
  | append => exact hbalanced.quiet (by simp) rfl rfl hbalanced.holds
  | aside thread next events haside =>
      refine hbalanced.quiet ?_ haside.queue (haside.filterMap_eq_nil fun event hevent => ?_)
        (haside.control ▸ hbalanced.holds)
      · rw [ledger_append, foldl_note_of_silent haside.silent]
      · cases event <;> simp_all [Event.OnPath, calledCommand]

end Balanced

theorem Balanced.run {allowed : Core → Thread × World → Prop} {dir : DataDir}
    {trace : List Event} {core : Core}
    (hrun : Run system allowed (powerOn dir) trace core) : Balanced trace core := by
  refine hrun.invariant Balanced ⟨rfl, by simp [ledger], trivial, by simp [calls, ledger], rfl,
    List.nil_sublist _⟩ ?_
  intro trace core label next events _ hbalanced _ hstep
  exact hbalanced.moves (moves_of_step hstep).path

/-! ## Lifetimes -/

/-- Processes run one after another on a data directory, each stopping anywhere,
and whole lines are appended to `commands.in` before, during and between them.
The list has the trace of each process. -/
inductive Lives (first : DataDir) : List (List Event) → DataDir → Prop
  | start : Lives first [] first
  | append {traces : List (List Event)} {dir : DataDir} {chunk : Bytes}
      (hlives : Lives first traces dir)
      (hstarts : StartsPiece newline dir.commandsIn chunk) :
      Lives first traces { dir with commandsIn := dir.commandsIn ++ chunk }
  | live {traces : List (List Event)} {dir : DataDir} {trace : List Event} {core : Core}
      (hlives : Lives first traces dir)
      (hrun : Run system WholeLines (powerOn dir) trace core) :
      Lives first (traces ++ [trace]) core.dataDir

/-- The handler calls of a lifetime are for lines of the file, one for a line at
most and in the order of the lines, each with the command of its line and
before that has expired. -/
structure CalledOnce (file : Bytes) (trace : List Event) : Prop where
  all : calledCommands trace = (calls trace).map (·.entry.cmd)
  due : ∀ call ∈ calls trace, call.Due
  lines : ((calls trace).map (·.entry.place)).Sublist (placed 0 (linesFrom file 0))

theorem CalledOnce.mono {file longer : Bytes} {trace : List Event}
    (honce : CalledOnce file trace)
    (hlonger : linesFrom file 0 <+: linesFrom longer 0) : CalledOnce longer trace where
  all := honce.all
  due := honce.due
  lines := by
    obtain ⟨more, hmore⟩ := hlonger
    rw [← hmore, placed_append]
    exact honce.lines.trans (List.sublist_append_left _ _)

/-- No line is executed twice. -/
theorem CalledOnce.offsets {file : Bytes} {trace : List Event}
    (honce : CalledOnce file trace) :
    ((calls trace).map (·.entry.offset)).Pairwise (· < ·) := by
  have hplaces := (pairwise_placed 0 (linesFrom file 0)).sublist honce.lines
  rw [List.pairwise_map] at hplaces ⊢
  exact hplaces

theorem calledOnce_of_run {dir : DataDir} {trace : List Event} {core : Core}
    (hrun : Run system WholeLines (powerOn dir) trace core) :
    CalledOnce core.shared.commandsIn trace := by
  have hbalanced := Balanced.run hrun
  obtain ⟨taken, hconsumed⟩ := Consumed.run (fun _ _ => id) hrun
  obtain ⟨more, hmore⟩ := hconsumed.first
  refine ⟨hbalanced.called.symm, hbalanced.due, ?_⟩
  have hcalls : ((calls trace).map (·.entry.place)).Sublist (ledger trace).places := by
    rw [Ledger.places, List.append_assoc]
    exact List.sublist_append_left _ _
  have hdone : (doneLines trace).Sublist (placed 0 taken) := by
    rw [← hconsumed.lines]
    exact List.sublist_append_left _ _
  rw [← hmore, placed_append]
  exact ((hcalls.trans hbalanced.places).trans hdone).trans (List.sublist_append_left _ _)

theorem Lives.calledOnce {first last : DataDir} {traces : List (List Event)}
    (hlives : Lives first traces last) :
    ∀ trace ∈ traces, CalledOnce last.commandsIn trace := by
  induction hlives with
  | start => simp
  | append hlives hstarts ih =>
      exact fun trace hmem => (ih trace hmem).mono (segments_prefix_of_startsPiece hstarts)
  | live hlives hrun ih =>
      intro trace hmem
      rcases List.mem_append.1 hmem with hmem | hmem
      · exact (ih trace hmem).mono (linesFrom_grows (fun _ _ => id) hrun)
      · rw [List.mem_singleton] at hmem
        subst hmem
        exact calledOnce_of_run hrun

/-- In every lifetime a line leads to one handler call at most, and to none once
it has expired. -/
theorem executed_once_per_lifetime (first last : DataDir) (traces : List (List Event))
    (hlives : Lives first traces last) :
    ∀ trace ∈ traces, CalledOnce last.commandsIn trace ∧
      ((calls trace).map (·.entry.offset)).Pairwise (· < ·) :=
  fun trace hmem => ⟨hlives.calledOnce trace hmem, (hlives.calledOnce trace hmem).offsets⟩

private def shutdown : CommandEnvelope := plainCommand .shutdown 1

/-- A process that calls the handler of the first line and stops there. -/
private def shuttingDown : List Event :=
  [.lineDone 0 (plainLine .shutdown 1) (some (shutdown, queuedResult)), .stored coldState,
    .dequeued shutdown 0, .handlerCalled shutdown]

private def shutdownDir : DataDir := freshDir (plainLine .shutdown 1 ++ [newline])

/-- What it leaves: the file as it was, and the calibrated state. -/
private def leftDir : DataDir :=
  { shutdownDir with disk := { live := some (fileImage coldState), tmp := none } }

/-- A `Shutdown` is executed, and after the next start again. -/
private theorem lives_twice : ∃ last, Lives shutdownDir [shuttingDown, shuttingDown] last := by
  obtain ⟨core, hfirst, hleft⟩ := exists_run_of_execute system WholeLines
    (powerOn shutdownDir) (bootSchedule ++ times 5 .io ++ times 6 .control) Core.dataDir
    (show _ = some (shuttingDown, leftDir) by decide +kernel)
  obtain ⟨again, hsecond⟩ := exists_run_of_trace system WholeLines
    (powerOn leftDir) (bootSchedule ++ times 5 .io ++ times 6 .control)
    (show _ = some shuttingDown by decide +kernel)
  exact ⟨_, (Lives.start.live hfirst).live (hleft ▸ hsecond)⟩

theorem executed_once_per_lifetime_shutdown :
    ∃ last : DataDir, Lives shutdownDir [shuttingDown, shuttingDown] last ∧
      ∀ trace ∈ [shuttingDown, shuttingDown], CalledOnce last.commandsIn trace ∧
        ((calls trace).map (·.entry.offset)).Pairwise (· < ·) := by
  obtain ⟨last, hlives⟩ := lives_twice
  exact ⟨last, hlives, executed_once_per_lifetime _ _ _ hlives⟩

/-- Not so over all lifetimes: a `Shutdown` that never expires is executed at
every start. -/
theorem executed_again_after_restart :
    ∃ (first last : DataDir) (traces : List (List Event)), Lives first traces last ∧
      ¬ ((traces.flatMap calls).map (·.entry.offset)).Nodup := by
  obtain ⟨last, hlives⟩ := lives_twice
  exact ⟨_, last, _, hlives, by decide +kernel⟩

end ArcravenUgv.Lifetimes
