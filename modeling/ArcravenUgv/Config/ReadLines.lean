import ArcravenUgv.Config.Boot

/-!
# What `pump_rx` has read

While clients append whole lines, the lines the IO thread has read are the first
lines of `commands.in`, each read once and at its own offset, and the offset of
the bridge stands behind them.
-/

namespace ArcravenUgv.ReadLines

open ArcravenUgv.Command
open ArcravenUgv.Delimited
open ArcravenUgv.CommandLine
open ArcravenUgv.Bridge
open ArcravenUgv.Runs
open ArcravenUgv.Runtime

def doneLine : Event → Option (ℕ × Bytes)
  | .lineDone offset line _ => some (offset, line)
  | _ => none

/-- The lines `pump_rx` is done with, by their offsets, in the order it read
them. -/
def doneLines (trace : List Event) : List (ℕ × Bytes) :=
  trace.filterMap doneLine

def readCommand : Event → Option CommandEnvelope
  | .lineDone _ _ answer => answer.map Prod.fst
  | _ => none

/-- The commands `pump_rx` has handed to `submit`. -/
def readCommands (trace : List Event) : List CommandEnvelope :=
  trace.filterMap readCommand

@[simp]
theorem doneLines_append (trace events : List Event) :
    doneLines (trace ++ events) = doneLines trace ++ doneLines events :=
  List.filterMap_append ..

@[simp]
theorem readCommands_append (trace events : List Event) :
    readCommands (trace ++ events) = readCommands trace ++ readCommands events :=
  List.filterMap_append ..

/-- The line the IO thread is working on. -/
def inBody : IoPc → List (ℕ × Bytes)
  | .body offset line _ => [(offset, line)]
  | _ => []

/-- A client leaves the lines already in the file as they are. -/
def WholeLines (core : Core) (label : Thread × World) : Prop :=
  label.1 = .client → StartsPiece newline core.shared.commandsIn label.2.chunk

instance (core : Core) (label : Thread × World) : Decidable (WholeLines core label) :=
  inferInstanceAs (Decidable (_ → _))

/-- The bridge stands behind the first lines of the file, and those are the
lines it has read. -/
structure Consumed (trace : List Event) (core : Core) (taken : List Bytes) : Prop where
  first : taken <+: linesFrom core.shared.commandsIn 0
  offset : core.shared.bridge.commandOffset = extent taken
  lines : doneLines trace ++ inBody core.io = placed 0 taken

section Consumed

variable {trace events : List Event} {core next : Core} {taken : List Bytes}

/-- A step that does not read. -/
theorem Consumed.quiet (hconsumed : Consumed trace core taken)
    (hfile : next.shared.commandsIn = core.shared.commandsIn)
    (hoffset : next.shared.bridge.commandOffset = core.shared.bridge.commandOffset)
    (hlines : doneLines events ++ inBody next.io = inBody core.io) :
    Consumed (trace ++ events) next taken where
  first := hfile ▸ hconsumed.first
  offset := hoffset.trans hconsumed.offset
  lines := by rw [doneLines_append, List.append_assoc, hlines, hconsumed.lines]

theorem Consumed.io {shared : Shared} {pc : IoPc} (hconsumed : Consumed trace core taken)
    (hmoves : IoMoves core.shared core.io shared pc events) :
    ∃ taken, Consumed (trace ++ events) { core with shared := shared, io := pc } taken := by
  cases hmoves with
  | advance next hpc hstart hexited hbody hnext =>
      refine ⟨taken, hconsumed.quiet rfl rfl ?_⟩
      have hbefore : inBody core.io = [] := by
        cases hio : core.io with
        | body offset line atEnd => exact absurd hio (hbody offset line atEnd)
        | _ => rfl
      cases pc with
      | body offset line atEnd => exact absurd rfl (hnext offset line atEnd)
      | _ => exact hbefore.symm
  | take line atEnd hpc hline =>
      have hread := hline
      simp only [getline] at hread
      split_ifs at hread with hmore
      obtain ⟨rfl, -⟩ := Prod.mk.inj (Option.some.inj hread)
      rw [hconsumed.offset] at hmore
      have hfirst := next_of_taken hconsumed.first (by simpa [linesFrom] using hmore)
      have hbefore := hconsumed.lines
      simp only [hpc, inBody, List.append_nil] at hbefore
      refine ⟨taken ++ [nextSegment newline (core.shared.commandsIn.drop (extent taken))], ?_⟩
      exact {
        first := by simpa [linesFrom] using hfirst
        offset := by simp [hconsumed.offset]
        lines := by
          simp only [doneLines_append, hbefore, inBody, placed_append, hconsumed.offset]
          simp [doneLines, placed] }
  | ignore offset line atEnd hpc henvelope =>
      exact ⟨taken, hconsumed.quiet rfl rfl (by simp [doneLines, doneLine, inBody, hpc])⟩
  | submit offset line atEnd env hpc henvelope =>
      exact ⟨taken, hconsumed.quiet rfl rfl (by simp [doneLines, doneLine, inBody, hpc])⟩
  | exit hpc => exact ⟨taken, hconsumed.quiet rfl rfl (by simp [doneLines, inBody, hpc])⟩

theorem Consumed.moves {world : World} {thread : Thread}
    (hconsumed : Consumed trace core taken) (hallowed : WholeLines core (thread, world))
    (hmoves : PathMoves world core thread next events) :
    ∃ taken, Consumed (trace ++ events) next taken := by
  cases hmoves with
  | io shared pc events hthread hmoves => exact hconsumed.io hmoves
  | control shared pc events hthread hmoves =>
      cases hmoves with
      | handle nowNs left cmd before after shared events hpc hhandler =>
          refine ⟨taken, hconsumed.quiet ?_ ?_ ?_⟩ <;> cases hhandler <;> rfl
      | _ => exact ⟨taken, hconsumed.quiet rfl rfl rfl⟩
  | append =>
      refine ⟨taken, ?_, hconsumed.offset, ?_⟩
      · exact hconsumed.first.trans (segments_prefix_of_startsPiece (hallowed rfl))
      · simpa [doneLines] using hconsumed.lines
  | aside thread next events haside =>
      refine ⟨taken, hconsumed.quiet haside.commandsIn haside.commandOffset ?_⟩
      have hlines : doneLines events = [] := haside.filterMap_eq_nil fun event hevent => by
        cases event <;> simp_all [Event.OnPath, doneLine]
      rw [hlines, haside.io, List.nil_append]

end Consumed

theorem Consumed.run {allowed : Core → Thread × World → Prop} {dir : DataDir}
    {trace : List Event} {core : Core}
    (hallowed : ∀ core label, allowed core label → WholeLines core label)
    (hrun : Run system allowed (powerOn dir) trace core) :
    ∃ taken, Consumed trace core taken := by
  refine hrun.invariant (fun trace core => ∃ taken, Consumed trace core taken)
    ⟨[], List.nil_prefix, rfl, rfl⟩ ?_
  rintro trace core label next events _ ⟨taken, hconsumed⟩ hlabel hstep
  exact hconsumed.moves (hallowed core label hlabel) (moves_of_step hstep).path

/-- Only clients write `commands.in`. -/
theorem commandsIn_of_moves {world : World} {core next : Core} {thread : Thread}
    {events : List Event} (hmoves : PathMoves world core thread next events) :
    (thread = .client ∧
      next.shared.commandsIn = core.shared.commandsIn ++ world.chunk) ∨
    next.shared.commandsIn = core.shared.commandsIn := by
  cases hmoves with
  | control shared pc events hthread hmoves =>
      cases hmoves with
      | handle nowNs left cmd before after shared events hpc hhandler =>
          cases hhandler <;> exact Or.inr rfl
      | _ => exact Or.inr rfl
  | io shared pc events hthread hmoves => cases hmoves <;> exact Or.inr rfl
  | append => exact Or.inl ⟨rfl, rfl⟩
  | aside thread next events haside => exact Or.inr haside.commandsIn

/-- Lines are only added to the file. -/
theorem linesFrom_grows {allowed : Core → Thread × World → Prop} {first : Core}
    {trace : List Event} {core : Core}
    (hallowed : ∀ core label, allowed core label → WholeLines core label)
    (hrun : Run system allowed first trace core) :
    linesFrom first.shared.commandsIn 0 <+: linesFrom core.shared.commandsIn 0 := by
  refine hrun.invariant
    (fun _ core => linesFrom first.shared.commandsIn 0 <+: linesFrom core.shared.commandsIn 0)
    (List.prefix_refl _) ?_
  intro trace core label next events _ hgrown hlabel hstep
  rcases commandsIn_of_moves (moves_of_step hstep).path with ⟨hclient, hchunk⟩ | hsame
  · rw [hchunk]
    exact hgrown.trans (segments_prefix_of_startsPiece (hallowed core label hlabel hclient))
  · rwa [hsame]

/-- The commands handed to `submit` are what the lines were read as. -/
def Parsed (trace : List Event) : Prop :=
  readCommands trace = (doneLines trace).filterMap fun entry => lineEnvelope entry.2

theorem parsed_of_moves {world : World} {core next : Core} {thread : Thread}
    {events : List Event} (hmoves : PathMoves world core thread next events) :
    Parsed events := by
  cases hmoves with
  | io shared pc events hthread hmoves =>
      cases hmoves with
      | ignore offset line atEnd hpc henvelope =>
          simp [Parsed, readCommands, readCommand, doneLines, doneLine, henvelope]
      | submit offset line atEnd env hpc henvelope =>
          simp [Parsed, readCommands, readCommand, doneLines, doneLine, henvelope]
      | _ => rfl
  | control shared pc events hthread hmoves =>
      cases hmoves with
      | handle nowNs left cmd before after shared events hpc hhandler =>
          cases hhandler <;> rfl
      | _ => rfl
  | append => rfl
  | aside thread next events haside =>
      have hlines : doneLines events = [] := haside.filterMap_eq_nil fun event hevent => by
        cases event <;> simp_all [Event.OnPath, doneLine]
      have hcommands : readCommands events = [] := haside.filterMap_eq_nil fun event hevent => by
        cases event <;> simp_all [Event.OnPath, readCommand]
      simp [Parsed, hlines, hcommands]

theorem Parsed.run {allowed : Core → Thread × World → Prop} {dir : DataDir}
    {trace : List Event} {core : Core}
    (hrun : Run system allowed (powerOn dir) trace core) : Parsed trace := by
  refine hrun.invariant (fun trace _ => Parsed trace) rfl ?_
  intro trace core label next events _ hparsed _ hstep
  have hevents := parsed_of_moves (moves_of_step hstep).path
  simp only [Parsed] at hparsed hevents
  simp [Parsed, hparsed, hevents]

/-- What was handed to `submit` stands in the file, in this order. -/
theorem readCommands_sublist {allowed : Core → Thread × World → Prop} {dir : DataDir}
    {trace : List Event} {core : Core}
    (hallowed : ∀ core label, allowed core label → WholeLines core label)
    (hrun : Run system allowed (powerOn dir) trace core) :
    (readCommands trace).Sublist ((linesFrom core.shared.commandsIn 0).filterMap lineEnvelope) := by
  obtain ⟨taken, hconsumed⟩ := Consumed.run hallowed hrun
  have htaken : ((doneLines trace).map Prod.snd).Sublist taken := by
    have hmap := congrArg (List.map Prod.snd) hconsumed.lines
    rw [List.map_append, map_snd_placed] at hmap
    exact hmap ▸ List.sublist_append_left _ _
  have hfile := htaken.trans hconsumed.first.sublist
  rw [Parsed.run hrun]
  simpa [List.filterMap_map] using hfile.filterMap lineEnvelope

/-! ## One call of `pump_rx` alone -/

/-- Only the IO thread moves, and files open. -/
def OnlyIo (_ : Core) (label : Thread × World) : Prop :=
  label.1 = .io ∧ label.2.opened = true

section PumpRx

variable {core : Core}

theorem run_io {shared : Shared} {pc : IoPc} {events : List Event}
    (hthread : .io ∈ core.shared.threads)
    (hstep : ioStep {} core.shared core.io = some (shared, pc, events)) :
    Run system OnlyIo core events { core with shared := shared, io := pc } := by
  have hio : OnlyIo core (.io, {}) := ⟨rfl, rfl⟩
  exact Run.single hio (by simp [system, step, hthread, hstep])

/-- One turn of the loop takes one line. -/
theorem run_turn {line : Bytes} {atEnd : Bool} (hthread : .io ∈ core.shared.threads)
    (hio : core.io = .getline false)
    (hline : getline core.shared.commandsIn core.shared.bridge.commandOffset =
      some (line, atEnd)) :
    ∃ (trace : List Event) (next : Core), Run system OnlyIo core trace next ∧
      .io ∈ next.shared.threads ∧ next.io = .getline atEnd ∧
      next.shared.commandsIn = core.shared.commandsIn ∧
      next.shared.bridge = { core.shared.bridge with
        commandOffset := core.shared.bridge.commandOffset + (line.length + 1) } ∧
      readCommands trace = (lineEnvelope line).toList := by
  have htake := run_io hthread (by simp only [hio, ioStep, hline]; rfl)
  cases henvelope : lineEnvelope line with
  | none =>
      have hbody := htake.append (run_io hthread (by simp only [ioStep, henvelope]; rfl))
      exact ⟨_, _, hbody, hthread, rfl, rfl, rfl, rfl⟩
  | some env =>
      have hbody := htake.append (run_io hthread (by simp only [ioStep, henvelope]; rfl))
      exact ⟨_, _, hbody, hthread, rfl, rfl, rfl, rfl⟩

/-- The loop of `pump_rx`, left to itself. -/
theorem run_getline {lines : List Bytes} {atEnd : Bool} (hthread : .io ∈ core.shared.threads)
    (hio : core.io = .getline atEnd) (hend : atEnd = true → lines = [])
    (hlines : linesFrom core.shared.commandsIn core.shared.bridge.commandOffset = lines) :
    ∃ (trace : List Event) (next : Core), Run system OnlyIo core trace next ∧
      next.io = .pumpTx ∧
      next.shared.bridge = { core.shared.bridge with
        commandOffset := core.shared.bridge.commandOffset + extent lines } ∧
      readCommands trace = lines.filterMap lineEnvelope := by
  induction lines generalizing core atEnd with
  | nil =>
      have hstep : ioStep {} core.shared core.io = some (core.shared, .pumpTx, []) := by
        cases atEnd with
        | true => simp [hio, ioStep]
        | false =>
            cases hline : getline core.shared.commandsIn core.shared.bridge.commandOffset with
            | none => simp [hio, ioStep, hline]
            | some read => simp [linesFrom_of_getline hline] at hlines
      exact ⟨_, _, run_io hthread hstep, rfl, rfl, rfl⟩
  | cons line rest ih =>
      cases atEnd with
      | true => cases hend rfl
      | false =>
          cases hline : getline core.shared.commandsIn core.shared.bridge.commandOffset with
          | none => simp [linesFrom_of_getline_none hline] at hlines
          | some read =>
              obtain ⟨taken, stopped⟩ := read
              rw [linesFrom_of_getline hline] at hlines
              obtain ⟨rfl, hrest⟩ := List.cons.inj hlines
              obtain ⟨before, middle, hturn, hthread', hio', hfile, hoffset, hcommand⟩ :=
                run_turn hthread hio hline
              have hend' : stopped = true → rest = [] := by
                rintro rfl
                rw [← hrest, linesFrom_of_atEnd hline]
              obtain ⟨after, next, hrun, hnext, hbridge, hcommands⟩ :=
                ih hthread' hio' hend' (by rw [hfile, hoffset, hrest])
              refine ⟨_, next, hturn.append hrun, hnext, ?_, ?_⟩
              · simp [hbridge, hoffset, extent, Nat.add_assoc]
              · cases henvelope : lineEnvelope taken <;>
                  simp [hcommand, hcommands, henvelope]

/-- The IO thread's turn, left to itself, is one call of `pump_rx`. -/
theorem run_pumpRx (hthread : .io ∈ core.shared.threads) (hio : core.io = .opening) :
    ∃ (trace : List Event) (next : Core), Run system OnlyIo core trace next ∧
      next.io = .pumpTx ∧
      pumpRx core.shared.commandsIn core.shared.bridge =
        (next.shared.bridge, readCommands trace) := by
  cases hinitialized : core.shared.bridge.initialized with
  | false =>
      have hopen := run_io hthread (by simp only [hio, ioStep, hinitialized]; rfl)
      exact ⟨_, _, hopen, rfl, by simp [pumpRx, hinitialized, readCommands]⟩
  | true =>
      have hopen := run_io hthread (by simp only [hio, ioStep, hinitialized]; rfl)
      obtain ⟨trace, next, hrun, hnext, hbridge, hcommands⟩ :=
        run_getline (show .io ∈ { core with io := .getline false }.shared.threads from hthread)
          rfl (by simp) rfl
      refine ⟨_, next, hopen.append hrun, hnext, ?_⟩
      simp [pumpRx, hinitialized, hbridge, hcommands]

end PumpRx

end ArcravenUgv.ReadLines
