import ArcravenUgv.Config.Boot

/-!
# Saving while commands are processed

The persist thread hands `state_` to `save` by reference, and `save` reads it
twice: for the CRC and for the bytes it writes.  Between the two passes the
control thread may store another `last_authority`.
-/

namespace ArcravenUgv.PersistRace

open ArcravenUgv.Enums
open ArcravenUgv.Command
open ArcravenUgv.Command.CommandRouter
open ArcravenUgv.Decimal
open ArcravenUgv.Handlers
open ArcravenUgv.StateStore
open ArcravenUgv.Runs
open ArcravenUgv.Runtime

/-- One call of `save`: what its CRC pass read, what happened until the rename,
and the file the rename left in place. -/
structure Save where
  summed : PersistentStateV1
  during : List Event
  file : Option Bytes
  deriving DecidableEq

/-- The calls of `save` in a trace, the one still running and those that ended. -/
structure SaveLog where
  running : Option (PersistentStateV1 × List Event) := none
  ended : List Save := []

/-- What happens while a save is running. -/
def SaveLog.extend (log : SaveLog) (events : List Event) : SaveLog where
  running := log.running.map fun (summed, during) => (summed, during ++ events)
  ended := log.ended

def SaveLog.note (log : SaveLog) : Event → SaveLog
  | .crcPass summed => { log with running := some (summed, []) }
  | .installed file =>
      match log.running with
      | none => log
      | some (summed, during) =>
          { running := none, ended := log.ended ++ [⟨summed, during, file⟩] }
  | event => log.extend [event]

def saveLog (trace : List Event) : SaveLog := trace.foldl SaveLog.note {}

/-- The calls of `save` by the persist thread that left a file in place. -/
def saves (trace : List Event) : List Save := (saveLog trace).ended

/-- `load` accepts the file, and `state_` had the loaded value at some moment
during the save: at the CRC pass, or after a store that followed it. -/
def Save.Sound (save : Save) : Prop :=
  ∃ state, load save.file = some state ∧
    (state = save.summed ∨ .stored state ∈ save.during)

/-! ## What a save has written -/

/-- The states agree but for `last_authority`. -/
def Alike (left right : PersistentStateV1) : Prop :=
  right = { left with lastAuthority := right.lastAuthority }

theorem Alike.refl (state : PersistentStateV1) : Alike state state := rfl

/-- The file is the one its two passes make, over states that are alike. -/
def Save.Genuine (save : Save) : Prop :=
  ∃ written, (∀ other, .writePass other ∈ save.during ↔ other = written) ∧
    save.file = some (savedFile save.summed written) ∧ Alike save.summed written

/-- Where the running call of `save` stands. -/
def Underway (log : SaveLog) (shared : Shared) : PersistPc → Prop
  | .writePass summed => ∃ during, log.running = some (summed, during) ∧
      (∀ other, .writePass other ∉ during) ∧ Alike summed shared.state
  | .rename summed written => ∃ during, log.running = some (summed, during) ∧
      (∀ other, .writePass other ∈ during ↔ other = written) ∧ Alike summed written ∧
        shared.disk.tmp = some (savedFile summed written)
  | _ => True

structure Saving (trace : List Event) (core : Core) : Prop where
  underway : Underway (saveLog trace) core.shared core.persist
  ended : ∀ save ∈ saves trace, save.Genuine

theorem saveLog_append (trace events : List Event) :
    saveLog (trace ++ events) = events.foldl SaveLog.note (saveLog trace) := by
  rw [saveLog, List.foldl_append, saveLog]

/-- The passes and the rename. -/
def OfSave : Event → Prop
  | .crcPass _ | .writePass _ | .installed _ => True
  | _ => False

theorem foldl_note_quiet (log : SaveLog) {events : List Event}
    (hquiet : ∀ event ∈ events, ¬ OfSave event) :
    events.foldl SaveLog.note log = log.extend events := by
  induction events generalizing log with
  | nil =>
      obtain ⟨running, ended⟩ := log
      cases running <;> simp [SaveLog.extend]
  | cons event events ih =>
      have hnote : log.note event = log.extend [event] := by
        have hevent := hquiet event (by simp)
        cases event <;> first | rfl | exact absurd trivial hevent
      rw [List.foldl_cons, hnote, ih _ fun other hother => hquiet other (by simp [hother])]
      obtain ⟨running, ended⟩ := log
      cases running <;> simp [SaveLog.extend]

/-- A step of another thread during a save may only store another
`last_authority`. -/
theorem Saving.quiet {trace events : List Event} {core next : Core}
    (hsaving : Saving trace core) (hquiet : ∀ event ∈ events, ¬ OfSave event)
    (hpersist : next.persist = core.persist)
    (hframe : core.persist ≠ .start → core.persist ≠ .exited →
      Alike core.shared.state next.shared.state ∧ next.shared.disk = core.shared.disk) :
    Saving (trace ++ events) next := by
  have hnone : ∀ other, .writePass other ∉ events := fun other hmem => hquiet _ hmem trivial
  refine ⟨?_, ?_⟩
  · have hunderway := hsaving.underway
    rw [hpersist, saveLog_append, foldl_note_quiet _ hquiet]
    cases hpc : core.persist with
    | writePass summed =>
        rw [hpc] at hunderway
        obtain ⟨during, hrunning, hwrite, halike⟩ := hunderway
        obtain ⟨hstate, -⟩ := hframe (by simp [hpc]) (by simp [hpc])
        refine ⟨during ++ events, by simp [SaveLog.extend, hrunning], ?_, ?_⟩
        · intro other hmem
          exact (List.mem_append.1 hmem).elim (hwrite other) (hnone other)
        · rw [Alike] at hstate halike ⊢
          rw [hstate, halike]
    | rename summed written =>
        rw [hpc] at hunderway
        obtain ⟨during, hrunning, hwrite, halike, htmp⟩ := hunderway
        obtain ⟨-, hdisk⟩ := hframe (by simp [hpc]) (by simp [hpc])
        refine ⟨during ++ events, by simp [SaveLog.extend, hrunning], ?_, halike,
          by rw [hdisk, htmp]⟩
        intro other
        rw [List.mem_append, ← hwrite other]
        exact or_iff_left (hnone other)
    | _ => trivial
  · rw [saves, saveLog_append, foldl_note_quiet _ hquiet]
    exact hsaving.ended

theorem Saving.persist {trace events : List Event} {core : Core} {shared : Shared}
    {pc : PersistPc} (hsaving : Saving trace core)
    (hmoves : PersistMoves core.shared core.persist shared pc events) :
    Saving (trace ++ events) { core with shared := shared, persist := pc } := by
  have hunderway := hsaving.underway
  have hended := hsaving.ended
  rw [saves] at hended
  cases hmoves with
  | advance next hpc hnext =>
      rw [List.append_nil]
      refine ⟨?_, hended⟩
      rcases hnext with rfl | rfl | rfl <;> trivial
  | exit hpc =>
      rw [List.append_nil]
      exact ⟨trivial, hended⟩
  | crcPass hpc =>
      refine ⟨?_, ?_⟩
      · rw [saveLog_append]
        exact ⟨[], rfl, by simp, Alike.refl _⟩
      · rw [saves, saveLog_append]
        exact hended
  | writePass summed hpc =>
      rw [hpc] at hunderway
      obtain ⟨during, hrunning, hwrite, halike⟩ := hunderway
      refine ⟨?_, ?_⟩
      · rw [saveLog_append]
        refine ⟨during ++ [.writePass core.shared.state], ?_, ?_, halike, rfl⟩
        · simp [SaveLog.note, SaveLog.extend, hrunning]
        · intro other
          simp [hwrite]
      · rw [saves, saveLog_append]
        exact hended
  | rename summed written hpc =>
      rw [hpc] at hunderway
      obtain ⟨during, hrunning, hwrite, halike, htmp⟩ := hunderway
      refine ⟨trivial, ?_⟩
      rw [saves, saveLog_append]
      simp only [List.foldl_cons, List.foldl_nil, SaveLog.note, hrunning, List.mem_append,
        List.mem_singleton]
      rintro save (hold | rfl)
      · exact hended save hold
      · exact ⟨written, hwrite, htmp, halike⟩

/-- `run` itself touches `state_` and its file only before the persist thread
starts and after it has ended. -/
theorem main_frame {core : Core} {shared : Shared} {pc : MainPc} {events : List Event}
    (hboot : Boot core) (hmoves : MainMoves core.shared core.main shared pc events)
    (hstart : core.persist ≠ .start) (hexited : core.persist ≠ .exited) :
    shared.state = core.shared.state ∧ shared.disk = core.shared.disk := by
  have hstarted : .persist ∈ core.main.started := by
    by_contra hnot
    exact hstart (hboot.idle .persist hnot)
  have hjoined : .persist ∉ core.main.joined := fun hmem =>
    hexited (hboot.finished .persist (hboot.joined .persist hmem))
  cases hmoves <;>
    simp_all [MainPc.started, MainPc.joined, allThreads, runtimeThreads]

theorem Saving.moves {trace events : List Event} {world : World} {core next : Core}
    {thread : Thread} (hboot : Boot core) (hsaving : Saving trace core)
    (hmoves : Moves world core thread next events) : Saving (trace ++ events) next := by
  cases hmoves with
  | persist shared pc events hthread hmoves => exact hsaving.persist hmoves
  | main shared pc events hmoves =>
      refine hsaving.quiet (by cases hmoves <;> simp [OfSave]) rfl fun hstart hexited => ?_
      obtain ⟨hstate, hdisk⟩ := main_frame hboot hmoves hstart hexited
      exact ⟨by rw [show shared.state = core.shared.state from hstate]; exact Alike.refl _,
        hdisk⟩
  | control shared pc events hthread hmoves =>
      cases hmoves with
      | handle nowNs left cmd before after shared events hpc hhandler =>
          cases hhandler <;>
            exact hsaving.quiet (by simp [OfSave]) rfl fun _ _ => ⟨rfl, rfl⟩
      | _ => exact hsaving.quiet (by simp [OfSave]) rfl fun _ _ => ⟨rfl, rfl⟩
  | estop shared pc events hthread hmoves | sensor shared pc events hthread hmoves
  | io shared pc events hthread hmoves =>
      cases hmoves <;> exact hsaving.quiet (by simp [OfSave]) rfl fun _ _ => ⟨rfl, rfl⟩
  | append => exact hsaving.quiet (by simp) rfl fun _ _ => ⟨rfl, rfl⟩

theorem Saving.run {allowed : Core → Thread × World → Prop} {dir : DataDir}
    {trace : List Event} {core : Core}
    (hrun : Run system allowed (powerOn dir) trace core) : Saving trace core := by
  refine hrun.invariant Saving ⟨trivial, by simp [saves, saveLog]⟩ ?_
  intro trace core label next events hrun hsaving _ hstep
  exact hsaving.moves (Boot.run hrun) (moves_of_step hstep)

/-! ## When the file loads -/

/-- Over alike states the CRC matches only if the authority is the same. -/
theorem load_savedFile_of_ne {summed written : PersistentStateV1}
    (halike : Alike summed written) (hne : written.lastAuthority ≠ summed.lastAuthority) :
    load (some (savedFile summed written)) = none := by
  rw [savedFile, load_header_state, if_neg]
  have hbytes (state : PersistentStateV1) : stateBytes state =
      (word32 state.schemaVersion ++ word32 state.reserved ++ [state.calibratedOk]) ++
        state.lastAuthority :: word16 state.padding := by
    simp [stateBytes]
  rw [halike, hbytes summed, hbytes { summed with lastAuthority := written.lastAuthority }]
  exact crc32Ieee_ne_of_one_byte _ _ hne

theorem Save.Genuine.sound_iff {save : Save} (hgenuine : save.Genuine) :
    ∃ written, (∀ other, .writePass other ∈ save.during ↔ other = written) ∧
      (save.Sound ↔ written.lastAuthority = save.summed.lastAuthority) := by
  obtain ⟨written, hwrite, hfile, halike⟩ := hgenuine
  refine ⟨written, hwrite, ?_⟩
  constructor
  · rintro ⟨state, hload, -⟩
    by_contra hne
    rw [hfile, load_savedFile_of_ne halike hne] at hload
    cases hload
  · intro hsame
    have hwritten : written = save.summed := by
      rw [halike, hsame]
    refine ⟨save.summed, ?_, Or.inl rfl⟩
    rw [hfile, hwritten]
    exact load_fileImage save.summed

/-- In every run a save leaves a file that loads, as a state that was current
during the save, exactly when its two passes read the same `last_authority`. -/
theorem save_sound_iff_same_authority (dir : DataDir) (trace : List Event) (core : Core)
    (hrun : Run system always (powerOn dir) trace core) :
    ∀ save ∈ saves trace, ∃ written,
      (∀ other, .writePass other ∈ save.during ↔ other = written) ∧
        (save.Sound ↔ written.lastAuthority = save.summed.lastAuthority) :=
  fun save hsave => ((Saving.run hrun).ended save hsave).sound_iff

private def follow : CommandEnvelope := { plainCommand .followPath 1 with authority := 3 }

private def followed : CommandResult := accepted (ascii "FollowPath accepted (stub)")

/-- `state_` once the command has been reported. -/
private def remoteState : PersistentStateV1 := { coldState with lastAuthority := 3 }

/-- From the command's dequeue to its report. -/
private def following : List Event :=
  [.dequeued follow 0, .handlerCalled follow, .processed follow followed, .stored remoteState]

private def saving (summed written : PersistentStateV1) : List Event :=
  [.writePass written, .installed (some (savedFile summed written))]

private def followDir : DataDir := freshDir (ascii "C|1|100|0|0|3|0|0|AA==\n")

private def reportedTrace : List Event :=
  [submitted 0 "C|1|100|0|0|3|0|0|AA==" follow, .stored coldState] ++ following ++
    [.crcPass remoteState] ++ saving remoteState remoteState

/-- A command reported before the save starts: both passes read the same. -/
theorem save_sound_after_report :
    ∃ core, Run system always (powerOn followDir) reportedTrace core ∧
      ∃ written, (∀ other, .writePass other ∈ [Event.writePass remoteState] ↔ other = written) ∧
        (Save.Sound ⟨remoteState, [.writePass remoteState],
            some (savedFile remoteState remoteState)⟩ ↔
          written.lastAuthority = remoteState.lastAuthority) := by
  obtain ⟨core, hrun⟩ := exists_run_of_trace system always (powerOn followDir)
    (bootSchedule ++ times 5 .io ++ times 8 .control ++ times 5 .persist)
    (show _ = some reportedTrace by decide +kernel)
  exact ⟨core, hrun, save_sound_iff_same_authority _ _ core hrun
    ⟨remoteState, [.writePass remoteState], some (savedFile remoteState remoteState)⟩
    (List.mem_singleton.2 rfl)⟩

/-- A command reported between the passes: the file does not load. -/
theorem save_unsound_between_passes :
    ∃ (dir : DataDir) (trace : List Event) (core : Core),
      Run system always (powerOn dir) trace core ∧ ∃ save ∈ saves trace, ¬ save.Sound := by
  obtain ⟨core, hrun⟩ := exists_run_of_trace system always
    (powerOn (freshDir (ascii "C|1|100|0|0|3|0|0|AA==\n")))
    (bootSchedule ++ times 5 .io ++ times 1 .control ++ times 3 .persist ++
      times 7 .control ++ times 2 .persist)
    (show _ = some ([submitted 0 "C|1|100|0|0|3|0|0|AA==" follow, .stored coldState,
      .crcPass coldState] ++ following ++ saving coldState remoteState) by decide +kernel)
  refine ⟨_, _, core, hrun, ⟨coldState, following ++ [.writePass remoteState],
    some (savedFile coldState remoteState)⟩, List.mem_singleton.2 rfl, ?_⟩
  rintro ⟨state, hload, -⟩
  have hrefused : load (some (savedFile coldState remoteState)) = none :=
    load_savedFile_of_ne (show Alike coldState remoteState from rfl) (by decide)
  rw [hrefused] at hload
  cases hload

end ArcravenUgv.PersistRace
