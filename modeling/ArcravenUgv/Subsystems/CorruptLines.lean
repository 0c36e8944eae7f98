import ArcravenUgv.Command.Router
import ArcravenUgv.Subsystems.Grammar

/-!
# Lines that should leave the router alone

A line whose fields do not parse makes `pump_rx` go on with the next one.  A
payload that does not decode is only reported to the log, and the envelope is
submitted all the same.
-/

namespace ArcravenUgv.CorruptLines

open ArcravenUgv.Enums
open ArcravenUgv.Command
open ArcravenUgv.Decimal
open ArcravenUgv.CommandLine
open ArcravenUgv.Bridge
open ArcravenUgv.Grammar

variable {Handler : Type*}

/-- The loop body of `pump_rx` as a step of the router. -/
def handleLine (router : CommandRouter Handler) (line : Bytes) : CommandRouter Handler :=
  match lineEnvelope line with
  | none => router
  | some env => (router.submit env).1

/-- One call of `pump_rx` on the bridge and the attached router. -/
def pumpInto (file : Bytes) (bridge : Iceoryx2Bridge) (router : CommandRouter Handler) :
    Iceoryx2Bridge × CommandRouter Handler :=
  let (bridge, envs) := pumpRx file bridge
  (bridge, envs.foldl (fun router env => (router.submit env).1) router)

/-- The part that is decoded as the payload. -/
def payloadPart (line : Bytes) : Bytes := (lineParts line).getD 8 []

instance (line : Bytes) : Decidable (Converts line) :=
  decidable_of_iff
    ((ascii "C|").isPrefixOf (dropCarriageReturn line) = true ∧
      9 ≤ (lineParts line).length ∧
      ∀ part ∈ numberParts (lineParts line), (stoull part.2).isSome = true)
    ⟨fun ⟨htagged, henough, hnumbers⟩ => ⟨htagged, henough, hnumbers⟩,
      fun ⟨htagged, henough, hnumbers⟩ => ⟨htagged, henough, hnumbers⟩⟩

/-- The payload is the base64 encoding of some bytes. -/
def PayloadValid (line : Bytes) : Prop :=
  (Radix64.decode (payloadPart line)).isSome = true

instance (line : Bytes) : Decidable (PayloadValid line) :=
  inferInstanceAs (Decidable (_ = true))

/-- The fields fail to parse, or the payload is no base64. -/
def Corrupt (line : Bytes) : Prop := ¬ Converts line ∨ ¬ PayloadValid line

instance (line : Bytes) : Decidable (Corrupt line) :=
  inferInstanceAs (Decidable (_ ∨ _))

/-- What one call of `pump_rx` makes of the lines it reads. -/
structure CorruptIgnored (Handler : Type*) (file : Bytes) (bridge : Iceoryx2Bridge) :
    Prop where
  submits_nothing : ∀ line ∈ linesFrom file bridge.commandOffset, Corrupt line →
    lineEnvelope line = none ∧
      ∀ router : CommandRouter Handler, handleLine router line = router
  later_unaffected : ∀ router : CommandRouter Handler,
    (pumpInto file bridge router).2 =
      ((linesFrom file bridge.commandOffset).filter fun line => ¬ Corrupt line).foldl
        handleLine router
  payload_own : ∀ line ∈ linesFrom file bridge.commandOffset, ∀ env,
    lineEnvelope line = some env → Radix64.encode env.payloadJson = payloadPart line

/-! ## The loop, line by line -/

theorem pumpInto_eq {file : Bytes} {bridge : Iceoryx2Bridge}
    (hinitialized : bridge.initialized = true) (router : CommandRouter Handler) :
    (pumpInto file bridge router).2 =
      (linesFrom file bridge.commandOffset).foldl handleLine router := by
  simp only [pumpInto, pumpRx, hinitialized, if_true, List.foldl_filterMap]
  congr 1
  funext router line
  unfold handleLine
  cases lineEnvelope line <;> rfl

theorem handleLine_of_none {line : Bytes} (hnone : lineEnvelope line = none)
    (router : CommandRouter Handler) : handleLine router line = router := by
  rw [handleLine, hnone]

/-- Lines that submit nothing may be left out. -/
theorem foldl_handleLine_filter {lines : List Bytes}
    (hnone : ∀ line ∈ lines, Corrupt line → lineEnvelope line = none)
    (router : CommandRouter Handler) :
    (lines.filter fun line => ¬ Corrupt line).foldl handleLine router =
      lines.foldl handleLine router := by
  induction lines generalizing router with
  | nil => rfl
  | cons line lines ih =>
      have hlater : ∀ later ∈ lines, Corrupt later → lineEnvelope later = none :=
        fun later hmem => hnone later (List.mem_cons_of_mem _ hmem)
      by_cases hcorrupt : Corrupt line
      · rw [List.filter_cons_of_neg (by simpa using hcorrupt), List.foldl_cons,
          handleLine_of_none (hnone line (by simp) hcorrupt), ih hlater]
      · rw [List.filter_cons_of_pos (by simpa using hcorrupt), List.foldl_cons,
          List.foldl_cons, ih hlater]

theorem lineEnvelope_of_not_converts {line : Bytes} (hconverts : ¬ Converts line) :
    lineEnvelope line = none := by
  by_contra hsome
  obtain ⟨env, henvelope⟩ := Option.ne_none_iff_exists'.1 hsome
  exact hconverts (converts_of_envelope henvelope)

/-- A base64 payload arrives as the bytes it encodes. -/
theorem encode_payload {line : Bytes} {env : CommandEnvelope}
    (henvelope : lineEnvelope line = some env) (hvalid : PayloadValid line) :
    Radix64.encode env.payloadJson = payloadPart line := by
  obtain ⟨-, -, numbers, -, rfl⟩ := lineEnvelope_eq_some_iff.1 henvelope
  obtain ⟨bytes, hbytes⟩ := Option.isSome_iff_exists.1 hvalid
  have hencode := Radix64.decode_eq_some_iff.1 hbytes
  rw [← payloadPart, ← hencode, Base64.base64Decode_encode]

/-- Corrupt lines are ignored exactly when no line that passes every other check
has a payload that is not base64. -/
theorem corruptIgnored_iff {bridge : Iceoryx2Bridge} (hinitialized : bridge.initialized = true)
    (file : Bytes) :
    CorruptIgnored Handler file bridge ↔
      ∀ line ∈ linesFrom file bridge.commandOffset, Converts line → PayloadValid line := by
  constructor
  · intro hignored line hline hconverts
    by_contra hinvalid
    obtain ⟨env, henvelope⟩ := hconverts.exists_envelope
    have hnone := (hignored.submits_nothing line hline (Or.inr hinvalid)).1
    simp [henvelope] at hnone
  · intro hvalid
    have hnone : ∀ line ∈ linesFrom file bridge.commandOffset, Corrupt line →
        lineEnvelope line = none := by
      intro line hline hcorrupt
      refine lineEnvelope_of_not_converts fun hconverts => ?_
      rcases hcorrupt with hnot | hnot
      · exact hnot hconverts
      · exact hnot (hvalid line hline hconverts)
    refine ⟨fun line hline hcorrupt => ?_, fun router => ?_, fun line hline env henvelope => ?_⟩
    · exact ⟨hnone line hline hcorrupt, handleLine_of_none (hnone line hline hcorrupt)⟩
    · rw [pumpInto_eq hinitialized, foldl_handleLine_filter hnone]
    · exact encode_payload henvelope (hvalid line hline (converts_of_envelope henvelope))

private def readyBridge : Iceoryx2Bridge := { initialized := true, commandOffset := 0 }

/-- An emergency stop whose payload lost a character. -/
private def corruptLine : Bytes := ascii "C|5|700|6|3|2|0|0|AA="

/-- The line with the broken payload is queued, with an empty payload. -/
theorem corrupt_payload_submitted :
    Corrupt corruptLine ∧
      (pumpInto (corruptLine ++ [newline]) readyBridge
        (CommandRouter.create {} : CommandRouter Unit)).2.q.map CommandEnvelope.command =
        [UgvCommand.emergencyStop.wire] ∧
      ¬ CorruptIgnored Unit (corruptLine ++ [newline]) readyBridge := by
  have hcorrupt : Corrupt corruptLine := by decide +kernel
  have hqueued : (pumpInto (corruptLine ++ [newline]) readyBridge
      (CommandRouter.create {} : CommandRouter Unit)).2.q.map CommandEnvelope.command =
      [UgvCommand.emergencyStop.wire] := by
    decide +kernel
  refine ⟨hcorrupt, hqueued, fun hignored => ?_⟩
  have hline : corruptLine ∈ linesFrom (corruptLine ++ [newline]) readyBridge.commandOffset := by
    decide +kernel
  have hnone := (hignored.submits_nothing corruptLine hline hcorrupt).1
  exact absurd hnone (by decide +kernel)

/-- A line with its payload whole between two that do not parse. -/
theorem corruptIgnored_between :
    CorruptIgnored Unit (ascii "C|1|goto|0|0|0|0|0|AA==\nC|2|101|0|0|0|0|0|AA==\nC|3")
      readyBridge :=
  (corruptIgnored_iff rfl _).2 (by decide +kernel)

end ArcravenUgv.CorruptLines
