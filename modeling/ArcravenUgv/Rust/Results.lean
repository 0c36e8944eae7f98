import ArcravenUgv.Rust.Drain

/-!
# Draining one command result

`publish_command_result` puts `/` for the bars of the message and nothing for
its newlines; the client trims the line before it takes it apart.
-/

namespace ArcravenUgv.Results

open ArcravenUgv.Enums
open ArcravenUgv.Command
open ArcravenUgv.Decimal
open ArcravenUgv.Delimited
open ArcravenUgv.CommandLine
open ArcravenUgv.Bridge
open ArcravenUgv.RustText
open ArcravenUgv.RustRecords
open ArcravenUgv.RoundTrip
open ArcravenUgv.Drain

variable {F64 : Type}

/-- The published result with its bars replaced. -/
def sentResult (commandId : UInt64) (result : CommandResult) : CommandResultEvent where
  commandId := commandId
  result := { result with message := sanitize result.message }

/-- Draining the bytes of one `publish_command_result` call, which stand behind
what has been read before, adds that result and no frame. -/
def ResultDelivered (parse : Bytes → Option F64) (commandId : UInt64) (result : CommandResult) :
    Prop :=
  ∀ (before : Bytes) (transport : Iceoryx2Transport F64),
    transport.telemetryOffset = before.length →
      let after := (drainLines parse (before ++ publishCommandResult commandId result)
        transport).1
      after.pendingTelemetry = transport.pendingTelemetry ∧
        after.pendingResults = transport.pendingResults ++ [sentResult commandId result]

/-! ## A message without newlines -/

section Line

variable {parse : Bytes → Option F64} {commandId : UInt64} {result : CommandResult}

/-- The line has lost the white space behind the message. -/
theorem trimEnd_resultLine (commandId : UInt64) (result : CommandResult) :
    trimEnd (resultLine commandId result) =
      resultLine commandId { result with message := trimEnd (sanitize result.message) } := by
  have hbar : bar ∉ trimEnd (sanitize result.message) := fun hmem =>
    bar_not_mem_sanitize result.message ((isPrefix_trimEnd _).subset hmem)
  have hsplit : ∀ message, joined bar [ascii "R", decimal commandId.toNat,
      decimal result.status.wire.toNat, decimal result.rejectReason.wire.toNat, message] =
      joined bar [ascii "R", decimal commandId.toNat, decimal result.status.wire.toNat,
        decimal result.rejectReason.wire.toNat] ++ bar :: message :=
    fun message => joined_concat bar (ascii "R") message [decimal commandId.toNat,
      decimal result.status.wire.toNat, decimal result.rejectReason.wire.toNat]
  rw [resultLine, resultLine, sanitize_of_not_mem hbar, hsplit, hsplit, trimEnd_append_bar]

theorem resultOf_resultLine (commandId : UInt64) (result : CommandResult) :
    resultOf (resultLine commandId result ++ [newline]) =
      some (receivedResult commandId
        { result with message := trimEnd (sanitize result.message) }) := by
  rw [resultOf, trimEnd_append_newline, trimEnd_resultLine, parseResultLine_resultLine]

theorem parseTelemetryLine_resultLine (parse : Bytes → Option F64) (commandId : UInt64)
    (result : CommandResult) :
    parseTelemetryLine parse (trimEnd (resultLine commandId result ++ [newline])) =
      .error .none := by
  have htag : ascii "R" ≠ ascii "T" := by decide
  rw [trimEnd_append_newline, trimEnd_resultLine, parseTelemetryLine, splitOn_resultLine]
  simp [htag]

/-- A message on one line arrives trimmed. -/
theorem drainLines_result (hutf8 : Utf8.valid result.message = true)
    (hnewline : newline ∉ result.message) {before : Bytes} {transport : Iceoryx2Transport F64}
    (hoffset : transport.telemetryOffset = before.length) :
    let after := (drainLines parse (before ++ publishCommandResult commandId result) transport).1
    after.pendingTelemetry = transport.pendingTelemetry ∧
      after.pendingResults = transport.pendingResults ++
        [receivedResult commandId
          { result with message := trimEnd (sanitize result.message) }] := by
  have hrecords : records newline
      ((before ++ publishCommandResult commandId result).drop before.length) =
        [resultLine commandId result ++ [newline]] := by
    rw [List.drop_left, publishCommandResult_eq,
      records_append_delim (newline_not_mem_resultLine commandId hnewline), records_nil]
  have hvalid : Utf8.valid (resultLine commandId result ++ [newline]) = true := by
    rw [Utf8.valid_append (valid_resultLine commandId hutf8)]
    rfl
  have hparse := parseTelemetryLine_resultLine parse commandId result
  have hpanics : ¬ Panics parse (resultLine commandId result ++ [newline]) := by
    rw [Panics, hparse]
    simp
  have hframe : frameOf parse (resultLine commandId result ++ [newline]) = none := by
    rw [frameOf, hparse]
    rfl
  rw [drainLines, hoffset, hrecords, drainRecords, if_pos hvalid,
    drainLine_of_not_panics hpanics]
  simp [drainRecords, Iceoryx2Transport.take, hframe, resultOf_resultLine]

end Line

/-! ## No result holds a newline -/

theorem message_of_parseResultLine {line : Bytes} {event : CommandResultEvent}
    (hparse : parseResultLine line = some event) : event.result.message ⊆ line := by
  simp only [parseResultLine, Option.bind_eq_bind, Option.bind_eq_some_iff, Prod.exists,
    next_eq_some_iff] at hparse
  obtain ⟨tag, parts, hsplit, hparse⟩ := hparse
  split_ifs at hparse
  simp only [Option.bind_eq_some_iff, Prod.exists, next_eq_some_iff] at hparse
  obtain ⟨_, _, rfl, _, -, _, _, rfl, _, -, _, last, rfl, _, -, hparse⟩ := hparse
  obtain rfl := Option.some.inj hparse
  cases last with
  | nil => exact List.nil_subset _
  | cons message others =>
      have hmem : message ∈ line.splitOn bar := by
        rw [hsplit]
        simp
      exact (not_mem_of_mem_splitOn hmem).2

theorem newline_not_mem_resultOf {text line : Bytes} (hline : line ∈ records newline text)
    {event : CommandResultEvent} (hresult : resultOf line = some event) :
    newline ∉ event.result.message := fun hmem =>
  newline_not_mem_trimEnd hline (message_of_parseResultLine hresult hmem)

/-! ## Which results arrive -/

theorem sanitize_trimmed_iff {message : Bytes} :
    Trimmed (sanitize message) ↔ Trimmed message := by
  constructor
  · intro htrimmed front char heq
    apply Bool.eq_false_iff.2
    intro hspace
    -- White space holds no bar, so it stands in the sanitised message as it is.
    have hbar : bar ∉ char := by
      intro hbar
      rw [isWhiteSpace_of_bar_mem hbar] at hspace
      cases hspace
    have hsplit : sanitize message = sanitize front ++ char := by
      calc
        sanitize message = sanitize front ++ sanitize char := by
          rw [heq, sanitize, List.map_append, sanitize, sanitize]
        _ = sanitize front ++ char := by rw [sanitize_of_not_mem hbar]
    rw [htrimmed _ _ hsplit] at hspace
    cases hspace
  · exact trimmed_sanitize

theorem newline_mem_sanitize {message : Bytes} (hnewline : newline ∈ message) :
    newline ∈ sanitize message :=
  List.mem_map.2 ⟨newline, hnewline, by decide⟩

theorem receivedReason_eq_iff {reason : RejectReason} :
    receivedReason reason = reason ↔ reason ≠ .safetyLockout := by
  cases reason <;> simp [receivedReason]

variable {parse : Bytes → Option F64} {commandId : UInt64} {result : CommandResult}

theorem newline_not_mem_of_resultDelivered
    (hdelivered : ResultDelivered parse commandId result) : newline ∉ result.message := by
  intro hnewline
  have hresults := (hdelivered [] Iceoryx2Transport.new rfl).2
  obtain ⟨taken, htaken, -, hadded⟩ := exists_taken parse Iceoryx2Transport.new
    (records newline (([] ++ publishCommandResult commandId result).drop 0))
  have hsame := List.append_cancel_left (hresults.symm.trans hadded)
  have hmem : sentResult commandId result ∈ taken.filterMap resultOf := by
    rw [← hsame]
    exact List.mem_singleton_self _
  obtain ⟨line, hline, hresult⟩ := List.mem_filterMap.1 hmem
  exact newline_not_mem_resultOf (htaken.subset hline) hresult (newline_mem_sanitize hnewline)

theorem received_eq_sent_iff (commandId : UInt64) (result : CommandResult) :
    receivedResult commandId { result with message := trimEnd (sanitize result.message) } =
      sentResult commandId result ↔
        Trimmed result.message ∧ result.rejectReason ≠ .safetyLockout := by
  have hbar : bar ∉ trimEnd (sanitize result.message) := fun hmem =>
    bar_not_mem_sanitize result.message ((isPrefix_trimEnd _).subset hmem)
  rw [← sanitize_trimmed_iff, trimmed_iff, ← receivedReason_eq_iff]
  simp only [receivedResult, sentResult, sanitize_of_not_mem hbar, CommandResultEvent.mk.injEq,
    CommandResult.mk.injEq, true_and]
  exact and_comm

/-- A result arrives as it was published exactly when its message is one line
that does not end in white space, and the client knows its reason. -/
theorem resultDelivered_iff (parse : Bytes → Option F64) (commandId : UInt64)
    {result : CommandResult} (hutf8 : Utf8.valid result.message = true) :
    ResultDelivered parse commandId result ↔
      newline ∉ result.message ∧ Trimmed result.message ∧
        result.rejectReason ≠ .safetyLockout := by
  constructor
  · intro hdelivered
    have hnewline := newline_not_mem_of_resultDelivered hdelivered
    have hresults := (hdelivered [] Iceoryx2Transport.new rfl).2
    rw [(drainLines_result hutf8 hnewline rfl).2] at hresults
    have hsame := List.singleton_injective (List.append_cancel_left hresults)
    exact ⟨hnewline, (received_eq_sent_iff commandId result).1 hsame⟩
  · rintro ⟨hnewline, harrives⟩ before transport hoffset
    rw [← (received_eq_sent_iff commandId result).2 harrives]
    exact drainLines_result hutf8 hnewline hoffset

private def refusal (message : Bytes) : CommandResult where
  status := .rejected
  rejectReason := .unsupported
  message := message

/-- The message of the command router, with a bar. -/
theorem refusal_delivered :
    ResultDelivered parseWhole 7 (refusal (ascii "no handler|retry")) := by
  apply (resultDelivered_iff parseWhole 7 _).2
  · decide +kernel
  · decide +kernel

/-- A second line is dropped, and a space at the end is lost. -/
theorem message_cut :
    (drainLines parseWhole (publishCommandResult 7 (refusal (ascii "no handler\nretry")))
      Iceoryx2Transport.new).1.pendingResults = [sentResult 7 (refusal (ascii "no handler"))] ∧
    (drainLines parseWhole (publishCommandResult 7 (refusal (ascii "retry ")))
      Iceoryx2Transport.new).1.pendingResults = [sentResult 7 (refusal (ascii "retry"))] ∧
    ¬ ResultDelivered parseWhole 7 (refusal (ascii "no handler\nretry")) ∧
    ¬ ResultDelivered parseWhole 7 (refusal (ascii "retry ")) := by
  have hlines : (drainLines parseWhole
      (publishCommandResult 7 (refusal (ascii "no handler\nretry")))
      Iceoryx2Transport.new).1.pendingResults = [sentResult 7 (refusal (ascii "no handler"))] := by
    decide +kernel
  have hspace : (drainLines parseWhole (publishCommandResult 7 (refusal (ascii "retry ")))
      Iceoryx2Transport.new).1.pendingResults = [sentResult 7 (refusal (ascii "retry"))] := by
    decide +kernel
  refine ⟨hlines, hspace, fun hdelivered => ?_, fun hdelivered => ?_⟩
  · have hresults := (hdelivered [] Iceoryx2Transport.new rfl).2
    simp only [List.nil_append, hlines] at hresults
    exact absurd hresults (by decide +kernel)
  · have hresults := (hdelivered [] Iceoryx2Transport.new rfl).2
    simp only [List.nil_append, hspace] at hresults
    exact absurd hresults (by decide +kernel)

end ArcravenUgv.Results
