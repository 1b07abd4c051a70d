import PigTree.Cli.ScanCommand
import PigTree.Protocol.JsonDocuments

/-!
# The event stream of a scan

What a consumer reads from the lines of a scan in NDJSON mode, and when these lines are
one ordered operation.
-/

namespace PigTree

open Foundation

namespace Json

/-! ### Reading a line -/

def operationIdOf (line : String) : Option String :=
  match (JsonText.parse line).bind (JsonValue.field? "operation_id") with
  | some (.string operationId) => some operationId
  | _ => none

def sequenceNumberOf (line : String) : Option ℚ :=
  match (JsonText.parse line).bind (JsonValue.field? "sequence_number") with
  | some (.number number) => some number
  | _ => none

/-- The outcome a terminal event reports; other events report none. -/
def runOutcomeOf (line : String) : Option String :=
  match ((JsonText.parse line).bind (JsonValue.field? "payload")).bind
    (JsonValue.field? "run_outcome") with
  | some (.string outcome) => some outcome
  | _ => none

/-- The lines of one operation, numbered in order and ended by their only terminal event. -/
structure OneOperation (lines : List String) : Prop where
  single : ∀ line ∈ lines, '\n' ∉ line.toList
  operation : ∃ operationId, ∀ line ∈ lines, operationIdOf line = some operationId
  increasing : ∃ numbers : List ℚ, lines.map sequenceNumberOf = numbers.map some ∧
    numbers.Pairwise (· < ·)
  terminal : ∃ earlier last, lines = earlier ++ [last] ∧ (runOutcomeOf last).isSome ∧
    ∀ line ∈ earlier, runOutcomeOf line = none

/-- What one line says. -/
structure EventLine (line operationId : String) (sequenceNumber : UInt64)
    (outcome : Option String) : Prop where
  single : '\n' ∉ line.toList
  operation : operationIdOf line = some operationId
  number : sequenceNumberOf line = some (sequenceNumber.toNat : ℚ)
  outcome : runOutcomeOf line = outcome

theorem Renders.eventLine {line operationId timestamp phase channel : String}
    {sequenceNumber : UInt64} {payload : List (String × JsonValue)} {outcome : Option String}
    (renders : Renders line
      (.object (eventMembers operationId sequenceNumber timestamp phase channel payload)))
    (reports : payload.lookup "run_outcome" = outcome.map .string) :
    EventLine line operationId sequenceNumber outcome := by
  have parsed := renders.isText.parse_eq
  constructor
  · intro newline
    have visible := renders.printable _ newline
    revert visible
    decide
  · rw [operationIdOf, parsed]
    rfl
  · rw [sequenceNumberOf, parsed]
    rfl
  · have read : ((JsonText.parse line).bind (JsonValue.field? "payload")).bind
        (JsonValue.field? "run_outcome") = payload.lookup "run_outcome" := by
      rw [parsed]
      rfl
    rw [runOutcomeOf, read, reports]
    cases outcome with
    | none => rfl
    | some outcome => rfl

theorem eventLine_progress (p : ScanProgress) :
    EventLine (formatScanProgressNdjsonEvent p) p.operationId p.sequenceNumber none :=
  (renders_progress p).eventLine rfl

theorem eventLine_terminal (resp : ScanResponse) (sequenceNumber : UInt64) :
    EventLine (formatScanTerminalNdjsonEvent resp sequenceNumber) resp.operationId sequenceNumber
      (some (scanRunOutcomeToStr resp.runOutcome)) :=
  (renders_printedTerminalEvent resp sequenceNumber).eventLine rfl

theorem renders_cancelled (now operationId message : String) (sequenceNumber : UInt64)
    (timestampIso : Option String) : ∃ timestamp,
      Renders (formatScanCancelledNdjsonEvent now operationId sequenceNumber timestampIso message)
        (.object (eventMembers operationId sequenceNumber timestamp "finalizing" "data" [
          ("run_outcome", .string "cancelled"),
          ("status", .string "cancelled"),
          ("message", .string message)])) := by
  refine ⟨_, renders_event (renders_quoted rfl) (renders_quoted rfl) (renders_object
    (.cons (member rfl (renders_quoted rfl))
    (.cons (member rfl (renders_quoted rfl))
    (.cons (member rfl (renders_string _)) .nil))) ?_)⟩
  simp only [List.map_cons, List.map_nil]
  decide

theorem eventLine_cancelled (now operationId message : String) (sequenceNumber : UInt64)
    (timestampIso : Option String) :
    EventLine (formatScanCancelledNdjsonEvent now operationId sequenceNumber timestampIso message)
      operationId sequenceNumber (some "cancelled") := by
  rcases renders_cancelled now operationId message sequenceNumber timestampIso with
    ⟨timestamp, renders⟩
  exact renders.eventLine rfl

/-! ### Lines of one operation -/

section Lines

variable {progress : List ScanProgress} {line operationId terminalId outcome : String}
  {number : UInt64} (same : ∀ p ∈ progress, p.operationId = operationId)
  (increasing : progress.Pairwise (fun p q => p.sequenceNumber < q.sequenceNumber))
  (ends : EventLine line terminalId number (some outcome))

include ends

theorem sequenceNumbers_eq :
    (progress.map formatScanProgressNdjsonEvent ++ [line]).map sequenceNumberOf =
      (progress.map (fun p => (p.sequenceNumber.toNat : ℚ)) ++ [(number.toNat : ℚ)]).map some := by
  have each : (progress.map formatScanProgressNdjsonEvent).map sequenceNumberOf =
      (progress.map (fun p => (p.sequenceNumber.toNat : ℚ))).map some := by
    rw [List.map_map, List.map_map]
    apply List.map_congr_left
    intro p _
    rw [Function.comp_apply, Function.comp_apply, (eventLine_progress p).number]
  rw [List.map_append, List.map_append, List.map_singleton, List.map_singleton, each, ends.number]

include same increasing

/-- Progress lines of one operation and a terminal line are one operation if the terminal
line carries its identifier and the largest number. -/
theorem oneOperation_iff :
    OneOperation (progress.map formatScanProgressNdjsonEvent ++ [line]) ↔
      (progress ≠ [] → terminalId = operationId) ∧ ∀ p ∈ progress, p.sequenceNumber < number := by
  constructor
  · intro one
    constructor
    · intro nonempty
      rcases one.operation with ⟨common, carries⟩
      rcases List.exists_mem_of_ne_nil _ nonempty with ⟨p, mem⟩
      have first := carries _ (List.mem_append_left _ (List.mem_map_of_mem mem))
      have last := carries line (List.mem_append_right _ List.mem_cons_self)
      rw [(eventLine_progress p).operation, same p mem, Option.some.injEq] at first
      rw [ends.operation, Option.some.injEq] at last
      rw [first, last]
    · rcases one.increasing with ⟨numbers, read, grows⟩
      rw [sequenceNumbers_eq ends] at read
      have numbersEq := List.map_injective_iff.mpr (Option.some_injective ℚ) read
      rw [← numbersEq, List.pairwise_append] at grows
      intro p mem
      have below := grows.2.2 _ (List.mem_map_of_mem mem) _ List.mem_cons_self
      exact UInt64.lt_iff_toNat_lt.mpr (Nat.cast_lt.mp below)
  · rintro ⟨carries, below⟩
    constructor
    · intro other mem
      rcases List.mem_append.mp mem with mem | mem
      · rcases List.mem_map.mp mem with ⟨p, _, rfl⟩
        exact (eventLine_progress p).single
      · rw [List.mem_singleton.mp mem]
        exact ends.single
    · refine ⟨terminalId, ?_⟩
      intro other mem
      rcases List.mem_append.mp mem with mem | mem
      · rcases List.mem_map.mp mem with ⟨p, pMem, rfl⟩
        rw [(eventLine_progress p).operation, same p pMem, carries (List.ne_nil_of_mem pMem)]
      · rw [List.mem_singleton.mp mem]
        exact ends.operation
    · refine ⟨_, sequenceNumbers_eq ends, ?_⟩
      rw [List.pairwise_append, List.pairwise_map]
      refine ⟨?_, List.pairwise_singleton _ _, ?_⟩
      · exact increasing.imp (fun less => Nat.cast_lt.mpr (UInt64.lt_iff_toNat_lt.mp less))
      · intro first firstMem last lastMem
        rcases List.mem_map.mp firstMem with ⟨p, mem, rfl⟩
        rw [List.mem_singleton.mp lastMem]
        exact Nat.cast_lt.mpr (UInt64.lt_iff_toNat_lt.mp (below p mem))
    · refine ⟨_, line, rfl, ?_, ?_⟩
      · rw [ends.outcome]
        rfl
      · intro other mem
        rcases List.mem_map.mp mem with ⟨p, _, rfl⟩
        exact (eventLine_progress p).outcome

end Lines

end Json

/-! ### The lines of the subcommand -/

open ScanCall

variable {decode : List UInt8 → Option CommandResponse} {seq : UInt64} {earlier : List Tick}
  {last : Tick} {call : ScanCall} {progress : List ScanProgress}
  {result : Except IpcError ScanCallOutcome} {operationId : String} {now : String}
  {errorText : IpcError → String}

theorem scanOperationId_ne_scan (seq : UInt64) : scanOperationId seq ≠ "scan" := by
  intro same
  have chars := congrArg String.toList same
  rw [scanOperationId, String.toList_append] at chars
  simp at chars

/-- The line that ends a stream without a response names no scan. -/
theorem oneOperation_cancelled_iff (ordered : Ordered (scanOperationId seq) call) :
    Json.OneOperation
        (scanCommand now errorText .ndjson call.progress (.error .cancelled)).stdout ↔
      call.progress = [] := by
  have lines := Json.oneOperation_iff ordered.sameOperation ordered.increasing
    (Json.eventLine_cancelled now "scan" "Scan operation cancelled by user"
      (lastSequenceNumber call.progress + 1) none)
  refine Iff.trans lines ?_
  constructor
  · rintro ⟨named, _⟩
    by_contra nonempty
    exact scanOperationId_ne_scan seq (named nonempty).symm
  · intro empty
    rw [empty]
    exact ⟨fun nonempty => absurd rfl nonempty, nofun⟩

/-- The line of a response names its scan; its number is the next one unless that wraps. -/
theorem oneOperation_settled_iff (ordered : Ordered operationId call) {outcome : ScanCallOutcome}
    (same : outcome.response.operationId = operationId) :
    Json.OneOperation (scanCommand now errorText .ndjson call.progress (.ok outcome)).stdout ↔
      call.lastProgressSeq.toNat + 1 < 2 ^ 64 := by
  have printed : (scanCommand now errorText .ndjson call.progress (.ok outcome)).stdout =
      call.progress.map Json.formatScanProgressNdjsonEvent ++
        [Json.formatScanTerminalNdjsonEvent outcome.response (call.lastProgressSeq + 1)] := by
    rw [← ordered.last]
    cases outcome <;> rfl
  rw [printed]
  refine Iff.trans (Json.oneOperation_iff ordered.sameOperation ordered.increasing
    (Json.eventLine_terminal outcome.response (call.lastProgressSeq + 1))) ?_
  have number : (call.lastProgressSeq + 1).toNat = (call.lastProgressSeq.toNat + 1) % 2 ^ 64 := by
    rw [UInt64.toNat_add]
    rfl
  constructor
  · rintro ⟨_, below⟩
    by_contra full
    have bound := call.lastProgressSeq.toNat_lt
    have wraps : (call.lastProgressSeq + 1).toNat = 0 := by omega
    have nonempty : call.progress ≠ [] := by
      intro empty
      have zero : call.lastProgressSeq = 0 := by
        rw [← ordered.last, empty]
        rfl
      rw [zero] at full
      exact full (by decide)
    rcases List.exists_mem_of_ne_nil _ nonempty with ⟨p, mem⟩
    have less := UInt64.lt_iff_toNat_lt.mp (below p mem)
    omega
  · intro fits
    refine ⟨fun _ => same, ?_⟩
    intro p mem
    have bounded := UInt64.le_iff_toNat_le.mp (ordered.bounded p mem)
    rw [UInt64.lt_iff_toNat_lt, number, Nat.mod_eq_of_lt fits]
    omega

/-- The lines are one operation exactly if the call does not give up on a scan it has
reported progress of, and does not settle one whose progress has used up the numbers. -/
theorem scanCommand_oneOperation_iff
    (waiting : scanWithProgressOutcome decode seq earlier = .waiting call)
    (returned : scanWithProgressOutcome decode seq (earlier ++ [last]) = .returned progress result)
    (settled : result = .error .cancelled ∨ ∃ outcome, result = .ok outcome) :
    Json.OneOperation (scanCommand now errorText .ndjson progress result).stdout ↔
      (Expires last call → call.progress = []) ∧
        (¬Expires last call → call.lastProgressSeq.toNat + 1 < 2 ^ 64) := by
  have ordered : Ordered (scanOperationId seq) call := ordered_start.run waiting
  rw [scanWithProgressOutcome, run_append waiting] at returned
  rcases returned_cases returned with
    ⟨expires, rfl, rfl⟩ | ⟨outcome, pending, same, rfl, rfl⟩ | ⟨err, rfl, other⟩
  · rw [oneOperation_cancelled_iff ordered]
    simp [expires]
  · rw [oneOperation_settled_iff ordered same]
    simp [pending]
  · rcases settled with cancelled | ⟨outcome, ok⟩
    · exact absurd (Except.error.inj cancelled) other
    · cases ok

namespace ScanCall

/-- The bytes of a response without identifier and status: a progress message of operation
`scan-2` with number 1 and no other field. -/
def Sample.progressPayload : List UInt8 :=
  [0x72, 0x0A, 0x0A, 0x06, 0x73, 0x63, 0x61, 0x6E, 0x2D, 0x32, 0x10, 0x01]

def Sample.firstProgress : ScanProgress where
  operationId := "scan-2"
  sequenceNumber := 1
  timestampIso := ""
  observedDirectories := 0
  observedFiles := 0
  observedLogicalBytes := 0
  observedReferencedAllocatedBytes := 0
  coverageGaps := 0
  currentPhase := ""
  currentDirectory := ""

def Sample.progressFrame : Frame where
  header := { channelTag := .progressPulse, flags := 0, sequenceNumber := 2 }
  payload := Sample.progressPayload

/-- Reads the one payload of the samples. -/
def Sample.decodeProgress (payload : List UInt8) : Option CommandResponse :=
  if payload = Sample.progressPayload then
    some {
      requestId := ""
      status := 0
      errorCode := ""
      errorMessage := ""
      response := some (.scanProgress Sample.firstProgress) }
  else none

/-- A progress message, then the cancel event. -/
def Sample.asked : List Tick :=
  [{ arrived := frameBytes Sample.progressFrame }, { cancelFired := true }]

/-- The deadline of the cancel request. -/
def Sample.deadline : Tick := { cancelFired := true, deadlineReached := true }

def Sample.unanswered : ScanCall where
  pipe := []
  lastProgressSeq := 1
  cancelSent := true
  progress := [Sample.firstProgress]

theorem waiting_asked : scanWithProgressOutcome Sample.decodeProgress 2 Sample.asked =
    .waiting Sample.unanswered := by
  decide +kernel

theorem returned_deadline :
    scanWithProgressOutcome Sample.decodeProgress 2 (Sample.asked ++ [Sample.deadline]) =
      .returned [Sample.firstProgress] (.error .cancelled) := by
  decide +kernel

end ScanCall

theorem scanCommand_oneOperation_iff_deadline :
    Json.OneOperation (scanCommand "2026-08-29T10:00:03.000Z" (fun _ => "IPC operation cancelled")
        .ndjson [Sample.firstProgress] (.error .cancelled)).stdout ↔
      (Expires Sample.deadline Sample.unanswered → Sample.unanswered.progress = []) ∧
        (¬Expires Sample.deadline Sample.unanswered →
          Sample.unanswered.lastProgressSeq.toNat + 1 < 2 ^ 64) :=
  scanCommand_oneOperation_iff waiting_asked returned_deadline (Or.inl rfl)

/-- Two seconds after its cancel request the call gives up, and the last line names another
operation than the first. -/
theorem scanCommand_not_oneOperation_deadline : ∃ progress,
    scanWithProgressOutcome Sample.decodeProgress 2 (Sample.asked ++ [Sample.deadline]) =
        .returned progress (.error .cancelled) ∧
      ¬Json.OneOperation (scanCommand "2026-08-29T10:00:03.000Z"
        (fun _ => "IPC operation cancelled") .ndjson progress (.error .cancelled)).stdout := by
  refine ⟨_, returned_deadline, ?_⟩
  have ordered := ordered_start.run waiting_asked
  intro one
  have empty := (oneOperation_cancelled_iff ordered).mp one
  cases empty

end PigTree
