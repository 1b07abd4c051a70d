import PigTree.Cli.EventStream
import PigTree.Engine.Answer

/-!
# The exit class of a scan

From the graph over the engine's response and the client's call to the exit code and the
printed outcome.
-/

namespace PigTree

open Foundation ScanCall

def RunOutcome.name : RunOutcome → String
  | .finished => "finished"
  | .cancelled => "cancelled"
  | .failed => "failed"

/-- The outcome a terminal document or event reports. -/
def printedOutcome (format : OutputFormat) (line : String) : Option String :=
  match format with
  | .ndjson => Json.runOutcomeOf line
  | .json =>
      match (JsonText.parse line).bind (JsonValue.field? "run_outcome") with
      | some (.string outcome) => some outcome
      | _ => none

/-- The exit code is the class of the scan's outcome, and the last line names it. -/
structure ReportsOutcome (outcome : RunOutcome) (gaps : List CoverageGapObservation)
    (format : OutputFormat) (output : ScanOutput) : Prop where
  success : output.exitCode = exitSuccess ↔ outcome = .finished ∧ gaps = []
  coverageGaps : output.exitCode = exitCoverageGapsPresent ↔ outcome = .finished ∧ gaps ≠ []
  cancelled : output.exitCode = exitCancelled ↔ outcome = .cancelled
  failed : output.exitCode = exitOperationFailed ↔ outcome = .failed
  printed : ∃ earlier last, output.stdout = earlier ++ [last] ∧
    printedOutcome format last = some outcome.name

variable {info : OperationInfo} {graph : DirectoryGraph} {response : ScanResponse}
  {progress : List ScanProgress} {format : OutputFormat} {now : String}
  {errorText : IpcError → String}

theorem printedOutcome_settled (built : Response.settled info graph = .ok response)
    (format : OutputFormat) (number : UInt64) : printedOutcome format
      (settleScanOutcome format (outcomeOf response) number).stdout =
        some graph.terminal.outcome.name := by
  have name : Json.scanRunOutcomeToStr response.runOutcome = graph.terminal.outcome.name := by
    rw [(Response.settled_fields built).2.1]
    cases graph.terminal.outcome <;> rfl
  cases format with
  | json =>
      have stdout : (settleScanOutcome .json (outcomeOf response) number).stdout =
          Json.formatScanTerminalJson response := by
        rw [outcomeOf]
        split <;> rfl
      have read : (JsonText.parse (Json.formatScanTerminalJson response)).bind
          (JsonValue.field? "run_outcome") =
            some (.string (Json.scanRunOutcomeToStr response.runOutcome)) := by
        rw [(Json.renders_printedTerminal response).isText.parse_eq]
        rfl
      rw [stdout, printedOutcome, read, name]
  | ndjson =>
      have stdout : (settleScanOutcome .ndjson (outcomeOf response) number).stdout =
          Json.formatScanTerminalNdjsonEvent response number := by
        rw [outcomeOf]
        split <;> rfl
      rw [stdout, printedOutcome, (Json.eventLine_terminal response number).outcome, name]

/-- Cancellation comes before gaps and partial coverage, and these before failure. -/
theorem exitCode_outcomeOf (response : ScanResponse) :
    (scanCommand now errorText format progress (.ok (outcomeOf response))).exitCode =
      if response.runOutcome = ScanRunOutcome.cancelled.number then exitCancelled
      else if response.coverageGaps ≠ [] ∨ response.scopeCoverage = ScopeCoverage.partly.number then
        exitCoverageGapsPresent
      else if response.runOutcome = ScanRunOutcome.failed.number then exitOperationFailed
      else exitSuccess := by
  rw [outcomeOf]
  split
  · rfl
  · next finished => exact if_neg (fun cancelled => finished (cancelled.resolve_left (by decide)))

/-- The exit code a settled graph leads to. A scan that has not finished counts as one with
gaps, unless it was cancelled. -/
def settledExitCode (graph : DirectoryGraph) : UInt8 :=
  match graph.terminal.outcome with
  | .finished => if graph.gaps = [] then exitSuccess else exitCoverageGapsPresent
  | .cancelled => exitCancelled
  | .failed => exitCoverageGapsPresent

theorem exitCode_settled (built : Response.settled info graph = .ok response) :
    (scanCommand now errorText format progress (.ok (outcomeOf response))).exitCode =
      settledExitCode graph := by
  rcases Response.settled_fields built with ⟨_, outcome, coverage, gaps⟩
  rw [exitCode_outcomeOf, outcome, coverage, gaps, settledExitCode]
  cases graph.terminal.outcome with
  | finished =>
      cases graph.gaps with
      | nil => rfl
      | cons gap gaps => rfl
  | cancelled => rfl
  | failed => exact if_pos (Or.inr rfl)

/-- The codes of the outcomes other than failure tell them apart. -/
theorem settledExitCode_iff (settled : graph.terminal.outcome ≠ .failed) :
    (settledExitCode graph = exitSuccess ↔
        graph.terminal.outcome = .finished ∧ graph.gaps = []) ∧
      (settledExitCode graph = exitCoverageGapsPresent ↔
        graph.terminal.outcome = .finished ∧ graph.gaps ≠ []) ∧
      (settledExitCode graph = exitCancelled ↔ graph.terminal.outcome = .cancelled) ∧
        (settledExitCode graph = exitOperationFailed ↔ graph.terminal.outcome = .failed) := by
  rw [settledExitCode]
  cases outcome : graph.terminal.outcome with
  | finished =>
      by_cases complete : graph.gaps = []
      · simp only [complete]
        decide
      · simp only [complete, ne_eq]
        decide
  | cancelled =>
      simp only [reduceCtorEq, false_and]
      decide
  | failed => exact absurd outcome settled

/-- The exit code and the printed outcome of a scan that has not failed agree with its
terminal record. -/
theorem reportsOutcome_iff (built : Response.settled info graph = .ok response) :
    ReportsOutcome graph.terminal.outcome graph.gaps format
        (scanCommand now errorText format progress (.ok (outcomeOf response))) ↔
      graph.terminal.outcome ≠ .failed := by
  have exitCode : (scanCommand now errorText format progress
      (.ok (outcomeOf response))).exitCode = settledExitCode graph := exitCode_settled built
  constructor
  · intro reports failed
    have claimed := reports.failed.mpr failed
    rw [exitCode, settledExitCode, failed] at claimed
    exact absurd claimed (by decide : exitCoverageGapsPresent ≠ exitOperationFailed)
  · intro settled
    rcases settledExitCode_iff settled with ⟨success, coverageGaps, cancelled, failed⟩
    rw [← exitCode] at success coverageGaps cancelled failed
    exact ⟨success, coverageGaps, cancelled, failed,
      ⟨_, _, rfl, printedOutcome_settled built format _⟩⟩

namespace GraphBuilder

variable {rt : Runtime} {builder : GraphBuilder} {target : String}
  {records : List ObservationRecord} {term : TerminalObservation}

theorem Reached.terminal_eq (reached : Reached target builder records)
    (ran : builder.finish rt = .ok (.ok graph))
    (ends : records.getLast? = some (.terminal term)) : graph.terminal = term := by
  have same := reached.represents.terminal_eq
  rw [ends, (finish_fields ran).2.2] at same
  exact Option.some.inj same

/-- From the worker's stream to the exit code: the scan is reported with the class of its
outcome in both formats, unless it has failed. -/
theorem scanCommand_reportsOutcome_iff {decode : List UInt8 → Option CommandResponse}
    {seq : UInt64} {exitCode : UInt32} {handleSet : Bool} (reached : Reached target builder records)
    (ran : builder.finish rt = .ok (.ok graph))
    (ends : records.getLast? = some (.terminal term))
    (consistent : exitCode = expectedExitCode term.outcome)
    (built : Response.terminal info handleSet (runnerResult (some exitCode) (.ok graph)) =
      .ok response)
    (named : info.operationId = scanOperationId seq)
    (run : Answered decode seq (Response.answer (scanOperationId seq) response)) :
    ∃ result, scanWithProgressOutcome decode seq (run.earlier ++ [run.last]) =
        .returned run.call.progress result ∧
      ((∀ format, ReportsOutcome term.outcome graph.gaps format
        (scanCommand now errorText format run.call.progress result)) ↔
          term.outcome ≠ .failed) := by
  have same := reached.terminal_eq ran ends
  subst same
  rw [Response.terminal_consistent handleSet consistent] at built
  have operation : response.operationId = scanOperationId seq := by
    rw [(Response.settled_fields built).1, named]
  refine ⟨_, run.returned rfl rfl rfl operation, ?_⟩
  constructor
  · intro reports
    exact (reportsOutcome_iff built).mp (reports .json)
  · intro settled format
    exact (reportsOutcome_iff built).mpr settled

/-- A root, and a scan that failed. -/
def Sample.failed : List ObservationRecord := [
  Sample.directory 1 0 "c:", .terminal { Sample.terminal 1 0 0 0 with outcome := .failed }]

def Sample.failedResponse : ScanResponse where
  operationId := "scan-1"
  targetPath := "c:"
  runOutcome := 3
  observationStartedIso := "2026-08-29T10:00:00.000Z"
  observationCompletedIso := "2026-08-29T10:00:01.500Z"
  scopeCoverage := 2
  directoryCount := 1
  fileCount := 0
  specialCount := 0
  logicalBytes := 0
  allocatedBytes := 0
  allocatedBytesKnown := true
  coverageGaps := []
  durationMs := 1500
  referencedAllocatedBytes := 0
  uniqueAllocatedBytes := 0
  knownSubtotalAllocatedBytes := 0
  indeterminateExternalReferenceObjects := 0
  hardLinks := []

/-- A short ASCII string field. -/
def Sample.textField (tag : UInt8) (text : String) : List UInt8 :=
  tag :: UInt8.ofNat text.length :: text.toList.map (fun c => UInt8.ofNat c.toNat)

/-- The encoded answer with `failedResponse`. -/
def Sample.failedPayload : List UInt8 :=
  Sample.textField 0x0A "scan-1" ++ [0x7A, 0x4B] ++ Sample.textField 0x0A "scan-1" ++
    Sample.textField 0x12 "c:" ++ [0x18, 3] ++ Sample.textField 0x22 "2026-08-29T10:00:00.000Z" ++
      Sample.textField 0x2A "2026-08-29T10:00:01.500Z" ++
        [0x30, 2, 0x38, 1, 0x60, 1, 0x70, 0xDC, 0x0B]

/-- Reads the one payload of the samples. -/
def Sample.decodeFailed (payload : List UInt8) : Option CommandResponse :=
  if payload = Sample.failedPayload then
    some (Response.answer (scanOperationId 1) Sample.failedResponse)
  else none

/-- The answer arrives in the first pass. -/
def Sample.failedRun : Answered Sample.decodeFailed 1
    (Response.answer (scanOperationId 1) Sample.failedResponse) where
  earlier := []
  last := { arrived := frameBytes {
    header := { channelTag := .command, flags := 0, sequenceNumber := 2 }
    payload := Sample.failedPayload } }
  call := .start
  frame := {
    header := { channelTag := .command, flags := 0, sequenceNumber := 2 }
    payload := Sample.failedPayload }
  rest := []
  waiting := rfl
  uncancelled := by simp
  holds := by rw [List.append_nil]; rfl
  peeks := rfl
  readable := rfl
  channel := rfl
  fits := by decide +kernel
  decoded := if_pos rfl

def Sample.settlesFailed : Checked (Except GraphBuildError DirectoryGraph) → Bool
  | .ok (.ok graph) => decide (Response.settled operation graph = .ok failedResponse)
  | _ => false

theorem exists_failed : ∃ builder graph, Reached "c:" builder Sample.failed ∧
    builder.finish Sample.runtime = .ok (.ok graph) ∧
      Response.settled Sample.operation graph = .ok Sample.failedResponse := by
  have evaluated :
      Sample.settlesFailed (buildFromReader Sample.runtime "c:" Sample.failed) = true := by
    decide +kernel
  unfold Sample.settlesFailed at evaluated
  split at evaluated
  · next graph ran =>
      rcases buildFromReader_eq_ok ran with ⟨err, none⟩ | ⟨builder, reached, finished⟩
      · cases none
      · exact ⟨builder, graph, reached, finished, of_decide_eq_true evaluated⟩
  · cases evaluated

theorem scanCommand_reportsOutcome_iff_failed : ∃ graph : DirectoryGraph, ∃ result,
    scanWithProgressOutcome Sample.decodeFailed 1
        (Sample.failedRun.earlier ++ [Sample.failedRun.last]) =
          .returned Sample.failedRun.call.progress result ∧
      ((∀ format, ReportsOutcome .failed graph.gaps format
        (scanCommand "" (fun _ => "") format Sample.failedRun.call.progress result)) ↔
          RunOutcome.failed ≠ .failed) := by
  rcases exists_failed with ⟨builder, graph, reached, ran, settled⟩
  have same := reached.terminal_eq ran rfl
  have consistent : 1 = expectedExitCode graph.terminal.outcome := by
    rw [same]
    rfl
  have built := (Response.terminal_consistent false consistent).trans settled
  refine ⟨graph, ?_⟩
  exact scanCommand_reportsOutcome_iff reached ran rfl rfl built rfl Sample.failedRun

/-- The failed scan exits like one with gaps. -/
theorem not_reportsOutcome_failed : ∃ builder graph result,
    Reached "c:" builder Sample.failed ∧ builder.finish Sample.runtime = .ok (.ok graph) ∧
      Response.terminal Sample.operation false
          (runnerResult (some (expectedExitCode graph.terminal.outcome)) (.ok graph)) =
        .ok Sample.failedResponse ∧
        scanWithProgressOutcome Sample.decodeFailed 1
            (Sample.failedRun.earlier ++ [Sample.failedRun.last]) = .returned [] result ∧
          (scanCommand "" (fun _ => "") .json [] result).exitCode = exitCoverageGapsPresent ∧
            ¬ReportsOutcome graph.terminal.outcome graph.gaps .json
              (scanCommand "" (fun _ => "") .json [] result) := by
  rcases exists_failed with ⟨builder, graph, reached, ran, settled⟩
  have failed : graph.terminal.outcome = .failed := by
    rw [reached.terminal_eq ran rfl]
  refine ⟨builder, graph, .ok (outcomeOf Sample.failedResponse), reached, ran,
    (Response.terminal_consistent false rfl).trans settled,
    Sample.failedRun.returned rfl rfl rfl rfl, ?_, ?_⟩
  · rw [exitCode_settled settled, settledExitCode, failed]
  · intro reports
    exact (reportsOutcome_iff settled).mp reports failed

end GraphBuilder

end PigTree
