import PigTree.Protocol.Json
import PigTree.Session.ScanCall

/-!
# The scan subcommand

How the command line settles a scan: what it prints on standard output and the exit code.
Diagnostics on standard error are left out.
-/

namespace PigTree

def exitSuccess : UInt8 := 0

def exitOperationFailed : UInt8 := 1

def exitCommandError : UInt8 := 2

def exitCancelled : UInt8 := 3

def exitCoverageGapsPresent : UInt8 := 4

inductive OutputFormat where
  | json
  | ndjson
deriving DecidableEq, Repr

structure ScanSettlement where
  exitCode : UInt8
  stdout : String
deriving DecidableEq, Repr

def settleScanResponse (format : OutputFormat) (response : ScanResponse) (isCancelled : Bool)
    (terminalSequenceNumber : UInt64) : ScanSettlement where
  exitCode :=
    if isCancelled = true ∨ response.runOutcome = ScanRunOutcome.cancelled.number then exitCancelled
    else if response.coverageGaps ≠ [] ∨ response.scopeCoverage = ScopeCoverage.partly.number then
      exitCoverageGapsPresent
    else if response.runOutcome = ScanRunOutcome.failed.number then exitOperationFailed
    else exitSuccess
  stdout :=
    match format with
    | .json => Json.formatScanTerminalJson response
    | .ndjson => Json.formatScanTerminalNdjsonEvent response terminalSequenceNumber

def settleScanOutcome (format : OutputFormat) (outcome : ScanCallOutcome)
    (terminalSequenceNumber : UInt64) : ScanSettlement :=
  match outcome with
  | .finished response => settleScanResponse format response false terminalSequenceNumber
  | .cancelled response => settleScanResponse format response true terminalSequenceNumber

/-- The lines of standard output and the exit code. -/
structure ScanOutput where
  stdout : List String
  exitCode : UInt8
deriving DecidableEq, Repr

/-- The scan subcommand after its call has returned, with the progress messages that were
handed to it before. The current time and the texts of errors come from outside. -/
def scanCommand (now : String) (errorText : IpcError → String) (format : OutputFormat)
    (progress : List ScanProgress) (result : Except IpcError ScanCallOutcome) : ScanOutput :=
  let lines := if format = .ndjson then progress.map Json.formatScanProgressNdjsonEvent else []
  let lastProgressSeq := ScanCall.lastSequenceNumber progress
  match result with
  | .ok outcome =>
      let termSeq := lastProgressSeq + 1
      let settlement := settleScanOutcome format outcome termSeq
      { stdout := lines ++ [settlement.stdout], exitCode := settlement.exitCode }
  | .error .cancelled =>
      let termSeq := lastProgressSeq + 1
      let line :=
        if format = .ndjson then
          Json.formatScanCancelledNdjsonEvent now "scan" termSeq none
            "Scan operation cancelled by user"
        else Json.formatCancelledEnvelope "scan" "Operation cancelled by user"
      { stdout := lines ++ [line], exitCode := exitCancelled }
  | .error (.commandError code message) =>
      { stdout := lines ++ [Json.formatErrorEnvelope "scan" code message]
        exitCode := exitCommandError }
  | .error err =>
      { stdout := lines ++
          [Json.formatErrorEnvelope "scan" "OPERATION_FAILED" ("scan failed: " ++ errorText err)]
        exitCode := exitOperationFailed }

end PigTree
