import PigTree.Engine.Response
import PigTree.Protocol.Commands
import PigTree.Session.Transport

/-!
# The answer to a scan command

What the runner hands over once the worker has exited, and the response that settles the
scan.
-/

namespace PigTree

open Foundation

/-- Why a stream gives no graph: it cannot be decoded, or its records are rejected. -/
inductive StreamBuildError where
  | decode
  | build (err : GraphBuildError)

inductive ScanRunnerError where
  | spawn (message : String)
  | ipc (err : IpcError)
  | io
  | graph (err : StreamBuildError)
  | workerExitInconsistent (exitCode : UInt32) (terminalOutcome : RunOutcome)
  | workerTimeout

def expectedExitCode : RunOutcome → UInt32
  | .finished => 0
  | .cancelled => 3
  | .failed => 1

/-- The result of the runner, from the exit code of the worker, if it exited in time, and
what was built from its stream. -/
def runnerResult (exited : Option UInt32) (built : Except StreamBuildError DirectoryGraph) :
    Except ScanRunnerError DirectoryGraph :=
  match exited with
  | none => .error .workerTimeout
  | some exitCode =>
      match built with
      | .error err => .error (.graph err)
      | .ok graph =>
          if exitCode ≠ expectedExitCode graph.terminal.outcome then
            .error (.workerExitInconsistent exitCode graph.terminal.outcome)
          else .ok graph

namespace Response

/-- The response to a scan whose cancel handle may have been set. -/
def terminal (info : OperationInfo) (cancelled : Bool)
    (result : Except ScanRunnerError DirectoryGraph) : Checked ScanResponse :=
  match result with
  | .ok graph => settled info graph
  | .error _ => .ok (unsettled info cancelled)

/-- The command response that carries a scan response. -/
def answer (requestId : String) (response : ScanResponse) : CommandResponse where
  requestId := requestId
  status := 0
  errorCode := ""
  errorMessage := ""
  response := some (.scanResponse response)

variable {info : OperationInfo} {graph : DirectoryGraph} {response : ScanResponse}

theorem settled_fields (built : settled info graph = .ok response) :
    response.operationId = info.operationId ∧
      response.runOutcome = (ScanRunOutcome.fromRunOutcome graph.terminal.outcome).number ∧
        response.scopeCoverage = (scopeCoverage
          (ScanRunOutcome.fromRunOutcome graph.terminal.outcome) graph.gaps).number ∧
          response.coverageGaps = graph.gaps.map gapReport := by
  rcases Checked.bind_eq_ok.mp built with ⟨hardLinks, _, assembled⟩
  cases assembled
  exact ⟨rfl, rfl, rfl, rfl⟩

/-- A worker that exits as its terminal record says leaves its graph to the response. -/
theorem terminal_consistent (cancelled : Bool) {exitCode : UInt32}
    (consistent : exitCode = expectedExitCode graph.terminal.outcome) :
    terminal info cancelled (runnerResult (some exitCode) (.ok graph)) = settled info graph := by
  have accepted : runnerResult (some exitCode) (.ok graph) = .ok graph :=
    if_neg (not_not.mpr consistent)
  rw [accepted]
  rfl

end Response

end PigTree
