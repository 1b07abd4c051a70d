import PigTree.Engine.Pages
import PigTree.Engine.ScanLoop
import PigTree.Session.TargetValidation

/-!
# The engine's command loop

The engine serves one command at a time. A command may wait for a test delay, in which
only a cancellation is heeded. A scan drops the graph of the scan before it, occupies the
engine until the runner is joined, and leaves its graph to the requests for children that
follow. The engine leaves when its client does, when a frame stays incomplete, and when a
response cannot be written.
-/

namespace PigTree

open Foundation

structure PingRequest where
  timestampUtcMs : UInt64
  delayMs : UInt32
deriving DecidableEq, Repr

structure EchoRequest where
  payload : String
  delayMs : UInt32
deriving DecidableEq, Repr

structure HealthRequest where
  includeMemory : Bool
  delayMs : UInt32
deriving DecidableEq, Repr

/-- The payload of a request, with what the command loop reads of it. -/
inductive EngineRequest where
  | authHandshake
  | ping (ping : PingRequest)
  | echo (echo : EchoRequest)
  | health (health : HealthRequest)
  | status (delayMs : UInt32)
  | version (delayMs : UInt32)
  | shutdown
  | cancel (cancel : CancelRequest)
  | scan (scan : ScanRequest)
  | getChildren (page : GetChildrenRequest)
deriving DecidableEq, Repr

namespace EngineRequest

def delayMs : EngineRequest → UInt32
  | .ping request => request.delayMs
  | .echo request => request.delayMs
  | .health request => request.delayMs
  | .status delay => delay
  | .version delay => delay
  | _ => 0

/-- The request as the polling loop of a scan tells requests apart. -/
def duringScan : EngineRequest → CommandRequest.Request
  | .status _ => .status
  | .cancel target => .cancel target
  | .scan target => .scan target
  | .getChildren page => .getChildren page
  | _ => .other

end EngineRequest

structure EngineCommand where
  requestId : String
  request : Option EngineRequest
deriving DecidableEq, Repr

def EngineCommand.duringScan (cmd : EngineCommand) : CommandRequest where
  requestId := cmd.requestId
  request := cmd.request.map EngineRequest.duringScan

structure PingResponse where
  timestampUtcMs : UInt64
  echoTimestampUtcMs : UInt64
deriving DecidableEq, Repr

structure HealthResponse where
  status : String
  uptimeMs : UInt64
  memoryPrivateBytes : UInt64
  handleCount : UInt32
deriving DecidableEq, Repr

structure VersionResponse where
  engineVersion : String
  protocolVersion : UInt32
  buildDate : String
  commitHash : String
  capabilities : List String
deriving DecidableEq, Repr

/-- The payload of a reply. The scan and browse commands share theirs with the scan loop. -/
inductive EngineReply.Payload where
  | ping (ping : PingResponse)
  | echo (payload : String)
  | health (health : HealthResponse)
  | version (version : VersionResponse)
  | shutdown (status : UInt32)
  | command (response : CommandResponse.Response)
deriving DecidableEq

structure EngineReply where
  requestId : String
  status : UInt32
  errorCode : String
  errorMessage : String
  payload : Option EngineReply.Payload
deriving DecidableEq

namespace EngineReply

def ok (requestId : String) (payload : Payload) : EngineReply where
  requestId := requestId
  status := 0
  errorCode := ""
  errorMessage := ""
  payload := some payload

/-- A failure says the same in the envelope and in its payload. -/
def failure (requestId code message : String) : EngineReply where
  requestId := requestId
  status := 1
  errorCode := code
  errorMessage := message
  payload := some (.command (.error { code, message, details := "" }))

def ofCommand (resp : CommandResponse) : EngineReply where
  requestId := resp.requestId
  status := resp.status
  errorCode := resp.errorCode
  errorMessage := resp.errorMessage
  payload := resp.response.map .command

end EngineReply

/-- What the engine writes: progress on its own channel, and replies. -/
inductive EngineOutput where
  | progress (progress : ScanProgress)
  | reply (reply : EngineReply)
deriving DecidableEq

namespace EngineOutput

def reply? : EngineOutput → Option EngineReply
  | .progress _ => none
  | .reply response => some response

def ofMessage : EngineMessage → EngineOutput
  | .progress p => .progress p
  | .response resp => .reply (.ofCommand resp)

end EngineOutput

/-- What is fixed when the engine is built and started. -/
structure EngineInfo where
  sessionId : String
  engineVersion : String
  buildDate : String
  commitHash : String

/-- A graph that children are served from, under the operation that built it. -/
structure SettledScan where
  operationId : String
  graph : DirectoryGraph

inductive Engine.Mode where
  | idle
  /-- A command whose delay is not over. -/
  | delaying (cmd : EngineCommand)
  | scanning (task : ScanTask) (runner : Runner) (loop : ScanLoop)
  | left

namespace Engine.Mode

def isIdle : Mode → Bool
  | .idle => true
  | _ => false

def isScanning : Mode → Bool
  | .scanning _ _ _ => true
  | _ => false

def isLeft : Mode → Bool
  | .left => true
  | _ => false

theorem isIdle_iff {mode : Mode} : mode.isIdle = true ↔ mode = .idle := by
  cases mode <;> simp [isIdle]

theorem isLeft_iff {mode : Mode} : mode.isLeft = true ↔ mode = .left := by
  cases mode <;> simp [isLeft]

end Engine.Mode

/-- The engine, with the commands it has read and what it has written. During a scan the
loop keeps what it writes. -/
structure Engine where
  mode : Engine.Mode
  settledScan : Option SettledScan
  read : List EngineCommand
  sent : List EngineOutput

namespace Engine

def start : Engine where
  mode := .idle
  settledScan := none
  read := []
  sent := []

/-- All that was written so far. -/
def written (engine : Engine) : List EngineOutput :=
  match engine.mode with
  | .scanning _ _ loop => engine.sent ++ loop.sent.map EngineOutput.ofMessage
  | _ => engine.sent

/-- What the worker of a scan does. -/
structure WorkerRun where
  rt : Runtime
  rootTarget : String
  launchError : Option ScanRunnerError
  readings : List Reading
  undecodable : Bool
  exited : Option UInt32
  addressable : readings.length < 2 ^ 64

def WorkerRun.runner (worker : WorkerRun) (operationId : String) : Runner where
  rt := worker.rt
  operationId := operationId
  target := worker.rootTarget
  launchError := worker.launchError
  readings := worker.readings
  undecodable := worker.undecodable
  exited := worker.exited
  addressable := worker.addressable

/-- What a scan command meets: the system its target is validated on, whether the worker
executable is found, the error of the cancel handle if it cannot be made, the worker, and
the clock at both ends. -/
structure Launch where
  system : TargetValidation.System
  workerFound : Bool
  cancelHandleError : Option String
  worker : WorkerRun
  observationStartedIso : String
  observationCompletedIso : String
  durationMs : UInt64

/-- What one pass of a loop meets. -/
structure Tick where
  readiness : Except IpcError FrameReadiness
  incompleteTooLong : Bool
  received : Except IpcError (Option EngineCommand)
  replyWritten : Bool
  testDelayMs : UInt32
  delayOver : Bool
  nowMs : UInt64
  uptimeMs : UInt64
  handleCount : UInt32
  pagefileUsage : Option UInt64
  launch : Launch
  /-- The rest is of the loop of a scan. -/
  arrived : ℕ
  intervalElapsed : Bool
  progressWritten : Bool
  finished : Bool
  finale : ScanLoop.Finale

/-- The pass as the loop of a scan sees it. -/
def Tick.duringScan (tick : Tick) : ScanLoop.Tick where
  arrived := tick.arrived
  intervalElapsed := tick.intervalElapsed
  progressWritten := tick.progressWritten
  readiness := tick.readiness
  incompleteTooLong := tick.incompleteTooLong
  received := tick.received.map (Option.map EngineCommand.duringScan)
  replyWritten := tick.replyWritten
  finished := tick.finished

/-- The command a pass reads, if a whole frame is there. -/
def Tick.command? (tick : Tick) : Option EngineCommand :=
  match tick.readiness, tick.received with
  | .ok .complete, .ok (some cmd) => some cmd
  | _, _ => none

/-- The pass finds nothing to read and has no reason to leave. -/
def Tick.isQuiet (tick : Tick) : Bool :=
  match tick.readiness with
  | .ok .empty => true
  | .ok .incomplete => !tick.incompleteTooLong
  | _ => false

def leave (engine : Engine) : Engine := { engine with mode := .left }

/-- Send a reply. The engine goes on if it was written. -/
def send (tick : Tick) (reply : EngineReply) (engine : Engine) : Engine :=
  if tick.replyWritten then
    { engine with mode := .idle, sent := engine.sent ++ [.reply reply] }
  else engine.leave

/-! ### Single commands -/

def healthReply (tick : Tick) (health : HealthRequest) : HealthResponse where
  status := "HEALTHY"
  uptimeMs := tick.uptimeMs
  memoryPrivateBytes := if health.includeMemory then tick.pagefileUsage.getD 0 else 0
  handleCount := tick.handleCount

def idleStatus (info : EngineInfo) : StatusResponse where
  state := "IDLE"
  activeRuns := 0
  totalObservations := 0
  sessionId := info.sessionId

def versionReply (info : EngineInfo) : VersionResponse where
  engineVersion := info.engineVersion
  protocolVersion := 1
  buildDate := info.buildDate
  commitHash := info.commitHash
  capabilities := ["scan", "remediation"]

def cancelReply (cancel : CancelRequest) : CancelResponse where
  cancelled := true
  message := "Request " ++ cancel.targetRequestId ++ " cancelled"

def unknownCommand (requestId : String) : EngineReply where
  requestId := requestId
  status := 1
  errorCode := "UNKNOWN_COMMAND"
  errorMessage := "Requested command verb is not supported"
  payload := none

def queryErrorText : GraphQueryError → String
  | .parentNotFound id => "Parent entry ID " ++ toString id ++ " not found"
  | .parentNotDirectory id => "Entry ID " ++ toString id ++ " is not a directory"

def pageLimit (page : GetChildrenRequest) : UInt32 := if page.limit = 0 then 100 else page.limit

/-- The reply to a request for children. -/
def getChildren (settledScan : Option SettledScan) (requestId : String)
    (page : GetChildrenRequest) : Checked EngineReply :=
  match settledScan with
  | none =>
      .ok (.failure requestId "STALE_OPERATION"
        ("Operation ID '" ++ page.operationId ++ "' not found or no scan has settled"))
  | some settled =>
      if settled.operationId ≠ page.operationId then
        .ok (.failure requestId "STALE_OPERATION"
          ("Operation ID '" ++ page.operationId ++ "' does not match active settled operation '" ++
            settled.operationId ++ "'"))
      else if 500 < pageLimit page then
        .ok (.failure requestId "INVALID_LIMIT"
          ("Limit " ++ toString page.limit ++ " exceeds maximum allowed page size of 500"))
      else do
        match ← settled.graph.getChildrenPage page.parentId page.offset.toNat
          (pageLimit page).toNat with
        | .ok (totalChildren, nodes) =>
            return .ok requestId (.command (.getChildren {
              operationId := page.operationId
              parentId := page.parentId
              totalChildren := UInt32.ofNat totalChildren
              offset := page.offset
              nodes }))
        | .error err => return .failure requestId "INVALID_PARENT" (queryErrorText err)

def validationCode : TargetValidationError → String
  | .unsupportedFileSystem _ _ _ => "UNSUPPORTED_FILESYSTEM"
  | _ => "INVALID_TARGET"

/-- The task of a scan, named by its request if it has no name of its own. -/
def scanTask (info : EngineInfo) (launch : Launch) (requestId : String) (scan : ScanRequest) :
    ScanTask where
  requestId := requestId
  sessionId := info.sessionId
  info := {
    operationId := if scan.operationId = "" then requestId else scan.operationId
    targetPath := scan.targetPath
    observationStartedIso := launch.observationStartedIso
    observationCompletedIso := launch.observationCompletedIso
    durationMs := launch.durationMs }

/-- The runner is started. -/
def startRunner (info : EngineInfo) (launch : Launch) (requestId : String) (scan : ScanRequest)
    (engine : Engine) : Engine :=
  let task := scanTask info launch requestId scan
  let runner := launch.worker.runner task.info.operationId
  { engine with mode := .scanning task runner (ScanLoop.start runner) }

/-- The graph of the scan before is gone, whatever becomes of this one. -/
def beginScan (info : EngineInfo) (tick : Tick) (requestId : String) (scan : ScanRequest)
    (engine : Engine) : Engine :=
  let engine := { engine with settledScan := none }
  match (TargetValidation.validateScanTarget tick.launch.system scan.targetPath).2 with
  | .error err => engine.send tick (.failure requestId (validationCode err) err.text)
  | .ok _ =>
      if !tick.launch.workerFound then
        engine.send tick (.failure requestId "WORKER_NOT_FOUND"
          "Scan worker executable 'pigtree-scan-worker.exe' not found")
      else
        match tick.launch.cancelHandleError with
        | some err =>
            engine.send tick (.failure requestId "INTERNAL_ERROR"
              ("Failed to create cancel handle: " ++ err))
        | none => startRunner info tick.launch requestId scan engine

/-- Serve a command whose delay, if any, is over. -/
def dispatch (info : EngineInfo) (tick : Tick) (cmd : EngineCommand) (engine : Engine) :
    Checked Engine :=
  match cmd.request with
  | some (.ping ping) =>
      .ok (engine.send tick (.ok cmd.requestId (.ping ⟨ping.timestampUtcMs, tick.nowMs⟩)))
  | some (.echo echo) => .ok (engine.send tick (.ok cmd.requestId (.echo echo.payload)))
  | some (.health health) =>
      .ok (engine.send tick (.ok cmd.requestId (.health (healthReply tick health))))
  | some (.status _) =>
      .ok (engine.send tick (.ok cmd.requestId (.command (.statusPayload (idleStatus info)))))
  | some (.version _) =>
      .ok (engine.send tick (.ok cmd.requestId (.version (versionReply info))))
  | some (.cancel cancel) =>
      .ok (engine.send tick (.ok cmd.requestId (.command (.cancel (cancelReply cancel)))))
  | some .shutdown => .ok (engine.send tick (.ok cmd.requestId (.shutdown 0))).leave
  | some (.scan scan) => .ok (beginScan info tick cmd.requestId scan engine)
  | some (.getChildren page) => do
      let reply ← getChildren engine.settledScan cmd.requestId page
      return engine.send tick reply
  | _ => .ok (engine.send tick (unknownCommand cmd.requestId))

/-! ### The loops -/

def effectiveDelay (tick : Tick) (cmd : EngineCommand) : UInt32 :=
  max ((cmd.request.map EngineRequest.delayMs).getD 0) tick.testDelayMs

/-- The main loop. -/
def serve (info : EngineInfo) (tick : Tick) (engine : Engine) : Checked Engine :=
  match tick.command? with
  | some cmd =>
      let engine := { engine with read := engine.read ++ [cmd] }
      if 0 < effectiveDelay tick cmd then .ok { engine with mode := .delaying cmd }
      else dispatch info tick cmd engine
  | none => .ok (if tick.isQuiet then engine else engine.leave)

/-- The reply to a cancellation that ends a delay, named by its target if it has no name. -/
def delayCancelled (cmd : EngineCommand) (cancel : CancelRequest) : EngineReply :=
  .ok (if cmd.requestId = "" then cancel.targetRequestId else cmd.requestId)
    (.command (.cancel { cancelled := true, message := "Operation cancelled by client" }))

/-- The loop of a delay. It reads on and drops every command but a cancellation, and a
cancellation drops the command that waits. -/
def wait (info : EngineInfo) (tick : Tick) (waiting : EngineCommand) (engine : Engine) :
    Checked Engine :=
  if tick.delayOver then dispatch info tick waiting engine
  else
    match tick.command? with
    | some cmd =>
        let engine := { engine with read := engine.read ++ [cmd] }
        match cmd.request with
        | some (.cancel cancel) =>
            -- The main loop goes on even if this reply cannot be written.
            .ok {
              engine with
              mode := .idle
              sent := if tick.replyWritten then engine.sent ++ [.reply (delayCancelled cmd cancel)]
                else engine.sent }
        | _ => .ok engine
    | none => .ok (if tick.isQuiet then engine else engine.leave)

/-- The graph a joined runner leaves. -/
def settledBy (task : ScanTask) (runner : Runner) : Option SettledScan :=
  match runner.joined with
  | some (.ok graph) => some { operationId := task.info.operationId, graph }
  | _ => none

/-- The loop of a scan. -/
def scan (tick : Tick) (task : ScanTask) (runner : Runner) (loop : ScanLoop) (engine : Engine) :
    Checked Engine :=
  match ScanLoop.pass task tick.duringScan loop with
  | (loop, false) =>
      .ok { engine with mode := .left, sent := engine.sent ++ loop.sent.map .ofMessage }
  | (loop, true) =>
      let engine := { engine with read := engine.read ++ tick.command?.toList }
      if tick.finished then do
        let loop ← ScanLoop.settle task runner tick.finale loop
        return {
          engine with
          mode := if tick.finale.responseWritten then .idle else .left
          settledScan := settledBy task runner
          sent := engine.sent ++ loop.sent.map .ofMessage }
      else .ok { engine with mode := .scanning task runner loop }

/-- One pass of whichever loop the engine is in. -/
def step (info : EngineInfo) (engine : Engine) (tick : Tick) : Checked Engine :=
  match engine.mode with
  | .idle => serve info tick engine
  | .delaying cmd => wait info tick cmd engine
  | .scanning task runner loop => scan tick task runner loop engine
  | .left => .ok engine

/-- A run of the engine. -/
def run (info : EngineInfo) (engine : Engine) (ticks : List Tick) : Checked Engine :=
  ticks.foldlM (step info) engine

end Engine

end PigTree
