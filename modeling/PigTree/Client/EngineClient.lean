import PigTree.Engine.CommandLoop

/-!
# The client session of the user interface

What `EngineClientSession` sends for a scan, a cancellation and a request for children,
and what it makes of the frames it reads. A call reads its answer from the stream of all
frames: the scan call checks the identifiers it finds, the call for children takes the
next frame.
-/

namespace PigTree.Client

/-- The exceptions of the session: the stream has ended, a frame is not what the call
expects, or the engine has refused the request. -/
inductive SessionError where
  | endOfStream (message : String)
  | invalidData (message : String)
  | invalidOperation (message : String)
deriving DecidableEq, Repr

/-- A frame as the client reads it: its channel, and the response in it. -/
structure Received where
  channelTag : ChannelTag
  response : EngineReply
deriving DecidableEq

namespace Received

/-- The frame of what the engine writes. The request identifier of a progress frame is not
read. -/
def ofOutput : EngineOutput → Received
  | .progress p => { channelTag := .progressPulse, response := .ok "" (.command (.scanProgress p)) }
  | .reply reply => { channelTag := .command, response := reply }

def scanProgress (frame : Received) : Option ScanProgress :=
  match frame.response.payload with
  | some (.command (.scanProgress p)) => some p
  | _ => none

def scanResponse (frame : Received) : Option ScanResponse :=
  match frame.response.payload with
  | some (.command (.scanResponse response)) => some response
  | _ => none

def error (frame : Received) : Option ErrorResponse :=
  match frame.response.payload with
  | some (.command (.error err)) => some err
  | _ => none

def getChildren (frame : Received) : Option GetChildrenResponse :=
  match frame.response.payload with
  | some (.command (.getChildren page)) => some page
  | _ => none

end Received

/-! ### Results -/

inductive ScanOutcome where
  | finished
  | cancelled
  | failed
deriving DecidableEq, Repr

structure ScanResult where
  operationId : String
  targetPath : String
  outcome : ScanOutcome
  scopeCoverage : String
  directoryCount : UInt64
  fileCount : UInt64
  specialCount : UInt64
  logicalBytes : UInt64
  allocatedBytes : UInt64
  allocatedBytesKnown : Bool
  referencedAllocatedBytes : UInt64
  uniqueAllocatedBytes : UInt64
  knownSubtotalAllocatedBytes : UInt64
  indeterminateExternalReferenceObjects : UInt64
  durationMs : UInt64
  coverageGaps : List CoverageGapReport
  errorCode : Option String
  errorMessage : Option String
deriving DecidableEq, Repr

namespace ScanResult

/-- The properties a result has if they are not set. -/
def bare (operationId targetPath : String) (outcome : ScanOutcome) : ScanResult where
  operationId := operationId
  targetPath := targetPath
  outcome := outcome
  scopeCoverage := "Complete"
  directoryCount := 0
  fileCount := 0
  specialCount := 0
  logicalBytes := 0
  allocatedBytes := 0
  allocatedBytesKnown := false
  referencedAllocatedBytes := 0
  uniqueAllocatedBytes := 0
  knownSubtotalAllocatedBytes := 0
  indeterminateExternalReferenceObjects := 0
  durationMs := 0
  coverageGaps := []
  errorCode := none
  errorMessage := none

def isSuccess (result : ScanResult) : Bool :=
  result.outcome = .finished && (result.errorCode.getD "").isEmpty

/-- The name of a coverage, or its number if it has none. -/
def coverageName (number : Int32) : String :=
  if number = ScopeCoverage.unspecified.number then "Unspecified"
  else if number = ScopeCoverage.complete.number then "Complete"
  else if number = ScopeCoverage.partly.number then "Partial"
  else if number = ScopeCoverage.indeterminate.number then "Indeterminate"
  else toString number

def outcomeOf (cancelInitiated : Bool) (runOutcome : Int32) : ScanOutcome :=
  if cancelInitiated || runOutcome = ScanRunOutcome.cancelled.number then .cancelled
  else if runOutcome = ScanRunOutcome.finished.number then .finished
  else .failed

def ofResponse (cancelInitiated : Bool) (r : ScanResponse) : ScanResult where
  operationId := r.operationId
  targetPath := r.targetPath
  outcome := outcomeOf cancelInitiated r.runOutcome
  scopeCoverage := coverageName r.scopeCoverage
  directoryCount := r.directoryCount
  fileCount := r.fileCount
  specialCount := r.specialCount
  logicalBytes := r.logicalBytes
  allocatedBytes := r.allocatedBytes
  allocatedBytesKnown := r.allocatedBytesKnown
  referencedAllocatedBytes := r.referencedAllocatedBytes
  uniqueAllocatedBytes := r.uniqueAllocatedBytes
  knownSubtotalAllocatedBytes := r.knownSubtotalAllocatedBytes
  indeterminateExternalReferenceObjects := r.indeterminateExternalReferenceObjects
  durationMs := r.durationMs
  coverageGaps := r.coverageGaps
  errorCode := none
  errorMessage := none

end ScanResult

structure DirectoryEntryInfo where
  id : UInt32
  parentId : UInt32
  name : String
  entryKind : UInt32
  logicalBytes : UInt64
  referencedAllocatedBytes : UInt64
  allocatedSizeKnown : Bool
  childCount : UInt32
  hasChildren : Bool
  uniqueAllocatedBytes : UInt64
  observedAliasCount : UInt32
  totalLinkCountStatus : String
  totalLinkCountValue : Option UInt32
  externalReferenceStatus : String
  knownSubtotalAllocatedBytes : UInt64
deriving DecidableEq, Repr

namespace DirectoryEntryInfo

def mapLinkCountKnowledgeStatus (status : Int32) : String :=
  if status = LinkCountKnowledgeStatus.known.number then "known"
  else if status = LinkCountKnowledgeStatus.unavailable.number then "unavailable"
  else if status = LinkCountKnowledgeStatus.notApplicable.number then "not_applicable"
  else "not_observed"

def mapExternalReferenceStatus (status : Int32) : String :=
  if status = ExternalReferenceStatus.confirmedNone.number then "confirmed_none"
  else if status = ExternalReferenceStatus.confirmedExternal.number then "confirmed_external"
  else if status = ExternalReferenceStatus.inconsistentEvidence.number then "inconsistent_evidence"
  else if status = ExternalReferenceStatus.notApplicable.number then "not_applicable"
  else "indeterminate"

def ofNode (n : DirectoryEntryNode) : DirectoryEntryInfo where
  id := n.id
  parentId := n.parentId
  name := n.name
  entryKind := n.entryKind
  logicalBytes := n.logicalBytes
  referencedAllocatedBytes := n.referencedAllocatedBytes
  allocatedSizeKnown := n.allocatedSizeKnown
  childCount := n.childCount
  hasChildren := n.hasChildren
  uniqueAllocatedBytes := n.uniqueAllocatedBytes
  observedAliasCount := if 0 < n.observedAliasCount then n.observedAliasCount else 1
  totalLinkCountStatus :=
    match n.totalLinkCount with
    | some knowledge => mapLinkCountKnowledgeStatus knowledge.status
    | none => "not_observed"
  totalLinkCountValue :=
    match n.totalLinkCount with
    | some knowledge =>
        if knowledge.status = LinkCountKnowledgeStatus.known.number then some knowledge.count
        else none
    | none => none
  externalReferenceStatus := mapExternalReferenceStatus n.externalReferenceStatus
  knownSubtotalAllocatedBytes := n.knownSubtotalAllocatedBytes

end DirectoryEntryInfo

def mapDirectoryEntries (nodes : List DirectoryEntryNode) : List DirectoryEntryInfo :=
  nodes.map DirectoryEntryInfo.ofNode

/-! ### Requests -/

/-- The identifier of a scan is drawn by the client and names the request as well. -/
def scanCommand (opId targetPath : String) : EngineCommand where
  requestId := opId
  request := some (.scan { operationId := opId, targetPath })

def cancelCommand (requestId operationId reason : String) : EngineCommand where
  requestId := requestId
  request := some (.cancel { targetRequestId := operationId, reason })

def getChildrenCommand (requestId : String) (page : GetChildrenRequest) : EngineCommand where
  requestId := requestId
  request := some (.getChildren page)

/-! ### What a call makes of a frame -/

/-- A scan call between two frames. -/
structure StartScan where
  opId : String
  targetPath : String
  lastProgressSeq : UInt64
  cancelInitiated : Bool
deriving DecidableEq, Repr

/-- The call goes on, with a message for its progress callback, or returns. -/
inductive StartScan.Outcome where
  | goesOn (call : StartScan) (report : ScanProgress)
  | returns (result : ScanResult)

def tagName : ChannelTag → String
  | .command => "Command"
  | .losslessDomain => "LosslessDomain"
  | .progressPulse => "ProgressPulse"
  | .cancellationHeartbeat => "CancellationHeartbeat"

namespace StartScan

def receiveProgress (call : StartScan) (frame : Received) : Except SessionError Outcome :=
  match frame.scanProgress with
  | none => .error (.invalidData "ProgressPulse channel frame did not contain ScanProgress payload")
  | some p =>
      if p.operationId ≠ call.opId then
        .error (.invalidData ("Progress pulse operation ID mismatch: expected '" ++ call.opId ++
          "', got '" ++ p.operationId ++ "'"))
      else if p.sequenceNumber ≤ call.lastProgressSeq then
        .error (.invalidData ("Progress pulse sequence number not strictly increasing: expected > " ++
          toString call.lastProgressSeq ++ ", got " ++ toString p.sequenceNumber))
      else .ok (.goesOn { call with lastProgressSeq := p.sequenceNumber } p)

/-- The result of a failed operation. -/
def failed (call : StartScan) (response : EngineReply) (err : Option ErrorResponse) : ScanResult :=
  { ScanResult.bare call.opId call.targetPath .failed with
    errorCode := some ((err.map ErrorResponse.code).getD response.errorCode)
    errorMessage := some ((err.map ErrorResponse.message).getD response.errorMessage) }

def receiveResponse (call : StartScan) (frame : Received) : Except SessionError Outcome :=
  if frame.response.requestId ≠ "" ∧ frame.response.requestId ≠ call.opId then
    .error (.invalidData ("Command response request ID mismatch: expected '" ++ call.opId ++
      "', got '" ++ frame.response.requestId ++ "'"))
  else
    match frame.scanResponse with
    | some r =>
        if r.operationId ≠ call.opId then
          .error (.invalidData ("ScanResponse operation ID mismatch: expected '" ++ call.opId ++
            "', got '" ++ r.operationId ++ "'"))
        else .ok (.returns (.ofResponse call.cancelInitiated r))
    | none =>
        if frame.error.isSome ∨ frame.response.status ≠ 0 then
          .ok (.returns (call.failed frame.response frame.error))
        else
          .error (.invalidData
            "Command channel frame contained unexpected response variant during scan")

def receive (call : StartScan) (frame : Received) : Except SessionError Outcome :=
  match frame.channelTag with
  | .progressPulse => call.receiveProgress frame
  | .command => call.receiveResponse frame
  | tag => .error (.invalidData ("Unexpected channel tag '" ++ tagName tag ++ "' during scan"))

/-- The result when the engine has not answered two seconds after the cancellation. -/
def timedOut (call : StartScan) : ScanResult :=
  { ScanResult.bare call.opId call.targetPath .cancelled with
    errorMessage := some "Scan cancelled and settlement timed out after 2 seconds" }

end StartScan

/-- A call for children takes the next frame, whatever request it answers. -/
def receiveChildren (frame : Received) : Except SessionError (List DirectoryEntryInfo) :=
  if frame.channelTag ≠ .command then
    .error (.invalidData ("GetChildren response received on invalid channel: " ++
      tagName frame.channelTag))
  else if frame.response.status ≠ 0 ∨ frame.error.isSome then
    .error (.invalidOperation ("GetChildren failed (" ++
      (frame.error.map ErrorResponse.code).getD frame.response.errorCode ++ "): " ++
        (frame.error.map ErrorResponse.message).getD frame.response.errorMessage))
  else
    match frame.getChildren with
    | none => .error (.invalidData "GetChildren response variant not present in CommandResponse")
    | some page => .ok (mapDirectoryEntries page.nodes)

end PigTree.Client
