import PigTree.Protocol.Scan

/-!
# Command messages

The requests and responses a session carries, with the payloads the scan and browse
commands use.
-/

namespace PigTree

structure CancelRequest where
  targetRequestId : String
  reason : String
deriving DecidableEq, Repr

structure ScanRequest where
  operationId : String
  targetPath : String
deriving DecidableEq, Repr

structure GetChildrenRequest where
  operationId : String
  parentId : UInt32
  offset : UInt32
  limit : UInt32
deriving DecidableEq, Repr

/-- The payload of a request. Handshakes, probes and shutdown are one case. -/
inductive CommandRequest.Request where
  | status
  | cancel (cancel : CancelRequest)
  | scan (scan : ScanRequest)
  | getChildren (page : GetChildrenRequest)
  | other
deriving DecidableEq, Repr

structure CommandRequest where
  requestId : String
  request : Option CommandRequest.Request
deriving DecidableEq, Repr

structure ErrorResponse where
  code : String
  message : String
  details : String
deriving DecidableEq, Repr

structure StatusResponse where
  state : String
  activeRuns : UInt32
  totalObservations : UInt64
  sessionId : String
deriving DecidableEq, Repr

structure CancelResponse where
  cancelled : Bool
  message : String
deriving DecidableEq, Repr

structure GetChildrenResponse where
  operationId : String
  parentId : UInt32
  totalChildren : UInt32
  offset : UInt32
  nodes : List DirectoryEntryNode
deriving DecidableEq, Repr

/-- The payload of a response. The payloads of handshakes, probes and shutdown are one case. -/
inductive CommandResponse.Response where
  | statusPayload (status : StatusResponse)
  | cancel (cancel : CancelResponse)
  | error (err : ErrorResponse)
  | scanProgress (progress : ScanProgress)
  | scanResponse (response : ScanResponse)
  | getChildren (page : GetChildrenResponse)
  | other
deriving DecidableEq, Repr

structure CommandResponse where
  requestId : String
  status : UInt32
  errorCode : String
  errorMessage : String
  response : Option CommandResponse.Response
deriving DecidableEq, Repr

end PigTree
