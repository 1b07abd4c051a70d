import PigTree.Protocol.Messages

/-!
# Scan messages

The messages a scan is reported with, field by field as the schema declares
them, and the conversions the engine applies to domain values.
-/

namespace PigTree

inductive ScanRunOutcome where
  | unspecified
  | finished
  | cancelled
  | failed
deriving DecidableEq, Repr

inductive ScopeCoverage where
  | unspecified
  | complete
  | partly
  | indeterminate
deriving DecidableEq, Repr

namespace ScanRunOutcome

/-- The number of the outcome in the schema. -/
def number : ScanRunOutcome → Int32
  | .unspecified => 0
  | .finished => 1
  | .cancelled => 2
  | .failed => 3

def fromRunOutcome : RunOutcome → ScanRunOutcome
  | .finished => .finished
  | .cancelled => .cancelled
  | .failed => .failed

end ScanRunOutcome

/-- The number of the coverage in the schema. -/
def ScopeCoverage.number : ScopeCoverage → Int32
  | .unspecified => 0
  | .complete => 1
  | .partly => 2
  | .indeterminate => 3

/-- One distinct filesystem object with alias or external-reference evidence. The
128-bit File ID is split into halves. -/
structure HardLinkObjectReport where
  volumeGuid : List UInt8
  fileIdHi : UInt64
  fileIdLo : UInt64
  observedAliasCount : UInt32
  totalLinkCount : Option LinkCountKnowledgeProto
  externalReferenceStatus : Int32
  entryPaths : List String
deriving DecidableEq, Repr

structure CoverageGapReport where
  displayPath : String
  statusCode : String
  nativeError : UInt32
  errorMessage : String
deriving DecidableEq, Repr

structure ScanProgress where
  operationId : String
  sequenceNumber : UInt64
  timestampIso : String
  observedDirectories : UInt64
  observedFiles : UInt64
  observedLogicalBytes : UInt64
  observedReferencedAllocatedBytes : UInt64
  coverageGaps : UInt32
  currentPhase : String
  currentDirectory : String
deriving DecidableEq, Repr

structure ScanResponse where
  operationId : String
  targetPath : String
  runOutcome : Int32
  observationStartedIso : String
  observationCompletedIso : String
  scopeCoverage : Int32
  directoryCount : UInt64
  fileCount : UInt64
  specialCount : UInt64
  logicalBytes : UInt64
  allocatedBytes : UInt64
  allocatedBytesKnown : Bool
  coverageGaps : List CoverageGapReport
  durationMs : UInt64
  referencedAllocatedBytes : UInt64
  uniqueAllocatedBytes : UInt64
  knownSubtotalAllocatedBytes : UInt64
  indeterminateExternalReferenceObjects : UInt64
  hardLinks : List HardLinkObjectReport
deriving DecidableEq, Repr

end PigTree
