import Mathlib

/-!
# Observation records

The records a scan worker writes and the engine ingests. Field widths are the
wire widths: identifiers, attributes and counts are 32-bit words, sizes and
timestamps 64-bit words, a volume GUID sixteen bytes and a File ID 128 bits.
A missing observation is `none`, never a zero.
-/

namespace PigTree

/-- Canonical 128-bit object identity within a volume. -/
structure ObjectIdentity where
  volumeGuid : Vector UInt8 16
  fileId : BitVec 128
deriving DecidableEq, Repr

/-- Four-state Value Knowledge model for domain observations and aggregations. -/
inductive ValueKnowledge (α : Type) where
  | known (value : α)
  | notObserved
  | unavailable
  | notApplicable
deriving DecidableEq, Repr

/-- Exact five-state external reference status derived from link knowledge and observed aliases. -/
inductive ExternalReferenceStatus where
  | confirmedNone
  | confirmedExternal
  | indeterminate
  | inconsistentEvidence
  | notApplicable
deriving DecidableEq, Repr

namespace ExternalReferenceStatus

/-- The exact derivation rule from a total link count and the observed aliases. -/
def derive (totalLinkCount : ValueKnowledge UInt32) (observedAliasCount : UInt32) :
    ExternalReferenceStatus :=
  match totalLinkCount with
  | .notApplicable => .notApplicable
  | .known k =>
      if k < observedAliasCount then .inconsistentEvidence
      else if k = observedAliasCount then .confirmedNone
      else .confirmedExternal
  | .notObserved => .indeterminate
  | .unavailable => .indeterminate

end ExternalReferenceStatus

inductive RunOutcome where
  | finished
  | cancelled
  | failed
deriving DecidableEq, Repr

structure DirectoryObservation where
  entryId : UInt32
  parentId : UInt32
  name : String
  fileAttributes : UInt32
  reparseTag : UInt32
  creationTimeUtcMs : UInt64
  lastWriteTimeUtcMs : UInt64
  lastAccessTimeUtcMs : UInt64
  objectId : Option ObjectIdentity
  allocatedSize : Option UInt64
  totalLinkCount : ValueKnowledge UInt32
deriving DecidableEq, Repr

structure FileObservation where
  entryId : UInt32
  parentId : UInt32
  name : String
  logicalSize : UInt64
  allocatedSize : Option UInt64
  fileAttributes : UInt32
  reparseTag : UInt32
  creationTimeUtcMs : UInt64
  lastWriteTimeUtcMs : UInt64
  lastAccessTimeUtcMs : UInt64
  objectId : Option ObjectIdentity
  totalLinkCount : ValueKnowledge UInt32
deriving DecidableEq, Repr

structure SpecialObservation where
  entryId : UInt32
  parentId : UInt32
  name : String
  fileAttributes : UInt32
  reparseTag : UInt32
  creationTimeUtcMs : UInt64
  lastWriteTimeUtcMs : UInt64
  lastAccessTimeUtcMs : UInt64
  objectId : Option ObjectIdentity
deriving DecidableEq, Repr

structure CoverageGapObservation where
  path : String
  errorCode : UInt32
  errorMessage : String
deriving DecidableEq, Repr

/-- A secondary content stream owned by the object behind `parentEntryId`. Streams are
never directory entries. -/
structure StreamObservation where
  parentEntryId : UInt32
  name : String
  logicalSize : UInt64
  allocatedSize : Option UInt64
deriving DecidableEq, Repr

structure TerminalObservation where
  outcome : RunOutcome
  totalDirectories : UInt64
  totalFiles : UInt64
  totalLogicalBytes : UInt64
  totalAllocatedBytes : UInt64
  coverageGapCount : UInt32
  durationMs : UInt64
deriving DecidableEq, Repr

inductive ObservationRecord where
  | directory (dir : DirectoryObservation)
  | file (file : FileObservation)
  | special (special : SpecialObservation)
  | contentStream (stream : StreamObservation)
  | coverageGap (gap : CoverageGapObservation)
  | terminal (term : TerminalObservation)
deriving DecidableEq, Repr

end PigTree
