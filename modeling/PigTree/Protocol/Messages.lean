import PigTree.Protocol.Observation

/-!
# Session messages

The protobuf messages of a session that the scan and browse commands exchange,
field by field as the schema declares them. Enumerations travel as numbers, and a
field may hold one the schema does not name.
-/

namespace PigTree

inductive LinkCountKnowledgeStatus where
  | unspecified
  | known
  | notObserved
  | unavailable
  | notApplicable
deriving DecidableEq, Repr

/-- The number of the status in the schema. -/
def LinkCountKnowledgeStatus.number : LinkCountKnowledgeStatus → Int32
  | .unspecified => 0
  | .known => 1
  | .notObserved => 2
  | .unavailable => 3
  | .notApplicable => 4

/-- The number of the status in the schema; the value `0` is never sent. -/
def ExternalReferenceStatus.number : ExternalReferenceStatus → Int32
  | .confirmedNone => 1
  | .confirmedExternal => 2
  | .indeterminate => 3
  | .inconsistentEvidence => 4
  | .notApplicable => 5

structure LinkCountKnowledgeProto where
  status : Int32
  count : UInt32
deriving DecidableEq, Repr

namespace LinkCountKnowledgeProto

def fromValueKnowledge : ValueKnowledge UInt32 → LinkCountKnowledgeProto
  | .notObserved => { status := LinkCountKnowledgeStatus.notObserved.number, count := 0 }
  | .known c => { status := LinkCountKnowledgeStatus.known.number, count := c }
  | .unavailable => { status := LinkCountKnowledgeStatus.unavailable.number, count := 0 }
  | .notApplicable => { status := LinkCountKnowledgeStatus.notApplicable.number, count := 0 }

end LinkCountKnowledgeProto

structure ContentStreamProto where
  name : String
  logicalBytes : UInt64
  allocatedBytes : UInt64
  allocatedSizeKnown : Bool
deriving DecidableEq, Repr

/-- Canonical per-entry projection over the settled graph. -/
structure DirectoryEntryNode where
  id : UInt32
  parentId : UInt32
  name : String
  entryKind : UInt32
  logicalBytes : UInt64
  referencedAllocatedBytes : UInt64
  allocatedSizeKnown : Bool
  childCount : UInt32
  hasChildren : Bool
  uniqueAllocatedBytes : UInt64
  observedAliasCount : UInt32
  totalLinkCount : Option LinkCountKnowledgeProto
  externalReferenceStatus : Int32
  knownSubtotalAllocatedBytes : UInt64
  contentStreams : List ContentStreamProto
deriving DecidableEq, Repr

end PigTree
