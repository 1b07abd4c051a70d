import PigTree.Foundation.Checked
import PigTree.Foundation.HashMap
import PigTree.Protocol.Messages

/-!
# The directory graph

Storage of the finished graph and the queries the engine answers from it.
Entries are addressed by index inside the store and by identifier from outside;
a dense store computes the index from the identifier, a sparse one looks it up.
-/

namespace PigTree

open Foundation

/-- The largest 32-bit word, which the engine uses for "no link". -/
abbrev u32Max : UInt32 := 0xFFFFFFFF

def noObject : UInt32 := u32Max

inductive EntryKind where
  | directory
  | file
  | special
deriving DecidableEq, Repr

/-- Normalized identity, link evidence, and canonical weight for a distinct filesystem object. -/
structure ObjectRecord where
  identity : Option ObjectIdentity
  observedAliasCount : UInt32
  totalLinkCount : ValueKnowledge UInt32
  externalReferenceStatus : ExternalReferenceStatus
  weight : UInt64
deriving DecidableEq, Repr

/-- Size breakdown of one observed secondary content stream. -/
structure StreamBreakdown where
  name : String
  logicalBytes : UInt64
  allocatedBytes : Option UInt64
deriving DecidableEq, Repr

/-- Summary of one distinct object with alias or external-reference evidence. -/
structure HardLinkSummary where
  identity : ObjectIdentity
  observedAliasCount : UInt32
  totalLinkCount : ValueKnowledge UInt32
  externalReferenceStatus : ExternalReferenceStatus
  entryPaths : List String
deriving DecidableEq, Repr

structure CompactEntry where
  id : UInt32
  parentId : UInt32
  name : String
  kind : EntryKind
  allocatedSizeKnown : Bool
  logicalSize : Option UInt64
  allocatedSize : Option UInt64
  referencedAllocatedBytes : UInt64
  uniqueAllocatedBytes : UInt64
  knownSubtotalAllocatedBytes : UInt64
  objectIndex : UInt32
  fileAttributes : UInt32
  reparseTag : UInt32
  childStart : UInt32
  childCount : UInt32
  creationTimeUtcMs : UInt64
  lastWriteTimeUtcMs : UInt64
  lastAccessTimeUtcMs : UInt64
deriving DecidableEq, Repr

/-- A map from identifiers to entry indices. -/
abbrev IdMap := HashMap UInt32 UInt32

inductive EntryStorage where
  | dense (entries : List CompactEntry)
  | sparse (entries : List CompactEntry) (idToIdx : IdMap)

namespace EntryStorage

def entries : EntryStorage → List CompactEntry
  | dense entries => entries
  | sparse entries _ => entries

def len (storage : EntryStorage) : ℕ := storage.entries.length

def get (storage : EntryStorage) (id : UInt32) : Option CompactEntry :=
  if id = 0 then none
  else
    match storage with
    | dense entries => entries[(id - 1).toNat]?
    | sparse entries idToIdx => do
        let idx ← idToIdx.lookup id
        entries[idx.toNat]?

def getByIndex (storage : EntryStorage) (idx : ℕ) : Option CompactEntry :=
  storage.entries[idx]?

end EntryStorage

/-- A projected public entry in the directory graph. -/
structure GraphEntry where
  id : UInt32
  parentId : UInt32
  name : String
  kind : EntryKind
  logicalSize : Option UInt64
  allocatedSize : Option UInt64
  allocatedSizeKnown : Bool
  referencedAllocatedBytes : UInt64
  uniqueAllocatedBytes : UInt64
  knownSubtotalAllocatedBytes : UInt64
  objectId : Option ObjectIdentity
  observedAliasCount : UInt32
  totalLinkCount : ValueKnowledge UInt32
  externalReferenceStatus : ExternalReferenceStatus
  fileAttributes : UInt32
  reparseTag : UInt32
  creationTimeUtcMs : UInt64
  lastWriteTimeUtcMs : UInt64
  lastAccessTimeUtcMs : UInt64
  children : List UInt32
deriving DecidableEq, Repr

inductive GraphQueryError where
  | parentNotFound (id : UInt32)
  | parentNotDirectory (id : UInt32)
deriving DecidableEq, Repr

/-- The streams attributed to each object. -/
abbrev ObjectStreams := HashMap UInt32 (List StreamBreakdown)

structure DirectoryGraph where
  rootTarget : String
  rootId : UInt32
  storage : EntryStorage
  allChildren : List UInt32
  objects : List ObjectRecord
  objectStreams : ObjectStreams
  gaps : List CoverageGapObservation
  terminal : TerminalObservation
  allocatedBytesKnown : Bool
  indeterminateExternalReferenceObjects : UInt64

/-- A bounds-checked slice of `count` items from `start`. -/
def sliceAt {α : Type} (items : List α) (start count : ℕ) : Checked (List α) :=
  if start + count ≤ items.length then .ok ((items.drop start).take count)
  else .error .indexOutOfBounds

namespace DirectoryGraph

def childrenOf (graph : DirectoryGraph) (compact : CompactEntry) : Checked (List UInt32) :=
  if compact.childCount = 0 then .ok []
  else sliceAt graph.allChildren compact.childStart.toNat compact.childCount.toNat

/-- Identity and link evidence in the public projection of an entry: those of its
object, or the defaults of its kind when no object is recorded for it. -/
def entryEvidence (graph : DirectoryGraph) (compact : CompactEntry) :
    Checked (Option ObjectIdentity × UInt32 × ValueKnowledge UInt32 × ExternalReferenceStatus) :=
  if compact.objectIndex ≠ noObject then do
    let obj ← getAt graph.objects compact.objectIndex.toNat
    return (obj.identity, obj.observedAliasCount, obj.totalLinkCount, obj.externalReferenceStatus)
  else
    match compact.kind with
    | .directory => .ok (none, 1, .notApplicable, .notApplicable)
    | .special => .ok (none, 1, .notApplicable, .notApplicable)
    | .file => .ok (none, 1, .notObserved, ExternalReferenceStatus.derive .notObserved 1)

def projectGraphEntry (graph : DirectoryGraph) (compact : CompactEntry) : Checked GraphEntry := do
  let children ← graph.childrenOf compact
  let evidence ← graph.entryEvidence compact
  return {
    id := compact.id
    parentId := compact.parentId
    name := compact.name
    kind := compact.kind
    logicalSize := compact.logicalSize
    allocatedSize := compact.allocatedSize
    allocatedSizeKnown := compact.allocatedSizeKnown
    referencedAllocatedBytes := compact.referencedAllocatedBytes
    uniqueAllocatedBytes := compact.uniqueAllocatedBytes
    knownSubtotalAllocatedBytes := compact.knownSubtotalAllocatedBytes
    objectId := evidence.1
    observedAliasCount := evidence.2.1
    totalLinkCount := evidence.2.2.1
    externalReferenceStatus := evidence.2.2.2
    fileAttributes := compact.fileAttributes
    reparseTag := compact.reparseTag
    creationTimeUtcMs := compact.creationTimeUtcMs
    lastWriteTimeUtcMs := compact.lastWriteTimeUtcMs
    lastAccessTimeUtcMs := compact.lastAccessTimeUtcMs
    children := children
  }

def entry (graph : DirectoryGraph) (id : UInt32) : Checked (Option GraphEntry) :=
  match graph.storage.get id with
  | none => .ok none
  | some compact => do
      let projected ← graph.projectGraphEntry compact
      return some projected

/-- Observed secondary content streams of the object behind an entry. -/
def streamsForEntry (graph : DirectoryGraph) (entryId : UInt32) : List StreamBreakdown :=
  match graph.storage.get entryId with
  | none => []
  | some compact =>
      if compact.objectIndex ≠ noObject then
        (graph.objectStreams.lookup compact.objectIndex).getD []
      else []

def totalEntries (graph : DirectoryGraph) : ℕ := graph.storage.len

def referencedAllocatedBytes (graph : DirectoryGraph) : UInt64 :=
  ((graph.storage.get graph.rootId).map (·.referencedAllocatedBytes)).getD 0

def uniqueAllocatedBytes (graph : DirectoryGraph) : UInt64 :=
  ((graph.storage.get graph.rootId).map (·.uniqueAllocatedBytes)).getD 0

def knownSubtotalAllocatedBytes (graph : DirectoryGraph) : UInt64 :=
  ((graph.storage.get graph.rootId).map (·.knownSubtotalAllocatedBytes)).getD 0

def logicalBytes (graph : DirectoryGraph) : UInt64 :=
  ((graph.storage.get graph.rootId).bind (·.logicalSize)).getD 0

/-! ### Display paths -/

/-- The names from an entry up to the root, in that order; `none` when a parent
is not stored. The walk of a graph whose parents form a cycle runs out of fuel. -/
def namesToRoot (graph : DirectoryGraph) : ℕ → CompactEntry → Checked (Option (List String))
  | 0, _ => .error .outOfFuel
  | fuel + 1, current =>
      if current.parentId = 0 then .ok (some [current.name])
      else
        match graph.storage.get current.parentId with
        | none => .ok none
        | some parent => do
            let above ← graph.namesToRoot fuel parent
            return above.map (current.name :: ·)

def endsWithBackslash (text : String) : Bool := text.toList.getLast? = some '\\'

/-- Root name, then every further name, each followed by a separator; the last one is popped. -/
def joinNames (names : List String) : Option String :=
  match names.reverse with
  | [] => none
  | root :: below =>
      let start := if endsWithBackslash root then root else root.push '\\'
      let path := below.foldl (fun path name => (path ++ name).push '\\') start
      some (String.ofList path.toList.dropLast)

/-- Display path of an entry: the root's name followed by entry names. -/
def displayPath (graph : DirectoryGraph) (id : UInt32) : Checked (Option String) :=
  match graph.storage.get id with
  | none => .ok none
  | some start => do
      let names ← graph.namesToRoot (graph.storage.len + 1) start
      return names.bind joinNames

/-! ### Hard links -/

/-- Only objects with several aliases or a definitive external status are reported. -/
def isReported (obj : ObjectRecord) : Bool :=
  2 ≤ obj.observedAliasCount || obj.externalReferenceStatus = .confirmedExternal ||
    obj.externalReferenceStatus = .inconsistentEvidence

/-- The indices of the reported objects, as the engine keys them. -/
def relevantObjects (graph : DirectoryGraph) : List UInt32 :=
  ((graph.objects.zipIdx).filter (fun indexed => isReported indexed.1)).map
    (fun indexed => UInt32.ofNat indexed.2)

/-- Paths collected per object, and the objects in order of their first path. -/
structure PathIndex where
  byObject : HashMap UInt32 (List String)
  ordered : List UInt32

def collectPath (graph : DirectoryGraph) (relevant : List UInt32) (index : PathIndex)
    (compact : CompactEntry) : Checked PathIndex :=
  if compact.objectIndex ∈ relevant then do
    let path ← graph.displayPath compact.id
    match path with
    | none => return index
    | some path =>
        return {
          ordered :=
            if (index.byObject.lookup compact.objectIndex).isSome then index.ordered
            else index.ordered ++ [compact.objectIndex]
          byObject := pushAt index.byObject compact.objectIndex path
        }
  else return index

/-- One turn of the loop over the indices of the entries. -/
def collectAt (graph : DirectoryGraph) (relevant : List UInt32) (index : PathIndex) (idx : ℕ) :
    Checked PathIndex :=
  match graph.storage.getByIndex idx with
  | none => .ok index
  | some compact => graph.collectPath relevant index compact

def summarize (graph : DirectoryGraph) (index : PathIndex) (objIdx : UInt32) :
    Checked (Option HardLinkSummary) := do
  let obj ← getAt graph.objects objIdx.toNat
  return obj.identity.map (fun identity => {
    identity
    observedAliasCount := obj.observedAliasCount
    totalLinkCount := obj.totalLinkCount
    externalReferenceStatus := obj.externalReferenceStatus
    entryPaths := (index.byObject.lookup objIdx).getD []
  })

/-- Summaries of every reported object, together with the entry paths that refer to it. -/
def hardLinkObjects (graph : DirectoryGraph) : Checked (List HardLinkSummary) :=
  let relevant := graph.relevantObjects
  if relevant = [] then .ok []
  else do
    let index ← (List.range graph.storage.len).foldlM (graph.collectAt relevant)
      { byObject := ∅, ordered := [] }
    index.ordered.foldlM (fun summaries objIdx => do
      let summary ← graph.summarize index objIdx
      return summaries ++ summary.toList) []

/-! ### Pages of children -/

def streamProto (stream : StreamBreakdown) : ContentStreamProto where
  name := stream.name
  logicalBytes := stream.logicalBytes
  allocatedBytes := stream.allocatedBytes.getD 0
  allocatedSizeKnown := stream.allocatedBytes.isSome

def entryKindCode : EntryKind → UInt32
  | .directory => 1
  | .file => 2
  | .special => 3

/-- Link evidence in a page node, with the defaults a page uses. -/
def nodeEvidence (graph : DirectoryGraph) (compact : CompactEntry) :
    Checked (UInt32 × LinkCountKnowledgeProto × ExternalReferenceStatus) :=
  if compact.objectIndex ≠ noObject then do
    let obj ← getAt graph.objects compact.objectIndex.toNat
    return (obj.observedAliasCount, .fromValueKnowledge obj.totalLinkCount,
      obj.externalReferenceStatus)
  else
    match compact.kind with
    | .directory => .ok (1, .fromValueKnowledge .notApplicable, .notApplicable)
    | .special => .ok (1, .fromValueKnowledge .notApplicable, .notApplicable)
    | .file => .ok (1, .fromValueKnowledge .notObserved, .indeterminate)

def directoryEntryNode (graph : DirectoryGraph) (compact : CompactEntry) :
    Checked DirectoryEntryNode := do
  let evidence ← graph.nodeEvidence compact
  return {
    id := compact.id
    parentId := compact.parentId
    name := compact.name
    entryKind := entryKindCode compact.kind
    logicalBytes := compact.logicalSize.getD 0
    referencedAllocatedBytes := compact.referencedAllocatedBytes
    allocatedSizeKnown := compact.allocatedSizeKnown
    childCount := compact.childCount
    hasChildren := 0 < compact.childCount
    uniqueAllocatedBytes := compact.uniqueAllocatedBytes
    observedAliasCount := evidence.1
    totalLinkCount := some evidence.2.1
    externalReferenceStatus := evidence.2.2.number
    knownSubtotalAllocatedBytes := compact.knownSubtotalAllocatedBytes
    contentStreams :=
      if compact.objectIndex ≠ noObject then
        ((graph.objectStreams.lookup compact.objectIndex).getD []).map streamProto
      else []
  }

/-- The nodes of the listed identifiers; an identifier the store does not
resolve is skipped. -/
def pageNodes (graph : DirectoryGraph) : List UInt32 → Checked (List DirectoryEntryNode)
  | [] => .ok []
  | id :: ids =>
      match graph.storage.get id with
      | none => graph.pageNodes ids
      | some compact => do
          let node ← graph.directoryEntryNode compact
          let nodes ← graph.pageNodes ids
          return node :: nodes

/-- The identifiers of the children of `parentId`; parent `0` has the root as its only child. -/
def childIds (graph : DirectoryGraph) (parentId : UInt32) :
    Checked (Except GraphQueryError (List UInt32)) :=
  if parentId = 0 then
    if graph.rootId ≠ 0 ∧ (graph.storage.get graph.rootId).isSome then .ok (.ok [graph.rootId])
    else .ok (.ok [])
  else
    match graph.storage.get parentId with
    | none => .ok (.error (.parentNotFound parentId))
    | some parent =>
        if parent.kind ≠ .directory then .ok (.error (.parentNotDirectory parentId))
        else do
          let ids ← sliceAt graph.allChildren parent.childStart.toNat parent.childCount.toNat
          return .ok ids

/-- One page of the immediate children of an entry, with the number of all of them. -/
def getChildrenPage (graph : DirectoryGraph) (parentId : UInt32) (offset limit : ℕ) :
    Checked (Except GraphQueryError (ℕ × List DirectoryEntryNode)) := do
  match ← graph.childIds parentId with
  | .error err => return .error err
  | .ok ids =>
      let totalChildren := ids.length
      if totalChildren ≤ offset then return .ok (totalChildren, [])
      else
        let nodes ← graph.pageNodes ((ids.drop offset).take (min (offset + limit) totalChildren - offset))
        return .ok (totalChildren, nodes)

end DirectoryGraph

end PigTree
