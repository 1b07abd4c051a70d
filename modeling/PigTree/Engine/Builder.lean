import PigTree.Foundation.Saturating
import PigTree.Engine.Graph

/-!
# Ingesting an observation stream

The mutable builder the engine feeds record by record. Identifiers `1, 2, 3, …`
are resolved by arithmetic; the first identifier out of sequence switches the
builder to a map filled from the entries so far. Children are threaded through
three index vectors. A rejected record answers with an error and with the state
it leaves behind, which is not always the state it found.
-/

namespace PigTree

open Foundation

inductive GraphBuildError where
  | invalidRoot (entryId parentId : UInt32)
  | duplicateEntryId (id : UInt32)
  | missingParent (entryId parentId : UInt32)
  | parentNotDirectory (entryId parentId : UInt32)
  | selfParent (id : UInt32)
  | unknownStreamParent (entryId : UInt32)
  | recordAfterTerminal
  | missingTerminal
  | aggregateMismatch (field : String) (expected actual : UInt64)
deriving DecidableEq, Repr

structure GraphBuilder where
  rootTarget : String
  entries : List CompactEntry
  isDense : Bool
  idToIdx : IdMap
  firstChild : List UInt32
  lastChild : List UInt32
  nextSibling : List UInt32
  fileObjectMap : HashMap ObjectIdentity (List UInt32)
  dirObjectIds : HashMap UInt32 ObjectIdentity
  fileLinkCounts : HashMap UInt32 (ValueKnowledge UInt32)
  dirSelfAlloc : List UInt64
  pendingStreams : List (ℕ × StreamBreakdown)
  objectStreams : ObjectStreams
  gaps : List CoverageGapObservation
  terminal : Option TerminalObservation
  dirCount : UInt64
  fileCount : UInt64
  specialCount : UInt64
  logicalBytes : UInt64
  allocatedBytes : UInt64
  allocatedBytesKnown : Bool
  currentDirId : UInt32

namespace GraphBuilder

def new (rootTarget : String) : GraphBuilder where
  rootTarget := rootTarget
  entries := []
  isDense := true
  idToIdx := ∅
  firstChild := []
  lastChild := []
  nextSibling := []
  fileObjectMap := ∅
  dirObjectIds := ∅
  fileLinkCounts := ∅
  dirSelfAlloc := []
  pendingStreams := []
  objectStreams := ∅
  gaps := []
  terminal := none
  dirCount := 0
  fileCount := 0
  specialCount := 0
  logicalBytes := 0
  allocatedBytes := 0
  allocatedBytesKnown := true
  currentDirId := 0

/-- What a call answers, with the builder it leaves behind. -/
abbrev Ingest := Checked (Except GraphBuildError Unit × GraphBuilder)

def reject (builder : GraphBuilder) (err : GraphBuildError) : Ingest :=
  .ok (.error err, builder)

/-! ### Identifiers -/

/-- The map from the identifiers of the entries so far to their indices. -/
def sparseIndex (idToIdx : IdMap) (entries : List CompactEntry) : IdMap :=
  entries.zipIdx.foldl (fun map indexed => map.insert indexed.1.id (UInt32.ofNat indexed.2)) idToIdx

/-- Leave the dense mode when an identifier is not the next in sequence. -/
def switchToSparse (builder : GraphBuilder) (id : UInt32) : GraphBuilder :=
  if builder.isDense ∧ id ≠ UInt32.ofNat (builder.entries.length + 1) then
    { builder with
      isDense := false
      idToIdx := sparseIndex builder.idToIdx builder.entries }
  else builder

def isDuplicate (builder : GraphBuilder) (id : UInt32) : Bool :=
  if builder.isDense then id ≤ UInt32.ofNat builder.entries.length
  else (builder.idToIdx.lookup id).isSome

def lookupParent (builder : GraphBuilder) (parentId : UInt32) : Option ℕ :=
  if builder.isDense then
    if UInt32.ofNat builder.entries.length < parentId then none
    else some (parentId - 1).toNat
  else (builder.idToIdx.lookup parentId).map (·.toNat)

/-- Append the entry to be pushed next to its parent's child list. -/
def linkChild (builder : GraphBuilder) (parentIdx : ℕ) : Checked GraphBuilder := do
  let currIdx := UInt32.ofNat builder.entries.length
  let first ← getAt builder.firstChild parentIdx
  if first = u32Max then
    let firstChild ← setAt builder.firstChild parentIdx currIdx
    let lastChild ← setAt builder.lastChild parentIdx currIdx
    return { builder with firstChild, lastChild }
  else
    let prev ← getAt builder.lastChild parentIdx
    let nextSibling ← setAt builder.nextSibling prev.toNat currIdx
    let lastChild ← setAt builder.lastChild parentIdx currIdx
    return { builder with nextSibling, lastChild }

def pushEntry (builder : GraphBuilder) (id : UInt32) (entry : CompactEntry) (selfAlloc : UInt64) :
    GraphBuilder :=
  { builder with
    idToIdx :=
      if builder.isDense then builder.idToIdx
      else builder.idToIdx.insert id (UInt32.ofNat builder.entries.length)
    entries := builder.entries ++ [entry]
    dirSelfAlloc := builder.dirSelfAlloc ++ [selfAlloc]
    firstChild := builder.firstChild ++ [u32Max]
    lastChild := builder.lastChild ++ [u32Max]
    nextSibling := builder.nextSibling ++ [u32Max] }

/-- Check an entry below the root and link it to its parent. -/
def insertBelowRoot (builder : GraphBuilder) (id parentId : UInt32) (entry : CompactEntry)
    (selfAlloc : UInt64) : Ingest :=
  if builder.isDuplicate id then builder.reject (.duplicateEntryId id)
  else
    match builder.lookupParent parentId with
    | none => builder.reject (.missingParent id parentId)
    | some parentIdx => do
        let parent ← getAt builder.entries parentIdx
        if parent.kind ≠ .directory then builder.reject (.parentNotDirectory id parentId)
        else
          let linked ← builder.linkChild parentIdx
          return (.ok (), linked.pushEntry id entry selfAlloc)

def validateAndInsertEntry (builder : GraphBuilder) (id parentId : UInt32) (entry : CompactEntry)
    (selfAlloc : UInt64) : Ingest :=
  if id = parentId then builder.reject (.selfParent id)
  else if builder.entries.length = 0 then
    if id ≠ 1 ∨ parentId ≠ 0 then builder.reject (.invalidRoot id parentId)
    else if entry.kind ≠ .directory then builder.reject (.invalidRoot id parentId)
    else .ok (.ok (), builder.pushEntry id entry selfAlloc)
  else if parentId = 0 ∨ id = 1 then builder.reject (.invalidRoot id parentId)
  else (builder.switchToSparse id).insertBelowRoot id parentId entry selfAlloc

/-! ### Records -/

/-- Run `next` on the builder an accepted entry leaves behind; pass a rejection on. -/
def onAccepted (inserted : Ingest) (next : GraphBuilder → GraphBuilder) : Ingest := do
  match ← inserted with
  | (.error err, builder) => return (.error err, builder)
  | (.ok (), builder) => return (.ok (), next builder)

def directoryEntry (dir : DirectoryObservation) : CompactEntry where
  id := dir.entryId
  parentId := dir.parentId
  name := dir.name
  kind := .directory
  allocatedSizeKnown := true
  logicalSize := none
  allocatedSize := dir.allocatedSize
  referencedAllocatedBytes := dir.allocatedSize.getD 0
  uniqueAllocatedBytes := dir.allocatedSize.getD 0
  knownSubtotalAllocatedBytes := dir.allocatedSize.getD 0
  objectIndex := noObject
  fileAttributes := dir.fileAttributes
  reparseTag := dir.reparseTag
  childStart := 0
  childCount := 0
  creationTimeUtcMs := dir.creationTimeUtcMs
  lastWriteTimeUtcMs := dir.lastWriteTimeUtcMs
  lastAccessTimeUtcMs := dir.lastAccessTimeUtcMs

def fileEntry (file : FileObservation) : CompactEntry where
  id := file.entryId
  parentId := file.parentId
  name := file.name
  kind := .file
  allocatedSizeKnown := file.allocatedSize.isSome
  logicalSize := some file.logicalSize
  allocatedSize := file.allocatedSize
  referencedAllocatedBytes := file.allocatedSize.getD 0
  uniqueAllocatedBytes := file.allocatedSize.getD 0
  knownSubtotalAllocatedBytes := file.allocatedSize.getD 0
  objectIndex := noObject
  fileAttributes := file.fileAttributes
  reparseTag := file.reparseTag
  childStart := 0
  childCount := 0
  creationTimeUtcMs := file.creationTimeUtcMs
  lastWriteTimeUtcMs := file.lastWriteTimeUtcMs
  lastAccessTimeUtcMs := file.lastAccessTimeUtcMs

def specialEntry (special : SpecialObservation) : CompactEntry where
  id := special.entryId
  parentId := special.parentId
  name := special.name
  kind := .special
  allocatedSizeKnown := false
  logicalSize := none
  allocatedSize := none
  referencedAllocatedBytes := 0
  uniqueAllocatedBytes := 0
  knownSubtotalAllocatedBytes := 0
  objectIndex := noObject
  fileAttributes := special.fileAttributes
  reparseTag := special.reparseTag
  childStart := 0
  childCount := 0
  creationTimeUtcMs := special.creationTimeUtcMs
  lastWriteTimeUtcMs := special.lastWriteTimeUtcMs
  lastAccessTimeUtcMs := special.lastAccessTimeUtcMs

def recordDirectory (dir : DirectoryObservation) (builder : GraphBuilder) : GraphBuilder :=
  { builder with
    dirObjectIds :=
      match dir.objectId with
      | some oid => builder.dirObjectIds.insert dir.entryId oid
      | none => builder.dirObjectIds
    dirCount := builder.dirCount + 1
    allocatedBytes :=
      match dir.allocatedSize with
      | some alloc => saturatingAdd builder.allocatedBytes alloc
      | none => builder.allocatedBytes }

def ingestDirectory (builder : GraphBuilder) (dir : DirectoryObservation) : Ingest :=
  onAccepted
    (builder.validateAndInsertEntry dir.entryId dir.parentId (directoryEntry dir)
      (dir.allocatedSize.getD 0))
    (recordDirectory dir)

def recordFile (file : FileObservation) (builder : GraphBuilder) : GraphBuilder :=
  { builder with
    fileObjectMap :=
      match file.objectId with
      | some oid => pushAt builder.fileObjectMap oid file.entryId
      | none => builder.fileObjectMap
    fileLinkCounts :=
      if file.totalLinkCount ≠ .notObserved then
        builder.fileLinkCounts.insert file.entryId file.totalLinkCount
      else builder.fileLinkCounts
    fileCount := builder.fileCount + 1
    logicalBytes := saturatingAdd builder.logicalBytes file.logicalSize
    allocatedBytes :=
      match file.allocatedSize with
      | some alloc => saturatingAdd builder.allocatedBytes alloc
      | none => builder.allocatedBytes
    allocatedBytesKnown :=
      match file.allocatedSize with
      | some _ => builder.allocatedBytesKnown
      | none => false }

def ingestFile (builder : GraphBuilder) (file : FileObservation) : Ingest :=
  onAccepted
    (builder.validateAndInsertEntry file.entryId file.parentId (fileEntry file) 0)
    (recordFile file)

def recordSpecial (builder : GraphBuilder) : GraphBuilder :=
  { builder with specialCount := builder.specialCount + 1 }

def ingestSpecial (builder : GraphBuilder) (special : SpecialObservation) : Ingest :=
  onAccepted
    (builder.validateAndInsertEntry special.entryId special.parentId (specialEntry special) 0)
    recordSpecial

def storageGetIdx (builder : GraphBuilder) (id : UInt32) : Option ℕ :=
  if builder.isDense then
    if id = 0 ∨ builder.entries.length < id.toNat then none else some (id.toNat - 1)
  else (builder.idToIdx.lookup id).map (·.toNat)

def streamBreakdown (stream : StreamObservation) : StreamBreakdown where
  name := stream.name
  logicalBytes := stream.logicalSize
  allocatedBytes := stream.allocatedSize

/-- Streams never create entries; the owning object is only known at settlement,
so the index of the parent entry is kept until then. -/
def ingestStream (builder : GraphBuilder) (stream : StreamObservation) : Ingest :=
  match builder.storageGetIdx stream.parentEntryId with
  | none => builder.reject (.unknownStreamParent stream.parentEntryId)
  | some entryIdx =>
      .ok (.ok (), { builder with
        pendingStreams := builder.pendingStreams ++ [(entryIdx, streamBreakdown stream)] })

def ingestGap (builder : GraphBuilder) (gap : CoverageGapObservation) : Ingest :=
  .ok (.ok (), { builder with gaps := builder.gaps ++ [gap] })

/-- The first total of the terminal record that differs from the builder's own. -/
def terminalMismatch (builder : GraphBuilder) (term : TerminalObservation) :
    Option GraphBuildError :=
  if term.totalDirectories ≠ builder.dirCount then
    some (.aggregateMismatch "total_directories" term.totalDirectories builder.dirCount)
  else if term.totalFiles ≠ builder.fileCount then
    some (.aggregateMismatch "total_files" term.totalFiles builder.fileCount)
  else if term.totalLogicalBytes ≠ builder.logicalBytes then
    some (.aggregateMismatch "total_logical_bytes" term.totalLogicalBytes builder.logicalBytes)
  else if term.totalAllocatedBytes ≠ builder.allocatedBytes then
    some (.aggregateMismatch "total_allocated_bytes" term.totalAllocatedBytes
      builder.allocatedBytes)
  else if term.coverageGapCount ≠ UInt32.ofNat builder.gaps.length then
    some (.aggregateMismatch "coverage_gap_count" term.coverageGapCount.toUInt64
      (UInt64.ofNat builder.gaps.length))
  else none

def ingestTerminal (builder : GraphBuilder) (term : TerminalObservation) : Ingest :=
  match builder.terminalMismatch term with
  | some err => builder.reject err
  | none => .ok (.ok (), { builder with terminal := some term })

def ingestRecord (builder : GraphBuilder) (record : ObservationRecord) : Ingest :=
  if builder.terminal.isSome then builder.reject .recordAfterTerminal
  else
    match record with
    | .directory dir =>
        ingestDirectory
          { builder with currentDirId := if dir.parentId = 0 then dir.entryId else dir.parentId }
          dir
    | .file file => ingestFile { builder with currentDirId := file.parentId } file
    | .special special => ingestSpecial { builder with currentDirId := special.parentId } special
    | .contentStream stream => builder.ingestStream stream
    | .coverageGap gap => builder.ingestGap gap
    | .terminal term => builder.ingestTerminal term

/-- Feed records until one is rejected. -/
def ingestAll (builder : GraphBuilder) : List ObservationRecord → Ingest
  | [] => .ok (.ok (), builder)
  | record :: records => do
      match ← builder.ingestRecord record with
      | (.error err, next) => return (.error err, next)
      | (.ok (), next) => next.ingestAll records

end GraphBuilder

end PigTree
