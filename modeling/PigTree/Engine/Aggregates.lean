import PigTree.Engine.Builder

/-!
# Settling the graph

`computeAggregates` turns the ingested entries into the finished graph in five
phases: one object record per distinct file object, a postorder traversal that
subtracts shared weights at lowest common ancestors, unique sizes of the leaves,
sums of the directories bottom-up, and the sorted child table. Every index,
lookup, checked addition and assertion of the code is an abort of the model.
-/

namespace PigTree

open Foundation

/-- What the language's library leaves open: the order in which a hash map is
visited, and the lowercase mapping of strings. -/
structure Runtime where
  toLowercase : String → String
  fileObjectOrder : IterationOrder ObjectIdentity (List UInt32)
  dirObjectOrder : IterationOrder UInt32 ObjectIdentity

/-- A 128-bit signed result, or the abort of a checked operation that overflowed. -/
def checkedI128 (message : String) (value : ℤ) : Checked ℤ :=
  if -(2 ^ 127) ≤ value ∧ value < 2 ^ 127 then .ok value else .error (.expectFailed message)

/-! ### Link and allocation evidence of one object -/

structure LinkResolution where
  resolvedLink : ValueKnowledge UInt32
  hasLinkConflict : Bool
  firstKnownLink : Option UInt32

namespace LinkResolution

def initial : LinkResolution where
  resolvedLink := .notObserved
  hasLinkConflict := false
  firstKnownLink := none

def observe (resolution : LinkResolution) (link : ValueKnowledge UInt32) : LinkResolution :=
  match link with
  | .known k =>
      match resolution.firstKnownLink with
      | none => { resolution with firstKnownLink := some k, resolvedLink := .known k }
      | some prev => if prev ≠ k then { resolution with hasLinkConflict := true } else resolution
  | .unavailable =>
      if resolution.firstKnownLink.isNone then { resolution with resolvedLink := .unavailable }
      else resolution
  | .notApplicable =>
      if resolution.firstKnownLink.isNone ∧ resolution.resolvedLink ≠ .unavailable then
        { resolution with resolvedLink := .notApplicable }
      else resolution
  | .notObserved => resolution

end LinkResolution

structure AllocResolution where
  minAlloc : Option UInt64
  hasAllocConflict : Bool
  firstAlloc : Option UInt64

namespace AllocResolution

def initial : AllocResolution where
  minAlloc := none
  hasAllocConflict := false
  firstAlloc := none

def observe (resolution : AllocResolution) (allocatedSize : Option UInt64) : AllocResolution :=
  match allocatedSize with
  | none => resolution
  | some alloc =>
      { minAlloc := some (resolution.minAlloc.elim alloc (fun m => min m alloc))
        hasAllocConflict :=
          match resolution.firstAlloc with
          | none => resolution.hasAllocConflict
          | some prev => resolution.hasAllocConflict || prev ≠ alloc
        firstAlloc := some (resolution.firstAlloc.getD alloc) }

end AllocResolution

/-- The data phase 1 updates. -/
structure Normalized where
  entries : List CompactEntry
  objects : List ObjectRecord
  indeterminateObjects : UInt64
  allocatedBytesKnown : Bool

/-- The data the traversal updates; the top of the stack comes first. -/
structure Traversal where
  stack : List (ℕ × UInt32)
  visited : List Bool
  treeDelta : List ℤ
  ufParent : List UInt32
  ancestor : List UInt32
  postOrder : List ℕ
  lastOccurrence : List (Option ℕ)

/-- The running sums over the children of one directory. -/
structure ChildSums where
  sumLogical : UInt64
  sumReferenced : UInt64
  sumKnownSubtotal : UInt64
  childUniqueSum : ℤ
  allKnown : Bool

/-- The data phase 5 updates. -/
structure ChildTable where
  entries : List CompactEntry
  allChildren : List UInt32

namespace GraphBuilder

/-- Index of an accepted identifier. -/
def entryIndex (builder : GraphBuilder) (id : UInt32) : Checked ℕ :=
  if builder.isDense then .ok (id - 1).toNat
  else
    match builder.idToIdx.lookup id with
    | some idx => .ok idx.toNat
    | none => .error .missingKey

/-! ### Phase 1: object records -/

def linkOf (builder : GraphBuilder) (id : UInt32) : ValueKnowledge UInt32 :=
  (builder.fileLinkCounts.lookup id).getD .notObserved

def resolveLinks (builder : GraphBuilder) (entryIds : List UInt32) : LinkResolution :=
  entryIds.foldl (fun resolution id => resolution.observe (builder.linkOf id)) .initial

def resolveAllocs (builder : GraphBuilder) (entries : List CompactEntry)
    (entryIds : List UInt32) : Checked AllocResolution :=
  entryIds.foldlM (fun resolution id => do
    let eIdx ← builder.entryIndex id
    let entry ← getAt entries eIdx
    return resolution.observe entry.allocatedSize) .initial

/-- Update the entries of a list of identifiers, one after the other. -/
def updateEntries (builder : GraphBuilder) (entryIds : List UInt32)
    (update : CompactEntry → CompactEntry) (entries : List CompactEntry) :
    Checked (List CompactEntry) :=
  entryIds.foldlM (fun entries id => do
    let eIdx ← builder.entryIndex id
    modifyAt entries eIdx update) entries

def linkStatus (links : LinkResolution) (observedCount : UInt32) : ExternalReferenceStatus :=
  if links.hasLinkConflict then .inconsistentEvidence
  else ExternalReferenceStatus.derive links.resolvedLink observedCount

/-- Conflicting sizes among the aliases make all of them unknown. -/
def flagConflict (builder : GraphBuilder) (allocs : AllocResolution) (entryIds : List UInt32)
    (entries : List CompactEntry) : Checked (List CompactEntry) :=
  if allocs.hasAllocConflict then
    builder.updateEntries entryIds (fun entry => { entry with allocatedSizeKnown := false }) entries
  else .ok entries

def normalizeFileObject (builder : GraphBuilder) (state : Normalized)
    (object : ObjectIdentity × List UInt32) : Checked Normalized := do
  let entryIds := object.2
  let observedCount := UInt32.ofNat entryIds.length
  let links := builder.resolveLinks entryIds
  let status := linkStatus links observedCount
  let allocs ← builder.resolveAllocs state.entries entryIds
  let entries ← builder.flagConflict allocs entryIds state.entries
  let objIdx := UInt32.ofNat state.objects.length
  let entries ← builder.updateEntries entryIds (fun entry => { entry with objectIndex := objIdx })
    entries
  return {
    entries
    objects := state.objects ++ [{
      identity := some object.1
      observedAliasCount := observedCount
      totalLinkCount := links.resolvedLink
      externalReferenceStatus := status
      weight := allocs.minAlloc.getD 0 }]
    indeterminateObjects :=
      if status = .indeterminate then state.indeterminateObjects + 1
      else state.indeterminateObjects
    allocatedBytesKnown := state.allocatedBytesKnown && !allocs.hasAllocConflict
  }

def normalizeDirObject (builder : GraphBuilder) (state : Normalized)
    (object : UInt32 × ObjectIdentity) : Checked Normalized := do
  let eIdx ← builder.entryIndex object.1
  let objIdx := UInt32.ofNat state.objects.length
  let entries ← modifyAt state.entries eIdx (fun entry => { entry with objectIndex := objIdx })
  return { state with
    entries
    objects := state.objects ++ [{
      identity := some object.2
      observedAliasCount := 1
      totalLinkCount := .notApplicable
      externalReferenceStatus := .notApplicable
      weight := 0 }] }

/-- One pass of the loop over all entries; the entries already visited are in the state. -/
def normalizeAnonymousFile (builder : GraphBuilder) (state : Normalized) (entry : CompactEntry) :
    Normalized :=
  if entry.kind = .file ∧ entry.objectIndex = noObject then
    let link := builder.linkOf entry.id
    let status := ExternalReferenceStatus.derive link 1
    let indeterminateObjects :=
      if status = .indeterminate then state.indeterminateObjects + 1
      else state.indeterminateObjects
    if link ≠ .notObserved then
      { state with
        entries := state.entries ++
          [{ entry with objectIndex := UInt32.ofNat state.objects.length }]
        objects := state.objects ++ [{
          identity := none
          observedAliasCount := 1
          totalLinkCount := link
          externalReferenceStatus := status
          weight := entry.allocatedSize.getD 0 }]
        indeterminateObjects }
    else { state with entries := state.entries ++ [entry], indeterminateObjects }
  else { state with entries := state.entries ++ [entry] }

/-- The state before phase 1. -/
def initialNormalized (builder : GraphBuilder) : Normalized where
  entries := builder.entries
  objects := []
  indeterminateObjects := 0
  allocatedBytesKnown := builder.allocatedBytesKnown

def normalizeObjects (rt : Runtime) (builder : GraphBuilder) : Checked Normalized := do
  let state ← (rt.fileObjectOrder.visit builder.fileObjectMap).foldlM builder.normalizeFileObject
    builder.initialNormalized
  let state ← (rt.dirObjectOrder.visit builder.dirObjectIds).foldlM builder.normalizeDirObject state
  return state.entries.foldl builder.normalizeAnonymousFile { state with entries := [] }

/-- Streams whose parent entry has no object are dropped. -/
def attributeStream (entries : List CompactEntry) (streams : ObjectStreams)
    (pending : ℕ × StreamBreakdown) : Checked ObjectStreams := do
  let entry ← getAt entries pending.1
  if entry.objectIndex ≠ noObject then return pushAt streams entry.objectIndex pending.2
  else return streams

def attributeStreams (builder : GraphBuilder) (entries : List CompactEntry) :
    Checked ObjectStreams :=
  builder.pendingStreams.foldlM (attributeStream entries) builder.objectStreams

/-! ### Phase 2: postorder traversal with shared weights -/

def findRootStep (parent : List UInt32) (root : ℕ) : Checked (Option ℕ) := do
  let next ← getAt parent root
  if next.toNat ≠ root then return some next.toNat else return none

/-- Point one node of the path at the root and move on to its former parent. -/
def compressStep (root : ℕ) (state : List UInt32 × ℕ) : Checked (Option (List UInt32 × ℕ)) :=
  if state.2 ≠ root then do
    let nxt ← getAt state.1 state.2
    let parent ← setAt state.1 state.2 (UInt32.ofNat root)
    return some (parent, nxt.toNat)
  else return none

/-- The representative of a node, with the vector its path compression leaves. -/
def findUf (parent : List UInt32) (i : ℕ) : Checked (ℕ × List UInt32) := do
  let root ← whileSome (findRootStep parent) (parent.length + 1) i
  let compressed ← whileSome (compressStep root) (parent.length + 1) (parent, i)
  return (root, compressed.1)

/-- Subtract a shared weight at the lowest common ancestor with the previous alias. -/
def subtractShared (t : Traversal) (prevIdx : ℕ) (weight : UInt64) : Checked Traversal := do
  let (rep, ufParent) ← findUf t.ufParent prevIdx
  let lcaIdx ← getAt t.ancestor rep
  let delta ← getAt t.treeDelta lcaIdx.toNat
  let delta ← checkedI128 "delta subtraction underflow" (delta - weight.toNat)
  let treeDelta ← setAt t.treeDelta lcaIdx.toNat delta
  return { t with ufParent, treeDelta }

def subtractPrevious (t : Traversal) (previous : Option ℕ) (weight : UInt64) :
    Checked Traversal :=
  match previous with
  | some prevIdx => subtractShared t prevIdx weight
  | none => .ok t

def noteOccurrence (entries : List CompactEntry) (objects : List ObjectRecord) (t : Traversal)
    (curr : ℕ) : Checked Traversal := do
  let compact ← getAt entries curr
  if compact.kind = .file ∧ compact.objectIndex ≠ noObject then
    let objIdx := compact.objectIndex.toNat
    let obj ← getAt objects objIdx
    if 0 < obj.weight then
      let previous ← getAt t.lastOccurrence objIdx
      let t ← subtractPrevious t previous obj.weight
      let lastOccurrence ← setAt t.lastOccurrence objIdx (some curr)
      return { t with lastOccurrence }
    else return t
  else return t

/-- Union a finished entry with its parent, which is now on top of the stack. -/
def mergeIntoParent (t : Traversal) (curr : ℕ) : Checked Traversal :=
  match t.stack with
  | [] => .ok t
  | (parentIdx, _) :: _ => do
      let (rootP, ufParent) ← findUf t.ufParent parentIdx
      let (rootC, ufParent) ← findUf ufParent curr
      let ufParent ← setAt ufParent rootC (UInt32.ofNat rootP)
      let ancestor ← setAt t.ancestor rootP (UInt32.ofNat parentIdx)
      return { t with ufParent, ancestor }

/-- Finish the entry popped from the stack. -/
def finishEntry (entries : List CompactEntry) (objects : List ObjectRecord) (t : Traversal)
    (curr : ℕ) : Checked Traversal := do
  let t ← noteOccurrence entries objects t curr
  mergeIntoParent { t with postOrder := t.postOrder ++ [curr] } curr

def traverseStep (builder : GraphBuilder) (entries : List CompactEntry)
    (objects : List ObjectRecord) (t : Traversal) : Checked (Option Traversal) :=
  match t.stack with
  | [] => .ok none
  | (curr, nextChild) :: below =>
      if nextChild ≠ u32Max then do
        let child := nextChild.toNat
        let sibling ← getAt builder.nextSibling child
        let seen ← getAt t.visited child
        if seen then return some { t with stack := (curr, sibling) :: below }
        else
          let visited ← setAt t.visited child true
          let first ← getAt builder.firstChild child
          return some { t with visited, stack := (child, first) :: (curr, sibling) :: below }
      else do
        let t ← finishEntry entries objects { t with stack := below } curr
        return some t

/-- Run the traversal from an entry that has not been visited. -/
def traverseFrom (builder : GraphBuilder) (entries : List CompactEntry)
    (objects : List ObjectRecord) (t : Traversal) (start : ℕ) : Checked Traversal := do
  let visited ← setAt t.visited start true
  let first ← getAt builder.firstChild start
  whileSome (builder.traverseStep entries objects) (2 * entries.length + 1)
    { t with visited, stack := (start, first) :: t.stack }

def initialTraversal (n : ℕ) (objectCount : ℕ) : Traversal where
  stack := []
  visited := List.replicate n false
  treeDelta := List.replicate n 0
  ufParent := (List.range (UInt32.ofNat n).toNat).map UInt32.ofNat
  ancestor := (List.range (UInt32.ofNat n).toNat).map UInt32.ofNat
  postOrder := []
  lastOccurrence := List.replicate objectCount none

/-- The root's component first, then whatever it did not reach. -/
def traverse (builder : GraphBuilder) (entries : List CompactEntry)
    (objects : List ObjectRecord) : Checked Traversal := do
  let n := entries.length
  let t ← builder.traverseFrom entries objects (initialTraversal n objects.length) 0
  if t.postOrder.length < n then
    (List.range n).foldlM (fun t i => do
      let seen ← getAt t.visited i
      if seen then return t else builder.traverseFrom entries objects t i) t
  else return t

/-! ### Phase 3: unique sizes of the leaves -/

def setLeafUnique (objects : List ObjectRecord) (entries : List CompactEntry) (idx : ℕ) :
    Checked (List CompactEntry) := do
  let compact ← getAt entries idx
  match compact.kind with
  | .file =>
      if compact.objectIndex ≠ noObject then
        let obj ← getAt objects compact.objectIndex.toNat
        setAt entries idx { compact with uniqueAllocatedBytes := obj.weight }
      else setAt entries idx { compact with uniqueAllocatedBytes := compact.allocatedSize.getD 0 }
  | .special => setAt entries idx { compact with uniqueAllocatedBytes := 0 }
  | .directory => return entries

/-! ### Phase 4: directory sums -/

def sumChildrenStep (builder : GraphBuilder) (entries : List CompactEntry)
    (state : ChildSums × UInt32) : Checked (Option (ChildSums × UInt32)) :=
  if state.2 = u32Max then return none
  else do
    let sums := state.1
    let child ← getAt entries state.2.toNat
    let childUniqueSum ← checkedI128 "child unique sum overflow"
      (sums.childUniqueSum + child.uniqueAllocatedBytes.toNat)
    let next ← getAt builder.nextSibling state.2.toNat
    return some ({
      sumLogical := saturatingAdd sums.sumLogical (child.logicalSize.getD 0)
      sumReferenced := saturatingAdd sums.sumReferenced child.referencedAllocatedBytes
      sumKnownSubtotal := saturatingAdd sums.sumKnownSubtotal child.knownSubtotalAllocatedBytes
      childUniqueSum
      allKnown := sums.allKnown && child.allocatedSizeKnown &&
        !(child.kind = .file && child.allocatedSize.isNone) }, next)

def sumChildren (builder : GraphBuilder) (entries : List CompactEntry) (idx : ℕ) :
    Checked ChildSums := do
  let selfAlloc ← getAt builder.dirSelfAlloc idx
  let first ← getAt builder.firstChild idx
  let final ← whileSome (builder.sumChildrenStep entries) (entries.length + 1)
    ({ sumLogical := 0, sumReferenced := selfAlloc, sumKnownSubtotal := selfAlloc,
       childUniqueSum := 0, allKnown := true }, first)
  return final.1

/-- What the assertion on the unique bytes of a directory says when it fails. -/
def negativeUnique (net : ℤ) (id : UInt32) : Fault :=
  .assertionFailed ("negative unique allocated bytes (" ++ toString net ++
    ") for directory ID " ++ toString id.toNat ++ ": invariant violation")

/-- Unique bytes of a directory, before they are truncated to 64 bits. -/
def netUnique (builder : GraphBuilder) (treeDelta : List ℤ) (childUniqueSum : ℤ) (idx : ℕ)
    (id : UInt32) : Checked ℤ := do
  let selfAlloc ← getAt builder.dirSelfAlloc idx
  let delta ← getAt treeDelta idx
  let shared ← checkedI128 "unique calculation overflow" (childUniqueSum + delta)
  let net ← checkedI128 "unique calculation overflow" (shared + selfAlloc.toNat)
  if 0 ≤ net then return net
  else .error (negativeUnique net id)

def aggregateDirectory (builder : GraphBuilder) (treeDelta : List ℤ)
    (entries : List CompactEntry) (idx : ℕ) : Checked (List CompactEntry) := do
  let compact ← getAt entries idx
  if compact.kind ≠ .directory then return entries
  else
    let sums ← builder.sumChildren entries idx
    let net ← builder.netUnique treeDelta sums.childUniqueSum idx compact.id
    setAt entries idx { compact with
      logicalSize := some sums.sumLogical
      referencedAllocatedBytes := sums.sumReferenced
      knownSubtotalAllocatedBytes := sums.sumKnownSubtotal
      allocatedSize := some sums.sumReferenced
      allocatedSizeKnown := sums.allKnown
      uniqueAllocatedBytes := UInt64.ofNat net.toNat }

/-! ### Phase 5: the sorted child table -/

/-- Directories first, larger logical size first, then lowercase name, name and identifier. -/
def compareChildren (rt : Runtime) (left right : UInt32 × CompactEntry) : Ordering :=
  let a := left.2
  let b := right.2
  let aIsDir := decide (a.kind = .directory)
  let bIsDir := decide (b.kind = .directory)
  if aIsDir ≠ bIsDir then compare bIsDir aIsDir
  else if a.logicalSize.getD 0 ≠ b.logicalSize.getD 0 then
    compare (b.logicalSize.getD 0) (a.logicalSize.getD 0)
  else if rt.toLowercase a.name ≠ rt.toLowercase b.name then
    compare (rt.toLowercase a.name) (rt.toLowercase b.name)
  else if a.name ≠ b.name then compare a.name b.name
  else compare left.1 right.1

def sortChildren (rt : Runtime) (children : List (UInt32 × CompactEntry)) :
    List (UInt32 × CompactEntry) :=
  children.insertionSort (fun left right => compareChildren rt left right ≠ .gt)

def collectChildStep (builder : GraphBuilder) (entries : List CompactEntry)
    (state : List UInt32 × UInt32) : Checked (Option (List UInt32 × UInt32)) :=
  if state.2 = u32Max then return none
  else do
    let child ← getAt entries state.2.toNat
    let next ← getAt builder.nextSibling state.2.toNat
    return some (state.1 ++ [child.id], next)

def collectChildIds (builder : GraphBuilder) (entries : List CompactEntry) (idx : ℕ) :
    Checked (List UInt32) := do
  let first ← getAt builder.firstChild idx
  let final ← whileSome (builder.collectChildStep entries) (entries.length + 1) ([], first)
  return final.1

/-- The child identifiers with the entries the comparison looks up for them. -/
def lookupChildren (builder : GraphBuilder) (entries : List CompactEntry) (childIds : List UInt32) :
    Checked (List (UInt32 × CompactEntry)) :=
  childIds.foldlM (fun found id => do
    let eIdx ← builder.entryIndex id
    let entry ← getAt entries eIdx
    return found ++ [(id, entry)]) []

def layOutChildren (rt : Runtime) (builder : GraphBuilder) (table : ChildTable) (idx : ℕ) :
    Checked ChildTable := do
  let compact ← getAt table.entries idx
  if compact.kind = .directory then
    let childIds ← builder.collectChildIds table.entries idx
    let children ← builder.lookupChildren table.entries childIds
    let sorted := (sortChildren rt children).map Prod.fst
    let entries ← setAt table.entries idx { compact with
      childStart := UInt32.ofNat table.allChildren.length
      childCount := UInt32.ofNat sorted.length }
    return { entries, allChildren := table.allChildren ++ sorted }
  else
    let entries ← setAt table.entries idx { compact with childStart := 0, childCount := 0 }
    return { table with entries }

/-! ### Settlement -/

/-- Everything `computeAggregates` produces. -/
structure Aggregates where
  entries : List CompactEntry
  objects : List ObjectRecord
  objectStreams : ObjectStreams
  allChildren : List UInt32
  indeterminateObjects : UInt64
  allocatedBytesKnown : Bool

def computeAggregates (rt : Runtime) (builder : GraphBuilder) : Checked Aggregates := do
  let normalized ← builder.normalizeObjects rt
  let objects := normalized.objects
  let objectStreams ← builder.attributeStreams normalized.entries
  let t ← builder.traverse normalized.entries objects
  let entries ← t.postOrder.foldlM (setLeafUnique objects) normalized.entries
  let entries ← t.postOrder.foldlM (builder.aggregateDirectory t.treeDelta) entries
  let table ← (List.range entries.length).foldlM (builder.layOutChildren rt)
    { entries, allChildren := [] }
  return {
    entries := table.entries
    objects
    objectStreams
    allChildren := table.allChildren
    indeterminateObjects := normalized.indeterminateObjects
    allocatedBytesKnown := normalized.allocatedBytesKnown
  }

def storageOf (builder : GraphBuilder) (entries : List CompactEntry) : EntryStorage :=
  if builder.isDense then .dense entries else .sparse entries builder.idToIdx

/-- The graph of a stream that ended before its first entry. -/
def emptyGraph (builder : GraphBuilder) (terminal : TerminalObservation) : DirectoryGraph where
  rootTarget := builder.rootTarget
  rootId := 0
  storage := .dense []
  allChildren := []
  objects := []
  objectStreams := builder.objectStreams
  gaps := builder.gaps
  terminal := terminal
  allocatedBytesKnown := builder.allocatedBytesKnown
  indeterminateExternalReferenceObjects := 0

def finish (rt : Runtime) (builder : GraphBuilder) :
    Checked (Except GraphBuildError DirectoryGraph) :=
  match builder.terminal with
  | none => .ok (.error .missingTerminal)
  | some terminal =>
      if builder.entries = [] then
        if terminal.outcome = .finished then .ok (.error (.invalidRoot 0 0))
        else .ok (.ok (builder.emptyGraph terminal))
      else do
        let aggregates ← builder.computeAggregates rt
        return .ok {
          rootTarget := builder.rootTarget
          rootId := 1
          storage := builder.storageOf aggregates.entries
          allChildren := aggregates.allChildren
          objects := aggregates.objects
          objectStreams := aggregates.objectStreams
          gaps := builder.gaps
          terminal
          allocatedBytesKnown := aggregates.allocatedBytesKnown
          indeterminateExternalReferenceObjects := aggregates.indeterminateObjects }

/-- Ingest the records a reader yields and settle the graph; the first rejected
record ends the build. -/
def buildFromReader (rt : Runtime) (targetPath : String) (records : List ObservationRecord) :
    Checked (Except GraphBuildError DirectoryGraph) := do
  match ← (GraphBuilder.new targetPath).ingestAll records with
  | (.error err, _) => return .error err
  | (.ok (), builder) => builder.finish rt

end GraphBuilder

end PigTree
