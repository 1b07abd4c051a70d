import PigTree.Engine.HardLinks

/-!
# What a page answers

The nodes of a page as a function of the accepted records, like the projections of
single entries. A page leaves out a child with the identifier `0`, which no lookup
resolves.
-/

namespace PigTree

open Foundation ParentTree EntryObservation

namespace Snapshot

/-- The node of an entry, with the streams of the object behind it. -/
def node (s : Snapshot) (streams : List StreamObservation) (entry : EntryObservation) :
    DirectoryEntryNode where
  id := entry.entryId
  parentId := entry.parentId
  name := entry.name
  entryKind := DirectoryGraph.entryKindCode entry.kind
  logicalBytes := (s.shownLogical entry).getD 0
  referencedAllocatedBytes := UInt64.ofNat (clip (s.referencedBytes entry.entryId))
  allocatedSizeKnown := s.subtreeKnown entry.entryId
  childCount := UInt32.ofNat (s.childrenOf entry.entryId).length
  hasChildren := 0 < UInt32.ofNat (s.childrenOf entry.entryId).length
  uniqueAllocatedBytes := UInt64.ofNat (s.uniqueBytes entry.entryId)
  observedAliasCount := (s.shownEvidence entry).2.1
  totalLinkCount := some (.fromValueKnowledge (s.shownEvidence entry).2.2.1)
  externalReferenceStatus := (s.shownEvidence entry).2.2.2.number
  knownSubtotalAllocatedBytes := UInt64.ofNat (clip (s.referencedBytes entry.entryId))
  contentStreams := (s.streamsFor streams entry).map DirectoryGraph.streamProto

/-- The identifiers of the children of a parent; the root is the child of `0`. -/
def childIds (rt : Runtime) (s : Snapshot) (parentId : UInt32) :
    Except GraphQueryError (List UInt32) :=
  if parentId = 0 then .ok (s.entries.head?.toList.map entryId)
  else
    match s.find parentId with
    | none => .error (.parentNotFound parentId)
    | some parent =>
        if parent.kind ≠ .directory then .error (.parentNotDirectory parentId)
        else .ok ((s.orderedChildren rt parentId).map entryId)

def nodeAt (s : Snapshot) (streams : List StreamObservation) (id : UInt32) :
    Option DirectoryEntryNode :=
  if id = 0 then none else (s.find id).map (s.node streams)

/-- One page of the children of a parent. -/
def page (rt : Runtime) (s : Snapshot) (streams : List StreamObservation) (parentId : UInt32)
    (offset limit : ℕ) : Except GraphQueryError (ℕ × List DirectoryEntryNode) :=
  (s.childIds rt parentId).map
    (fun ids => (ids.length, ((ids.drop offset).take limit).filterMap (s.nodeAt streams)))

end Snapshot

namespace GraphBuilder

variable {rt : Runtime} {builder : GraphBuilder} {target : String}
  {records : List ObservationRecord} {s : Snapshot} {graph : DirectoryGraph} {idx : ℕ}
  {entry : EntryObservation} {compact : CompactEntry} {streams : List StreamObservation}

namespace Presented

variable (presented : Presented rt s graph)

include presented

/-- A page shows the evidence of the public projection. -/
theorem nodeEvidence_eq (found : s.entries[idx]? = some entry)
    (stored : graph.storage.entries[idx]? = some compact) :
    graph.nodeEvidence compact = .ok ((s.shownEvidence entry).2.1,
      .fromValueKnowledge (s.shownEvidence entry).2.2.1, (s.shownEvidence entry).2.2.2) := by
  have record := presented.recorded idx entry compact found stored
  have absent := presented.unrecorded idx entry compact found stored
  unfold DirectoryGraph.nodeEvidence Snapshot.shownEvidence
  cases known : s.objectOf entry with
  | none =>
      rw [if_neg (not_not_intro (absent.mpr known)), (presented.delivered found stored).kind_eq]
      cases entry.kind <;> rfl
  | some obj =>
      have used : compact.objectIndex ≠ noObject := by
        intro unused
        rw [absent.mp unused] at known
        cases known
      rw [recordAt, if_neg used, known] at record
      rw [if_pos used, getAt_of_getElem? record, Checked.ok_bind]
      rfl

theorem childCount_eq (found : s.entries[idx]? = some entry)
    (stored : graph.storage.entries[idx]? = some compact) :
    compact.childCount = UInt32.ofNat (s.childrenOf entry.entryId).length := by
  rcases presented.finished.slice idx compact stored with ⟨slice, isSlice, count, _⟩
  rw [← (s.orderedChildren_perm rt entry.entryId).length_eq,
    ← List.length_map entryId, ← presented.slice_eq found isSlice, ← count, UInt32.ofNat_toNat]

/-- The store resolves the identifiers of the accepted entries, except `0`. -/
theorem get_cases (id : UInt32) :
    (graph.storage.get id = none ∧ (id = 0 ∨ s.find id = none)) ∨
      ∃ (idx : ℕ) (entry : EntryObservation) (compact : CompactEntry),
        s.entries[idx]? = some entry ∧ graph.storage.entries[idx]? = some compact ∧
          graph.storage.get id = some compact ∧ id ≠ 0 ∧ s.find id = some entry ∧
            entry.entryId = id := by
  by_cases zero : id = 0
  · left
    exact ⟨presented.get_eq_none (Or.inl zero), Or.inl zero⟩
  cases located : s.find id with
  | none =>
      left
      refine ⟨presented.get_eq_none (Or.inr ?_), Or.inr rfl⟩
      intro known
      rcases List.mem_map.mp known with ⟨entry, entryMem, named⟩
      rw [Snapshot.find_eq_some_iff.mpr ⟨entryMem, named⟩] at located
      cases located
  | some entry =>
      right
      rcases Snapshot.find_eq_some_iff.mp located with ⟨entryMem, named⟩
      rcases List.mem_iff_getElem?.mp entryMem with ⟨idx, found⟩
      rcases presented.finished.delivered idx entry found with ⟨compact, stored, delivered⟩
      refine ⟨idx, entry, compact, found, stored, ?_, zero, rfl, named⟩
      exact (presented.finished.get_iff _ _).mpr
        ⟨zero, List.mem_of_getElem? stored, delivered.id_eq.trans named⟩

variable (attributed : ∀ entry ∈ s.entries, entry.entryId ≠ 0 →
  graph.streamsForEntry entry.entryId = s.streamsFor streams entry)

include attributed

theorem directoryEntryNode_eq (found : s.entries[idx]? = some entry)
    (stored : graph.storage.entries[idx]? = some compact)
    (located : graph.storage.get entry.entryId = some compact) (addressable : entry.entryId ≠ 0) :
    graph.directoryEntryNode compact = .ok (s.node streams entry) := by
  have delivered := presented.delivered found stored
  have belonging := attributed entry (List.mem_of_getElem? found) addressable
  rw [DirectoryGraph.streamsForEntry, located] at belonging
  have contents : (if compact.objectIndex ≠ noObject then
      ((graph.objectStreams.lookup compact.objectIndex).getD []).map DirectoryGraph.streamProto
        else []) = (s.streamsFor streams entry).map DirectoryGraph.streamProto := by
    rw [← belonging]
    dsimp only
    split
    · rfl
    · rfl
  rw [DirectoryGraph.directoryEntryNode, presented.nodeEvidence_eq found stored, Checked.ok_bind]
  simp only [Snapshot.node, delivered.id_eq, delivered.parentId_eq, delivered.name_eq,
    delivered.kind_eq, presented.logicalSize_eq found stored,
    presented.allocatedSizeKnown_eq found stored,
    presented.referencedAllocatedBytes_eq found stored,
    presented.uniqueAllocatedBytes_eq found stored,
    presented.knownSubtotalAllocatedBytes_eq found stored, presented.childCount_eq found stored,
    contents, Checked.pure_eq_ok]

theorem pageNodes_eq (ids : List UInt32) :
    graph.pageNodes ids = .ok (ids.filterMap (s.nodeAt streams)) := by
  induction ids with
  | nil => rfl
  | cons id ids ih =>
      rw [DirectoryGraph.pageNodes, ih]
      rcases presented.get_cases id with
        ⟨missing, absent⟩ | ⟨idx, entry, compact, found, stored, located, nonzero, lookedUp, rfl⟩
      · have skipped : s.nodeAt streams id = none := by
          rw [Snapshot.nodeAt]
          rcases absent with zero | unknown
          · rw [if_pos zero]
          · rw [unknown, Option.map_none, ite_self]
        rw [missing, List.filterMap_cons_none skipped]
      · have shown : s.nodeAt streams entry.entryId = some (s.node streams entry) := by
          rw [Snapshot.nodeAt, if_neg nonzero, lookedUp, Option.map_some]
        rw [located, List.filterMap_cons_some shown]
        simp only [presented.directoryEntryNode_eq attributed found stored located nonzero,
          Checked.ok_bind, Checked.pure_eq_ok]

omit attributed in
theorem childIds_eq (parentId : UInt32) :
    graph.childIds parentId = .ok (s.childIds rt parentId) := by
  rw [DirectoryGraph.childIds, Snapshot.childIds]
  split
  · have rooted := presented.finished.rootId_eq
    cases split : s.entries with
    | nil =>
        rw [split, if_pos rfl] at rooted
        rw [if_neg (fun both => both.1 rooted)]
        rfl
    | cons root below =>
        have found : s.entries[0]? = some root := by rw [split]; rfl
        have first := s.wellFormed.root_first root (by rw [split]; rfl)
        rw [split, if_neg (List.cons_ne_nil root below)] at rooted
        rcases presented.get_cases 1 with
          ⟨_, zero | unknown⟩ | ⟨_, _, compact, _, _, located, _, _, _⟩
        · cases zero
        · rw [Snapshot.find_eq_some_iff.mpr ⟨List.mem_of_getElem? found, first.1⟩] at unknown
          cases unknown
        · rw [rooted, located, if_pos ⟨by decide, rfl⟩, List.head?_cons, Option.toList_some,
            List.map_cons, List.map_nil, first.1]
  · next nonzero =>
      rcases presented.get_cases parentId with
        ⟨missing, absent⟩ | ⟨idx, entry, compact, found, stored, located, _, lookedUp, rfl⟩
      · rw [missing, absent.resolve_left nonzero]
      · rw [located, lookedUp]
        dsimp only
        rw [(presented.delivered found stored).kind_eq]
        split
        · rfl
        · next directory =>
            rcases presented.finished.slice idx compact stored with ⟨slice, isSlice, _, sliced⟩
            have isDirectory : compact.kind = .directory :=
              (presented.delivered found stored).kind_eq.trans (not_not.mp directory)
            rw [sliced isDirectory, presented.slice_eq found isSlice]
            rfl

/-- Every page is the page of the accepted records. -/
theorem getChildrenPage_eq (parentId : UInt32) (offset limit : ℕ) :
    graph.getChildrenPage parentId offset limit =
      .ok (s.page rt streams parentId offset limit) := by
  rw [DirectoryGraph.getChildrenPage, presented.childIds_eq, Checked.ok_bind, Snapshot.page]
  cases s.childIds rt parentId with
  | error err => rfl
  | ok ids =>
      dsimp only
      split
      · next beyond =>
          rw [Except.map, List.drop_eq_nil_of_le beyond, List.take_nil]
          rfl
      · have bounded : (ids.drop offset).take (min (offset + limit) ids.length - offset) =
            (ids.drop offset).take limit := by
          rcases Nat.le_total (offset + limit) ids.length with fits | exceeds
          · rw [Nat.min_eq_left fits, Nat.add_sub_cancel_left]
          · have short : (ids.drop offset).length ≤ limit := by
              rw [List.length_drop]
              omega
            rw [Nat.min_eq_right exceeds, ← List.length_drop, List.take_length,
              List.take_of_length_le short]
        rw [bounded, presented.pageNodes_eq attributed]
        rfl

end Presented

/-- The pages of a graph in terms of the records its builder accepted. -/
theorem Reached.getChildrenPage_eq (reached : Reached target builder records)
    (ran : builder.finish rt = .ok (.ok graph)) (parentId : UInt32) (offset limit : ℕ) :
    graph.getChildrenPage parentId offset limit =
      .ok (reached.snapshot.page rt (streamsOf records) parentId offset limit) := by
  apply (reached.presented ran).getChildrenPage_eq
  intro entry entryMem addressable
  exact reached.streamsForEntry_eq ran entryMem addressable

end GraphBuilder

end PigTree
