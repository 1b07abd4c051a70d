import PigTree.Engine.Presentation
import PigTree.Engine.Browse
import PigTree.Engine.Accounting

/-!
# What the queries answer

The public projection of every entry as a function of the accepted entries. It
mentions neither positions, object indices nor the form of the store, so two
runs that accept the same entries answer alike.
-/

namespace PigTree

open Foundation ParentTree EntryObservation

namespace Snapshot

/-- The logical size shown for an entry: a directory shows its sum. -/
def shownLogical (s : Snapshot) (entry : EntryObservation) : Option UInt64 :=
  if entry.kind = .directory then some (UInt64.ofNat (clip (s.logicalBytes entry.entryId)))
  else entry.compact.logicalSize

/-- The allocation shown for an entry. -/
def shownAllocated (s : Snapshot) (entry : EntryObservation) : Option UInt64 :=
  if entry.kind = .directory then some (UInt64.ofNat (clip (s.referencedBytes entry.entryId)))
  else entry.compact.allocatedSize

/-- Identity and link evidence shown for an entry. -/
def shownEvidence (s : Snapshot) (entry : EntryObservation) :
    Option ObjectIdentity × UInt32 × ValueKnowledge UInt32 × ExternalReferenceStatus :=
  match s.objectOf entry with
  | some obj =>
      (obj.identity, obj.observedAliasCount, obj.totalLinkCount, obj.externalReferenceStatus)
  | none =>
      match entry.kind with
      | .directory => (none, 1, .notApplicable, .notApplicable)
      | .special => (none, 1, .notApplicable, .notApplicable)
      | .file => (none, 1, .notObserved, ExternalReferenceStatus.derive .notObserved 1)

/-- The key that decides where a directory lists an entry. -/
def sortKey (rt : Runtime) (s : Snapshot) (entry : EntryObservation) : ChildKey :=
  toLex (decide (entry.kind ≠ .directory),
    toLex (OrderDual.toDual ((s.shownLogical entry).getD 0).toNat,
      toLex (rt.toLowercase entry.name, toLex (entry.name, entry.entryId.toNat))))

/-- The children of an entry, in the order in which it lists them. -/
def orderedChildren (rt : Runtime) (s : Snapshot) (id : UInt32) : List EntryObservation :=
  (s.childrenOf id).insertionSort (fun left right => s.sortKey rt left ≤ s.sortKey rt right)

/-- The public projection of an entry. -/
def present (rt : Runtime) (s : Snapshot) (entry : EntryObservation) : GraphEntry where
  id := entry.entryId
  parentId := entry.parentId
  name := entry.name
  kind := entry.kind
  logicalSize := s.shownLogical entry
  allocatedSize := s.shownAllocated entry
  allocatedSizeKnown := s.subtreeKnown entry.entryId
  referencedAllocatedBytes := UInt64.ofNat (clip (s.referencedBytes entry.entryId))
  uniqueAllocatedBytes := UInt64.ofNat (s.uniqueBytes entry.entryId)
  knownSubtotalAllocatedBytes := UInt64.ofNat (clip (s.referencedBytes entry.entryId))
  objectId := (s.shownEvidence entry).1
  observedAliasCount := (s.shownEvidence entry).2.1
  totalLinkCount := (s.shownEvidence entry).2.2.1
  externalReferenceStatus := (s.shownEvidence entry).2.2.2
  fileAttributes := entry.compact.fileAttributes
  reparseTag := entry.compact.reparseTag
  creationTimeUtcMs := entry.compact.creationTimeUtcMs
  lastWriteTimeUtcMs := entry.compact.lastWriteTimeUtcMs
  lastAccessTimeUtcMs := entry.compact.lastAccessTimeUtcMs
  children := (s.orderedChildren rt entry.entryId).map entryId

theorem orderedChildren_perm (rt : Runtime) (s : Snapshot) (id : UInt32) :
    (s.orderedChildren rt id).Perm (s.childrenOf id) :=
  List.perm_insertionSort _ _

theorem pairwise_orderedChildren (rt : Runtime) (s : Snapshot) (id : UInt32) :
    (s.orderedChildren rt id).Pairwise (fun left right => s.sortKey rt left ≤ s.sortKey rt right) := by
  have total : Std.Total (fun left right : EntryObservation => s.sortKey rt left ≤ s.sortKey rt right) :=
    ⟨fun left right => le_total _ _⟩
  have transitive : IsTrans EntryObservation
      (fun left right => s.sortKey rt left ≤ s.sortKey rt right) := ⟨fun _ _ _ => le_trans⟩
  exact List.pairwise_insertionSort _ _

/-- The key tells entries apart. -/
theorem sortKey_inj {rt : Runtime} {s : Snapshot} {left right : EntryObservation}
    (same : s.sortKey rt left = s.sortKey rt right) : left.entryId = right.entryId := by
  simp only [sortKey, EmbeddingLike.apply_eq_iff_eq, Prod.mk.injEq] at same
  exact UInt32.toNat_inj.mp same.2.2.2.2

end Snapshot

namespace GraphBuilder

variable {rt : Runtime} {builder : GraphBuilder} {target : String}
  {records : List ObservationRecord} {s : Snapshot} {graph : DirectoryGraph} {idx : ℕ}
  {entry : EntryObservation} {compact : CompactEntry}

namespace Presented

variable (presented : Presented rt s graph) (found : s.entries[idx]? = some entry)
  (stored : graph.storage.entries[idx]? = some compact)

include presented found stored

theorem delivered : Delivered s idx entry compact := by
  rcases presented.finished.delivered idx entry found with ⟨other, otherStored, delivered⟩
  rw [stored, Option.some.injEq] at otherStored
  exact otherStored ▸ delivered

theorem logicalSize_eq : compact.logicalSize = s.shownLogical entry := by
  have delivered := presented.delivered found stored
  unfold Snapshot.shownLogical
  by_cases directory : entry.kind = .directory
  · rw [if_pos directory, Snapshot.logicalBytes_eq found]
    have shown := delivered.values.shown (delivered.kind_eq.trans directory)
    rcases Option.isSome_iff_exists.mp shown.1 with ⟨word, present⟩
    have value := delivered.values.logical
    rw [present, Option.getD_some] at value
    rw [present, ← value, UInt64.ofNat_toNat]
  · rw [if_neg directory]
    exact ((presented.kept idx entry compact found stored).plain directory).1

theorem referencedAllocatedBytes_eq : compact.referencedAllocatedBytes =
    UInt64.ofNat (clip (s.referencedBytes entry.entryId)) := by
  rw [Snapshot.referencedBytes_eq found, ← (presented.delivered found stored).values.referenced,
    UInt64.ofNat_toNat]

theorem allocatedSize_eq : compact.allocatedSize = s.shownAllocated entry := by
  have delivered := presented.delivered found stored
  unfold Snapshot.shownAllocated
  by_cases directory : entry.kind = .directory
  · rw [if_pos directory, ← presented.referencedAllocatedBytes_eq found stored]
    exact (delivered.values.shown (delivered.kind_eq.trans directory)).2
  · rw [if_neg directory]
    exact ((presented.kept idx entry compact found stored).plain directory).2

theorem knownSubtotalAllocatedBytes_eq : compact.knownSubtotalAllocatedBytes =
    UInt64.ofNat (clip (s.referencedBytes entry.entryId)) := by
  rw [Snapshot.referencedBytes_eq found, ← (presented.delivered found stored).values.knownSubtotal,
    UInt64.ofNat_toNat]

theorem uniqueAllocatedBytes_eq :
    compact.uniqueAllocatedBytes = UInt64.ofNat (s.uniqueBytes entry.entryId) := by
  apply UInt64.toNat_inj.mp
  rw [(presented.delivered found stored).values.unique, Snapshot.uniqueAt_eq found,
    UInt64.toNat_ofNat']

theorem allocatedSizeKnown_eq : compact.allocatedSizeKnown = s.subtreeKnown entry.entryId := by
  apply Bool.eq_iff_iff.mpr
  rw [(presented.kept idx entry compact found stored).known, Snapshot.unknownAt_eq_zero_iff found]

theorem childKey_eq : childKey rt compact = s.sortKey rt entry := by
  have delivered := presented.delivered found stored
  rw [childKey, Snapshot.sortKey, presented.logicalSize_eq found stored, delivered.id_eq,
    delivered.name_eq, delivered.kind_eq]

/-- Evidence is read from the record behind the entry. -/
theorem entryEvidence_eq : graph.entryEvidence compact = .ok (s.shownEvidence entry) := by
  have record := presented.recorded idx entry compact found stored
  have absent := presented.unrecorded idx entry compact found stored
  unfold DirectoryGraph.entryEvidence Snapshot.shownEvidence
  cases known : s.objectOf entry with
  | none =>
      rw [if_neg (not_not_intro (absent.mpr known)),
        (presented.delivered found stored).kind_eq]
      cases entry.kind <;> rfl
  | some obj =>
      have used : compact.objectIndex ≠ noObject := by
        intro unused
        rw [absent.mp unused] at known
        cases known
      rw [recordAt, if_neg used, known] at record
      rw [if_pos used, getAt_of_getElem? record, Checked.ok_bind]
      rfl

end Presented

/-- Identifiers are listed in the order of the keys. -/
theorem Presented.slice_eq (presented : Presented rt s graph)
    (found : s.entries[idx]? = some entry) {slice : List UInt32}
    (isSlice : IsSlice rt s graph.storage.entries idx slice) :
    slice = (s.orderedChildren rt entry.entryId).map entryId := by
  -- a stored entry and the observation it stands for
  have origin : ∀ stored ∈ graph.storage.entries, ∃ other ∈ s.entries,
      stored.id = other.entryId ∧ childKey rt stored = s.sortKey rt other := by
    intro stored storedMem
    rcases presented.finished.found storedMem with ⟨position, other, at_, otherFound, delivered⟩
    exact ⟨other, List.mem_of_getElem? otherFound, delivered.id_eq,
      presented.childKey_eq otherFound at_⟩
  have byKeys : ∀ earlier later, Before rt graph.storage.entries earlier later →
      ∃ left ∈ s.entries, ∃ right ∈ s.entries, left.entryId = earlier ∧ right.entryId = later ∧
        s.sortKey rt left < s.sortKey rt right := by
    rintro earlier later ⟨left, leftMem, right, rightMem, rfl, rfl, smaller⟩
    rcases origin left leftMem with ⟨leftEntry, leftEntryMem, leftNamed, leftKey⟩
    rcases origin right rightMem with ⟨rightEntry, rightEntryMem, rightNamed, rightKey⟩
    exact ⟨leftEntry, leftEntryMem, rightEntry, rightEntryMem, leftNamed.symm, rightNamed.symm,
      leftKey ▸ rightKey ▸ smaller⟩
  -- the children as observations and as positions
  have listed : childIdsAt s idx = (s.childrenOf entry.entryId).map entryId := by
    rw [← Snapshot.childrenOf_eq found, childIdsAt, map_filterMap_getElem?]
    intro child childMem
    rcases exists_getElem? (mem_children.mp childMem).1 with ⟨other, otherFound⟩
    exact ⟨other, otherFound, (Snapshot.valueAt_of_found otherFound).symm⟩
  have perm : slice.Perm ((s.orderedChildren rt entry.entryId).map entryId) := by
    refine isSlice.perm.trans ?_
    rw [listed]
    exact ((s.orderedChildren_perm rt entry.entryId).map entryId).symm
  have accepted : ∀ child ∈ s.orderedChildren rt entry.entryId, child ∈ s.entries := by
    intro child childMem
    exact (List.mem_filter.mp ((s.orderedChildren_perm rt _).mem_iff.mp childMem)).1
  let order : UInt32 → UInt32 → Prop := fun earlier later =>
    ∃ left ∈ s.entries, ∃ right ∈ s.entries, left.entryId = earlier ∧ right.entryId = later ∧
      s.sortKey rt left ≤ s.sortKey rt right
  have sliceSorted : slice.Pairwise order := by
    refine isSlice.sorted.imp ?_
    intro earlier later before
    rcases byKeys earlier later before with
      ⟨left, leftMem, right, rightMem, leftNamed, rightNamed, smaller⟩
    exact ⟨left, leftMem, right, rightMem, leftNamed, rightNamed, smaller.le⟩
  have orderedSorted : ((s.orderedChildren rt entry.entryId).map entryId).Pairwise order := by
    rw [List.pairwise_map]
    refine (s.pairwise_orderedChildren rt entry.entryId).imp_of_mem ?_
    intro left right leftMem rightMem smaller
    exact ⟨left, accepted left leftMem, right, accepted right rightMem, rfl, rfl, smaller⟩
  refine perm.eq_of_pairwise ?_ sliceSorted orderedSorted
  rintro earlier later _ _ ⟨left, leftMem, right, rightMem, rfl, rfl, smaller⟩
    ⟨other, otherMem, another, anotherMem, otherNamed, anotherNamed, larger⟩
  have same := s.wellFormed.eq_of_entryId otherMem rightMem otherNamed
  have again := s.wellFormed.eq_of_entryId anotherMem leftMem anotherNamed
  subst same
  subst again
  exact Snapshot.sortKey_inj (le_antisymm smaller larger)

theorem Presented.childrenOf_eq (presented : Presented rt s graph)
    (found : s.entries[idx]? = some entry) (stored : graph.storage.entries[idx]? = some compact) :
    graph.childrenOf compact = .ok ((s.orderedChildren rt entry.entryId).map entryId) := by
  rcases presented.finished.slice idx compact stored with ⟨slice, isSlice, count, sliced⟩
  have ordered := presented.slice_eq found isSlice
  unfold DirectoryGraph.childrenOf
  split
  · next none =>
      rw [none] at count
      rw [← ordered, List.length_eq_zero_iff.mp count.symm]
  · next some =>
      rw [← ordered]
      apply sliced
      by_contra plain
      exact some (presented.finished.childCount_eq_zero (List.mem_of_getElem? stored) plain)

/-- The projection of a stored entry. -/
theorem Presented.projectGraphEntry_eq (presented : Presented rt s graph)
    (found : s.entries[idx]? = some entry) (stored : graph.storage.entries[idx]? = some compact) :
    graph.projectGraphEntry compact = .ok (s.present rt entry) := by
  have delivered := presented.delivered found stored
  have copied := presented.copied idx entry compact found stored
  have attributes := congrArg CompactEntry.fileAttributes copied
  have tag := congrArg CompactEntry.reparseTag copied
  have created := congrArg CompactEntry.creationTimeUtcMs copied
  have written := congrArg CompactEntry.lastWriteTimeUtcMs copied
  have accessed := congrArg CompactEntry.lastAccessTimeUtcMs copied
  simp only [CompactEntry.fixed, EntryObservation.tagged] at attributes tag created written accessed
  rw [DirectoryGraph.projectGraphEntry, presented.childrenOf_eq found stored, Checked.ok_bind,
    presented.entryEvidence_eq found stored, Checked.ok_bind]
  simp only [Snapshot.present, delivered.id_eq, delivered.parentId_eq, delivered.name_eq,
    delivered.kind_eq, attributes, tag, created, written, accessed,
    presented.logicalSize_eq found stored, presented.allocatedSize_eq found stored,
    presented.allocatedSizeKnown_eq found stored,
    presented.referencedAllocatedBytes_eq found stored,
    presented.uniqueAllocatedBytes_eq found stored,
    presented.knownSubtotalAllocatedBytes_eq found stored, Checked.pure_eq_ok]

/-- Every identifier but `0` answers with the projection of its entry. -/
theorem Presented.entry_eq (presented : Presented rt s graph) (entryMem : entry ∈ s.entries)
    (addressable : entry.entryId ≠ 0) :
    graph.entry entry.entryId = .ok (some (s.present rt entry)) := by
  rcases List.mem_iff_getElem?.mp entryMem with ⟨idx, found⟩
  rcases presented.finished.delivered idx entry found with ⟨compact, stored, delivered⟩
  have located : graph.storage.get entry.entryId = some compact :=
    (presented.finished.get_iff _ _).mpr ⟨addressable, List.mem_of_getElem? stored, delivered.id_eq⟩
  rw [DirectoryGraph.entry, located]
  simp only [presented.projectGraphEntry_eq found stored, Checked.ok_bind, Checked.pure_eq_ok]

/-- Identifiers that are not those of an entry, and `0`, answer with nothing. -/
theorem Presented.get_eq_none (presented : Presented rt s graph) {id : UInt32}
    (absent : id = 0 ∨ id ∉ s.entries.map entryId) : graph.storage.get id = none := by
  apply Option.eq_none_iff_forall_ne_some.mpr
  intro compact located
  rcases (presented.finished.get_iff id compact).mp located with ⟨nonzero, compactMem, named⟩
  rcases presented.finished.found compactMem with ⟨_, other, _, found, delivered⟩
  rcases absent with zero | unknown
  · exact nonzero zero
  · apply unknown
    rw [← named, delivered.id_eq]
    exact List.mem_map_of_mem (List.mem_of_getElem? found)

theorem Presented.entry_eq_none (presented : Presented rt s graph) {id : UInt32}
    (absent : id = 0 ∨ id ∉ s.entries.map entryId) : graph.entry id = .ok none := by
  rw [DirectoryGraph.entry, presented.get_eq_none absent]

end GraphBuilder

end PigTree
