import PigTree.Engine.Finish

/-!
# The child table is the parent relation

The slices of the directories tile the flat list, every entry but the root is in
the slice of the entry it names as its parent, and nowhere else, and every slice
is in the strict order of the comparison.
-/

namespace PigTree

open Foundation ParentTree EntryObservation

/-- The part of the flat child list that belongs to an entry. -/
def DirectoryGraph.slice (graph : DirectoryGraph) (compact : CompactEntry) : List UInt32 :=
  (graph.allChildren.drop compact.childStart.toNat).take compact.childCount.toNat

namespace GraphBuilder

variable {rt : Runtime} {builder : GraphBuilder} {target : String}
  {records : List ObservationRecord} {graph : DirectoryGraph} {s : Snapshot}

namespace Finished

variable (finished : Finished rt s graph)

include finished

/-- The slice of a directory is inside the flat list. -/
theorem slice_of_directory {idx : ℕ} {dir : CompactEntry}
    (stored : graph.storage.entries[idx]? = some dir) (directory : dir.kind = .directory) :
    dir.childStart.toNat + dir.childCount.toNat ≤ graph.allChildren.length ∧
      IsSlice rt s graph.storage.entries idx (graph.slice dir) ∧
        dir.childCount.toNat = (graph.slice dir).length := by
  rcases finished.slice idx dir stored with ⟨slice, isSlice, count, sliced⟩
  have taken := sliced directory
  simp only [sliceAt] at taken
  split at taken
  · next fits =>
      have same : graph.slice dir = slice := Except.ok.inj taken
      exact ⟨fits, same ▸ isSlice, same ▸ count⟩
  · cases taken

/-- Only the first entry carries the identifier of the root. -/
theorem id_eq_rootId_iff {idx : ℕ} {compact : CompactEntry} {entry : EntryObservation}
    (found : s.entries[idx]? = some entry) (delivered : Delivered s idx entry compact) :
    compact.id = graph.rootId ↔ idx = 0 := by
  have nonempty : s.entries ≠ [] := by
    rintro none
    simp [none] at found
  rcases List.exists_cons_of_ne_nil nonempty with ⟨root, below, split⟩
  have first : s.entries[0]? = some root := by simp [split]
  have rootId := (s.wellFormed.root_first root (by simp [split])).1
  rw [finished.rootId_eq, if_neg nonempty, delivered.id_eq, ← rootId]
  constructor
  · intro same
    rw [← s.wellFormed.indexOf_eq found, same, s.wellFormed.indexOf_eq first]
  · rintro rfl
    rw [first, Option.some.injEq] at found
    rw [found]

theorem nodup_allChildren : graph.allChildren.Nodup := by
  apply finished.listed.nodup_iff.mpr
  exact s.wellFormed.nodup_ids.sublist ((List.tail_sublist _).map entryId)

theorem mem_allChildren_iff {id : UInt32} : id ∈ graph.allChildren ↔
    ∃ compact ∈ graph.storage.entries, compact.id = id ∧ compact.id ≠ graph.rootId := by
  rw [finished.listed.mem_iff, List.mem_map]
  constructor
  · rintro ⟨entry, entryMem, rfl⟩
    rcases List.mem_iff_getElem?.mp entryMem with ⟨idx, below⟩
    rw [List.getElem?_tail] at below
    rcases finished.delivered (idx + 1) entry below with ⟨compact, stored, delivered⟩
    refine ⟨compact, List.mem_of_getElem? stored, delivered.id_eq, ?_⟩
    rw [ne_eq, finished.id_eq_rootId_iff below delivered]
    exact Nat.succ_ne_zero idx
  · rintro ⟨compact, compactMem, rfl, notRoot⟩
    rcases finished.found compactMem with ⟨idx, entry, _, found, delivered⟩
    rw [ne_eq, finished.id_eq_rootId_iff found delivered] at notRoot
    rcases Nat.exists_eq_succ_of_ne_zero notRoot with ⟨before, rfl⟩
    rw [← List.getElem?_tail] at found
    exact ⟨entry, List.mem_of_getElem? found, delivered.id_eq.symm⟩

/-- An entry below the root is in the slice of the entry it names as its parent. -/
theorem mem_slice_parent {compact : CompactEntry} (compactMem : compact ∈ graph.storage.entries)
    (notRoot : compact.id ≠ graph.rootId) :
    ∃ parent ∈ graph.storage.entries, parent.id = compact.parentId ∧
      parent.kind = .directory ∧ compact.id ∈ graph.slice parent := by
  rcases finished.found compactMem with ⟨idx, entry, _, found, delivered⟩
  rw [ne_eq, finished.id_eq_rootId_iff found delivered] at notRoot
  have positive := Nat.pos_of_ne_zero notRoot
  rcases s.wellFormed.parent found positive with ⟨_, _, above, aboveFound, named, directory⟩
  rcases finished.delivered _ above aboveFound with ⟨parent, stored, parentDelivered⟩
  have isDirectory : parent.kind = .directory := parentDelivered.kind_eq.trans directory
  refine ⟨parent, List.mem_of_getElem? stored, ?_, isDirectory, ?_⟩
  · rw [parentDelivered.id_eq, named, delivered.parentId_eq]
  · apply (finished.slice_of_directory stored isDirectory).2.1.perm.mem_iff.mpr
    apply List.mem_map.mpr
    refine ⟨idx, mem_children.mpr ⟨?_, positive, rfl⟩, ?_⟩
    · exact (List.getElem?_eq_some_iff.mp found).1
    · rw [Snapshot.valueAt_of_found found, delivered.id_eq]

theorem childCount_eq_zero {compact : CompactEntry} (compactMem : compact ∈ graph.storage.entries)
    (plain : compact.kind ≠ .directory) : compact.childCount = 0 := by
  rcases finished.found compactMem with ⟨idx, entry, stored, found, delivered⟩
  rcases finished.slice idx compact stored with ⟨slice, isSlice, count, _⟩
  have childless := s.children_eq_nil found (delivered.kind_eq ▸ plain)
  have none := isSlice.perm
  rw [childIdsAt, childless, List.map_nil] at none
  rw [none.eq_nil, List.length_nil] at count
  exact UInt32.toNat_inj.mp count

end Finished

/-- The child table of every graph a builder returns: the slices of the
directories tile it, every identifier but the root's occurs once, in the slice
of its parent, and the slices are strictly sorted. -/
theorem childTable_exact (reached : Reached target builder records)
    (ran : builder.finish rt = .ok (.ok graph)) :
    (∀ dir ∈ graph.storage.entries, dir.kind = .directory →
        dir.childStart.toNat + dir.childCount.toNat ≤ graph.allChildren.length) ∧
      (∀ position < graph.allChildren.length, ∃! idx : ℕ, ∃ dir : CompactEntry,
        graph.storage.entries[idx]? = some dir ∧ dir.kind = .directory ∧
          dir.childStart.toNat ≤ position ∧
            position < dir.childStart.toNat + dir.childCount.toNat) ∧
      (∀ compact ∈ graph.storage.entries, compact.kind ≠ .directory → compact.childCount = 0) ∧
      graph.allChildren.Nodup ∧
      (∀ id, id ∈ graph.allChildren ↔ ∃ compact ∈ graph.storage.entries,
        compact.id = id ∧ compact.id ≠ graph.rootId) ∧
      (∀ compact ∈ graph.storage.entries, compact.id ≠ graph.rootId →
        ∃ parent ∈ graph.storage.entries, parent.id = compact.parentId ∧
          parent.kind = .directory ∧ compact.id ∈ graph.slice parent) ∧
      (∀ dir ∈ graph.storage.entries, dir.kind = .directory →
        (graph.slice dir).Pairwise (Before rt graph.storage.entries)) := by
  have finished := (reached.finished ran).1
  refine ⟨?_, finished.tiled, fun compact mem plain => finished.childCount_eq_zero mem plain,
    finished.nodup_allChildren, fun id => finished.mem_allChildren_iff,
    fun compact mem notRoot => finished.mem_slice_parent mem notRoot, ?_⟩
  · intro dir dirMem directory
    rcases finished.found dirMem with ⟨idx, _, stored, _, _⟩
    exact (finished.slice_of_directory stored directory).1
  · intro dir dirMem directory
    rcases finished.found dirMem with ⟨idx, _, stored, _, _⟩
    exact (finished.slice_of_directory stored directory).2.1.sorted

theorem childTable_exact_shared : ∃ (builder : GraphBuilder) (graph : DirectoryGraph),
    Reached "c:" builder Sample.shared ∧ builder.finish Sample.runtime = .ok (.ok graph) ∧
      (∀ dir ∈ graph.storage.entries, dir.kind = .directory →
        (graph.slice dir).Pairwise (Before Sample.runtime graph.storage.entries)) := by
  rcases exists_of_isBuilt Sample.isBuilt_shared with ⟨builder, graph, reached, ran⟩
  rcases childTable_exact reached ran with ⟨_, _, _, _, _, _, sorted⟩
  exact ⟨builder, graph, reached, ran, sorted⟩

end GraphBuilder

end PigTree
