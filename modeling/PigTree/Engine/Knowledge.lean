import PigTree.Engine.Presentation
import PigTree.Engine.Accounting

/-!
# Knowledge flags

A directory's flag says whether the allocations below it are known, and a
graph-wide flag says it a second time. The two accounts treat special entries
differently: a special entry clears the flag of every directory above it and
leaves the graph-wide flag alone. They agree exactly when no directory has
special entries as the only unknown ones below it.
-/

namespace PigTree

open Foundation EntryObservation

namespace Snapshot

variable {s : Snapshot}

/-- Every file of a subtree has an observed allocation that no alias contradicts. -/
def AllocationsObserved (s : Snapshot) (id : UInt32) : Prop :=
  ∀ entry ∈ s.subtree id, entry.kind = .file → entry.fileAllocated.isSome ∧
    ∀ identity, entry.fileIdentity = some identity → ¬s.Contradicted identity

theorem disputed_eq_false_iff {entry : EntryObservation} : s.disputed entry = false ↔
    ∀ identity, entry.fileIdentity = some identity → ¬s.Contradicted identity := by
  rw [disputed, Option.any_eq_false]
  simp

/-- The flag of a single entry, by its kind. -/
theorem leafKnown_iff {entry : EntryObservation} : s.leafKnown entry = true ↔
    entry.kind ≠ .special ∧ (entry.kind = .file → entry.fileAllocated.isSome ∧
      ∀ identity, entry.fileIdentity = some identity → ¬s.Contradicted identity) := by
  rw [leafKnown, Bool.and_eq_true, Bool.not_eq_true', disputed_eq_false_iff]
  cases entry with
  | directory dir => simp [kind, EntryObservation.compact, GraphBuilder.directoryEntry, fileIdentity]
  | file file =>
      simp [kind, EntryObservation.compact, GraphBuilder.fileEntry, fileIdentity, fileAllocated]
  | special special => simp [kind, EntryObservation.compact, GraphBuilder.specialEntry]

/-- A subtree is known when its allocations are observed and it has no special entries. -/
theorem subtreeKnown_iff {id : UInt32} : s.subtreeKnown id = true ↔
    s.AllocationsObserved id ∧ ∀ entry ∈ s.subtree id, entry.kind ≠ .special := by
  simp only [subtreeKnown, List.all_eq_true, leafKnown_iff]
  constructor
  · intro known
    exact ⟨fun entry mem => (known entry mem).2, fun entry mem => (known entry mem).1⟩
  · rintro ⟨observed, plain⟩ entry mem
    exact ⟨plain entry mem, observed entry mem⟩

/-- Everything is below the root. -/
theorem subtree_root {root : EntryObservation} (found : s.entries[0]? = some root) :
    s.subtree root.entryId = s.entries := by
  rw [subtree, s.wellFormed.indexOf_eq found]
  have all : (List.range s.entries.length).filter (fun idx => s.tree.IsAncestor 0 idx) =
      List.range s.entries.length := by
    apply List.filter_eq_self.mpr
    intro idx _
    simpa using s.tree.isAncestor_zero idx
  rw [all]
  exact filterMap_range_getElem? s.entries

/-- The graph-wide flag is that of the root's files. -/
theorem allocationsKnown_iff {root : EntryObservation} (found : s.entries[0]? = some root) :
    s.allocationsKnown = true ↔ s.AllocationsObserved root.entryId := by
  rw [AllocationsObserved, subtree_root found, allocationsKnown, Bool.and_eq_true,
    Bool.not_eq_true', Bool.not_eq_true', List.any_eq_false, List.any_eq_false]
  simp only [Bool.not_eq_true, disputed_eq_false_iff, allocationMissing]
  constructor
  · rintro ⟨observed, undisputed⟩ entry mem isFile
    refine ⟨?_, undisputed entry mem⟩
    have present := observed entry mem
    simpa [isFile, Option.isSome_iff_ne_none] using present
  · intro both
    constructor
    · intro entry mem
      by_cases isFile : entry.kind = .file
      · have present := (both entry mem isFile).1
        simpa [isFile, Option.isSome_iff_ne_none] using present
      · simp [isFile]
    · intro entry mem identity identified
      exact (both entry mem (kind_of_fileIdentity entry identified)).2 identity identified

end Snapshot

namespace GraphBuilder

variable {rt : Runtime} {builder : GraphBuilder} {target : String}
  {records : List ObservationRecord} {s : Snapshot} {graph : DirectoryGraph}

/-- Both accounts of what is known agree with the observations. -/
structure KnowledgeConsistent (s : Snapshot) (graph : DirectoryGraph) : Prop where
  directories : ∀ dir ∈ graph.storage.entries, dir.kind = .directory →
    (dir.allocatedSizeKnown = true ↔ s.AllocationsObserved dir.id)
  graphwide : ∃ root ∈ graph.storage.entries, root.id = graph.rootId ∧
    graph.allocatedBytesKnown = root.allocatedSizeKnown

/-- The flag of a stored entry says whether its subtree is known. -/
theorem Presented.allocatedSizeKnown_iff (presented : Presented rt s graph) {idx : ℕ}
    {entry : EntryObservation} {compact : CompactEntry} (found : s.entries[idx]? = some entry)
    (stored : graph.storage.entries[idx]? = some compact) :
    compact.allocatedSizeKnown = true ↔ s.AllocationsObserved entry.entryId ∧
      ∀ other ∈ s.subtree entry.entryId, other.kind ≠ .special := by
  rw [(presented.kept idx entry compact found stored).known, Snapshot.unknownAt_eq_zero_iff found,
    Snapshot.subtreeKnown_iff]

/-- The knowledge flags are consistent exactly when no directory whose files are
all observed has a special entry below it. -/
theorem knowledge_consistent_iff (reached : Reached target builder records)
    (ran : builder.finish rt = .ok (.ok graph)) (nonempty : entriesOf records ≠ []) :
    KnowledgeConsistent reached.snapshot graph ↔
      ∀ dir ∈ entriesOf records, dir.kind = .directory →
        reached.snapshot.AllocationsObserved dir.entryId →
          ∀ entry ∈ reached.snapshot.subtree dir.entryId, entry.kind ≠ .special := by
  have presented := reached.presented ran
  have finished := presented.finished
  constructor
  · intro consistent dir dirMem directory observed
    rcases List.mem_iff_getElem?.mp dirMem with ⟨idx, found⟩
    rcases finished.delivered idx dir found with ⟨compact, stored, delivered⟩
    have flag := (consistent.directories compact (List.mem_of_getElem? stored)
      (delivered.kind_eq.trans directory)).mpr (delivered.id_eq ▸ observed)
    exact ((presented.allocatedSizeKnown_iff found stored).mp flag).2
  · intro plain
    constructor
    · intro dir dirMem directory
      rcases List.mem_iff_getElem?.mp dirMem with ⟨idx, stored⟩
      rcases finished.found dirMem with ⟨position, entry, at_, found, delivered⟩
      have flag := presented.allocatedSizeKnown_iff found at_
      rw [flag, delivered.id_eq]
      constructor
      · exact And.left
      · intro observed
        exact ⟨observed, plain entry (List.mem_of_getElem? found)
          (delivered.kind_eq.symm.trans directory) observed⟩
    · rcases List.exists_cons_of_ne_nil nonempty with ⟨root, below, split⟩
      have found : reached.snapshot.entries[0]? = some root := by simp [split]
      have first := reached.snapshot.wellFormed.root_first root (by simp [split])
      rcases finished.delivered 0 root found with ⟨compact, stored, delivered⟩
      refine ⟨compact, List.mem_of_getElem? stored, ?_, ?_⟩
      · rw [delivered.id_eq, first.1, finished.rootId_eq, if_neg (by simp [split])]
      · apply Bool.eq_iff_iff.mpr
        rw [presented.known_eq, presented.allocatedSizeKnown_iff found stored,
          Snapshot.allocationsKnown_iff found]
        constructor
        · intro observed
          exact ⟨observed, plain root (by simp [split]) first.2.2 observed⟩
        · exact And.left

theorem knowledge_consistent_iff_shared : ∃ (builder : GraphBuilder) (graph : DirectoryGraph),
    ∃ reached : Reached "c:" builder Sample.shared,
      (KnowledgeConsistent reached.snapshot graph ↔
        ∀ dir ∈ entriesOf Sample.shared, dir.kind = .directory →
          reached.snapshot.AllocationsObserved dir.entryId →
            ∀ entry ∈ reached.snapshot.subtree dir.entryId, entry.kind ≠ .special) := by
  rcases exists_of_isBuilt Sample.isBuilt_shared with ⟨builder, graph, reached, ran⟩
  exact ⟨builder, graph, reached, knowledge_consistent_iff reached ran (by decide)⟩

/-- A root directory with one special entry and nothing else. -/
def Sample.loneSpecial : List ObservationRecord := [
  Sample.directory 1 0 "c:",
  .special {
    entryId := 2
    parentId := 1
    name := "symlink"
    fileAttributes := 1024
    reparseTag := 0
    creationTimeUtcMs := 0
    lastWriteTimeUtcMs := 0
    lastAccessTimeUtcMs := 0
    objectId := none },
  .terminal (Sample.terminal 1 0 0 0)]

/-- The graph says that all allocations are known, its root says that they are not. -/
theorem not_knowledge_consistent_loneSpecial : ∃ (builder : GraphBuilder) (graph : DirectoryGraph),
    ∃ reached : Reached "c:" builder Sample.loneSpecial,
      builder.finish Sample.runtime = .ok (.ok graph) ∧
        ¬KnowledgeConsistent reached.snapshot graph := by
  have built : isBuilt (buildFromReader Sample.runtime "c:" Sample.loneSpecial) = true := by
    decide +kernel
  rcases exists_of_isBuilt built with ⟨builder, graph, reached, ran⟩
  refine ⟨builder, graph, reached, ran, ?_⟩
  intro consistent
  have presented := reached.presented ran
  rcases consistent.graphwide with ⟨root, rootMem, named, same⟩
  rcases presented.finished.found rootMem with ⟨idx, entry, stored, found, delivered⟩
  have first : reached.snapshot.entries[0]? = some entry := by
    have isRoot : entry.entryId = 1 := by
      rw [← delivered.id_eq, named, presented.finished.rootId_eq]
      rfl
    have position := reached.snapshot.wellFormed.indexOf_eq found
    rw [isRoot, reached.snapshot_entries] at position
    have zero : idx = 0 := position.symm
    rw [← zero]
    exact found
  have known : graph.allocatedBytesKnown = true := by
    rw [presented.known_eq]
    rfl
  rw [same, presented.allocatedSizeKnown_iff found stored, Snapshot.subtree_root first] at known
  have special : ∃ other ∈ reached.snapshot.entries, other.kind = .special := by
    rw [reached.snapshot_entries]
    decide
  rcases special with ⟨other, otherMem, isSpecial⟩
  exact known.2 other otherMem isSpecial

end GraphBuilder

end PigTree
