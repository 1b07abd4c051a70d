import PigTree.Engine.Finish

/-!
# Accounting

What the finished graph reports against what the accepted records say: unique
bytes, logical bytes and referenced bytes of every directory, the totals of the
terminal record, and the condition under which the graph is finished at all.
-/

namespace PigTree

open Foundation ParentTree EntryObservation

namespace Snapshot

variable {s : Snapshot} {idx : ℕ} {entry : EntryObservation}

/-! ### Positions and identifiers -/

theorem logicalBytes_eq (found : s.entries[idx]? = some entry) :
    s.logicalBytes entry.entryId = s.logicalAt idx :=
  sum_subtree found EntryObservation.logicalBytes

theorem referencedBytes_eq (found : s.entries[idx]? = some entry) :
    s.referencedBytes entry.entryId = s.referencedAt idx :=
  sum_subtree found EntryObservation.allocatedBytes

/-- Sums over all entries are sums over the subtree of the root. -/
theorem sum_entries (s : Snapshot) (value : EntryObservation → ℕ) :
    (s.entries.map value).sum = ∑ idx ∈ s.tree.subtree 0, s.valueAt value idx := by
  have listed : s.entries.map value = (List.range s.entries.length).map (s.valueAt value) := by
    apply List.ext_getElem?
    intro idx
    by_cases inside : idx < s.entries.length
    · simp [inside, valueAt]
    · simp [inside]
  rw [listed, ← List.sum_toFinset _ List.nodup_range]
  apply Finset.sum_congr _ (fun _ _ => rfl)
  ext idx
  simp [s.tree.isAncestor_zero idx]

/-- The children by position are the entries that name their parent. -/
theorem childrenOf_eq (found : s.entries[idx]? = some entry) :
    (s.tree.children idx).filterMap (fun child => s.entries[child]?) =
      s.childrenOf entry.entryId := by
  have isChild : ∀ child other, s.entries[child]? = some other →
      ((0 < child ∧ s.tree.parent child = idx) ↔
        (other.parentId ≠ 0 ∧ other.parentId = entry.entryId)) := by
    intro child other otherFound
    constructor
    · rintro ⟨positive, rfl⟩
      rcases s.wellFormed.parent otherFound positive with ⟨below, _, parent, parentFound, named, _⟩
      rw [tree_parent, parentFound, Option.some.injEq] at found
      exact ⟨below, found ▸ named.symm⟩
    · rintro ⟨below, named⟩
      have positive : 0 < child := by
        apply Nat.pos_of_ne_zero
        rintro rfl
        have first : other ∈ s.entries.head? := by rw [List.head?_eq_getElem?, otherFound]; rfl
        exact below (s.wellFormed.root_first other first).2.1
      refine ⟨positive, ?_⟩
      rcases s.wellFormed.parent otherFound positive with ⟨_, _, parent, parentFound, parentId, _⟩
      rw [tree_parent, ← s.wellFormed.indexOf_eq found, ← named, ← parentId,
        s.wellFormed.indexOf_eq parentFound]
  exact filterMap_positions isChild

/-- What the truncation to 64 bits takes from the children of an entry. -/
theorem lostAt_eq (found : s.entries[idx]? = some entry) :
    s.lostAt idx = ((s.childrenOf entry.entryId).map
      (fun child => s.uniqueBytes child.entryId / 2 ^ 64)).sum := by
  rw [← childrenOf_eq found, map_filterMap_getElem?]
  · rfl
  · intro child childMem
    have childFound := List.getElem?_eq_getElem (mem_children.mp childMem).1
    exact ⟨_, childFound, by rw [uniqueAt_eq childFound]⟩

/-- No directory has fewer unique bytes than its children have lost. -/
theorem affordable_iff (s : Snapshot) : GraphBuilder.Affordable s ↔
    ∀ dir ∈ s.entries, dir.kind = .directory →
      2 ^ 64 * ((s.childrenOf dir.entryId).map
        (fun child => s.uniqueBytes child.entryId / 2 ^ 64)).sum ≤ s.uniqueBytes dir.entryId := by
  constructor
  · intro affordable dir dirMem directory
    rcases List.mem_iff_getElem?.mp dirMem with ⟨idx, found⟩
    rw [← lostAt_eq found, ← uniqueAt_eq found]
    exact affordable idx dir found directory
  · intro affordable idx dir found directory
    rw [lostAt_eq found, uniqueAt_eq found]
    exact affordable dir (List.mem_of_getElem? found) directory

/-! ### Unique bytes are bounded by the observed allocations -/

/-- The known allocation of a file that carries the identity. -/
def allocationFor (identity : ObjectIdentity) (entry : EntryObservation) : ℕ :=
  if entry.fileIdentity = some identity then (entry.fileAllocated.getD 0).toNat else 0

/-- The known allocation of a file with an identity. -/
def identifiedAllocated (entry : EntryObservation) : ℕ :=
  if entry.fileIdentity.isSome then (entry.fileAllocated.getD 0).toNat else 0

theorem allocatedBytes_split (entry : EntryObservation) :
    entry.selfAllocated + identifiedAllocated entry + entry.anonymousAllocated =
      entry.allocatedBytes := by
  unfold identifiedAllocated anonymousAllocated EntryObservation.allocatedBytes
  cases entry.fileIdentity <;> simp

/-- The weight of an object is at most what its aliases have allocated. -/
theorem weight_le (s : Snapshot) (identity : ObjectIdentity) :
    s.weight identity ≤ (s.entries.map (allocationFor identity)).sum := by
  unfold weight
  cases least : (s.knownAllocations identity).min? with
  | none => simp
  | some word =>
      have mem := List.min?_mem least
      rcases List.mem_filterMap.mp mem with ⟨entry, entryMem, known⟩
      split at known
      · next identified =>
          have single : allocationFor identity entry = word.toNat := by
            rw [allocationFor, if_pos identified, known]
            rfl
          rw [Option.getD_some, ← single]
          exact List.single_le_sum (by simp) _ (List.mem_map_of_mem entryMem)
      · cases known

/-- An entry counts for one identity at most. -/
theorem sum_allocationFor_le (identities : Finset ObjectIdentity)
    (entries : List EntryObservation) :
    ∑ identity ∈ identities, (entries.map (allocationFor identity)).sum ≤
      (entries.map identifiedAllocated).sum := by
  induction entries with
  | nil => simp
  | cons entry entries ih =>
      simp only [List.map_cons, List.sum_cons, Finset.sum_add_distrib]
      apply Nat.add_le_add _ ih
      unfold allocationFor identifiedAllocated
      cases entry.fileIdentity with
      | none => simp
      | some identity =>
          simp only [Option.some.injEq, Finset.sum_ite_eq, Option.isSome_some, if_true]
          split <;> simp

theorem subtree_sublist (s : Snapshot) (id : UInt32) : (s.subtree id).Sublist s.entries := by
  have all := filterMap_range_getElem? s.entries
  conv_rhs => rw [← all]
  exact List.filter_sublist.filterMap _

theorem uniqueBytes_le (s : Snapshot) (id : UInt32) :
    s.uniqueBytes id ≤ (s.entries.map EntryObservation.allocatedBytes).sum := by
  have parts : (s.entries.map EntryObservation.allocatedBytes).sum =
      (s.entries.map selfAllocated).sum + (s.entries.map identifiedAllocated).sum +
        (s.entries.map anonymousAllocated).sum := by
    rw [← List.sum_map_add, ← List.sum_map_add]
    congr 1
    apply List.map_congr_left
    intro entry _
    exact (allocatedBytes_split entry).symm
  have self := ((s.subtree_sublist id).map selfAllocated).sum_le_sum (by simp)
  have anonymous := ((s.subtree_sublist id).map anonymousAllocated).sum_le_sum (by simp)
  have objects : ∑ identity ∈ s.identities id, s.weight identity ≤
      (s.entries.map identifiedAllocated).sum :=
    (Finset.sum_le_sum (fun identity _ => s.weight_le identity)).trans
      (sum_allocationFor_le (s.identities id) s.entries)
  unfold uniqueBytes
  omega

/-- Below `2 ^ 64` bytes nothing is lost. -/
theorem affordable_of_lt (small : (s.entries.map EntryObservation.allocatedBytes).sum < 2 ^ 64) :
    GraphBuilder.Affordable s := by
  rw [affordable_iff]
  intro dir dirMem directory
  have nothing : ((s.childrenOf dir.entryId).map
      (fun child => s.uniqueBytes child.entryId / 2 ^ 64)).sum = 0 := by
    apply List.sum_eq_zero
    intro lost lostMem
    rcases List.mem_map.mp lostMem with ⟨child, _, rfl⟩
    have bound := s.uniqueBytes_le child.entryId
    exact Nat.div_eq_of_lt (by omega)
  rw [nothing]
  exact Nat.zero_le _

theorem eq_of_entries {other : Snapshot} (same : s.entries = other.entries) : s = other := by
  cases s
  cases other
  cases same
  rfl

end Snapshot

namespace GraphBuilder

variable {rt : Runtime} {builder : GraphBuilder} {target : String}
  {records : List ObservationRecord} {graph : DirectoryGraph} {s : Snapshot}

namespace Finished

variable (finished : Finished rt s graph)

include finished

/-- The reported unique bytes are the exact ones modulo `2 ^ 64`. -/
theorem toNat_uniqueAllocatedBytes {compact : CompactEntry}
    (compactMem : compact ∈ graph.storage.entries) :
    compact.uniqueAllocatedBytes.toNat = s.uniqueBytes compact.id % 2 ^ 64 := by
  rcases finished.found compactMem with ⟨idx, entry, _, found, delivered⟩
  rw [delivered.values.unique, delivered.id_eq, Snapshot.uniqueAt_eq found]

/-- Entries of one kind, counted in the graph and in the records. -/
theorem countP_kind (kind : EntryKind) :
    graph.storage.entries.countP (fun compact => compact.kind = kind) =
      s.entries.countP (fun entry => entry.kind = kind) := by
  have kinds : graph.storage.entries.map CompactEntry.kind = s.entries.map EntryObservation.kind := by
    apply List.ext_getElem?
    intro idx
    by_cases inside : idx < s.entries.length
    · have found := List.getElem?_eq_getElem inside
      rcases finished.delivered idx _ found with ⟨compact, stored, delivered⟩
      rw [List.getElem?_map, List.getElem?_map, stored, found, Option.map_some, Option.map_some,
        delivered.kind_eq]
    · have outside : graph.storage.entries.length ≤ idx := by
        rw [finished.length_eq]
        omega
      simp [inside, outside]
  have graphCount := List.countP_map (p := fun k => decide (k = kind)) (f := CompactEntry.kind)
    (l := graph.storage.entries)
  have recordCount := List.countP_map (p := fun k => decide (k = kind))
    (f := EntryObservation.kind) (l := s.entries)
  rw [kinds, recordCount] at graphCount
  exact graphCount.symm

end Finished

/-! ### Unique bytes -/

/-- The observed allocations of all accepted entries, when the running total did not clip. -/
theorem Reached.sum_allocatedBytes_lt (reached : Reached target builder records)
    {term : TerminalObservation} (ended : builder.terminal = some term)
    (unclipped : term.totalAllocatedBytes.toNat < UInt64.size - 1) :
    ((entriesOf records).map EntryObservation.allocatedBytes).sum < 2 ^ 64 := by
  have represents := reached.represents
  have total := represents.tally.allocated_eq
  rw [(represents.reconciled term ended).allocated, total] at unclipped
  unfold clip UInt64.size at unclipped
  omega

/-- Unique allocation is exact at every directory, unless the running total of
the builder has reached the largest word. -/
theorem uniqueAllocatedBytes_exact (reached : Reached target builder records)
    (ran : builder.finish rt = .ok (.ok graph)) {term : TerminalObservation}
    (ended : builder.terminal = some term)
    (unclipped : term.totalAllocatedBytes.toNat < UInt64.size - 1) :
    ∀ dir ∈ graph.storage.entries, dir.kind = .directory →
      dir.uniqueAllocatedBytes.toNat = reached.snapshot.uniqueBytes dir.id := by
  intro dir dirMem _
  have finished := (reached.finished ran).1
  have bound := reached.sum_allocatedBytes_lt ended unclipped
  have small := reached.snapshot.uniqueBytes_le dir.id
  rw [reached.snapshot_entries] at small
  rw [finished.toNat_uniqueAllocatedBytes dirMem, Nat.mod_eq_of_lt (by omega)]

theorem uniqueAllocatedBytes_exact_shared : ∃ (builder : GraphBuilder) (graph : DirectoryGraph),
    ∃ reached : Reached "c:" builder Sample.shared,
      builder.finish Sample.runtime = .ok (.ok graph) ∧
        ∀ dir ∈ graph.storage.entries, dir.kind = .directory →
          dir.uniqueAllocatedBytes.toNat = reached.snapshot.uniqueBytes dir.id := by
  rcases exists_of_isBuilt Sample.isBuilt_shared with ⟨builder, graph, reached, ran⟩
  have ended : builder.terminal = some (Sample.terminal 3 3 19 240) :=
    reached.represents.terminal_eq
  exact ⟨builder, graph, reached, ran, uniqueAllocatedBytes_exact reached ran ended (by decide)⟩

/-! ### When the graph is finished -/

/-- A builder with its terminal record returns from `finish` exactly when it has
no entries, or less than `2 ^ 32` and every directory has at least the unique
bytes its children have lost. -/
theorem finish_returns_iff_affordable (reached : Reached target builder records)
    (rt : Runtime) (ended : builder.terminal.isSome) :
    (∃ result, builder.finish rt = .ok result) ↔
      entriesOf records = [] ∨ (entriesOf records).length < 2 ^ 32 ∧
        ∀ dir ∈ entriesOf records, dir.kind = .directory →
          2 ^ 64 * ((reached.snapshot.childrenOf dir.entryId).map
            (fun child => reached.snapshot.uniqueBytes child.entryId / 2 ^ 64)).sum ≤
              reached.snapshot.uniqueBytes dir.entryId := by
  rw [reached.finish_returns_iff rt ended, reached.snapshot.affordable_iff]
  rfl

theorem finish_returns_iff_affordable_shared : ∃ builder,
    ∃ reached : Reached "c:" builder Sample.shared,
      ((∃ result, builder.finish Sample.runtime = .ok result) ↔
        entriesOf Sample.shared = [] ∨ (entriesOf Sample.shared).length < 2 ^ 32 ∧
          ∀ dir ∈ entriesOf Sample.shared, dir.kind = .directory →
            2 ^ 64 * ((reached.snapshot.childrenOf dir.entryId).map
              (fun child => reached.snapshot.uniqueBytes child.entryId / 2 ^ 64)).sum ≤
                reached.snapshot.uniqueBytes dir.entryId) := by
  rcases exists_of_isBuilt Sample.isBuilt_shared with ⟨builder, _, reached, _⟩
  have ended : builder.terminal = some (Sample.terminal 3 3 19 240) :=
    reached.represents.terminal_eq
  exact ⟨builder, reached, finish_returns_iff_affordable reached Sample.runtime (by simp [ended])⟩

/-- Two files of `2 ^ 63` bytes, each linked from both directories of the root. -/
def Sample.doublyShared : List ObservationRecord := [
  Sample.directory 1 0 "c:", Sample.directory 2 1 "left", Sample.directory 3 1 "right",
  Sample.file 4 2 "a" 0 (2 ^ 63) (some (Sample.objectIdentity 1)),
  Sample.file 5 2 "b" 0 (2 ^ 63) (some (Sample.objectIdentity 2)),
  Sample.file 6 3 "a" 0 (2 ^ 63) (some (Sample.objectIdentity 1)),
  Sample.file 7 3 "b" 0 (2 ^ 63) (some (Sample.objectIdentity 2)),
  .terminal (Sample.terminal 3 4 0 0xFFFFFFFFFFFFFFFF)]

def Sample.isNegative : Checked (Except GraphBuildError DirectoryGraph) → Bool
  | .error fault => fault = negativeUnique (-2 ^ 64) 1
  | _ => false

def Sample.aborts : Ingest → Bool
  | .ok (.ok (), builder) => builder.terminal.isSome && isNegative (builder.finish runtime)
  | _ => false

/-- Every record of this stream is accepted, and `finish` fails its assertion:
each directory's `2 ^ 64` bytes are stored as zero before the shared `2 ^ 64`
are subtracted at the root. -/
theorem finish_aborts_doublyShared : ∃ builder,
    (GraphBuilder.new "c:").ingestAll Sample.doublyShared = .ok (.ok (), builder) ∧
      builder.terminal.isSome ∧ builder.finish Sample.runtime =
        .error (negativeUnique (-2 ^ 64) 1) := by
  have aborted :
      Sample.aborts ((GraphBuilder.new "c:").ingestAll Sample.doublyShared) = true := by
    decide +kernel
  unfold Sample.aborts at aborted
  split at aborted
  · next builder fed =>
      rw [Bool.and_eq_true] at aborted
      refine ⟨builder, fed, aborted.1, ?_⟩
      have fault := aborted.2
      unfold Sample.isNegative at fault
      split at fault
      · next raised failed => rw [failed, of_decide_eq_true fault]
      · cases fault
  · cases aborted

/-! ### Reconciliation -/

/-- The sums of a directory are the exact sums, cut off at the largest word. -/
theorem Finished.directory_sums (finished : Finished rt s graph) {dir : CompactEntry}
    (dirMem : dir ∈ graph.storage.entries) (directory : dir.kind = .directory) :
    (∃ logical, dir.logicalSize = some logical ∧
        logical.toNat = min (2 ^ 64 - 1) (s.logicalBytes dir.id)) ∧
      dir.referencedAllocatedBytes.toNat = min (2 ^ 64 - 1) (s.referencedBytes dir.id) ∧
        dir.knownSubtotalAllocatedBytes = dir.referencedAllocatedBytes ∧
          dir.allocatedSize = some dir.referencedAllocatedBytes := by
  rcases finished.found dirMem with ⟨idx, entry, _, found, delivered⟩
  have values := delivered.values
  have clipped : ∀ value : ℕ, clip value = min (2 ^ 64 - 1) value := by
    intro value
    rw [clip, Nat.min_comm]
    rfl
  have shown := values.shown directory
  rcases Option.isSome_iff_exists.mp shown.1 with ⟨logical, logicalEq⟩
  have logicalValue := values.logical
  rw [logicalEq, Option.getD_some, clipped] at logicalValue
  rw [delivered.id_eq, Snapshot.logicalBytes_eq found, Snapshot.referencedBytes_eq found]
  refine ⟨⟨logical, logicalEq, logicalValue⟩, ?_, ?_, shown.2⟩
  · rw [values.referenced, clipped]
  · apply UInt64.toNat_inj.mp
    rw [values.knownSubtotal, values.referenced]

/-- The root reports the totals of the terminal record. -/
theorem Reached.root_totals (reached : Reached target builder records)
    (finished : Finished rt reached.snapshot graph) (nonempty : entriesOf records ≠ [])
    {term : TerminalObservation} (ended : builder.terminal = some term) :
    ∃ root ∈ graph.storage.entries, root.id = graph.rootId ∧
      root.logicalSize = some term.totalLogicalBytes ∧
        root.referencedAllocatedBytes = term.totalAllocatedBytes ∧
          root.knownSubtotalAllocatedBytes = term.totalAllocatedBytes ∧
            root.allocatedSize = some term.totalAllocatedBytes := by
  have represents := reached.represents
  have same := represents.reconciled term ended
  rcases List.exists_cons_of_ne_nil nonempty with ⟨first, below, split⟩
  have found : reached.snapshot.entries[0]? = some first := by
    rw [reached.snapshot_entries, split]
    rfl
  rcases finished.delivered 0 _ found with ⟨root, stored, delivered⟩
  have rootFacts := represents.core.wellFormed.root_first first (by simp [split])
  have directory : root.kind = .directory := delivered.kind_eq.trans rootFacts.2.2
  have values := delivered.values
  have shown := values.shown directory
  have logicalTotal : reached.snapshot.logicalAt 0 =
      ((entriesOf records).map EntryObservation.logicalBytes).sum :=
    (reached.snapshot.sum_entries _).symm
  have allocatedTotal : reached.snapshot.referencedAt 0 =
      ((entriesOf records).map EntryObservation.allocatedBytes).sum :=
    (reached.snapshot.sum_entries _).symm
  have referenced : root.referencedAllocatedBytes = term.totalAllocatedBytes := by
    apply UInt64.toNat_inj.mp
    rw [values.referenced, allocatedTotal, same.allocated, represents.tally.allocated_eq]
  have known : root.knownSubtotalAllocatedBytes = term.totalAllocatedBytes := by
    apply UInt64.toNat_inj.mp
    rw [values.knownSubtotal, allocatedTotal, same.allocated, represents.tally.allocated_eq]
  refine ⟨root, List.mem_of_getElem? stored, ?_, ?_, referenced, known, ?_⟩
  · rw [delivered.id_eq, rootFacts.1, finished.rootId_eq, reached.snapshot_entries, if_neg nonempty]
  · rcases Option.isSome_iff_exists.mp shown.1 with ⟨logical, logicalEq⟩
    have logicalValue := values.logical
    rw [logicalEq, Option.getD_some, logicalTotal, ← represents.tally.logical_eq,
      ← same.logical] at logicalValue
    rw [logicalEq, UInt64.toNat_inj.mp logicalValue]
  · rw [shown.2, referenced]

/-- A number of accepted entries survives the conversion to a 64-bit word. -/
theorem toNat_count (wellFormed : WellFormed s.entries) (kind : EntryKind) :
    (UInt64.ofNat (s.entries.countP (fun entry => entry.kind = kind))).toNat =
      s.entries.countP (fun entry => entry.kind = kind) := by
  have short := wellFormed.length_le
  have counted : s.entries.countP (fun entry => entry.kind = kind) ≤ s.entries.length :=
    List.countP_le_length
  exact UInt64.toNat_ofNat_of_lt' (by unfold UInt64.size; omega)

/-- Every directory reports the clipped sums of its subtree, the root reports the
totals of the terminal record, and the counts agree. -/
theorem aggregates_reconcile (reached : Reached target builder records)
    (ran : builder.finish rt = .ok (.ok graph)) (nonempty : entriesOf records ≠ [])
    {term : TerminalObservation} (ended : builder.terminal = some term) :
    (∀ dir ∈ graph.storage.entries, dir.kind = .directory →
      (∃ logical, dir.logicalSize = some logical ∧
          logical.toNat = min (2 ^ 64 - 1) (reached.snapshot.logicalBytes dir.id)) ∧
        dir.referencedAllocatedBytes.toNat =
            min (2 ^ 64 - 1) (reached.snapshot.referencedBytes dir.id) ∧
          dir.knownSubtotalAllocatedBytes = dir.referencedAllocatedBytes ∧
            dir.allocatedSize = some dir.referencedAllocatedBytes) ∧
      (∃ root ∈ graph.storage.entries, root.id = graph.rootId ∧
        root.logicalSize = some term.totalLogicalBytes ∧
          root.referencedAllocatedBytes = term.totalAllocatedBytes ∧
            root.knownSubtotalAllocatedBytes = term.totalAllocatedBytes ∧
              root.allocatedSize = some term.totalAllocatedBytes) ∧
        graph.storage.entries.countP (fun compact => compact.kind = .directory) =
            term.totalDirectories.toNat ∧
          graph.storage.entries.countP (fun compact => compact.kind = .file) =
            term.totalFiles.toNat := by
  have finished := (reached.finished ran).1
  have represents := reached.represents
  have same := represents.reconciled term ended
  refine ⟨fun dir dirMem directory => finished.directory_sums dirMem directory,
    reached.root_totals finished nonempty ended, ?_, ?_⟩
  · rw [finished.countP_kind, same.directories, represents.tally.dirCount_eq,
      ← toNat_count reached.snapshot.wellFormed]
    rfl
  · rw [finished.countP_kind, same.files, represents.tally.fileCount_eq,
      ← toNat_count reached.snapshot.wellFormed]
    rfl

theorem aggregates_reconcile_shared : ∃ (builder : GraphBuilder) (graph : DirectoryGraph),
    ∃ reached : Reached "c:" builder Sample.shared,
      (∀ dir ∈ graph.storage.entries, dir.kind = .directory →
        (∃ logical, dir.logicalSize = some logical ∧
            logical.toNat = min (2 ^ 64 - 1) (reached.snapshot.logicalBytes dir.id)) ∧
          dir.referencedAllocatedBytes.toNat =
              min (2 ^ 64 - 1) (reached.snapshot.referencedBytes dir.id) ∧
            dir.knownSubtotalAllocatedBytes = dir.referencedAllocatedBytes ∧
              dir.allocatedSize = some dir.referencedAllocatedBytes) ∧
        (∃ root ∈ graph.storage.entries, root.id = graph.rootId ∧ root.logicalSize = some 19 ∧
          root.referencedAllocatedBytes = 240 ∧ root.knownSubtotalAllocatedBytes = 240 ∧
            root.allocatedSize = some 240) ∧
          graph.storage.entries.countP (fun compact => compact.kind = .directory) = 3 ∧
            graph.storage.entries.countP (fun compact => compact.kind = .file) = 3 := by
  rcases exists_of_isBuilt Sample.isBuilt_shared with ⟨builder, graph, reached, ran⟩
  have ended : builder.terminal = some (Sample.terminal 3 3 19 240) :=
    reached.represents.terminal_eq
  exact ⟨builder, graph, reached, aggregates_reconcile reached ran (by decide) ended⟩

end GraphBuilder

end PigTree
